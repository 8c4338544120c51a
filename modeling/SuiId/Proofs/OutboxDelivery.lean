import SuiId.Core.Outbox
import SuiId.Lib.Machine

/-!
# Stranded mail

A claimed row is `sending` until `process_row` writes its outcome.  Whatever ends the worker in
between leaves the row behind: the process may exit, and the text of an SMTP error may bring
`process_row` to panic.  Only the start of the next worker looks for such rows, and only for those
that were claimed more than sixty seconds before.  A row that was claimed later than that stays
`sending` while the worker goes on with others.

So the worker is between rows without a row in `sending` in a run in which each start finds no
`sending` row of the last sixty seconds, and in which no reset and no outcome is lost in the
database.  The rest of what the outbox promises rests on the worker alone: nobody else writes a row
that is claimed, and the worker holds one row at a time.
-/

namespace SuiId.OutboxWorker

open Lib Lib.Machine

/-- What identifies a mail, and what it says. -/
def content (row : EmailOutboxRow) : Nat × Bytes × Bytes :=
  (row.id, row.recipientEnc, row.payloadEnc)

/-- `sent` and `failed` are the end. -/
def final (row : EmailOutboxRow) : Bool := row.state = .sent || row.state = .failed

/-- The start of a worker resets every row that is `sending`, and no outcome is lost. -/
def nothingStranded (w : State) : Event → Bool
  | .start clock _ stored =>
    w.outbox.rows.all fun row =>
      row.state ≠ .sending || (stored && EmailOutbox.stuck (clock - seconds 60) row)
  | .record stored => stored
  | _ => true

/-- What the outbox promises along a run. -/
structure Delivery (worker : OutboxWorker) (events : List Event) : Prop where
  /-- Between rows no row is `sending`. -/
  idle : (run (step worker) .new events).phase = .idle →
    ∀ row ∈ (run (step worker) .new events).outbox, row.state ≠ .sending
  /-- A row that is `sent` or `failed` is never written again. -/
  final : ∀ x ∈ trace (step worker) .new events, ∀ row ∈ x.pre.outbox,
    OutboxWorker.final row = true → row ∈ (step worker x.pre x.event).1.outbox
  attempts : ∀ row ∈ (run (step worker) .new events).outbox,
    row.attemptCount ≤ worker.maxAttempts
  /-- A mail that is in the queue stays in the table as it is. -/
  kept : ∀ past row rest, events = past ++ .enqueue row :: rest →
    (step worker (run (step worker) .new past) (.enqueue row)).2 = .done →
    ∃ row' ∈ (run (step worker) .new events).outbox, content row' = content row

/-! ## One step -/

/-- The row that the worker has. -/
def Phase.row : Phase → Option EmailOutboxRow
  | .claimed row => some row
  | .decided row _ _ => some row
  | .down => none
  | .idle => none

/-- What an outcome makes of its row. -/
def Outcome.written (now : DateTime) (row : EmailOutboxRow) : Outcome → EmailOutboxRow
  | .sent => { row with state := .sent, updatedAt := now }
  | .failed error =>
    { row with
      state := .failed, attemptCount := row.attemptCount + 1, lastError := some error,
      updatedAt := now }
  | .retry error next =>
    { row with
      state := .queued, attemptCount := row.attemptCount + 1, lastError := some error,
      nextAttemptAt := next, updatedAt := now }

section Steps

variable {worker : OutboxWorker} {w w' : State} {e : Event}

inductive Effect (worker : OutboxWorker) (w : State) : Event → State → Prop where
  | ignored {e : Event} : Effect worker w e w
  | enqueued {row outbox} :
      w.outbox.enqueue row = .ok outbox → Effect worker w (.enqueue row) { w with outbox }
  | started {clock now stored} :
      w.phase = .down →
      Effect worker w (.start clock now stored)
        ⟨if stored then w.outbox.requeueStuckSending (clock - seconds 60) now else w.outbox, .idle⟩
  | claimed {now} {row : EmailOutboxRow} :
      w.phase = .idle → w.outbox.get? row.id = some row → row.state = .queued →
      Effect worker w (.claim now row)
        ⟨(w.outbox.claim now row).1, .claimed (w.outbox.claim now row).2⟩
  | attempted {row now send outcome} :
      w.phase = .claimed row → worker.processRow row now send = some outcome →
      Effect worker w (.attempt now send) { w with phase := .decided row now outcome }
  | panicked {now send} :
      Effect worker w (.attempt now send) { w with phase := .down }
  | recorded {row : EmailOutboxRow} {now} {outcome : Outcome} {stored} :
      w.phase = .decided row now outcome →
      Effect worker w (.record stored)
        ⟨if stored then outcome.write w.outbox row.id now else w.outbox, .idle⟩
  | exited : Effect worker w .exit { w with phase := .down }

theorem step_effect (worker : OutboxWorker) (w : State) (e : Event) :
    Effect worker w e (step worker w e).1 := by
  cases e with
  | enqueue row =>
    dsimp only [step]
    split
    · next h => exact .enqueued h
    · exact .ignored
  | start clock now stored =>
    dsimp only [step]
    split
    · next h => exact .started h
    · exact .ignored
  | claim now row =>
    dsimp only [step]
    split
    · next hidle =>
      split
      · next h =>
        have hqueued : row.state = .queued := by
          have hclaim := h.2
          simp only [EmailOutbox.claimable, EmailOutbox.eligible, Bool.and_eq_true,
            decide_eq_true_eq] at hclaim
          exact hclaim.1.1
        exact .claimed hidle h.1 hqueued
      · exact .ignored
    · exact .ignored
  | attempt now send =>
    dsimp only [step]
    split
    · next hclaimed =>
      split
      · next h => exact .attempted hclaimed h
      · exact .panicked
    · exact .ignored
  | record stored =>
    dsimp only [step]
    split
    · next h => exact .recorded h
    · exact .ignored
  | exit => exact .exited

variable {outbox : EmailOutbox} {row r' : EmailOutboxRow} {now : DateTime}

theorem mem_enqueue {outbox' : EmailOutbox} {r : EmailOutboxRow}
    (h : outbox.enqueue row = .ok outbox') :
    r ∈ outbox' ↔
      r ∈ outbox ∨ r = { row with state := .queued, attemptCount := 0, lastError := none } := by
  unfold EmailOutbox.enqueue at h
  split at h
  · next hinsert =>
    cases h
    exact Table.mem_of_insert? hinsert
  · cases h

theorem mem_claim :
    r' ∈ (outbox.claim now row).1 ↔ ∃ r ∈ outbox,
      r' = if r.id = row.id then { r with state := .sending, updatedAt := now } else r := by
  simp only [EmailOutbox.claim, Table.mem_update, decide_eq_true_eq]

theorem mem_requeue {threshold : DateTime} :
    r' ∈ outbox.requeueStuckSending threshold now ↔ ∃ r ∈ outbox,
      r' = if EmailOutbox.stuck threshold r = true then
        { r with state := .queued, nextAttemptAt := now, updatedAt := now } else r := by
  simp only [EmailOutbox.requeueStuckSending, Table.mem_update]

theorem mem_write {id : Nat} {outcome : Outcome} :
    r' ∈ outcome.write outbox id now ↔ ∃ r ∈ outbox,
      r' = if r.id = id then outcome.written now r else r := by
  cases outcome with
  | sent => simp only [Outcome.write, EmailOutbox.markSent, Table.mem_update, decide_eq_true_eq,
      Outcome.written]
  | failed error => simp only [Outcome.write, EmailOutbox.markPermanentlyFailed,
      Table.mem_update, decide_eq_true_eq, Outcome.written]
  | retry error next => simp only [Outcome.write, EmailOutbox.recordFailure, Table.mem_update,
      decide_eq_true_eq, Outcome.written]

theorem written_content (now : DateTime) (row : EmailOutboxRow) (outcome : Outcome) :
    content (outcome.written now row) = content row := by
  cases outcome <;> rfl

theorem written_state (now : DateTime) (row : EmailOutboxRow) (outcome : Outcome) :
    (outcome.written now row).state ≠ .sending := by
  cases outcome <;> nofun

/-- No write changes what a mail is. -/
theorem kept_step (worker : OutboxWorker) (w : State) (e : Event) (hrow : row ∈ w.outbox) :
    ∃ row' ∈ (step worker w e).1.outbox, content row' = content row := by
  have heffect := step_effect worker w e
  generalize (step worker w e).1 = w' at heffect
  cases heffect with
  | ignored | attempted | panicked | exited => exact ⟨row, hrow, rfl⟩
  | enqueued h => exact ⟨row, (mem_enqueue h).mpr (.inl hrow), rfl⟩
  | started =>
    dsimp only
    split
    · refine ⟨_, mem_requeue.mpr ⟨row, hrow, rfl⟩, ?_⟩
      split <;> rfl
    · exact ⟨row, hrow, rfl⟩
  | claimed =>
    refine ⟨_, mem_claim.mpr ⟨row, hrow, rfl⟩, ?_⟩
    split <;> rfl
  | recorded =>
    dsimp only
    split
    · refine ⟨_, mem_write.mpr ⟨row, hrow, rfl⟩, ?_⟩
      split
      · exact written_content ..
      · rfl
    · exact ⟨row, hrow, rfl⟩

/-! ## The worker holds one row -/

/-- The row of the worker is in the table as the worker has it, and the attempts of a row are below
the limit until its end. -/
structure Inv (worker : OutboxWorker) (w : State) : Prop where
  held : ∀ row, w.phase.row = some row → row ∈ w.outbox ∧ row.state = .sending
  retry : ∀ row now error next, w.phase = .decided row now (.retry error next) →
    row.attemptCount + 1 < worker.maxAttempts
  rows : ∀ row ∈ w.outbox, row.attemptCount ≤ worker.maxAttempts ∧
    (final row = false → row.attemptCount < worker.maxAttempts)

/-- Where the worker has no row, only the attempts matter. -/
theorem Inv.of_rows {w : State} (hrow : w.phase.row = none)
    (hrows : ∀ row ∈ w.outbox, row.attemptCount ≤ worker.maxAttempts ∧
      (final row = false → row.attemptCount < worker.maxAttempts)) : Inv worker w := by
  refine ⟨fun row h => ?_, fun row now error next h => ?_, hrows⟩
  · cases hrow.symm.trans h
  · rw [h] at hrow
    cases hrow

theorem inv_new : Inv worker .new :=
  .of_rows rfl fun _ h => absurd h (Table.not_mem_empty _)

theorem processRow_retry {next : DateTime} {error : String}
    {send : OutgoingMail → Except String Unit}
    (h : worker.processRow row now send = some (.retry error next)) :
    row.attemptCount + 1 < worker.maxAttempts := by
  unfold processRow at h
  split at h
  · cases h
  · split at h
    · cases h
    · split at h
      · cases h
      · obtain ⟨text, -, hdecided⟩ := Option.map_eq_some_iff.mp h
        split at hdecided
        · cases hdecided
        · omega

theorem final_eq_false_of_sending (h : row.state = .sending) :
    final row = false := by
  simp [final, h]

theorem inv_step (hmax : 0 < worker.maxAttempts) (w : State) (e : Event) (hw : Inv worker w) :
    Inv worker (step worker w e).1 := by
  have heffect := step_effect worker w e
  generalize (step worker w e).1 = w' at heffect
  cases heffect with
  | ignored => exact hw
  | @enqueued row outbox h =>
    refine ⟨fun r hr => ?_, hw.retry, fun r hr => ?_⟩
    · exact ⟨(mem_enqueue h).mpr (.inl (hw.held r hr).1), (hw.held r hr).2⟩
    · rcases (mem_enqueue h).mp hr with hr | rfl
      · exact hw.rows r hr
      · dsimp only
        omega
  | started =>
    refine .of_rows rfl fun r hr => ?_
    dsimp only at hr
    split at hr
    · obtain ⟨r₀, hr₀, rfl⟩ := mem_requeue.mp hr
      split
      · next hstuck =>
        have hsending : r₀.state = .sending := by
          simp only [EmailOutbox.stuck, Bool.and_eq_true, decide_eq_true_eq] at hstuck
          exact hstuck.1
        obtain ⟨hle, hlt⟩ := hw.rows r₀ hr₀
        exact ⟨hle, fun _ => hlt (final_eq_false_of_sending hsending)⟩
      · exact hw.rows r₀ hr₀
    · exact hw.rows r hr
  | @claimed now row hidle hget hqueued =>
    obtain ⟨hrow, -⟩ := Table.get?_eq_some.mp hget
    refine ⟨fun r hr => ?_, fun _ _ _ _ h => (by cases h), fun r hr => ?_⟩
    · obtain rfl : { row with state := .sending, updatedAt := now } = r := Option.some.inj hr
      exact ⟨mem_claim.mpr ⟨row, hrow, by simp⟩, rfl⟩
    · obtain ⟨r₀, hr₀, rfl⟩ := mem_claim.mp hr
      split
      · next hid =>
        obtain rfl := Table.eq_of_key_eq hr₀ hrow hid
        obtain ⟨hle, hlt⟩ := hw.rows r₀ hr₀
        exact ⟨hle, fun _ => hlt (by simp [final, hqueued])⟩
      · exact hw.rows r₀ hr₀
  | @attempted row now send outcome hclaimed hprocess =>
    refine ⟨fun r hr => hw.held r ?_, fun r now' error next h => ?_, hw.rows⟩
    · rw [hclaimed]
      exact hr
    · cases h
      exact processRow_retry hprocess
  | panicked => exact .of_rows rfl hw.rows
  | @recorded row now outcome stored hdecided =>
    refine .of_rows rfl fun r hr => ?_
    dsimp only at hr
    split at hr
    · obtain ⟨r₀, hr₀, rfl⟩ := mem_write.mp hr
      split
      · next hid =>
        -- It is the row of the worker, which is still `sending`.
        obtain ⟨hrow, hsending⟩ := hw.held row (by rw [hdecided]; rfl)
        obtain rfl := Table.eq_of_key_eq hr₀ hrow hid
        obtain ⟨hle, hlt⟩ := hw.rows r₀ hr₀
        have hbelow := hlt (final_eq_false_of_sending hsending)
        cases outcome with
        | sent => exact ⟨hle, fun _ => hbelow⟩
        | failed error => exact ⟨by dsimp only [Outcome.written]; omega, nofun⟩
        | retry error next =>
          have hnext := hw.retry r₀ now error next hdecided
          exact ⟨Int.le_of_lt hnext, fun _ => hnext⟩
      · exact hw.rows r₀ hr₀
    · exact hw.rows r hr
  | exited => exact .of_rows rfl hw.rows

/-- `sent` and `failed` are never left: no write is for such a row. -/
theorem final_step (hw : Inv worker w) (e : Event) (hrow : row ∈ w.outbox)
    (hfinal : final row = true) :
    row ∈ (step worker w e).1.outbox := by
  have hnot : row.state ≠ .sending := fun h => by
    rw [final_eq_false_of_sending h] at hfinal
    cases hfinal
  have heffect := step_effect worker w e
  generalize (step worker w e).1 = w' at heffect
  cases heffect with
  | ignored => exact hrow
  | enqueued h => exact (mem_enqueue h).mpr (.inl hrow)
  | started =>
    dsimp only
    split
    · exact mem_requeue.mpr ⟨row, hrow, by simp [EmailOutbox.stuck, hnot]⟩
    · exact hrow
  | @claimed now claimed hidle hget hqueued =>
    refine mem_claim.mpr ⟨row, hrow, ?_⟩
    rw [if_neg]
    intro hid
    obtain rfl := Table.eq_of_key_eq hrow (Table.get?_eq_some.mp hget).1 hid
    simp [final, hqueued] at hfinal
  | attempted => exact hrow
  | panicked => exact hrow
  | @recorded claimed now outcome stored hdecided =>
    dsimp only
    split
    · refine mem_write.mpr ⟨row, hrow, ?_⟩
      rw [if_neg]
      intro hid
      obtain ⟨hclaimed, hsending⟩ := hw.held claimed (by rw [hdecided]; rfl)
      exact hnot (Table.eq_of_key_eq hrow hclaimed hid ▸ hsending)
    · exact hrow
  | exited => exact hrow

/-! ## No row is stranded -/

/-- Only the row of the worker is `sending`, unless no worker runs. -/
def Clean (w : State) : Prop :=
  ∀ row ∈ w.outbox, row.state = .sending → w.phase = .down ∨ w.phase.row = some row

theorem clean_new : Clean .new := fun _ h => absurd h (Table.not_mem_empty _)

theorem clean_step (hw : Clean w) (hg : nothingStranded w e = true) :
    Clean (step worker w e).1 := by
  have heffect := step_effect worker w e
  generalize (step worker w e).1 = w' at heffect
  intro r hr hsending
  cases heffect with
  | ignored => exact hw r hr hsending
  | enqueued h =>
    rcases (mem_enqueue h).mp hr with hr | rfl
    · exact hw r hr hsending
    · cases hsending
  | @started clock now stored hdown =>
    exfalso
    have hreset : ∀ row ∈ w.outbox, row.state = .sending →
        stored = true ∧ EmailOutbox.stuck (clock - seconds 60) row = true := by
      intro row hrow hstate
      have hrow := List.all_eq_true.mp hg row hrow
      simpa [hstate] using hrow
    dsimp only at hr
    split at hr
    · obtain ⟨r₀, hr₀, rfl⟩ := mem_requeue.mp hr
      split at hsending
      · cases hsending
      · next hnot => exact hnot (hreset r₀ hr₀ hsending).2
    · next hlost => exact hlost (hreset r hr hsending).1
  | @claimed now row hidle hget hqueued =>
    obtain ⟨r₀, hr₀, rfl⟩ := mem_claim.mp hr
    split at hsending
    · next hid =>
      obtain rfl := Table.eq_of_key_eq hr₀ (Table.get?_eq_some.mp hget).1 hid
      refine .inr ?_
      rw [if_pos rfl]
      rfl
    · exfalso
      rcases hw r₀ hr₀ hsending with h | h
      · cases hidle.symm.trans h
      · rw [hidle] at h
        cases h
  | @attempted row now send outcome hclaimed _ =>
    rcases hw r hr hsending with h | h
    · cases hclaimed.symm.trans h
    · rw [hclaimed] at h
      exact .inr h
  | panicked => exact .inl rfl
  | @recorded row now outcome stored hdecided =>
    exfalso
    have hstored : stored = true := hg
    subst hstored
    obtain ⟨r₀, hr₀, rfl⟩ := mem_write.mp hr
    split at hsending
    · exact written_state now r₀ outcome hsending
    · next hid =>
      rcases hw r₀ hr₀ hsending with h | h
      · cases hdecided.symm.trans h
      · rw [hdecided] at h
        exact hid (congrArg EmailOutboxRow.id (Option.some.inj h)).symm
  | exited => exact .inl rfl

end Steps

/-- In a run in which nothing is left behind at a start and no outcome is lost, the worker is
between rows without a row in `sending`; `sent` and `failed` are never left, the attempts stay
within the limit, and every mail is still there as it was queued. -/
theorem outbox_delivers {worker : OutboxWorker} (hmax : 0 < worker.maxAttempts)
    {events : List Event}
    (hg : Guarded (step worker) (fun w e => nothingStranded w e = true) .new events) :
    Delivery worker events := by
  have hinv : Inv worker (run (step worker) .new events) :=
    run_invariant (fun w e h _ => inv_step hmax w e h) (guarded_true _ _) inv_new
  refine ⟨fun hidle row hrow hsending => ?_, fun x hx row hrow hfinal => ?_, fun row hrow => ?_, ?_⟩
  · have hclean : Clean (run (step worker) .new events) :=
      run_invariant (fun w e h => clean_step h) hg clean_new
    rcases hclean row hrow hsending with h | h
    · cases hidle.symm.trans h
    · rw [hidle] at h
      cases h
  · have hpre := trace_invariant (fun w e h _ => inv_step hmax w e h) (guarded_true _ _) inv_new hx
    exact final_step hpre.1 x.event hrow hfinal
  · exact (hinv.rows row hrow).1
  · rintro past row rest rfl hdone
    rw [run_append, run_cons]
    have hqueued : ∃ row' ∈ (step worker (run (step worker) .new past) (.enqueue row)).1.outbox,
        content row' = content row := by
      dsimp only [step] at hdone ⊢
      split at hdone
      · next h => exact ⟨_, (mem_enqueue h).mpr (.inr rfl), rfl⟩
      · cases hdone
    refine run_invariant (g := fun _ _ => True) (I := fun w : State => ∃ row' ∈ w.outbox,
      content row' = content row) ?_ (guarded_true _ _) hqueued
    rintro w e ⟨row', hrow', hcontent⟩ -
    obtain ⟨row'', hrow'', hcontent'⟩ := kept_step worker w e hrow'
    exact ⟨row'', hrow'', hcontent'.trans hcontent⟩

/-! ## Three runs -/

private def relay : OutboxWorker where
  P := .transparent
  key := .constant 1
  decode _ := .ok ⟨"a@example.org", "Reset", "Hello", none⟩
  maxAttempts := 5

/-- The payload of a row, as `seal` makes it. -/
private def payload : Bytes :=
  (Nonce.constant 0).bytes ++ ((MasterKey.constant 1).bytes ++ EmailOutbox.payloadAad ++ [1])

private def letter : EmailOutboxRow :=
  ⟨1, .queued, "direct", [1], payload, 0, 0, none, none, 0, 0⟩

private def answer : String := String.ofList (List.replicate 199 'x' ++ ['é'])

private def refuse (_ : OutgoingMail) : Except String Unit := .error answer

/-- The relay refuses the mail once and takes it at the second attempt; the process exits in
between and is back after two minutes. -/
private def slowRestart : List Event :=
  [.enqueue letter, .start 0 0 true, .claim (seconds 100) letter, .exit,
    .start (seconds 220) (seconds 220) true,
    .claim (seconds 221)
      { letter with nextAttemptAt := seconds 220, updatedAt := seconds 220 },
    .attempt (seconds 221) (fun _ => .ok ()), .record true]

private def claimedRun : List Event :=
  [.enqueue letter, .start 0 0 true, .claim (seconds 100) letter]

/-- The process exits with a row in `sending` and is back after ten seconds. -/
private def quickRestart : List Event :=
  claimedRun ++ ([.exit, .start (seconds 110) (seconds 110) true] : List Event)

/-- The text of an SMTP error ends the worker, and the next one starts ten seconds later. -/
private def panickedRun : List Event :=
  claimedRun ++
    ([.attempt (seconds 101) refuse, .start (seconds 110) (seconds 110) true] : List Event)

theorem outbox_delivers_slow :
    Guarded (step relay) (fun w e => nothingStranded w e = true) .new slowRestart ∧
      Delivery relay slowRestart := by
  have hg : Guarded (step relay) (fun w e => nothingStranded w e = true) .new slowRestart := by
    decide +kernel
  exact ⟨hg, outbox_delivers (by decide) hg⟩

theorem cutBytes_replicate {c : Char} (hc : c.utf8Size = 1) (n m : Nat) (cs : List Char) :
    cutBytes (n + m) (List.replicate n c ++ cs) =
      (cutBytes m cs).map (List.replicate n c ++ ·) := by
  induction n with
  | zero => simp
  | succ n ih =>
    have hlen : n + 1 + m = n + m + 1 := by omega
    rw [hlen, List.replicate_succ, List.cons_append, cutBytes, if_pos (by omega), hc,
      Nat.add_sub_cancel, ih, Option.map_map]
    rfl

/-- A text of 201 bytes that has a two-byte character across the cut. -/
theorem redactSmtpError_panics :
    redactSmtpError (String.ofList (List.replicate 199 'x' ++ ['é'])) = none := by
  -- The length stays a variable, so that nothing runs over the text.
  generalize hn : 199 = n
  have hx : 'x'.utf8Size = 1 := rfl
  have he : (String.ofList ['é']).utf8ByteSize = 2 := by decide +kernel
  have hclean : (List.replicate n 'x' ++ ['é']).map
      (fun c => if c = '\r' ∨ c = '\n' then ' ' else c) = List.replicate n 'x' ++ ['é'] := by
    simp
  have hsize : 200 < (String.ofList (List.replicate n 'x' ++ ['é'])).utf8ByteSize := by
    rw [String.ofList_append, String.utf8ByteSize_append, Text.utf8ByteSize_replicate hx, he, ← hn]
    decide
  have hcut : cutBytes 200 (List.replicate n 'x' ++ ['é']) = none := by
    have hlen : 200 = n + 1 := by omega
    rw [hlen, cutBytes_replicate hx]
    rfl
  simp only [redactSmtpError, String.toList_ofList, hclean, hsize, if_true, hcut, Option.map_none]

/-- A panic leaves the outbox as an exit does. -/
theorem attempt_panics {worker : OutboxWorker} {w : State} {row : EmailOutboxRow} {now : DateTime}
    {send : OutgoingMail → Except String Unit} (hclaimed : w.phase = .claimed row)
    (hpanic : worker.processRow row now send = none) :
    (step worker w (.attempt now send)).1 = (step worker w .exit).1 := by
  simp [step, hclaimed, hpanic]

/-- Between rows the worker leaves a row in `sending`, after an exit and after a panic. -/
theorem row_stranded : ¬ Delivery relay quickRestart ∧ ¬ Delivery relay panickedRun := by
  have hstranded : ∀ events, run (step relay) .new events = run (step relay) .new quickRestart →
      ¬ Delivery relay events := by
    intro events hsame h
    have hidle : (run (step relay) .new quickRestart).phase = .idle := rfl
    have hany : ((run (step relay) .new quickRestart).outbox.rows.any
        fun row => row.state = .sending) = true := by
      decide +kernel
    obtain ⟨row, hrow, hsending⟩ := List.any_eq_true.mp hany
    rw [← hsame] at hidle hrow
    exact h.idle hidle row hrow (of_decide_eq_true hsending)
  refine ⟨hstranded _ rfl, hstranded _ ?_⟩
  have hopen : openBytes .transparent (.constant 1) payload EmailOutbox.payloadAad = .ok [1] := by
    decide +kernel
  have hredact : redactSmtpError answer = none := redactSmtpError_panics
  have hpanic : (step relay (run (step relay) .new claimedRun)
      (.attempt (seconds 101) refuse)).1 =
        (step relay (run (step relay) .new claimedRun) .exit).1 := by
    refine attempt_panics (rfl : (run (step relay) .new claimedRun).phase = .claimed
      { letter with state := .sending, updatedAt := seconds 100 }) ?_
    simp only [processRow, letter, hopen, relay, refuse, hredact, Option.map_none]
  rw [panickedRun, quickRestart, run_append, run_append, run_cons, hpanic]
  exact (run_cons ..).symm

end SuiId.OutboxWorker
