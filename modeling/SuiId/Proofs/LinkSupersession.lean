import SuiId.Core.ResetLinks

/-!
# A link is used once, and not after another one

U10 consumes a link that is neither used nor revoked nor, at the clock value of its caller,
expired; it does so once.  Every command that takes the links of an account away revokes those
that have not expired at its own clock value, and leaves the expired ones to their expiry.

So what the caller of U10 has read of the clock matters: it reads it before it hashes the
password.  Where the link expires in between, a command that commits after the expiry does not
revoke it, and U10 still completes it.  Where U10 runs before the link expires (`inTime`), no
link that was there when one of those commands committed completes after it.
-/

namespace SuiId

open Lib Lib.Result

section Steps

variable {P : Primitives} {rfc3339 : DateTime → String} {w : LinkWorld} {e : LinkEvent}

/-! ## What a step writes -/

/-- The clock value that a call has read. -/
def LinkCall.sampled : LinkCall → Option DateTime
  | .transaction _ now => some now
  | .resetRequested _ _ now => some now
  | .recipientRead _ _ now => some now
  | .recipientChecked _ _ now => some now
  | .recipientCounted _ _ now => some now
  | .linkChecked _ now _ _ => some now
  | .linkSubmitted _ _ => none
  | .linkRead _ _ => none

/-- The link that a call has read. -/
def LinkCall.link : LinkCall → Option PasswordResetTokenRow
  | .linkRead row _ => some row
  | .linkChecked row _ _ _ => some row
  | _ => none

/-- What a step does to the table of links. -/
inductive LinkEffect (w : LinkWorld) (e : LinkEvent) (out : LinkAnswer) (db' : Database) :
    Prop where
  | none (hsuperseding : superseding ⟨w, e, out⟩ = none)
      (hcompleting : completing ⟨w, e, out⟩ = none)
      (hkept : db'.passwordResetTokens = w.db.passwordResetTokens)
  | write (write : LinkWrite) (hsuperseding : superseding ⟨w, e, out⟩ = write.superseded)
      (hcompleting : completing ⟨w, e, out⟩ = write.completed)
      (hwrites : write.Writes w.db.passwordResetTokens db'.passwordResetTokens)
      (htime : write.time = e.now ∨
        ∃ id call, w.calls id = some call ∧ call.sampled = some write.time)

variable {draw : LinkDraw} {id : LinkCallId} {call : LinkCall} {token : ResetTokenId}
variable {db db' : Database} {out : LinkAnswer} {call' : LinkCall} {t : PasswordResetTokenRow}

/-- The transaction of a command takes away the links of its target. -/
theorem perform_writes {now : DateTime} {command : LinkCommand}
    (h : command.perform P rfc3339 db draw now = .ok db') :
    ∃ write : LinkWrite, write.superseded = some command.target ∧ write.completed = none ∧
      write.Writes db.passwordResetTokens db'.passwordResetTokens ∧
      (write.time = draw.now ∨ write.time = now) := by
  cases command with
  | changePasswordSelf user keepCurrentSession revokeOthers =>
    obtain ⟨⟨swept, db₁⟩, hcommit, rfl⟩ := map_eq_ok.mp h
    exact ⟨_, rfl, rfl, changePasswordSelf_writes hcommit, .inl rfl⟩
  | disableUser admin session target reason =>
    obtain ⟨⟨u, db₁⟩, hcommit, rfl⟩ := map_eq_ok.mp h
    exact ⟨_, rfl, rfl, disableUser_writes hcommit, .inr rfl⟩
  | deleteUser admin session target reason =>
    obtain ⟨⟨u, db₁⟩, hcommit, rfl⟩ := map_eq_ok.mp h
    exact ⟨_, rfl, rfl, deleteUser_writes hcommit, .inr rfl⟩
  | issueRecoveryLinkAsAdmin admin session target reason =>
    obtain ⟨⟨grant, db₁⟩, hcommit, rfl⟩ := map_eq_ok.mp h
    obtain ⟨row, rfl, -, -, hissued⟩ := issueRecoveryLinkAsAdmin_issued hcommit
    exact ⟨_, rfl, rfl, hissued.writes, .inr rfl⟩
  | issueRecoveryLinkAsOperator target reason =>
    obtain ⟨⟨grant, db₁⟩, hcommit, rfl⟩ := map_eq_ok.mp h
    obtain ⟨row, rfl, -, -, hissued⟩ := issueRecoveryLinkAsOperator_issued hcommit
    exact ⟨_, rfl, rfl, hissued.writes, .inr rfl⟩

private theorem effect_of_silent (hcommitted : out ≠ .committed)
    (hcompleted : ∀ lockout, out ≠ .completed lockout) :
    LinkEffect w (.next id draw) out w.db := by
  refine .none ?_ ?_ rfl
  · unfold superseding
    split
    · exact absurd ‹out = .committed› hcommitted
    · exact absurd ‹out = .completed _› (hcompleted _)
    · rfl
  · unfold completing
    split
    · exact absurd ‹out = .completed _› (hcompleted _)
    · rfl

private theorem effect_of_next (hcall : w.calls id = some call) :
    LinkEffect w (.next id draw) (call.advance P rfc3339 w.db draw).out
      (call.advance P rfc3339 w.db draw).db := by
  cases call with
  | transaction command now =>
    simp only [LinkCall.advance]
    split
    · rename_i db' hperform
      obtain ⟨write, hsuperseded, hcompleted, hwrites, htime⟩ := perform_writes hperform
      refine .write write ?_ ?_ hwrites (htime.imp_right fun hsampled => ?_)
      · rw [superseding, LinkWorld.callOf, hcall, hsuperseded]
        rfl
      · rw [completing, LinkWorld.callOf, hcall, hcompleted]
      · exact ⟨id, _, hcall, congrArg some hsampled.symm⟩
    · exact effect_of_silent (fun h => by cases h) (fun _ h => by cases h)
  | recipientCounted user requesterIp now =>
    simp only [LinkCall.advance]
    split
    · rename_i db' hinsert
      have hwrites := PasswordResetTokens.insertWith_writes hinsert
      refine .write (.issue _) ?_ ?_ hwrites (.inr ⟨id, _, hcall, rfl⟩)
      · rw [superseding, LinkWorld.callOf, hcall]
        rfl
      · rw [completing, LinkWorld.callOf, hcall]
        rfl
    · exact effect_of_silent (fun h => by cases h) (fun _ h => by cases h)
  | linkChecked row now newHash hibpWarned =>
    simp only [LinkCall.advance]
    split
    · rename_i lockout db' hcommit
      have hwrites := (consumeAndResetPassword_writes hcommit).1
      refine .write (.complete row.id row.userId now) ?_ ?_ hwrites (.inr ⟨id, _, hcall, rfl⟩)
      · rw [superseding, LinkWorld.callOf, hcall]
        rfl
      · rw [completing, LinkWorld.callOf, hcall]
        rfl
    · exact effect_of_silent (fun h => by cases h) (fun _ h => by cases h)
    · exact effect_of_silent (fun h => by cases h) (fun _ h => by cases h)
  | resetRequested | recipientRead | recipientChecked | linkSubmitted | linkRead =>
    simp only [LinkCall.advance]
    split
    · exact effect_of_silent (fun h => by cases h) (fun _ h => by cases h)
    · exact effect_of_silent (fun h => by cases h) (fun _ h => by cases h)

theorem linkStep_effect (w : LinkWorld) (e : LinkEvent) :
    LinkEffect w e (linkStep P rfc3339 w e).2 (linkStep P rfc3339 w e).1.db := by
  cases e with
  | begin id request draw =>
    simp only [linkStep]
    split
    · exact .none rfl rfl rfl
    · exact .none rfl rfl rfl
    · exact .none rfl rfl rfl
  | elsewhere db now => exact .none rfl rfl rfl
  | next id draw =>
    simp only [linkStep]
    cases hcall : w.calls id with
    | none =>
      refine .none ?_ ?_ rfl
      · rw [superseding, LinkWorld.callOf, hcall]
      · rw [completing, LinkWorld.callOf, hcall]
    | some call => exact effect_of_next hcall

/-- The clock of the world is that of its last event. -/
@[simp] theorem linkStep_clock : (linkStep P rfc3339 w e).1.clock = e.now := by
  cases e with
  | begin id request draw =>
    simp only [linkStep]
    split
    · rfl
    · rfl
    · rfl
  | elsewhere db now => rfl
  | next id draw =>
    simp only [linkStep]
    split
    · rfl
    · rfl

/-! ## What the calls have read -/

theorem linkStep_calls (h : (linkStep P rfc3339 w e).1.calls id = some call') :
    w.calls id = some call' ∨
      (∃ request draw, e = .begin id request draw ∧ request.start draw = .ok call') ∨
      ∃ call draw, e = .next id draw ∧ w.calls id = some call ∧
        (call.advance P rfc3339 w.db draw).next = some call' := by
  cases e with
  | begin id' request draw =>
    simp only [linkStep] at h
    split at h
    · rename_i call hfree hstart
      dsimp only at h
      by_cases hid : id = id'
      · subst hid
        rw [Function.update_self] at h
        cases h
        exact .inr (.inl ⟨request, draw, rfl, hstart⟩)
      · rw [Function.update_of_ne hid] at h
        exact .inl h
    · exact .inl h
    · exact .inl h
  | elsewhere db now => exact .inl h
  | next id' draw =>
    simp only [linkStep] at h
    cases hcall : w.calls id' with
    | none =>
      rw [hcall] at h
      exact .inl h
    | some call =>
      rw [hcall] at h
      dsimp only at h
      by_cases hid : id = id'
      · subst hid
        rw [Function.update_self] at h
        exact .inr (.inr ⟨call, draw, rfl, hcall, h⟩)
      · rw [Function.update_of_ne hid] at h
        exact .inl h

private theorem start_sampled {request : LinkRequest} (h : request.start draw = .ok call) :
    (∀ now, call.sampled = some now → now = draw.now) ∧ call.link = none := by
  cases request with
  | transaction | requestReset =>
    cases h
    exact ⟨fun now hnow => (Option.some.inj hnow).symm, rfl⟩
  | consumeAndResetPassword plaintextToken newPassword minPasswordLen hibp =>
    simp only [LinkRequest.start, bind_eq_ok, pure_eq_ok] at h
    obtain ⟨hibpWarned, -, rfl⟩ := h
    exact ⟨nofun, rfl⟩

/-- A call reads the clock and a link when it checks the link, and nothing of either else. -/
theorem LinkCall.advance_reads (h : (call.advance P rfc3339 db draw).next = some call') :
    (∀ now, call'.sampled = some now → call.sampled = some now ∨ now = draw.now) ∧
      ∀ row, call'.link = some row → call.link = some row ∨ row ∈ db.passwordResetTokens := by
  cases call with
  | linkSubmitted plaintextToken hibpWarned =>
    simp only [LinkCall.advance] at h
    split at h
    · cases h
    · rename_i row hfind
      cases h
      refine ⟨(fun _ hnow => by cases hnow), fun row' hrow => .inr ?_⟩
      cases hrow
      exact (Table.mem_of_find? hfind).1
  | linkRead row hibpWarned =>
    simp only [LinkCall.advance] at h
    split at h
    · cases h
    · cases h
      exact ⟨fun now hnow => .inr (Option.some.inj hnow).symm, fun row' hrow => .inl hrow⟩
  | resetRequested | recipientRead | recipientChecked =>
    simp only [LinkCall.advance] at h
    split at h
    · cases h
    · cases h
      exact ⟨fun now hnow => .inl hnow, fun _ hrow => by cases hrow⟩
  | _ =>
    simp only [LinkCall.advance] at h
    (repeat' split at h) <;> cases h

theorem LinkEffect.row (h : LinkEffect w e out db') {id : ResetTokenId}
    (hget : w.db.resetTokenOf id = some t) :
    ∃ t', db'.resetTokenOf id = some t' ∧ LinkKept t t' := by
  cases h with
  | none hsuperseding hcompleting hkept =>
    refine ⟨t, ?_, .refl t⟩
    rw [Database.resetTokenOf, hkept]
    exact hget
  | write write hsuperseding hcompleting hwrites htime =>
    obtain ⟨t', hget', hkept, -⟩ := hwrites.row hget
    exact ⟨t', hget', hkept⟩

/-- The clock of a call is not ahead, and the link it has read is still there. -/
structure CallsKnown (w : LinkWorld) : Prop where
  clock : ∀ id call now, w.calls id = some call → call.sampled = some now → now ≤ w.clock
  link : ∀ id call row, w.calls id = some call → call.link = some row →
    ∃ t, w.db.resetTokenOf row.id = some t ∧ LinkKept row t

theorem callsKnown_start (db : Database) (clock : DateTime) : CallsKnown (.start db clock) where
  clock _ _ _ hcall := by cases hcall
  link _ _ _ hcall := by cases hcall

theorem callsKnown_step (h : CallsKnown w) (hclock : w.clock ≤ e.now) :
    CallsKnown (linkStep P rfc3339 w e).1 where
  clock id call' now hcall' hnow := by
    rw [linkStep_clock]
    rcases linkStep_calls hcall' with hbefore | ⟨request, draw, rfl, hstart⟩ |
      ⟨call, draw, rfl, hcall, hnext⟩
    · exact Int.le_trans (h.clock id call' now hbefore hnow) hclock
    · exact Int.le_of_eq ((start_sampled hstart).1 now hnow)
    · rcases (LinkCall.advance_reads hnext).1 now hnow with hsampled | rfl
      · exact Int.le_trans (h.clock id call now hcall hsampled) hclock
      · exact Int.le_refl _
  link id call' row hcall' hrow := by
    have hstill : ∀ t, w.db.resetTokenOf row.id = some t → LinkKept row t →
        ∃ t', (linkStep P rfc3339 w e).1.db.resetTokenOf row.id = some t' ∧ LinkKept row t' := by
      intro t hget hkept
      obtain ⟨t', hget', hkept'⟩ := (linkStep_effect w e).row hget
      exact ⟨t', hget', hkept.trans hkept'⟩
    rcases linkStep_calls hcall' with hbefore | ⟨request, draw, rfl, hstart⟩ |
      ⟨call, draw, rfl, hcall, hnext⟩
    · obtain ⟨t, hget, hkept⟩ := h.link id call' row hbefore hrow
      exact hstill t hget hkept
    · rw [(start_sampled hstart).2] at hrow
      cases hrow
    · rcases (LinkCall.advance_reads hnext).2 row hrow with hread | hmem
      · obtain ⟨t, hget, hkept⟩ := h.link id call row hcall hread
        exact hstill t hget hkept
      · exact hstill row (Table.get?_key hmem) (.refl row)

/-- The clock value of a write is not ahead. -/
theorem CallsKnown.time_le {time : DateTime} (h : CallsKnown w) (hclock : w.clock ≤ e.now)
    (htime : time = e.now ∨ ∃ id call, w.calls id = some call ∧ call.sampled = some time) :
    time ≤ e.now := by
  rcases htime with rfl | ⟨id, call, hcall, hsampled⟩
  · exact Int.le_refl _
  · exact Int.le_trans (h.clock id call time hcall hsampled) hclock

/-! ## Spent links -/

/-- The link is used, revoked or expired. -/
def LinkWorld.Spent (w : LinkWorld) (token : ResetTokenId) : Prop :=
  ∃ t, w.db.resetTokenOf token = some t ∧ LinkSpent t w.clock

theorem linkSpent_step (hclock : w.clock ≤ e.now) (h : w.Spent token) :
    (linkStep P rfc3339 w e).1.Spent token := by
  obtain ⟨t, hget, hspent⟩ := h
  obtain ⟨t', hget', hkept⟩ := (linkStep_effect w e).row hget
  refine ⟨t', hget', hspent.kept hkept ?_⟩
  rw [linkStep_clock]
  exact hclock

/-- A command that takes the links of an account away leaves none of them to complete, but for
the one that it completes itself. -/
theorem spent_of_superseding {user : UserId} (hknown : CallsKnown w) (hclock : w.clock ≤ e.now)
    (h : superseding ⟨w, e, (linkStep P rfc3339 w e).2⟩ = some user)
    (hget : w.db.resetTokenOf token = some t) (huser : t.userId = user) :
    (linkStep P rfc3339 w e).1.Spent token := by
  cases linkStep_effect w e with
  | none hsuperseding hcompleting hkept =>
    rw [hsuperseding] at h
    cases h
  | write write hsuperseding hcompleting hwrites htime =>
    obtain ⟨t', hget', -, hspent, -⟩ := hwrites.row hget
    rw [hsuperseding, ← huser] at h
    refine ⟨t', hget', (hspent h).kept (.refl t') ?_⟩
    rw [linkStep_clock]
    exact hknown.time_le hclock htime

/-- What U10 has found of the link that it completes. -/
theorem completing_found (hknown : CallsKnown w)
    (h : completing ⟨w, e, (linkStep P rfc3339 w e).2⟩ = some token) :
    ∃ id draw row now newHash hibpWarned t u, e = .next id draw ∧
      w.calls id = some (.linkChecked row now newHash hibpWarned) ∧ row.id = token ∧
      w.db.resetTokenOf token = some t ∧ PasswordResetTokens.outstanding t now = true ∧
      w.db.users.get? t.userId = some u ∧ Users.active u = true ∧ u.source = .localDb := by
  unfold completing at h
  dsimp only at h
  split at h
  · rename_i row now newHash hibpWarned lockout hcallOf hout
    cases h
    cases e with
    | next id draw =>
      have hcall : w.calls id = some (.linkChecked row now newHash hibpWarned) := hcallOf
      simp only [linkStep, hcall, LinkCall.advance] at hout
      split at hout
      · rename_i lockout' db' hcommit
        obtain ⟨⟨⟨t, hget, houtstanding⟩, -⟩, hactive⟩ := consumeAndResetPassword_writes hcommit
        obtain ⟨t', hget', hkept⟩ := hknown.link id _ row hcall rfl
        rw [Database.resetTokenOf, hget] at hget'
        cases hget'
        simp only [Users.isActiveLocal, bind_eq_ok, require_eq_ok, pure_eq_ok, Bool.and_eq_true,
          beq_iff_eq] at hactive
        obtain ⟨u, huser, hactive, hlocal⟩ := hactive
        rw [← hkept.userId] at huser
        exact ⟨id, draw, row, now, newHash, hibpWarned, t, u, rfl, hcall, rfl, hget, houtstanding,
          huser, hactive, hlocal⟩
      · cases hout
      · cases hout
    | begin id request draw => cases hcallOf
    | elsewhere db now => cases hcallOf
  · cases h

theorem spent_of_completing (hknown : CallsKnown w)
    (h : completing ⟨w, e, (linkStep P rfc3339 w e).2⟩ = some token) :
    (linkStep P rfc3339 w e).1.Spent token := by
  obtain ⟨id, draw, row, now, newHash, hibpWarned, t, u, -, -, -, hget, -⟩ :=
    completing_found hknown h
  cases linkStep_effect w e with
  | none hsuperseding hcompleting hkept =>
    rw [hcompleting] at h
    cases h
  | write write hsuperseding hcompleting hwrites htime =>
    obtain ⟨t', hget', -, -, hconsumed⟩ := hwrites.row hget
    rw [hcompleting] at h
    exact ⟨t', hget', .inl (hconsumed h)⟩

end Steps

/-! ## Runs -/

/-- Where U10 would complete a link, its transaction runs before the link expires. -/
def inTime (w : LinkWorld) (e : LinkEvent) : Bool :=
  match w.callOf e with
  | some (.linkChecked row now _ _) =>
    (w.db.resetTokenOf row.id).all fun t =>
      !(PasswordResetTokens.outstanding t now &&
          (w.db.users.get? t.userId).any fun u => Users.active u && u.source == .localDb) ||
        e.now < t.expiresAt
  | _ => true

section Runs

variable {P : Primitives} {rfc3339 : DateTime → String} {w : LinkWorld} {e : LinkEvent}

/-- What a U10 in time has found. -/
theorem completing_inTime {token : ResetTokenId} (hknown : CallsKnown w)
    (htime : inTime w e = true)
    (h : completing ⟨w, e, (linkStep P rfc3339 w e).2⟩ = some token) :
    ∃ t u, w.db.resetTokenOf token = some t ∧ t.consumedAt = none ∧ t.revokedAt = none ∧
      e.now < t.expiresAt ∧ w.db.users.get? t.userId = some u ∧ u.isDisabled = false ∧
      u.isDeleted = false ∧ u.source = .localDb := by
  obtain ⟨id, draw, row, now, newHash, hibpWarned, t, u, rfl, hcall, rfl, hget, houtstanding, huser,
    hactive, hlocal⟩ := completing_found hknown h
  have hlate : draw.now < t.expiresAt := by
    simp only [inTime, LinkWorld.callOf, hcall, hget, Option.all_some, houtstanding, huser,
      Option.any_some, hactive, hlocal, BEq.rfl, Bool.and_true, Bool.not_true, Bool.false_or,
      LinkEvent.now] at htime
    exact of_decide_eq_true htime
  simp only [PasswordResetTokens.outstanding, Bool.and_eq_true, Option.isNone_iff_eq_none,
    decide_eq_true_eq] at houtstanding
  simp only [Users.active, Bool.and_eq_true, Bool.not_eq_true'] at hactive
  exact ⟨t, u, hget, houtstanding.1.1, houtstanding.1.2, hlate, huser, hactive.1, hactive.2, hlocal⟩

theorem not_completing_of_spent {token : ResetTokenId} (hknown : CallsKnown w)
    (hclock : w.clock ≤ e.now) (htime : inTime w e = true) (hspent : w.Spent token) :
    completing ⟨w, e, (linkStep P rfc3339 w e).2⟩ ≠ some token := by
  intro h
  obtain ⟨t, u, hget, hconsumed, hrevoked, hlate, -⟩ := completing_inTime hknown htime h
  obtain ⟨t', hget', hspent⟩ := hspent
  rw [hget] at hget'
  cases hget'
  rcases hspent with hc | hr | hexpired
  · rw [hconsumed] at hc
    cases hc
  · rw [hrevoked] at hr
    cases hr
  · exact absurd (Int.le_trans hexpired hclock) (Int.not_le.mpr hlate)

/-- In a run whose clock does not go back and whose completions are in time, a link is completed
at most once, only before it expires and for an active local account, and no link that was there
when a command took the links of its account away completes after that, other than by that
command. -/
theorem link_completed_once_in_time (P : Primitives) (rfc3339 : DateTime → String) (db : Database)
    (clock : DateTime) {es : List LinkEvent}
    (hes : Machine.Guarded (linkStep P rfc3339) (fun w e => w.clock ≤ e.now ∧ inTime w e = true)
      (.start db clock) es) :
    (∀ token, (linkTrace P rfc3339 (.start db clock) es).countP
        (fun x => completing x == some token) ≤ 1) ∧
      (∀ x ∈ linkTrace P rfc3339 (.start db clock) es, ∀ token, completing x = some token →
        ∃ t u, x.pre.db.resetTokenOf token = some t ∧ t.consumedAt = none ∧
          t.revokedAt = none ∧ x.event.now < t.expiresAt ∧
          x.pre.db.users.get? t.userId = some u ∧ u.isDisabled = false ∧ u.isDeleted = false ∧
          u.source = .localDb) ∧
      ∀ past x rest, linkTrace P rfc3339 (.start db clock) es = past ++ x :: rest →
        ∀ user token t, superseding x = some user → x.pre.db.resetTokenOf token = some t →
          t.userId = user → ∀ y ∈ rest, completing y ≠ some token := by
  have hstep : ∀ w e, CallsKnown w → w.clock ≤ e.now ∧ inTime w e = true →
      CallsKnown (linkStep P rfc3339 w e).1 := fun w e hw hg => callsKnown_step hw hg.1
  have hstart := callsKnown_start db clock
  refine ⟨fun token => ?_, fun x hx token hcompleting => ?_, ?_⟩
  · refine Machine.countP_trace_le_one (D := fun w => w.Spent token) hstep ?_ ?_ ?_ hes hstart
    · exact fun w e hw _ hcompletes => spent_of_completing hw (beq_iff_eq.mp hcompletes)
    · exact fun w e _ hg hspent => linkSpent_step hg.1 hspent
    · intro w e hw hg hspent
      exact beq_eq_false_iff_ne.mpr (not_completing_of_spent hw hg.1 hg.2 hspent)
  · obtain ⟨hinv, hg, hout⟩ := Machine.trace_invariant hstep hes hstart hx
    obtain ⟨w, e, out⟩ := x
    dsimp only at hout
    subst hout
    exact completing_inTime hinv hg.2 hcompleting
  · intro past x rest hsplit user token t hsuperseding hget huser y hy
    have hx : x ∈ linkTrace P rfc3339 (.start db clock) es := by
      rw [hsplit]
      exact List.mem_append_right _ List.mem_cons_self
    obtain ⟨hinv, hg, hout⟩ := Machine.trace_invariant hstep hes hstart hx
    have hspent : (linkStep P rfc3339 x.pre x.event).1.Spent token := by
      obtain ⟨w, e, out⟩ := x
      dsimp only at hout
      subst hout
      exact spent_of_superseding hinv hg.1 hsuperseding hget huser
    obtain ⟨⟨hinv', hspent'⟩, hg', hout'⟩ := Machine.trace_after (D := fun w => w.Spent token) hstep
      (fun w e _ hge hd => linkSpent_step hge.1 hd) hes hstart hsplit hspent hy
    obtain ⟨w, e, out⟩ := y
    dsimp only at hout'
    subst hout'
    exact not_completing_of_spent hinv' hg'.1 hg'.2 hspent'

end Runs

/-! ## A late completion -/

theorem linkDb_users : ([plainUser 7 "ada" .user].map UserRow.id).Nodup := by decide

theorem linkDb_credentials :
    (([⟨7, "old", 0⟩] : List CredentialRow).map CredentialRow.userId).Nodup :=
  List.nodup_singleton _

/-- User 7 with a password and a link for half an hour. -/
def linkDb : Database :=
  { Database.empty with
    users := ⟨[plainUser 7 "ada" .user], linkDb_users⟩
    credentials := ⟨[⟨7, "old", 0⟩], linkDb_credentials⟩
    passwordResetTokens := ⟨[{
      id := 50, userId := 7, tokenHash := Primitives.transparent.sha256 (utf8 "token")
      issuedAt := 0, expiresAt := resetTokenTtl, consumedAt := none, issuedVia := .email
      revokedAt := none }], by decide⟩ }

private def drawAt (now : DateTime) : LinkDraw := ⟨seconds now, 51, [1], "new"⟩

private def linkRequest : LinkRequest :=
  .consumeAndResetPassword "token" "a new password" 8 .allowed

/-- The link is completed, and the user then changes the password. -/
def completedInTime : List LinkEvent :=
  [.begin 1 linkRequest (drawAt 1799), .next 1 (drawAt 1799), .next 1 (drawAt 1799),
    .next 1 (drawAt 1799), .begin 2 (.transaction (.changePasswordSelf 7 none true)) (drawAt 1801),
    .next 2 (drawAt 1801)]

theorem link_completed_once_in_time_completed :
    let steps := linkTrace .transparent (fun _ => "") (.start linkDb 0) completedInTime
    steps.filterMap completing = [50] ∧ steps.filterMap superseding = [7, 7] ∧
      steps.countP (fun x => completing x == some 50) ≤ 1 := by
  have hes : Machine.Guarded (linkStep .transparent fun _ => "")
      (fun w e => w.clock ≤ e.now ∧ inTime w e = true) (.start linkDb 0) completedInTime := by
    decide +kernel
  exact ⟨by decide +kernel, by decide +kernel,
    (link_completed_once_in_time .transparent (fun _ => "") linkDb 0 hes).1 50⟩

/-- The link is checked a second before it expires; the user comes to change the password a
second after that. -/
def checkedInTime : List LinkEvent :=
  [.begin 1 linkRequest (drawAt 1799), .next 1 (drawAt 1799), .next 1 (drawAt 1799),
    .begin 2 (.transaction (.changePasswordSelf 7 none true)) (drawAt 1801)]

/-- The password is changed, and then the link is completed. -/
def completedLate : List LinkEvent :=
  checkedInTime ++ ([.next 2 (drawAt 1801), .next 1 (drawAt 1802)] : List LinkEvent)

/-- The clock does not go back, and the link completes after it expired and after the password
was changed. -/
theorem link_completed_late :
    let steps := linkTrace .transparent (fun _ => "") (.start linkDb 0) completedLate
    Machine.Guarded (linkStep .transparent fun _ => "") (fun w e => w.clock ≤ e.now)
        (.start linkDb 0) completedLate ∧
      (¬ ∀ x ∈ steps, ∀ token, completing x = some token →
        ∃ t, x.pre.db.resetTokenOf token = some t ∧ x.event.now < t.expiresAt) ∧
      ¬ ∀ past x rest, steps = past ++ x :: rest → ∀ user token t, superseding x = some user →
        x.pre.db.resetTokenOf token = some t → t.userId = user → completing x ≠ some token →
          ∀ y ∈ rest, completing y ≠ some token := by
  have hsplit : linkTrace .transparent (fun _ => "") (.start linkDb 0) completedLate =
      linkTrace .transparent (fun _ => "") (.start linkDb 0) checkedInTime ++
        linkTrace .transparent (fun _ => "")
          (linkRun .transparent (fun _ => "") (.start linkDb 0) checkedInTime)
          [.next 2 (drawAt 1801), .next 1 (drawAt 1802)] := Machine.trace_append ..
  refine ⟨by decide +kernel, fun hall => ?_, fun hall => ?_⟩
  · have hexpired : ((linkRun .transparent (fun _ => "") (.start linkDb 0)
        (checkedInTime ++ [.next 2 (drawAt 1801)])).db.resetTokenOf 50).map (·.expiresAt) =
          some (seconds 1800) := by decide +kernel
    have hlast := @Machine.mem_trace_last _ _ _ (linkStep .transparent fun _ => "")
      (.start linkDb 0) (checkedInTime ++ [.next 2 (drawAt 1801)]) (.next 1 (drawAt 1802))
    obtain ⟨t, hget, hlate⟩ := hall _ hlast 50 (by decide +kernel)
    rw [hget, Option.map_some, Option.some.injEq] at hexpired
    rw [hexpired] at hlate
    exact absurd hlate (by decide +kernel)
  · have hlink : ((linkRun .transparent (fun _ => "") (.start linkDb 0)
        checkedInTime).db.resetTokenOf 50).map (·.userId) = some 7 := by decide +kernel
    obtain ⟨t, hget, huser⟩ := Option.map_eq_some_iff.mp hlink
    refine hall _ _ _ hsplit 7 50 t (by decide +kernel) hget huser (by decide +kernel) _
      List.mem_cons_self (by decide +kernel)

end SuiId
