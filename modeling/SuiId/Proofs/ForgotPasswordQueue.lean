import SuiId.Core.ForgotPassword
import SuiId.Proofs.LinkSupersession

/-!
# What the queue of forgotten passwords promises

* `recorded_kept`: a recorded request is in the table until `request_reset` has returned for
  it.  Only the worker deletes a row, and only after that.
* `Ceiling`: no account has more than three outstanding links.  `request_reset` counts and
  inserts at two moments.  There is one worker, so only U37 inserts in between, and it takes
  away all others of the account.
* `Recipient`: what has been read of the account before the insertion.
-/

namespace SuiId

open Lib Lib.Machine Lib.Result

variable {P : Primitives} {rfc3339 : DateTime → String}

/-! ## Outstanding links -/

/-- How many links of the account are outstanding at a time. -/
def outstandingLinks (tokens : Table PasswordResetTokenRow.id) (user : UserId)
    (now : DateTime) : Nat :=
  tokens.count fun t => t.userId == user && PasswordResetTokens.outstanding t now

section Counts

variable {tokens tokens' : Table PasswordResetTokenRow.id} {user : UserId} {now now' : DateTime}

/-- An update that gives no row the property does not add to those that have it. -/
theorem count_update_le {ρ κ : Type} {key : ρ → κ} {t : Table key} {p q : ρ → Bool}
    {f : ρ → ρ} {hkey} (hq : ∀ r, q (f r) = true → q r = true) :
    (t.update p f hkey).count q ≤ t.count q := by
  unfold Table.count Table.update
  rw [List.countP_map]
  apply List.countP_mono_left
  intro r _ h
  simp only [Function.comp_apply] at h
  split at h
  · exact hq r h
  · exact h

theorem outstanding_antitone {t : PasswordResetTokenRow} (hle : now ≤ now')
    (h : PasswordResetTokens.outstanding t now' = true) :
    PasswordResetTokens.outstanding t now = true := by
  simp only [PasswordResetTokens.outstanding, Bool.and_eq_true, decide_eq_true_eq] at h ⊢
  exact ⟨h.1, Int.lt_of_le_of_lt hle h.2⟩

/-- Links only expire. -/
theorem outstandingLinks_antitone (hle : now ≤ now') :
    outstandingLinks tokens user now' ≤ outstandingLinks tokens user now := by
  apply List.countP_mono_left
  intro t _ h
  rw [Bool.and_eq_true] at h ⊢
  exact ⟨h.1, outstanding_antitone hle h.2⟩

theorem outstandingLinks_supersede (owner : UserId) (keep : Option ResetTokenId)
    (written : DateTime) :
    outstandingLinks (supersede tokens owner keep written) user now ≤
      outstandingLinks tokens user now := by
  apply count_update_le
  intro t h
  simp [PasswordResetTokens.outstanding] at h

theorem outstandingLinks_consume (token : ResetTokenId) (written : DateTime) :
    outstandingLinks (consumeLink tokens token written) user now ≤
      outstandingLinks tokens user now := by
  apply count_update_le
  intro t h
  simp [PasswordResetTokens.outstanding] at h

/-- None is left of the account whose links are taken away. -/
theorem outstandingLinks_superseded (hle : now ≤ now') :
    outstandingLinks (supersede tokens user none now) user now' = 0 := by
  rw [outstandingLinks, Table.count_eq_zero_iff]
  intro t' ht'
  obtain ⟨t, ht, rfl⟩ := Table.mem_update.mp ht'
  split
  · simp [PasswordResetTokens.outstanding]
  · rename_i hspared
    by_contra houtstanding
    rw [Bool.not_eq_false, Bool.and_eq_true] at houtstanding
    have hthen := outstanding_antitone hle houtstanding.2
    apply hspared
    simp only [PasswordResetTokens.outstanding, Bool.and_eq_true] at hthen
    simp [houtstanding.1, hthen]

theorem outstandingLinks_insert {row : PasswordResetTokenRow}
    (h : tokens.insert? row = some tokens') :
    outstandingLinks tokens' user now ≤
      outstandingLinks tokens user now + if row.userId = user then 1 else 0 := by
  rw [outstandingLinks, Table.count, (Table.insert?_eq_some.mp h).2, List.countP_append,
    List.countP_singleton]
  apply Nat.add_le_add_left
  split
  · rename_i hmatch
    rw [Bool.and_eq_true, beq_iff_eq] at hmatch
    rw [if_pos hmatch.1]
  · exact Nat.zero_le _

/-- A command that takes links away leaves at most one that it has inserted, or none more. -/
theorem LinkWrite.Writes.outstandingLinks {write : LinkWrite}
    (h : write.Writes tokens tokens') (hsuperseded : write.superseded.isSome = true)
    (hle : write.time ≤ now) :
    SuiId.outstandingLinks tokens' user now ≤ 1 ∨
      SuiId.outstandingLinks tokens' user now ≤ SuiId.outstandingLinks tokens user now := by
  cases write with
  | issue row => cases hsuperseded
  | reissue row written =>
    have hwritten : written ≤ now := hle
    have hinsert : SuiId.outstandingLinks tokens' user now ≤ _ := outstandingLinks_insert h
    by_cases hrow : row.userId = user
    · left
      subst hrow
      rw [outstandingLinks_superseded hwritten, if_pos rfl] at hinsert
      exact hinsert
    · right
      rw [if_neg hrow] at hinsert
      exact Nat.le_trans hinsert (outstandingLinks_supersede _ _ _)
  | supersede owner written =>
    right
    subst h
    exact outstandingLinks_supersede _ _ _
  | complete token owner consumedAt =>
    right
    obtain ⟨-, rfl⟩ := h
    exact Nat.le_trans (outstandingLinks_supersede _ _ _) (outstandingLinks_consume _ _)

end Counts

/-! ## The commands -/

/-- The call is `request_reset`. -/
def LinkCall.resets : LinkCall → Bool
  | .resetRequested .. | .recipientRead .. | .recipientChecked .. | .recipientCounted .. => true
  | _ => false

/-- No command in flight is `request_reset`. -/
def NoResets (links : LinkWorld) : Prop :=
  ∀ id call, links.calls id = some call → call.resets = false

section Commands

variable {links : LinkWorld} {e : LinkEvent}
variable {draw : LinkDraw} {call : LinkCall}

private theorem start_noReset {request : LinkRequest}
    (hrequest : ∀ email requesterIp, request ≠ .requestReset email requesterIp)
    (h : request.start draw = .ok call) : call.resets = false := by
  cases request with
  | transaction command =>
    cases h
    rfl
  | requestReset email requesterIp => exact absurd rfl (hrequest email requesterIp)
  | consumeAndResetPassword plaintextToken newPassword minPasswordLen hibp =>
    simp only [LinkRequest.start, bind_eq_ok, pure_eq_ok] at h
    obtain ⟨hibpWarned, -, rfl⟩ := h
    rfl

private theorem advance_noReset {db : Database} {call' : LinkCall} (hcall : call.resets = false)
    (h : (call.advance P rfc3339 db draw).next = some call') :
    call'.resets = false := by
  cases call with
  | transaction command now =>
    simp only [LinkCall.advance] at h
    split at h
    · cases h
    · cases h
  | linkSubmitted | linkRead =>
    simp only [LinkCall.advance] at h
    split at h
    · cases h
    · cases h
      rfl
  | linkChecked row now newHash hibpWarned =>
    simp only [LinkCall.advance] at h
    split at h
    · cases h
    · cases h
    · cases h
  | resetRequested email requesterIp now => cases hcall
  | recipientRead user requesterIp now => cases hcall
  | recipientChecked user requesterIp now => cases hcall
  | recipientCounted user requesterIp now => cases hcall

theorem noResets_step (h : NoResets links) (he : e.requestsReset = false) :
    NoResets (linkStep P rfc3339 links e).1 := by
  intro id call' hcall'
  rcases linkStep_calls hcall' with hbefore | ⟨request, draw, rfl, hstart⟩ |
    ⟨call, draw, rfl, hcall, hnext⟩
  · exact h id call' hbefore
  · refine start_noReset ?_ hstart
    rintro email requesterIp rfl
    cases he
  · exact advance_noReset (h id call hcall) hnext

/-- The other commands insert a link only where they take the others of the account away. -/
theorem linkStep_supersedes (P : Primitives) (rfc3339 : DateTime → String) (h : NoResets links)
    (e : LinkEvent) :
    (linkStep P rfc3339 links e).1.db.passwordResetTokens = links.db.passwordResetTokens ∨
      ∃ write : LinkWrite, write.superseded.isSome = true ∧
        write.Writes links.db.passwordResetTokens
          (linkStep P rfc3339 links e).1.db.passwordResetTokens ∧
        (write.time = e.now ∨
          ∃ id call, links.calls id = some call ∧ call.sampled = some write.time) := by
  cases e with
  | begin id request draw =>
    left
    simp only [linkStep]
    split
    · rfl
    · rfl
    · rfl
  | elsewhere db now => exact .inl rfl
  | next id draw =>
    simp only [linkStep]
    cases hcall : links.calls id with
    | none => exact .inl rfl
    | some call =>
      have hresets := h id call hcall
      cases call with
      | transaction command now =>
        simp only [LinkCall.advance]
        split
        · rename_i db' hperform
          obtain ⟨write, hsuperseded, -, hwrites, htime⟩ := perform_writes hperform
          refine .inr ⟨write, by rw [hsuperseded]; rfl, hwrites, ?_⟩
          rcases htime with hnow | hsampled
          · exact .inl hnow
          · exact .inr ⟨id, _, hcall, congrArg some hsampled.symm⟩
        · exact .inl rfl
      | linkSubmitted | linkRead =>
        simp only [LinkCall.advance]
        split
        · exact .inl rfl
        · exact .inl rfl
      | linkChecked row now newHash hibpWarned =>
        simp only [LinkCall.advance]
        split
        · rename_i lockout db' hcommit
          have hwrites := (consumeAndResetPassword_writes hcommit).1
          exact .inr ⟨_, rfl, hwrites, .inr ⟨id, _, hcall, rfl⟩⟩
        · exact .inl rfl
        · exact .inl rfl
      | resetRequested email requesterIp now => cases hresets
      | recipientRead user requesterIp now => cases hresets
      | recipientChecked user requesterIp now => cases hresets
      | recipientCounted user requesterIp now => cases hresets

end Commands

/-! ## What a step can do -/

/-- The ways a step goes. -/
inductive ForgotPasswordMove (P : Primitives) (rfc3339 : DateTime → String)
    (w : ForgotPasswordWorld) (e : ForgotPasswordEvent) :
    ForgotPasswordWorld × ForgotPasswordAnswer → Prop where
  | idle : ForgotPasswordMove P rfc3339 w e (w.atTime e.now, .ignored)
  | record (row : ForgotPasswordRequestRow) (requests : ForgotPasswordRequests)
      (hinsert : w.requests.insert? row = some requests) :
      ForgotPasswordMove P rfc3339 w e ({ w.atTime e.now with requests }, .recorded row)
  | command (event : LinkEvent) (he : e = .command event) (hresets : event.requestsReset = false) :
      ForgotPasswordMove P rfc3339 w e
        ({ w with links := (linkStep P rfc3339 w.links event).1 },
          .command (linkStep P rfc3339 w.links event).2)
  | start (hworker : w.worker = none) :
      ForgotPasswordMove P rfc3339 w e ((w.atTime e.now).goOn .requeue)
  | requeue (requests : ForgotPasswordRequests) (hworker : w.worker = some .requeue)
      (hrequests : requests = w.requests ∨ requests = w.requests.requeueStuckProcessing e.now) :
      ForgotPasswordMove P rfc3339 w e ({ w.atTime e.now with requests }.goOn .claim)
  | claim (row : ForgotPasswordRequestRow) (hworker : w.worker = some .claim)
      (hrow : w.requests.get? row.id = some row) :
      ForgotPasswordMove P rfc3339 w e
        ({ w.atTime e.now with requests := w.requests.claim row e.now }.goOn (.claimed row))
  | begin (row : ForgotPasswordRequestRow) (hworker : w.worker = some (.claimed row)) :
      ForgotPasswordMove P rfc3339 w e
        ((w.atTime e.now).goOn (.reset row (.resetRequested row.email row.requesterIp e.now)))
  | read (row : ForgotPasswordRequestRow) (call call' : LinkCall) (draw : LinkDraw)
      (hworker : w.worker = some (.reset row call)) (hdraw : draw.now = e.now)
      (hnext : (call.advance P rfc3339 w.links.db draw).next = some call') :
      ForgotPasswordMove P rfc3339 w e ((w.atTime e.now).goOn (.reset row call'))
  | insert (row : ForgotPasswordRequestRow) (user : UserRow) (requesterIp : Option String)
      (now : DateTime) (draw : LinkDraw) (db : Database)
      (hworker : w.worker = some (.reset row (.recipientCounted user requesterIp now)))
      (hinsert : PasswordResetTokens.insertWith w.links.db
        (mailedLink P draw user requesterIp now) false = .ok db) :
      ForgotPasswordMove P rfc3339 w e (((w.atTime e.now).withDb db).goOn (.mail row))
  | returns (row : ForgotPasswordRequestRow) (ok : Bool)
      (hworker : (∃ call, w.worker = some (.reset row call)) ∨ w.worker = some (.mail row)) :
      ForgotPasswordMove P rfc3339 w e ((w.atTime e.now).returns row ok)
  | delete (row : ForgotPasswordRequestRow) (requests : ForgotPasswordRequests)
      (hworker : w.worker = some (.delete row))
      (hrequests : requests = w.requests ∨ requests = w.requests.delete fun r => r.id = row.id) :
      ForgotPasswordMove P rfc3339 w e ({ w.atTime e.now with requests }.goOn .claim)
  | stop : ForgotPasswordMove P rfc3339 w e ({ w.atTime e.now with worker := none }, .running)

section Steps

variable {w : ForgotPasswordWorld} {e : ForgotPasswordEvent}
variable {draw : LinkDraw}

/-- Only the insertion ends a call with a link. -/
theorem LinkCall.advance_issued {db : Database} {call : LinkCall}
    (hout : (call.advance P rfc3339 db draw).out = .issued) :
    ∃ user requesterIp now, call = .recipientCounted user requesterIp now ∧
      PasswordResetTokens.insertWith db (mailedLink P draw user requesterIp now) false =
        .ok (call.advance P rfc3339 db draw).db := by
  cases call with
  | recipientCounted user requesterIp now =>
    refine ⟨user, requesterIp, now, rfl, ?_⟩
    simp only [LinkCall.advance] at hout ⊢
    split
    · rename_i db' hinsert
      exact hinsert
    · rename_i error hinsert
      rw [hinsert] at hout
      cases hout
  | _ =>
    simp only [LinkCall.advance] at hout
    (repeat' split at hout) <;> cases hout

private theorem work_move {fails : Bool} {stage : ForgotPasswordStage}
    (hworker : w.worker = some stage) (hdraw : draw.now = e.now) :
    ForgotPasswordMove P rfc3339 w e ((w.atTime e.now).work P rfc3339 draw fails stage) := by
  cases stage with
  | requeue =>
    simp only [ForgotPasswordWorld.work, hdraw]
    cases fails with
    | true => exact .requeue _ hworker (.inl rfl)
    | false => exact .requeue _ hworker (.inr rfl)
  | claim => exact .idle
  | claimed row =>
    simp only [ForgotPasswordWorld.work, hdraw]
    exact .begin row hworker
  | reset row call =>
    have hreturns : ∀ ok, ForgotPasswordMove P rfc3339 w e ((w.atTime e.now).returns row ok) :=
      fun ok => .returns row ok (.inl ⟨call, hworker⟩)
    cases fails with
    | true => exact hreturns false
    | false =>
      have hdb : (w.atTime e.now).links.db = w.links.db := rfl
      simp only [ForgotPasswordWorld.work, Bool.false_eq_true, if_false, hdb]
      split
      · rename_i call' hnext
        exact .read row call call' draw hworker hdraw hnext
      · rename_i hout
        obtain ⟨user, requesterIp, now, rfl, hinsert⟩ := LinkCall.advance_issued hout
        exact .insert row user requesterIp now draw _ hworker hinsert
      · exact hreturns true
      · exact hreturns false
  | mail row => exact .returns row _ (.inr hworker)
  | delete row =>
    cases fails with
    | true => exact .delete row _ hworker (.inl rfl)
    | false => exact .delete row _ hworker (.inr rfl)

theorem forgotPasswordStep_move (P : Primitives) (rfc3339 : DateTime → String)
    (w : ForgotPasswordWorld) (e : ForgotPasswordEvent) :
    ForgotPasswordMove P rfc3339 w e (forgotPasswordStep P rfc3339 w e) := by
  cases e with
  | record id email requesterIp now fails =>
    simp only [forgotPasswordStep]
    split
    · rename_i requests hinsert
      exact .record _ requests hinsert
    · exact .idle
  | command event =>
    simp only [forgotPasswordStep]
    cases hresets : event.requestsReset with
    | true => exact .idle
    | false => exact .command event rfl hresets
  | start now =>
    simp only [forgotPasswordStep]
    split
    · rename_i hworker
      exact .start hworker
    · exact .idle
  | claim row now fails =>
    simp only [forgotPasswordStep]
    split
    · rename_i hworker
      split
      · rename_i hrow
        exact .claim row hworker hrow.1
      · exact .idle
    · exact .idle
  | work draw fails =>
    simp only [forgotPasswordStep]
    split
    · rename_i stage hworker
      exact work_move hworker rfl
    · exact .idle
  | stop now => exact .stop

end Steps

/-! ## No request is lost -/

/-- The row that the worker is at. -/
def ForgotPasswordStage.row? : ForgotPasswordStage → Option ForgotPasswordRequestRow
  | .requeue | .claim => none
  | .claimed row | .reset row _ | .mail row | .delete row => some row

/-- The row that the worker is at is in the table. -/
def WorkerHolds (w : ForgotPasswordWorld) : Prop :=
  ∀ stage row, w.worker = some stage → stage.row? = some row →
    ∃ r, w.requests.get? row.id = some r

/-- The request is in the table, and `request_reset` has not returned for it. -/
structure Waiting (w : ForgotPasswordWorld) (request : ForgotPasswordRequestRow) : Prop where
  present : ∃ r, w.requests.get? request.id = some r ∧ r.email = request.email
  worker : ∀ stage row, w.worker = some stage → stage.row? = some row → row.id = request.id →
    row.email = request.email ∧ stage ≠ .delete row

section Requests

variable {w : ForgotPasswordWorld} {e : ForgotPasswordEvent} {request : ForgotPasswordRequestRow}
variable {id : Nat} {r row : ForgotPasswordRequestRow}

private theorem get?_updated {requests : ForgotPasswordRequests}
    {p : ForgotPasswordRequestRow → Bool} {state : ForgotPasswordRequestState} {now : DateTime}
    (h : requests.get? id = some r) :
    ∃ r', (requests.update p fun r => { r with state, updatedAt := now }).get? id = some r' ∧
      r'.email = r.email := by
  rw [Table.get?_update, h, Option.map_some]
  refine ⟨_, rfl, ?_⟩
  split
  · rfl
  · rfl

private theorem get?_undeleted {requests : ForgotPasswordRequests} (h : requests.get? id = some r)
    (hid : row.id ≠ id) :
    (requests.delete fun r => r.id = row.id).get? id = some r := by
  have hkey : r.id = id := (Table.get?_eq_some.mp h).2
  rw [Table.get?_delete, h, Option.filter_some_pos]
  simp [hkey, Ne.symm hid]

private theorem get?_inserted {requests requests' : ForgotPasswordRequests}
    (hinsert : requests.insert? row = some requests') (h : requests.get? id = some r) :
    requests'.get? id = some r := by
  rw [Table.get?_of_insert? hinsert, if_neg, h]
  rintro rfl
  exact (Table.insert?_eq_some.mp hinsert).1 r (Table.get?_eq_some.mp h).1
    (Table.get?_eq_some.mp h).2

theorem workerHolds_step (h : WorkerHolds w) :
    WorkerHolds (forgotPasswordStep P rfc3339 w e).1 := by
  have hmove := forgotPasswordStep_move P rfc3339 w e
  generalize forgotPasswordStep P rfc3339 w e = result at hmove
  intro stage row hstage hrow
  cases hmove with
  | idle => exact h stage row hstage hrow
  | record row' requests hinsert =>
    obtain ⟨r, hr⟩ := h stage row hstage hrow
    exact ⟨r, get?_inserted hinsert hr⟩
  | command event he hresets => exact h stage row hstage hrow
  | start | requeue | delete =>
    cases hstage
    cases hrow
  | claim row' hworker hget =>
    cases hstage
    cases hrow
    have hkept : ∃ r, (w.requests.claim row e.now).get? row.id = some r ∧ r.email = row.email :=
      get?_updated hget
    obtain ⟨r, hr, -⟩ := hkept
    exact ⟨r, hr⟩
  | begin row' hworker | read row' call call' draw hworker hdraw hnext
  | insert row' user requesterIp now draw db hworker hinsert =>
    cases hstage
    exact h _ row hworker hrow
  | returns row' ok hworker =>
    cases hstage
    rcases hworker with ⟨call, hworker⟩ | hworker
    · exact h _ row hworker hrow
    · exact h _ row hworker hrow
  | stop => cases hstage

/-- A request waits on until `request_reset` returns for it. -/
theorem waiting_step (h : Waiting w request) :
    Waiting (forgotPasswordStep P rfc3339 w e).1 request ∨
      ∃ row ok, (forgotPasswordStep P rfc3339 w e).2 = .returned row ok ∧ row.id = request.id ∧
        row.email = request.email := by
  have hmove := forgotPasswordStep_move P rfc3339 w e
  generalize forgotPasswordStep P rfc3339 w e = result at hmove
  obtain ⟨r, hr, hemail⟩ := h.present
  cases hmove with
  | idle => exact .inl ⟨h.present, h.worker⟩
  | record row requests hinsert =>
    exact .inl ⟨⟨r, get?_inserted hinsert hr, hemail⟩, h.worker⟩
  | command event he hresets => exact .inl ⟨h.present, h.worker⟩
  | start hworker =>
    refine .inl ⟨h.present, fun stage row hstage hrow => ?_⟩
    cases hstage
    cases hrow
  | requeue requests hworker hrequests =>
    refine .inl ⟨?_, fun stage row hstage hrow => ?_⟩
    · rcases hrequests with rfl | rfl
      · exact ⟨r, hr, hemail⟩
      · obtain ⟨r', hr', hemail'⟩ := get?_updated hr
        exact ⟨r', hr', hemail'.trans hemail⟩
    · cases hstage
      cases hrow
  | claim row hworker hget =>
    refine .inl ⟨?_, fun stage row' hstage hrow hid => ?_⟩
    · obtain ⟨r', hr', hemail'⟩ := get?_updated hr
      exact ⟨r', hr', hemail'.trans hemail⟩
    · cases hstage
      cases hrow
      rw [hid, hr] at hget
      cases hget
      exact ⟨hemail, nofun⟩
  | begin row hworker | read row call call' draw hworker hdraw hnext
  | insert row user requesterIp now draw db hworker hinsert =>
    refine .inl ⟨h.present, fun stage row' hstage hrow hid => ?_⟩
    cases hstage
    exact ⟨(h.worker _ row' hworker hrow hid).1, nofun⟩
  | returns row ok hworker =>
    have hknown : row.id = request.id → row.email = request.email := by
      intro hid
      rcases hworker with ⟨call, hworker⟩ | hworker
      · exact (h.worker _ row hworker rfl hid).1
      · exact (h.worker _ row hworker rfl hid).1
    by_cases hid : row.id = request.id
    · exact .inr ⟨row, ok, rfl, hid, hknown hid⟩
    · refine .inl ⟨h.present, fun stage row' hstage hrow hid' => ?_⟩
      cases hstage
      cases hrow
      exact absurd hid' hid
  | delete row requests hworker hrequests =>
    have hid : row.id ≠ request.id := by
      intro hid
      exact (h.worker _ row hworker rfl hid).2 rfl
    refine .inl ⟨?_, fun stage row' hstage hrow => ?_⟩
    · rcases hrequests with rfl | rfl
      · exact ⟨r, hr, hemail⟩
      · exact ⟨r, get?_undeleted hr hid, hemail⟩
    · cases hstage
      cases hrow
  | stop =>
    refine .inl ⟨h.present, fun stage row hstage => ?_⟩
    cases hstage

/-- A request that has just been recorded waits: the worker is at another row. -/
theorem waiting_of_recorded (h : WorkerHolds w)
    (hout : (forgotPasswordStep P rfc3339 w e).2 = .recorded request) :
    Waiting (forgotPasswordStep P rfc3339 w e).1 request := by
  have hmove := forgotPasswordStep_move P rfc3339 w e
  generalize forgotPasswordStep P rfc3339 w e = result at hmove hout
  cases hmove with
  | record row requests hinsert =>
    cases hout
    refine ⟨⟨request, ?_, rfl⟩, ?_⟩
    · show requests.get? request.id = some request
      rw [Table.get?_of_insert? hinsert, if_pos rfl]
    · intro stage row hstage hrow hid
      obtain ⟨r, hr⟩ := h stage row hstage hrow
      have hfree := (Table.insert?_eq_some.mp hinsert).1 r (Table.get?_eq_some.mp hr).1
      exact absurd ((Table.get?_eq_some.mp hr).2.trans hid) hfree
  | _ => cases hout

end Requests

/-- From then on it is in the table or `request_reset` has returned for its address. -/
theorem waiting_run {request : ForgotPasswordRequestRow} (events : List ForgotPasswordEvent) :
    ∀ {w : ForgotPasswordWorld}, Waiting w request →
      (∃ r, (run (forgotPasswordStep P rfc3339) w events).requests.get? request.id = some r ∧
          r.email = request.email) ∨
        ∃ x ∈ trace (forgotPasswordStep P rfc3339) w events, ∃ row ok,
          x.out = .returned row ok ∧ row.id = request.id ∧ row.email = request.email := by
  induction events with
  | nil =>
    intro w h
    exact .inl h.present
  | cons e events ih =>
    intro w h
    have hstep := @waiting_step P rfc3339 w e request h
    rcases hstep with hwaits | hreturned
    · rcases ih hwaits with hpresent | ⟨x, hx, hreturned⟩
      · exact .inl hpresent
      · exact .inr ⟨x, List.mem_cons_of_mem _ hx, hreturned⟩
    · exact .inr ⟨_, List.mem_cons_self, hreturned⟩

/-! ## No account is flooded -/

/-- The worker is in the reads of `request_reset`. -/
def ForgotPasswordStage.reading : ForgotPasswordStage → Bool
  | .reset .. => true
  | _ => false

/-- No account has more than three outstanding links, and one whose links `request_reset` has
counted has less. -/
structure Ceiling (links : LinkWorld) (worker : Option ForgotPasswordStage) : Prop where
  known : CallsKnown links
  noResets : NoResets links
  outstanding : ∀ user, outstandingLinks links.db.passwordResetTokens user links.clock ≤ 3
  sampled : ∀ row call now, worker = some (.reset row call) → call.sampled = some now →
    now ≤ links.clock
  counted : ∀ row user requesterIp now,
    worker = some (.reset row (.recipientCounted user requesterIp now)) →
    outstandingLinks links.db.passwordResetTokens user.id links.clock ≤ 2

section Ceiling

variable {links : LinkWorld} {worker : Option ForgotPasswordStage} {now : DateTime}

theorem Ceiling.atTime (h : Ceiling links worker) (hle : links.clock ≤ now) :
    Ceiling { links with clock := now } worker where
  known :=
    { clock := fun id call now' hcall hsampled =>
        Int.le_trans (h.known.clock id call now' hcall hsampled) hle
      link := h.known.link }
  noResets := h.noResets
  outstanding user := Nat.le_trans (outstandingLinks_antitone hle) (h.outstanding user)
  sampled row call now' hworker hsampled :=
    Int.le_trans (h.sampled row call now' hworker hsampled) hle
  counted row user requesterIp now' hworker :=
    Nat.le_trans (outstandingLinks_antitone hle) (h.counted row user requesterIp now' hworker)

/-- The worker goes to a stage outside of `request_reset`'s reads. -/
theorem Ceiling.leaves {worker' : Option ForgotPasswordStage} (h : Ceiling links worker)
    (hleaves : worker'.any (·.reading) = false) : Ceiling links worker' := by
  have hother : ∀ row call, worker' ≠ some (.reset row call) := by
    rintro row call rfl
    cases hleaves
  exact ⟨h.known, h.noResets, h.outstanding,
    fun row call _ hworker => absurd hworker (hother row call),
    fun row _ _ _ hworker => absurd hworker (hother row _)⟩

theorem Ceiling.command {event : LinkEvent} (h : Ceiling links worker)
    (hle : links.clock ≤ event.now) (hresets : event.requestsReset = false) :
    Ceiling (linkStep P rfc3339 links event).1 worker := by
  have hclock : (linkStep P rfc3339 links event).1.clock = event.now := linkStep_clock
  have hfewer : ∀ user, outstandingLinks (linkStep P rfc3339 links event).1.db.passwordResetTokens
        user event.now ≤ 1 ∨
      outstandingLinks (linkStep P rfc3339 links event).1.db.passwordResetTokens user event.now ≤
        outstandingLinks links.db.passwordResetTokens user links.clock := by
    intro user
    have hexpire : outstandingLinks links.db.passwordResetTokens user event.now ≤
        outstandingLinks links.db.passwordResetTokens user links.clock :=
      outstandingLinks_antitone hle
    rcases linkStep_supersedes P rfc3339 h.noResets event with
      hsame | ⟨write, hsuperseded, hwrites, htime⟩
    · rw [hsame]
      exact .inr hexpire
    · rcases hwrites.outstandingLinks hsuperseded (h.known.time_le hle htime) with hone | hfewer
      · exact .inl hone
      · exact .inr (Nat.le_trans hfewer hexpire)
  refine ⟨callsKnown_step h.known hle, noResets_step h.noResets hresets, ?_, ?_, ?_⟩
  · intro user
    have hbefore := h.outstanding user
    rw [hclock]
    rcases hfewer user with hone | hfewer
    · omega
    · omega
  · intro row call now' hworker hsampled
    rw [hclock]
    exact Int.le_trans (h.sampled row call now' hworker hsampled) hle
  · intro row user requesterIp now' hworker
    have hbefore := h.counted row user requesterIp now' hworker
    rw [hclock]
    rcases hfewer user.id with hone | hfewer
    · omega
    · omega

variable {row : ForgotPasswordRequestRow} {draw : LinkDraw}

/-- `request_reset` counts with a clock value that is not ahead. -/
theorem Ceiling.read {call call' : LinkCall} (h : Ceiling links (some (.reset row call)))
    (hdraw : draw.now = links.clock)
    (hnext : (call.advance P rfc3339 links.db draw).next = some call') :
    Ceiling links (some (.reset row call')) := by
  refine ⟨h.known, h.noResets, h.outstanding, ?_, ?_⟩
  · intro row' call'' now' hworker hsampled
    cases hworker
    rcases (LinkCall.advance_reads hnext).1 now' hsampled with hbefore | hnow
    · exact h.sampled row call now' rfl hbefore
    · exact Int.le_of_eq (hnow.trans hdraw)
  · intro row' user requesterIp now' hworker
    cases hworker
    cases call with
    | recipientChecked user' requesterIp' now'' =>
      simp only [LinkCall.advance] at hnext
      split at hnext
      · cases hnext
      · rename_i hbelow
        cases hnext
        have hle : now' ≤ links.clock := h.sampled row _ now' rfl rfl
        have hcount : outstandingLinks links.db.passwordResetTokens user.id now' < 3 :=
          Nat.lt_of_not_le hbelow
        have hexpire : outstandingLinks links.db.passwordResetTokens user.id links.clock ≤
            outstandingLinks links.db.passwordResetTokens user.id now' :=
          outstandingLinks_antitone hle
        omega
    | _ =>
      simp only [LinkCall.advance] at hnext
      (repeat' split at hnext) <;> cases hnext

theorem Ceiling.insert {user : UserRow} {requesterIp : Option String} {db : Database}
    (h : Ceiling links (some (.reset row (.recipientCounted user requesterIp now))))
    (hinsert : PasswordResetTokens.insertWith links.db (mailedLink P draw user requesterIp now)
      false = .ok db) :
    Ceiling { links with db } (some (.mail row)) := by
  have htokens := PasswordResetTokens.insertWith_writes hinsert
  have hknown : CallsKnown { links with db } := by
    refine ⟨h.known.clock, ?_⟩
    intro id call link hcall hlink
    obtain ⟨t, hget, hkept⟩ := h.known.link id call link hcall hlink
    exact ⟨t, insert?_get? htokens hget, hkept⟩
  refine ⟨hknown, h.noResets, ?_, fun _ _ _ hworker => (by cases hworker),
    fun _ _ _ _ hworker => (by cases hworker)⟩
  · intro user'
    have hcount : outstandingLinks db.passwordResetTokens user' links.clock ≤
        outstandingLinks links.db.passwordResetTokens user' links.clock +
          if user.id = user' then 1 else 0 :=
      outstandingLinks_insert htokens
    by_cases huser : user.id = user'
    · subst huser
      have hbelow := h.counted row user requesterIp now rfl
      rw [if_pos rfl] at hcount
      show outstandingLinks db.passwordResetTokens user.id links.clock ≤ 3
      omega
    · have hbelow := h.outstanding user'
      rw [if_neg huser] at hcount
      show outstandingLinks db.passwordResetTokens user' links.clock ≤ 3
      omega

theorem ceiling_step {w : ForgotPasswordWorld} {e : ForgotPasswordEvent}
    (h : Ceiling w.links w.worker) (hle : w.links.clock ≤ e.now) :
    Ceiling (forgotPasswordStep P rfc3339 w e).1.links
      (forgotPasswordStep P rfc3339 w e).1.worker := by
  have hmove := forgotPasswordStep_move P rfc3339 w e
  generalize forgotPasswordStep P rfc3339 w e = result at hmove
  have hlater := h.atTime hle
  cases hmove with
  | idle => exact hlater
  | record row requests hinsert => exact hlater
  | command event he hresets =>
    subst he
    exact h.command hle hresets
  | start hworker => exact hlater.leaves rfl
  | requeue requests hworker hrequests => exact hlater.leaves rfl
  | claim row hworker hrow => exact hlater.leaves rfl
  | begin row hworker =>
    refine ⟨hlater.known, hlater.noResets, hlater.outstanding, ?_, ?_⟩
    · intro row' call now hstage hsampled
      cases hstage
      cases hsampled
      exact Int.le_refl _
    · intro row' user requesterIp now hstage
      cases hstage
  | read row call call' draw hworker hdraw hnext =>
    rw [hworker] at hlater
    exact hlater.read hdraw hnext
  | insert row user requesterIp now draw db hworker hinsert =>
    rw [hworker] at hlater
    exact hlater.insert hinsert
  | returns row ok hworker => exact hlater.leaves rfl
  | delete row requests hworker hrequests => exact hlater.leaves rfl
  | stop => exact hlater.leaves rfl

end Ceiling

/-! ## What is read before a link is inserted -/

abbrev ForgotPasswordTaken :=
  Taken ForgotPasswordWorld ForgotPasswordEvent ForgotPasswordAnswer

/-- One of the steps has read the account by the address, as a local one. -/
def ReadAsLocal (P : Primitives) (past : List ForgotPasswordTaken) (email : String)
    (user : UserRow) : Prop :=
  ∃ x ∈ past, user ∈ x.pre.links.db.users ∧
    user.emailNormalized = some (Users.normalizeEmail P email) ∧ user.source = .localDb

/-- One of the steps has read its credential. -/
def ReadCredential (past : List ForgotPasswordTaken) (user : UserRow) : Prop :=
  ∃ x ∈ past, (x.pre.links.db.credentials.get? user.id).isSome = true

/-- The account is read by the address of the row, as local and active, and has a credential. -/
structure Eligible (P : Primitives) (past : List ForgotPasswordTaken) (email : String)
    (user : UserRow) : Prop where
  isLocal : ReadAsLocal P past email user
  credential : ReadCredential past user
  active : user.isDisabled = false ∧ user.isDeleted = false

/-- What a run of `request_reset` has read. -/
def LinkCall.Read (P : Primitives) (past : List ForgotPasswordTaken) (address : String) :
    LinkCall → Prop
  | .resetRequested email _ _ => email = address
  | .recipientRead user _ _ => ReadAsLocal P past address user
  | .recipientChecked user _ _ => Eligible P past address user
  | .recipientCounted user _ _ => Eligible P past address user
  | _ => False

/-- The steps are those of one run of `request_reset`: the worker is in it all the time. -/
def DuringReset (row : ForgotPasswordRequestRow) (during : List ForgotPasswordTaken) : Prop :=
  ∀ y ∈ during, ∃ call, y.pre.worker = some (.reset row call)

/-- The run that the worker is in has read this itself. -/
def WorkerRead (P : Primitives) (past : List ForgotPasswordTaken) (w : ForgotPasswordWorld) :
    Prop :=
  ∀ row call, w.worker = some (.reset row call) →
    ∃ before during, past = before ++ during ∧ DuringReset row during ∧
      call.Read P during row.email

section Recipient

variable {past : List ForgotPasswordTaken} {x : ForgotPasswordTaken} {email : String}
  {user : UserRow}

theorem ReadAsLocal.later (h : ReadAsLocal P past email user) :
    ReadAsLocal P (past ++ [x]) email user := by
  obtain ⟨y, hy, hread⟩ := h
  exact ⟨y, List.mem_append_left _ hy, hread⟩

theorem Eligible.later (h : Eligible P past email user) : Eligible P (past ++ [x]) email user := by
  obtain ⟨y, hy, hread⟩ := h.credential
  exact ⟨h.isLocal.later, ⟨y, List.mem_append_left _ hy, hread⟩, h.active⟩

variable {call : LinkCall} {draw : LinkDraw}

theorem LinkCall.Read.later (h : call.Read P past email) :
    call.Read P (past ++ [x]) email := by
  cases call with
  | resetRequested email' requesterIp now => exact h
  | recipientRead user requesterIp now => exact ReadAsLocal.later h
  | recipientChecked user requesterIp now => exact Eligible.later h
  | recipientCounted user requesterIp now => exact Eligible.later h
  | _ => exact h

/-- The next read of the run. -/
theorem LinkCall.Read.advance {call' : LinkCall} (h : call.Read P past email)
    (hnext : (call.advance P rfc3339 x.pre.links.db draw).next = some call') :
    call'.Read P (past ++ [x]) email := by
  have hx : x ∈ past ++ [x] := List.mem_append_right _ List.mem_cons_self
  cases call with
  | resetRequested email' requesterIp now =>
    obtain rfl : email' = email := h
    simp only [LinkCall.advance] at hnext
    split at hnext
    · cases hnext
    · rename_i user hfound
      cases hnext
      obtain ⟨hfind, hlocal⟩ := Option.filter_eq_some_iff.mp hfound
      obtain ⟨hmem, hemail⟩ := Table.mem_of_find? hfind
      exact ⟨x, hx, hmem, by simpa using hemail, by simpa using hlocal⟩
  | recipientRead user requesterIp now =>
    simp only [LinkCall.advance] at hnext
    split at hnext
    · cases hnext
    · rename_i hchecked
      cases hnext
      simp only [Bool.or_eq_true, not_or, Bool.not_eq_true, Option.isNone_eq_false_iff] at hchecked
      exact ⟨ReadAsLocal.later h, ⟨x, hx, hchecked.1.1⟩, hchecked.1.2, hchecked.2⟩
  | recipientChecked user requesterIp now =>
    simp only [LinkCall.advance] at hnext
    split at hnext
    · cases hnext
    · cases hnext
      exact Eligible.later h
  | recipientCounted user requesterIp now =>
    simp only [LinkCall.advance] at hnext
    split at hnext
    · cases hnext
    · cases hnext
  | _ => exact absurd h id

theorem DuringReset.later {row : ForgotPasswordRequestRow} (h : DuringReset row past)
    (hx : x.pre.worker = some (.reset row call)) :
    DuringReset row (past ++ [x]) := by
  intro y hy
  rcases List.mem_append.mp hy with hy | hy
  · exact h y hy
  · rw [List.mem_singleton.mp hy]
    exact ⟨call, hx⟩

theorem workerRead_step {w : ForgotPasswordWorld} {e : ForgotPasswordEvent}
    (h : WorkerRead P past w) :
    WorkerRead P (past ++ [⟨w, e, (forgotPasswordStep P rfc3339 w e).2⟩])
      (forgotPasswordStep P rfc3339 w e).1 := by
  have hmove := forgotPasswordStep_move P rfc3339 w e
  generalize forgotPasswordStep P rfc3339 w e = result at hmove
  intro row call hstage
  -- the worker stays where it is
  have hstays : w.worker = some (.reset row call) → ∃ before during,
      past ++ [⟨w, e, result.2⟩] = before ++ during ∧ DuringReset row during ∧
        call.Read P during row.email := by
    intro hworker
    obtain ⟨before, during, rfl, hduring, hread⟩ := h row call hworker
    exact ⟨before, _, List.append_assoc .., hduring.later hworker, hread.later⟩
  cases hmove with
  | idle => exact hstays hstage
  | record row' requests hinsert => exact hstays hstage
  | command event he hresets => exact hstays hstage
  | begin row' hworker =>
    cases hstage
    exact ⟨_, [], (List.append_nil _).symm, (fun y hy => by cases hy), rfl⟩
  | read row' call' call'' draw hworker hdraw hnext =>
    cases hstage
    obtain ⟨before, during, rfl, hduring, hread⟩ := h row call' hworker
    exact ⟨before, _, List.append_assoc .., hduring.later hworker, hread.advance hnext⟩
  | start hworker => cases hstage
  | requeue requests hworker hrequests => cases hstage
  | claim row' hworker hget => cases hstage
  | insert row' user requesterIp now draw db hworker hinsert => cases hstage
  | returns row' ok hworker => cases hstage
  | delete row' requests hworker hrequests => cases hstage
  | stop => cases hstage

/-- The worker's step inserts a link only at the end of the reads. -/
theorem work_inserts {w : ForgotPasswordWorld} {fails : Bool} {t : PasswordResetTokenRow}
    (hnew : t ∈ (forgotPasswordStep P rfc3339 w (.work draw fails)).1.links.db.passwordResetTokens)
    (hold : t ∉ w.links.db.passwordResetTokens) :
    ∃ row user requesterIp now,
      w.worker = some (.reset row (.recipientCounted user requesterIp now)) ∧
        t.userId = user.id := by
  have hmove := forgotPasswordStep_move P rfc3339 w (.work draw fails)
  generalize forgotPasswordStep P rfc3339 w (.work draw fails) = result at hmove hnew
  cases hmove with
  | insert row user requesterIp now draw' db hworker hinsert =>
    refine ⟨row, user, requesterIp, now, hworker, ?_⟩
    have htokens := PasswordResetTokens.insertWith_writes hinsert
    rcases (Table.mem_of_insert? htokens).mp hnew with hmem | rfl
    · exact absurd hmem hold
    · rfl
  | command event he hresets => cases he
  | _ => exact absurd hnew hold

end Recipient

/-! ## Runs -/

/-- No event is earlier than the one before it. -/
def ForgotPasswordEvent.inOrder (w : ForgotPasswordWorld) (e : ForgotPasswordEvent) : Bool :=
  w.links.clock ≤ e.now

section Runs

variable {db : Database} {clock : DateTime} {requests : ForgotPasswordRequests}
  {events : List ForgotPasswordEvent}

private theorem ceiling_start
    (hstart : ∀ user, PasswordResetTokens.countActiveForUser db user clock ≤ 3) :
    Ceiling (ForgotPasswordWorld.start db clock requests).links
      (ForgotPasswordWorld.start db clock requests).worker where
  known := callsKnown_start db clock
  noResets _ _ hcall := by cases hcall
  outstanding := hstart
  sampled _ _ _ hworker := by cases hworker
  counted _ _ _ _ hworker := by cases hworker

/-- Whatever of the worker and of the commands takes its steps when, whatever fails, and
however often the process stops: a recorded request is in the table until `request_reset` has
returned for its address, at no time does an account have more than three outstanding links,
and the worker inserts a link only for an account that this run of `request_reset` has read by the
address, as local, active and with a credential. -/
structure ForgotPasswordContract (P : Primitives) (rfc3339 : DateTime → String)
    (w : ForgotPasswordWorld) (events : List ForgotPasswordEvent) : Prop where
  notLost : ∀ es₁ e es₂ request, events = es₁ ++ e :: es₂ →
    (forgotPasswordStep P rfc3339 (run (forgotPasswordStep P rfc3339) w es₁) e).2 =
      .recorded request →
    (∃ r, (run (forgotPasswordStep P rfc3339) w events).requests.get? request.id = some r ∧
        r.email = request.email) ∨
      ∃ x ∈ trace (forgotPasswordStep P rfc3339)
          (forgotPasswordStep P rfc3339 (run (forgotPasswordStep P rfc3339) w es₁) e).1 es₂,
        ∃ row ok, x.out = .returned row ok ∧ row.id = request.id ∧ row.email = request.email
  ceiling : ∀ user now, (run (forgotPasswordStep P rfc3339) w events).links.clock ≤ now →
    PasswordResetTokens.countActiveForUser (run (forgotPasswordStep P rfc3339) w events).links.db
      user now ≤ 3
  eligible : ∀ past x rest, trace (forgotPasswordStep P rfc3339) w events = past ++ x :: rest →
    ∀ draw fails, x.event = .work draw fails →
    ∀ t ∈ (forgotPasswordStep P rfc3339 x.pre x.event).1.links.db.passwordResetTokens,
      t ∉ x.pre.links.db.passwordResetTokens →
      ∃ row call user, x.pre.worker = some (.reset row call) ∧ t.userId = user.id ∧
        ∃ before during, past = before ++ during ∧ DuringReset row during ∧
          Eligible P during row.email user

theorem forgot_password_contract (P : Primitives) (rfc3339 : DateTime → String) (db : Database)
    (clock : DateTime) (requests : ForgotPasswordRequests) (events : List ForgotPasswordEvent)
    (hstart : ∀ user, PasswordResetTokens.countActiveForUser db user clock ≤ 3)
    (horder : Guarded (forgotPasswordStep P rfc3339) (fun w e => e.inOrder w = true)
      (.start db clock requests) events) :
    ForgotPasswordContract P rfc3339 (.start db clock requests) events where
  notLost es₁ e es₂ request hevents hout := by
    subst hevents
    have hnone : WorkerHolds (ForgotPasswordWorld.start db clock requests) := by
      intro stage row hstage
      cases hstage
    have hholds : WorkerHolds
        (run (forgotPasswordStep P rfc3339) (.start db clock requests) es₁) :=
      run_invariant (fun _ _ h _ => workerHolds_step h) (guarded_true _ es₁) hnone
    rw [run_append, run_cons]
    exact waiting_run es₂ (waiting_of_recorded hholds hout)
  ceiling user now hle := by
    have hbegin : Ceiling (ForgotPasswordWorld.start db clock requests).links
        (ForgotPasswordWorld.start db clock requests).worker := ceiling_start hstart
    have hceiling := run_invariant
      (I := fun w : ForgotPasswordWorld => Ceiling w.links w.worker)
      (fun _ _ h hle => ceiling_step h (of_decide_eq_true hle)) horder hbegin
    exact Nat.le_trans (outstandingLinks_antitone hle) (hceiling.outstanding user)
  eligible past x rest hx draw fails hevent t hnew hold := by
    have hnone : WorkerRead P [] (ForgotPasswordWorld.start db clock requests) := by
      intro row call hstage
      cases hstage
    obtain ⟨hread, -, -⟩ := trace_history
      (fun _ _ _ h _ => workerRead_step h) (guarded_true _ events) hnone hx
    rw [hevent] at hnew
    obtain ⟨row, user, requesterIp, now, hworker, huser⟩ := work_inserts hnew hold
    exact ⟨row, _, user, hworker, huser, hread row _ hworker⟩

end Runs

/-! ## An interrupted request -/

/-- User 7 with a password and an address. -/
def forgetfulDb : Database :=
  { Database.empty with
    users := ⟨[{ plainUser 7 "ada" .user with emailNormalized := some "ada" }], by decide⟩
    credentials := ⟨[⟨7, "old", 0⟩], linkDb_credentials⟩ }

private def forgetfulDraw : LinkDraw := ⟨0, 51, [1], "new"⟩

/-- The process stops after the link is inserted and before it is mailed, and starts again. -/
def interruptedRun : List ForgotPasswordEvent :=
  [.record 1 "ada" none 0 false, .start 0, .work forgetfulDraw false,
    .claim ⟨1, .pending, "ada", none, 0, 0⟩ 0 false, .work forgetfulDraw false,
    .work forgetfulDraw false, .work forgetfulDraw false, .work forgetfulDraw false,
    .work forgetfulDraw false, .stop 1, .start 2, .work { forgetfulDraw with now := 3 } false]

/-- The request is pending again, beside its first link. -/
theorem forgot_password_contract_interrupted :
    let w := run (forgotPasswordStep .transparent fun _ => "") (.start forgetfulDb 0 ∅)
      interruptedRun
    w.requests.rows = [⟨1, .pending, "ada", none, 0, 3⟩] ∧
      PasswordResetTokens.countActiveForUser w.links.db 7 3 = 1 ∧
      ForgotPasswordContract .transparent (fun _ => "") (.start forgetfulDb 0 ∅)
        interruptedRun := by
  have hstart : ∀ user, PasswordResetTokens.countActiveForUser forgetfulDb user 0 ≤ 3 :=
    fun _ => Nat.zero_le 3
  exact ⟨by decide +kernel, by decide +kernel,
    forgot_password_contract .transparent (fun _ => "") forgetfulDb 0 ∅ interruptedRun hstart
      (by decide +kernel)⟩

end SuiId
