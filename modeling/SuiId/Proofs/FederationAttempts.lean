import Mathlib.Data.List.Induction
import Mathlib.Logic.Relation
import SuiId.Core.SignIns

/-!
# The life of a federation attempt

Every event is followed through one row at a time: `RowStep` lists what an event
can do to the row of an identifier, together with what the event was.  The law
of the attempts is then an argument about one row:

* `Reached S` is closed under events when `S` is closed under `AttemptStatus.Next`,
  and a row never comes back under its identifier (`reached_step`);
* "at most once" is `countP_trace_le_one` with such a set;
* a claim writes after it has checked, so the claims in flight carry an
  invariant (`ClaimsChecked`): what was checked still holds of the row.
-/

namespace SuiId

open Lib Lib.Result FederationLoginAttempt

/-- The moves of a status. -/
inductive AttemptStatus.Next : AttemptStatus → AttemptStatus → Prop where
  | claim : Next .pending .exchanging
  | complete : Next .exchanging .completed
  | fail : Next .exchanging .failed
  | failUnclaimed : Next .pending .failed

def AttemptStatus.terminal : AttemptStatus → Bool
  | .pending | .exchanging => false
  | .completed | .failed => true

/-- Is the attempt pending? -/
def pendingAttempt (db : Database) (id : AttemptId) : Bool :=
  (db.federationLoginAttempt.get? id).any fun r => r.status == .pending

/-- The request of the claim that the event writes. -/
def writtenClaim (w : SignInWorld) : SignInEvent → Option ClaimRequest
  | .claimWrite call => (w.claims call).map (·.1)
  | _ => none

/-- The step is a claim of this attempt whose `UPDATE` found it pending. -/
def claims (id : AttemptId) (x : SignInTaken) : Bool :=
  (writtenClaim x.pre x.event).any fun req => req.id == id && pendingAttempt x.pre.db id

/-- The step is a committed L04, F04 or F02 for this attempt. -/
def completes (id : AttemptId) (x : SignInTaken) : Bool :=
  match x.event, x.out with
  | .transaction transaction, .committed _ => transaction.completedAttempt == some id
  | _, _ => false

/-- The step is a terminal failure, at `time`, of this attempt while pending. -/
def failsUnclaimed (id : AttemptId) (time : DateTime) (x : SignInTaken) : Bool :=
  match x.event, x.out with
  | .transaction (.terminalizeFailed id' now), .committed _ =>
    id' == id && now == time && pendingAttempt x.pre.db id
  | _, _ => false

/-- The step took the attempt out of `pending` at `time`. -/
def leavesPending (id : AttemptId) (time : DateTime) (x : SignInTaken) : Prop :=
  (claims id x = true ∧ (writtenClaim x.pre x.event).any fun req => req.nowAtClaim == time) ∨
    failsUnclaimed id time x = true

/-- What an event does to the row of an identifier. -/
inductive RowStep (x : SignInTaken) (id : AttemptId) :
    Option FederationLoginAttemptRow → Option FederationLoginAttemptRow → Prop where
  | kept (r? : Option FederationLoginAttemptRow) (hclaims : claims id x = false)
      (hcompletes : completes id x = false) (hleaves : ∀ time, ¬ leavesPending id time x) :
      RowStep x id r? r?
  | inserted (req : NewAttempt) (sealed : Bytes) (hid : req.id = id)
      (hevent : x.event = .transaction (.insertAttempt req)) :
      RowStep x id none (some (req.row sealed))
  | claimed (r : FederationLoginAttemptRow) (req : ClaimRequest) (hstatus : r.status = .pending)
      (hid : req.id = id) (hevent : writtenClaim x.pre x.event = some req) :
      RowStep x id (some r) (some (r.claimed req.nowAtClaim))
  | failed (r : FederationLoginAttemptRow) (now : DateTime)
      (hstatus : r.status = .pending ∨ r.status = .exchanging)
      (hevent : x.event = .transaction (.terminalizeFailed id now))
      (hout : ∃ returned, x.out = .committed returned) :
      RowStep x id (some r) (some (r.failed now))
  | completed (r : FederationLoginAttemptRow) (transaction : Transaction)
      (hstatus : r.status = .exchanging) (hevent : x.event = .transaction transaction)
      (hattempt : transaction.completedAttempt = some id) :
      RowStep x id (some r) (some r.completed)
  | purged (r : FederationLoginAttemptRow) (now : DateTime)
      (hevent : x.event = .transaction (.purgeAttempts now)) :
      RowStep x id (some r) none

/-! ## One event -/

variable {P : Primitives} {key : MasterKey} {w : SignInWorld} {id : AttemptId}

section Flags

variable {transaction : Transaction} {out : SignInAnswer}

@[simp] theorem claims_transaction :
    claims id ⟨w, .transaction transaction, out⟩ = false := rfl

@[simp] theorem completes_refused {error : StoreError} :
    completes id ⟨w, .transaction transaction, .refused error⟩ = false := rfl

@[simp] theorem completes_committed {returned : Returned} :
    completes id ⟨w, .transaction transaction, .committed returned⟩ =
      (transaction.completedAttempt == some id) := rfl

theorem not_leavesPending_of {x : SignInTaken} {time : DateTime} (hclaims : claims id x = false)
    (hfails : failsUnclaimed id time x = false) : ¬ leavesPending id time x := by
  rintro (⟨h, -⟩ | h)
  · rw [hclaims] at h
    cases h
  · rw [hfails] at h
    cases h

end Flags

variable {error : StoreError} {call : ClaimId} {row r' : FederationLoginAttemptRow}

/-- A refused transaction leaves every row. -/
private theorem rowStep_refused {transaction : Transaction}
    {r? : Option FederationLoginAttemptRow} :
    RowStep ⟨w, .transaction transaction, .refused error⟩ id r? r? := by
  refine .kept r? rfl rfl fun time => not_leavesPending_of rfl ?_
  cases transaction <;> rfl

variable {returned : Returned} {r : FederationLoginAttemptRow} {req : ClaimRequest}
  {x : SignInTaken} {e : SignInEvent}

/-- A committed transaction that neither completes nor fails this attempt. -/
private theorem rowStep_committed {transaction : Transaction}
    {r? : Option FederationLoginAttemptRow} (hcompleted : transaction.completedAttempt ≠ some id)
    (hfailed : ∀ now, transaction ≠ .terminalizeFailed id now) :
    RowStep ⟨w, .transaction transaction, .committed returned⟩ id r? r? := by
  refine .kept r? rfl (by simp [hcompleted]) fun time => not_leavesPending_of rfl ?_
  cases transaction with
  | terminalizeFailed id' now =>
    have hne : id' ≠ id := fun hid => hfailed now (hid ▸ rfl)
    simp [failsUnclaimed, hne]
  | _ => rfl

/-- A transaction that completed its attempt, seen from one row. -/
private theorem rowStep_completed {transaction : Transaction} {attempt : AttemptId}
    {t : Table FederationLoginAttemptRow.id}
    (hattempt : transaction.completedAttempt = some attempt) (hid : r.id = attempt)
    (hstatus : r.status = .exchanging)
    (hrow : Table.Replaced w.db.federationLoginAttempt t r r.completed) :
    RowStep ⟨w, .transaction transaction, .committed returned⟩ id
      (w.db.federationLoginAttempt.get? id) (t.get? id) := by
  by_cases hsame : id = r.id
  · subst hsame
    rw [hrow.before, hrow.after]
    exact .completed r transaction hstatus rfl (hattempt.trans (congrArg some hid.symm))
  · rw [hrow.others id hsame]
    refine rowStep_committed ?_ ?_
    · rw [hattempt, ← hid]
      exact fun h => hsame (Option.some.inj h).symm
    · rintro now rfl
      cases hattempt

/-- What a committed transaction does to the row of an identifier. -/
private theorem rowStep_transaction {transaction : Transaction} {db' : Database}
    (h : transaction.perform P key w.db = .ok (returned, db')) :
    RowStep ⟨w, .transaction transaction, .committed returned⟩ id
      (w.db.federationLoginAttempt.get? id) (db'.federationLoginAttempt.get? id) := by
  by_cases hlocal : transaction.isLocal = true
  · rw [(perform_local hlocal h).attempts]
    refine rowStep_committed ?_ ?_
    · cases transaction <;> first | (cases hlocal; done) | simp [Transaction.completedAttempt]
    · rintro now rfl
      cases hlocal
  cases Transaction.performed h with
  | @insertAttempt req _ hcommit =>
    simp only [FederationLoginAttempt.insert, bind_eq_ok, ensure_eq_ok, require_eq_ok,
      pure_eq_ok] at hcommit
    obtain ⟨sealed, -, -, -, -, -, t, hinsert, rfl⟩ := hcommit
    dsimp only
    rw [Table.get?_of_insert? hinsert]
    split
    · rename_i hid
      have hnone : w.db.federationLoginAttempt.get? id = none :=
        Table.get?_eq_none.mpr fun r hr => hid ▸ (Table.insert?_eq_some.mp hinsert).1 r hr
      rw [hnone]
      exact .inserted req sealed hid rfl
    · exact rowStep_committed (by simp [Transaction.completedAttempt]) (by simp)
  | @terminalizeFailed id' now _ hcommit =>
    obtain ⟨r, t, hid, hstatus, hrow, rfl⟩ := updateWhere_ok hcommit
    simp only [Bool.or_eq_true, beq_iff_eq] at hstatus
    subst hid
    by_cases hsame : id = r.id
    · subst hsame
      rw [hrow.before, hrow.after]
      exact .failed r now hstatus rfl ⟨_, rfl⟩
    · rw [hrow.others id hsame]
      refine rowStep_committed (by simp [Transaction.completedAttempt]) ?_
      rintro now' heq
      cases heq
      exact hsame rfl
  | @purgeAttempts now =>
    rw [FederationLoginAttempt.purgeExpired, Table.get?_delete]
    have hkept : ∀ r?, RowStep ⟨w, .transaction (.purgeAttempts now), .committed .unit⟩ id r? r? :=
      fun r? => rowStep_committed (by simp [Transaction.completedAttempt]) (by simp)
    cases hget : w.db.federationLoginAttempt.get? id with
    | none => exact hkept none
    | some r =>
      rw [Option.filter_some]
      split
      · exact hkept (some r)
      · exact .purged r now rfl
  | signInFederated hcommit =>
    obtain ⟨r, t, users, sessions, log, hid, hstatus, hrow, rfl⟩ := signInFederated_ok hcommit
    exact rowStep_completed rfl hid hstatus hrow
  | provisionFederatedUser hcommit =>
    obtain ⟨r, t, _, _, _, _, hid, hstatus, hrow, rfl⟩ := provisionFederatedUser_ok hcommit
    exact rowStep_completed rfl hid hstatus hrow
  | issueFederatedMfaPending hcommit =>
    obtain ⟨r, t, _, _, hid, hstatus, hrow, -, rfl⟩ := issueFederatedMfaPending_ok hcommit
    exact rowStep_completed rfl hid hstatus hrow
  | completeFederatedMfa hcommit =>
    have hkept : db'.federationLoginAttempt = w.db.federationLoginAttempt := by
      obtain ⟨row, -, -, heffect⟩ := completeFederatedMfa_ok hcommit
      cases heffect with
      | invalidated reason t hrow hdb => rw [hdb]
      | rejected reason t ceremonies hcount hrow hdb => rw [hdb]
      | exhausted reason t ceremonies hcount hrow hdb => rw [hdb]
      | promoted method evicted t hcount hrow hsession hdb =>
        obtain ⟨_, _, _, _, _, _, rfl⟩ := hdb
        rfl
    rw [hkept]
    exact rowStep_committed (by simp [Transaction.completedAttempt]) (by simp)
  | beginFederationWebauthnCeremony hcommit =>
    obtain ⟨ceremonies, rfl⟩ := beginFederationWebauthnCeremony_ok hcommit
    exact rowStep_committed (by simp [Transaction.completedAttempt]) (by simp)
  | purgePendings => exact rowStep_committed (by simp [Transaction.completedAttempt]) (by simp)
  | _ => exact absurd rfl hlocal

private theorem markClaimed_error {db : Database} {now : DateTime}
    (h : markClaimed db id now = .error error) : pendingAttempt db id = false := by
  unfold pendingAttempt
  cases hany : (db.federationLoginAttempt.get? id).any fun r => r.status == .pending with
  | false => rfl
  | true =>
    simp only [markClaimed, updateWhere, ensure, hany, if_true] at h
    cases h

/-- The write of a claim, seen from one row. -/
private theorem rowStep_claimWrite {out : SignInAnswer} (hcall : w.claims call = some (req, row)) :
    RowStep ⟨w, .claimWrite call, out⟩ id (w.db.federationLoginAttempt.get? id)
      ((finishClaim P key w.db req row).2.federationLoginAttempt.get? id) := by
  have hwritten : writtenClaim w (.claimWrite call) = some req := by
    rw [writtenClaim, hcall]
    rfl
  have hkept : ∀ {r?}, (req.id = id → pendingAttempt w.db id = false) →
      RowStep ⟨w, .claimWrite call, out⟩ id r? r? := by
    intro r? hnot
    have hclaims : claims id ⟨w, .claimWrite call, out⟩ = false := by
      unfold claims
      rw [hwritten]
      by_cases hid : req.id = id
      · simp [hnot hid]
      · simp [hid]
    exact .kept r? hclaims rfl fun time => not_leavesPending_of hclaims rfl
  unfold finishClaim
  split
  · rename_i db' hmark
    obtain ⟨r, t, hid, hstatus, hrow, rfl⟩ := updateWhere_ok hmark
    by_cases hsame : id = r.id
    · subst hsame
      show RowStep _ _ _ (t.get? r.id)
      rw [hrow.before, hrow.after]
      exact .claimed r req (by simpa using hstatus) hid.symm hwritten
    · show RowStep _ _ _ (t.get? id)
      rw [hrow.others id hsame]
      exact hkept fun hid' => absurd (hid'.symm.trans hid.symm) hsame
  · rename_i hmark
    exact hkept fun hid => hid ▸ markClaimed_error hmark

/-- What an event does to the row of an identifier. -/
theorem rowStep (P : Primitives) (key : MasterKey) (w : SignInWorld) (e : SignInEvent)
    (id : AttemptId) :
    RowStep ⟨w, e, (signInStep P key w e).2⟩ id (w.db.federationLoginAttempt.get? id)
      ((signInStep P key w e).1.db.federationLoginAttempt.get? id) := by
  have hkept : ∀ {e out}, (∀ call, e ≠ .claimWrite call) → (∀ t, e ≠ .transaction t) →
      RowStep ⟨w, e, out⟩ id (w.db.federationLoginAttempt.get? id)
        (w.db.federationLoginAttempt.get? id) := by
    intro e out hwrite htransaction
    have hclaims : claims id ⟨w, e, out⟩ = false := by
      cases e with
      | claimWrite call => exact absurd rfl (hwrite call)
      | _ => rfl
    cases e with
    | claimWrite call => exact absurd rfl (hwrite call)
    | transaction t => exact absurd rfl (htransaction t)
    | claimRead call req =>
      exact .kept _ hclaims rfl fun time => not_leavesPending_of hclaims rfl
    | elsewhere db => exact .kept _ hclaims rfl fun time => not_leavesPending_of hclaims rfl
  cases e with
  | claimRead call req =>
    simp only [signInStep]
    split
    · exact hkept (by simp) (by simp)
    · split
      · exact hkept (by simp) (by simp)
      · exact hkept (by simp) (by simp)
  | claimWrite call =>
    simp only [signInStep]
    split
    · rename_i hcall
      have hwritten : writtenClaim w (.claimWrite call) = none := by
        rw [writtenClaim, hcall]
        rfl
      have hclaims : claims id ⟨w, .claimWrite call, .ignored⟩ = false := by
        rw [claims, hwritten]
        rfl
      exact .kept _ hclaims rfl fun time => not_leavesPending_of hclaims rfl
    · rename_i req row hcall
      exact rowStep_claimWrite hcall
  | transaction t =>
    simp only [signInStep]
    split
    · rename_i returned db' hperform
      exact rowStep_transaction hperform
    · have hdraw : (w.draw t).db = w.db := by cases t <;> rfl
      rw [hdraw]
      exact rowStep_refused
  | elsewhere db => exact hkept (by simp) (by simp)

/-! ## What one event keeps -/

@[simp] theorem completed_status (h : r.status = .exchanging) :
    r.completed.status = .completed := by
  rw [FederationLoginAttemptRow.completed, dif_pos h]

@[simp] theorem completed_claimedAt (r : FederationLoginAttemptRow) :
    r.completed.claimedAt = r.claimedAt := by
  unfold FederationLoginAttemptRow.completed
  split
  · rfl
  · rfl

/-- A row that is still there has kept its status or moved on. -/
theorem RowStep.status (h : RowStep x id (some r) (some r')) :
    r'.status = r.status ∨ r.status.Next r'.status := by
  cases h with
  | kept => exact .inl rfl
  | claimed _ req hstatus hid hevent =>
    rw [hstatus]
    exact .inr .claim
  | failed _ now hstatus hevent hout =>
    rcases hstatus with hstatus | hstatus
    · rw [hstatus]
      exact .inr .failUnclaimed
    · rw [hstatus]
      exact .inr .fail
  | completed _ transaction hstatus hevent hattempt =>
    rw [completed_status hstatus, hstatus]
    exact .inr .complete

/-- What a claim has checked stays true of the row. -/
theorem RowStep.checked (h : RowStep x id (some r) (some r')) (hchecked : Checked req r) :
    Checked req r' := by
  cases h with
  | kept => exact hchecked
  | claimed | failed => exact ⟨hchecked.1, hchecked.2, hchecked.3, hchecked.4,
      hchecked.5, hchecked.6, hchecked.7⟩
  | completed _ transaction hstatus hevent hattempt =>
    rw [FederationLoginAttemptRow.completed, dif_pos hstatus]
    exact ⟨hchecked.1, hchecked.2, hchecked.3, hchecked.4, hchecked.5, hchecked.6, hchecked.7⟩

/-- A claim in flight was in flight, or has just read its row. -/
theorem claims_step (h : (signInStep P key w e).1.claims call = some (req, row)) :
    w.claims call = some (req, row) ∨
      (e = .claimRead call req ∧ checkClaim w.db req = .ok row) := by
  cases e with
  | claimRead call' req' =>
    simp only [signInStep] at h
    split at h
    · exact .inl h
    · split at h
      · rename_i row' hcheck
        simp only [Function.update_apply] at h
        split at h
        · rename_i hcall
          cases h
          exact .inr ⟨by rw [hcall], hcheck⟩
        · exact .inl h
      · exact .inl h
  | claimWrite call' =>
    simp only [signInStep] at h
    split at h
    · exact .inl h
    · simp only [Function.update_apply] at h
      split at h
      · cases h
      · exact .inl h
  | transaction t =>
    have hdraw : (w.draw t).claims = w.claims := by cases t <;> rfl
    simp only [signInStep] at h
    split at h
    · exact .inl (hdraw ▸ h)
    · exact .inl (hdraw ▸ h)
  | elsewhere db => exact .inl h

/-- What holds of the attempts in every state of a run. -/
structure AttemptInv (w : SignInWorld) : Prop where
  /-- Every attempt's identifier has been drawn. -/
  drawn : ∀ id r, w.db.federationLoginAttempt.get? id = some r → id ∈ w.attemptIds
  /-- What a claim in flight has checked holds of the row it will write. -/
  inflight : ∀ call req row, w.claims call = some (req, row) → row.id = req.id ∧
    req.id ∈ w.attemptIds ∧ ∀ r, w.db.federationLoginAttempt.get? req.id = some r → Checked req r

theorem attemptInv_step (hinv : AttemptInv w) (hfresh : DrawsFresh w e) :
    AttemptInv (signInStep P key w e).1 where
  drawn := by
    intro id r' hget'
    have hrow := rowStep P key w e id
    rw [hget'] at hrow
    cases hget : w.db.federationLoginAttempt.get? id with
    | some r => exact (signInStep_drawn _ _).1 (hinv.drawn id r hget)
    | none =>
      rw [hget] at hrow
      cases hrow with
      | inserted req sealed hid hevent =>
        subst hid
        simp only at hevent
        subst hevent
        simp only [signInStep]
        split
        · exact List.mem_cons_self
        · exact List.mem_cons_self
  inflight := by
    intro call req row hcall'
    rcases claims_step hcall' with hcall | ⟨rfl, hcheck⟩
    · obtain ⟨hid, hdrawn, hchecked⟩ := hinv.inflight call req row hcall
      refine ⟨hid, (signInStep_drawn _ _).1 hdrawn, fun r' hget' => ?_⟩
      have hrow := rowStep P key w e req.id
      rw [hget'] at hrow
      cases hget : w.db.federationLoginAttempt.get? req.id with
      | some r =>
        rw [hget] at hrow
        exact hrow.checked (hchecked r hget)
      | none =>
        rw [hget] at hrow
        cases hrow with
        | inserted req' sealed hid' hevent =>
          -- The identifier has been drawn before.
          simp only at hevent
          subst hevent
          exact absurd (hid' ▸ hdrawn) hfresh
    · obtain ⟨hmem, hchecked⟩ := checkClaim_ok hcheck
      have hget : w.db.federationLoginAttempt.get? req.id = some row :=
        Table.get?_eq_some.mpr ⟨hmem, hchecked.id⟩
      have hdb : (signInStep P key w (.claimRead call req)).1.db = w.db := by
        simp only [signInStep]
        split
        · rfl
        · split
          · rfl
          · rfl
      refine ⟨hchecked.id, (signInStep_drawn _ _).1 (hinv.drawn _ _ hget), fun r hget' => ?_⟩
      rw [hdb, hget] at hget'
      cases hget'
      exact hchecked

/-- The identifier is spent, and its row, if it is still there, has a status in
`S`. -/
def Reached (S : AttemptStatus → Prop) (id : AttemptId) (w : SignInWorld) : Prop :=
  id ∈ w.attemptIds ∧ ∀ r, w.db.federationLoginAttempt.get? id = some r → S r.status

theorem reached_step {S : AttemptStatus → Prop}
    (hS : ∀ {s s' : AttemptStatus}, S s → s.Next s' → S s') (hfresh : DrawsFresh w e)
    (h : Reached S id w) : Reached S id (signInStep P key w e).1 := by
  refine ⟨(signInStep_drawn _ _).1 h.1, fun r' hget' => ?_⟩
  have hrow := rowStep P key w e id
  rw [hget'] at hrow
  cases hget : w.db.federationLoginAttempt.get? id with
  | some r =>
    rw [hget] at hrow
    rcases hrow.status with hstatus | hnext
    · rw [hstatus]
      exact h.2 r hget
    · exact hS (h.2 r hget) hnext
  | none =>
    rw [hget] at hrow
    cases hrow with
    | inserted req sealed hid hevent =>
      simp only at hevent
      subst hevent
      exact absurd (hid ▸ h.1) hfresh

/-- A step that claims an attempt, or fails it unclaimed, finds it pending. -/
theorem pending_of_claims (h : claims id x = true) :
    ∃ r, x.pre.db.federationLoginAttempt.get? id = some r ∧ r.status = .pending := by
  obtain ⟨req, -, hreq⟩ := (Option.any_eq_true _ _).mp h
  simp only [Bool.and_eq_true] at hreq
  obtain ⟨r, hget, hstatus⟩ := (Option.any_eq_true _ _).mp hreq.2
  exact ⟨r, hget, by simpa using hstatus⟩

theorem pending_of_leavesPending {time : DateTime} (h : leavesPending id time x) :
    ∃ r, x.pre.db.federationLoginAttempt.get? id = some r ∧ r.status = .pending := by
  rcases h with ⟨h, -⟩ | h
  · exact pending_of_claims h
  · unfold failsUnclaimed at h
    split at h
    · simp only [Bool.and_eq_true] at h
      obtain ⟨r, hget, hstatus⟩ := (Option.any_eq_true _ _).mp h.2
      exact ⟨r, hget, by simpa using hstatus⟩
    · cases h

/-- After a claim the attempt is not pending. -/
theorem reached_of_claims (hinv : AttemptInv w)
    (h : claims id ⟨w, e, (signInStep P key w e).2⟩ = true) :
    Reached (· ≠ .pending) id (signInStep P key w e).1 := by
  obtain ⟨r, hget, -⟩ := pending_of_claims h
  refine ⟨(signInStep_drawn _ _).1 (hinv.drawn id r hget), fun r' hget' => ?_⟩
  have hrow := rowStep P key w e id
  rw [hget] at hrow
  rw [hget'] at hrow
  cases hrow with
  | kept _ hclaims hcompletes hleaves =>
    rw [h] at hclaims
    cases hclaims
  | claimed | failed => exact AttemptStatus.noConfusion
  | completed _ transaction hstatus hevent hattempt =>
    rw [completed_status hstatus]
    exact AttemptStatus.noConfusion

/-- A transaction that completes an attempt finds it exchanging and leaves it
completed. -/
theorem completes_step (h : completes id ⟨w, e, (signInStep P key w e).2⟩ = true) :
    ∃ r, w.db.federationLoginAttempt.get? id = some r ∧ r.status = .exchanging ∧
      (signInStep P key w e).1.db.federationLoginAttempt.get? id = some r.completed := by
  have hrow := rowStep P key w e id
  generalize hbefore : w.db.federationLoginAttempt.get? id = before at hrow ⊢
  generalize (signInStep P key w e).1.db.federationLoginAttempt.get? id = after at hrow ⊢
  generalize (signInStep P key w e).2 = out at hrow h
  cases hrow with
  | kept _ hclaims hcompletes hleaves =>
    rw [h] at hcompletes
    cases hcompletes
  | completed r transaction hstatus hevent hattempt => exact ⟨r, rfl, hstatus, rfl⟩
  | inserted req sealed hid hevent | failed r now hstatus hevent hout | purged r now hevent =>
    simp only at hevent
    subst hevent
    cases out <;> cases h
  | claimed r req hstatus hid hevent =>
    cases e with
    | claimWrite call => cases h
    | _ => cases hevent

/-! ## Whole runs -/

/-- The attempt of an identifier. -/
def SignInWorld.attempt? (w : SignInWorld) (id : AttemptId) : Option FederationLoginAttemptRow :=
  w.db.federationLoginAttempt.get? id

/-- The law of the attempts along a run. -/
structure AttemptLaw (P : Primitives) (key : MasterKey) (w : SignInWorld) (es : List SignInEvent) :
    Prop where
  /-- An attempt is pending when it appears. -/
  starts : ∀ pre e post, es = pre ++ e :: post → ∀ id r',
    (signInRun P key w pre).attempt? id = none →
    (signInRun P key w (pre ++ [e])).attempt? id = some r' → r'.status = .pending
  /-- One event moves the status of an attempt by one move at most. -/
  moves : ∀ pre e post, es = pre ++ e :: post → ∀ id r r',
    (signInRun P key w pre).attempt? id = some r →
    (signInRun P key w (pre ++ [e])).attempt? id = some r' →
    r'.status = r.status ∨ r.status.Next r'.status
  /-- Between two moments the status has only moved forward. -/
  forward : ∀ pre post, es = pre ++ post → ∀ id r r',
    (signInRun P key w pre).attempt? id = some r →
    (signInRun P key w es).attempt? id = some r' →
    Relation.ReflTransGen AttemptStatus.Next r.status r'.status
  /-- At most one claim of an attempt finds it pending. -/
  claimed_once : ∀ id, (signInTrace P key w es).countP (claims id) ≤ 1
  /-- It does so in the attempt's time, for its provider and in its browser. -/
  claimed_checked : ∀ x ∈ signInTrace P key w es, ∀ id, claims id x = true →
    ∃ req r, writtenClaim x.pre x.event = some req ∧ x.pre.attempt? id = some r ∧ Checked req r
  /-- No other claim succeeds. -/
  claimed_of_succeeds : ∀ x ∈ signInTrace P key w es, ∀ row, x.out = .claimed row →
    claims row.id x = true
  /-- At most one of L04, F04 and F02 commits for an attempt. -/
  completed_once : ∀ id, (signInTrace P key w es).countP (completes id) ≤ 1
  /-- None does once the attempt has failed. -/
  failed_stays : ∀ pre post, es = pre ++ post → ∀ id r,
    (signInRun P key w pre).attempt? id = some r → r.status = .failed →
    ∀ x ∈ signInTrace P key (signInRun P key w pre) post, completes id x = false
  /-- The claim time is the time at which a claim, or a terminal failure of the
  unclaimed attempt, took it out of `pending`. -/
  claimedAt_iff : ∀ id r, (signInRun P key w es).attempt? id = some r → ∀ time,
    r.claimedAt = some time ↔ ∃ x ∈ signInTrace P key w es, leavesPending id time x

section Runs

variable {es : List SignInEvent}

/-- A set of statuses closed under moves is not left along a run. -/
theorem reached_run {S : AttemptStatus → Prop}
    (hS : ∀ {s s' : AttemptStatus}, S s → s.Next s' → S s')
    (hfresh : Machine.Guarded (signInStep P key) DrawsFresh w es) (h : Reached S id w) :
    Reached S id (signInRun P key w es) :=
  Machine.run_invariant (fun _ _ h hfresh => reached_step hS hfresh h) hfresh h

variable {s s' : AttemptStatus}

private theorem next_ne_pending (hs : s ≠ .pending) (h : s.Next s') :
    s' ≠ .pending := by
  cases h <;> simp

private theorem next_of_terminal (hs : s.terminal = true) (h : s.Next s') :
    s'.terminal = true := by
  cases h <;> cases hs

theorem claims_once (hinv : AttemptInv w)
    (hfresh : Machine.Guarded (signInStep P key) DrawsFresh w es) :
    (signInTrace P key w es).countP (claims id) ≤ 1 := by
  refine Machine.countP_trace_le_one (g := DrawsFresh) (I := AttemptInv)
    (D := Reached (· ≠ .pending) id) ?_ ?_ ?_ ?_ hfresh hinv
  · exact fun s e hs hg => attemptInv_step hs hg
  · exact fun s e hs hg h => reached_of_claims hs h
  · exact fun s e hs hg hd => reached_step next_ne_pending hg hd
  · intro s e hs hg hd
    rw [Bool.eq_false_iff]
    intro h
    obtain ⟨r, hget, hstatus⟩ := pending_of_claims h
    exact hd.2 r hget hstatus

private theorem completes_of_terminal {e : SignInEvent}
    (hd : Reached (·.terminal = true) id w) :
    completes id ⟨w, e, (signInStep P key w e).2⟩ = false := by
  rw [Bool.eq_false_iff]
  intro h
  obtain ⟨r, hget, hstatus, -⟩ := completes_step h
  have hterminal := hd.2 r hget
  rw [hstatus] at hterminal
  cases hterminal

theorem completes_once (hinv : AttemptInv w)
    (hfresh : Machine.Guarded (signInStep P key) DrawsFresh w es) :
    (signInTrace P key w es).countP (completes id) ≤ 1 := by
  refine Machine.countP_trace_le_one (g := DrawsFresh) (I := AttemptInv)
    (D := Reached (·.terminal = true) id) ?_ ?_ ?_ ?_ hfresh hinv
  · exact fun s e hs hg => attemptInv_step hs hg
  · intro s e hs hg h
    obtain ⟨r, hget, hstatus, hget'⟩ := completes_step h
    refine ⟨(signInStep_drawn _ _).1 (hs.drawn id r hget), fun r' hr' => ?_⟩
    rw [hget'] at hr'
    cases hr'
    rw [completed_status hstatus]
    rfl
  · exact fun s e hs hg hd => reached_step next_of_terminal hg hd
  · exact fun s e hs hg hd => completes_of_terminal hd

theorem not_completes_of_terminal (hd : Reached (·.terminal = true) id w)
    (hfresh : Machine.Guarded (signInStep P key) DrawsFresh w es) :
    ∀ x ∈ signInTrace P key w es, completes id x = false := by
  intro x hx
  obtain ⟨hpre, -, hout⟩ := Machine.trace_invariant (I := Reached (·.terminal = true) id)
    (fun s e hs hg => reached_step next_of_terminal hg hs) hfresh hd hx
  have h : completes id ⟨x.pre, x.event, (signInStep P key x.pre x.event).2⟩ = false :=
    completes_of_terminal hpre
  rw [← hout] at h
  exact h

/-- A successful claim found its attempt pending. -/
private theorem claims_of_succeeds {e : SignInEvent} {row : FederationLoginAttemptRow}
    (hinv : AttemptInv w) (h : (signInStep P key w e).2 = .claimed row) :
    claims row.id ⟨w, e, (signInStep P key w e).2⟩ = true := by
  cases e with
  | claimRead call req =>
    simp only [signInStep] at h
    split at h
    · cases h
    · split at h
      · cases h
      · cases h
  | claimWrite call =>
    simp only [signInStep] at h
    split at h
    · cases h
    · rename_i req row' hcall
      obtain ⟨hid, -, -⟩ := hinv.inflight call req row' hcall
      have hwritten : writtenClaim w (.claimWrite call) = some req := by
        rw [writtenClaim, hcall]
        rfl
      have hpending : row.id = req.id ∧ pendingAttempt w.db req.id = true := by
        unfold finishClaim at h
        split at h
        · rename_i db' hmark
          obtain ⟨r, t, hr, hstatus, hrow, -⟩ := updateWhere_ok hmark
          split at h
          · rename_i opened hopen
            obtain ⟨plain, -, heq⟩ := map_eq_ok.mp hopen
            cases h
            rw [← heq]
            refine ⟨hid, (Option.any_eq_true _ _).mpr ⟨r, ?_, hstatus⟩⟩
            rw [← hr]
            exact hrow.before
          · cases h
        · cases h
      show (writtenClaim w (.claimWrite call)).any _ = true
      rw [hwritten, hpending.1]
      simp [hpending.2]
  | transaction t =>
    simp only [signInStep] at h
    split at h
    · cases h
    · cases h
  | elsewhere db => cases h

/-- What one event does to the claim time of a row, and which step it was. -/
private theorem RowStep.claimedAt {x : SignInTaken} {r r' : FederationLoginAttemptRow}
    (h : RowStep x id (some r) (some r')) (hget : x.pre.db.federationLoginAttempt.get? id = some r)
    (time : DateTime) :
    r'.claimedAt = some time ↔ r.claimedAt = some time ∨ leavesPending id time x := by
  have hpending : pendingAttempt x.pre.db id = (r.status == .pending) := by
    rw [pendingAttempt, hget]
    rfl
  cases h with
  | kept _ hclaims hcompletes hleaves => simp [hleaves time]
  | claimed _ req hstatus hid hevent =>
    -- Only the write of a claim has a request, so this is no terminal failure.
    have hfails : failsUnclaimed id time x = false := by
      rcases x with ⟨pre, event, out⟩
      cases event with
      | transaction t => cases hevent
      | _ => rfl
    have hclaims : claims id x = true := by
      rw [claims, hevent]
      simp [hid, hpending, hstatus]
    have hnone : r.claimedAt = none := r.check_claimed.mp hstatus
    simp [leavesPending, hfails, hclaims, hevent, hnone, FederationLoginAttemptRow.claimed]
  | failed _ now hstatus hevent hout =>
    obtain ⟨returned, hout⟩ := hout
    rcases x with ⟨pre, event, out⟩
    simp only at hevent hout hpending
    subst hevent hout
    have hfails : failsUnclaimed id time ⟨pre, .transaction (.terminalizeFailed id now),
        .committed returned⟩ = (now == time && r.status == .pending) := by
      simp [failsUnclaimed, hpending]
    simp only [leavesPending, claims_transaction, hfails, FederationLoginAttemptRow.failed]
    rcases hstatus with hstatus | hstatus
    · have hnone : r.claimedAt = none := r.check_claimed.mp hstatus
      simp [hnone, hstatus]
    · have hsome : r.claimedAt ≠ none := fun hnone => by
        have := r.check_claimed.mpr hnone
        rw [hstatus] at this
        cases this
      obtain ⟨claimedAt, hclaimedAt⟩ := Option.ne_none_iff_exists'.mp hsome
      simp [hclaimedAt, hstatus]
  | completed _ transaction hstatus hevent hattempt =>
    have hleaves : ¬ leavesPending id time x := by
      rcases x with ⟨pre, event, out⟩
      simp only at hevent
      subst hevent
      refine not_leavesPending_of rfl ?_
      cases transaction <;> first | rfl | cases hattempt
    rw [completed_claimedAt]
    simp [hleaves]

private theorem claimedAt_history (hinv : AttemptInv w)
    (hempty : ∀ id, w.attempt? id = none)
    (hfresh : Machine.Guarded (signInStep P key) DrawsFresh w es) :
    (∀ x ∈ signInTrace P key w es, ∀ id time, leavesPending id time x →
        id ∈ (signInRun P key w es).attemptIds) ∧
      ∀ id r, (signInRun P key w es).attempt? id = some r → ∀ time,
        r.claimedAt = some time ↔ ∃ x ∈ signInTrace P key w es, leavesPending id time x := by
  induction es using List.reverseRecOn with
  | nil =>
    refine ⟨fun x hx => absurd hx List.not_mem_nil, fun id r hget => ?_⟩
    rw [signInRun, Machine.run_nil, hempty] at hget
    cases hget
  | append_singleton es e ih =>
    obtain ⟨hbefore, hlast⟩ := Machine.guarded_append.mp hfresh
    have hdraw : DrawsFresh (signInRun P key w es) e := hlast.1
    obtain ⟨hdrawn, hiff⟩ := ih hbefore
    have hinv' : AttemptInv (signInRun P key w es) :=
      Machine.run_invariant (fun _ _ h hg => attemptInv_step h hg) hbefore hinv
    have hrun : signInRun P key w (es ++ [e]) = (signInStep P key (signInRun P key w es) e).1 :=
      Machine.run_append w es [e]
    have htrace : signInTrace P key w (es ++ [e]) = signInTrace P key w es ++
        [⟨signInRun P key w es, e, (signInStep P key (signInRun P key w es) e).2⟩] :=
      Machine.trace_append w es [e]
    generalize signInRun P key w es = v at *
    rw [hrun, htrace]
    constructor
    · intro x hx id time hleaves
      rcases List.mem_append.mp hx with hx | hx
      · exact (signInStep_drawn _ _).1 (hdrawn x hx id time hleaves)
      · obtain rfl := List.mem_singleton.mp hx
        obtain ⟨r, hget, -⟩ := pending_of_leavesPending hleaves
        exact (signInStep_drawn _ _).1 (hinv'.drawn id r hget)
    · intro id r' hget' time
      have hrow := rowStep P key v e id
      rw [show (signInStep P key v e).1.db.federationLoginAttempt.get? id = some r' from hget']
        at hrow
      simp only [List.mem_append, List.mem_singleton, or_and_right, exists_or, exists_eq_left]
      cases hget : v.db.federationLoginAttempt.get? id with
      | some r =>
        rw [hget] at hrow
        rw [hrow.claimedAt hget time, hiff id r hget time]
      | none =>
        rw [hget] at hrow
        cases hrow with
        | inserted req sealed hid hevent =>
          simp only at hevent
          subst hevent
          -- No step before this one was about the new identifier.
          constructor
          · intro h
            cases h
          · rintro (⟨x, hx, hleaves⟩ | hleaves)
            · exact absurd (hid ▸ hdrawn x hx id time hleaves) hdraw
            · obtain ⟨r, hr, -⟩ := pending_of_leavesPending hleaves
              rw [hget] at hr
              cases hr

end Runs

theorem attemptInv_start (db : Database) : AttemptInv (.start db) where
  drawn := by
    intro id r hget
    obtain ⟨hmem, hid⟩ := Table.get?_eq_some.mp hget
    exact List.mem_map.mpr ⟨r, hmem, hid⟩
  inflight := by
    intro call req row hcall
    cases hcall

/-- The law of the attempts, whatever the interleaving and the clocks. -/
theorem attempt_law {db : Database} {es : List SignInEvent}
    (hempty : db.federationLoginAttempt = ∅)
    (hfresh : Machine.Guarded (signInStep P key) DrawsFresh (.start db) es) :
    AttemptLaw P key (.start db) es where
  starts := by
    rintro pre e post rfl id r' hget hget'
    have hrow := rowStep P key (signInRun P key (.start db) pre) e id
    rw [show signInRun P key (.start db) (pre ++ [e]) = _ from
      Machine.run_append _ pre [e]] at hget'
    rw [show (signInRun P key (.start db) pre).db.federationLoginAttempt.get? id = none from hget,
      show (signInStep P key _ e).1.db.federationLoginAttempt.get? id = some r' from hget'] at hrow
    cases hrow with
    | inserted req sealed hid hevent => rfl
  moves := by
    rintro pre e post rfl id r r' hget hget'
    have hrow := rowStep P key (signInRun P key (.start db) pre) e id
    rw [show signInRun P key (.start db) (pre ++ [e]) = _ from
      Machine.run_append _ pre [e]] at hget'
    rw [show (signInRun P key (.start db) pre).db.federationLoginAttempt.get? id = some r from hget,
      show (signInStep P key _ e).1.db.federationLoginAttempt.get? id = some r' from hget'] at hrow
    exact hrow.status
  forward := by
    rintro pre post rfl id r r' hget hget'
    obtain ⟨hpre, hpost⟩ := Machine.guarded_append.mp hfresh
    have hinv : AttemptInv (signInRun P key (.start db) pre) :=
      Machine.run_invariant (fun _ _ h hg => attemptInv_step h hg) hpre (attemptInv_start db)
    have hreached := reached_run (S := Relation.ReflTransGen AttemptStatus.Next r.status)
      (fun hs hnext => hs.tail hnext) hpost
      ⟨hinv.drawn id r hget, fun r₁ hget₁ => by
        rw [show (signInRun P key (.start db) pre).db.federationLoginAttempt.get? id = some r
          from hget] at hget₁
        cases hget₁
        exact .refl⟩
    rw [signInRun, Machine.run_append] at hget'
    exact hreached.2 r' hget'
  claimed_once := fun id => claims_once (attemptInv_start db) hfresh
  claimed_checked := by
    intro x hx id hclaims
    obtain ⟨hinv, -, -⟩ := Machine.trace_invariant (I := AttemptInv)
      (fun _ _ h hg => attemptInv_step h hg) hfresh (attemptInv_start db) hx
    obtain ⟨r, hget, -⟩ := pending_of_claims hclaims
    obtain ⟨req, hwritten, hreq⟩ := (Option.any_eq_true _ _).mp hclaims
    simp only [Bool.and_eq_true, beq_iff_eq] at hreq
    refine ⟨req, r, hwritten, hget, ?_⟩
    rcases x with ⟨pre, event, out⟩
    cases event with
    | claimWrite call =>
      obtain ⟨⟨req', row⟩, hcall, rfl⟩ := Option.map_eq_some_iff.mp hwritten
      obtain ⟨-, -, hchecked⟩ := hinv.inflight call _ row hcall
      exact hchecked r (hreq.1 ▸ hget)
    | _ => cases hwritten
  claimed_of_succeeds := by
    intro x hx row hout
    obtain ⟨hinv, -, hstep⟩ := Machine.trace_invariant (I := AttemptInv)
      (fun _ _ h hg => attemptInv_step h hg) hfresh (attemptInv_start db) hx
    rcases x with ⟨pre, event, out⟩
    simp only at hstep hout
    subst hstep
    exact claims_of_succeeds hinv hout
  completed_once := fun id => completes_once (attemptInv_start db) hfresh
  failed_stays := by
    rintro pre post rfl id r hget hstatus
    obtain ⟨hpre, hpost⟩ := Machine.guarded_append.mp hfresh
    have hinv : AttemptInv (signInRun P key (.start db) pre) :=
      Machine.run_invariant (fun _ _ h hg => attemptInv_step h hg) hpre (attemptInv_start db)
    refine not_completes_of_terminal ⟨hinv.drawn id r hget, fun r₁ hget₁ => ?_⟩ hpost
    rw [show (signInRun P key (.start db) pre).db.federationLoginAttempt.get? id = some r
      from hget] at hget₁
    cases hget₁
    rw [hstatus]
    rfl
  claimedAt_iff := by
    have hnone : ∀ id, (SignInWorld.start db).attempt? id = none := by
      intro id
      show db.federationLoginAttempt.get? id = none
      rw [hempty]
      rfl
    exact (claimedAt_history (attemptInv_start db) hnone hfresh).2

/-! ## Two claims that race, and a failure that no claim preceded -/

/-- Both claims read the pending row before either writes it. -/
def racingClaims : List SignInEvent :=
  [.transaction (.insertAttempt (sampleAttempt 1)), .claimRead 0 (sampleClaim 1),
    .claimRead 1 (sampleClaim 1), .claimWrite 0, .claimWrite 1,
    .transaction (.terminalizeFailed 1 (seconds 2))]

theorem attempt_law_racingClaims :
    AttemptLaw .transparent (.constant 7) (.start .empty) racingClaims ∧
      (signInTrace .transparent (.constant 7) (.start .empty) racingClaims).countP (claims 1) = 1 :=
  ⟨attempt_law rfl (by decide), by decide⟩

/-- The upstream answers with an error, and nobody has claimed the attempt. -/
def failedUnclaimed : List SignInEvent :=
  [.transaction (.insertAttempt (sampleAttempt 1)),
    .transaction (.terminalizeFailed 1 (seconds 5))]

theorem claimedAt_failedUnclaimed :
    ((signInRun .transparent (.constant 7) (.start .empty) failedUnclaimed).attempt? 1).bind
        (·.claimedAt) = some (seconds 5) ∧
      (signInTrace .transparent (.constant 7) (.start .empty) failedUnclaimed).countP (claims 1) =
        0 := by
  decide

end SuiId
