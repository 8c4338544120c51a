import Mathlib.Data.List.Induction
import SuiId.Core.SignIns

/-!
# The guess budget of a federated second factor

`PendingStep` lists what an event can do to the pending row of an identifier.
Everything about the budget follows from it and from one invariant,
`PendingInv`: a user has at most one active row, and every row's identifier has
been drawn.

* A row that is not pending is never written again (`PendingStep.eq_of_closed`),
  so it is promoted at most once and an exhausted row stays exhausted.
* A restart keeps the row's count, and a new row is opened only for a user
  without an active one.
-/

namespace SuiId

open Lib Lib.Result

/-- The step is an F03 that promoted this row. -/
def promotes (id : FederationMfaPendingId) (x : SignInTaken) : Bool :=
  match x.event, x.out with
  | .transaction (.completeFederatedMfa pendingId _ _ _),
    .committed (.outcome (.promoted _ _ _)) => pendingId == id
  | _, _ => false

/-- The step is an F03 that counted a wrong proof on this row. -/
def rejects (id : FederationMfaPendingId) (x : SignInTaken) : Bool :=
  match x.event, x.out with
  | .transaction (.completeFederatedMfa pendingId _ _ _),
    .committed (.outcome (.rejectedStillPending _ _)) => pendingId == id
  | .transaction (.completeFederatedMfa pendingId _ _ _),
    .committed (.outcome (.attemptsExhausted _)) => pendingId == id
  | _, _ => false

/-- What an event does to the pending row of an identifier; `t'` is the table
after it. -/
inductive PendingStep (x : SignInTaken) (t' : Table FederationMfaPendingRow.id)
    (id : FederationMfaPendingId) :
    Option FederationMfaPendingRow → Option FederationMfaPendingRow → Prop where
  | kept (r? : Option FederationMfaPendingRow) (hpromotes : promotes id x = false)
      (hrejects : rejects id x = false) : PendingStep x t' id r? r?
  | opened (req : MfaPendingRequest) (sealed : Bytes) (hid : req.id = id)
      (hevent : x.event = .transaction (.issueFederatedMfaPending req))
      (hunique : ∀ r' ∈ t', r'.active = true → r'.userId = req.userId → r'.id = id) :
      PendingStep x t' id none (some (FederationMfaPending.newRow req sealed))
  | refreshed (r : FederationMfaPendingRow) (req : MfaPendingRequest) (sealed : Bytes)
      (hstatus : r.status = .pending) (hpromotes : promotes id x = false)
      (hrejects : rejects id x = false) :
      PendingStep x t' id (some r) (some (r.refreshed req sealed))
  | counted (r : FederationMfaPendingRow) (hstatus : r.status = .pending)
      (hcount : r.failureCount < 5) (hpromotes : promotes id x = false) :
      PendingStep x t' id (some r) (some r.countFailure)
  | closed (r : FederationMfaPendingRow) (status : MfaPendingStatus) (hclosed : status ≠ .pending)
      (hinactive : status ≠ .exhausted) (hstatus : r.status = .pending)
      (hrejects : rejects id x = false) :
      PendingStep x t' id (some r) (some (r.closed status hclosed))
  | purged (r : FederationMfaPendingRow) (now : DateTime)
      (hevent : x.event = .transaction (.purgePendings now))
      (hpurgeable : FederationMfaPending.purgeable r now = true) : PendingStep x t' id (some r) none

/-! ## One event -/

variable {P : Primitives} {key : MasterKey} {w : SignInWorld} {id : FederationMfaPendingId}

section Transactions

variable {transaction : Transaction} {returned : Returned} {db' : Database}

/-- What F02 does to a row. -/
private theorem pendingStep_issue {req : MfaPendingRequest}
    {t : Table FederationMfaPendingRow.id} (h : F02Effect req w.db.federationMfaPending t) :
    PendingStep ⟨w, .transaction (.issueFederatedMfaPending req), .committed returned⟩ t id
      (w.db.federationMfaPending.get? id) (t.get? id) := by
  have hinsert : ∀ {t₁ : Table FederationMfaPendingRow.id} {sealed : Bytes},
      (∀ r ∈ t₁, r.active = true → r.userId ≠ req.userId) →
      t₁.insert? (FederationMfaPending.newRow req sealed) = some t → req.id = id →
      PendingStep ⟨w, .transaction (.issueFederatedMfaPending req), .committed returned⟩ t id none
        (t.get? id) := by
    intro t₁ sealed hunique hinsert hid
    rw [Table.get?_of_insert? hinsert, FederationMfaPending.newRow_id, if_pos hid]
    refine .opened req sealed hid rfl fun r' hr' hactive huser => ?_
    rcases (Table.mem_of_insert? hinsert).mp hr' with hr' | rfl
    · exact absurd huser (hunique r' hr' hactive)
    · exact hid
  cases h with
  | exhausted existing hmem huser hstatus hsame =>
    rw [hsame]
    exact .kept _ rfl rfl
  | restarted existing sealed huser hstatus hrow =>
    by_cases hid : id = existing.id
    · subst hid
      rw [hrow.before, hrow.after]
      exact .refreshed existing req sealed hstatus rfl rfl
    · rw [hrow.others id hid]
      exact .kept _ rfl rfl
  | replaced existing sealed t₁ hstatus hrow hunique hinsert' =>
    by_cases hnew : req.id = id
    · have hfree : t₁.get? id = none :=
        Table.get?_eq_none.mpr fun r hr => hnew ▸ (Table.insert?_eq_some.mp hinsert').1 r hr
      have hother : id ≠ existing.id := by
        rintro rfl
        rw [hrow.after] at hfree
        cases hfree
      rw [hrow.others id hother] at hfree
      rw [hfree]
      exact hinsert hunique hinsert' hnew
    · rw [Table.get?_of_insert? hinsert', FederationMfaPending.newRow_id, if_neg hnew]
      by_cases hid : id = existing.id
      · subst hid
        rw [hrow.before, hrow.after]
        exact .closed existing .invalidated (by decide) (by decide) hstatus rfl
      · rw [hrow.others id hid]
        exact .kept _ rfl rfl
  | opened sealed hunique hinsert' =>
    by_cases hnew : req.id = id
    · have hfree : w.db.federationMfaPending.get? id = none :=
        Table.get?_eq_none.mpr fun r hr => hnew ▸ (Table.insert?_eq_some.mp hinsert').1 r hr
      rw [hfree]
      exact hinsert hunique hinsert' hnew
    · rw [Table.get?_of_insert? hinsert', FederationMfaPending.newRow_id, if_neg hnew]
      exact .kept _ rfl rfl

/-- What F03 does to a row. -/
private theorem pendingStep_complete {row : FederationMfaPendingRow} {proof : Option F03Proof}
    {sessionId : SessionId} {now : DateTime} {outcome : F03Outcome}
    (hstatus : row.status = .pending)
    (h : F03Effect w.db db' row sessionId now outcome) :
    PendingStep ⟨w, .transaction (.completeFederatedMfa row.id proof sessionId now),
        .committed (.outcome outcome)⟩ db'.federationMfaPending id
      (w.db.federationMfaPending.get? id) (db'.federationMfaPending.get? id) := by
  -- A row other than F03's own is kept, and F03 did not promote it.
  have hother : ∀ {t : Table FederationMfaPendingRow.id} {row' : FederationMfaPendingRow},
      Table.Replaced w.db.federationMfaPending t row row' → id ≠ row.id →
      PendingStep ⟨w, .transaction (.completeFederatedMfa row.id proof sessionId now),
        .committed (.outcome outcome)⟩ db'.federationMfaPending id
        (w.db.federationMfaPending.get? id) (t.get? id) := by
    intro t row' hrow hid
    have hne : (row.id == id) = false := by simpa using Ne.symm hid
    rw [hrow.others id hid]
    refine .kept _ ?_ ?_
    · cases outcome with
      | promoted session evicted method => exact hne
      | _ => rfl
    · cases outcome with
      | rejectedStillPending failureCount reason => exact hne
      | attemptsExhausted reason => exact hne
      | _ => rfl
  cases h with
  | invalidated reason t hrow hdb =>
    subst hdb
    by_cases hid : id = row.id
    · subst hid
      show PendingStep _ _ _ _ (t.get? row.id)
      rw [hrow.before, hrow.after]
      exact .closed row .invalidated (by decide) (by decide) hstatus rfl
    · exact hother hrow hid
  | rejected reason t ceremonies hcount hrow hdb | exhausted reason t ceremonies hcount hrow hdb =>
    subst hdb
    by_cases hid : id = row.id
    · subst hid
      show PendingStep _ _ _ _ (t.get? row.id)
      rw [hrow.before, hrow.after]
      exact .counted row hstatus (by omega) rfl
    · exact hother hrow hid
  | promoted method evicted t hcount hrow hsession hdb =>
    obtain ⟨_, _, _, _, _, _, rfl⟩ := hdb
    by_cases hid : id = row.id
    · subst hid
      show PendingStep _ _ _ _ (t.get? row.id)
      rw [hrow.before, hrow.after]
      exact .closed row .completed (by decide) (by decide) hstatus rfl
    · exact hother hrow hid

/-- What a committed transaction does to the pending row of an identifier. -/
private theorem pendingStep_transaction
    (h : transaction.perform P key w.db = .ok (returned, db')) :
    PendingStep ⟨w, .transaction transaction, .committed returned⟩ db'.federationMfaPending id
      (w.db.federationMfaPending.get? id) (db'.federationMfaPending.get? id) := by
  have hkept : (∀ pendingId proof sessionId now,
        transaction ≠ .completeFederatedMfa pendingId proof sessionId now) →
      db'.federationMfaPending = w.db.federationMfaPending →
      PendingStep ⟨w, .transaction transaction, .committed returned⟩ db'.federationMfaPending id
        (w.db.federationMfaPending.get? id) (db'.federationMfaPending.get? id) := by
    intro hnot hsame
    rw [hsame]
    cases transaction with
    | completeFederatedMfa pendingId proof sessionId now => exact absurd rfl (hnot _ _ _ _)
    | _ => exact .kept _ rfl rfl
  by_cases hlocal : transaction.isLocal = true
  · refine hkept ?_ (perform_local hlocal h).pendings
    rintro pendingId proof sessionId now rfl
    cases hlocal
  cases Transaction.performed h with
  | insertAttempt hcommit =>
    simp only [FederationLoginAttempt.insert, bind_eq_ok, ensure_eq_ok, require_eq_ok,
      pure_eq_ok] at hcommit
    obtain ⟨sealed, -, -, -, -, -, t, -, rfl⟩ := hcommit
    exact hkept (by simp) rfl
  | terminalizeFailed hcommit =>
    obtain ⟨r, t, -, -, -, rfl⟩ := FederationLoginAttempt.updateWhere_ok hcommit
    exact hkept (by simp) rfl
  | purgeAttempts => exact hkept (by simp) rfl
  | signInFederated hcommit =>
    obtain ⟨r, t, _, _, _, -, -, -, rfl⟩ := signInFederated_ok hcommit
    exact hkept (by simp) rfl
  | provisionFederatedUser hcommit =>
    obtain ⟨r, t, _, _, _, _, -, -, -, rfl⟩ := provisionFederatedUser_ok hcommit
    exact hkept (by simp) rfl
  | issueFederatedMfaPending hcommit =>
    obtain ⟨r, attempts, t, ceremonies, -, -, -, heffect, rfl⟩ :=
      issueFederatedMfaPending_ok hcommit
    exact pendingStep_issue heffect
  | completeFederatedMfa hcommit =>
    obtain ⟨row, rfl, hstatus, heffect⟩ := completeFederatedMfa_ok hcommit
    exact pendingStep_complete hstatus heffect
  | beginFederationWebauthnCeremony hcommit =>
    obtain ⟨ceremonies, rfl⟩ := beginFederationWebauthnCeremony_ok hcommit
    exact hkept (by simp) rfl
  | @purgePendings now =>
    simp only [FederationMfaPending.purgeExpired, Table.get?_delete]
    cases hget : w.db.federationMfaPending.get? id with
    | none => exact .kept none rfl rfl
    | some r =>
      rw [Option.filter_some]
      split
      · exact .kept (some r) rfl rfl
      · rename_i hpurgeable
        exact .purged r now rfl (by simpa using hpurgeable)
  | _ => exact absurd rfl hlocal

end Transactions

/-- What an event does to the pending row of an identifier. -/
theorem pendingStep (P : Primitives) (key : MasterKey) (w : SignInWorld) (e : SignInEvent)
    (id : FederationMfaPendingId) :
    PendingStep ⟨w, e, (signInStep P key w e).2⟩ (signInStep P key w e).1.db.federationMfaPending id
      (w.db.federationMfaPending.get? id)
      ((signInStep P key w e).1.db.federationMfaPending.get? id) := by
  cases e with
  | claimRead call req =>
    simp only [signInStep]
    split
    · exact .kept _ rfl rfl
    · split
      · exact .kept _ rfl rfl
      · exact .kept _ rfl rfl
  | claimWrite call =>
    simp only [signInStep]
    split
    · exact .kept _ rfl rfl
    · rename_i req row hcall
      have hsame : (FederationLoginAttempt.finishClaim P key w.db req row).2.federationMfaPending =
          w.db.federationMfaPending := by
        unfold FederationLoginAttempt.finishClaim
        split
        · rename_i db' hmark
          obtain ⟨r, t, -, -, -, rfl⟩ := FederationLoginAttempt.updateWhere_ok hmark
          rfl
        · rfl
      rw [hsame]
      exact .kept _ rfl rfl
  | transaction t =>
    simp only [signInStep]
    split
    · rename_i returned db' hperform
      exact pendingStep_transaction hperform
    · have hdraw : (w.draw t).db = w.db := by cases t <;> rfl
      rw [hdraw]
      cases t <;> exact .kept _ rfl rfl
  | elsewhere db => exact .kept _ rfl rfl

/-! ## What one event keeps -/

theorem countFailure_userId (r : FederationMfaPendingRow) :
    r.countFailure.userId = r.userId := by
  unfold FederationMfaPendingRow.countFailure
  split
  · split
    · rfl
    · rfl
  · rfl

theorem le_countFailure (r : FederationMfaPendingRow) :
    r.failureCount ≤ r.countFailure.failureCount := by
  unfold FederationMfaPendingRow.countFailure
  split
  · split
    · exact Nat.le_succ _
    · exact Nat.le_succ _
  · exact Nat.le_refl _

theorem countFailure_failureCount {r : FederationMfaPendingRow} (h : r.failureCount < 5) :
    r.countFailure.failureCount = r.failureCount + 1 := by
  unfold FederationMfaPendingRow.countFailure
  rw [dif_pos h]
  split
  · rfl
  · rfl

theorem refreshed_kept (r : FederationMfaPendingRow) (req : MfaPendingRequest) (sealed : Bytes) :
    (r.refreshed req sealed).userId = r.userId ∧
      (r.refreshed req sealed).failureCount = r.failureCount := by
  unfold FederationMfaPendingRow.refreshed
  split
  · exact ⟨rfl, rfl⟩
  · exact ⟨rfl, rfl⟩

theorem active_of_pending {r : FederationMfaPendingRow} (h : r.status = .pending) :
    r.active = true := by
  simp [FederationMfaPendingRow.active, h]

section Steps

variable {x : SignInTaken} {t' : Table FederationMfaPendingRow.id} {r r' : FederationMfaPendingRow}

theorem PendingStep.userId (h : PendingStep x t' id (some r) (some r')) : r'.userId = r.userId := by
  cases h with
  | kept => rfl
  | refreshed _ req sealed hstatus hpromotes hrejects => exact (refreshed_kept r req sealed).1
  | counted _ hstatus hcount hpromotes => exact countFailure_userId r
  | closed _ status hclosed hinactive hstatus hrejects => rfl

/-- The count of a row never goes down. -/
theorem PendingStep.failureCount_le (h : PendingStep x t' id (some r) (some r')) :
    r.failureCount ≤ r'.failureCount := by
  cases h with
  | kept => exact Nat.le_refl _
  | refreshed _ req sealed hstatus hpromotes hrejects =>
    exact Nat.le_of_eq (refreshed_kept r req sealed).2.symm
  | counted _ hstatus hcount hpromotes => exact le_countFailure r
  | closed _ status hclosed hinactive hstatus hrejects => exact Nat.le_refl _

theorem PendingStep.active (h : PendingStep x t' id (some r) (some r'))
    (hactive : r'.active = true) : r.active = true := by
  cases h with
  | kept => exact hactive
  | refreshed _ req sealed hstatus hpromotes hrejects => exact active_of_pending hstatus
  | counted _ hstatus hcount hpromotes => exact active_of_pending hstatus
  | closed _ status hclosed hinactive hstatus hrejects => exact active_of_pending hstatus

/-- A row that is not pending is kept as it is, unless it is purged. -/
theorem PendingStep.eq_of_closed {r? : Option FederationMfaPendingRow}
    (h : PendingStep x t' id (some r) r?) (hclosed : r.status ≠ .pending)
    (hpurge : ∀ now, x.event = .transaction (.purgePendings now) →
      FederationMfaPending.purgeable r now = false) : r? = some r := by
  cases h with
  | kept => rfl
  | refreshed _ req sealed hstatus hpromotes hrejects => exact absurd hstatus hclosed
  | counted _ hstatus hcount hpromotes => exact absurd hstatus hclosed
  | closed _ status hclosed' hinactive hstatus hrejects => exact absurd hstatus hclosed
  | purged _ now hevent hpurgeable =>
    rw [hpurge now hevent] at hpurgeable
    cases hpurgeable

/-- A promoted row was pending and is not any more. -/
theorem PendingStep.of_promotes {r? r?' : Option FederationMfaPendingRow}
    (h : PendingStep x t' id r? r?') (hpromotes : promotes id x = true) :
    ∃ r r', r? = some r ∧ r.status = .pending ∧ r?' = some r' ∧ r'.status ≠ .pending := by
  cases h with
  | kept _ hnot hrejects | refreshed _ req sealed hstatus hnot hrejects
  | counted _ hstatus hcount hnot =>
    rw [hnot] at hpromotes
    cases hpromotes
  | opened req sealed hid hevent hunique =>
    rw [promotes, hevent] at hpromotes
    cases hpromotes
  | closed r status hclosed hinactive hstatus hrejects => exact ⟨r, _, rfl, hstatus, rfl, hclosed⟩
  | purged r now hevent hpurgeable =>
    rw [promotes, hevent] at hpromotes
    cases hpromotes

/-- A wrong proof costs its row one guess. -/
theorem PendingStep.of_rejects {r? r?' : Option FederationMfaPendingRow}
    (h : PendingStep x t' id r? r?') (hrejects : rejects id x = true) :
    ∃ r, r? = some r ∧ r?' = some r.countFailure ∧ r.failureCount < 5 := by
  cases h with
  | kept _ hpromotes hnot | refreshed _ req sealed hstatus hpromotes hnot
  | closed r status hclosed hinactive hstatus hnot =>
    rw [hnot] at hrejects
    cases hrejects
  | opened req sealed hid hevent hunique =>
    rw [rejects, hevent] at hrejects
    cases hrejects
  | counted r hstatus hcount hpromotes => exact ⟨r, rfl, rfl, hcount⟩
  | purged r now hevent hpurgeable =>
    rw [rejects, hevent] at hrejects
    cases hrejects

end Steps

/-- What holds of the pending rows in every state of a run. -/
structure PendingInv (w : SignInWorld) : Prop where
  /-- Every row's identifier has been drawn. -/
  drawn : ∀ id r, w.db.federationMfaPending.get? id = some r → id ∈ w.pendingIds
  /-- A user has at most one active row. -/
  unique : ∀ id id' r r', w.db.federationMfaPending.get? id = some r →
    w.db.federationMfaPending.get? id' = some r' → r.active = true → r'.active = true →
    r.userId = r'.userId → id = id'

theorem pendingInv_step {e : SignInEvent} (hinv : PendingInv w) :
    PendingInv (signInStep P key w e).1 where
  drawn := by
    intro id r' hget'
    have hrow := pendingStep P key w e id
    rw [hget'] at hrow
    cases hget : w.db.federationMfaPending.get? id with
    | some r => exact (signInStep_drawn _ _).2 (hinv.drawn id r hget)
    | none =>
      rw [hget] at hrow
      cases hrow with
      | opened req sealed hid hevent hunique =>
        simp only at hevent
        subst hid hevent
        simp only [signInStep]
        split
        · exact List.mem_cons_self
        · exact List.mem_cons_self
  unique := by
    intro id id' r₁ r₁' hget₁ hget₁' hactive₁ hactive₁' huser
    -- An active row was active before, or it has just been opened and is alone.
    have hbefore : ∀ {id : FederationMfaPendingId} {r₁ : FederationMfaPendingRow},
        (signInStep P key w e).1.db.federationMfaPending.get? id = some r₁ → r₁.active = true →
        (∃ r, w.db.federationMfaPending.get? id = some r ∧ r.active = true ∧
          r.userId = r₁.userId) ∨
        ∀ r' ∈ (signInStep P key w e).1.db.federationMfaPending, r'.active = true →
          r'.userId = r₁.userId → r'.id = id := by
      intro id r₁ hget₁ hactive₁
      have hrow := pendingStep P key w e id
      rw [hget₁] at hrow
      cases hget : w.db.federationMfaPending.get? id with
      | some r =>
        rw [hget] at hrow
        exact .inl ⟨r, rfl, hrow.active hactive₁, hrow.userId.symm⟩
      | none =>
        rw [hget] at hrow
        cases hrow with
        | opened req sealed hid hevent hunique => exact .inr hunique
    rcases hbefore hget₁ hactive₁ with ⟨r, hget, hactive, hr⟩ | halone
    · rcases hbefore hget₁' hactive₁' with ⟨r', hget', hactive', hr'⟩ | halone'
      · exact hinv.unique id id' r r' hget hget' hactive hactive'
          (hr.trans (huser.trans hr'.symm))
      · obtain ⟨hmem, hid⟩ := Table.get?_eq_some.mp hget₁
        rw [← hid]
        exact halone' r₁ hmem hactive₁ huser
    · obtain ⟨hmem, hid⟩ := Table.get?_eq_some.mp hget₁'
      rw [← hid]
      exact (halone r₁' hmem hactive₁' huser.symm).symm

/-- A promotion is of a pending row, into a session of that row's user. -/
theorem promoted_step {e : SignInEvent} {session : SessionRow} {evicted : Nat} {method : String}
    (h : (signInStep P key w e).2 = .committed (.outcome (.promoted session evicted method))) :
    ∃ id r, w.db.federationMfaPending.get? id = some r ∧ r.status = .pending ∧
      session.userId = r.userId := by
  cases e with
  | claimRead | claimWrite =>
    simp only [signInStep] at h
    split at h
    · cases h
    · split at h
      · cases h
      · cases h
  | transaction t =>
    simp only [signInStep] at h
    split at h
    · rename_i returned db' hperform
      cases h
      cases Transaction.performed hperform with
      | completeFederatedMfa hcommit =>
        obtain ⟨row, -, hstatus, heffect⟩ := completeFederatedMfa_ok hcommit
        cases heffect with
        | promoted method evicted t hcount hrow hsession hdb =>
          exact ⟨row.id, row, hrow.before, hstatus, rfl⟩
    · cases h
  | elsewhere db => cases h

/-! ## Whole runs -/

/-- The pending row of an identifier. -/
def SignInWorld.pending? (w : SignInWorld) (id : FederationMfaPendingId) :
    Option FederationMfaPendingRow :=
  w.db.federationMfaPending.get? id

/-- The row is among those `purge_expired` deletes in this event. -/
def purges (r : FederationMfaPendingRow) : SignInEvent → Bool
  | .transaction (.purgePendings now) => FederationMfaPending.purgeable r now
  | _ => false

/-- How many rows of the user are pending or exhausted. -/
def activeRows (db : Database) (user : UserId) : Nat :=
  db.federationMfaPending.count fun r => r.userId == user && r.active

/-- The guess budget along a run. -/
structure GuessBudget (P : Primitives) (key : MasterKey) (w : SignInWorld)
    (es : List SignInEvent) : Prop where
  /-- A user has at most one pending or exhausted row. -/
  one_active : ∀ user, activeRows (signInRun P key w es).db user ≤ 1
  /-- The count of a row never decreases, whatever happens in between. -/
  count_mono : ∀ pre post, es = pre ++ post → ∀ id r r',
    (signInRun P key w pre).pending? id = some r → (signInRun P key w es).pending? id = some r' →
    r.failureCount ≤ r'.failureCount
  /-- It never exceeds five. -/
  count_le : ∀ id r, (signInRun P key w es).pending? id = some r → r.failureCount ≤ 5
  /-- At most five wrong proofs are ever answered for a row. -/
  guesses_le : ∀ id, (signInTrace P key w es).countP (rejects id) ≤ 5
  /-- A row promotes at most one session. -/
  promotes_once : ∀ id, (signInTrace P key w es).countP (promotes id) ≤ 1
  /-- An exhausted row stays until `purge_expired` removes it.  Until then its
  user is not promoted and gets no other row. -/
  exhausted_stays : ∀ pre post, es = pre ++ post → ∀ id r,
    (signInRun P key w pre).pending? id = some r → r.status = .exhausted →
    (∀ e ∈ post, purges r e = false) →
    (signInRun P key w es).pending? id = some r ∧
      (∀ x ∈ signInTrace P key (signInRun P key w pre) post, ∀ session evicted method,
        x.out = .committed (.outcome (.promoted session evicted method)) →
        session.userId ≠ r.userId) ∧
      ∀ id' r', (signInRun P key w es).pending? id' = some r' → r'.userId = r.userId →
        ∃ r₀, (signInRun P key w pre).pending? id' = some r₀

section Runs

variable {es : List SignInEvent}

theorem pendingInv_run (hinv : PendingInv w) : PendingInv (signInRun P key w es) :=
  Machine.run_invariant (g := fun _ _ => True) (fun _ _ h _ => pendingInv_step h)
    (Machine.guarded_true w es) hinv

theorem pendingInv_start {db : Database} (hunique : ∀ user, activeRows db user ≤ 1) :
    PendingInv (.start db) where
  drawn := by
    intro id r hget
    obtain ⟨hmem, hid⟩ := Table.get?_eq_some.mp hget
    exact List.mem_map.mpr ⟨r, hmem, hid⟩
  unique := by
    intro id id' r r' hget hget' hactive hactive' huser
    obtain ⟨hmem, hid⟩ := Table.get?_eq_some.mp hget
    obtain ⟨hmem', hid'⟩ := Table.get?_eq_some.mp hget'
    have hsame : r = r' := Table.count_le_one_iff.mp (hunique r.userId) r hmem r' hmem'
      (by simp [hactive]) (by simp [hactive', huser])
    rw [← hid, ← hid', hsame]

theorem PendingInv.activeRows_le (hinv : PendingInv w) (user : UserId) :
    activeRows w.db user ≤ 1 := by
  refine Table.count_le_one_iff.mpr fun r hr r' hr' hp hp' => ?_
  simp only [Bool.and_eq_true, beq_iff_eq] at hp hp'
  have hid : r.id = r'.id := hinv.unique r.id r'.id r r' (Table.get?_key hr) (Table.get?_key hr')
    hp.2 hp'.2 (hp.1.trans hp'.1.symm)
  exact Table.eq_of_key_eq hr hr' hid

/-- The identifier is spent, and its row, if it is still there, meets `S`. -/
def PendingReached (S : FederationMfaPendingRow → Prop) (id : FederationMfaPendingId)
    (w : SignInWorld) : Prop :=
  id ∈ w.pendingIds ∧ ∀ r, w.db.federationMfaPending.get? id = some r → S r

theorem pendingReached_step {S : FederationMfaPendingRow → Prop} {e : SignInEvent}
    (hS : ∀ {x t' r r'}, S r → PendingStep x t' id (some r) (some r') → S r')
    (hfresh : DrawsFresh w e) (h : PendingReached S id w) :
    PendingReached S id (signInStep P key w e).1 := by
  refine ⟨(signInStep_drawn _ _).2 h.1, fun r' hget' => ?_⟩
  have hrow := pendingStep P key w e id
  rw [hget'] at hrow
  cases hget : w.db.federationMfaPending.get? id with
  | some r =>
    rw [hget] at hrow
    exact hS (h.2 r hget) hrow
  | none =>
    rw [hget] at hrow
    cases hrow with
    | opened req sealed hid hevent hunique =>
      simp only at hevent
      subst hevent
      exact absurd (hid ▸ h.1) hfresh

theorem promotes_once (hinv : PendingInv w)
    (hfresh : Machine.Guarded (signInStep P key) DrawsFresh w es) :
    (signInTrace P key w es).countP (promotes id) ≤ 1 := by
  refine Machine.countP_trace_le_one (g := DrawsFresh) (I := PendingInv)
    (D := PendingReached (·.status ≠ .pending) id) ?_ ?_ ?_ ?_ hfresh hinv
  · exact fun s e hs hg => pendingInv_step hs
  · intro s e hs hg h
    obtain ⟨r, r', hget, -, hget', hclosed⟩ := (pendingStep P key s e id).of_promotes h
    refine ⟨(signInStep_drawn _ _).2 (hs.drawn id r hget), fun r₁ hget₁ => ?_⟩
    rw [hget'] at hget₁
    cases hget₁
    exact hclosed
  · refine fun s e hs hg hd => pendingReached_step (fun {x t' r r'} hr h => ?_) hg hd
    cases h with
    | kept => exact hr
    | refreshed _ req sealed hstatus hpromotes hrejects => exact absurd hstatus hr
    | counted _ hstatus hcount hpromotes => exact absurd hstatus hr
    | closed _ status hclosed hinactive hstatus hrejects => exact absurd hstatus hr
  · intro s e hs hg hd
    rw [Bool.eq_false_iff]
    intro h
    obtain ⟨r, r', hget, hstatus, -, -⟩ := (pendingStep P key s e id).of_promotes h
    exact hd.2 r hget hstatus

/-- The wrong proofs answered for a row are no more than its count. -/
private theorem rejects_history (hinv : PendingInv w)
    (hfresh : Machine.Guarded (signInStep P key) DrawsFresh w es) :
    (signInTrace P key w es).countP (rejects id) ≤ 5 ∧
      (0 < (signInTrace P key w es).countP (rejects id) →
        id ∈ (signInRun P key w es).pendingIds) ∧
      ∀ r, (signInRun P key w es).pending? id = some r →
        (signInTrace P key w es).countP (rejects id) ≤ r.failureCount := by
  induction es using List.reverseRecOn with
  | nil => simp
  | append_singleton es e ih =>
    obtain ⟨hbefore, hlast⟩ := Machine.guarded_append.mp hfresh
    have hdraw : DrawsFresh (signInRun P key w es) e := hlast.1
    obtain ⟨hle, hdrawn, hcount⟩ := ih hbefore
    have hinv' : PendingInv (signInRun P key w es) := pendingInv_run hinv
    have hrun : signInRun P key w (es ++ [e]) = (signInStep P key (signInRun P key w es) e).1 :=
      Machine.run_append w es [e]
    have htrace : signInTrace P key w (es ++ [e]) = signInTrace P key w es ++
        [⟨signInRun P key w es, e, (signInStep P key (signInRun P key w es) e).2⟩] :=
      Machine.trace_append w es [e]
    generalize signInRun P key w es = v at *
    rw [hrun, htrace, List.countP_append, List.countP_singleton]
    have hrow := pendingStep P key v e id
    split
    · rename_i hrejects
      obtain ⟨r, hget, hget', hlt⟩ := hrow.of_rejects hrejects
      have hr := hcount r hget
      refine ⟨by omega, fun _ => (signInStep_drawn _ _).2 (hinv'.drawn id r hget), fun r' hr' => ?_⟩
      have hsame : some r.countFailure = some r' := hget'.symm.trans hr'
      cases hsame
      rw [countFailure_failureCount hlt]
      omega
    · rw [Nat.add_zero]
      refine ⟨hle, fun hpos => (signInStep_drawn _ _).2 (hdrawn hpos), fun r' hget' => ?_⟩
      rw [show (signInStep P key v e).1.db.federationMfaPending.get? id = some r' from
        hget'] at hrow
      cases hget : v.db.federationMfaPending.get? id with
      | some r =>
        rw [hget] at hrow
        exact Nat.le_trans (hcount r hget) hrow.failureCount_le
      | none =>
        rw [hget] at hrow
        cases hrow with
        | opened req sealed hid hevent hunique =>
          -- The identifier is new, so nothing has been answered for it.
          simp only at hevent
          subst hevent
          by_contra hpos
          exact hdraw (hid ▸ hdrawn (by omega))

/-- The exhausted row `r` is there, with no purge of it ahead. -/
def Exhausted (r : FederationMfaPendingRow) (w : SignInWorld) : Prop :=
  PendingInv w ∧ w.db.federationMfaPending.get? r.id = some r ∧ r.status = .exhausted

section Exhausted

variable {r : FederationMfaPendingRow} {e : SignInEvent}

theorem exhausted_step (h : Exhausted r w) (hpurge : purges r e = false) :
    Exhausted r (signInStep P key w e).1 := by
  obtain ⟨hinv, hget, hstatus⟩ := h
  refine ⟨pendingInv_step hinv, ?_, hstatus⟩
  have hrow := pendingStep P key w e r.id
  rw [hget] at hrow
  refine hrow.eq_of_closed (by simp [hstatus]) fun now hevent => ?_
  simp only at hevent
  subst hevent
  exact hpurge

/-- While a row is exhausted, its user gets no other row. -/
theorem exhausted_noneOpened (h : Exhausted r w) (hpurge : purges r e = false)
    {r' : FederationMfaPendingRow}
    (hget' : (signInStep P key w e).1.db.federationMfaPending.get? id = some r')
    (huser : r'.userId = r.userId) : ∃ r₀, w.db.federationMfaPending.get? id = some r₀ ∧
      r₀.userId = r.userId := by
  obtain ⟨-, hstay, hstatus⟩ := exhausted_step (P := P) h hpurge
  have hrow := pendingStep P key w e id
  rw [hget'] at hrow
  cases hget : w.db.federationMfaPending.get? id with
  | some r₀ =>
    rw [hget] at hrow
    exact ⟨r₀, rfl, hrow.userId.symm.trans huser⟩
  | none =>
    rw [hget] at hrow
    cases hrow with
    | opened req sealed hid hevent hunique =>
      -- The opened row would be the only active one of a user who has `r`.
      have hid' : r.id = id := hunique r (Table.get?_eq_some.mp hstay).1
        (by simp [FederationMfaPendingRow.active, hstatus]) huser.symm
      rw [← hid', h.2.1] at hget
      cases hget

/-- While a row is exhausted, its user is not promoted. -/
theorem exhausted_notPromoted (h : Exhausted r w) {session : SessionRow} {evicted : Nat}
    {method : String}
    (hout : (signInStep P key w e).2 = .committed (.outcome (.promoted session evicted method))) :
    session.userId ≠ r.userId := by
  intro huser
  obtain ⟨hinv, hget, hstatus⟩ := h
  obtain ⟨id', q, hget', hpending, hsession⟩ := promoted_step hout
  have hid : id' = r.id := hinv.unique id' r.id q r hget' hget (active_of_pending hpending)
    (by simp [FederationMfaPendingRow.active, hstatus]) (hsession.symm.trans huser)
  rw [hid, hget] at hget'
  cases hget'
  rw [hstatus] at hpending
  cases hpending

end Exhausted

/-- While a row is exhausted: it stays, its user is not promoted, and every row
of the user was there before. -/
theorem exhausted_run {r : FederationMfaPendingRow} (h : Exhausted r w)
    (hpurge : ∀ e ∈ es, purges r e = false) :
    (signInRun P key w es).pending? r.id = some r ∧
      (∀ x ∈ signInTrace P key w es, ∀ session evicted method,
        x.out = .committed (.outcome (.promoted session evicted method)) →
        session.userId ≠ r.userId) ∧
      ∀ id' r', (signInRun P key w es).pending? id' = some r' → r'.userId = r.userId →
        ∃ r₀, w.pending? id' = some r₀ := by
  have hguard : Machine.Guarded (signInStep P key) (fun _ e => purges r e = false) w es :=
    Machine.guarded_of_forall hpurge
  have hstep : ∀ s e, (Exhausted r s ∧ ∀ id' r', s.pending? id' = some r' →
        r'.userId = r.userId → ∃ r₀, w.pending? id' = some r₀) → purges r e = false →
      Exhausted r (signInStep P key s e).1 ∧
        ∀ id' r', (signInStep P key s e).1.pending? id' = some r' → r'.userId = r.userId →
          ∃ r₀, w.pending? id' = some r₀ := by
    rintro s e ⟨hexhausted, hknown⟩ hpurge
    refine ⟨exhausted_step hexhausted hpurge, fun id' r' hget' huser => ?_⟩
    obtain ⟨r₀, hget₀, huser₀⟩ := exhausted_noneOpened hexhausted hpurge hget' huser
    exact hknown id' r₀ hget₀ huser₀
  have hstart : Exhausted r w ∧ ∀ id' r', w.pending? id' = some r' → r'.userId = r.userId →
      ∃ r₀, w.pending? id' = some r₀ := ⟨h, fun id' r' hget _ => ⟨r', hget⟩⟩
  obtain ⟨hfinal, hknown⟩ := Machine.run_invariant hstep hguard hstart
  refine ⟨hfinal.2.1, fun x hx session evicted method hout => ?_, hknown⟩
  obtain ⟨hpre, -, heq⟩ := Machine.trace_invariant hstep hguard hstart hx
  rw [heq] at hout
  exact exhausted_notPromoted hpre.1 hout

end Runs

/-- The guess budget holds along every run from a database in which the index
on active rows holds, whatever the clocks. -/
theorem guess_budget_throughout {db : Database} {es : List SignInEvent}
    (hunique : ∀ user, activeRows db user ≤ 1)
    (hfresh : Machine.Guarded (signInStep P key) DrawsFresh (.start db) es) :
    GuessBudget P key (.start db) es where
  one_active := (pendingInv_run (pendingInv_start hunique)).activeRows_le
  count_mono := by
    rintro pre post rfl id r r' hget hget'
    obtain ⟨-, hpost⟩ := Machine.guarded_append.mp hfresh
    have hinv : PendingInv (signInRun P key (.start db) pre) :=
      pendingInv_run (pendingInv_start hunique)
    have hstart : PendingReached (fun r' => r.failureCount ≤ r'.failureCount) id
        (signInRun P key (.start db) pre) := by
      refine ⟨hinv.drawn id r hget, fun r₁ hget₁ => ?_⟩
      have hsame : some r = some r₁ := hget.symm.trans hget₁
      cases hsame
      exact Nat.le_refl _
    rw [signInRun, Machine.run_append] at hget'
    exact (Machine.run_invariant (fun s e hs hg => pendingReached_step
      (fun hr h => Nat.le_trans hr h.failureCount_le) hg hs) hpost hstart).2 r' hget'
  count_le := fun id r _ => r.check_failureCount
  guesses_le := fun id => (rejects_history (pendingInv_start hunique) hfresh).1
  promotes_once := fun id => promotes_once (pendingInv_start hunique) hfresh
  exhausted_stays := by
    rintro pre post rfl id r hget hstatus hpurge
    have hinv : PendingInv (signInRun P key (.start db) pre) :=
      pendingInv_run (pendingInv_start hunique)
    have hid : r.id = id := (Table.get?_eq_some.mp hget).2
    subst hid
    rw [signInRun, Machine.run_append]
    exact exhausted_run ⟨hinv, hget, hstatus⟩ hpurge

/-! ## A restart grants no new guesses -/

/-- A wrong code for the pending row 1. -/
def wrongCode (now : DateTime) : SignInEvent :=
  .transaction (.completeFederatedMfa 1 (some (.rejected .totp)) 1 now)

/-- Four wrong codes, a restart through a second attempt, the fifth wrong code,
another restart, and a right code. -/
def restartedRun : List SignInEvent :=
  exchanged 1 ++ [samplePending 1 1] ++
    [wrongCode (seconds 3), wrongCode (seconds 4), wrongCode (seconds 5), wrongCode (seconds 6)] ++
    exchanged 2 ++ [samplePending 2 2, wrongCode (seconds 7)] ++
    exchanged 3 ++ [samplePending 3 3,
      .transaction (.completeFederatedMfa 1 (some (.totp 1)) 1 (seconds 8))]

theorem guess_budget_restartedRun :
    GuessBudget .transparent (.constant 7) (.start linkedDb) restartedRun ∧
      ((signInRun .transparent (.constant 7) (.start linkedDb) restartedRun).pending? 1).map
        (fun r => (r.status, r.failureCount)) = some (.exhausted, 5) :=
  ⟨guess_budget_throughout (fun _ => Nat.zero_le 1) (by decide +kernel), by decide +kernel⟩

end SuiId
