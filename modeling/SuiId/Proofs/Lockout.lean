import SuiId.Core.SignIns

/-!
# The account lock and its doors

A wrong second factor is counted on the user at both doors, and the fifth locks
the account (L07); so does the third wrong password (U22).  L01, L02 and L03
read the lock again in the transaction that inserts the session.  F03 reads the
provider, the link and the account's flags in its transaction, and not the lock.

`LockHolds` is what the lock promises of one event.  `Redeemable` says in full
when F03 promotes, in terms of the state before it; `lockHolds_iff` then says
that the promise fails exactly at a redeemable row of a locked user.
-/

namespace SuiId

open Lib Lib.Result

/-! ## What the lock promises -/

/-- The clock value of a transaction that ends a sign-in which met the lock's
failures: L01, L02, L03 and F03. -/
def Transaction.signsInAt : Transaction → Option DateTime
  | .signInWithPassword session => some session.createdAt
  | .completeSecondFactor _ session _ => some session.createdAt
  | .signInFromDirectory _ _ session => some session.createdAt
  | .completeFederatedMfa _ _ _ now => some now
  | _ => none

/-- Is the user there and locked at `now`? -/
def Users.isLocked (db : Database) (user : UserId) (now : DateTime) : Bool :=
  (db.users.get? user).any fun u => Users.lockedAt u now

/-- Some session of the user is new. -/
def CreatesSession (t t' : Table SessionRow.id) (user : UserId) : Prop :=
  ∃ s ∈ t', s.userId = user ∧ ∀ s₀ ∈ t, s₀.id ≠ s.id

section Promise

variable (P : Primitives) (key : MasterKey)

/-- The event creates no session for a user who is locked at its clock value. -/
def LockHolds (w : SignInWorld) (e : SignInEvent) : Prop :=
  ∀ transaction now user, e = .transaction transaction → transaction.signsInAt = some now →
    Users.isLocked w.db user now = true →
    ¬ CreatesSession w.db.sessions (signInStep P key w e).1.db.sessions user

/-! ## When F03 promotes -/

/-- The store still holds what the proof was verified against. -/
def proofHolds (db : Database) (row : FederationMfaPendingRow) (now : DateTime) :
    Option F03Proof → Bool
  | some (.totp step) =>
    (db.userTotp.get? row.userId).any fun t => t.enabled && t.lastUsedStep < step
  | some (.recovery expectedSealed _) =>
    (db.userTotp.get? row.userId).any fun t =>
      t.enabled && t.recoveryCodesEnc == some expectedSealed
  | some (.webauthn ceremonyId credentialId expectedSealed _) =>
    ((FederationWebauthnCeremony.findByPendingId db row.id).any fun c =>
        c.id == ceremonyId && now < c.expiresAt) &&
      (db.webauthnCredentials.get? credentialId).any fun c => c.passkeyEnc == expectedSealed
  | some (.rejected _) | none => false

/-- Everything F03 reads before it promotes the row. -/
structure Redeemable (db : Database) (row : FederationMfaPendingRow) (proof : Option F03Proof)
    (sessionId : SessionId) (now : DateTime) : Prop where
  stored : db.federationMfaPending.get? row.id = some row
  pending : row.status = .pending
  budget : row.failureCount < 5
  continuation : checkContinuation P key row = .ok ()
  unexpired : now < row.expiresAt
  authority : authorityDrift db row.providerId row.userId = .ok none
  proof : proofHolds db row now proof = true
  /-- The identifier drawn for the session is not in use. -/
  unused : ∀ s ∈ db.sessions, s.id ≠ sessionId

/-- The event is not a redeemable F03 for a locked user. -/
def FederatedDoorShut (w : SignInWorld) (e : SignInEvent) : Prop :=
  ∀ row proof sessionId now,
    e = .transaction (.completeFederatedMfa row.id proof sessionId now) →
    Redeemable P key w.db row proof sessionId now → Users.isLocked w.db row.userId now = false

end Promise

section Promotion

variable {P : Primitives} {key : MasterKey} {db db' : Database} {row : FederationMfaPendingRow}
  {proof : Option F03Proof} {sessionId : SessionId} {now : DateTime}
variable {session : SessionRow} {evicted : Nat} {method : String} {d : Database}

/-- A proof that does not hold promotes nothing. -/
private theorem proofHolds_of_promoted
    (h : evaluateProof db row proof sessionId now = .ok (.promoted session evicted method, db')) :
    proofHolds db row now proof = true := by
  unfold evaluateProof at h
  dsimp only at h
  split at h
  · cases h
  · split at h
    · exact absurd h invalidateWith_notPromoted
    · exact absurd h rejectOrExhaust_notPromoted
  · rename_i step
    split at h
    · exact absurd h invalidateWith_notPromoted
    · rename_i t hfilter
      obtain ⟨hget, henabled⟩ := Option.filter_eq_some_iff.mp hfilter
      split at h
      · exact absurd h rejectOrExhaust_notPromoted
      · rename_i hstep
        simp [proofHolds, hget, henabled, Int.not_le.mp hstep]
  · split at h
    · exact absurd h invalidateWith_notPromoted
    · rename_i t hfilter
      obtain ⟨hget, henabled⟩ := Option.filter_eq_some_iff.mp hfilter
      split at h
      · exact absurd h rejectOrExhaust_notPromoted
      · rename_i hcodes
        simp only [bne_iff_ne, ne_eq, Decidable.not_not] at hcodes
        simp [proofHolds, hget, henabled, hcodes]
  · split at h
    · exact absurd h invalidateWith_notPromoted
    · rename_i hceremony
      simp only [Bool.not_eq_true', Bool.not_eq_false] at hceremony
      split at h
      · exact absurd h invalidateWith_notPromoted
      · rename_i c hget
        split at h
        · exact absurd h rejectOrExhaust_notPromoted
        · rename_i hpasskey
          simp only [bne_iff_ne, ne_eq, Decidable.not_not] at hpasskey
          simp [proofHolds, hceremony, hget, hpasskey]

/-- What F03 promotes was redeemable. -/
theorem redeemable_of_promoted {pendingId : FederationMfaPendingId}
    (h : completeFederatedMfa P key db pendingId proof sessionId now =
      .ok (.promoted session evicted method, db')) :
    ∃ row, row.id = pendingId ∧ session.userId = row.userId ∧
      Redeemable P key db row proof sessionId now ∧
      Sessions.Added db.sessions db'.sessions session := by
  obtain ⟨row, hid, hpending, heffect⟩ := completeFederatedMfa_ok h
  cases heffect with
  | promoted method evicted t hcount hrow hsession hdb =>
    simp only [completeFederatedMfa, bind_eq_ok, require_eq_ok, ensure_eq_ok] at h
    obtain ⟨row', hget, ⟨⟩, hcontinuation, -, -, hrest⟩ := h
    have hsame : row' = row :=
      Option.some.inj (hget.symm.trans (hid ▸ hrow.before))
    subst hsame
    split at hrest
    · exact absurd hrest invalidateWith_notPromoted
    · rename_i hexpiry
      simp only [bind_eq_ok] at hrest
      obtain ⟨drift, hdrift, hrest⟩ := hrest
      split at hrest
      · exact absurd hrest invalidateWith_notPromoted
      · exact ⟨row', hid, rfl,
          { stored := hrow.before, pending := hpending, budget := hcount
            continuation := hcontinuation, unexpired := Int.not_le.mp hexpiry
            authority := hdrift, proof := proofHolds_of_promoted hrest
            unused := hsession.fresh }, hsession⟩

/-- The link, the account and the session identifier that `promote` needs. -/
private theorem promote_succeeds (now : DateTime) (method : PromotionMethod)
    (hlinked : FederationLink.isLinked d row.userId row.providerId = true)
    (hactive : Users.isActive d row.userId = true) (hunused : ∀ s ∈ d.sessions, s.id ≠ sessionId) :
    ∃ session evicted db', promote d row now method sessionId =
      .ok (.promoted session evicted method.asStr, db') := by
  have htouch : ∃ federationLink, FederationLink.touchLastSeen d row.userId row.providerId now =
      .ok { d with federationLink } := by
    simp only [FederationLink.touchLastSeen, bind_eq_ok, ensure_eq_ok, pure_eq_ok]
    exact ⟨_, (), hlinked, rfl⟩
  obtain ⟨federationLink, htouch⟩ := htouch
  have hlogin : ∃ users, (users.get? row.userId).isSome = true ∧
      Users.recordFederatedLogin { d with federationLink } row.userId now =
        .ok { d with federationLink, users } := by
    simp only [Users.recordFederatedLogin, Users.updateWhere, bind_eq_ok, ensure_eq_ok, pure_eq_ok]
    refine ⟨_, ?_, (), hactive, rfl⟩
    obtain ⟨u, hget, -⟩ := (Option.any_eq_true _ _).mp hactive
    rw [Table.get?_update, hget]
    rfl
  obtain ⟨users, huser, hlogin⟩ := hlogin
  have hinsert : ∃ sessions, Sessions.insert { d with federationLink, users }
      (promotedSession sessionId row.userId method now) =
        .ok { d with federationLink, users, sessions } := by
    obtain ⟨sessions, hsessions⟩ := Table.exists_insert? (t := d.sessions)
      (r := { promotedSession sessionId row.userId method now with
          lastStepUpMethod := none, stepUpFailureCount := 0 })
      hunused
    simp only [Sessions.insert, bind_eq_ok, ensure_eq_ok, require_eq_ok, pure_eq_ok]
    exact ⟨sessions, (), huser, sessions, hsessions, rfl⟩
  obtain ⟨sessions, hinsert⟩ := hinsert
  simp only [promote, bind_eq_ok, pure_eq_ok, Prod.mk.injEq]
  exact ⟨_, _, _, _, htouch, _, hlogin, _, hinsert, rfl, rfl⟩

private theorem updateTotp_succeeds {user : UserId} (p : UserTotpRow → Bool)
    (f : UserTotpRow → UserTotpRow) (hf : ∀ r, (f r).userId = r.userId) {r : UserTotpRow}
    (hget : d.userTotp.get? user = some r) (hp : p r = true) :
    ∃ userTotp, UserTotp.updateWhere d user p f hf = .ok { d with userTotp } := by
  have hany : (d.userTotp.get? user).any p = true := (Option.any_eq_true _ _).mpr ⟨r, hget, hp⟩
  simp only [UserTotp.updateWhere, bind_eq_ok, ensure_eq_ok, pure_eq_ok]
  exact ⟨_, (), hany, rfl⟩

/-- For a proof that holds, F03 completes the row and promotes, and the write of
the factor in between succeeds. -/
private theorem evaluateProof_eq (sessionId : SessionId)
    (hproof : proofHolds db row now proof = true) :
    ∃ spend method,
      evaluateProof db row proof sessionId now =
        completeAndPromote db row spend now method sessionId ∧
      ∀ t, ∃ userTotp webauthnCredentials federationWebauthnCeremony,
        spend { db with federationMfaPending := t } =
          .ok { db with
            federationMfaPending := t, userTotp, webauthnCredentials
            federationWebauthnCeremony } := by
  cases proof with
  | none => cases hproof
  | some p =>
    cases p with
    | rejected reason => cases hproof
    | totp step =>
      obtain ⟨t, hget, ht⟩ := (Option.any_eq_true _ _).mp hproof
      have henabled : t.enabled = true := (Bool.and_eq_true_iff.mp ht).1
      have hstep : ¬ step ≤ t.lastUsedStep :=
        Int.not_le.mpr (of_decide_eq_true (Bool.and_eq_true_iff.mp ht).2)
      refine ⟨fun db => UserTotp.advanceLastUsedStep db row.userId step, .totp, ?_, fun t' => ?_⟩
      · simp [evaluateProof, hget, Option.filter, henabled, hstep]
      · obtain ⟨userTotp, hspend⟩ := updateTotp_succeeds
          (d := { db with federationMfaPending := t' })
          (fun r => r.enabled && r.lastUsedStep < step)
          (fun r => { r with lastUsedStep := step }) (fun _ => rfl) hget ht
        exact ⟨userTotp, _, _, hspend⟩
    | recovery expectedSealed newSealed =>
      obtain ⟨t, hget, ht⟩ := (Option.any_eq_true _ _).mp hproof
      have henabled : t.enabled = true := (Bool.and_eq_true_iff.mp ht).1
      have hcodes : t.recoveryCodesEnc = some expectedSealed :=
        beq_iff_eq.mp (Bool.and_eq_true_iff.mp ht).2
      refine ⟨fun db => UserTotp.swapRecoveryCodes db row.userId expectedSealed newSealed,
        .recoveryCode, ?_, fun t' => ?_⟩
      · simp [evaluateProof, hget, Option.filter, henabled, hcodes]
      · obtain ⟨userTotp, hspend⟩ := updateTotp_succeeds
          (d := { db with federationMfaPending := t' })
          (fun r => r.enabled && r.recoveryCodesEnc == some expectedSealed)
          (fun r => { r with recoveryCodesEnc := some newSealed }) (fun _ => rfl) hget ht
        exact ⟨userTotp, _, _, hspend⟩
    | webauthn ceremonyId credentialId expectedSealed newSealed =>
      obtain ⟨hceremony, hcredential⟩ := Bool.and_eq_true_iff.mp hproof
      obtain ⟨c, hget, hpasskey⟩ := (Option.any_eq_true _ _).mp hcredential
      refine ⟨fun db => do
          let db ← WebauthnCredentials.swapPasskey db credentialId expectedSealed newSealed now
          pure (FederationWebauthnCeremony.consume db ceremonyId),
        .webauthn, ?_, fun t' => ?_⟩
      · simp only [evaluateProof, hceremony, Bool.not_true, Bool.false_eq_true, if_false, hget]
        rw [if_neg (by simpa using hpasskey)]
      · simp only [WebauthnCredentials.swapPasskey, FederationWebauthnCeremony.consume, bind_eq_ok,
          ensure_eq_ok, pure_eq_ok]
        exact ⟨_, _, _, _, ⟨(), hcredential, rfl⟩, rfl⟩

/-- Intact authority is an enabled provider, a link and an active account. -/
theorem authorityDrift_none {provider : ProviderId} {user : UserId}
    (h : authorityDrift db provider user = .ok none) :
    FederationProvider.isEnabled db provider = .ok true ∧
      FederationLink.isLinked db user provider = true ∧ Users.isActive db user = true := by
  simp only [authorityDrift, bind_eq_ok] at h
  obtain ⟨enabled, henabled, h⟩ := h
  split at h
  · cases h
  · rename_i hon
    split at h
    · cases h
    · rename_i hlinked
      simp only [bind_eq_ok, require_eq_ok, pure_eq_ok] at h
      obtain ⟨u, hget, h⟩ := h
      split at h
      · rename_i hactive
        have htrue : enabled = true := by simpa using hon
        exact ⟨htrue ▸ henabled, by simpa using hlinked,
          (Option.any_eq_true _ _).mpr ⟨u, hget, hactive⟩⟩
      · cases h

/-- A redeemable row is promoted. -/
theorem Redeemable.promoted (h : Redeemable P key db row proof sessionId now) :
    ∃ session evicted method db', completeFederatedMfa P key db row.id proof sessionId now =
      .ok (.promoted session evicted method, db') := by
  obtain ⟨spend, method, heq, hspend⟩ := evaluateProof_eq sessionId h.proof
  have hcompleted : (FederationMfaPending.complete db row.id).1 = true :=
    (Option.any_eq_true _ _).mpr ⟨row, h.stored, by simp [h.pending, h.budget]⟩
  obtain ⟨-, t, -, -, -, hcomplete⟩ := FederationMfaPending.updateWhere_true hcompleted
  obtain ⟨userTotp, webauthnCredentials, ceremonies, hspent⟩ := hspend t
  obtain ⟨-, hlinked, hactive⟩ := authorityDrift_none h.authority
  obtain ⟨session, evicted, db', hpromote⟩ := promote_succeeds
    (d := { db with federationMfaPending := t, userTotp, webauthnCredentials
                    federationWebauthnCeremony := ceremonies })
    now method hlinked hactive h.unused
  refine ⟨session, evicted, method.asStr, db', ?_⟩
  simp only [completeFederatedMfa, bind_eq_ok, require_eq_ok, ensure_eq_ok]
  refine ⟨row, h.stored, (), h.continuation, (), by simp [h.pending], ?_⟩
  rw [if_neg (Int.not_le.mpr h.unexpired)]
  simp only [bind_eq_ok]
  refine ⟨none, h.authority, ?_⟩
  show evaluateProof db row proof sessionId now = _
  rw [heq]
  simp only [completeAndPromote, bind_eq_ok, ensure_eq_ok]
  refine ⟨(), hcompleted, _, ?_, hpromote⟩
  rw [FederationMfaPending.complete, hcomplete]
  exact hspent

end Promotion

/-! ## One event -/

section Step

variable {P : Primitives} {key : MasterKey} {db db' : Database} {w : SignInWorld} {now : DateTime}
  {user : UserId}
variable {t : Table SessionRow.id} {session : SessionRow}

/-- An added session is created for its own user only. -/
theorem createsSession_added {t' : Table SessionRow.id} (h : Sessions.Added t t' session) :
    CreatesSession t t' user ↔ session.userId = user := by
  have howner : ∀ s, s ∈ t' → Sessions.owner s ∈ t.rows.map Sessions.owner ++
      [Sessions.owner session] := by
    intro s hs
    rw [← h.owners]
    exact List.mem_map_of_mem hs
  constructor
  · rintro ⟨s, hs, huser, hnew⟩
    rcases List.mem_append.mp (howner s hs) with hold | hlast
    · obtain ⟨s₀, hs₀, heq⟩ := List.mem_map.mp hold
      exact absurd (congrArg Prod.fst heq) (hnew s₀ hs₀)
    · have heq : Sessions.owner s = Sessions.owner session := List.mem_singleton.mp hlast
      exact (congrArg Prod.snd heq).symm.trans huser
  · intro huser
    have hmem : Sessions.owner session ∈ t'.rows.map Sessions.owner := by
      rw [h.owners]
      exact List.mem_append_right _ (List.mem_singleton_self _)
    obtain ⟨s, hs, heq⟩ := List.mem_map.mp hmem
    refine ⟨s, hs, (congrArg Prod.snd heq).trans huser, fun s₀ hs₀ hid => ?_⟩
    exact h.fresh s₀ hs₀ (hid.trans (congrArg Prod.fst heq))

theorem not_createsSession_self : ¬ CreatesSession t t user := by
  rintro ⟨s, hs, -, hnew⟩
  exact hnew s hs rfl

private theorem isLocked_eq_false
    (h : ∀ u, db.users.get? user = some u → Users.lockedAt u now = false) :
    Users.isLocked db user now = false := by
  unfold Users.isLocked
  cases hget : db.users.get? user with
  | none => rfl
  | some u => exact h u hget

/-- The promise is about what the transaction commits. -/
private theorem lockHolds_iff_perform {transaction : Transaction}
    (hnow : transaction.signsInAt = some now) :
    LockHolds P key w (.transaction transaction) ↔
      ∀ returned db', transaction.perform P key w.db = .ok (returned, db') →
        ∀ user, Users.isLocked w.db user now = true →
          ¬ CreatesSession w.db.sessions db'.sessions user := by
  have hdraw : (w.draw transaction).db = w.db := by cases transaction <;> rfl
  constructor
  · intro h returned db' hperform user hlocked
    have hstep := h transaction now user rfl hnow hlocked
    simp only [signInStep, hperform] at hstep
    exact hstep
  · intro h transaction' now' user heq hnow' hlocked
    cases heq
    cases hnow.symm.trans hnow'
    simp only [signInStep]
    cases hperform : transaction.perform P key w.db with
    | ok result => exact h result.1 result.2 hperform user hlocked
    | error e =>
      simp only [hdraw]
      exact not_createsSession_self

/-- A session added for a user who is not locked keeps the promise. -/
private theorem not_creates_of_unlocked (hadded : Sessions.Added db.sessions db'.sessions session)
    (hunlocked : Users.isLocked db session.userId now = false)
    (hlocked : Users.isLocked db user now = true) :
    ¬ CreatesSession db.sessions db'.sessions user := by
  intro hcreates
  rw [createsSession_added hadded] at hcreates
  rw [hcreates, hlocked] at hunlocked
  cases hunlocked

/-- F03 creates a session for the user of a redeemable row, and no other. -/
theorem completeFederatedMfa_creates_iff {pendingId : FederationMfaPendingId}
    {proof : Option F03Proof} {sessionId : SessionId} {outcome : F03Outcome}
    (h : completeFederatedMfa P key db pendingId proof sessionId now = .ok (outcome, db')) :
    CreatesSession db.sessions db'.sessions user ↔
      ∃ row, row.id = pendingId ∧ row.userId = user ∧
        Redeemable P key db row proof sessionId now := by
  constructor
  · intro hcreates
    obtain ⟨row, -, -, heffect⟩ := completeFederatedMfa_ok h
    cases heffect with
    | invalidated reason t hrow hdb | rejected reason t ceremonies hcount hrow hdb
    | exhausted reason t ceremonies hcount hrow hdb =>
      subst hdb
      exact absurd hcreates not_createsSession_self
    | promoted method evicted t hcount hrow hsession hdb =>
      obtain ⟨row', hid, huser, hredeemable, hadded⟩ := redeemable_of_promoted h
      exact ⟨row', hid, huser.symm.trans ((createsSession_added hadded).mp hcreates), hredeemable⟩
  · rintro ⟨row, rfl, huser, hredeemable⟩
    obtain ⟨session, evicted, method, db₁, hpromoted⟩ := hredeemable.promoted
    rw [h] at hpromoted
    cases hpromoted
    obtain ⟨row', hid, huser', hredeemable', hadded⟩ := redeemable_of_promoted h
    have hsame : row' = row :=
      Option.some.inj (hredeemable'.stored.symm.trans (hid ▸ hredeemable.stored))
    exact (createsSession_added hadded).mpr (huser'.trans (hsame ▸ huser))

/-- L01 keeps the promise. -/
private theorem lockHolds_signInWithPassword (session : SessionRow) :
    LockHolds P key w (.transaction (.signInWithPassword session)) := by
  rw [lockHolds_iff_perform rfl]
  intro returned db' hperform user hlocked
  cases Transaction.performed hperform with
  | signInWithPassword hcommit =>
    obtain ⟨⟨u, hget, -, -, hunlocked⟩, -⟩ := signInWithPassword_ok hcommit
    refine not_creates_of_unlocked (signInWithPassword_inserted hcommit).added ?_ hlocked
    exact isLocked_eq_false fun u' hget' => Option.some.inj (hget.symm.trans hget') ▸ hunlocked

/-- L02 keeps the promise. -/
private theorem lockHolds_completeSecondFactor (pendingId : PendingMfaId) (session : SessionRow)
    (proof : SecondFactorProof) :
    LockHolds P key w (.transaction (.completeSecondFactor pendingId session proof)) := by
  rw [lockHolds_iff_perform rfl]
  intro returned db' hperform user hlocked
  cases Transaction.performed hperform with
  | completeSecondFactor hcommit =>
    obtain ⟨-, -, ⟨u, hget, -, -, hunlocked⟩, -⟩ := completeSecondFactor_ok hcommit
    refine not_creates_of_unlocked (completeSecondFactor_inserted hcommit).added ?_ hlocked
    exact isLocked_eq_false fun u' hget' => Option.some.inj (hget.symm.trans hget') ▸ hunlocked

/-- L03 keeps the promise. -/
private theorem lockHolds_signInFromDirectory (shadow : Users.LdapShadowData)
    (sourceSlug : String) (session : SessionRow) :
    LockHolds P key w (.transaction (.signInFromDirectory shadow sourceSlug session)) := by
  rw [lockHolds_iff_perform rfl]
  intro returned db' hperform user hlocked
  cases Transaction.performed hperform with
  | signInFromDirectory hcommit =>
    obtain ⟨hunlocked, -⟩ := signInFromDirectory_ok hcommit
    refine not_creates_of_unlocked (signInFromDirectory_inserted hcommit).added ?_ hlocked
    exact isLocked_eq_false hunlocked

/-- F03 keeps the promise unless the row is redeemable and its user locked. -/
private theorem lockHolds_completeFederatedMfa (pendingId : FederationMfaPendingId)
    (proof : Option F03Proof) (sessionId : SessionId) (now : DateTime) :
    LockHolds P key w (.transaction (.completeFederatedMfa pendingId proof sessionId now)) ↔
      ∀ row : FederationMfaPendingRow, row.id = pendingId →
        Redeemable P key w.db row proof sessionId now →
        Users.isLocked w.db row.userId now = false := by
  rw [lockHolds_iff_perform rfl]
  constructor
  · rintro h row rfl hredeemable
    obtain ⟨session, evicted, method, db', hpromoted⟩ := hredeemable.promoted
    have hperform : (Transaction.completeFederatedMfa row.id proof sessionId now).perform P key
        w.db = .ok (.outcome (.promoted session evicted method), db') := by
      simp only [Transaction.perform, bind_eq_ok, pure_eq_ok, Prod.mk.injEq]
      exact ⟨_, hpromoted, rfl, rfl⟩
    have hcreates : CreatesSession w.db.sessions db'.sessions row.userId :=
      (completeFederatedMfa_creates_iff hpromoted).mpr ⟨row, rfl, rfl, hredeemable⟩
    by_cases hlocked : Users.isLocked w.db row.userId now = true
    · exact absurd hcreates (h _ db' hperform row.userId hlocked)
    · exact Bool.eq_false_iff.mpr hlocked
  · intro h returned db' hperform user hlocked hcreates
    cases Transaction.performed hperform with
    | completeFederatedMfa hcommit =>
      obtain ⟨row, hid, rfl, hredeemable⟩ := (completeFederatedMfa_creates_iff hcommit).mp hcreates
      have hunlocked := h row hid hredeemable
      rw [hlocked] at hunlocked
      cases hunlocked

/-- The promise holds of an event unless it is a redeemable F03 for a locked
user. -/
theorem lockHolds_iff (w : SignInWorld) (e : SignInEvent) :
    LockHolds P key w e ↔ FederatedDoorShut P key w e := by
  cases e with
  | transaction transaction =>
    cases transaction with
    | completeFederatedMfa pendingId proof sessionId now =>
      rw [lockHolds_completeFederatedMfa]
      constructor
      · intro h row proof' sessionId' now' heq hredeemable
        cases heq
        exact h row rfl hredeemable
      · rintro h row rfl hredeemable
        exact h row proof sessionId now rfl hredeemable
    | signInWithPassword session =>
      exact iff_of_true (lockHolds_signInWithPassword session) fun _ _ _ _ heq => by cases heq
    | completeSecondFactor pendingId session proof =>
      exact iff_of_true (lockHolds_completeSecondFactor pendingId session proof)
        fun _ _ _ _ heq => by cases heq
    | signInFromDirectory shadow sourceSlug session =>
      exact iff_of_true (lockHolds_signInFromDirectory shadow sourceSlug session)
        fun _ _ _ _ heq => by cases heq
    | _ =>
      refine iff_of_true (fun transaction now user heq hnow => ?_) fun _ _ _ _ heq => by cases heq
      cases heq
      cases hnow
  | _ =>
    exact iff_of_true (fun _ _ _ heq => by cases heq) fun _ _ _ _ heq => by cases heq

end Step

/-- Along a run, the lock keeps every sign-in out if and only if no F03 of the
run finds a redeemable row of a locked user. -/
theorem lock_throughout_iff (P : Primitives) (key : MasterKey) (w : SignInWorld)
    (es : List SignInEvent) :
    Machine.Guarded (signInStep P key) (LockHolds P key) w es ↔
      Machine.Guarded (signInStep P key) (FederatedDoorShut P key) w es :=
  Machine.guarded_congr lockHolds_iff

/-! ## A locked user gets a session -/

/-- The upstream sign-in of user 7, a wrong code there, and four wrong codes at
the local door.  The fifth failure locks the account for five minutes. -/
def lockedRun : List SignInEvent :=
  exchanged 1 ++ [samplePending 1 1,
    .transaction (.completeFederatedMfa 1 (some (.rejected .totp)) 1 (seconds 3)),
    .transaction (.recordSecondFactorFailure 7 86400 (seconds 3)),
    .transaction (.recordSecondFactorFailure 7 86400 (seconds 4)),
    .transaction (.recordSecondFactorFailure 7 86400 (seconds 5)),
    .transaction (.recordSecondFactorFailure 7 86400 (seconds 6)),
    .transaction (.recordSecondFactorFailure 7 86400 (seconds 7))]

/-- The right code at the federated door, three seconds into the lock. -/
def promotedWhileLocked : SignInEvent :=
  .transaction (.completeFederatedMfa 1 (some (.totp 1)) 1 (seconds 10))

theorem locked_user_promoted :
    ¬ Machine.Guarded (signInStep .transparent (.constant 7))
        (LockHolds .transparent (.constant 7)) (.start linkedDb)
        (lockedRun ++ [promotedWhileLocked]) := by
  intro h
  have hlast : LockHolds .transparent (.constant 7)
      (signInRun .transparent (.constant 7) (.start linkedDb) lockedRun) promotedWhileLocked :=
    (Machine.guarded_append.mp h).2.1
  have hlocked : Users.isLocked
      (signInRun .transparent (.constant 7) (.start linkedDb) lockedRun).db 7 (seconds 10) =
        true := by
    decide +kernel
  have hbefore :
      (signInRun .transparent (.constant 7) (.start linkedDb) lockedRun).db.sessions.rows = [] := by
    decide +kernel
  have hafter : (signInStep .transparent (.constant 7)
      (signInRun .transparent (.constant 7) (.start linkedDb) lockedRun)
      promotedWhileLocked).1.db.sessions.rows.map Sessions.owner = [(1, 7)] := by
    decide +kernel
  refine hlast _ (seconds 10) 7 rfl rfl hlocked ?_
  obtain ⟨s, hs, howner⟩ := List.mem_map.mp (hafter ▸ List.mem_singleton_self (1, 7))
  refine ⟨s, hs, congrArg Prod.snd howner, fun s₀ hs₀ => ?_⟩
  rw [Table.mem_iff, hbefore] at hs₀
  cases hs₀

end SuiId
