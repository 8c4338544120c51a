import SuiId.Store.Factors

/-!
# Ceremonies and passkeys

`webauthn_pending.rs`, and what the commands that end a ceremony write to the tables of
ceremonies and passkeys:

* L02 and the commands that count a wrong factor leave all three alone;
* L05 deletes the ceremony that it is given;
* F03 swaps the blob of the passkey that it is given, and deletes the ceremony.
-/

namespace SuiId

open Lib Lib.Result

namespace WebauthnPending

/-- `insert`. -/
def insert (db : Database) (row : WebauthnPendingRow) : StoreResult Database := do
  ensure (row.userId.all fun user => (db.users.get? user).isSome) .db
  let webauthnPending ← require (db.webauthnPending.insert? row) .db
  pure { db with webauthnPending }

/-- `delete`. -/
def delete (db : Database) (id : WebauthnPendingId) : StoreResult Database := do
  ensure (db.webauthnPending.get? id).isSome .notFound
  pure { db with webauthnPending := db.webauthnPending.delete fun r => r.id == id }

/-- `let _ = delete(…)`.  The database may refuse the statement. -/
def discard (db : Database) (id : WebauthnPendingId) (refused : Bool) : Database :=
  if refused then db
  else
    match delete db id with
    | .ok db => db
    | .error _ => db

theorem insert_ok {db db' : Database} {row : WebauthnPendingRow} (h : insert db row = .ok db') :
    ∃ webauthnPending, (∀ r ∈ webauthnPending, r ∈ db.webauthnPending ∨ r = row) ∧
      db' = { db with webauthnPending } := by
  simp only [insert, bind_eq_ok, require_eq_ok, pure_eq_ok] at h
  obtain ⟨-, -, webauthnPending, hinsert, rfl⟩ := h
  exact ⟨webauthnPending, fun r hr => (Table.mem_of_insert? hinsert).mp hr, rfl⟩

theorem discard_eq (db : Database) (id : WebauthnPendingId) (refused : Bool) :
    ∃ webauthnPending, (∀ r ∈ webauthnPending, r ∈ db.webauthnPending) ∧
      discard db id refused = { db with webauthnPending } := by
  unfold discard
  split
  · exact ⟨db.webauthnPending, fun r hr => hr, rfl⟩
  · split
    · rename_i db' hdelete
      simp only [delete, bind_eq_ok, ensure_eq_ok, pure_eq_ok] at hdelete
      obtain ⟨-, -, rfl⟩ := hdelete
      exact ⟨_, fun r hr => (Table.mem_delete.mp hr).1, rfl⟩
    · exact ⟨db.webauthnPending, fun r hr => hr, rfl⟩

/-- A delete that is not refused leaves no row of that key. -/
theorem discard_gone (db : Database) (id : WebauthnPendingId) :
    ∀ r ∈ (discard db id false).webauthnPending, r.id ≠ id := by
  intro r hr hid
  unfold discard at hr
  rw [if_neg Bool.false_ne_true] at hr
  split at hr
  · rename_i db' hdelete
    simp only [delete, bind_eq_ok, ensure_eq_ok, pure_eq_ok] at hdelete
    obtain ⟨-, -, rfl⟩ := hdelete
    have hkept := (Table.mem_delete.mp hr).2
    simp [hid] at hkept
  · rename_i e hdelete
    have hsome : (db.webauthnPending.get? id).isSome = true := by
      rw [← hid, Table.get?_key hr, Option.isSome_some]
    simp [delete, ensure, hsome] at hdelete

end WebauthnPending

/-! ## What the commands write -/

/-- The tables of ceremonies and passkeys are as they were. -/
structure PasskeyTablesKept (db db' : Database) : Prop where
  pending : db'.webauthnPending = db.webauthnPending
  federation : db'.federationWebauthnCeremony = db.federationWebauthnCeremony
  passkeys : db'.webauthnCredentials = db.webauthnCredentials

theorem PasskeyTablesKept.refl (db : Database) : PasskeyTablesKept db db := ⟨rfl, rfl, rfl⟩

section Commands

variable {db db' : Database}

/-- L02. -/
theorem completeSecondFactor_passkeys {pendingId : PendingMfaId} {session session' : SessionRow}
    {proof : SecondFactorProof}
    (h : completeSecondFactor db pendingId session proof = .ok (session', db')) :
    PasskeyTablesKept db db' := by
  obtain ⟨-, -, -, loginPendingMfa, userTotp, users, sessions, log, -, -, -, rfl⟩ :=
    completeSecondFactor_ok h
  exact ⟨rfl, rfl, rfl⟩

variable {user : UserId} {session : SessionId}

/-- L07. -/
theorem recordSecondFactorFailure_passkeys {maxLockoutSecs : Int} {now : DateTime}
    {outcome : SecondFactorFailureOutcome}
    (h : recordSecondFactorFailure db user maxLockoutSecs now = .ok (outcome, db')) :
    PasskeyTablesKept db db' := by
  obtain ⟨loginPendingMfa, users, log, -, -, rfl⟩ := recordSecondFactorFailure_ok h
  exact ⟨rfl, rfl, rfl⟩

/-- L06. -/
theorem recordStepUpFailure_passkeys {now : DateTime} {outcome : StepUpFailureOutcome}
    (h : recordStepUpFailure db user session now = .ok (outcome, db')) :
    PasskeyTablesKept db db' := by
  obtain ⟨event, db₁, log, hbody, rfl⟩ := classA_eq_ok h
  simp only [Sessions.incrementStepUpFailure, bind_eq_ok, require_eq_ok, pure_eq_ok] at hbody
  obtain ⟨⟨count, db₂⟩, ⟨s₀, -, hpair⟩, hrest⟩ := hbody
  obtain ⟨rfl, rfl⟩ := Prod.mk.inj hpair
  split at hrest
  · cases hrest
    exact ⟨rfl, rfl, rfl⟩
  · cases hrest
    exact ⟨rfl, rfl, rfl⟩

/-- L05 finds its ceremony and deletes it. -/
theorem completeStepUp_consumed {pendingId : WebauthnPendingId} {gate : String} {now : DateTime}
    {u : Unit} (h : completeStepUp db user session (.webauthn pendingId) gate now = .ok (u, db')) :
    (∃ r ∈ db.webauthnPending, r.id = pendingId) ∧
      ∃ webauthnPending sessions log,
        (∀ r ∈ webauthnPending, r ∈ db.webauthnPending ∧ r.id ≠ pendingId) ∧
        db' = { db with webauthnPending, sessions, auditLog := log } := by
  obtain ⟨event, db₁, log, hbody, rfl⟩ := classA_eq_ok h
  simp only [StepUpProof.apply, WebauthnPending.consumeStepUp, bind_eq_ok, ensure_eq_ok,
    pure_eq_ok, Prod.mk.injEq] at hbody
  obtain ⟨-, -, db₂, ⟨-, hfound, rfl⟩, -, -, rfl⟩ := hbody
  obtain ⟨row, hget, hmatching⟩ := (Option.any_eq_true _ _).mp hfound
  obtain ⟨hmem, hid⟩ := Table.get?_eq_some.mp hget
  refine ⟨⟨row, hmem, hid⟩, _, _, _, fun r hr => ?_, rfl⟩
  obtain ⟨hr, hkept⟩ := Table.mem_delete.mp hr
  refine ⟨hr, fun hsame => ?_⟩
  have hrow : r = row := Table.eq_of_key_eq hr hmem (hsame.trans hid.symm)
  subst hrow
  rw [hmatching, hsame] at hkept
  simp at hkept

end Commands

/-! ## F03 -/

section Federated

variable {P : Primitives} {key : MasterKey} {db db' : Database}
  {pendingId : FederationMfaPendingId} {proof : Option F03Proof} {sessionId : SessionId}
  {now : DateTime} {outcome : F03Outcome}

/-- The local ceremonies stay. -/
theorem completeFederatedMfa_pending
    (h : completeFederatedMfa P key db pendingId proof sessionId now = .ok (outcome, db')) :
    db'.webauthnPending = db.webauthnPending := by
  obtain ⟨row, -, -, heffect⟩ := completeFederatedMfa_ok h
  cases heffect with
  | invalidated reason t hrow hdb => rw [hdb]
  | rejected reason t ceremonies hcount hrow hdb => rw [hdb]
  | exhausted reason t ceremonies hcount hrow hdb => rw [hdb]
  | promoted method evicted t hcount hrow hsession hdb =>
    obtain ⟨userTotp, webauthnCredentials, ceremonies, federationLink, users, sessions, rfl⟩ := hdb
    rfl

private theorem spend_tables {d d' : Database} {user : UserId} {p : F03Proof}
    (h : p.spend user now d = .ok d') :
    (∀ r ∈ d'.federationWebauthnCeremony, r ∈ d.federationWebauthnCeremony) ∧
      ∀ c' ∈ d'.webauthnCredentials, ∃ c ∈ d.webauthnCredentials, c.id = c'.id ∧
        (c'.passkeyEnc = c.passkeyEnc ∨
          ∃ ceremonyId, p = .webauthn ceremonyId c.id c.passkeyEnc c'.passkeyEnc) := by
  cases p with
  | totp | recovery =>
    obtain ⟨userTotp, rfl⟩ := UserTotp.updateWhere_ok h
    exact ⟨fun r hr => hr, fun c hc => ⟨c, hc, rfl, .inl rfl⟩⟩
  | webauthn ceremonyId credentialId expectedSealed newSealed =>
    simp only [F03Proof.spend, WebauthnCredentials.swapPasskey, FederationWebauthnCeremony.consume,
      bind_eq_ok, ensure_eq_ok, pure_eq_ok] at h
    obtain ⟨-, ⟨-, -, rfl⟩, rfl⟩ := h
    refine ⟨fun r hr => (Table.mem_delete.mp hr).1, fun c' hc' => ?_⟩
    dsimp only at hc'
    obtain ⟨c, hc, rfl⟩ := Table.mem_update.mp hc'
    refine ⟨c, hc, ?_⟩
    split
    · rename_i hswapped
      simp only [Bool.and_eq_true, beq_iff_eq] at hswapped
      obtain ⟨rfl, rfl⟩ := hswapped
      exact ⟨rfl, .inr ⟨ceremonyId, rfl⟩⟩
    · exact ⟨rfl, .inl rfl⟩
  | rejected reason =>
    cases h
    exact ⟨fun r hr => hr, fun c hc => ⟨c, hc, rfl, .inl rfl⟩⟩

/-- A passkey keeps its blob, or holds the new blob of the proof in place of the expected one. -/
theorem completeFederatedMfa_passkeys
    (h : completeFederatedMfa P key db pendingId proof sessionId now = .ok (outcome, db')) :
    ∀ c' ∈ db'.webauthnCredentials, ∃ c ∈ db.webauthnCredentials, c.id = c'.id ∧
      (c'.passkeyEnc = c.passkeyEnc ∨
        ∃ ceremonyId, proof = some (.webauthn ceremonyId c.id c.passkeyEnc c'.passkeyEnc)) := by
  have hsame : db'.webauthnCredentials = db.webauthnCredentials →
      ∀ c' ∈ db'.webauthnCredentials, ∃ c ∈ db.webauthnCredentials, c.id = c'.id ∧
        (c'.passkeyEnc = c.passkeyEnc ∨
          ∃ ceremonyId, proof = some (.webauthn ceremonyId c.id c.passkeyEnc c'.passkeyEnc)) := by
    intro heq c hc
    exact ⟨c, heq ▸ hc, rfl, .inl rfl⟩
  obtain ⟨row, -, -, heffect⟩ := completeFederatedMfa_ok h
  cases heffect with
  | invalidated reason t hrow hdb => exact hsame (by rw [hdb])
  | rejected reason t ceremonies hcount hrow hdb => exact hsame (by rw [hdb])
  | exhausted reason t ceremonies hcount hrow hdb => exact hsame (by rw [hdb])
  | promoted method evicted =>
    obtain ⟨row', p, method', db₁, -, -, rfl, -, hspent, hpromote⟩ := completeFederatedMfa_spent h
    obtain ⟨-, -, federationLink, users, sessions, rfl⟩ := promote_ok hpromote
    intro c' hc'
    obtain ⟨c, hc, hid, hblob⟩ := (spend_tables hspent).2 c' hc'
    refine ⟨c, hc, hid, ?_⟩
    rcases hblob with hkept | ⟨ceremonyId, rfl⟩
    · exact .inl hkept
    · exact .inr ⟨ceremonyId, rfl⟩

private theorem invalidateWith_ceremonies {reason : InvalidatedReason}
    (h : invalidateWith db pendingId reason = .ok (outcome, db')) :
    db'.federationWebauthnCeremony = db.federationWebauthnCeremony := by
  simp only [invalidateWith, bind_eq_ok, ensure_eq_ok, pure_eq_ok, Prod.mk.injEq] at h
  obtain ⟨-, -, -, rfl⟩ := h
  rfl

private theorem rejectOrExhaust_ceremonies {reason : MfaRejectionReason}
    (h : rejectOrExhaust db pendingId reason = .ok (outcome, db')) :
    ∀ r ∈ db'.federationWebauthnCeremony, r ∈ db.federationWebauthnCeremony := by
  have hcounted : ∀ {increment db₁},
      FederationMfaPending.incrementFailure db pendingId = (increment, db₁) →
        db₁.federationWebauthnCeremony = db.federationWebauthnCeremony := by
    intro increment db₁ hcount
    unfold FederationMfaPending.incrementFailure at hcount
    dsimp only at hcount
    split at hcount
    · cases hcount
      rfl
    · cases hcount
      rfl
  unfold rejectOrExhaust at h
  split at h
  · rename_i failureCount db₁ hcount
    split at h
    · cases h
      exact fun r hr => hcounted hcount ▸ (Table.mem_delete.mp hr).1
    · cases h
      exact fun r hr => hcounted hcount ▸ hr
  · rename_i db₁ hcount
    cases h
    exact fun r hr => hcounted hcount ▸ (Table.mem_delete.mp hr).1
  · cases h

private theorem evaluateProof_ceremonies {row : FederationMfaPendingRow}
    (h : evaluateProof db row proof sessionId now = .ok (outcome, db')) :
    ∀ r ∈ db'.federationWebauthnCeremony, r ∈ db.federationWebauthnCeremony := by
  rcases evaluateProof_cases h with ⟨reason, h⟩ | ⟨reason, h⟩ | ⟨p, method, -, -, h⟩
  · exact fun r hr => invalidateWith_ceremonies h ▸ hr
  · exact rejectOrExhaust_ceremonies h
  · simp only [completeAndPromote, bind_eq_ok, ensure_eq_ok] at h
    obtain ⟨-, -, db₁, hspent, hpromote⟩ := h
    obtain ⟨-, -, federationLink, users, sessions, rfl⟩ := promote_ok hpromote
    exact (spend_tables hspent).1

/-- F03 adds no ceremony. -/
theorem completeFederatedMfa_ceremonies
    (h : completeFederatedMfa P key db pendingId proof sessionId now = .ok (outcome, db')) :
    ∀ r ∈ db'.federationWebauthnCeremony, r ∈ db.federationWebauthnCeremony := by
  simp only [completeFederatedMfa, bind_eq_ok, require_eq_ok, ensure_eq_ok] at h
  obtain ⟨row, -, -, -, -, -, hrest⟩ := h
  split at hrest
  · exact fun r hr => invalidateWith_ceremonies hrest ▸ hr
  · simp only [bind_eq_ok] at hrest
    obtain ⟨drift, -, hrest⟩ := hrest
    split at hrest
    · exact fun r hr => invalidateWith_ceremonies hrest ▸ hr
    · exact evaluateProof_ceremonies hrest

/-- A promotion with a passkey finds its ceremony and deletes it. -/
theorem completeFederatedMfa_consumed {ceremonyId : CeremonyId}
    {credentialId : WebauthnCredentialId} {expectedSealed newSealed : Bytes} {session : SessionRow}
    {evicted : Nat} {method : String}
    (h : completeFederatedMfa P key db pendingId
      (some (.webauthn ceremonyId credentialId expectedSealed newSealed)) sessionId now =
        .ok (.promoted session evicted method, db')) :
    (∃ r ∈ db.federationWebauthnCeremony, r.id = ceremonyId) ∧
      ∀ r ∈ db'.federationWebauthnCeremony, r.id ≠ ceremonyId := by
  constructor
  · simp only [completeFederatedMfa, bind_eq_ok, require_eq_ok, ensure_eq_ok] at h
    obtain ⟨row, -, -, -, -, -, hrest⟩ := h
    split at hrest
    · exact absurd hrest invalidateWith_notPromoted
    · simp only [bind_eq_ok] at hrest
      obtain ⟨drift, -, hrest⟩ := hrest
      split at hrest
      · exact absurd hrest invalidateWith_notPromoted
      · simp only [evaluateProof] at hrest
        split at hrest
        · exact absurd hrest invalidateWith_notPromoted
        · rename_i hfound
          simp only [Bool.not_eq_true', Bool.not_eq_false] at hfound
          obtain ⟨r, hfind, hlive⟩ := (Option.any_eq_true _ _).mp hfound
          simp only [Bool.and_eq_true, beq_iff_eq] at hlive
          exact ⟨r, (Table.mem_of_find? hfind).1, hlive.1⟩
  · obtain ⟨row, p, method', db₁, -, -, hproof, -, hspent, hpromote⟩ :=
      completeFederatedMfa_spent h
    cases hproof
    obtain ⟨-, -, federationLink, users, sessions, rfl⟩ := promote_ok hpromote
    simp only [F03Proof.spend, FederationWebauthnCeremony.consume, bind_eq_ok, pure_eq_ok] at hspent
    obtain ⟨db₂, -, rfl⟩ := hspent
    intro r hr
    simpa using (Table.mem_delete.mp hr).2

end Federated

end SuiId
