import SuiId.Store.Accounts

/-!
# Signing keys

K01 retires the active key and inserts its successor in one transaction; K03 deletes a retired one.
A retired key stays published, so that the tokens it signed can be verified.
-/

namespace SuiId

open Lib Lib.Result

namespace SigningKeys

/-- `rotate_atomic_within_tx`. -/
def rotateAtomic (db : Database) (newId : Nat) (algorithm : String)
    (privateKeySealed publicKey : Bytes) (now : DateTime) : StoreResult Database := do
  let retired := db.signingKeys.update (fun k => k.isActive) fun k =>
    { k with isActive := false, rotatedAt := some now }
  let signingKeys ← require (retired.insert?
    { id := newId, algorithm, privateKeyEnc := privateKeySealed, publicKey, isActive := true
      createdAt := now, rotatedAt := none }) .db
  pure { db with signingKeys }

/-- `delete_within_tx`: the active key stays. -/
def delete (db : Database) (id : Nat) : StoreResult Database := do
  let k ← require (db.signingKeys.get? id) .notFound
  ensure (!k.isActive) .conflict
  pure { db with signingKeys := db.signingKeys.delete fun k => k.id == id }

end SigningKeys

/-- K01: rotate the signing key, for an administrator whose session is still good. -/
def rotateSigningKey (db : Database) (admin : UserId) (session : SessionId) (newId : Nat)
    (algorithm : String) (privateKeySealed publicKey : Bytes) (reason : Option String)
    (now : DateTime) : StoreResult (Unit × Database) :=
  classA (some admin) do
    let stepUp ← sessionStepUpEvidence db session admin now
    let db ← SigningKeys.rotateAtomic db newId algorithm privateKeySealed publicKey now
    pure ((), ⟨"signing_key.rotate", some (toString newId), .ok,
      [("algorithm", algorithm)] ++ reasonAttribute reason ++
        [("step_up", stepUp.asAttribute)], ["step_up"]⟩, db)

/-- K03: delete a retired key. -/
def deleteSigningKey (db : Database) (admin : UserId) (target : Nat) (reason : Option String) :
    StoreResult (Unit × Database) :=
  classA (some admin) do
    let db ← SigningKeys.delete db target
    pure ((), ⟨"signing_key.delete", some (toString target), .ok, reasonAttribute reason, []⟩, db)

/-! ## What a committed command did -/

variable {db db' : Database} {newId : Nat} {algorithm : String} {privateKeySealed publicKey : Bytes}
  {now : DateTime}

theorem rotateSigningKey_ok {admin : UserId} {session : SessionId} {reason : Option String}
    {u : Unit}
    (h : rotateSigningKey db admin session newId algorithm privateKeySealed publicKey reason now =
      .ok (u, db')) :
    (∃ stepUp, sessionStepUpEvidence db session admin now = .ok stepUp) ∧
      ∃ db₁ log, SigningKeys.rotateAtomic db newId algorithm privateKeySealed publicKey now =
        .ok db₁ ∧ db' = { db₁ with auditLog := log } := by
  obtain ⟨event, db₁, log, hbody, rfl⟩ := classA_eq_ok h
  simp only [bind_eq_ok, pure_eq_ok, Prod.mk.injEq] at hbody
  obtain ⟨stepUp, hstepUp, db₂, hrotate, -, -, rfl⟩ := hbody
  exact ⟨⟨stepUp, hstepUp⟩, db₂, log, hrotate, rfl⟩

theorem SigningKeys.rotateAtomic_ok
    (h : rotateAtomic db newId algorithm privateKeySealed publicKey now = .ok db') :
    ∃ signingKeys, db' = { db with signingKeys } := by
  simp only [rotateAtomic, bind_eq_ok, require_eq_ok, pure_eq_ok] at h
  obtain ⟨signingKeys, -, rfl⟩ := h
  exact ⟨signingKeys, rfl⟩

end SuiId
