import SuiId.Store.Factors
import SuiId.Store.Recovery

/-!
# The TOTP row of an account

`user_totp` has at most one row per user.  `Database.totpOf` reads it, and `TotpWrite.Takes`
lists what the code ever does to it, with the guard of each `UPDATE`:

* `enroll`: `upsert_pending`, whatever was there;
* `confirm`: U12, for a row that is not enabled;
* `advance`: the replay cursor in L02, L05 and F03, forwards only;
* `swap`: the recovery codes in L02 and F03, by comparing the sealed blob;
* `replaceCodes`: U14;
* `remove`: U13 and U07.

Each command below is one of these writes to the row of one user.
-/

namespace SuiId

open Lib Lib.Result

/-- The TOTP row of a user. -/
def Database.totpOf (db : Database) (user : UserId) : Option UserTotpRow := db.userTotp.get? user

/-- What a command does to the TOTP row of a user. -/
inductive TotpWrite where
  | enroll (secretEnc : Bytes) (now : DateTime)
  | confirm (sealedRecoveryCodes : Bytes) (step : Int) (now : DateTime)
  | advance (step : Int)
  | swap (expectedSealed newSealed : Bytes)
  | replaceCodes (sealedRecoveryCodes : Bytes)
  | remove
deriving DecidableEq

/-- The row of an enrolment that waits for its first code. -/
def pendingEnrollment (user : UserId) (secretEnc : Bytes) (now : DateTime) : UserTotpRow where
  userId := user
  secretEnc := secretEnc
  enabled := false
  recoveryCodesEnc := none
  lastUsedStep := 0
  createdAt := now
  confirmedAt := none

/-- The row before a write and after it. -/
inductive TotpWrite.Takes (user : UserId) :
    TotpWrite → Option UserTotpRow → Option UserTotpRow → Prop where
  | enroll (secretEnc : Bytes) (now : DateTime) (before : Option UserTotpRow) :
      Takes user (.enroll secretEnc now) before (some (pendingEnrollment user secretEnc now))
  | confirm (sealedRecoveryCodes : Bytes) (step : Int) (now : DateTime) (r : UserTotpRow)
      (hdisabled : r.enabled = false) :
      Takes user (.confirm sealedRecoveryCodes step now) (some r)
        (some { r with
          enabled := true, recoveryCodesEnc := some sealedRecoveryCodes, confirmedAt := some now
          lastUsedStep := step })
  | advance (step : Int) (r : UserTotpRow) (henabled : r.enabled = true)
      (hstep : r.lastUsedStep < step) :
      Takes user (.advance step) (some r) (some { r with lastUsedStep := step })
  | swap (expectedSealed newSealed : Bytes) (r : UserTotpRow) (henabled : r.enabled = true)
      (hcodes : r.recoveryCodesEnc = some expectedSealed) :
      Takes user (.swap expectedSealed newSealed) (some r)
        (some { r with recoveryCodesEnc := some newSealed })
  | replaceCodes (sealedRecoveryCodes : Bytes) (r : UserTotpRow) (henabled : r.enabled = true) :
      Takes user (.replaceCodes sealedRecoveryCodes) (some r)
        (some { r with recoveryCodesEnc := some sealedRecoveryCodes })
  | remove (before : Option UserTotpRow) : Takes user .remove before none

/-- How many enrolments the write begins. -/
def TotpWrite.begins : TotpWrite → Nat
  | .enroll .. => 1
  | _ => 0

variable {user : UserId} {db db' : Database} {now : DateTime} {u : Unit}
variable {write : TotpWrite} {db₁ db₂ : Database} {sealedRecoveryCodes : Bytes} {step : Int}
  {session : SessionId} {proof : SecondFactorProof}

/-- Within an enrolment the secret stays. -/
theorem TotpWrite.Takes.sameSecret {before : Option UserTotpRow} {r : UserTotpRow}
    (h : write.Takes user before (some r)) (hbegins : write.begins = 0) :
    ∃ r₀, before = some r₀ ∧ r.secretEnc = r₀.secretEnc := by
  cases h with
  | enroll secretEnc now => cases hbegins
  | confirm sealedRecoveryCodes step now r₀ hdisabled | advance step r₀ henabled hstep
  | swap expectedSealed newSealed r₀ henabled hcodes
  | replaceCodes sealedRecoveryCodes r₀ henabled => exact ⟨r₀, rfl, rfl⟩

/-- The write was made to the row of the user, and to no other. -/
def TotpWritten (db db' : Database) (user : UserId) (write : TotpWrite) : Prop :=
  ∃ after, write.Takes user (db.totpOf user) after ∧
    db'.totpOf = Function.update db.totpOf user after

/-! ## Statements -/

theorem totpOf_congr (h : db'.userTotp = db.userTotp) :
    db'.totpOf = db.totpOf := by
  funext user
  rw [Database.totpOf, Database.totpOf, h]

/-- The rest of a transaction touches no TOTP row. -/
theorem TotpWritten.of_eq (h : TotpWritten db₁ db₂ user write)
    (hbefore : db₁.userTotp = db.userTotp) (hafter : db'.userTotp = db₂.userTotp) :
    TotpWritten db db' user write := by
  obtain ⟨after, htakes, hrows⟩ := h
  rw [totpOf_congr hbefore] at htakes hrows
  exact ⟨after, htakes, (totpOf_congr hafter).trans hrows⟩

namespace UserTotp

private theorem updateWhere_totp {db db' : Database} {user : UserId} {p : UserTotpRow → Bool}
    {f : UserTotpRow → UserTotpRow} {hf : ∀ r, (f r).userId = r.userId}
    (h : updateWhere db user p f hf = .ok db') :
    ∃ r, db.totpOf user = some r ∧ p r = true ∧
      db'.totpOf = Function.update db.totpOf user (some (f r)) := by
  simp only [updateWhere, bind_eq_ok, ensure_eq_ok, pure_eq_ok, Option.any_eq_true] at h
  obtain ⟨-, ⟨r, hget, hp⟩, rfl⟩ := h
  have huser : r.userId = user := (Table.get?_eq_some.mp hget).2
  refine ⟨r, hget, hp, ?_⟩
  funext k
  by_cases hk : k = user
  · subst hk
    rw [Function.update_self, Database.totpOf, Table.get?_update, hget, Option.map_some,
      if_pos (by simp [huser, hp])]
  · rw [Function.update_of_ne hk, Database.totpOf, Table.get?_update, Database.totpOf]
    cases hother : db.userTotp.get? k with
    | none => rfl
    | some r' =>
      have huser' : r'.userId = k := (Table.get?_eq_some.mp hother).2
      rw [Option.map_some, if_neg (by simp [huser', hk])]

theorem advanceLastUsedStep_totp {db db' : Database} {user : UserId} {step : Int}
    (h : advanceLastUsedStep db user step = .ok db') :
    TotpWritten db db' user (.advance step) := by
  obtain ⟨r, hget, hp, hrows⟩ := updateWhere_totp h
  simp only [Bool.and_eq_true, decide_eq_true_eq] at hp
  refine ⟨_, ?_, hrows⟩
  rw [hget]
  exact .advance step r hp.1 hp.2

theorem swapRecoveryCodes_totp {db db' : Database} {user : UserId}
    {expectedSealed newSealed : Bytes}
    (h : swapRecoveryCodes db user expectedSealed newSealed = .ok db') :
    TotpWritten db db' user (.swap expectedSealed newSealed) := by
  obtain ⟨r, hget, hp, hrows⟩ := updateWhere_totp h
  simp only [Bool.and_eq_true, beq_iff_eq] at hp
  refine ⟨_, ?_, hrows⟩
  rw [hget]
  exact .swap expectedSealed newSealed r hp.1 hp.2

/-- Deleting the row of a user. -/
private theorem delete_totp {db db' : Database} {user : UserId}
    (h : db'.userTotp = db.userTotp.delete fun r => r.userId == user) :
    TotpWritten db db' user .remove := by
  refine ⟨none, .remove _, ?_⟩
  funext k
  rw [Database.totpOf, h, Table.get?_delete]
  by_cases hk : k = user
  · subst hk
    rw [Function.update_self]
    cases hget : db.userTotp.get? k with
    | none => rfl
    | some r => simp [(Table.get?_eq_some.mp hget).2]
  · rw [Function.update_of_ne hk, Database.totpOf]
    cases hget : db.userTotp.get? k with
    | none => rfl
    | some r => simp [(Table.get?_eq_some.mp hget).2, hk]

theorem upsertPending_totp {db db' : Database} {user : UserId} {secretEnc : Bytes} {now : DateTime}
    (h : upsertPending db user secretEnc now = .ok db') :
    TotpWritten db db' user (.enroll secretEnc now) := by
  simp only [upsertPending, bind_eq_ok, ensure_eq_ok, pure_eq_ok] at h
  obtain ⟨-, -, rfl⟩ := h
  refine ⟨_, .enroll secretEnc now _, ?_⟩
  funext k
  rw [Database.totpOf, Table.get?_upsert]
  by_cases hk : user = k
  · subst hk
    rw [if_pos rfl, Function.update_self, pendingEnrollment]
  · rw [if_neg hk, Function.update_of_ne (Ne.symm hk), Database.totpOf]

end UserTotp

/-! ## Commands -/

/-- U12. -/
theorem confirmTotpEnrollment_totp
    (h : confirmTotpEnrollment db user sealedRecoveryCodes step now = .ok (u, db')) :
    TotpWritten db db' user (.confirm sealedRecoveryCodes step now) := by
  obtain ⟨event, db₁, log, hbody, rfl⟩ := classA_eq_ok h
  simp only [bind_eq_ok, pure_eq_ok, Prod.mk.injEq] at hbody
  obtain ⟨db₂, hconfirm, -, -, rfl⟩ := hbody
  obtain ⟨r, hget, hp, hrows⟩ := UserTotp.updateWhere_totp hconfirm
  refine TotpWritten.of_eq ⟨_, ?_, hrows⟩ rfl rfl
  rw [hget]
  exact .confirm sealedRecoveryCodes step now r (by simpa using hp)

/-- U13. -/
theorem disableTotp_totp (h : disableTotp db user = .ok (u, db')) :
    TotpWritten db db' user .remove := by
  obtain ⟨event, db₁, log, hbody, rfl⟩ := classA_eq_ok h
  simp only [bind_eq_ok, pure_eq_ok, Prod.mk.injEq] at hbody
  obtain ⟨-, -, -, -, rfl⟩ := hbody
  exact UserTotp.delete_totp rfl

/-- U14. -/
theorem regenerateRecoveryCodes_totp
    (h : regenerateRecoveryCodes db user sealedRecoveryCodes = .ok (u, db')) :
    TotpWritten db db' user (.replaceCodes sealedRecoveryCodes) := by
  obtain ⟨event, db₁, log, hbody, rfl⟩ := classA_eq_ok h
  simp only [bind_eq_ok, pure_eq_ok, Prod.mk.injEq] at hbody
  obtain ⟨db₂, hset, -, -, rfl⟩ := hbody
  obtain ⟨r, hget, hp, hrows⟩ := UserTotp.updateWhere_totp hset
  refine TotpWritten.of_eq ⟨_, ?_, hrows⟩ rfl rfl
  rw [hget]
  exact .replaceCodes sealedRecoveryCodes r hp

/-- U07 on the web. -/
theorem adminResetMfa_totp {admin : UserId} {target : UserId} {reason : Option String}
    {removed : Bool × Nat}
    (h : adminResetMfa db admin session target reason now = .ok (removed, db')) :
    TotpWritten db db' target .remove := by
  obtain ⟨event, db₁, log, hbody, rfl⟩ := classA_eq_ok h
  simp only [removeMfa, bind_eq_ok, pure_eq_ok, Prod.mk.injEq] at hbody
  obtain ⟨stepUp, -, ⟨removed', db₂⟩, ⟨role, -, -, rfl⟩, -, -, rfl⟩ := hbody
  exact UserTotp.delete_totp rfl

/-- What a proof of a second factor writes. -/
def SecondFactorProof.totpWrite (user : UserId) : SecondFactorProof → Option (UserId × TotpWrite)
  | .totp step => some (user, .advance step)
  | .recoveryCode expectedSealed newSealed => some (user, .swap expectedSealed newSealed)
  | .webauthn => none

/-- The write, or no change. -/
def TotpEffect (db db' : Database) : Option (UserId × TotpWrite) → Prop
  | some (user, write) => TotpWritten db db' user write
  | none => db'.totpOf = db.totpOf

theorem TotpEffect.of_eq {write : Option (UserId × TotpWrite)} (h : TotpEffect db₁ db₂ write)
    (hbefore : db₁.userTotp = db.userTotp) (hafter : db'.userTotp = db₂.userTotp) :
    TotpEffect db db' write := by
  cases write with
  | some write => exact TotpWritten.of_eq h hbefore hafter
  | none => exact ((totpOf_congr hafter).trans h).trans (totpOf_congr hbefore)

theorem SecondFactorProof.apply_totp (h : proof.apply db user = .ok db') :
    TotpEffect db db' (proof.totpWrite user) := by
  cases proof with
  | totp step => exact UserTotp.advanceLastUsedStep_totp h
  | recoveryCode expectedSealed newSealed => exact UserTotp.swapRecoveryCodes_totp h
  | webauthn =>
    cases h
    rfl

/-- L02. -/
theorem completeSecondFactor_totp {pendingId : PendingMfaId} {session session' : SessionRow}
    (h : completeSecondFactor db pendingId session proof = .ok (session', db')) :
    TotpEffect db db' (proof.totpWrite session.userId) := by
  obtain ⟨event, db₁, log, hbody, rfl⟩ := classA_eq_ok h
  simp only [bind_eq_ok, pure_eq_ok, Prod.mk.injEq] at hbody
  obtain ⟨db₂, hconsume, db₃, happly, db₄, hlogin, db₅, hinsert, -, -, rfl⟩ := hbody
  obtain ⟨-, loginPendingMfa, -, rfl⟩ := LoginPendingMfa.consume_ok hconsume
  obtain ⟨-, users, -, rfl⟩ := Users.recordSecondFactorLogin_ok hlogin
  obtain ⟨-, sessions, heq⟩ := openedSession_eq hinsert
  exact (SecondFactorProof.apply_totp happly).of_eq rfl (by rw [heq])

/-- L05 with a TOTP code. -/
theorem completeStepUp_totp {gate : String}
    (h : completeStepUp db user session (.totp step) gate now = .ok (u, db')) :
    TotpWritten db db' user (.advance step) := by
  obtain ⟨event, db₁, log, hbody, rfl⟩ := classA_eq_ok h
  simp only [bind_eq_ok, pure_eq_ok, Prod.mk.injEq] at hbody
  obtain ⟨-, -, db₂, happly, -, -, rfl⟩ := hbody
  exact (UserTotp.advanceLastUsedStep_totp happly).of_eq rfl rfl

/-- The proof of a local sign-in that a federated one amounts to. -/
def F03Proof.secondFactor : F03Proof → Option SecondFactorProof
  | .totp step => some (.totp step)
  | .recovery expectedSealed newSealed => some (.recoveryCode expectedSealed newSealed)
  | .webauthn _ _ _ _ => some .webauthn
  | .rejected _ => none

theorem F03Proof.spend_totp {p : F03Proof} (h : p.spend user now db = .ok db') :
    TotpEffect db db' (p.secondFactor.bind fun p => p.totpWrite user) := by
  cases p with
  | totp step => exact UserTotp.advanceLastUsedStep_totp h
  | recovery expectedSealed newSealed => exact UserTotp.swapRecoveryCodes_totp h
  | webauthn ceremonyId credentialId expectedSealed newSealed =>
    simp only [F03Proof.spend, WebauthnCredentials.swapPasskey, FederationWebauthnCeremony.consume,
      bind_eq_ok, ensure_eq_ok, pure_eq_ok] at h
    obtain ⟨-, ⟨-, -, rfl⟩, rfl⟩ := h
    exact totpOf_congr rfl
  | rejected reason =>
    cases h
    rfl

/-- F03 writes the row of the user it signs in. -/
theorem completeFederatedMfa_totp {P : Primitives} {key : MasterKey}
    {pendingId : FederationMfaPendingId} {proof : Option F03Proof} {sessionId : SessionId}
    {session : SessionRow} {evicted : Nat} {text : String}
    (h : completeFederatedMfa P key db pendingId proof sessionId now =
      .ok (.promoted session evicted text, db')) :
    TotpEffect db db'
      ((proof.bind F03Proof.secondFactor).bind fun p => p.totpWrite session.userId) := by
  obtain ⟨row, p, method, db₁, -, -, rfl, -, hspent, hpromote⟩ := completeFederatedMfa_spent h
  obtain ⟨⟨evicted', houtcome⟩, -, federationLink, users, sessions, rfl⟩ := promote_ok hpromote
  cases houtcome
  exact (F03Proof.spend_totp hspent).of_eq rfl rfl

end SuiId
