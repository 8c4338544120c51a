import SuiId.Store.Users

/-!
# Sign-in commands

The transactions that turn a verified factor into a session: password (L01),
second factor (L02) and directory (L03), and the ones that count a failure and
lock the account: a wrong password (U22) and a wrong second factor (L07).
Verification happens before them, outside any transaction; each one re-reads
what it depends on.
-/

namespace SuiId

open Lib Lib.Result

namespace LoginPendingMfa

/-- `insert`.  The table refers to `users`. -/
def insert (db : Database) (row : LoginPendingMfaRow) : StoreResult Database := do
  ensure (db.users.get? row.userId).isSome .db
  let loginPendingMfa ← require (db.loginPendingMfa.insert? row) .db
  pure { db with loginPendingMfa }

/-- `consume_within_tx`: an unexpired row of this user, deleted. -/
def consume (db : Database) (id : PendingMfaId) (user : UserId) (now : DateTime) :
    StoreResult Database := do
  let matching := fun r : LoginPendingMfaRow => r.userId == user && now < r.expiresAt
  ensure ((db.loginPendingMfa.get? id).any matching) .notFound
  pure { db with
    loginPendingMfa := db.loginPendingMfa.delete fun r => r.id == id && matching r }

/-- `delete`, best effort. -/
def delete (db : Database) (id : PendingMfaId) : Database :=
  { db with loginPendingMfa := db.loginPendingMfa.delete fun r => r.id == id }

/-- `purge_expired`. -/
def purgeExpired (db : Database) (now : DateTime) : Database :=
  { db with loginPendingMfa := db.loginPendingMfa.delete fun r => r.expiresAt < now }

/-- `delete_all_for_user_within_tx`. -/
def deleteAllForUser (db : Database) (user : UserId) : Database :=
  { db with loginPendingMfa := db.loginPendingMfa.delete fun r => r.userId == user }

end LoginPendingMfa

namespace UserTotp

/-- Its associated data. -/
def aad : Bytes := utf8 "sui-id/user_totp/v1"

/-- The associated data of the recovery codes. -/
def recoveryAad : Bytes := utf8 "sui-id/user_totp/recovery/v1"

/-- `UPDATE user_totp SET f WHERE user_id = ? AND p`, refused when no row
matches. -/
def updateWhere (db : Database) (user : UserId) (p : UserTotpRow → Bool)
    (f : UserTotpRow → UserTotpRow) (hf : ∀ r, (f r).userId = r.userId) :
    StoreResult Database := do
  ensure ((db.userTotp.get? user).any p) .notFound
  pure { db with userTotp := db.userTotp.update (fun r => r.userId == user && p r) f hf }

/-- `advance_last_used_step_within_tx`. -/
def advanceLastUsedStep (db : Database) (user : UserId) (step : Int) : StoreResult Database :=
  updateWhere db user (fun r => r.enabled && r.lastUsedStep < step)
    (fun r => { r with lastUsedStep := step }) fun _ => rfl

/-- `swap_recovery_codes_within_tx`. -/
def swapRecoveryCodes (db : Database) (user : UserId) (expectedSealed newSealed : Bytes) :
    StoreResult Database :=
  updateWhere db user (fun r => r.enabled && r.recoveryCodesEnc == some expectedSealed)
    (fun r => { r with recoveryCodesEnc := some newSealed }) fun _ => rfl

end UserTotp

/-- `SecondFactorProof`. -/
inductive SecondFactorProof where
  | totp (step : Int)
  | recoveryCode (expectedSealed newSealed : Bytes)
  | webauthn

/-- `SecondFactorProof::method`. -/
def SecondFactorProof.method : SecondFactorProof → String
  | .totp _ => "totp"
  | .recoveryCode _ _ => "recovery_code"
  | .webauthn => "webauthn"

/-- A recovery code does not count as a step-up. -/
def SecondFactorProof.fresh : SecondFactorProof → Bool
  | .recoveryCode _ _ => false
  | _ => true

/-- The guard of the factor. -/
def SecondFactorProof.apply (db : Database) (user : UserId) :
    SecondFactorProof → StoreResult Database
  | .totp step => UserTotp.advanceLastUsedStep db user step
  | .recoveryCode expectedSealed newSealed =>
    UserTotp.swapRecoveryCodes db user expectedSealed newSealed
  | .webauthn => pure db

/-- `set_step_up_method_within_tx`. -/
def setStepUpMethod (db : Database) (id : SessionId) (method : String) : Database :=
  { db with sessions := db.sessions.update (fun s => s.id == id) fun s =>
    { s with lastStepUpMethod := some method } }

/-- L01: a sign-in with a password. -/
def signInWithPassword (db : Database) (session : SessionRow) : StoreResult (Nat × Database) :=
  classA (some session.userId) do
    let now := session.createdAt
    let db ← Users.recordPasswordLogin db session.userId now
    let db ← Sessions.insert db session
    let (evicted, db) := Sessions.evictOverCap db session.userId now
    pure (evicted, ⟨"auth.login.success", some (toString session.userId), .ok,
      [("evicted", toString evicted)], []⟩, db)

/-- `EXTERNAL_ID_ATTRIBUTE_BYTES`. -/
def externalIdAttributeBytes : Nat := 255

/-- `truncate_utf8`: at most `max` bytes, cut between characters. -/
def truncateUtf8 (value : String) (max : Nat) : String :=
  String.ofList (value.toList.inits.foldl
    (fun best cs => if (String.ofList cs).utf8ByteSize ≤ max then cs else best) [])

/-- L03: a sign-in through a directory. -/
def signInFromDirectory (P : Primitives) (db : Database) (shadow : Users.LdapShadowData)
    (sourceSlug : String) (session : SessionRow) : StoreResult (Nat × Database) :=
  classA (some session.userId) do
    let now := session.createdAt
    let db ← Users.upsertLdapShadow P db shadow session.userId
    let db ← Users.recordPasswordLogin db session.userId now
    let db ← Sessions.insert db session
    let (evicted, db) := Sessions.evictOverCap db session.userId now
    pure (evicted, ⟨"auth.login.success", some (toString session.userId), .ok,
      [("evicted", toString evicted), ("source", sourceSlug),
        ("stable_id", truncateUtf8 shadow.externalStableId externalIdAttributeBytes)], []⟩, db)

/-- L08: a directory sign-in of a user with a second factor. -/
def signInFromDirectoryMfaRequired (P : Primitives) (db : Database)
    (shadow : Users.LdapShadowData) (pending : LoginPendingMfaRow) :
    StoreResult (LoginPendingMfaRow × Database) :=
  classA (some pending.userId) do
    let db ← Users.upsertLdapShadow P db shadow pending.userId
    let db ← LoginPendingMfa.insert db pending
    pure (pending, ⟨"auth.login.password_ok_mfa_required", some (toString pending.userId), .ok,
      [], []⟩, db)

/-- The session L02 inserts: fresh by method. -/
def SecondFactorProof.session (proof : SecondFactorProof) (session : SessionRow) : SessionRow :=
  { session with lastStepUpAt := if proof.fresh then some session.createdAt else none }

/-- L02: a completed second-factor sign-in. -/
def completeSecondFactor (db : Database) (pendingId : PendingMfaId) (session : SessionRow)
    (proof : SecondFactorProof) : StoreResult (SessionRow × Database) :=
  classA (some session.userId) do
    let now := session.createdAt
    let db ← LoginPendingMfa.consume db pendingId session.userId now
    let db ← proof.apply db session.userId
    let db ← Users.recordSecondFactorLogin db session.userId now
    let session := proof.session session
    let db ← Sessions.insert db session
    let db := if proof.fresh then setStepUpMethod db session.id proof.method else db
    let (evicted, db) := Sessions.evictOverCap db session.userId now
    pure (session, ⟨"auth.mfa.success", some (toString session.userId), .ok,
      [("method", proof.method), ("evicted", toString evicted)], []⟩, db)

/-! ## Failures and the lock -/

/-- `lockout_backoff`. -/
def lockoutBackoff (failures maxSecs : Int) : Option Int :=
  if failures ≤ 2 then none
  else
    let secs :=
      if failures = 3 then 30
      else if failures = 4 then 60
      else if failures = 5 then 5 * 60
      else if failures = 6 then 30 * 60
      else if failures = 7 then 2 * 60 * 60
      else if failures = 8 then 6 * 60 * 60
      else if failures = 9 then 12 * 60 * 60
      else 24 * 60 * 60
    some (min secs maxSecs)

/-- `UPDATE users SET locked_until = ? WHERE id = ?`. -/
def setLockedUntil (db : Database) (user : UserId) (until_ : DateTime) : Database :=
  { db with users := db.users.update (fun u => u.id == user) fun u =>
    { u with lockedUntil := some until_ } }

/-- U22: a wrong password, counted; from the third on the account is locked. -/
def recordLoginFailure (db : Database) (user : UserId) (maxLockoutSecs : Int) (now : DateTime) :
    StoreResult (Int × Database) :=
  classA none do
    let (count, db) ← Users.recordLoginFailure db user none
    match lockoutBackoff count maxLockoutSecs with
    | some window =>
      pure (count, ⟨"auth.lockout", some (toString user), .ok,
        [("count", toString count), ("locked_for_secs", toString window)], []⟩,
        setLockedUntil db user (now + seconds window))
    | none =>
      pure (count, ⟨"auth.login.failure", some (toString user), .ok,
        [("count", toString count)], []⟩, db)

/-- `SecondFactorFailureOutcome`. -/
structure SecondFactorFailureOutcome where
  count : Int
  locked : Bool
deriving DecidableEq

/-- L07: a wrong second factor, counted on the user.  At the threshold the
account is locked and its pending rows are deleted. -/
def recordSecondFactorFailure (db : Database) (user : UserId) (maxLockoutSecs : Int)
    (now : DateTime) : StoreResult (SecondFactorFailureOutcome × Database) :=
  classA (some user) do
    let (count, db) ← Users.incrementMfaFailure db user
    if count ≥ Users.mfaFailureLockoutThreshold then
      let db := LoginPendingMfa.deleteAllForUser db user
      let window := (lockoutBackoff count maxLockoutSecs).getD 30
      pure (⟨count, true⟩, ⟨"auth.mfa.lockout", some (toString user), .ok,
        [("count", toString count), ("locked_for_secs", toString window)], []⟩,
        setLockedUntil db user (now + seconds window))
    else
      pure (⟨count, false⟩, ⟨"auth.mfa.failure", some (toString user), .ok,
        [("count", toString count)], []⟩, db)

/-! ## What a committed command did -/

/-- No pending row was added or changed. -/
def LoginPendingMfa.NoneAdded (t t' : Table LoginPendingMfaRow.id) : Prop := ∀ r ∈ t', r ∈ t

theorem LoginPendingMfa.noneAdded_delete (t : Table LoginPendingMfaRow.id)
    (p : LoginPendingMfaRow → Bool) : NoneAdded t (t.delete p) :=
  fun _ hr => (Table.mem_delete.mp hr).1

variable {db db' : Database} {user : UserId} {now : DateTime} {proof : SecondFactorProof}
  {pendingId : PendingMfaId} {session session' : SessionRow} {maxLockoutSecs count : Int}
  {evicted : Nat} {P : Primitives} {shadow : Users.LdapShadowData} {sourceSlug : String}
  {row : LoginPendingMfaRow}

theorem LoginPendingMfa.consume_ok {id : PendingMfaId}
    (h : LoginPendingMfa.consume db id user now = .ok db') :
    (∃ r ∈ db.loginPendingMfa, r.id = id ∧ r.userId = user ∧ now < r.expiresAt) ∧
      ∃ loginPendingMfa, LoginPendingMfa.NoneAdded db.loginPendingMfa loginPendingMfa ∧
        db' = { db with loginPendingMfa } := by
  simp only [LoginPendingMfa.consume, bind_eq_ok, ensure_eq_ok, pure_eq_ok,
    Option.any_eq_true] at h
  obtain ⟨-, ⟨r, hget, hmatch⟩, rfl⟩ := h
  obtain ⟨hmem, hid⟩ := Table.get?_eq_some.mp hget
  simp only [Bool.and_eq_true, beq_iff_eq, decide_eq_true_eq] at hmatch
  exact ⟨⟨r, hmem, hid, hmatch.1, hmatch.2⟩, _, LoginPendingMfa.noneAdded_delete _ _, rfl⟩

theorem SecondFactorProof.apply_ok (h : proof.apply db user = .ok db') :
    ∃ userTotp, db' = { db with userTotp } := by
  cases proof with
  | totp step =>
    simp only [SecondFactorProof.apply, UserTotp.advanceLastUsedStep, UserTotp.updateWhere,
      bind_eq_ok, ensure_eq_ok, pure_eq_ok] at h
    obtain ⟨-, -, rfl⟩ := h
    exact ⟨_, rfl⟩
  | recoveryCode expectedSealed newSealed =>
    simp only [SecondFactorProof.apply, UserTotp.swapRecoveryCodes, UserTotp.updateWhere,
      bind_eq_ok, ensure_eq_ok, pure_eq_ok] at h
    obtain ⟨-, -, rfl⟩ := h
    exact ⟨_, rfl⟩
  | webauthn =>
    cases h
    exact ⟨db.userTotp, rfl⟩

/-- L02 consumed an unexpired pending row of the session's user, who is active
and not locked. -/
theorem completeSecondFactor_ok
    (h : completeSecondFactor db pendingId session proof = .ok (session', db')) :
    session' = proof.session session ∧
      (∃ r ∈ db.loginPendingMfa, r.id = pendingId ∧ r.userId = session.userId ∧
        session.createdAt < r.expiresAt) ∧
      (∃ u, db.users.get? session.userId = some u ∧ u.isDisabled = false ∧
        u.isDeleted = false ∧ Users.lockedAt u session.createdAt = false) ∧
      ∃ loginPendingMfa userTotp users sessions log,
        LoginPendingMfa.NoneAdded db.loginPendingMfa loginPendingMfa ∧
        Users.FlagsKept db.users users ∧ Sessions.RevokedKept db.sessions sessions ∧
        db' = { db with loginPendingMfa, userTotp, users, sessions, auditLog := log } := by
  obtain ⟨event, db₁, log, hbody, rfl⟩ := classA_eq_ok h
  simp only [bind_eq_ok, pure_eq_ok, Prod.mk.injEq] at hbody
  obtain ⟨db₂, hconsume, db₃, happly, db₄, hlogin, db₅, hinsert, hsession, -, rfl⟩ := hbody
  obtain ⟨hpending, loginPendingMfa, hnone, rfl⟩ := LoginPendingMfa.consume_ok hconsume
  obtain ⟨userTotp, rfl⟩ := SecondFactorProof.apply_ok happly
  obtain ⟨huser, users, hflags, rfl⟩ := Users.recordSecondFactorLogin_ok hlogin
  obtain ⟨sessions, hkept, rfl⟩ := Sessions.insert_ok hinsert
  refine ⟨hsession.symm, hpending, huser, loginPendingMfa, userTotp, users, ?_⟩
  split
  · have hevict := Sessions.evictOverCap_eq
      (setStepUpMethod { db with loginPendingMfa, userTotp, users, sessions }
        (proof.session session).id proof.method)
      (proof.session session).userId session.createdAt
    obtain ⟨sessions', hkept', heq⟩ := hevict
    have hmethod : Sessions.RevokedKept sessions
        (sessions.update (fun s => s.id == (proof.session session).id) fun s =>
          { s with lastStepUpMethod := some proof.method }) :=
      Sessions.revokedKept_update fun _ hrev => hrev
    exact ⟨sessions', log, hnone, hflags, (hkept.trans hmethod).trans hkept', by rw [heq]; rfl⟩
  · have hevict := Sessions.evictOverCap_eq
      { db with loginPendingMfa, userTotp, users, sessions }
      (proof.session session).userId session.createdAt
    obtain ⟨sessions', hkept', heq⟩ := hevict
    exact ⟨sessions', log, hnone, hflags, hkept.trans hkept', by rw [heq]⟩

theorem setLockedUntil_flags (db : Database) (user : UserId) (until_ : DateTime) :
    Users.FlagsKept db.users (setLockedUntil db user until_).users := by
  simp only [setLockedUntil]
  exact Users.flagsKept_update fun _ => ⟨rfl, rfl⟩

theorem recordSecondFactorFailure_ok {outcome : SecondFactorFailureOutcome}
    (h : recordSecondFactorFailure db user maxLockoutSecs now = .ok (outcome, db')) :
    ∃ loginPendingMfa users log, LoginPendingMfa.NoneAdded db.loginPendingMfa loginPendingMfa ∧
      Users.FlagsKept db.users users ∧
      db' = { db with loginPendingMfa, users, auditLog := log } := by
  obtain ⟨event, db₁, log, hbody, rfl⟩ := classA_eq_ok h
  simp only [bind_eq_ok] at hbody
  obtain ⟨⟨count, db₂⟩, hincrement, hbody⟩ := hbody
  obtain ⟨users, hflags, rfl⟩ := Users.incrementMfaFailure_ok hincrement
  split at hbody
  · cases hbody
    have hlock := setLockedUntil_flags
      (LoginPendingMfa.deleteAllForUser { db with users } user) user
      (now + seconds ((lockoutBackoff count maxLockoutSecs).getD 30))
    exact ⟨_, _, log, LoginPendingMfa.noneAdded_delete _ _, hflags.trans hlock, rfl⟩
  · cases hbody
    exact ⟨db.loginPendingMfa, users, log, fun _ hr => hr, hflags, rfl⟩

/-- A session is inserted, its step-up method written or not, and the oldest
sessions over the cap revoked. -/
theorem openedSession_eq {db db₁ : Database} {session : SessionRow} {stepUp : Bool}
    {method : String} {user : UserId} {now : DateTime}
    (hinsert : Sessions.insert db session = .ok db₁) :
    let db₂ := if stepUp then setStepUpMethod db₁ session.id method else db₁
    Sessions.Added db.sessions (Sessions.evictOverCap db₂ user now).2.sessions session ∧
      ∃ sessions, (Sessions.evictOverCap db₂ user now).2 = { db with sessions } := by
  obtain ⟨hadded, sessions, rfl⟩ := Sessions.insert_added hinsert
  intro db₂
  have hstepUp : db₂.sessions.rows.map Sessions.owner = sessions.rows.map Sessions.owner ∧
      ∃ sessions', db₂ = { db with sessions := sessions' } := by
    cases stepUp with
    | false => exact ⟨rfl, sessions, rfl⟩
    | true =>
      refine ⟨?_, _, rfl⟩
      show (setStepUpMethod _ _ _).sessions.rows.map Sessions.owner = _
      simp only [setStepUpMethod]
      exact Sessions.owners_update fun _ => rfl
  obtain ⟨howners, sessions', hdb₂⟩ := hstepUp
  refine ⟨hadded.of_owners ((Sessions.evictOverCap_owners db₂ user now).trans howners), ?_⟩
  obtain ⟨sessions'', -, hevict⟩ := Sessions.evictOverCap_eq db₂ user now
  rw [hevict, hdb₂]
  exact ⟨sessions'', rfl⟩

/-- A session is inserted and the oldest ones over the cap revoked. -/
theorem openedSession_plain {db db₁ : Database} {session : SessionRow} {user : UserId}
    {now : DateTime}
    (hinsert : Sessions.insert db session = .ok db₁) :
    Sessions.Added db.sessions (Sessions.evictOverCap db₁ user now).2.sessions session ∧
      ∃ sessions, (Sessions.evictOverCap db₁ user now).2 = { db with sessions } :=
  @openedSession_eq db db₁ session false "" user now hinsert

/-- The session is inserted where sessions and settings are those of `db`, and the oldest ones over
the cap are revoked. -/
def Inserted (db db' : Database) (session : SessionRow) (stepUp : Bool) (method : String) : Prop :=
  ∃ d d₁ log, Sessions.insert d session = .ok d₁ ∧ d.sessions = db.sessions ∧
    d.serverSettings = db.serverSettings ∧
    db' = { (Sessions.evictOverCap (if stepUp then setStepUpMethod d₁ session.id method else d₁)
      session.userId session.createdAt).2 with auditLog := log }

theorem Inserted.added {stepUp : Bool} {method : String}
    (h : Inserted db db' session stepUp method) :
    Sessions.Added db.sessions db'.sessions session := by
  obtain ⟨d, d₁, log, hinsert, hsessions, -, rfl⟩ := h
  rw [← hsessions]
  exact (openedSession_eq hinsert).1

/-- L02. -/
theorem completeSecondFactor_inserted
    (h : completeSecondFactor db pendingId session proof = .ok (session', db')) :
    Inserted db db' (proof.session session) proof.fresh proof.method := by
  obtain ⟨event, db₁, log, hbody, rfl⟩ := classA_eq_ok h
  simp only [bind_eq_ok, pure_eq_ok, Prod.mk.injEq] at hbody
  obtain ⟨db₂, hconsume, db₃, happly, db₄, hlogin, db₅, hinsert, -, -, rfl⟩ := hbody
  obtain ⟨-, loginPendingMfa, -, rfl⟩ := LoginPendingMfa.consume_ok hconsume
  obtain ⟨userTotp, rfl⟩ := SecondFactorProof.apply_ok happly
  obtain ⟨-, users, -, rfl⟩ := Users.recordSecondFactorLogin_ok hlogin
  exact ⟨_, db₅, log, hinsert, rfl, rfl, rfl⟩

/-- L01. -/
theorem signInWithPassword_inserted (h : signInWithPassword db session = .ok (evicted, db')) :
    Inserted db db' session false "" := by
  obtain ⟨event, db₁, log, hbody, rfl⟩ := classA_eq_ok h
  simp only [bind_eq_ok, pure_eq_ok, Prod.mk.injEq] at hbody
  obtain ⟨db₂, hlogin, db₃, hinsert, -, -, rfl⟩ := hbody
  obtain ⟨-, users, -, rfl⟩ := Users.recordPasswordLogin_ok hlogin
  exact ⟨_, db₃, log, hinsert, rfl, rfl, rfl⟩

/-- L03. -/
theorem signInFromDirectory_inserted
    (h : signInFromDirectory P db shadow sourceSlug session = .ok (evicted, db')) :
    Inserted db db' session false "" := by
  obtain ⟨event, db₁, log, hbody, rfl⟩ := classA_eq_ok h
  simp only [bind_eq_ok, pure_eq_ok, Prod.mk.injEq] at hbody
  obtain ⟨db₂, hshadow, db₃, hlogin, db₄, hinsert, -, -, rfl⟩ := hbody
  obtain ⟨users, -, rfl⟩ := Users.upsertLdapShadow_ok hshadow
  obtain ⟨-, users', -, rfl⟩ := Users.recordPasswordLogin_ok hlogin
  exact ⟨_, db₄, log, hinsert, rfl, rfl, rfl⟩

/-- L01 signs in an active account that is not locked. -/
theorem signInWithPassword_ok (h : signInWithPassword db session = .ok (evicted, db')) :
    (∃ u, db.users.get? session.userId = some u ∧ u.isDisabled = false ∧ u.isDeleted = false ∧
        Users.lockedAt u session.createdAt = false) ∧
      ∃ users sessions log, db' = { db with users, sessions, auditLog := log } := by
  obtain ⟨event, db₁, log, hbody, rfl⟩ := classA_eq_ok h
  simp only [bind_eq_ok, pure_eq_ok, Prod.mk.injEq] at hbody
  obtain ⟨db₂, hlogin, db₃, hinsert, -, -, rfl⟩ := hbody
  obtain ⟨huser, users, -, rfl⟩ := Users.recordPasswordLogin_ok hlogin
  obtain ⟨sessions, -, rfl⟩ := Sessions.insert_ok hinsert
  obtain ⟨sessions', -, heq⟩ := Sessions.evictOverCap_eq { db with users, sessions }
    session.userId session.createdAt
  exact ⟨huser, users, sessions', log, by rw [heq]⟩

/-- L03 signs in an account that was not locked, or was not there. -/
theorem signInFromDirectory_ok
    (h : signInFromDirectory P db shadow sourceSlug session = .ok (evicted, db')) :
    (∀ u, db.users.get? session.userId = some u →
        Users.lockedAt u session.createdAt = false) ∧
      ∃ users sessions log, db' = { db with users, sessions, auditLog := log } := by
  obtain ⟨event, db₁, log, hbody, rfl⟩ := classA_eq_ok h
  simp only [bind_eq_ok, pure_eq_ok, Prod.mk.injEq] at hbody
  obtain ⟨db₂, hshadow, db₃, hlogin, db₄, hinsert, -, -, rfl⟩ := hbody
  obtain ⟨users, hlocks, rfl⟩ := Users.upsertLdapShadow_ok hshadow
  obtain ⟨⟨u', hget', -, -, hlocked⟩, users', -, rfl⟩ := Users.recordPasswordLogin_ok hlogin
  obtain ⟨sessions, -, rfl⟩ := Sessions.insert_ok hinsert
  obtain ⟨sessions', -, heq⟩ := Sessions.evictOverCap_eq { db with users := users', sessions }
    session.userId session.createdAt
  refine ⟨fun u hget => ?_, users', sessions', log, by rw [heq]⟩
  -- The shadow row keeps the lock that was there.
  obtain ⟨hmem, hid⟩ := Table.get?_eq_some.mp hget
  obtain ⟨u'', hmem'', hid'', hlock⟩ := hlocks u hmem
  have hsame : u'' = u' := by
    obtain ⟨hmem', hid'⟩ := Table.get?_eq_some.mp hget'
    exact Table.eq_of_key_eq hmem'' hmem' (hid''.trans (hid.trans hid'.symm))
  rw [Users.lockedAt, ← hlock, hsame]
  exact hlocked

theorem recordLoginFailure_ok
    (h : recordLoginFailure db user maxLockoutSecs now = .ok (count, db')) :
    ∃ users log, db' = { db with users, auditLog := log } := by
  obtain ⟨event, db₁, log, hbody, rfl⟩ := classA_eq_ok h
  simp only [Users.recordLoginFailure, bind_eq_ok, require_eq_ok, pure_eq_ok] at hbody
  obtain ⟨⟨count', db₂⟩, ⟨u, -, hcount⟩, hbody⟩ := hbody
  cases hcount
  split at hbody
  · cases hbody
    exact ⟨_, log, rfl⟩
  · cases hbody
    exact ⟨_, log, rfl⟩

/-- U22 adds one to the count of the row. -/
theorem recordLoginFailure_count
    (h : recordLoginFailure db user maxLockoutSecs now = .ok (count, db')) {u : UserRow}
    (hu : db.users.get? user = some u) :
    ∃ u', db'.users.get? user = some u' ∧ u'.failedLoginCount = u.failedLoginCount + 1 := by
  have hid : (u.id == user) = true := beq_iff_eq.mpr (Table.get?_eq_some.mp hu).2
  have hrow : ∀ (f : UserRow → UserRow) (hf : ∀ r, (f r).id = r.id),
      (db.users.update (fun r => r.id == user) f hf).get? user = some (f u) := by
    intro f hf
    rw [Table.get?_update, hu, Option.map_some, if_pos hid]
  obtain ⟨event, db₁, log, hbody, rfl⟩ := classA_eq_ok h
  simp only [Users.recordLoginFailure, bind_eq_ok, require_eq_ok, pure_eq_ok] at hbody
  obtain ⟨⟨count', db₂⟩, ⟨u₂, hu₂, hcount⟩, hbody⟩ := hbody
  rw [hu] at hu₂
  cases hu₂
  cases hcount
  split at hbody
  · rename_i window _
    cases hbody
    refine ⟨{ u with
      failedLoginCount := u.failedLoginCount + 1
      lockedUntil := some (now + seconds window) }, ?_, rfl⟩
    simp only [setLockedUntil]
    rw [Table.get?_update, hrow, Option.map_some, if_pos hid]
  · cases hbody
    refine ⟨{ u with failedLoginCount := u.failedLoginCount + 1, lockedUntil := none }, ?_, rfl⟩
    exact hrow (fun r => { r with
      failedLoginCount := u.failedLoginCount + 1, lockedUntil := none }) fun _ => rfl

theorem LoginPendingMfa.insert_ok (h : LoginPendingMfa.insert db row = .ok db') :
    ∃ loginPendingMfa, db.loginPendingMfa.insert? row = some loginPendingMfa ∧
      db' = { db with loginPendingMfa } := by
  simp only [LoginPendingMfa.insert, bind_eq_ok, ensure_eq_ok, require_eq_ok, pure_eq_ok] at h
  obtain ⟨-, -, loginPendingMfa, hinsert, rfl⟩ := h
  exact ⟨loginPendingMfa, hinsert, rfl⟩

theorem signInFromDirectoryMfaRequired_ok {pending : LoginPendingMfaRow}
    (h : signInFromDirectoryMfaRequired P db shadow pending = .ok (row, db')) :
    row = pending ∧
      ∃ users loginPendingMfa log, db.loginPendingMfa.insert? pending = some loginPendingMfa ∧
        db' = { db with users, loginPendingMfa, auditLog := log } := by
  obtain ⟨event, db₁, log, hbody, rfl⟩ := classA_eq_ok h
  simp only [bind_eq_ok, pure_eq_ok, Prod.mk.injEq] at hbody
  obtain ⟨db₂, hshadow, db₃, hinsert, hrow, -, rfl⟩ := hbody
  obtain ⟨users, -, rfl⟩ := Users.upsertLdapShadow_ok hshadow
  obtain ⟨loginPendingMfa, hrows, rfl⟩ := LoginPendingMfa.insert_ok hinsert
  exact ⟨hrow.symm, users, loginPendingMfa, log, hrows, rfl⟩

/-! ## External identities -/

theorem signInWithPassword_identity (h : signInWithPassword db session = .ok (evicted, db')) :
    Table.Kept Users.identity db.users db'.users := by
  obtain ⟨event, db₁, log, hbody, rfl⟩ := classA_eq_ok h
  simp only [bind_eq_ok, pure_eq_ok, Prod.mk.injEq] at hbody
  obtain ⟨db₂, hlogin, db₃, hinsert, -, -, rfl⟩ := hbody
  obtain ⟨users, hkept, rfl⟩ := Users.recordPasswordLogin_identity hlogin
  obtain ⟨sessions, -, rfl⟩ := Sessions.insert_ok hinsert
  obtain ⟨sessions', -, heq⟩ := Sessions.evictOverCap_eq { db with users, sessions }
    session.userId session.createdAt
  rw [heq]
  exact hkept

/-- L03 signs in to the row of the directory identity. -/
theorem signInFromDirectory_identity
    (h : signInFromDirectory P db shadow sourceSlug session = .ok (evicted, db')) :
    Table.Kept Users.identity db.users db'.users ∧
      ∃ u, db'.users.get? session.userId = some u ∧
        Users.identity u = (.ldap, some shadow.externalStableId) := by
  obtain ⟨event, db₁, log, hbody, rfl⟩ := classA_eq_ok h
  simp only [bind_eq_ok, pure_eq_ok, Prod.mk.injEq] at hbody
  obtain ⟨db₂, hshadow, db₃, hlogin, db₄, hinsert, -, -, rfl⟩ := hbody
  obtain ⟨users, hkept, rfl, u, hget, hidentity⟩ := Users.upsertLdapShadow_identity hshadow
  obtain ⟨users', hkept', rfl⟩ := Users.recordPasswordLogin_identity hlogin
  obtain ⟨sessions, -, rfl⟩ := Sessions.insert_ok hinsert
  obtain ⟨sessions', -, heq⟩ := Sessions.evictOverCap_eq { db with users := users', sessions }
    session.userId session.createdAt
  obtain ⟨u', hget', hsame⟩ := hkept'.get? hget
  rw [heq]
  exact ⟨hkept.trans hkept', u', hget', hsame.trans hidentity⟩

/-- L08 asks the row of the directory identity for its factor. -/
theorem signInFromDirectoryMfaRequired_identity {pending : LoginPendingMfaRow}
    (h : signInFromDirectoryMfaRequired P db shadow pending = .ok (row, db')) :
    Table.Kept Users.identity db.users db'.users ∧
      ∃ u, db'.users.get? row.userId = some u ∧
        Users.identity u = (.ldap, some shadow.externalStableId) := by
  obtain ⟨event, db₁, log, hbody, rfl⟩ := classA_eq_ok h
  simp only [bind_eq_ok, pure_eq_ok, Prod.mk.injEq] at hbody
  obtain ⟨db₂, hshadow, db₃, hinsert, rfl, -, rfl⟩ := hbody
  obtain ⟨users, hkept, rfl, u, hget, hidentity⟩ := Users.upsertLdapShadow_identity hshadow
  obtain ⟨loginPendingMfa, -, rfl⟩ := LoginPendingMfa.insert_ok hinsert
  exact ⟨hkept, u, hget, hidentity⟩

theorem setLockedUntil_identity (db : Database) (user : UserId) (until_ : DateTime) :
    Table.Kept Users.identity db.users (setLockedUntil db user until_).users := by
  simp only [setLockedUntil]
  exact Table.kept_update fun _ _ => rfl

theorem recordLoginFailure_identity
    (h : recordLoginFailure db user maxLockoutSecs now = .ok (count, db')) :
    Table.Kept Users.identity db.users db'.users := by
  obtain ⟨event, db₁, log, hbody, rfl⟩ := classA_eq_ok h
  simp only [Users.recordLoginFailure, bind_eq_ok, require_eq_ok, pure_eq_ok] at hbody
  obtain ⟨⟨count', db₂⟩, ⟨u, -, hcount⟩, hbody⟩ := hbody
  cases hcount
  split at hbody
  · cases hbody
    refine Table.Kept.trans ?_ (setLockedUntil_identity _ _ _)
    dsimp only
    exact Table.kept_update fun _ _ => rfl
  · cases hbody
    dsimp only
    exact Table.kept_update fun _ _ => rfl

/-! ## Factors -/

/-- No user has got a second factor. -/
structure FactorsKept (db db' : Database) : Prop where
  totp : ∀ r' ∈ db'.userTotp, r'.enabled = true →
    ∃ r ∈ db.userTotp, r.userId = r'.userId ∧ r.enabled = true
  passkeys : ∀ c' ∈ db'.webauthnCredentials, ∃ c ∈ db.webauthnCredentials, c.userId = c'.userId

namespace FactorsKept

theorem of_eq {db db' : Database} (htotp : db'.userTotp = db.userTotp)
    (hpasskeys : db'.webauthnCredentials = db.webauthnCredentials) : FactorsKept db db' := by
  constructor
  · intro r hr henabled
    exact ⟨r, htotp ▸ hr, rfl, henabled⟩
  · intro c hc
    exact ⟨c, hpasskeys ▸ hc, rfl⟩

theorem trans {db db' db'' : Database} (h : FactorsKept db db') (h' : FactorsKept db' db'') :
    FactorsKept db db'' := by
  constructor
  · intro r'' hr'' henabled''
    obtain ⟨r', hr', huser', henabled'⟩ := h'.totp r'' hr'' henabled''
    obtain ⟨r, hr, huser, henabled⟩ := h.totp r' hr' henabled'
    exact ⟨r, hr, huser.trans huser', henabled⟩
  · intro c'' hc''
    obtain ⟨c', hc', huser'⟩ := h'.passkeys c'' hc''
    obtain ⟨c, hc, huser⟩ := h.passkeys c' hc'
    exact ⟨c, hc, huser.trans huser'⟩

/-- An update of TOTP rows that leaves the flag alone. -/
theorem updateTotp {db db' : Database} {user : UserId} {p : UserTotpRow → Bool}
    {f : UserTotpRow → UserTotpRow} {hf : ∀ r, (f r).userId = r.userId}
    (henabled : ∀ r, (f r).enabled = r.enabled)
    (h : UserTotp.updateWhere db user p f hf = .ok db') : FactorsKept db db' := by
  simp only [UserTotp.updateWhere, bind_eq_ok, ensure_eq_ok, pure_eq_ok] at h
  obtain ⟨-, -, rfl⟩ := h
  constructor
  · intro r' hr' hflag
    dsimp only at hr'
    obtain ⟨r, hr, rfl⟩ := Table.mem_update.mp hr'
    split at hflag
    · rename_i hp
      rw [if_pos hp]
      exact ⟨r, hr, (hf r).symm, (henabled r).symm.trans hflag⟩
    · rename_i hp
      rw [if_neg hp]
      exact ⟨r, hr, rfl, hflag⟩
  · intro c hc
    exact ⟨c, hc, rfl⟩

theorem advanceLastUsedStep {db db' : Database} {user : UserId} {step : Int}
    (h : UserTotp.advanceLastUsedStep db user step = .ok db') : FactorsKept db db' := by
  unfold UserTotp.advanceLastUsedStep at h
  refine updateTotp ?_ h
  intro r
  rfl

theorem swapRecoveryCodes {db db' : Database} {user : UserId} {expectedSealed newSealed : Bytes}
    (h : UserTotp.swapRecoveryCodes db user expectedSealed newSealed = .ok db') :
    FactorsKept db db' := by
  unfold UserTotp.swapRecoveryCodes at h
  refine updateTotp ?_ h
  intro r
  rfl

end FactorsKept

theorem SecondFactorProof.apply_factors (h : proof.apply db user = .ok db') :
    FactorsKept db db' := by
  cases proof with
  | totp step => exact FactorsKept.advanceLastUsedStep h
  | recoveryCode expectedSealed newSealed => exact FactorsKept.swapRecoveryCodes h
  | webauthn =>
    cases h
    exact .of_eq rfl rfl

/-- L02 spends a factor and adds none. -/
theorem completeSecondFactor_factors
    (h : completeSecondFactor db pendingId session proof = .ok (session', db')) :
    FactorsKept db db' := by
  obtain ⟨event, db₁, log, hbody, rfl⟩ := classA_eq_ok h
  simp only [bind_eq_ok, pure_eq_ok, Prod.mk.injEq] at hbody
  obtain ⟨db₂, hconsume, db₃, happly, db₄, hlogin, db₅, hinsert, -, -, rfl⟩ := hbody
  obtain ⟨-, loginPendingMfa, -, rfl⟩ := LoginPendingMfa.consume_ok hconsume
  have hspent := SecondFactorProof.apply_factors happly
  obtain ⟨-, users, -, rfl⟩ := Users.recordSecondFactorLogin_ok hlogin
  obtain ⟨-, sessions, heq⟩ := openedSession_eq hinsert
  have hconsumed : FactorsKept db { db with loginPendingMfa } := .of_eq rfl rfl
  refine (hconsumed.trans hspent).trans ?_
  rw [heq]
  exact .of_eq rfl rfl

end SuiId
