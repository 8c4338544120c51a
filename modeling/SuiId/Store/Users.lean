import SuiId.Lib.Text
import SuiId.Store.Registry

/-!
# Users, sessions and sign-in bookkeeping

`users.rs` and `sessions.rs`, as far as the commands use them: the account
flags, roles and locks, the session rows with their revocation, the cap on
concurrent sessions, and the step-up evidence a gated command re-reads inside
its own transaction.
-/

namespace SuiId

open Lib Lib.Result

namespace Users

/-- Neither disabled nor deleted. -/
def active (u : UserRow) : Bool := !u.isDisabled && !u.isDeleted

/-- Is there an active user with this id? -/
def isActive (db : Database) (id : UserId) : Bool :=
  (db.users.get? id).any active

/-- `find_by_username`. -/
def findByUsername (db : Database) (username : String) : Option UserRow :=
  db.users.find? fun u => u.username == username

/-- `find_by_external_stable_id`. -/
def findByExternalStableId (db : Database) (source : UserSource) (stableId : String) :
    Option UserRow :=
  db.users.find? fun u => u.source == source && u.externalStableId == some stableId

/-- `normalize_email`. -/
def normalizeEmail (P : Primitives) (email : String) : String := P.toLowercase (Text.trim email)

/-- The columns `users` keeps unique, against the other rows. -/
def uniqueColumns (db : Database) (u : UserRow) : Bool :=
  db.users.rows.all fun x =>
    x.id == u.id ||
      (x.username != u.username &&
        (u.emailNormalized.isNone || x.emailNormalized != u.emailNormalized) &&
        (u.externalStableId.isNone ||
          !(x.source == u.source && x.externalStableId == u.externalStableId)))

/-- `create_within_tx`.  The columns the statement does not name take their
defaults; every constraint failure is a conflict. -/
def create (P : Primitives) (db : Database) (user : UserRow) : StoreResult Database := do
  let user := { user with
    emailNormalized := user.email.map (normalizeEmail P), emailVerifiedAt := none
    lastLoginAt := none, mfaFailureCount := 0, source := .localDb, externalStableId := none }
  ensure (uniqueColumns db user) .conflict
  let users ← require (db.users.insert? user) .conflict
  pure { db with users }

/-- `UPDATE users SET f WHERE id = ? AND p`, refused when no row matches. -/
def updateWhere (db : Database) (id : UserId) (p : UserRow → Bool) (f : UserRow → UserRow)
    (hf : ∀ u, (f u).id = u.id) : StoreResult Database := do
  ensure ((db.users.get? id).any p) .notFound
  pure { db with users := db.users.update (fun u => u.id == id && p u) f hf }

theorem updateWhere_ok {db db' : Database} {id : UserId} {p : UserRow → Bool}
    {f : UserRow → UserRow} {hf : ∀ u, (f u).id = u.id} (h : updateWhere db id p f hf = .ok db') :
    (db.users.get? id).any p = true ∧
      db' = { db with users := db.users.update (fun u => u.id == id && p u) f hf } := by
  simp only [updateWhere, bind_eq_ok, ensure_eq_ok, pure_eq_ok] at h
  obtain ⟨-, hany, rfl⟩ := h
  exact ⟨hany, rfl⟩

/-- `set_disabled`. -/
def setDisabled (db : Database) (id : UserId) (disabled : Bool) : StoreResult Database :=
  updateWhere db id (fun _ => true) (fun u => { u with isDisabled := disabled }) fun _ => rfl

/-- `soft_delete`. -/
def softDelete (db : Database) (id : UserId) : StoreResult Database :=
  updateWhere db id (fun _ => true) (fun u => { u with isDeleted := true, isDisabled := true })
    fun _ => rfl

/-- `get_role_within_tx`: a deleted user has no role. -/
def getRole (db : Database) (id : UserId) : StoreResult Role :=
  match db.users.get? id with
  | some u => if u.isDeleted then .error .notFound else .ok u.role
  | none => .error .notFound

/-- `set_role`. -/
def setRole (db : Database) (id : UserId) (role : Role) : StoreResult Database :=
  updateWhere db id (fun u => !u.isDeleted) (fun u => { u with role := role }) fun _ => rfl

/-- `count_admins_within_tx`: disabled administrators count. -/
def countAdmins (db : Database) : Nat :=
  db.users.count fun u => u.role == .admin && !u.isDeleted

/-! ## Failure counts and the lock -/

/-- Is the account locked at `now`? -/
def lockedAt (u : UserRow) (now : DateTime) : Bool := u.lockedUntil.any fun t => now < t

/-- `record_login_failure_within_tx`: count one failure and write the lock. -/
def recordLoginFailure (db : Database) (id : UserId) (lockUntil : Option DateTime) :
    StoreResult (Int × Database) := do
  let u ← require (db.users.get? id) .notFound
  let newCount := u.failedLoginCount + 1
  let users := db.users.update (fun u => u.id == id) fun u =>
    { u with failedLoginCount := newCount, lockedUntil := lockUntil }
  pure (newCount, { db with users })

/-- `record_password_login_within_tx`: refused for an inactive or locked user. -/
def recordPasswordLogin (db : Database) (id : UserId) (now : DateTime) : StoreResult Database := do
  let u ← require (db.users.get? id) .notFound
  ensure (!(u.isDisabled || u.isDeleted || lockedAt u now)) .notFound
  let users := db.users.update (fun u => u.id == id) fun u =>
    { u with failedLoginCount := 0, lockedUntil := none, lastLoginAt := some now }
  pure { db with users }

/-- `record_second_factor_login_within_tx`. -/
def recordSecondFactorLogin (db : Database) (id : UserId) (now : DateTime) :
    StoreResult Database := do
  let db ← recordPasswordLogin db id now
  pure { db with users := db.users.update (fun u => u.id == id) fun u =>
    { u with mfaFailureCount := 0 } }

/-- `record_federated_login_within_tx`: reads the account flags only. -/
def recordFederatedLogin (db : Database) (id : UserId) (now : DateTime) : StoreResult Database :=
  updateWhere db id active (fun u => { u with lastLoginAt := some now }) fun _ => rfl

/-- `increment_mfa_failure_within_tx`. -/
def incrementMfaFailure (db : Database) (id : UserId) : StoreResult (Int × Database) := do
  let u ← require (db.users.get? id) .notFound
  let newCount := u.mfaFailureCount + 1
  let users := db.users.update (fun u => u.id == id) fun u => { u with mfaFailureCount := newCount }
  pure (newCount, { db with users })

/-- `MFA_FAILURE_LOCKOUT_THRESHOLD`. -/
def mfaFailureLockoutThreshold : Int := 5

/-- `PasswordLockoutCleared`. -/
structure PasswordLockoutCleared where
  passwordFailures : Int
  lockLifted : Bool
  secondFactorLockUntil : Option DateTime
deriving DecidableEq

/-- `PasswordLockoutCleared::cleared`. -/
def PasswordLockoutCleared.cleared (c : PasswordLockoutCleared) : Bool :=
  c.passwordFailures > 0 || c.lockLifted

/-- `clear_password_lockout_within_tx`: a lock the second factor may have set
stays. -/
def clearPasswordLockout (db : Database) (id : UserId) (now : DateTime) :
    StoreResult (PasswordLockoutCleared × Database) := do
  let u ← require (db.users.get? id) .notFound
  let secondFactorMayHoldIt : Bool := u.mfaFailureCount ≥ mfaFailureLockoutThreshold
  let live := u.lockedUntil.filter fun t => now < t
  let users := db.users.update (fun u => u.id == id) fun u =>
    { u with
      failedLoginCount := 0
      lockedUntil := if secondFactorMayHoldIt then u.lockedUntil else none }
  pure (⟨u.failedLoginCount, !secondFactorMayHoldIt && live.isSome,
    if secondFactorMayHoldIt then live else none⟩, { db with users })

/-- `is_active_local_within_tx`. -/
def isActiveLocal (db : Database) (id : UserId) : StoreResult Bool := do
  let u ← require (db.users.get? id) .notFound
  pure (active u && u.source == .localDb)

/-! ## Directory accounts -/

/-- `LdapShadowData`. -/
structure LdapShadowData where
  username : String
  displayName : Option String
  email : Option String
  externalStableId : String

/-- `upsert_ldap_shadow_within_tx`: the row of the directory identity must be
the one resolved before the transaction, or there must be none. -/
def upsertLdapShadow (P : Primitives) (db : Database) (data : LdapShadowData) (id : UserId) :
    StoreResult Database :=
  let emailNormalized := data.email.map (normalizeEmail P)
  match db.users.find? fun u =>
      u.source == .ldap && u.externalStableId == some data.externalStableId with
  | some u => do
    ensure (u.id == id) .notFound
    if u.displayName != data.displayName || u.email != data.email then
      let u' := { u with displayName := data.displayName, email := data.email, emailNormalized }
      ensure (uniqueColumns db u') .db
      pure { db with users := db.users.update (fun x => x.id == id) fun x =>
        { x with displayName := data.displayName, email := data.email, emailNormalized } }
    else pure db
  | none => do
    let u : UserRow :=
      { id, username := data.username, displayName := data.displayName, email := data.email
        emailNormalized, emailVerifiedAt := none, role := .user, isDisabled := false
        isDeleted := false, lastLoginAt := none, failedLoginCount := 0, lockedUntil := none
        mfaFailureCount := 0, source := .ldap, externalStableId := some data.externalStableId }
    ensure (uniqueColumns db u) .db
    let users ← require (db.users.insert? u) .db
    pure { db with users }

end Users

namespace Sessions

/-- `insert_within_tx`, which leaves the step-up method unset and counts no failure.
`sessions.user_id` refers to `users`. -/
def insert (db : Database) (session : SessionRow) : StoreResult Database := do
  ensure (db.users.get? session.userId).isSome .db
  let sessions ← require (db.sessions.insert?
    { session with lastStepUpMethod := none, stepUpFailureCount := 0 }) .db
  pure { db with sessions }

/-- `get_with_user_active`: the session and whether its user is active. -/
def getWithUserActive (db : Database) (id : SessionId) : Option (SessionRow × Bool) := do
  let s ← db.sessions.get? id
  let u ← db.users.get? s.userId
  pure (s, Users.active u)

/-- `UPDATE sessions SET revoked_at = now WHERE p AND revoked_at IS NULL`. -/
def revokeWhere (db : Database) (p : SessionRow → Bool) (now : DateTime) : Database :=
  { db with
    sessions := db.sessions.update (fun s => p s && s.revokedAt.isNone)
      fun s => { s with revokedAt := some now } }

/-- `revoke`. -/
def revoke (db : Database) (id : SessionId) (now : DateTime) : Database :=
  revokeWhere db (fun s => s.id == id) now

/-- `revoke_all_for_user`. -/
def revokeAllForUser (db : Database) (user : UserId) (now : DateTime) : Database :=
  revokeWhere db (fun s => s.userId == user) now

/-- `revoke_all_for_user_except_within_tx`. -/
def revokeAllForUserExcept (db : Database) (user : UserId) (keep : SessionId) (now : DateTime) :
    Database :=
  revokeWhere db (fun s => s.userId == user && s.id != keep) now

/-- `purge_expired`. -/
def purgeExpired (db : Database) (now : DateTime) : Database :=
  { db with sessions := db.sessions.delete fun s => s.expiresAt < now }

/-- Unrevoked and unexpired at `now`. -/
def activeAt (s : SessionRow) (now : DateTime) : Bool := s.revokedAt.isNone && now < s.expiresAt

/-- `oldest_active_for_user_within_tx`, oldest first. -/
def oldestActiveForUser (db : Database) (user : UserId) (now : DateTime) (limit : Nat) :
    List SessionRow :=
  ((db.sessions.rows.filter fun s => s.userId == user && activeAt s now).mergeSort
    fun a b => a.createdAt ≤ b.createdAt).take limit

/-- `evict_over_cap_within_tx`: revoke the oldest sessions over the cap. -/
def evictOverCap (db : Database) (user : UserId) (now : DateTime) : Nat × Database :=
  let cap := db.serverSettings.maxConcurrentSessions
  let count := db.sessions.count fun s => s.userId == user && activeAt s now
  if cap ≤ 0 || (count : Int) ≤ cap then (0, db)
  else
    let oldest := oldestActiveForUser db user now ((count : Int) - cap).toNat
    (oldest.length, oldest.foldl (fun db s => revoke db s.id now) db)

/-- `require_live_session_within_tx`. -/
def requireLiveSession (db : Database) (id : SessionId) (user : UserId) (now : DateTime) :
    StoreResult Unit :=
  match getWithUserActive db id with
  | some (s, userActive) =>
    ensure (s.userId == user && s.revokedAt.isNone && now < s.expiresAt && userActive) .notFound
  | none => .error .notFound

end Sessions

/-! ## Sample rows -/

/-- An account with the given role and no history. -/
def plainUser (id : UserId) (username : String) (role : Role) : UserRow :=
  { id, username, displayName := none, email := none, emailNormalized := none
    emailVerifiedAt := none, role, isDisabled := false, isDeleted := false, lastLoginAt := none
    failedLoginCount := 0, lockedUntil := none, mfaFailureCount := 0, source := .localDb
    externalStableId := none }

/-- A session of `user` that never expires in the examples. -/
def plainSession (id : SessionId) (user : UserId) : SessionRow :=
  { id, userId := user, expiresAt := seconds 1000000, createdAt := 0, revokedAt := none
    authMethods := [.pwd], lastStepUpAt := none, lastStepUpMethod := none, lastUsedAt := none }

/-! ## What a committed write did -/

namespace Users

/-- Every account is still there with the same flags. -/
def FlagsKept (t t' : Table UserRow.id) : Prop :=
  ∀ u ∈ t, ∃ u' ∈ t', u'.id = u.id ∧ u'.isDisabled = u.isDisabled ∧ u'.isDeleted = u.isDeleted

theorem FlagsKept.refl (t : Table UserRow.id) : FlagsKept t t :=
  fun u hu => ⟨u, hu, rfl, rfl, rfl⟩

variable {t : Table UserRow.id} {db db' : Database} {id : UserId} {now : DateTime}

theorem FlagsKept.trans {t' t'' : Table UserRow.id} (h : FlagsKept t t') (h' : FlagsKept t' t'') :
    FlagsKept t t'' := by
  intro u hu
  obtain ⟨u', hu', hid, hdis, hdel⟩ := h u hu
  obtain ⟨u'', hu'', hid', hdis', hdel'⟩ := h' u' hu'
  exact ⟨u'', hu'', hid'.trans hid, hdis'.trans hdis, hdel'.trans hdel⟩

variable {p : UserRow → Bool} {f : UserRow → UserRow} {P : Primitives} {data : LdapShadowData}
variable {hkey : ∀ u, (f u).id = u.id}

theorem flagsKept_update
    (hf : ∀ u, (f u).isDisabled = u.isDisabled ∧ (f u).isDeleted = u.isDeleted) :
    FlagsKept t (t.update p f hkey) := by
  intro u hu
  refine ⟨_, Table.mem_update.mpr ⟨u, hu, rfl⟩, ?_⟩
  split
  · exact ⟨hkey u, hf u⟩
  · exact ⟨rfl, rfl, rfl⟩

/-- An account that was active is active. -/
theorem FlagsKept.isActive (h : FlagsKept db.users db'.users) (hactive : isActive db id = true) :
    isActive db' id = true := by
  obtain ⟨u, hget, hu⟩ := (Option.any_eq_true _ _).mp hactive
  obtain ⟨hmem, hid⟩ := Table.get?_eq_some.mp hget
  obtain ⟨u', hu', hid', hdis, hdel⟩ := h u hmem
  refine (Option.any_eq_true _ _).mpr ⟨u', Table.get?_eq_some.mpr ⟨hu', hid'.trans hid⟩, ?_⟩
  unfold active at hu ⊢
  rw [hdis, hdel]
  exact hu

theorem recordPasswordLogin_ok (h : recordPasswordLogin db id now = .ok db') :
    (∃ u, db.users.get? id = some u ∧ u.isDisabled = false ∧ u.isDeleted = false ∧
        lockedAt u now = false) ∧
      ∃ users, FlagsKept db.users users ∧ db' = { db with users } := by
  simp only [recordPasswordLogin, bind_eq_ok, require_eq_ok, ensure_eq_ok, pure_eq_ok] at h
  obtain ⟨u, hget, -, hguard, rfl⟩ := h
  simp only [Bool.not_or, Bool.and_eq_true, Bool.not_eq_true'] at hguard
  refine ⟨⟨u, hget, hguard.1.1, hguard.1.2, hguard.2⟩, _, ?_, rfl⟩
  exact flagsKept_update fun _ => ⟨rfl, rfl⟩

theorem recordSecondFactorLogin_ok (h : recordSecondFactorLogin db id now = .ok db') :
    (∃ u, db.users.get? id = some u ∧ u.isDisabled = false ∧ u.isDeleted = false ∧
        lockedAt u now = false) ∧
      ∃ users, FlagsKept db.users users ∧ db' = { db with users } := by
  simp only [recordSecondFactorLogin, bind_eq_ok, pure_eq_ok] at h
  obtain ⟨db₁, hlogin, rfl⟩ := h
  obtain ⟨huser, users, hkept, rfl⟩ := recordPasswordLogin_ok hlogin
  refine ⟨huser, _, ?_, rfl⟩
  exact hkept.trans (flagsKept_update fun _ => ⟨rfl, rfl⟩)

/-- Every account is still there with the same lock. -/
def LocksKept (t t' : Table UserRow.id) : Prop :=
  ∀ u ∈ t, ∃ u' ∈ t', u'.id = u.id ∧ u'.lockedUntil = u.lockedUntil

theorem locksKept_update (hf : ∀ u, (f u).lockedUntil = u.lockedUntil) :
    LocksKept t (t.update p f hkey) := by
  intro u hu
  refine ⟨_, Table.mem_update.mpr ⟨u, hu, rfl⟩, ?_⟩
  split
  · exact ⟨hkey u, hf u⟩
  · exact ⟨rfl, rfl⟩

/-- The directory's shadow row is written without touching any lock. -/
theorem upsertLdapShadow_ok (h : upsertLdapShadow P db data id = .ok db') :
    ∃ users, LocksKept db.users users ∧ db' = { db with users } := by
  unfold upsertLdapShadow at h
  dsimp only at h
  split at h
  · simp only [bind_eq_ok, ensure_eq_ok] at h
    obtain ⟨-, -, h⟩ := h
    split at h
    · simp only [bind_eq_ok, ensure_eq_ok, pure_eq_ok] at h
      obtain ⟨-, -, rfl⟩ := h
      refine ⟨_, ?_, rfl⟩
      exact locksKept_update fun _ => rfl
    · cases h
      exact ⟨db.users, fun u hu => ⟨u, hu, rfl, rfl⟩, rfl⟩
  · simp only [bind_eq_ok, ensure_eq_ok, require_eq_ok, pure_eq_ok] at h
    obtain ⟨-, -, users, hinsert, rfl⟩ := h
    refine ⟨users, fun u hu => ⟨u, ?_, rfl, rfl⟩, rfl⟩
    exact (Table.mem_of_insert? hinsert).mpr (.inl hu)

/-- Which external identity the row is of. -/
def identity (u : UserRow) : UserSource × Option String := (u.source, u.externalStableId)

/-- The row of the directory identity is the one it was called for. -/
theorem upsertLdapShadow_identity (h : upsertLdapShadow P db data id = .ok db') :
    ∃ users, Table.Kept identity db.users users ∧ db' = { db with users } ∧
      ∃ u, users.get? id = some u ∧ identity u = (.ldap, some data.externalStableId) := by
  unfold upsertLdapShadow at h
  dsimp only at h
  split at h
  · rename_i u hfind
    obtain ⟨hmem, hu⟩ := Table.mem_of_find? hfind
    simp only [Bool.and_eq_true, beq_iff_eq] at hu
    simp only [bind_eq_ok, ensure_eq_ok, beq_iff_eq] at h
    obtain ⟨-, rfl, h⟩ := h
    have hget : db.users.get? u.id = some u := Table.get?_key hmem
    have hidentity : identity u = (.ldap, some data.externalStableId) := by
      rw [identity, hu.1, hu.2]
    split at h
    · simp only [bind_eq_ok, ensure_eq_ok, pure_eq_ok] at h
      obtain ⟨-, -, rfl⟩ := h
      refine ⟨_, ?_, rfl, ?_⟩
      · exact Table.kept_update fun _ _ => rfl
      · rw [Table.get?_update, hget, Option.map_some, if_pos (beq_self_eq_true u.id)]
        exact ⟨_, rfl, hidentity⟩
    · cases h
      exact ⟨db.users, Table.Kept.refl _ _, rfl, u, hget, hidentity⟩
  · simp only [bind_eq_ok, ensure_eq_ok, require_eq_ok, pure_eq_ok] at h
    obtain ⟨-, -, users, hinsert, rfl⟩ := h
    exact ⟨users, Table.kept_insert? hinsert, rfl, _,
      Table.get?_eq_some.mpr ⟨(Table.mem_of_insert? hinsert).mpr (.inr rfl), rfl⟩, rfl⟩

theorem recordPasswordLogin_identity (h : recordPasswordLogin db id now = .ok db') :
    ∃ users, Table.Kept identity db.users users ∧ db' = { db with users } := by
  simp only [recordPasswordLogin, bind_eq_ok, require_eq_ok, ensure_eq_ok, pure_eq_ok] at h
  obtain ⟨u, -, -, -, rfl⟩ := h
  refine ⟨_, ?_, rfl⟩
  exact Table.kept_update fun _ _ => rfl

theorem incrementMfaFailure_ok {count : Int} (h : incrementMfaFailure db id = .ok (count, db')) :
    ∃ users, FlagsKept db.users users ∧ db' = { db with users } := by
  simp only [incrementMfaFailure, bind_eq_ok, require_eq_ok, pure_eq_ok, Prod.mk.injEq] at h
  obtain ⟨u, -, -, rfl⟩ := h
  refine ⟨_, ?_, rfl⟩
  exact flagsKept_update fun _ => ⟨rfl, rfl⟩

end Users

namespace Sessions

/-- A revoked session is still there, revoked. -/
def RevokedKept (t t' : Table SessionRow.id) : Prop :=
  ∀ s ∈ t, s.revokedAt ≠ none → ∃ s' ∈ t', s'.id = s.id ∧ s'.revokedAt ≠ none

theorem RevokedKept.refl (t : Table SessionRow.id) : RevokedKept t t :=
  fun s hs hrev => ⟨s, hs, rfl, hrev⟩

variable {t t' : Table SessionRow.id} {session : SessionRow}
variable {t'' : Table SessionRow.id} {p : SessionRow → Bool} {f : SessionRow → SessionRow}

theorem RevokedKept.trans (h : RevokedKept t t') (h' : RevokedKept t' t'') : RevokedKept t t'' := by
  intro s hs hrev
  obtain ⟨s', hs', hid, hrev'⟩ := h s hs hrev
  obtain ⟨s'', hs'', hid', hrev''⟩ := h' s' hs' hrev'
  exact ⟨s'', hs'', hid'.trans hid, hrev''⟩

variable {hkey : ∀ s, (f s).id = s.id}

theorem revokedKept_update (hf : ∀ s, s.revokedAt ≠ none → (f s).revokedAt ≠ none) :
    RevokedKept t (t.update p f hkey) := by
  intro s hs hrev
  refine ⟨_, Table.mem_update.mpr ⟨s, hs, rfl⟩, ?_⟩
  split
  · exact ⟨hkey s, hf s hrev⟩
  · exact ⟨rfl, hrev⟩

theorem revokedKept_revokeWhere (db : Database) (p : SessionRow → Bool) (now : DateTime) :
    RevokedKept db.sessions (revokeWhere db p now).sessions := by
  simp only [revokeWhere]
  exact revokedKept_update fun _ _ => Option.some_ne_none now

theorem revokedKept_insert {s : SessionRow} (h : t.insert? s = some t') : RevokedKept t t' :=
  fun s hs hrev => ⟨s, (Table.mem_of_insert? h).mpr (.inl hs), rfl, hrev⟩

theorem insert_ok {db db' : Database} (h : insert db session = .ok db') :
    ∃ sessions, RevokedKept db.sessions sessions ∧ db' = { db with sessions } := by
  simp only [insert, bind_eq_ok, ensure_eq_ok, require_eq_ok, pure_eq_ok] at h
  obtain ⟨-, -, sessions, hinsert, rfl⟩ := h
  exact ⟨sessions, revokedKept_insert hinsert, rfl⟩

theorem revoke_all_eq (db : Database) (now : DateTime) (ss : List SessionRow) :
    ∃ sessions, RevokedKept db.sessions sessions ∧
      ss.foldl (fun db s => revoke db s.id now) db = { db with sessions } := by
  induction ss generalizing db with
  | nil => exact ⟨db.sessions, .refl _, rfl⟩
  | cons s ss ih =>
    obtain ⟨sessions, hkept, heq⟩ := ih (revoke db s.id now)
    exact ⟨sessions, (revokedKept_revokeWhere db _ now).trans hkept, heq⟩

theorem evictOverCap_eq (db : Database) (user : UserId) (now : DateTime) :
    ∃ sessions, RevokedKept db.sessions sessions ∧
      (evictOverCap db user now).2 = { db with sessions } := by
  unfold evictOverCap
  dsimp only
  split
  · exact ⟨db.sessions, .refl _, rfl⟩
  · exact revoke_all_eq db now _

/-- A session's columns that are written once. -/
def owner (s : SessionRow) : SessionId × UserId := (s.id, s.userId)

/-- One more session, whose other columns may have been written since. -/
structure Added (t t' : Table SessionRow.id) (session : SessionRow) : Prop where
  fresh : ∀ s ∈ t, s.id ≠ session.id
  owners : t'.rows.map owner = t.rows.map owner ++ [owner session]

theorem owners_update (hf : ∀ s, owner (f s) = owner s) :
    (t.update p f hkey).rows.map owner = t.rows.map owner :=
  Table.map_update hf

theorem evictOverCap_owners (db : Database) (user : UserId) (now : DateTime) :
    (evictOverCap db user now).2.sessions.rows.map owner = db.sessions.rows.map owner := by
  have hrevoke : ∀ (ss : List SessionRow) (db : Database),
      (ss.foldl (fun db s => revoke db s.id now) db).sessions.rows.map owner =
        db.sessions.rows.map owner := by
    intro ss
    induction ss with
    | nil =>
      intro db
      rfl
    | cons s ss ih =>
      intro db
      rw [List.foldl_cons, ih]
      simp only [revoke, revokeWhere]
      exact owners_update fun _ => rfl
  unfold evictOverCap
  dsimp only
  split
  · rfl
  · exact hrevoke _ db

theorem insert_added {db db' : Database} (h : insert db session = .ok db') :
    Added db.sessions db'.sessions session ∧ ∃ sessions, db' = { db with sessions } := by
  simp only [insert, bind_eq_ok, ensure_eq_ok, require_eq_ok, pure_eq_ok] at h
  obtain ⟨-, -, sessions, hinsert, rfl⟩ := h
  obtain ⟨hfresh, hrows⟩ := Table.insert?_eq_some.mp hinsert
  refine ⟨⟨hfresh, ?_⟩, sessions, rfl⟩
  rw [hrows, List.map_append]
  rfl

/-- Writes that keep the owners do not undo an insertion. -/
theorem Added.of_owners (h : Added t t' session)
    (howners : t''.rows.map owner = t'.rows.map owner) :
    Added t t'' session :=
  ⟨h.fresh, howners.trans h.owners⟩

end Sessions

/-! ## Step-up evidence -/

/-- `STEP_UP_FRESHNESS_SECS`. -/
def stepUpFreshnessSecs : Int := 300

/-- `SessionStepUpEvidence`. -/
inductive SessionStepUpEvidence where
  | fresh (method : String) (ageSecs : Int)
  | notRequired

/-- `SessionStepUpEvidence::as_attribute`. -/
def SessionStepUpEvidence.asAttribute : SessionStepUpEvidence → String
  | .fresh method ageSecs => "fresh:" ++ method ++ ":" ++ toString ageSecs
  | .notRequired => "not_required:no_second_factor"

/-- An enabled TOTP secret or any passkey. -/
def hasSecondFactor (db : Database) (user : UserId) : Bool :=
  (db.userTotp.get? user).any (·.enabled) ||
    (db.webauthnCredentials.find? fun c => c.userId == user).isSome

/-- `session_step_up_evidence_within_tx`: the acting session must be live, and
fresh when its user has a second factor. -/
def sessionStepUpEvidence (db : Database) (session : SessionId) (actor : UserId)
    (now : DateTime) : StoreResult SessionStepUpEvidence :=
  match Sessions.requireLiveSession db session actor now with
  | .error .notFound => .error .stepUpRequired
  | .error e => .error e
  | .ok () =>
    if !hasSecondFactor db actor then .ok .notRequired
    else
      match (db.sessions.get? session).bind fun s => s.lastStepUpAt.map fun t => (t, s) with
      | some (lastStepUp, s) =>
        if lastStepUp ≤ now && numSeconds (now - lastStepUp) ≤ stepUpFreshnessSecs then
          .ok (.fresh (s.lastStepUpMethod.getD "unknown") (numSeconds (now - lastStepUp)))
        else .error .stepUpRequired
      | none => .error .stepUpRequired

end SuiId
