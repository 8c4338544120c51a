import SuiId.Store.Accounts
import SuiId.Store.SignIn

/-!
# The lock columns of an account

An account has one `locked_until`, two counters that write it, and nothing that
says which of them did.  `Database.lockOf` reads the three columns of a user;
each command below is one assignment to it:

* U22 and L07 count a failure, of the password and of the second factor;
* L01, L03 and L02 are the sign-ins, and refuse a locked account;
* U08 is the operator's unlock;
* U09 and U10 replace the credential and clear the lock of the password.
-/

namespace SuiId

open Lib Lib.Result

/-- `failed_login_count`, `locked_until` and `mfa_failure_count`. -/
structure LockColumns where
  failedLoginCount : Int
  lockedUntil : Option DateTime
  mfaFailureCount : Int
deriving DecidableEq, Repr

/-- The lock columns of a row. -/
def Users.lock (u : UserRow) : LockColumns where
  failedLoginCount := u.failedLoginCount
  lockedUntil := u.lockedUntil
  mfaFailureCount := u.mfaFailureCount

/-- The lock columns of a user. -/
def Database.lockOf (db : Database) (user : UserId) : Option LockColumns :=
  (db.users.get? user).map Users.lock

namespace LockColumns

/-- Is the lock live at `now`? -/
def lockedAt (c : LockColumns) (now : DateTime) : Bool := c.lockedUntil.any fun t => now < t

/-- What U22 leaves. -/
def passwordFailure (c : LockColumns) (maxLockoutSecs : Int) (now : DateTime) : LockColumns :=
  { c with
    failedLoginCount := c.failedLoginCount + 1
    lockedUntil := (lockoutBackoff (c.failedLoginCount + 1) maxLockoutSecs).map
      fun window => now + seconds window }

/-- What L07 leaves. -/
def secondFactorFailure (c : LockColumns) (maxLockoutSecs : Int) (now : DateTime) : LockColumns :=
  { c with
    mfaFailureCount := c.mfaFailureCount + 1
    lockedUntil :=
      if c.mfaFailureCount + 1 ≥ Users.mfaFailureLockoutThreshold then
        some (now + seconds ((lockoutBackoff (c.mfaFailureCount + 1) maxLockoutSecs).getD 30))
      else c.lockedUntil }

/-- What L01 and L03 leave. -/
def signedIn (c : LockColumns) : LockColumns :=
  { c with failedLoginCount := 0, lockedUntil := none }

/-- What U09 and U10 leave. -/
def credentialReplaced (c : LockColumns) : LockColumns :=
  { c with
    failedLoginCount := 0
    lockedUntil :=
      if c.mfaFailureCount ≥ Users.mfaFailureLockoutThreshold then c.lockedUntil else none }

/-- What L02, U08 and the insertion of a row leave. -/
def clear : LockColumns := ⟨0, none, 0⟩

end LockColumns

/-! ## Reading the columns -/

variable {db db' : Database} {user : UserId} {c : LockColumns} {now : DateTime}
  {maxLockoutSecs : Int} {session : SessionRow}

theorem lockOf_eq_some :
    db.lockOf user = some c ↔ ∃ u, db.users.get? user = some u ∧ Users.lock u = c :=
  Option.map_eq_some_iff

/-- An update of the row of one user assigns the columns that `g` computes. -/
theorem lockOf_update {id : UserId} {p : UserRow → Bool} {f : UserRow → UserRow}
    (hf : ∀ u, (f u).id = u.id) {g : LockColumns → LockColumns} (hp : ∀ u, p u = true ↔ u.id = id)
    (hg : ∀ u, Users.lock (f u) = g (Users.lock u)) (hc : db.lockOf id = some c) :
    ({ db with users := db.users.update p f hf } : Database).lockOf =
      Function.update db.lockOf id (some (g c)) := by
  obtain ⟨u, hget, rfl⟩ := lockOf_eq_some.mp hc
  funext k
  by_cases hk : k = id
  · subst hk
    have hself : p u = true := (hp u).mpr (Table.get?_eq_some.mp hget).2
    simp only [Database.lockOf, Table.get?_update, hget, Option.map_some, if_pos hself, hg,
      Function.update_self]
  · rw [Function.update_of_ne hk]
    simp only [Database.lockOf, Table.get?_update, Option.map_map]
    cases hother : db.users.get? k with
    | none => rfl
    | some v =>
      have hid : v.id = k := (Table.get?_eq_some.mp hother).2
      have hnot : ¬ p v = true := fun hv => hk (hid.symm.trans ((hp v).mp hv))
      simp [if_neg hnot]

theorem lockOf_congr (h : db'.users = db.users) : db'.lockOf = db.lockOf := by
  funext k
  rw [Database.lockOf, Database.lockOf, h]

/-! ## What each update of the account assigns -/

/-- `UPDATE users SET locked_until = ?`. -/
theorem setLockedUntil_lock (hc : db.lockOf user = some c) (until_ : DateTime) :
    (setLockedUntil db user until_).lockOf =
      Function.update db.lockOf user (some { c with lockedUntil := some until_ }) := by
  unfold setLockedUntil
  exact lockOf_update (g := fun c => { c with lockedUntil := some until_ })
    _ (fun u => beq_iff_eq) (fun u => rfl) hc

/-- L01 and L03. -/
theorem recordPasswordLogin_lock (h : Users.recordPasswordLogin db user now = .ok db') :
    ∃ c, db.lockOf user = some c ∧ c.lockedAt now = false ∧
      db'.lockOf = Function.update db.lockOf user (some c.signedIn) := by
  simp only [Users.recordPasswordLogin, bind_eq_ok, require_eq_ok, ensure_eq_ok, pure_eq_ok] at h
  obtain ⟨u, hget, -, hopen, rfl⟩ := h
  simp only [Bool.not_eq_true', Bool.or_eq_false_iff] at hopen
  have hc : db.lockOf user = some (Users.lock u) := lockOf_eq_some.mpr ⟨u, hget, rfl⟩
  refine ⟨Users.lock u, hc, hopen.2, ?_⟩
  exact lockOf_update (g := LockColumns.signedIn) _ (fun u => beq_iff_eq) (fun u => rfl) hc

/-- L02. -/
theorem recordSecondFactorLogin_lock (h : Users.recordSecondFactorLogin db user now = .ok db') :
    ∃ c, db.lockOf user = some c ∧ c.lockedAt now = false ∧
      db'.lockOf = Function.update db.lockOf user (some .clear) := by
  simp only [Users.recordSecondFactorLogin, bind_eq_ok, pure_eq_ok] at h
  obtain ⟨db₁, hlogin, rfl⟩ := h
  obtain ⟨c, hc, hopen, hlock⟩ := recordPasswordLogin_lock hlogin
  refine ⟨c, hc, hopen, ?_⟩
  have hc₁ : db₁.lockOf user = some c.signedIn := by
    rw [hlock, Function.update_self]
  have hzero := lockOf_update (g := fun c => { c with mfaFailureCount := 0 })
    (f := fun u => { u with mfaFailureCount := 0 }) (p := fun u => u.id == user)
    (fun _ => rfl) (fun u => beq_iff_eq) (fun u => rfl) hc₁
  rw [hzero, hlock, Function.update_idem]
  rfl

variable {lockout : Users.PasswordLockoutCleared} {P : Primitives} {count : Int} {evicted : Nat}
  {credential : CredentialRow}

/-- U09 and U10. -/
theorem clearPasswordLockout_lock
    (h : Users.clearPasswordLockout db user now = .ok (lockout, db')) :
    ∃ c, db.lockOf user = some c ∧
      db'.lockOf = Function.update db.lockOf user (some c.credentialReplaced) := by
  simp only [Users.clearPasswordLockout, bind_eq_ok, require_eq_ok, pure_eq_ok, Prod.mk.injEq] at h
  obtain ⟨u, hget, -, rfl⟩ := h
  have hc : db.lockOf user = some (Users.lock u) := lockOf_eq_some.mpr ⟨u, hget, rfl⟩
  refine ⟨Users.lock u, hc, ?_⟩
  have hcleared := lockOf_update
    (g := fun c => { c with
      failedLoginCount := 0
      lockedUntil := if decide (u.mfaFailureCount ≥ Users.mfaFailureLockoutThreshold) = true
        then c.lockedUntil else none })
    (f := fun v => { v with
      failedLoginCount := 0
      lockedUntil := if decide (u.mfaFailureCount ≥ Users.mfaFailureLockoutThreshold) = true
        then v.lockedUntil else none })
    (p := fun v => v.id == user) (fun _ => rfl) (fun v => beq_iff_eq) (fun v => rfl) hc
  rw [hcleared]
  simp only [LockColumns.credentialReplaced, Users.lock, decide_eq_true_eq]
  rfl

/-- The shadow row of L03: an existing row keeps its columns. -/
theorem upsertLdapShadow_lock {data : Users.LdapShadowData}
    (h : Users.upsertLdapShadow P db data user = .ok db') :
    db'.lockOf = Function.update db.lockOf user (some ((db.lockOf user).getD .clear)) := by
  unfold Users.upsertLdapShadow at h
  dsimp only at h
  split at h
  · rename_i u hfind
    simp only [bind_eq_ok, ensure_eq_ok] at h
    obtain ⟨-, hid, h⟩ := h
    have hget : db.users.get? user = some u := by
      rw [← beq_iff_eq.mp hid]
      exact Table.get?_key (Table.mem_of_find? hfind).1
    have hc : db.lockOf user = some (Users.lock u) := lockOf_eq_some.mpr ⟨u, hget, rfl⟩
    rw [hc, Option.getD_some]
    split at h
    · simp only [bind_eq_ok, ensure_eq_ok, pure_eq_ok] at h
      obtain ⟨-, -, rfl⟩ := h
      exact lockOf_update (g := id) _ (fun u => beq_iff_eq) (fun u => rfl) hc
    · cases h
      rw [← hc, Function.update_eq_self]
  · simp only [bind_eq_ok, ensure_eq_ok, require_eq_ok, pure_eq_ok] at h
    obtain ⟨-, -, users, hinsert, rfl⟩ := h
    have hnone : db.lockOf user = none := by
      rw [Database.lockOf, Table.get?_eq_none.mpr (Table.insert?_eq_some.mp hinsert).1]
      rfl
    rw [hnone, Option.getD_none]
    funext k
    rw [Database.lockOf, Table.get?_of_insert? hinsert]
    by_cases hk : k = user
    · subst hk
      rw [Function.update_self, if_pos rfl]
      rfl
    · rw [Function.update_of_ne hk, if_neg fun heq => hk heq.symm]
      rfl

/-! ## What each command assigns -/

/-- U22 writes the row without a lock first. -/
theorem recordLoginFailure_lock
    (h : recordLoginFailure db user maxLockoutSecs now = .ok (count, db')) :
    ∃ c, db.lockOf user = some c ∧
      db'.lockOf =
        Function.update db.lockOf user (some (c.passwordFailure maxLockoutSecs now)) := by
  obtain ⟨event, db₁, log, hbody, rfl⟩ := classA_eq_ok h
  simp only [Users.recordLoginFailure, bind_eq_ok, require_eq_ok, pure_eq_ok] at hbody
  obtain ⟨⟨count', db₂⟩, ⟨u, hget, hcount⟩, hbody⟩ := hbody
  cases hcount
  have hc : db.lockOf user = some (Users.lock u) := lockOf_eq_some.mpr ⟨u, hget, rfl⟩
  refine ⟨Users.lock u, hc, ?_⟩
  have hcounted := lockOf_update
    (g := fun c => { c with failedLoginCount := u.failedLoginCount + 1, lockedUntil := none })
    (f := fun v => { v with failedLoginCount := u.failedLoginCount + 1, lockedUntil := none })
    (p := fun v => v.id == user) (fun _ => rfl) (fun v => beq_iff_eq) (fun v => rfl) hc
  split at hbody
  · rename_i window hwindow
    cases hbody
    refine (setLockedUntil_lock ((congrFun hcounted user).trans (Function.update_self ..))
      (now + seconds window)).trans ?_
    rw [hcounted, Function.update_idem]
    simp only [Users.lock, LockColumns.passwordFailure, hwindow, Option.map_some]
  · rename_i hwindow
    cases hbody
    refine hcounted.trans ?_
    simp only [Users.lock, LockColumns.passwordFailure, hwindow, Option.map_none]

/-- L07. -/
theorem recordSecondFactorFailure_lock {outcome : SecondFactorFailureOutcome}
    (h : recordSecondFactorFailure db user maxLockoutSecs now = .ok (outcome, db')) :
    ∃ c, db.lockOf user = some c ∧
      db'.lockOf =
        Function.update db.lockOf user (some (c.secondFactorFailure maxLockoutSecs now)) := by
  obtain ⟨event, db₁, log, hbody, rfl⟩ := classA_eq_ok h
  simp only [Users.incrementMfaFailure, bind_eq_ok, require_eq_ok, pure_eq_ok] at hbody
  obtain ⟨⟨count', db₂⟩, ⟨u, hget, hcount⟩, hbody⟩ := hbody
  cases hcount
  have hc : db.lockOf user = some (Users.lock u) := lockOf_eq_some.mpr ⟨u, hget, rfl⟩
  refine ⟨Users.lock u, hc, ?_⟩
  have hcounted := lockOf_update
    (g := fun c => { c with mfaFailureCount := u.mfaFailureCount + 1 })
    (f := fun v => { v with mfaFailureCount := u.mfaFailureCount + 1 })
    (p := fun v => v.id == user) (fun _ => rfl) (fun v => beq_iff_eq) (fun v => rfl) hc
  dsimp only at hbody
  split at hbody
  · rename_i hthreshold
    cases hbody
    refine (setLockedUntil_lock ((congrFun hcounted user).trans (Function.update_self ..))
      _).trans ?_
    refine (congrArg (Function.update · user _) hcounted).trans ?_
    rw [Function.update_idem, LockColumns.secondFactorFailure,
      if_pos (show (Users.lock u).mfaFailureCount + 1 ≥ _ from hthreshold)]
    rfl
  · rename_i hthreshold
    cases hbody
    rw [LockColumns.secondFactorFailure,
      if_neg (show ¬ (Users.lock u).mfaFailureCount + 1 ≥ _ from hthreshold)]
    exact hcounted

/-- L01. -/
theorem signInWithPassword_lock (h : signInWithPassword db session = .ok (evicted, db')) :
    ∃ c, db.lockOf session.userId = some c ∧ c.lockedAt session.createdAt = false ∧
      db'.lockOf = Function.update db.lockOf session.userId (some c.signedIn) := by
  obtain ⟨event, db₁, log, hbody, rfl⟩ := classA_eq_ok h
  simp only [bind_eq_ok, pure_eq_ok, Prod.mk.injEq] at hbody
  obtain ⟨db₂, hlogin, db₃, hinsert, -, -, rfl⟩ := hbody
  obtain ⟨-, sessions, heq⟩ := openedSession_plain hinsert
  obtain ⟨c, hc, hopen, hlock⟩ := recordPasswordLogin_lock hlogin
  rw [heq]
  exact ⟨c, hc, hopen, hlock⟩

/-- L03 signs in a row that was not locked, or that it inserts. -/
theorem signInFromDirectory_lock {shadow : Users.LdapShadowData} {sourceSlug : String}
    (h : signInFromDirectory P db shadow sourceSlug session = .ok (evicted, db')) :
    ∃ c, (db.lockOf session.userId).getD .clear = c ∧ c.lockedAt session.createdAt = false ∧
      db'.lockOf = Function.update db.lockOf session.userId (some c.signedIn) := by
  obtain ⟨event, db₁, log, hbody, rfl⟩ := classA_eq_ok h
  simp only [bind_eq_ok, pure_eq_ok, Prod.mk.injEq] at hbody
  obtain ⟨db₂, hshadow, db₃, hlogin, db₄, hinsert, -, -, rfl⟩ := hbody
  have hrow := upsertLdapShadow_lock hshadow
  obtain ⟨c, hc, hopen, hlock⟩ := recordPasswordLogin_lock hlogin
  obtain ⟨-, sessions, heq⟩ := openedSession_plain hinsert
  rw [hrow, Function.update_self, Option.some.injEq] at hc
  refine ⟨c, hc, hopen, ?_⟩
  rw [heq]
  refine Eq.trans hlock ?_
  rw [hrow, Function.update_idem]

/-- L02. -/
theorem completeSecondFactor_lock {pendingId : PendingMfaId} {session' : SessionRow}
    {proof : SecondFactorProof}
    (h : completeSecondFactor db pendingId session proof = .ok (session', db')) :
    ∃ c, db.lockOf session.userId = some c ∧ c.lockedAt session.createdAt = false ∧
      db'.lockOf = Function.update db.lockOf session.userId (some .clear) := by
  obtain ⟨event, db₁, log, hbody, rfl⟩ := classA_eq_ok h
  simp only [bind_eq_ok, pure_eq_ok, Prod.mk.injEq] at hbody
  obtain ⟨db₂, hconsume, db₃, happly, db₄, hlogin, db₅, hinsert, -, -, rfl⟩ := hbody
  obtain ⟨-, loginPendingMfa, -, rfl⟩ := LoginPendingMfa.consume_ok hconsume
  obtain ⟨userTotp, rfl⟩ := SecondFactorProof.apply_ok happly
  obtain ⟨-, sessions, heq⟩ := openedSession_eq hinsert
  obtain ⟨c, hc, hopen, hlock⟩ := recordSecondFactorLogin_lock hlogin
  rw [heq]
  exact ⟨c, hc, hopen, hlock⟩

/-- U08. -/
theorem adminUnlockUser_lock {target : UserId} {u : Unit}
    (h : adminUnlockUser db target = .ok (u, db')) :
    ∃ c, db.lockOf target = some c ∧
      db'.lockOf = Function.update db.lockOf target (some .clear) := by
  obtain ⟨event, db₁, log, hbody, rfl⟩ := classA_eq_ok h
  simp only [bind_eq_ok, pure_eq_ok, Prod.mk.injEq] at hbody
  obtain ⟨db₂, hunlock, -, -, rfl⟩ := hbody
  obtain ⟨hany, rfl⟩ := Users.updateWhere_ok hunlock
  obtain ⟨row, hget, -⟩ := (Option.any_eq_true _ _).mp hany
  have hc : db.lockOf target = some (Users.lock row) := lockOf_eq_some.mpr ⟨row, hget, rfl⟩
  refine ⟨Users.lock row, hc, ?_⟩
  have hcleared := lockOf_update (g := fun _ => .clear)
    (f := fun v => { v with failedLoginCount := 0, mfaFailureCount := 0, lockedUntil := none })
    (p := fun v => v.id == target && true) (fun _ => rfl) (fun v => by simp) (fun v => rfl) hc
  exact hcleared

/-- U09. -/
theorem changePasswordSelf_lock {keepCurrentSession : Option SessionId} {revokeOthers : Bool}
    {swept : Nat × Nat}
    (h : changePasswordSelf db user credential keepCurrentSession revokeOthers now =
      .ok (swept, db')) :
    ∃ c, db.lockOf user = some c ∧
      db'.lockOf = Function.update db.lockOf user (some c.credentialReplaced) := by
  obtain ⟨event, db₁, log, hbody, rfl⟩ := classA_eq_ok h
  simp only [bind_eq_ok, ensure_eq_ok, pure_eq_ok, Prod.mk.injEq] at hbody
  obtain ⟨-, -, ⟨lockout, db₂⟩, hclear, -, -, rfl⟩ := hbody
  obtain ⟨c, hc, hlock⟩ := clearPasswordLockout_lock hclear
  refine ⟨c, hc, Eq.trans (lockOf_congr ?_) hlock⟩
  split
  · split
    · rfl
    · rfl
  · rfl

/-- U10. -/
theorem consumeAndResetPassword_lock {token : ResetTokenId} {consumedAt : DateTime}
    {hibpWarned : Bool}
    (h : consumeAndResetPassword db user token credential consumedAt hibpWarned =
      .ok (lockout, db')) :
    ∃ c, db.lockOf user = some c ∧
      db'.lockOf = Function.update db.lockOf user (some c.credentialReplaced) := by
  obtain ⟨event, db₁, log, hbody, rfl⟩ := classA_eq_ok h
  simp only [markResetTokenConsumed, bind_eq_ok, ensure_eq_ok, require_eq_ok, pure_eq_ok,
    Prod.mk.injEq] at hbody
  obtain ⟨db₂, ⟨-, -, rfl⟩, -, -, -, -, -, -, -, -, ⟨lockout', db₃⟩, hclear, -, -, rfl⟩ := hbody
  obtain ⟨c, hc, hlock⟩ := clearPasswordLockout_lock hclear
  exact ⟨c, hc, hlock⟩

/-! ## A failure is counted -/

theorem lockoutBackoff_bounds {failures maxSecs window : Int} (hmax : 0 ≤ maxSecs)
    (h : lockoutBackoff failures maxSecs = some window) : 0 ≤ window ∧ window < 2 ^ 64 := by
  unfold lockoutBackoff at h
  by_cases hfew : failures ≤ 2
  · rw [if_pos hfew] at h
    cases h
  · rw [if_neg hfew] at h
    have hwindow := Option.some.inj h
    omega

/-- The attributes of the events of U22 and L07 can be recorded. -/
private theorem buildAttributes_lockout {more : List (String × String)}
    (hcount : (toString count).utf8ByteSize ≤ 80)
    (hmore : more = [] ∨ ∃ window : Int, (0 ≤ window ∧ window < 2 ^ 64) ∧
      more = [("locked_for_secs", toString window)]) :
    buildAttributes (("count", toString count) :: more) =
      .ok (("count", toString count) :: more) := by
  have hbound : 80 ≤ maxAttributeValueBytes := by decide
  rcases hmore with rfl | ⟨window, ⟨hnonneg, hlt⟩, rfl⟩
  · apply buildAttributes_ok
    · simp
    · simp [maxAttributes]
    · intro a ha
      rw [List.mem_singleton.mp ha]
      exact Nat.le_trans hcount hbound
  · have hwindow := Text.utf8ByteSize_toString_int_le hnonneg hlt
    apply buildAttributes_ok
    · simp
    · simp [maxAttributes]
    · intro a ha
      rcases List.mem_cons.mp ha with rfl | ha
      · exact Nat.le_trans hcount hbound
      · rw [List.mem_singleton.mp ha]
        exact Nat.le_trans hwindow hbound

/-- U22 commits for a row whose count fits its column. -/
theorem recordLoginFailure_commits (hmax : 0 ≤ maxLockoutSecs) (hc : db.lockOf user = some c)
    (hfits : 0 ≤ c.failedLoginCount ∧ c.failedLoginCount < 2 ^ 63) (now : DateTime) :
    ∃ count db', recordLoginFailure db user maxLockoutSecs now = .ok (count, db') := by
  obtain ⟨u, hget, rfl⟩ := lockOf_eq_some.mp hc
  change 0 ≤ u.failedLoginCount ∧ u.failedLoginCount < 2 ^ 63 at hfits
  have hcount : (toString (u.failedLoginCount + 1)).utf8ByteSize ≤ 80 := by
    obtain ⟨hnonneg, hlt⟩ := hfits
    exact Text.utf8ByteSize_toString_int_le (by omega) (by omega)
  refine ⟨u.failedLoginCount + 1, ?_⟩
  cases hbackoff : lockoutBackoff (u.failedLoginCount + 1) maxLockoutSecs with
  | none =>
    apply classA_of_ok
    · simp only [Users.recordLoginFailure, hget, require, bind, Except.bind, pure, Except.pure,
        hbackoff]
      rfl
    · exact buildAttributes_lockout hcount (.inl rfl)
    · rfl
  | some window =>
    have hwindow := lockoutBackoff_bounds hmax hbackoff
    apply classA_of_ok
    · simp only [Users.recordLoginFailure, hget, require, bind, Except.bind, pure, Except.pure,
        hbackoff]
      rfl
    · exact buildAttributes_lockout hcount (.inr ⟨window, hwindow, rfl⟩)
    · rfl

/-- L07 commits for a row whose count fits its column. -/
theorem recordSecondFactorFailure_commits (hmax : 0 ≤ maxLockoutSecs)
    (hc : db.lockOf user = some c) (hfits : 0 ≤ c.mfaFailureCount ∧ c.mfaFailureCount < 2 ^ 63)
    (now : DateTime) :
    ∃ outcome db', recordSecondFactorFailure db user maxLockoutSecs now = .ok (outcome, db') := by
  obtain ⟨u, hget, rfl⟩ := lockOf_eq_some.mp hc
  change 0 ≤ u.mfaFailureCount ∧ u.mfaFailureCount < 2 ^ 63 at hfits
  have hcount : (toString (u.mfaFailureCount + 1)).utf8ByteSize ≤ 80 := by
    obtain ⟨hnonneg, hlt⟩ := hfits
    exact Text.utf8ByteSize_toString_int_le (by omega) (by omega)
  by_cases hthreshold : u.mfaFailureCount + 1 ≥ Users.mfaFailureLockoutThreshold
  · refine ⟨⟨u.mfaFailureCount + 1, true⟩, ?_⟩
    have hwindow : 0 ≤ (lockoutBackoff (u.mfaFailureCount + 1) maxLockoutSecs).getD 30 ∧
        (lockoutBackoff (u.mfaFailureCount + 1) maxLockoutSecs).getD 30 < 2 ^ 64 := by
      cases hbackoff : lockoutBackoff (u.mfaFailureCount + 1) maxLockoutSecs with
      | none => decide
      | some window => exact lockoutBackoff_bounds hmax hbackoff
    apply classA_of_ok
    · simp only [Users.incrementMfaFailure, hget, require, bind, Except.bind, pure, Except.pure,
        if_pos hthreshold]
      rfl
    · exact buildAttributes_lockout hcount (.inr ⟨_, hwindow, rfl⟩)
    · rfl
  · refine ⟨⟨u.mfaFailureCount + 1, false⟩, ?_⟩
    apply classA_of_ok
    · simp only [Users.incrementMfaFailure, hget, require, bind, Except.bind, pure, Except.pure,
        if_neg hthreshold]
      rfl
    · exact buildAttributes_lockout hcount (.inl rfl)
    · rfl

end SuiId
