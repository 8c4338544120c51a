import SuiId.Lib.Machine
import SuiId.Store.Locks

/-!
# The commands that read or write a lock

`locked_until` has eight writers, and the row does not say which of them wrote it
last.  The machine below runs them in any order and keeps that as a history:
`LockWorld.lastWriter` is the last command that wrote the column of a user, which
no code reads.  U09 and U10 infer it from `mfa_failure_count` instead.
-/

namespace SuiId

open Lib Lib.Result

/-- The commands that write the lock columns. -/
inductive LockCommand where
  -- U22, L07
  | recordLoginFailure (user : UserId) (maxLockoutSecs : Int) (now : DateTime)
  | recordSecondFactorFailure (user : UserId) (maxLockoutSecs : Int) (now : DateTime)
  -- L01, L03, L02
  | signInWithPassword (session : SessionRow)
  | signInFromDirectory (shadow : Users.LdapShadowData) (sourceSlug : String)
      (session : SessionRow)
  | completeSecondFactor (pendingId : PendingMfaId) (session : SessionRow)
      (proof : SecondFactorProof)
  -- U08, U09, U10
  | adminUnlockUser (target : UserId)
  | changePasswordSelf (user : UserId) (credential : CredentialRow)
      (keepCurrentSession : Option SessionId) (revokeOthers : Bool) (now : DateTime)
  | consumeAndResetPassword (user : UserId) (token : ResetTokenId) (credential : CredentialRow)
      (consumedAt : DateTime) (hibpWarned : Bool)

namespace LockCommand

/-- The command. -/
def perform (P : Primitives) (db : Database) : LockCommand → StoreResult Database
  | .recordLoginFailure user maxLockoutSecs now =>
    (SuiId.recordLoginFailure db user maxLockoutSecs now).map (·.2)
  | .recordSecondFactorFailure user maxLockoutSecs now =>
    (SuiId.recordSecondFactorFailure db user maxLockoutSecs now).map (·.2)
  | .signInWithPassword session => (SuiId.signInWithPassword db session).map (·.2)
  | .signInFromDirectory shadow sourceSlug session =>
    (SuiId.signInFromDirectory P db shadow sourceSlug session).map (·.2)
  | .completeSecondFactor pendingId session proof =>
    (SuiId.completeSecondFactor db pendingId session proof).map (·.2)
  | .adminUnlockUser target => (SuiId.adminUnlockUser db target).map (·.2)
  | .changePasswordSelf user credential keepCurrentSession revokeOthers now =>
    (SuiId.changePasswordSelf db user credential keepCurrentSession revokeOthers now).map (·.2)
  | .consumeAndResetPassword user token credential consumedAt hibpWarned =>
    (SuiId.consumeAndResetPassword db user token credential consumedAt hibpWarned).map (·.2)

/-- The account it is about. -/
def user : LockCommand → UserId
  | .recordLoginFailure user _ _ => user
  | .recordSecondFactorFailure user _ _ => user
  | .signInWithPassword session => session.userId
  | .signInFromDirectory _ _ session => session.userId
  | .completeSecondFactor _ session _ => session.userId
  | .adminUnlockUser target => target
  | .changePasswordSelf user _ _ _ _ => user
  | .consumeAndResetPassword user _ _ _ _ => user

/-- L07. -/
def isSecondFactorFailure : LockCommand → Bool
  | .recordSecondFactorFailure .. => true
  | _ => false

/-- U09 and U10. -/
def replacesCredential : LockCommand → Bool
  | .changePasswordSelf .. | .consumeAndResetPassword .. => true
  | _ => false

/-- The statements it runs set `locked_until`, given the columns before it. -/
def writesLock (c : LockColumns) : LockCommand → Bool
  | .recordSecondFactorFailure .. => c.mfaFailureCount + 1 ≥ Users.mfaFailureLockoutThreshold
  | .changePasswordSelf .. | .consumeAndResetPassword .. =>
    c.mfaFailureCount < Users.mfaFailureLockoutThreshold
  | _ => true

/-- The columns it leaves. -/
def assign (c : LockColumns) : LockCommand → LockColumns
  | .recordLoginFailure _ maxLockoutSecs now => c.passwordFailure maxLockoutSecs now
  | .recordSecondFactorFailure _ maxLockoutSecs now => c.secondFactorFailure maxLockoutSecs now
  | .signInWithPassword _ | .signInFromDirectory .. => c.signedIn
  | .completeSecondFactor .. | .adminUnlockUser _ => .clear
  | .changePasswordSelf .. | .consumeAndResetPassword .. => c.credentialReplaced

/-- The clock value at which it refuses a locked account. -/
def refusesLockedAt : LockCommand → Option DateTime
  | .signInWithPassword session => some session.createdAt
  | .signInFromDirectory _ _ session => some session.createdAt
  | .completeSecondFactor _ session _ => some session.createdAt
  | _ => none

end LockCommand

/-- The columns of a user, or those of a row that is about to be inserted. -/
def Database.lockBefore (db : Database) (user : UserId) : LockColumns :=
  (db.lockOf user).getD .clear

/-! ## Runs -/

/-- The database, and which command last wrote a user's lock. -/
structure LockWorld where
  db : Database
  lastWriter : UserId → Option LockCommand

/-- None of the commands has run yet. -/
def LockWorld.start (db : Database) : LockWorld where
  db := db
  lastWriter _ := none

/-- A command, or another write. -/
inductive LockEvent where
  | command (command : LockCommand)
  /-- A write to any other table. -/
  | elsewhere (db : Database)

/-- The history after a committed command. -/
def LockWorld.writers (w : LockWorld) (command : LockCommand) : UserId → Option LockCommand :=
  if command.writesLock (w.db.lockBefore command.user) then
    Function.update w.lastWriter command.user (some command)
  else w.lastWriter

/-- One event. -/
def lockStep (P : Primitives) (w : LockWorld) : LockEvent → LockWorld × StoreResult Unit
  | .command command =>
    match command.perform P w.db with
    | .ok db => (⟨db, w.writers command⟩, .ok ())
    | .error e => (w, .error e)
  | .elsewhere db => ({ w with db := { db with users := w.db.users } }, .ok ())

/-! ## What a command assigns -/

/-- Every command assigns the columns of its own user, and a sign-in found them
unlocked. -/
theorem LockCommand.perform_ok {P : Primitives} {db db' : Database} {command : LockCommand}
    (h : command.perform P db = .ok db') :
    db'.lockOf = Function.update db.lockOf command.user
        (some (command.assign (db.lockBefore command.user))) ∧
      ∀ now, command.refusesLockedAt = some now →
        (db.lockBefore command.user).lockedAt now = false := by
  have hbefore : ∀ {user c}, db.lockOf user = some c → db.lockBefore user = c := by
    intro user c hc
    rw [Database.lockBefore, hc, Option.getD_some]
  cases command with
  | recordLoginFailure user maxLockoutSecs now =>
    obtain ⟨result, hcommit, rfl⟩ := map_eq_ok.mp h
    obtain ⟨c, hc, hafter⟩ := recordLoginFailure_lock hcommit
    rw [LockCommand.user, hbefore hc]
    exact ⟨hafter, fun now hnow => by cases hnow⟩
  | recordSecondFactorFailure user maxLockoutSecs now =>
    obtain ⟨result, hcommit, rfl⟩ := map_eq_ok.mp h
    obtain ⟨c, hc, hafter⟩ := recordSecondFactorFailure_lock hcommit
    rw [LockCommand.user, hbefore hc]
    exact ⟨hafter, fun now hnow => by cases hnow⟩
  | signInWithPassword session =>
    obtain ⟨result, hcommit, rfl⟩ := map_eq_ok.mp h
    obtain ⟨c, hc, hopen, hafter⟩ := signInWithPassword_lock hcommit
    rw [LockCommand.user, hbefore hc]
    exact ⟨hafter, fun now hnow => by cases hnow; exact hopen⟩
  | signInFromDirectory shadow sourceSlug session =>
    obtain ⟨result, hcommit, rfl⟩ := map_eq_ok.mp h
    obtain ⟨c, rfl, hopen, hafter⟩ := signInFromDirectory_lock hcommit
    exact ⟨hafter, fun now hnow => by cases hnow; exact hopen⟩
  | completeSecondFactor pendingId session proof =>
    obtain ⟨result, hcommit, rfl⟩ := map_eq_ok.mp h
    obtain ⟨c, hc, hopen, hafter⟩ := completeSecondFactor_lock hcommit
    rw [LockCommand.user, hbefore hc]
    exact ⟨hafter, fun now hnow => by cases hnow; exact hopen⟩
  | adminUnlockUser target =>
    obtain ⟨result, hcommit, rfl⟩ := map_eq_ok.mp h
    obtain ⟨c, hc, hafter⟩ := adminUnlockUser_lock hcommit
    rw [LockCommand.user, hbefore hc]
    exact ⟨hafter, fun now hnow => by cases hnow⟩
  | changePasswordSelf user credential keepCurrentSession revokeOthers now =>
    obtain ⟨result, hcommit, rfl⟩ := map_eq_ok.mp h
    obtain ⟨c, hc, hafter⟩ := changePasswordSelf_lock hcommit
    rw [LockCommand.user, hbefore hc]
    exact ⟨hafter, fun now hnow => by cases hnow⟩
  | consumeAndResetPassword user token credential consumedAt hibpWarned =>
    obtain ⟨result, hcommit, rfl⟩ := map_eq_ok.mp h
    obtain ⟨c, hc, hafter⟩ := consumeAndResetPassword_lock hcommit
    rw [LockCommand.user, hbefore hc]
    exact ⟨hafter, fun now hnow => by cases hnow⟩

end SuiId
