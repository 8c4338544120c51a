import SuiId.Core.AccountLocks

/-!
# Who holds a lock

U09 and U10 lift the lock of the password and must not lift that of the second
factor.  They read `mfa_failure_count` to tell them apart.  `CauseInferred` is
why that works: whenever L07 was the last to write `locked_until`, the counter
is at the threshold.  It is kept by all eight commands, since each of them that
lowers the counter also writes the lock.
-/

namespace SuiId

open Lib Lib.Result

/-- L07 was the last to write the lock of the user. -/
def LockWorld.HeldBySecondFactor (w : LockWorld) (user : UserId) : Prop :=
  ∃ command, w.lastWriter user = some command ∧ command.isSecondFactorFailure = true

/-- The counter tells that L07 was the last to write. -/
def CauseInferred (w : LockWorld) : Prop :=
  ∀ user, w.HeldBySecondFactor user →
    Users.mfaFailureLockoutThreshold ≤ (w.db.lockBefore user).mfaFailureCount

/-- What a command that is run in `w` and leaves `w'` promises about the lock of
the second factor. -/
structure SecondFactorLockKept (w w' : LockWorld) (command : LockCommand) : Prop where
  /-- A new credential does not touch it. -/
  credential : command.replacesCredential = true → ∀ user c, w.HeldBySecondFactor user →
    w.db.lockOf user = some c →
    ∃ c', w'.db.lockOf user = some c' ∧ c'.lockedUntil = c.lockedUntil ∧
      c'.mfaFailureCount = c.mfaFailureCount
  /-- The counter goes up with L07, and down with L02 on an unlocked account or
  with U08. -/
  count : ∀ user c, w.db.lockOf user = some c →
    ∃ c', w'.db.lockOf user = some c' ∧
      (c'.mfaFailureCount = c.mfaFailureCount ∨
        (∃ maxLockoutSecs now, command = .recordSecondFactorFailure user maxLockoutSecs now ∧
          c'.mfaFailureCount = c.mfaFailureCount + 1) ∨
        (∃ pendingId session proof, command = .completeSecondFactor pendingId session proof ∧
          session.userId = user ∧ c.lockedAt session.createdAt = false) ∨
        command = .adminUnlockUser user)

/-- The promise about an event. -/
def LockEvent.KeepsSecondFactorLock (P : Primitives) (w : LockWorld) (e : LockEvent) : Prop :=
  ∀ command, e = .command command → SecondFactorLockKept w (lockStep P w e).1 command

/-! ## The invariant -/

section Invariant

variable {P : Primitives} {w : LockWorld} {command : LockCommand} {db' : Database}

theorem lockBefore_update {db : Database} {user k : UserId} {c : LockColumns}
    (h : db'.lockOf = Function.update db.lockOf user (some c)) :
    db'.lockBefore k = if k = user then c else db.lockBefore k := by
  unfold Database.lockBefore
  rw [h]
  split
  · rename_i hk
    rw [hk, Function.update_self, Option.getD_some]
  · rename_i hk
    rw [Function.update_of_ne hk]

/-- A command that leaves L07 as the last writer leaves the counter at the
threshold. -/
theorem assign_threshold {c : LockColumns}
    (hheld : command.writesLock c = true → command.isSecondFactorFailure = true)
    (hbefore : command.writesLock c = false →
      Users.mfaFailureLockoutThreshold ≤ c.mfaFailureCount) :
    Users.mfaFailureLockoutThreshold ≤ (command.assign c).mfaFailureCount := by
  cases command with
  | recordSecondFactorFailure user maxLockoutSecs now =>
    simp only [LockCommand.assign, LockColumns.secondFactorFailure]
    cases hwrites :
        (LockCommand.recordSecondFactorFailure user maxLockoutSecs now).writesLock c with
    | true => exact of_decide_eq_true hwrites
    | false =>
      have hcount := hbefore hwrites
      omega
  | changePasswordSelf | consumeAndResetPassword =>
    exact hbefore (Bool.eq_false_iff.mpr fun hwrites => by cases hheld hwrites)
  | _ => cases hheld rfl

/-- A committed command keeps the invariant. -/
theorem causeInferred_command (hw : CauseInferred w) (h : command.perform P w.db = .ok db') :
    CauseInferred ⟨db', w.writers command⟩ := by
  rintro user ⟨writer, hwriter, hsecond⟩
  rw [lockBefore_update (LockCommand.perform_ok h).1]
  simp only [LockWorld.writers] at hwriter
  split
  · rename_i huser
    subst huser
    apply assign_threshold
    · intro hwrites
      rw [if_pos hwrites, Function.update_self] at hwriter
      exact Option.some.inj hwriter ▸ hsecond
    · intro hwrites
      rw [if_neg (by simp [hwrites])] at hwriter
      exact hw _ ⟨writer, hwriter, hsecond⟩
  · rename_i huser
    apply hw user
    split at hwriter
    · rw [Function.update_of_ne huser] at hwriter
      exact ⟨writer, hwriter, hsecond⟩
    · exact ⟨writer, hwriter, hsecond⟩

theorem causeInferred_step (w : LockWorld) (e : LockEvent) (hw : CauseInferred w) :
    CauseInferred (lockStep P w e).1 := by
  cases e with
  | command command =>
    simp only [lockStep]
    split
    · rename_i hperform
      exact causeInferred_command hw hperform
    · exact hw
  | elsewhere db => exact hw

end Invariant

/-! ## The promise -/

section Promise

variable {P : Primitives} {w : LockWorld} {command : LockCommand} {db' : Database}

/-- The counter after a committed command. -/
theorem assign_count {c : LockColumns} {user : UserId} (huser : command.user = user)
    (hopen : ∀ now, command.refusesLockedAt = some now → c.lockedAt now = false) :
    (command.assign c).mfaFailureCount = c.mfaFailureCount ∨
      (∃ maxLockoutSecs now, command = .recordSecondFactorFailure user maxLockoutSecs now ∧
        (command.assign c).mfaFailureCount = c.mfaFailureCount + 1) ∨
      (∃ pendingId session proof, command = .completeSecondFactor pendingId session proof ∧
        session.userId = user ∧ c.lockedAt session.createdAt = false) ∨
      command = .adminUnlockUser user := by
  subst huser
  cases command with
  | recordSecondFactorFailure user maxLockoutSecs now =>
    exact .inr (.inl ⟨maxLockoutSecs, now, rfl, rfl⟩)
  | completeSecondFactor pendingId session proof =>
    exact .inr (.inr (.inl ⟨pendingId, session, proof, rfl, rfl, hopen _ rfl⟩))
  | adminUnlockUser target => exact .inr (.inr (.inr rfl))
  | _ => exact .inl rfl

/-- U09 and U10 leave the lock of an account at the threshold alone. -/
theorem assign_credential {c : LockColumns} (hreplaces : command.replacesCredential = true)
    (hcount : Users.mfaFailureLockoutThreshold ≤ c.mfaFailureCount) :
    (command.assign c).lockedUntil = c.lockedUntil ∧
      (command.assign c).mfaFailureCount = c.mfaFailureCount := by
  have hassign : command.assign c = c.credentialReplaced := by
    cases command with
    | changePasswordSelf => rfl
    | consumeAndResetPassword => rfl
    | _ => cases hreplaces
  rw [hassign]
  exact ⟨if_pos hcount, rfl⟩

/-- A command that changes nothing keeps the promise. -/
theorem SecondFactorLockKept.refl (w : LockWorld) (command : LockCommand) :
    SecondFactorLockKept w w command :=
  ⟨fun _ _ c _ hc => ⟨c, hc, rfl, rfl⟩, fun _ c hc => ⟨c, hc, .inl rfl⟩⟩

/-- A committed command keeps it. -/
theorem secondFactorLockKept_command (hw : CauseInferred w)
    (h : command.perform P w.db = .ok db') :
    SecondFactorLockKept w ⟨db', w.writers command⟩ command := by
  obtain ⟨hafter, hopen⟩ := LockCommand.perform_ok h
  constructor
  · intro hreplaces user c hheld hc
    by_cases huser : user = command.user
    · subst huser
      have hbefore : w.db.lockBefore command.user = c := by
        rw [Database.lockBefore, hc, Option.getD_some]
      have hcount := hw _ hheld
      rw [hbefore] at hafter hcount
      obtain ⟨huntil, hkept⟩ := assign_credential hreplaces hcount
      exact ⟨command.assign c, by rw [hafter, Function.update_self], huntil, hkept⟩
    · exact ⟨c, by rw [hafter, Function.update_of_ne huser, hc], rfl, rfl⟩
  · intro user c hc
    by_cases huser : user = command.user
    · subst huser
      have hbefore : w.db.lockBefore command.user = c := by
        rw [Database.lockBefore, hc, Option.getD_some]
      rw [hbefore] at hafter hopen
      exact ⟨command.assign c, by rw [hafter, Function.update_self], assign_count rfl hopen⟩
    · exact ⟨c, by rw [hafter, Function.update_of_ne huser, hc], .inl rfl⟩

theorem keepsSecondFactorLock_step (w : LockWorld) (e : LockEvent) (hw : CauseInferred w) :
    e.KeepsSecondFactorLock P w := by
  rintro command rfl
  simp only [lockStep]
  split
  · rename_i hperform
    exact secondFactorLockKept_command hw hperform
  · exact .refl w command

end Promise

/-- In every run of the eight commands, U09 and U10 leave a lock alone that L07 was the
last to write, and the counter of the second factor is reset by L02 on an unlocked account
and by U08 only. -/
theorem second_factor_lock_kept (P : Primitives) (db : Database) (es : List LockEvent) :
    Machine.Guarded (lockStep P) (LockEvent.KeepsSecondFactorLock P) (.start db) es := by
  refine Machine.guarded_of_invariant causeInferred_step keepsSecondFactorLock_step ?_ es
  rintro user ⟨command, hcommand, -⟩
  cases hcommand

end SuiId
