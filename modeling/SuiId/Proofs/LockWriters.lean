import SuiId.Core.Login
import SuiId.Store.Locks

/-!
# The two writers of a lock

U22 and L07 write the same `locked_until`, each from its own counter and without
reading what is there.  An attempt that passed the lock check before a lock was
set commits after it, so a live lock can be replaced:

* U22 writes `NULL` at the first and second failure of the password, and the
  window of its own count from the third on;
* L07 leaves the lock alone below its threshold and writes the window of its own
  count from there on.

`LockKept` is the promise about one event of a run of sign-in attempts.
`FailureCovers` says when the written lock reaches as far as the one it replaces,
in terms of the counters before the step.  Where the counters fit their columns,
the two are the same (`lockKept_iff`).
-/

namespace SuiId

open Lib Lib.Result

/-! ## Failures -/

/-- A failure that a call is about to count. -/
inductive CountedFailure where
  | password (user : UserId)
  | secondFactor (user : UserId)

/-- The calls whose next access is U22 or L07. -/
def FlowCall.failure : FlowCall → Option CountedFailure
  | .passwordWrong user => some (.password user)
  | .codeChecked pending none _ => some (.secondFactor pending.userId)
  | .secondFactorRejected user => some (.secondFactor user)
  | _ => none

namespace CountedFailure

def user : CountedFailure → UserId
  | .password user => user
  | .secondFactor user => user

/-- U22 or L07. -/
def record (maxLockoutSecs : Int) (db : Database) (now : DateTime) :
    CountedFailure → StoreResult Database
  | .password user => (recordLoginFailure db user maxLockoutSecs now).map (·.2)
  | .secondFactor user => (recordSecondFactorFailure db user maxLockoutSecs now).map (·.2)

/-- The columns it leaves. -/
def assign (maxLockoutSecs : Int) (now : DateTime) (c : LockColumns) :
    CountedFailure → LockColumns
  | .password _ => c.passwordFailure maxLockoutSecs now
  | .secondFactor _ => c.secondFactorFailure maxLockoutSecs now

/-- The window of the counter reaches as far as the lock `t`. -/
def Reaches (maxLockoutSecs : Int) (now t : DateTime) (c : LockColumns) : CountedFailure → Prop
  | .password _ =>
    (lockoutBackoff (c.failedLoginCount + 1) maxLockoutSecs).any
      fun window => t ≤ now + seconds window
  | .secondFactor _ =>
    c.mfaFailureCount + 1 ≥ Users.mfaFailureLockoutThreshold →
      t ≤ now + seconds ((lockoutBackoff (c.mfaFailureCount + 1) maxLockoutSecs).getD 30)

instance decidableReaches (maxLockoutSecs : Int) (now t : DateTime) (c : LockColumns) :
    (failure : CountedFailure) → Decidable (failure.Reaches maxLockoutSecs now t c)
  | .password _ => inferInstanceAs (Decidable (_ = true))
  | .secondFactor _ => inferInstanceAs (Decidable (_ → _))

end CountedFailure

/-- The failure that an event counts, and its clock value. -/
def failureAt (w : FlowWorld) : FlowEvent → Option (CountedFailure × DateTime)
  | .next id draw =>
    ((w.calls id).bind FlowCall.failure).map fun failure => (failure, draw.now)
  | _ => none

section Promise

variable (P : Primitives) (key : MasterKey) (maxLockoutSecs : Int)

/-- No U22 or L07 replaces a live lock by none or by an earlier one, whoever's
it is. -/
def LockKept (w : FlowWorld) (e : FlowEvent) : Prop :=
  ∀ failure now, failureAt w e = some (failure, now) → ∀ user c t, w.db.lockOf user = some c →
    c.lockedUntil = some t → now < t →
    ∃ c' t', (flowStep P key maxLockoutSecs w e).1.db.lockOf user = some c' ∧
      c'.lockedUntil = some t' ∧ t ≤ t'

/-- The window that a failure is about to write reaches as far as the live lock
on its user. -/
def FailureCovers (w : FlowWorld) (e : FlowEvent) : Prop :=
  ∀ counted ∈ failureAt w e, ∀ c ∈ w.db.lockOf counted.1.user, ∀ t ∈ c.lockedUntil,
    counted.2 < t → counted.1.Reaches maxLockoutSecs counted.2 t c

instance decidableFailureCovers (w : FlowWorld) (e : FlowEvent) :
    Decidable (FailureCovers maxLockoutSecs w e) :=
  inferInstanceAs (Decidable (∀ counted ∈ failureAt w e, ∀ c ∈ w.db.lockOf counted.1.user,
    ∀ t ∈ c.lockedUntil, counted.2 < t → counted.1.Reaches maxLockoutSecs counted.2 t c))

end Promise

/-- Both counters fit their 64-bit columns. -/
def LockColumns.Fits (c : LockColumns) : Prop :=
  (0 ≤ c.failedLoginCount ∧ c.failedLoginCount < 2 ^ 63) ∧
    (0 ≤ c.mfaFailureCount ∧ c.mfaFailureCount < 2 ^ 63)

/-- The counters of every account do. -/
def CountersFit (db : Database) : Prop := ∀ user c, db.lockOf user = some c → c.Fits

/-! ## One failure -/

section Failure

variable {P : Primitives} {key : MasterKey} {maxLockoutSecs : Int} {db db' : Database}
  {now t : DateTime} {failure : CountedFailure} {c : LockColumns}

theorem CountedFailure.record_ok (h : failure.record maxLockoutSecs db now = .ok db') :
    ∃ c, db.lockOf failure.user = some c ∧
      db'.lockOf = Function.update db.lockOf failure.user
        (some (failure.assign maxLockoutSecs now c)) := by
  cases failure with
  | password user =>
    obtain ⟨⟨count, db₁⟩, hcommit, rfl⟩ := map_eq_ok.mp h
    exact recordLoginFailure_lock hcommit
  | secondFactor user =>
    obtain ⟨⟨outcome, db₁⟩, hcommit, rfl⟩ := map_eq_ok.mp h
    exact recordSecondFactorFailure_lock hcommit

theorem CountedFailure.record_commits (hmax : 0 ≤ maxLockoutSecs)
    (hc : db.lockOf failure.user = some c) (hfits : c.Fits) (now : DateTime) :
    ∃ db', failure.record maxLockoutSecs db now = .ok db' := by
  cases failure with
  | password user =>
    obtain ⟨count, db', hcommit⟩ := recordLoginFailure_commits hmax hc hfits.1 now
    exact ⟨db', map_eq_ok.mpr ⟨_, hcommit, rfl⟩⟩
  | secondFactor user =>
    obtain ⟨outcome, db', hcommit⟩ := recordSecondFactorFailure_commits hmax hc hfits.2 now
    exact ⟨db', map_eq_ok.mpr ⟨_, hcommit, rfl⟩⟩

/-- The written columns still hold a lock until `t` exactly when the window
reaches it. -/
theorem CountedFailure.reaches_iff (hlock : c.lockedUntil = some t) :
    failure.Reaches maxLockoutSecs now t c ↔
      ∃ t', (failure.assign maxLockoutSecs now c).lockedUntil = some t' ∧ t ≤ t' := by
  cases failure with
  | password user =>
    simp only [Reaches, assign, LockColumns.passwordFailure, Option.map_eq_some_iff,
      Option.any_eq_true, decide_eq_true_eq]
    constructor
    · rintro ⟨window, hwindow, hle⟩
      exact ⟨now + seconds window, ⟨window, hwindow, rfl⟩, hle⟩
    · rintro ⟨t', ⟨window, hwindow, rfl⟩, hle⟩
      exact ⟨window, hwindow, hle⟩
  | secondFactor user =>
    simp only [Reaches, assign, LockColumns.secondFactorFailure]
    split
    · rename_i hthreshold
      constructor
      · intro hle
        exact ⟨_, rfl, hle hthreshold⟩
      · rintro ⟨t', ht', hle⟩ -
        exact Option.some.inj ht' ▸ hle
    · rename_i hthreshold
      constructor
      · intro _
        exact ⟨t, hlock, Int.le_refl t⟩
      · intro _ habove
        exact absurd habove hthreshold

/-- The step of a call that counts a failure is its transaction. -/
theorem advance_failure {call : FlowCall} (h : call.failure = some failure) (draw : FlowDraw) :
    (call.advance P key maxLockoutSecs db draw).db =
      (failure.record maxLockoutSecs db draw.now).toOption.getD db := by
  unfold FlowCall.failure at h
  split at h
  · cases h
    simp only [FlowCall.advance, CountedFailure.record]
    cases recordLoginFailure db _ maxLockoutSecs draw.now <;> rfl
  · cases h
    simp only [FlowCall.advance, finishPending, CountedFailure.record]
    cases recordSecondFactorFailure db _ maxLockoutSecs draw.now <;> rfl
  · cases h
    simp only [FlowCall.advance, CountedFailure.record]
    cases recordSecondFactorFailure db _ maxLockoutSecs draw.now <;> rfl
  · cases h

end Failure

/-! ## One event -/

section Event

variable {P : Primitives} {key : MasterKey} {maxLockoutSecs : Int} {w : FlowWorld} {e : FlowEvent}
  {failure : CountedFailure} {now : DateTime}

/-- The database after a counted failure. -/
theorem flowStep_failure (h : failureAt w e = some (failure, now)) :
    (flowStep P key maxLockoutSecs w e).1.db =
      (failure.record maxLockoutSecs w.db now).toOption.getD w.db := by
  unfold failureAt at h
  split at h
  · rename_i id draw
    obtain ⟨failure', hbind, heq⟩ := Option.map_eq_some_iff.mp h
    cases heq
    obtain ⟨call, hcall, hfailure⟩ := Option.bind_eq_some_iff.mp hbind
    simp only [flowStep, hcall]
    exact advance_failure hfailure draw
  · cases h

/-- A failure whose window reaches the lock keeps it. -/
theorem lockKept_of_covers (h : FailureCovers maxLockoutSecs w e) :
    LockKept P key maxLockoutSecs w e := by
  intro failure now hcounts user c t hc hlock hlive
  rw [flowStep_failure hcounts]
  cases hrecord : failure.record maxLockoutSecs w.db now with
  | error _ => exact ⟨c, t, hc, hlock, Int.le_refl t⟩
  | ok db' =>
    obtain ⟨c₀, hc₀, hafter⟩ := CountedFailure.record_ok hrecord
    simp only [Except.toOption, Option.getD_some, hafter]
    by_cases huser : user = failure.user
    · subst huser
      cases hc.symm.trans hc₀
      obtain ⟨t', ht', hle⟩ := (CountedFailure.reaches_iff hlock).mp
        (h (failure, now) hcounts c hc t hlock hlive)
      exact ⟨_, t', Function.update_self .., ht', hle⟩
    · rw [Function.update_of_ne huser]
      exact ⟨c, t, hc, hlock, Int.le_refl t⟩

/-- And only such a failure does. -/
theorem lockKept_iff (hmax : 0 ≤ maxLockoutSecs) (hfits : CountersFit w.db) :
    LockKept P key maxLockoutSecs w e ↔ FailureCovers maxLockoutSecs w e := by
  refine ⟨?_, lockKept_of_covers⟩
  intro h ⟨failure, now⟩ hcounts c hc t hlock hlive
  obtain ⟨c', t', hc', ht', hle⟩ := h failure now hcounts failure.user c t hc hlock hlive
  obtain ⟨db', hrecord⟩ := CountedFailure.record_commits hmax hc (hfits _ c hc) now
  obtain ⟨c₀, hc₀, hafter⟩ := CountedFailure.record_ok hrecord
  cases hc.symm.trans hc₀
  rw [flowStep_failure hcounts, hrecord] at hc'
  simp only [Except.toOption, Option.getD_some, hafter, Function.update_self] at hc'
  rw [← Option.some.inj hc'] at ht'
  exact (CountedFailure.reaches_iff hlock).mpr ⟨t', ht', hle⟩

end Event

/-! ## Runs -/

/-- In a run whose failures all write windows that reach the live lock, no U22 or L07
weakens a lock; as long as the counters fit their columns, in no other run either. -/
theorem failures_keep_lock (P : Primitives) (key : MasterKey) (maxLockoutSecs : Int)
    (w : FlowWorld) (es : List FlowEvent) :
    (Machine.Guarded (flowStep P key maxLockoutSecs) (FailureCovers maxLockoutSecs) w es →
      Machine.Guarded (flowStep P key maxLockoutSecs) (LockKept P key maxLockoutSecs) w es) ∧
    (0 ≤ maxLockoutSecs →
      Machine.Guarded (flowStep P key maxLockoutSecs) (fun w _ => CountersFit w.db) w es →
      Machine.Guarded (flowStep P key maxLockoutSecs) (LockKept P key maxLockoutSecs) w es →
      Machine.Guarded (flowStep P key maxLockoutSecs) (FailureCovers maxLockoutSecs) w es) := by
  constructor
  · exact Machine.Guarded.mono fun _ _ => lockKept_of_covers
  · intro hmax hfits hkept
    refine (hfits.and hkept).mono fun w e h => ?_
    exact (lockKept_iff hmax h.1).mp h.2

/-- Two wrong passwords of user 7 that are checked side by side, the third failure and the
fourth: the second write reaches further than the first. -/
def sideBySide : List FlowEvent :=
  [.begin 1 (.login "ben" "no" .any), .next 1 (.sample (seconds 1)),
    .begin 2 (.login "ben" "nono" .any), .next 2 (.sample (seconds 1)),
    .next 1 (.sample (seconds 1)), .next 2 (.sample (seconds 1)), .next 1 (.sample (seconds 2)),
    .next 2 (.sample (seconds 3))]

/-- User 7 has failed two passwords. -/
def twoFailuresDb : Database :=
  { passwordDb with
    users := ⟨[{ plainUser 7 "ben" .user with failedLoginCount := 2 }], by decide⟩ }

theorem failures_keep_lock_sideBySide :
    Machine.Guarded (flowStep .transparent (.constant 7) 86400)
      (LockKept .transparent (.constant 7) 86400) (.start twoFailuresDb fun _ => none)
      sideBySide := by
  refine (failures_keep_lock .transparent (.constant 7) 86400 _ sideBySide).1 ?_
  decide +kernel

/-! ## A lock that is written away -/

/-- User 7 has failed four second factors, and a fifth is under way. -/
def fourFailuresDb : Database :=
  { passwordDb with
    users := ⟨[{ plainUser 7 "ben" .user with mfaFailureCount := 4 }], by decide⟩
    userTotp := sampleAuthenticators
    loginPendingMfa := ⟨[{ id := 50, userId := 7, expiresAt := seconds 300, createdAt := 0 }],
      by decide⟩ }

/-- A wrong password passes the lock check; then the fifth wrong second factor locks the
account. -/
def lockedMeanwhile : List FlowEvent :=
  [.begin 1 (.login "ben" "no" .any), .next 1 (.sample (seconds 1)), .next 1 (.sample (seconds 1)),
    .begin 2 (.assertion 50), .next 2 (.sample (seconds 2)), .next 2 (.sample (seconds 2)),
    .next 2 (.sample (seconds 2))]

/-- The failure of the password is counted. -/
def countedAfterwards : FlowEvent := .next 1 (.sample (seconds 3))

/-- The lock of five minutes is gone after one second. -/
theorem lock_written_away :
    ¬ Machine.Guarded (flowStep .transparent (.constant 7) 86400)
        (LockKept .transparent (.constant 7) 86400) (.start fourFailuresDb fun _ => none)
        (lockedMeanwhile ++ [countedAfterwards]) := by
  intro h
  have hlast : LockKept .transparent (.constant 7) 86400
      (Machine.run (flowStep .transparent (.constant 7) 86400)
        (.start fourFailuresDb fun _ => none) lockedMeanwhile) countedAfterwards :=
    (Machine.guarded_append.mp h).2.1
  have hbefore : (Machine.run (flowStep .transparent (.constant 7) 86400)
      (.start fourFailuresDb fun _ => none) lockedMeanwhile).db.lockOf 7 =
        some ⟨0, some (seconds 302), 5⟩ := by
    decide +kernel
  have hafter : (flowStep .transparent (.constant 7) 86400
      (Machine.run (flowStep .transparent (.constant 7) 86400)
        (.start fourFailuresDb fun _ => none) lockedMeanwhile) countedAfterwards).1.db.lockOf 7 =
        some ⟨1, none, 5⟩ := by
    decide +kernel
  have hcounts : failureAt (Machine.run (flowStep .transparent (.constant 7) 86400)
      (.start fourFailuresDb fun _ => none) lockedMeanwhile) countedAfterwards =
        some (.password 7, seconds 3) := rfl
  obtain ⟨c', t', hc', ht', -⟩ := hlast (.password 7) (seconds 3) hcounts 7 _ _ hbefore rfl
    (by decide)
  rw [hafter] at hc'
  cases hc'
  cases ht'

end SuiId
