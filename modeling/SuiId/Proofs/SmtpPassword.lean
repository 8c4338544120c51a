import SuiId.Core.Settings

/-!
# The SMTP password of a save without one

`email_post` takes an empty password as "keep the existing one".  It keeps it by hand: it reads
`smtp_config`, and the row that S06 writes in a later transaction carries the password of that
copy.  A confirmation (S08) that commits in between is lost: the save puts the old password back,
or none where there was none.

A save whose copy is as new as the last confirmation writes the password that is stored.  Any
number of saves may race with each other, since each of them writes the password of its copy.
-/

namespace SuiId.Settings

open Lib Lib.Machine Lib.Result

/-- The sealed password that is stored. -/
def storedPassword (w : World) : Option Bytes := w.db.smtpConfig.bind (·.passwordEnc)

/-- The password that a step confirms. -/
def confirmedPassword (x : Taken World Event Answer) : Option (Option Bytes) :=
  match x.event, x.out with
  | .commit call, .returned (.ok ()) =>
    match x.pre.calls call with
    | some (.prepared _ config) => some config.passwordEnc
    | _ => none
  | _, _ => none

/-- Whether a step is a save without a password. -/
def Event.isSave : Event → Bool
  | .emailSave _ => true
  | _ => false

/-- No confirmation has committed since the save has read its copy. -/
def saveNotOvertaken (w : World) : Event → Bool
  | .emailSave call =>
    match w.calls call with
    | some (.saving _ _ _ _ _ seen) => seen = w.confirmed
    | _ => true
  | _ => true

/-- The password of the last confirmation is stored, or the first one, and no save changes it. -/
structure PasswordKept (ctx : Context) (db : Database) (events : List Event) : Prop where
  saves : ∀ x ∈ trace (step ctx) (.new db) events, x.event.isSave = true →
    storedPassword (step ctx x.pre x.event).1 = storedPassword x.pre
  last : storedPassword (run (step ctx) (.new db) events) =
    ((trace (step ctx) (.new db) events).filterMap confirmedPassword).getLast?.getD
      (db.smtpConfig.bind (·.passwordEnc))

section Steps

variable {ctx : Context} {w : World} {e : Event}

/-- A copy that no confirmation has overtaken has the password that is stored. -/
def CopiesCurrent (w : World) : Prop :=
  ∀ call admin form startTls existing now seen,
    w.calls call = some (.saving admin form startTls existing now seen) →
      seen ≤ w.confirmed ∧
        (seen = w.confirmed → existing.bind (·.passwordEnc) = storedPassword w)

theorem CopiesCurrent.setCall {call : CallId} {c : Call} (hw : CopiesCurrent w)
    (hc : ∀ admin form startTls existing now seen,
      c = .saving admin form startTls existing now seen →
        seen ≤ w.confirmed ∧
          (seen = w.confirmed → existing.bind (·.passwordEnc) = storedPassword w)) :
    CopiesCurrent (w.setCall call c) := by
  intro call' admin form startTls existing now seen h
  rcases World.setCall_eq_some.mp h with ⟨-, h⟩ | ⟨-, h⟩
  · exact hc admin form startTls existing now seen h
  · exact hw call' admin form startTls existing now seen h

/-- Another database with the same password. -/
theorem CopiesCurrent.of_db {w' : World} (hw : CopiesCurrent w) (hcalls : w'.calls = w.calls)
    (hconfirmed : w'.confirmed = w.confirmed) (hpassword : storedPassword w' = storedPassword w) :
    CopiesCurrent w' := by
  intro call admin form startTls existing now seen h
  rw [hcalls] at h
  rw [hconfirmed, hpassword]
  exact hw call admin form startTls existing now seen h

/-- A step that is no confirmation. -/
theorem confirmedPassword_eq_none {answer : Answer}
    (h : (∀ call, e ≠ .commit call) ∨ answer ≠ .returned (.ok ())) :
    confirmedPassword ⟨w, e, answer⟩ = none := by
  unfold confirmedPassword
  split
  · next hevent hout =>
    rcases h with h | h
    · exact absurd hevent (h _)
    · exact absurd hout h
  · rfl

/-- Without a confirmation the password is to stay as it is. -/
theorem password_quiet {w' : World} {answer : Answer}
    (h : (∀ call, e ≠ .commit call) ∨ answer ≠ .returned (.ok ()))
    (hpassword : storedPassword w' = storedPassword w) :
    storedPassword w' = (confirmedPassword ⟨w, e, answer⟩).getD (storedPassword w) := by
  rw [confirmedPassword_eq_none h]
  exact hpassword

/-- What a step does to the password: a confirmation sets it, and nothing else changes it. -/
theorem password_step (ctx : Context) (hw : CopiesCurrent w) (hg : saveNotOvertaken w e = true) :
    CopiesCurrent (step ctx w e).1 ∧
      storedPassword (step ctx w e).1 =
        (confirmedPassword ⟨w, e, (step ctx w e).2⟩).getD (storedPassword w) := by
  have heffect := step_effect ctx w e
  generalize (step ctx w e).1 = w' at heffect ⊢
  generalize (step ctx w e).2 = answer at heffect ⊢
  have hended : ∀ call, CopiesCurrent (w.setCall call .ended) := fun call =>
    hw.setCall fun _ _ _ _ _ _ h => by cases h
  cases heffect with
  | ignored => exact ⟨hw, password_quiet (.inr (by nofun)) rfl⟩
  | failed => exact ⟨hw, password_quiet (.inr (by nofun)) rfl⟩
  | ended hanswer => exact ⟨hended _, password_quiet (.inr hanswer) rfl⟩
  | copied =>
    refine ⟨hw.setCall fun _ _ _ _ _ _ h => ?_, password_quiet (.inr (by nofun)) rfl⟩
    cases h
    exact ⟨le_refl _, fun _ => rfl⟩
  | @saved call admin form startTls existing now seen db hcall hcommit =>
    -- The copy is current, so the row that is written carries the stored password.
    obtain ⟨log, rfl⟩ := changeSmtpConfig_ok hcommit
    have hseen : seen = w.confirmed := by simpa [saveNotOvertaken, hcall] using hg
    have hsame : existing.bind (·.passwordEnc) = storedPassword w :=
      (hw call admin form startTls existing now seen hcall).2 hseen
    exact ⟨(hended call).of_db rfl rfl hsame, password_quiet (.inl (by nofun)) hsame⟩
  | @created _ _ _ _ _ db w₀ hcreation hw₀ _ _ hcommit =>
    obtain ⟨pending, log, -, rfl⟩ := createPendingSettingsChange_ok hcommit
    have hcommit : ∀ call, e ≠ .commit call := by
      rintro call rfl
      cases hcreation
    refine ⟨?_, password_quiet (.inl hcommit) rfl⟩
    obtain rfl | ⟨call, rfl⟩ := hw₀
    · exact hw.of_db rfl rfl rfl
    · exact (hended call).of_db rfl rfl rfl
  | peeked | prepared =>
    exact ⟨hw.setCall fun _ _ _ _ _ _ h => (by cases h), password_quiet (.inr (by nofun)) rfl⟩
  | @confirmed call application config db hcall hcommit =>
    obtain ⟨row, log, -, -, -, rfl⟩ := applyPendingSettingsChange_applied hcommit
    refine ⟨?_, by simp only [confirmedPassword, hcall]; rfl⟩
    -- Every copy is older than this confirmation now.
    intro call' admin form startTls existing now seen h
    have hle := ((hended call) call' admin form startTls existing now seen h).1
    refine ⟨Nat.le_succ_of_le hle, fun hseen => ?_⟩
    rw [hseen] at hle
    exact absurd hle (Nat.not_succ_le_self _)
  | unbound hcommit =>
    obtain ⟨log, rfl⟩ := applyPendingSettingsChange_bindingFailed hcommit
    exact ⟨(hended _).of_db rfl rfl rfl, password_quiet (.inr (by nofun)) rfl⟩
  | cancelled hcommit =>
    obtain ⟨log, rfl⟩ := cancelPendingSettingsChange_ok hcommit
    exact ⟨hw.of_db rfl rfl rfl, password_quiet (.inl (by nofun)) rfl⟩
  | purged => exact ⟨hw.of_db rfl rfl rfl, password_quiet (.inl (by nofun)) rfl⟩

end Steps

/-- In a run in which no confirmation overtakes a save, every save keeps the password, and the
password of the last confirmation is stored, or the first one. -/
theorem smtp_password_kept {ctx : Context} {db : Database} {events : List Event}
    (hg : Guarded (step ctx) (fun w e => saveNotOvertaken w e = true) (.new db) events) :
    PasswordKept ctx db events := by
  have hcopies : CopiesCurrent (.new db) := fun _ _ _ _ _ _ _ h => by cases h
  constructor
  · intro x hx hsave
    have hpre := trace_invariant (fun w e hw hge => (password_step ctx hw hge).1) hg hcopies hx
    have hstep := (password_step ctx hpre.1 hpre.2.1).2
    rw [confirmedPassword_eq_none (.inl ?_)] at hstep
    · exact hstep
    · rintro call hcommit
      rw [hcommit] at hsave
      cases hsave
  · have hlast := run_trace_history (g := fun w e => saveNotOvertaken w e = true)
      (I := fun past w => CopiesCurrent w ∧ storedPassword w =
        (past.filterMap confirmedPassword).getLast?.getD (db.smtpConfig.bind (·.passwordEnc)))
      (fun past w e hw hge => ?_) hg ⟨hcopies, rfl⟩
    · exact hlast.2
    · obtain ⟨hnext, hstep⟩ := password_step ctx hw.1 hge
      refine ⟨hnext, ?_⟩
      rw [hstep, List.filterMap_append]
      cases hconfirmed : confirmedPassword ⟨w, e, (step ctx w e).2⟩ with
      | none => simpa [hconfirmed] using hw.2
      | some password => simp [hconfirmed]

/-! ## A save and a confirmation -/

private def changedTo : SmtpPasswordChangePayload :=
  ⟨true, "h", 25, "starttls", none, "new", "a@h", none, "http://h"⟩

private def smtpContext : Context where
  P := .transparent
  key := .constant 1
  encode _ := [1]
  decode _ := some changedTo

/-- The form with an empty password field. -/
private def keepForm : EmailSettingsForm :=
  ⟨some "on", "h", 25, "starttls", "", "", "a@h", "", "http://h"⟩

private def passwordChange : List Event :=
  [.create ⟨1, 5, "smtp_password_update", changedTo, "", "csrf", 0⟩ 9 (.constant 2),
    .apply 2 ⟨9, 1, 5, "csrf", seconds 10⟩, .prepare 2 (.constant 3), .commit 2]

private def keepRead : Event := .emailPost 1 1 5 keepForm "csrf" (seconds 5) 0 (.constant 4)

theorem smtp_password_kept_run :
    Guarded (step smtpContext) (fun w e => saveNotOvertaken w e = true) (.new .empty)
        (passwordChange ++ [keepRead, .emailSave 1]) ∧
      PasswordKept smtpContext .empty (passwordChange ++ [keepRead, .emailSave 1]) := by
  have hg : Guarded (step smtpContext) (fun w e => saveNotOvertaken w e = true) (.new .empty)
      (passwordChange ++ [keepRead, .emailSave 1]) := by
    decide +kernel
  exact ⟨hg, smtp_password_kept hg⟩

/-- A save reads the settings, a change of the password is confirmed, and the save drops the new
password. -/
theorem confirmed_password_dropped :
    ¬ PasswordKept smtpContext .empty (keepRead :: passwordChange ++ [.emailSave 1]) := by
  intro h
  have hsave := h.saves _ (mem_trace_last _ (keepRead :: passwordChange) (.emailSave 1)) rfl
  have hbefore : (storedPassword (run (step smtpContext) (.new .empty)
      (keepRead :: passwordChange))).isSome = true := by
    decide +kernel
  have hafter : storedPassword (step smtpContext (run (step smtpContext) (.new .empty)
      (keepRead :: passwordChange)) (.emailSave 1)).1 = none := by
    decide +kernel
  rw [← hsave, hafter] at hbefore
  cases hbefore

end SuiId.Settings
