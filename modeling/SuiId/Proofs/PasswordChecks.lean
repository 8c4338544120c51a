import SuiId.Proofs.LoginSteps
import SuiId.Core.SignIns

/-!
# Password checks and the credentials they are made against

`login_with_mfa` and `change_password_self` read the credential, verify the
password outside every transaction, and commit later.  None of L01,
`issue_pending_mfa` and U09 reads the credential again, and U10 does not wait
for them.  U09 and U10 leave the pending rows alone, too.

A check is current while the row it was made against is stored.  It stays so in
every run in which no credential is replaced under a call that has verified the
old one (`NoCheckInFlight`); a pending row that was issued on a check stays
current if none is stored either (`NoRowContinues`).
-/

namespace SuiId

open Lib Lib.Result

/-! ## Statements -/

/-- The password check that the next step of a call rests on. -/
def FlowWorld.check (w : FlowWorld) : FlowEvent → Option (UserId × CredentialRow)
  | .next id _ => (w.calls id).bind FlowCall.check
  | _ => none

/-- The step commits a session, a pending row or a credential on the strength of
a check of `user` against `checked`. -/
def RestsOn (x : FlowTaken) (user : UserId) (checked : CredentialRow) : Prop :=
  x.out.effective = true ∧ x.pre.check x.event = some (user, checked)

/-- The step signs `user` in with a second factor, on a pending row that was
issued on a check against `checked`. -/
def Continues (x : FlowTaken) (user : UserId) (checked : CredentialRow) : Prop :=
  ∃ session, x.out = .signedIn session ∧ session.userId = user ∧
    x.pre.continued x.event = some (.password checked)

/-- A credential is replaced only while no other call has verified a password of
its user. -/
def NoCheckInFlight (w : FlowWorld) (e : FlowEvent) : Prop :=
  ∀ replacement, w.replacement e = some replacement →
    ∀ id call checked, w.calls id = some call → (∀ draw, e ≠ .next id draw) →
      call.check ≠ some (replacement.userId, checked)

/-- A credential is replaced only while no pending row of its user was issued on
a password. -/
def NoRowContinues (w : FlowWorld) (e : FlowEvent) : Prop :=
  ∀ replacement, w.replacement e = some replacement →
    ∀ r ∈ w.db.loginPendingMfa, r.userId = replacement.userId →
      ∀ checked, w.origins r.id ≠ some (.password checked)

theorem noCheckInFlight_of_none {w : FlowWorld} {e : FlowEvent} (h : w.replacement e = none) :
    NoCheckInFlight w e := by
  intro replacement hreplacement
  rw [h] at hreplacement
  cases hreplacement

theorem noRowContinues_of_none {w : FlowWorld} {e : FlowEvent} (h : w.replacement e = none) :
    NoRowContinues w e := by
  intro replacement hreplacement
  rw [h] at hreplacement
  cases hreplacement

/-! ## The invariants -/

/-- Every check in flight is current. -/
def ChecksCurrent (w : FlowWorld) : Prop :=
  ∀ id call user checked, w.calls id = some call → call.check = some (user, checked) →
    w.db.credentials.get? user = some checked

/-- Every pending row that was issued on a check is current. -/
def RowsCurrent (w : FlowWorld) : Prop :=
  ∀ r ∈ w.db.loginPendingMfa, ∀ checked, w.origins r.id = some (.password checked) →
    w.db.credentials.get? r.userId = some checked

section Runs

variable {P : Primitives} {key : MasterKey} {maxLockoutSecs : Int} {w : FlowWorld} {e : FlowEvent}

/-- A credential that the event does not replace is still stored after it. -/
private theorem credential_kept {user : UserId} {checked : CredentialRow}
    (hget : w.db.credentials.get? user = some checked)
    (hother : ∀ replacement, w.replacement e = some replacement → replacement.userId ≠ user) :
    (flowStep P key maxLockoutSecs w e).1.db.credentials.get? user = some checked := by
  rcases @flowStep_credentials P key maxLockoutSecs w e with hsame | ⟨replacement, hrep, hupsert⟩
  · rw [hsame]
    exact hget
  · rw [hupsert, Table.get?_upsert, if_neg (hother replacement hrep)]
    exact hget

/-- A call that goes on has replaced nothing. -/
private theorem credentials_of_next {id : FlowId} {draw : FlowDraw} {call call' : FlowCall}
    (hcall : w.calls id = some call)
    (hnext : (call.advance P key maxLockoutSecs w.db draw).next = some call')
    (hcarries : call'.bare = false) :
    (flowStep P key maxLockoutSecs w (.next id draw)).1.db.credentials = w.db.credentials := by
  rw [flowStep_next hcall]
  rcases advance_cases call with hsilent | hcommitted
  · exact hsilent.credentials
  · rw [hcommitted.next_bare hnext] at hcarries
    cases hcarries

theorem checksCurrent_step (hinv : ChecksCurrent w) (hguard : NoCheckInFlight w e) :
    ChecksCurrent (flowStep P key maxLockoutSecs w e).1 := by
  intro id call' user checked hcall' hcheck
  rcases flowStep_calls hcall' with ⟨hold, hnot⟩ | ⟨request, -, hstart⟩ |
    ⟨draw, call, rfl, hcall, hnext⟩
  · refine credential_kept (hinv id call' user checked hold hcheck) fun replacement hrep huser => ?_
    refine hguard replacement hrep id call' checked hold hnot ?_
    rw [huser]
    exact hcheck
  · rw [(FlowRequest.start_carries hstart).1] at hcheck
    cases hcheck
  · have hcarries : call'.bare = false := by
      by_contra hbare
      rw [(call'.bare_carries (by simpa using hbare)).1] at hcheck
      cases hcheck
    rw [credentials_of_next hcall hnext hcarries]
    rcases (advance_next hnext).check hcheck with hinherited | hread
    · exact hinv id call user checked hcall hinherited
    · exact hread

theorem rowsCurrent_step (hchecks : ChecksCurrent w) (hinv : RowsCurrent w)
    (hguard : NoRowContinues w e) : RowsCurrent (flowStep P key maxLockoutSecs w e).1 := by
  intro r hr checked horigin
  rcases flowStep_pendings hr with ⟨hold, hsame⟩ |
    ⟨id, draw, call, first, rfl, hcall, -, hcheck, -, hissued, hcredentials⟩
  · rw [hsame] at horigin
    refine credential_kept (hinv r hold checked horigin) fun replacement hrep huser => ?_
    exact hguard replacement hrep r hold huser.symm checked horigin
  · rw [hissued] at horigin
    cases horigin
    rw [hcredentials]
    exact hchecks id call r.userId checked hcall hcheck

/-- Every session, pending row and credential that commits on the strength of a
password check was checked against the credential stored at that commit, and so
was every session that a second factor completes. -/
theorem password_check_current {db : Database} {es : List FlowEvent}
    (hguard : Machine.Guarded (flowStep P key maxLockoutSecs) NoCheckInFlight
      (.start db fun _ => none) es) :
    (∀ x ∈ flowTrace P key maxLockoutSecs (.start db fun _ => none) es, ∀ user checked,
        RestsOn x user checked → x.pre.db.credentials.get? user = some checked) ∧
      (Machine.Guarded (flowStep P key maxLockoutSecs) NoRowContinues
          (.start db fun _ => none) es →
        ∀ x ∈ flowTrace P key maxLockoutSecs (.start db fun _ => none) es, ∀ user checked,
          Continues x user checked → x.pre.db.credentials.get? user = some checked) := by
  have hchecks : ChecksCurrent (.start db fun _ => none) := by
    intro id call user checked hcall
    cases hcall
  have hrows : RowsCurrent (.start db fun _ => none) := by
    intro r hr checked horigin
    cases horigin
  constructor
  · intro x hx user checked hrests
    obtain ⟨hinv, -, -⟩ := Machine.trace_invariant (fun _ _ => checksCurrent_step) hguard hchecks hx
    obtain ⟨-, hcheck⟩ := hrests
    cases hevent : x.event with
    | next id draw =>
      rw [hevent] at hcheck
      obtain ⟨call, hcall, hcarried⟩ := Option.bind_eq_some_iff.mp hcheck
      exact hinv id call user checked hcall hcarried
    | _ => simp [hevent, FlowWorld.check] at hcheck
  · intro hguard' x hx user checked hcontinues
    have hstep : ∀ w e, ChecksCurrent w ∧ RowsCurrent w → NoCheckInFlight w e ∧ NoRowContinues w e →
        ChecksCurrent (flowStep P key maxLockoutSecs w e).1 ∧
          RowsCurrent (flowStep P key maxLockoutSecs w e).1 :=
      fun w e hinv hg => ⟨checksCurrent_step hinv.1 hg.1, rowsCurrent_step hinv.1 hinv.2 hg.2⟩
    obtain ⟨⟨-, hcurrent⟩, -, hout⟩ :=
      Machine.trace_invariant hstep (hguard.and hguard') ⟨hchecks, hrows⟩ hx
    obtain ⟨session, hsigned, rfl, hcontinued⟩ := hcontinues
    obtain ⟨r, hr, huser, -, horigin, -⟩ := continued_row hout hsigned hcontinued
    rw [← huser]
    exact hcurrent r hr checked horigin

end Runs

/-! ## A reset between a check and its commit -/

/-- A change of password is verified against the old one; the reset commits; the
change follows. -/
def changeAfterReset : List FlowEvent :=
  [.begin 0 (.changePassword 7 "old" (.ok "mine") none false), .next 0 (.sample (seconds 1)),
    .resetPassword 7 1 ⟨7, "new", seconds 2⟩ (seconds 2) false, .next 0 (.sample (seconds 3))]

private theorem changeAfterReset_length :
    3 < (flowTrace .transparent (.constant 7) 86400 (.start passwordDb fun _ => none)
      changeAfterReset).length := by
  decide

/-- The change replaces a credential it was not checked against. -/
theorem reset_undone_by_old_password :
    ¬ ∀ x ∈ flowTrace .transparent (.constant 7) 86400 (.start passwordDb fun _ => none)
        changeAfterReset, ∀ user checked,
      RestsOn x user checked → x.pre.db.credentials.get? user = some checked := by
  intro h
  have hcurrent := h _ (List.getElem_mem changeAfterReset_length) 7 ⟨7, "old", 0⟩
    ⟨by decide +kernel, by decide +kernel⟩
  revert hcurrent
  decide +kernel

/-- The reset comes first, and the user signs in with the new password. -/
def loginAfterReset : List FlowEvent :=
  [.resetPassword 7 1 ⟨7, "new", seconds 2⟩ (seconds 2) false, .begin 0 (.login "ben" "new" .any),
    .next 0 (.sample (seconds 3)), .next 0 (.sample (seconds 3)), .next 0 (.sample (seconds 4)),
    .next 0 (.sample (seconds 4)), .next 0 (.sample (seconds 5))]

private theorem loginAfterReset_replacements :
    Machine.Guarded (flowStep .transparent (.constant 7) 86400) (fun w e => w.replacement e = none)
      (flowStep .transparent (.constant 7) 86400 (.start passwordDb fun _ => none)
        (.resetPassword 7 1 ⟨7, "new", seconds 2⟩ (seconds 2) false)).1 loginAfterReset.tail := by
  decide +kernel

theorem password_check_current_loginAfterReset :
    (flowTrace .transparent (.constant 7) 86400 (.start passwordDb fun _ => none)
        loginAfterReset).countP (·.out.effective) = 1 ∧
      (∀ x ∈ flowTrace .transparent (.constant 7) 86400 (.start passwordDb fun _ => none)
        loginAfterReset, ∀ user checked,
        RestsOn x user checked ∨ Continues x user checked →
          x.pre.db.credentials.get? user = some checked) := by
  have hchecks : Machine.Guarded (flowStep .transparent (.constant 7) 86400) NoCheckInFlight
      (.start passwordDb fun _ => none) loginAfterReset := by
    refine ⟨?_, loginAfterReset_replacements.mono fun _ _ => noCheckInFlight_of_none⟩
    intro replacement hreplacement id call checked hcall
    cases hcall
  have hrows : Machine.Guarded (flowStep .transparent (.constant 7) 86400) NoRowContinues
      (.start passwordDb fun _ => none) loginAfterReset := by
    refine ⟨?_, loginAfterReset_replacements.mono fun _ _ => noRowContinues_of_none⟩
    intro replacement hreplacement r hr huser checked horigin
    cases horigin
  refine ⟨by decide +kernel, fun x hx user checked h => ?_⟩
  rcases h with hrests | hcontinues
  · exact (password_check_current hchecks).1 x hx user checked hrests
  · exact (password_check_current hchecks).2 hrows x hx user checked hcontinues

end SuiId
