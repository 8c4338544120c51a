import SuiId.Proofs.LoginSteps

/-!
# The second factor and its gate

Whether a user is asked for a second factor is decided by two reads,
`user_totp` and then `user_webauthn_credentials`.  L01, L03 and L04 commit the
session later and read neither again, so a factor that U12 or U15 adds in
between is not asked for.

`NoEnrolmentBetween` keeps enrolments out of that window.  Under it a call that
has found no factor stays right, and no session is committed past the gate.
-/

namespace SuiId

open Lib Lib.Result

/-! ## Statements -/

/-- The user whom the next step of a call signs in without a second factor: by
L01, L03 or L04. -/
def FlowWorld.unasked (w : FlowWorld) : FlowEvent → Option UserId
  | .next id _ => (w.calls id).bind FlowCall.noPasskey
  | _ => none

/-- The step commits a session of `user`, and no second factor was asked for. -/
def SignsInUnasked (x : FlowTaken) (user : UserId) : Prop :=
  (∃ session, x.out = .signedIn session) ∧ x.pre.unasked x.event = some user

/-- A user gets a factor only while no sign-in of that user has read that there
is none of the kind. -/
def NoEnrolmentBetween (w : FlowWorld) (e : FlowEvent) : Prop :=
  ∀ id call, w.calls id = some call →
    match e with
    | .confirmTotp user _ _ _ => call.noTotp ≠ some user
    | .registerPasskey row => call.noPasskey ≠ some row.userId
    | _ => True

/-- Does the step draw an identifier for a directory user who is not known? -/
def FlowWorld.drawsUser (w : FlowWorld) : FlowEvent → Bool
  | .next id _ =>
    match w.calls id with
    | some (.directoryVerified _ _ none _) => true
    | _ => false
  | _ => false

/-- The identifier drawn for a new directory user belongs to nobody with a
factor. -/
def FreshUser (w : FlowWorld) (e : FlowEvent) : Prop :=
  w.drawsUser e = true → ∀ id draw, e = .next id draw → hasFactor w.db draw.userId = false

/-! ## The invariant -/

/-- What the calls in flight have read about factors still holds. -/
structure GateCurrent (w : FlowWorld) : Prop where
  totp : ∀ id call user, w.calls id = some call → call.noTotp = some user →
    UserTotp.isEnabled w.db user = false
  passkeys : ∀ id call user, w.calls id = some call → call.noPasskey = some user →
    WebauthnCredentials.hasAny w.db user = false

theorem hasFactor_eq_false {db : Database} {user : UserId} :
    hasFactor db user = false ↔
      UserTotp.isEnabled db user = false ∧ WebauthnCredentials.hasAny db user = false := by
  simp only [hasFactor, Bool.or_eq_false_iff]

section Runs

variable {P : Primitives} {key : MasterKey} {maxLockoutSecs : Int} {w : FlowWorld} {e : FlowEvent}
variable {id : FlowId} {call' : FlowCall} {user : UserId}

private theorem totp_step (hinv : GateCurrent w) (hguard : NoEnrolmentBetween w e)
    (hfresh : FreshUser w e)
    (hcall' : (flowStep P key maxLockoutSecs w e).1.calls id = some call')
    (hno : call'.noTotp = some user) :
    UserTotp.isEnabled (flowStep P key maxLockoutSecs w e).1.db user = false := by
  by_contra hnew
  have henabled := (@flowStep_factors P key maxLockoutSecs w e user).1 (by simpa using hnew)
  rcases flowStep_calls hcall' with ⟨hold, -⟩ | ⟨request, -, hstart⟩ |
    ⟨draw, call, rfl, hcall, hnext⟩
  · rcases henabled with henabled | ⟨codes, step, now, rfl⟩
    · rw [hinv.totp id call' user hold hno] at henabled
      cases henabled
    · exact hguard id call' hold hno
  · rw [(FlowRequest.start_carries hstart).2.1] at hno
    cases hno
  · have hbefore : UserTotp.isEnabled w.db user = true := by
      rcases henabled with henabled | ⟨_, _, _, heq⟩
      · exact henabled
      · cases heq
    have hread : UserTotp.isEnabled w.db user = false := by
      rcases (advance_next hnext).noTotp hno with hinherited | hread |
        ⟨⟨shadow, sourceSlug, audience, rfl⟩, rfl⟩
      · exact hinv.totp id call user hcall hinherited
      · exact hread
      · have hdraws : w.drawsUser (.next id draw) = true := by simp [FlowWorld.drawsUser, hcall]
        exact (hasFactor_eq_false.mp (hfresh hdraws id draw rfl)).1
    rw [hread] at hbefore
    cases hbefore

private theorem passkeys_step (hinv : GateCurrent w) (hguard : NoEnrolmentBetween w e)
    (hfresh : FreshUser w e)
    (hcall' : (flowStep P key maxLockoutSecs w e).1.calls id = some call')
    (hno : call'.noPasskey = some user) :
    WebauthnCredentials.hasAny (flowStep P key maxLockoutSecs w e).1.db user = false := by
  by_contra hnew
  have hany := (@flowStep_factors P key maxLockoutSecs w e user).2 (by simpa using hnew)
  rcases flowStep_calls hcall' with ⟨hold, -⟩ | ⟨request, -, hstart⟩ |
    ⟨draw, call, rfl, hcall, hnext⟩
  · rcases hany with hany | ⟨row, rfl, huser⟩
    · rw [hinv.passkeys id call' user hold hno] at hany
      cases hany
    · exact hguard id call' hold (huser ▸ hno)
  · rw [(FlowRequest.start_carries hstart).2.2.1] at hno
    cases hno
  · have hbefore : WebauthnCredentials.hasAny w.db user = true := by
      rcases hany with hany | ⟨_, heq, -⟩
      · exact hany
      · cases heq
    have hread : WebauthnCredentials.hasAny w.db user = false := by
      rcases (advance_next hnext).noPasskey hno with hread |
        ⟨⟨shadow, sourceSlug, audience, rfl⟩, rfl⟩
      · exact hread
      · have hdraws : w.drawsUser (.next id draw) = true := by simp [FlowWorld.drawsUser, hcall]
        exact (hasFactor_eq_false.mp (hfresh hdraws id draw rfl)).2
    rw [hread] at hbefore
    cases hbefore

theorem gateCurrent_step (hinv : GateCurrent w) (hguard : NoEnrolmentBetween w e)
    (hfresh : FreshUser w e) : GateCurrent (flowStep P key maxLockoutSecs w e).1 :=
  ⟨fun _ _ _ => totp_step hinv hguard hfresh, fun _ _ _ => passkeys_step hinv hguard hfresh⟩

/-- A call that has found no passkey has found no TOTP row before. -/
private theorem noTotp_of_noPasskey {call : FlowCall} (h : call.noPasskey = some user) :
    call.noTotp = some user := by
  cases call with
  | withoutFactor first user' => exact h
  | _ => cases h

/-- No L01, L03 or L04 commits a session of a user who has a second factor. -/
theorem second_factor_asked {db : Database} {es : List FlowEvent}
    {origins : PendingMfaId → Option FirstFactor}
    (hguard : Machine.Guarded (flowStep P key maxLockoutSecs) NoEnrolmentBetween
      (.start db origins) es)
    (hfresh : Machine.Guarded (flowStep P key maxLockoutSecs) FreshUser (.start db origins) es) :
    ∀ x ∈ flowTrace P key maxLockoutSecs (.start db origins) es, ∀ user,
      SignsInUnasked x user → hasFactor x.pre.db user = false := by
  intro x hx user hsigns
  have hstart : GateCurrent (.start db origins) := by
    constructor
    · intro id call user hcall
      cases hcall
    · intro id call user hcall
      cases hcall
  obtain ⟨hinv, -, -⟩ := Machine.trace_invariant
    (fun _ _ hinv hg => gateCurrent_step hinv hg.1 hg.2) (hguard.and hfresh) hstart hx
  obtain ⟨-, hunasked⟩ := hsigns
  cases hevent : x.event with
  | next id draw =>
    rw [hevent] at hunasked
    obtain ⟨call, hcall, hno⟩ := Option.bind_eq_some_iff.mp hunasked
    rw [hasFactor_eq_false]
    exact ⟨hinv.totp id call user hcall (noTotp_of_noPasskey hno),
      hinv.passkeys id call user hcall hno⟩
  | _ => simp [hevent, FlowWorld.unasked] at hunasked

end Runs

/-! ## An enrolment between the reads and the commit -/

/-- The steps of a sign-in of user 7 with a password, up to the two reads. -/
def loginReads : List FlowEvent :=
  [.begin 0 (.login "ben" "old" .any), .next 0 (.sample (seconds 1)),
    .next 0 (.sample (seconds 1)), .next 0 (.sample (seconds 2)), .next 0 (.sample (seconds 2))]

/-- Both halves of a TOTP enrolment of user 7. -/
def totpEnrolment : List FlowEvent :=
  [.enrollTotp 7 [1] (seconds 3), .confirmTotp 7 [2] 0 (seconds 4)]

def enrolmentBeforeCommit : List FlowEvent :=
  loginReads ++ totpEnrolment ++ ([.next 0 (.sample (seconds 5))] : List FlowEvent)

private theorem enrolmentBeforeCommit_length :
    7 < (flowTrace .transparent (.constant 7) 86400 (.start passwordDb fun _ => none)
      enrolmentBeforeCommit).length := by
  decide

/-- A user who has an authenticator is signed in with a password alone. -/
theorem enrolled_factor_skipped :
    ¬ ∀ x ∈ flowTrace .transparent (.constant 7) 86400 (.start passwordDb fun _ => none)
        enrolmentBeforeCommit, ∀ user,
      SignsInUnasked x user → hasFactor x.pre.db user = false := by
  intro h
  have hfactor := h _ (List.getElem_mem enrolmentBeforeCommit_length) 7
    ⟨⟨passwordSession (.sample (seconds 5)) 7, rfl⟩, by decide +kernel⟩
  revert hfactor
  decide +kernel

/-- The enrolment comes when the session is there. -/
def enrolmentAfterCommit : List FlowEvent :=
  loginReads ++ ([.next 0 (.sample (seconds 3))] : List FlowEvent) ++ totpEnrolment

private theorem enrolmentAfterCommit_fresh :
    Machine.Guarded (flowStep .transparent (.constant 7) 86400)
      (fun w e => w.drawsUser e = false) (.start passwordDb fun _ => none)
      enrolmentAfterCommit := by
  decide +kernel

/-- No call is in flight when the enrolment is confirmed. -/
private theorem calls_before_confirm (id : FlowId) :
    (Machine.run (flowStep .transparent (.constant 7) 86400) (.start passwordDb fun _ => none)
      (loginReads ++ [.next 0 (.sample (seconds 3)), .enrollTotp 7 [1] (seconds 3)])).calls id =
        none := by
  by_cases hid : id = 0
  · subst hid
    exact Option.isNone_iff_eq_none.mp (by decide +kernel)
  · refine flowRun_calls_none rfl fun e he request heq => ?_
    subst heq
    simp [loginReads, hid] at he

theorem second_factor_asked_enrolmentAfterCommit :
    (flowTrace .transparent (.constant 7) 86400 (.start passwordDb fun _ => none)
        enrolmentAfterCommit).countP (·.out.effective) = 1 ∧
      ∀ x ∈ flowTrace .transparent (.constant 7) 86400 (.start passwordDb fun _ => none)
        enrolmentAfterCommit, ∀ user, SignsInUnasked x user → hasFactor x.pre.db user = false := by
  have hguard : Machine.Guarded (flowStep .transparent (.constant 7) 86400) NoEnrolmentBetween
      (.start passwordDb fun _ => none) enrolmentAfterCommit := by
    have hquiet : ∀ w id draw, NoEnrolmentBetween w (.next id draw) := fun _ _ _ _ _ _ => trivial
    refine Machine.guarded_append.mpr ⟨⟨fun _ _ _ => trivial, hquiet _ _ _, hquiet _ _ _,
      hquiet _ _ _, hquiet _ _ _, hquiet _ _ _, trivial⟩, fun _ _ _ => trivial, ?_, trivial⟩
    intro id call hcall
    have hnone := calls_before_confirm id
    rw [List.append_cons, Machine.run_append] at hnone
    exact absurd (hnone.symm.trans hcall) nofun
  have hfresh : Machine.Guarded (flowStep .transparent (.constant 7) 86400) FreshUser
      (.start passwordDb fun _ => none) enrolmentAfterCommit := by
    refine enrolmentAfterCommit_fresh.mono fun w e hno hdraws => ?_
    rw [hno] at hdraws
    cases hdraws
  exact ⟨by decide +kernel, second_factor_asked hguard hfresh⟩

end SuiId
