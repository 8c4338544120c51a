import SuiId.Proofs.LoginSteps
import SuiId.Core.Tokens

/-!
# What a session says about its sign-in

`auth_methods` is written in five places: L01, L02, L03 with L04 and F04, and
F03.  `complete` writes `[Pwd, method]` for whatever row of `login_pending_mfa`
it completes, and that row may continue a directory or a federated sign-in;
L03, L04 and F04 write `[Fed]` alone, which `acr_from_methods` counts as a
second factor.

`verifiedFactors` is what a sign-in has verified, from the call and the history
of its pending row.  `Truthful` compares the two, and `claims_truthful_iff` says
which sessions tell the truth.
-/

namespace SuiId

open Lib Lib.Result

/-! ## Factors -/

/-- What can be verified in a sign-in. -/
inductive Factor where
  | password
  | directory
  | provider
  | totp
  | recoveryCode
  | webauthn
deriving DecidableEq, Repr

namespace Factor

/-- A directory verifies a password, too. -/
def isPassword : Factor → Bool
  | .password | .directory => true
  | _ => false

/-- An external party verified the user. -/
def isExternal : Factor → Bool
  | .directory | .provider => true
  | _ => false

end Factor

def FirstFactor.factor : FirstFactor → Factor
  | .password _ => .password
  | .directory _ _ => .directory
  | .federation _ => .provider

def SecondFactorProof.factor : SecondFactorProof → Factor
  | .totp _ => .totp
  | .recoveryCode _ _ => .recoveryCode
  | .webauthn => .webauthn

def PromotionMethod.factor : PromotionMethod → Factor
  | .totp => .totp
  | .recoveryCode => .recoveryCode
  | .webauthn => .webauthn

/-- The factors verified in the sign-in that the next step of a call completes. -/
def FlowCall.verifiedFactors (origins : PendingMfaId → Option FirstFactor) :
    FlowCall → List Factor
  | .withoutFactor first _ => [first.factor]
  | .provisioning _ _ => [.provider]
  | .codeChecked pending proof _ =>
    (origins pending.id).toList.map FirstFactor.factor ++
      proof.toList.map SecondFactorProof.factor
  | .assertionVerified pending =>
    (origins pending.id).toList.map FirstFactor.factor ++ [.webauthn]
  | .fedDecided _ proof _ =>
    .provider :: (proof.bind F03Proof.method).toList.map PromotionMethod.factor
  | _ => []

def FlowWorld.verifiedFactors (w : FlowWorld) : FlowEvent → List Factor
  | .next id _ => (w.calls id).elim [] (FlowCall.verifiedFactors w.origins)
  | _ => []

/-! ## Claims -/

/-- The methods say what was verified, and the level of `acr_from_methods` is
earned. -/
structure Truthful (methods : List AuthMethod) (factors : List Factor) : Prop where
  pwd : .pwd ∈ methods → ∃ f ∈ factors, f.isPassword = true
  fed : .fed ∈ methods ↔ ∃ f ∈ factors, f.isExternal = true
  totp : .totp ∈ methods ↔ .totp ∈ factors
  recoveryCode : .recoveryCode ∈ methods ↔ .recoveryCode ∈ factors
  webauthn : .webauthn ∈ methods ↔ .webauthn ∈ factors
  acr : acrFromMethods methods = "2" ∨ acrFromMethods methods = "3" →
    ∃ f ∈ factors, ∃ f' ∈ factors, f ≠ f'

instance (methods : List AuthMethod) (factors : List Factor) :
    Decidable (Truthful methods factors) :=
  decidable_of_iff
    ((.pwd ∈ methods → ∃ f ∈ factors, f.isPassword = true) ∧
      (.fed ∈ methods ↔ ∃ f ∈ factors, f.isExternal = true) ∧
      (.totp ∈ methods ↔ .totp ∈ factors) ∧ (.recoveryCode ∈ methods ↔ .recoveryCode ∈ factors) ∧
      (.webauthn ∈ methods ↔ .webauthn ∈ factors) ∧
      (acrFromMethods methods = "2" ∨ acrFromMethods methods = "3" →
        ∃ f ∈ factors, ∃ f' ∈ factors, f ≠ f'))
    ⟨fun h => ⟨h.1, h.2.1, h.2.2.1, h.2.2.2.1, h.2.2.2.2.1, h.2.2.2.2.2⟩,
      fun h => ⟨h.pwd, h.fed, h.totp, h.recoveryCode, h.webauthn, h.acr⟩⟩

/-- L01, L02 on a row that a password has issued, and F03. -/
def FlowCall.recordsFactors (origins : PendingMfaId → Option FirstFactor) : FlowCall → Prop
  | .withoutFactor (.password _) _ => True
  | .codeChecked pending _ _ | .assertionVerified pending =>
    ∃ credential, origins pending.id = some (.password credential)
  | .fedDecided _ _ _ => True
  | _ => False

def FlowWorld.recordsFactors (w : FlowWorld) : FlowEvent → Prop
  | .next id _ => ∃ call, w.calls id = some call ∧ call.recordsFactors w.origins
  | _ => False

/-! ## Every session -/

private theorem truthful_password : Truthful [.pwd] [.password] := by decide

/-- What `complete` writes is true after a password, and after nothing else. -/
private theorem truthful_second_factor (origin : Option FirstFactor) (proof : SecondFactorProof) :
    Truthful [.pwd, proof.authMethod] (origin.toList.map FirstFactor.factor ++ [proof.factor]) ↔
      ∃ credential, origin = some (.password credential) := by
  cases origin with
  | none => cases proof <;> simp +decide [SecondFactorProof.authMethod, SecondFactorProof.factor]
  | some first =>
    cases first <;> cases proof <;>
      simp +decide [SecondFactorProof.authMethod, SecondFactorProof.factor, FirstFactor.factor]

/-- What F03 writes is true. -/
private theorem truthful_promoted (method : PromotionMethod) :
    Truthful [.fed, method.authMethod] [.provider, method.factor] := by
  cases method with
  | totp => decide
  | recoveryCode => decide
  | webauthn => decide

/-- `Fed` alone claims a second factor. -/
private theorem not_truthful_external {f : Factor} : ¬ Truthful [.fed] [f] := by
  intro h
  obtain ⟨f₁, hf₁, f₂, hf₂, hne⟩ := h.acr (by decide)
  rw [List.mem_singleton] at hf₁ hf₂
  exact hne (hf₁.trans hf₂.symm)

/-- A checked code carries the method of its proof. -/
def MethodsMatch (w : FlowWorld) : Prop :=
  ∀ id call proof method, w.calls id = some call → call.codeProof = some (proof, method) →
    proof.authMethod = method

section Runs

variable {P : Primitives} {key : MasterKey} {maxLockoutSecs : Int}

theorem methodsMatch_step {w : FlowWorld} {e : FlowEvent} (hinv : MethodsMatch w) :
    MethodsMatch (flowStep P key maxLockoutSecs w e).1 := by
  intro id call' proof method hcall' hcode
  rcases flowStep_calls hcall' with ⟨hold, -⟩ | ⟨request, -, hstart⟩ |
    ⟨draw, call, -, hcall, hnext⟩
  · exact hinv id call' proof method hold hcode
  · rw [(FlowRequest.start_carries hstart).2.2.2] at hcode
    cases hcode
  · exact (advance_next hnext).method hcode

/-- One commit. -/
private theorem committed_truthful_iff {db : Database} {draw : FlowDraw} {call : FlowCall}
    {result : FlowResult} {origins : PendingMfaId → Option FirstFactor} {session : SessionRow}
    (hmethod : ∀ proof method, call.codeProof = some (proof, method) → proof.authMethod = method)
    (h : Committed P key db draw call result) (hout : result.out = .signedIn session) :
    Truthful session.authMethods (call.verifiedFactors origins) ↔ call.recordsFactors origins := by
  cases h with
  | password h =>
    cases hout
    exact iff_of_true truthful_password trivial
  | directory | federation | provisioned =>
    cases hout
    exact iff_of_false not_truthful_external nofun
  | code h =>
    cases hout
    obtain ⟨rfl, -⟩ := completeSecondFactor_ok h
    rename_i pending proof method db'
    obtain rfl := hmethod proof method rfl
    exact truthful_second_factor (origins pending.id) proof
  | assertion h =>
    cases hout
    obtain ⟨rfl, -⟩ := completeSecondFactor_ok h
    rename_i pending db'
    exact truthful_second_factor (origins pending.id) .webauthn
  | promoted h =>
    cases hout
    obtain ⟨row, method, -, hproof, rfl⟩ := completeFederatedMfa_session h
    refine iff_of_true ?_ trivial
    simp only [FlowCall.verifiedFactors, hproof]
    exact truthful_promoted method
  | directoryPending h => cases hout
  | passwordPending h => cases hout
  | federationPending h => cases hout
  | changed h => cases hout

/-- In every run, a session tells the truth about its sign-in exactly when it was
opened by L01, by L02 on a row that a password has issued, or by F03. -/
theorem claims_truthful_iff {db : Database} {origins : PendingMfaId → Option FirstFactor}
    {es : List FlowEvent} :
    ∀ x ∈ flowTrace P key maxLockoutSecs (.start db origins) es, ∀ session,
      x.out = .signedIn session →
        (Truthful session.authMethods (x.pre.verifiedFactors x.event) ↔
          x.pre.recordsFactors x.event) := by
  intro x hx session hsigned
  have hstart : MethodsMatch (.start db origins) := by
    intro id call proof method hcall
    cases hcall
  obtain ⟨hinv, -, hout⟩ := Machine.trace_invariant (fun _ _ hinv _ => methodsMatch_step hinv)
    (Machine.guarded_true _ es) hstart hx
  obtain ⟨id, draw, call, result, hevent, hcall, hcommitted, hanswer⟩ :=
    signedIn_committed hout hsigned
  have hiff : Truthful session.authMethods (call.verifiedFactors x.pre.origins) ↔
      call.recordsFactors x.pre.origins :=
    committed_truthful_iff (fun proof method => hinv id call proof method hcall) hcommitted hanswer
  simp only [hevent, FlowWorld.verifiedFactors, FlowWorld.recordsFactors, hcall, Option.elim_some,
    Option.some.injEq, exists_eq_left']
  exact hiff

end Runs

/-! ## A directory user with an authenticator -/

/-- User 7 is the shadow of a directory entry and has confirmed an
authenticator. -/
def directoryDb : Database :=
  { Database.empty with
    users := ⟨[{ plainUser 7 "ada" .user with
                 source := .ldap, externalStableId := some "uid-7" }], by decide⟩
    userTotp := sampleAuthenticators }

/-- The directory has verified the password; L08 asks for the code; L02 completes
the sign-in. -/
def directoryWithCode : List FlowEvent :=
  [.begin 0 (.directory ⟨"ada", none, none, "uid-7"⟩ "corp" (some 7) .any),
    .next 0 (.sample (seconds 1)), .next 0 (.sample (seconds 1)), .next 0 (.sample (seconds 1)),
    .begin 1 (.mfaChallenge ⟨none, "", some 50⟩ "" "0"),
    .next 1 (.sample (seconds 2)), .next 1 (.sample (seconds 2)), .next 1 (.sample (seconds 2))]

/-- Its steps. -/
abbrev directoryTrace : List FlowTaken :=
  flowTrace .transparent (.constant 7) 86400 (.start directoryDb fun _ => none) directoryWithCode

private theorem directoryWithCode_length : 7 < directoryTrace.length := by
  decide

private theorem directoryWithCode_methods :
    (directoryTrace[7].out.session.map (·.authMethods)) = some [.pwd, .totp] := by
  decide +kernel

theorem claims_truthful_iff_directoryWithCode :
    directoryTrace[7].out.session.isSome = true ∧
      ∀ session, directoryTrace[7].out.session = some session →
        (Truthful session.authMethods
            (directoryTrace[7].pre.verifiedFactors directoryTrace[7].event) ↔
          directoryTrace[7].pre.recordsFactors directoryTrace[7].event) := by
  refine ⟨by decide +kernel, fun session hsession => ?_⟩
  exact claims_truthful_iff _ (List.getElem_mem directoryWithCode_length) session
    (FlowAnswer.session_eq_some.mp hsession)

/-- The session of a directory user says that the server verified a password, and
no external party. -/
theorem directory_session_untruthful :
    ¬ ∀ x ∈ directoryTrace, ∀ session, x.out = .signedIn session →
      Truthful session.authMethods (x.pre.verifiedFactors x.event) := by
  intro h
  obtain ⟨session, hsession, hmethods⟩ := Option.map_eq_some_iff.mp directoryWithCode_methods
  have htruthful := h _ (List.getElem_mem directoryWithCode_length) session
    (FlowAnswer.session_eq_some.mp hsession)
  rw [hmethods] at htruthful
  revert htruthful
  decide +kernel

end SuiId
