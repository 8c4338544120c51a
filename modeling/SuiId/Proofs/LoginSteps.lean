import SuiId.Core.Login

/-!
# What a step of a sign-in can do

`Advances` lists what a step of a call can do; the rest follows from it.  A step
either ends in one of eleven commits or is silent: it answers nothing, and it adds
neither a credential nor a factor nor a pending row.  `advance_cases` says which, with
the transaction each commit ran.

A call carries what earlier steps have read.  `advance_next` says that it gets
each such fact either from the call it was before or from the database of the
step.
-/

namespace SuiId

open Lib Lib.Result FlowResult

/-! ## Silent steps -/

/-- The answers of a commit. -/
def FlowAnswer.effective : FlowAnswer → Bool
  | .signedIn _ | .mfaRequired _ | .passwordChanged _ => true
  | _ => false

def FlowAnswer.session : FlowAnswer → Option SessionRow
  | .signedIn session => some session
  | _ => none

theorem FlowAnswer.session_eq_some {out : FlowAnswer} {session : SessionRow} :
    out.session = some session ↔ out = .signedIn session := by
  cases out with
  | signedIn session' => simp [FlowAnswer.session]
  | _ => simp [FlowAnswer.session]

/-- A step that commits nothing a sign-in rests on. -/
structure Silent (db : Database) (result : FlowResult) : Prop where
  credentials : result.db.credentials = db.credentials
  totp : result.db.userTotp = db.userTotp
  factors : FactorsKept db result.db
  pendings : LoginPendingMfa.NoneAdded db.loginPendingMfa result.db.loginPendingMfa
  silent : result.out.effective = false

namespace Silent

variable {db db' : Database}

theorem reads (result : FlowResult) (hdb : result.db = db) (hout : result.out.effective = false) :
    Silent db result := by
  refine ⟨by rw [hdb], by rw [hdb], ?_, ?_, hout⟩
  · rw [hdb]
    exact .of_eq rfl rfl
  · intro r hr
    rwa [hdb] at hr

theorem goOn (call : FlowCall) : Silent db (FlowResult.goOn db call) := reads _ rfl rfl

theorem refuse (error : CoreError) : Silent db (FlowResult.refuse db error) := reads _ rfl rfl

theorem audienceRefused : Silent db (FlowResult.done db .audienceRefused) := reads _ rfl rfl

theorem not_mfaRequired {result : FlowResult} (h : Silent db result) (row : LoginPendingMfaRow) :
    result.out ≠ .mfaRequired row := by
  intro hout
  have hsilent := h.silent
  rw [hout] at hsilent
  cases hsilent

/-- The tables a sign-in rests on are untouched. -/
theorem of_eq {result : FlowResult} (hcredentials : result.db.credentials = db.credentials)
    (htotp : result.db.userTotp = db.userTotp)
    (hpasskeys : result.db.webauthnCredentials = db.webauthnCredentials)
    (hpendings : LoginPendingMfa.NoneAdded db.loginPendingMfa result.db.loginPendingMfa)
    (hout : result.out.effective = false) : Silent db result :=
  ⟨hcredentials, htotp, .of_eq htotp hpasskeys, hpendings, hout⟩

end Silent

/-! ## Commits -/

section Commits

variable (P : Primitives) (key : MasterKey) (db : Database) (draw : FlowDraw)

/-- A step that commits, with the transaction it ran. -/
inductive Committed : FlowCall → FlowResult → Prop where
  /-- L01 -/
  | password {credential user evicted db'}
      (h : signInWithPassword db (passwordSession draw user) = .ok (evicted, db')) :
      Committed (.withoutFactor (.password credential) user)
        (done db' (.signedIn (passwordSession draw user)))
  /-- L03 -/
  | directory {shadow sourceSlug user evicted db'} (h : signInFromDirectory P db shadow sourceSlug
        (externalSession draw.sessionId user draw.now) = .ok (evicted, db')) :
      Committed (.withoutFactor (.directory shadow sourceSlug) user)
        (done db' (.signedIn (externalSession draw.sessionId user draw.now)))
  /-- L04 -/
  | federation {signIn : FederatedSignIn} {user evicted db'}
      (h : signInFederated db signIn.attemptId signIn.providerId signIn.providerSlug
        (externalSession draw.sessionId user signIn.now) = .ok (evicted, db')) :
      Committed (.withoutFactor (.federation signIn) user)
        (done db' (.signedIn (externalSession draw.sessionId user signIn.now)))
  /-- F04 -/
  | provisioned {signIn : FederatedSignIn} {profile evicted db'}
      (h : provisionFederatedUser P db signIn.attemptId signIn.providerId
        (FederatedSignIn.newUser draw.userId profile) (signIn.link draw.userId)
        (externalSession draw.sessionId draw.userId signIn.now) = .ok (evicted, db')) :
      Committed (.provisioning signIn profile)
        (done db' (.signedIn (externalSession draw.sessionId draw.userId signIn.now)))
  /-- L08 -/
  | directoryPending {shadow sourceSlug user db'}
      (h : signInFromDirectoryMfaRequired P db shadow (buildPendingMfaRow draw user) =
        .ok (buildPendingMfaRow draw user, db')) :
      Committed (.withFactor (.directory shadow sourceSlug) user)
        (done db' (.mfaRequired (buildPendingMfaRow draw user)))
  /-- `issue_pending_mfa` after a password -/
  | passwordPending {credential user db'}
      (h : LoginPendingMfa.insert db (buildPendingMfaRow draw user) = .ok db') :
      Committed (.withFactor (.password credential) user)
        (done db' (.mfaRequired (buildPendingMfaRow draw user)))
  /-- `issue_pending_mfa` after F02 -/
  | federationPending {signIn user db'}
      (h : LoginPendingMfa.insert db (buildPendingMfaRow draw user) = .ok db') :
      Committed (.continuationIssued signIn user)
        (done db' (.mfaRequired (buildPendingMfaRow draw user)))
  /-- L02 after a code -/
  | code {pending : LoginPendingMfaRow} {proof method session db'}
      (h : completeSecondFactor db pending.id
        (secondFactorSession draw.sessionId pending.userId method draw.now) proof =
          .ok (session, db')) :
      Committed (.codeChecked pending (some proof) method) (done db' (.signedIn session))
  /-- L02 after an assertion -/
  | assertion {pending : LoginPendingMfaRow} {session db'} (h : completeSecondFactor db pending.id
        (secondFactorSession draw.sessionId pending.userId .webauthn draw.now) .webauthn =
          .ok (session, db')) :
      Committed (.assertionVerified pending) (done db' (.signedIn session))
  /-- F03 -/
  | promoted {pending proof generic session evicted method db'}
      (h : completeFederatedMfa P key db pending proof draw.sessionId draw.now =
        .ok (.promoted session evicted method, db')) :
      Committed (.fedDecided pending proof generic)
        ⟨db', some (.fedPromoted generic), .signedIn session⟩
  /-- U09 -/
  | changed {user checked replacement keepCurrentSession revokeOthers swept db'}
      (h : changePasswordSelf db user replacement keepCurrentSession revokeOthers draw.now =
        .ok (swept, db')) :
      Committed (.changeVerified user checked replacement keepCurrentSession revokeOthers)
        (done db' (.passwordChanged replacement))

end Commits

/-! ## One step -/

def FirstFactor.isFederation : FirstFactor → Bool
  | .federation _ => true
  | _ => false

namespace FlowCall

/-- A call of `try_login` or of `directory_session`. -/
def isLogin : FlowCall → Bool
  | .submitted .. | .accountRead .. | .passwordWrong _ | .directoryVerified .. => true
  | .verified first _ | .withoutTotp first _ | .withFactor first _ | .withoutFactor first _ =>
    !first.isFederation
  | _ => false

/-- A call that rests on nothing that earlier steps have found. -/
def bare : FlowCall → Bool
  | .accountRead .. | .passwordWrong _ | .callbackFailed _ | .fedRowRead .. | .fedUserRead ..
  | .fedBound .. | .fedWithoutCeremony .. | .fedRejected _ | .fedPromoted _
  | .secondFactorRejected _ => true
  | _ => false

end FlowCall

section Advances

variable (P : Primitives) (key : MasterKey) (maxLockoutSecs : Int) (db : Database)
  (draw : FlowDraw)

/-- What a step of a call can do: what it has read, what it writes, and what comes next. -/
inductive Advances : FlowCall → FlowResult → Prop where
  | committed {call result} (h : Committed P key db draw call result) : Advances call result
  /-- Nothing is written, and the call ends. -/
  | ends {call out} (hout : out.effective = false) : Advances call (done db out)
  /-- Nothing is written, and the call goes on with nothing to rest on. -/
  | goesOn {call call'} (hcall : call.isLogin = false) (hbare : call'.bare = true) :
      Advances call (goOn db call')
  -- `login_with_mfa`
  | accountFound {username password audience user} :
      Advances (.submitted username password audience)
        (goOn db (.accountRead user password audience))
  | passwordRefused {user password audience} :
      Advances (.accountRead user password audience) (goOn db (.passwordWrong user.id))
  | passwordRight {user password audience credential}
      (h : db.credentials.get? user.id = some credential) :
      Advances (.accountRead user password audience)
        (goOn db (.verified (.password credential) user.id))
  | loginCounted {user count db' error}
      (h : recordLoginFailure db user maxLockoutSecs draw.now = .ok (count, db')) :
      Advances (.passwordWrong user) (refuse db' error)
  -- `directory_session`
  | shadowFound {shadow sourceSlug knownUser audience user} :
      Advances (.directoryVerified shadow sourceSlug knownUser audience)
        (goOn db (.verified (.directory shadow sourceSlug) user))
  | shadowNew {shadow sourceSlug audience} :
      Advances (.directoryVerified shadow sourceSlug none audience)
        (goOn db (.withoutFactor (.directory shadow sourceSlug) draw.userId))
  -- the federated callback
  | linked {signIn user db'} (h : FederationLink.upsert db (signIn.link user) = .ok db') :
      Advances (.callbackResolved signIn user) (goOn db' (.callbackLinked signIn user))
  | active {signIn user} :
      Advances (.callbackLinked signIn user) (goOn db (.verified (.federation signIn) user))
  | attemptFailed {signIn db' error}
      (h : FederationLoginAttempt.terminalizeFailed db signIn.attemptId signIn.now = .ok db') :
      Advances (.callbackFailed signIn) (refuse db' error)
  | continued {signIn user issued db'}
      (h : issueFederatedMfaPending P key db (signIn.pendingRequest P draw user) =
        .ok (issued, db')) :
      Advances (.withFactor (.federation signIn) user) (goOn db' (.continuationIssued signIn user))
  -- `is_mfa_enabled`
  | totpFound {first user} : Advances (.verified first user) (goOn db (.withFactor first user))
  | totpMissing {first user} (h : UserTotp.isEnabled db user = false) :
      Advances (.verified first user) (goOn db (.withoutTotp first user))
  | passkeyFound {first user} :
      Advances (.withoutTotp first user) (goOn db (.withFactor first user))
  | passkeyMissing {first user} (h : WebauthnCredentials.hasAny db user = false) :
      Advances (.withoutTotp first user) (goOn db (.withoutFactor first user))
  -- `verify_pending` and `webauthn_auth_complete`
  | pendingFound {pending code row db'} (h : readPending db pending draw.now = (.ok row, db')) :
      Advances (.codeSubmitted pending code) (goOn db' (.pendingRead row code))
  | pendingMissed {pending code error error' db'}
      (h : readPending db pending draw.now = (.error error, db')) :
      Advances (.codeSubmitted pending code) (refuse db' error')
  | codeMatched {pending code totpRow proof method}
      (hread : readTotp db pending.userId = .ok totpRow)
      (hcheck : checkCode P key draw.nonce totpRow code draw.now = .ok (proof, method)) :
      Advances (.pendingRead pending code) (goOn db (.codeChecked pending proof method))
  | assertionWanted {pending row} (h : db.loginPendingMfa.get? pending = some row) :
      Advances (.assertionSubmitted pending) (goOn db (.assertionWanted row))
  | assertionVerified {pending credential passkeyEnc} :
      Advances (.assertionWanted pending)
        (goOn (WebauthnCredentials.updatePasskey db credential passkeyEnc draw.now)
          (.assertionVerified pending))
  | factorCounted {call user outcome db' error} (hcall : call.isLogin = false)
      (h : recordSecondFactorFailure db user maxLockoutSecs draw.now = .ok (outcome, db')) :
      Advances call (refuse db' error)
  -- `mfa_challenge_post_federated`
  | fedExpired {row code generic} :
      Advances (.fedUserRead row code generic) (goOn db (.fedDecided row.id none generic))
  | fedMismatched {row code generic} :
      Advances (.fedBound row code generic)
        (goOn db (.fedDecided row.id (some (.rejected .methodMismatch)) generic))
  | fedProved {row code generic totpRow proof} (hread : readTotp db row.userId = .ok totpRow)
      (hproof : federatedProof P key draw totpRow code = .ok proof) :
      Advances (.fedWithoutCeremony row code generic)
        (goOn db (.fedDecided row.id (some proof) generic))
  /-- F03 that does not promote. -/
  | fedRefused {pending proof generic outcome db' next} {out : FlowAnswer}
      (h : completeFederatedMfa P key db pending proof draw.sessionId draw.now =
        .ok (outcome, db'))
      (hnot : ∀ session evicted method, outcome ≠ .promoted session evicted method)
      (hnext : next = none ∨ next = some (.fedRejected pending)) (hout : out.effective = false) :
      Advances (.fedDecided pending proof generic) ⟨db', next, out⟩
  | genericDeleted {pending} :
      Advances (.fedPromoted (some pending)) (done (LoginPendingMfa.delete db pending) .running)
  -- `change_password_self`
  | currentVerified {user currentPassword newHash keepCurrentSession revokeOthers checked
      passwordHash} (h : db.credentials.get? user = some checked) :
      Advances (.changeSubmitted user currentPassword newHash keepCurrentSession revokeOthers)
        (goOn db (.changeVerified user checked ⟨user, passwordHash, draw.now⟩ keepCurrentSession
          revokeOthers))

end Advances

section Steps

variable {P : Primitives} {key : MasterKey} {maxLockoutSecs : Int} {db : Database}
  {draw : FlowDraw}

private theorem readShadow_advances (shadow : Users.LdapShadowData) (sourceSlug : String)
    (knownUser : Option UserId) (audience : SessionAudience) :
    Advances P key maxLockoutSecs db draw (.directoryVerified shadow sourceSlug knownUser audience)
      (readShadow db draw shadow sourceSlug knownUser audience) := by
  unfold readShadow
  dsimp only
  split
  · exact .ends rfl
  · rename_i existing hexisting
    split
    · exact .ends rfl
    · split
      · exact .shadowFound
      · -- the one call that finds no factor without looking is that of a new user
        cases knownUser with
        | none => exact .shadowNew
        | some id => simp at hexisting

private theorem askForFactor_advances (first : FirstFactor) (user : UserId) :
    Advances P key maxLockoutSecs db draw (.withFactor first user)
      (askForFactor P key db draw user first) := by
  cases first with
  | password credential =>
    simp only [askForFactor, issuePendingMfa]
    split
    · rename_i hinsert
      exact .committed (.passwordPending hinsert)
    · exact .ends rfl
  | directory shadow sourceSlug =>
    simp only [askForFactor]
    split
    · rename_i row db' hcommit
      obtain ⟨rfl, -⟩ := signInFromDirectoryMfaRequired_ok hcommit
      exact .committed (.directoryPending hcommit)
    · exact .ends rfl
    · exact .ends rfl
  | federation signIn =>
    simp only [askForFactor]
    split
    · rename_i hissue
      exact .continued hissue
    · exact .goesOn rfl rfl

private theorem establishSession_advances (first : FirstFactor) (user : UserId) :
    Advances P key maxLockoutSecs db draw (.withoutFactor first user)
      (establishSession P db draw user first) := by
  cases first with
  | password credential =>
    simp only [establishSession]
    split
    · rename_i hcommit
      exact .committed (.password hcommit)
    · exact .ends rfl
    · exact .ends rfl
  | directory shadow sourceSlug =>
    simp only [establishSession]
    split
    · rename_i hcommit
      exact .committed (.directory hcommit)
    · exact .ends rfl
    · exact .ends rfl
  | federation signIn =>
    simp only [establishSession]
    split
    · rename_i hcommit
      exact .committed (.federation hcommit)
    · exact .goesOn rfl rfl

private theorem promoteFederated_advances (pending : FederationMfaPendingId)
    (proof : Option F03Proof) (generic : Option PendingMfaId) :
    Advances P key maxLockoutSecs db draw (.fedDecided pending proof generic)
      (promoteFederated P key db draw pending proof generic) := by
  unfold promoteFederated
  split
  · rename_i hcommit
    exact .committed (.promoted hcommit)
  · rename_i hcommit
    exact .fedRefused hcommit (fun _ _ _ h => by cases h) (.inr rfl) rfl
  · rename_i hcommit
    exact .fedRefused hcommit (fun _ _ _ h => by cases h) (.inr rfl) rfl
  · rename_i hcommit
    exact .fedRefused hcommit (fun _ _ _ h => by cases h) (.inl rfl) rfl
  · exact .ends rfl
  · exact .ends rfl
  · exact .ends rfl

private theorem finishPending_advances (pending : LoginPendingMfaRow)
    (proof : Option SecondFactorProof) (method : AuthMethod) :
    Advances P key maxLockoutSecs db draw (.codeChecked pending proof method)
      (FlowCall.advance P key maxLockoutSecs db draw (.codeChecked pending proof method)) := by
  simp only [FlowCall.advance]
  cases proof with
  | none =>
    simp only [finishPending]
    cases hcount : recordSecondFactorFailure db pending.userId maxLockoutSecs draw.now with
    | ok counted => exact .factorCounted rfl hcount
    | error e => exact .ends rfl
  | some proof =>
    simp only [finishPending]
    cases hcomplete : complete db pending.id pending.userId method proof draw.sessionId
      draw.now with
    | ok completed => exact .committed (.code (complete_ok hcomplete))
    | error e => exact .ends rfl

/-- Each step of a call is one of these. -/
theorem advance_advances (call : FlowCall) :
    Advances P key maxLockoutSecs db draw call (call.advance P key maxLockoutSecs db draw) := by
  cases call with
  | submitted username password audience =>
    simp only [FlowCall.advance, readAccount]
    split
    · exact .ends rfl
    · split
      · exact .ends rfl
      · exact .accountFound
  | accountRead user password audience =>
    simp only [FlowCall.advance, checkPassword]
    split
    · exact .passwordRefused
    · rename_i hget
      split
      · exact .passwordRefused
      · split
        · exact .ends rfl
        · exact .passwordRight hget
  | passwordWrong user =>
    simp only [FlowCall.advance]
    split
    · rename_i hcount
      exact .loginCounted hcount
    · exact .ends rfl
  | directoryVerified shadow sourceSlug knownUser audience => exact readShadow_advances ..
  | callbackResolved signIn user =>
    simp only [FlowCall.advance]
    split
    · rename_i hlink
      exact .linked hlink
    · exact .goesOn rfl rfl
  | callbackLinked signIn user =>
    simp only [FlowCall.advance]
    split
    · exact .active
    · exact .goesOn rfl rfl
  | callbackFailed signIn =>
    simp only [FlowCall.advance]
    split
    · rename_i hfailed
      exact .attemptFailed hfailed
    · exact .ends rfl
  | provisioning signIn profile =>
    simp only [FlowCall.advance, provision]
    split
    · rename_i hcommit
      exact .committed (.provisioned hcommit)
    · exact .goesOn rfl rfl
  | verified first user =>
    simp only [FlowCall.advance]
    split
    · exact .totpFound
    · rename_i hdisabled
      exact .totpMissing (Bool.eq_false_iff.mpr hdisabled)
  | withoutTotp first user =>
    simp only [FlowCall.advance]
    split
    · exact .passkeyFound
    · rename_i hnone
      exact .passkeyMissing (Bool.eq_false_iff.mpr hnone)
  | withFactor first user => exact askForFactor_advances first user
  | withoutFactor first user => exact establishSession_advances first user
  | continuationIssued signIn user =>
    simp only [FlowCall.advance, issuePendingMfa]
    split
    · rename_i hinsert
      exact .committed (.federationPending hinsert)
    · exact .ends rfl
  | codeSubmitted pending code =>
    simp only [FlowCall.advance]
    split
    · rename_i hread
      exact .pendingFound hread
    · rename_i hread
      exact .pendingMissed hread
  | pendingRead pending code =>
    simp only [FlowCall.advance, checkPendingCode]
    split
    · exact .ends rfl
    · rename_i hread
      split
      · rename_i hcheck
        exact .codeMatched hread hcheck
      · exact .ends rfl
  | codeChecked pending proof method => exact finishPending_advances pending proof method
  | assertionSubmitted pending =>
    simp only [FlowCall.advance]
    split
    · rename_i hget
      split
      · exact .ends rfl
      · exact .assertionWanted hget
    · exact .ends rfl
  | assertionWanted pending =>
    simp only [FlowCall.advance, checkAssertion]
    split
    · exact .goesOn rfl rfl
    · split
      · exact .goesOn rfl rfl
      · split
        · exact .goesOn rfl rfl
        · exact .assertionVerified
  | assertionVerified pending =>
    simp only [FlowCall.advance]
    split
    · rename_i hcomplete
      exact .committed (.assertion (complete_ok hcomplete))
    · exact .ends rfl
  | fedSubmitted pending browserBinding csrf code generic =>
    simp only [FlowCall.advance, bindFedRow]
    split
    · exact .ends rfl
    · split
      · exact .ends rfl
      · exact .goesOn rfl rfl
  | fedRowRead | fedRejected =>
    simp only [FlowCall.advance]
    split
    · exact .goesOn rfl rfl
    · exact .ends rfl
  | fedUserRead row code generic =>
    simp only [FlowCall.advance]
    split
    · exact .ends rfl
    · split
      · exact .ends rfl
      · split
        · exact .fedExpired
        · exact .goesOn rfl rfl
  | fedBound row code generic =>
    simp only [FlowCall.advance]
    split
    · exact .fedMismatched
    · exact .goesOn rfl rfl
  | fedWithoutCeremony row code generic =>
    simp only [FlowCall.advance]
    split
    · exact .ends rfl
    · rename_i hread
      split
      · rename_i hproof
        exact .fedProved hread hproof
      · exact .ends rfl
  | fedDecided pending proof generic => exact promoteFederated_advances pending proof generic
  | fedPromoted generic =>
    simp only [FlowCall.advance]
    split
    · exact .genericDeleted
    · exact .ends rfl
  | secondFactorRejected user =>
    simp only [FlowCall.advance]
    split
    · rename_i hcount
      exact .factorCounted rfl hcount
    · exact .ends rfl
  | changeSubmitted user currentPassword newHash keepCurrentSession revokeOthers =>
    simp only [FlowCall.advance, checkCurrentPassword]
    split
    · exact .ends rfl
    · rename_i hget
      split
      · exact .ends rfl
      · split
        · exact .ends rfl
        · exact .currentVerified hget
  | changeVerified user checked replacement keepCurrentSession revokeOthers =>
    simp only [FlowCall.advance]
    split
    · rename_i hcommit
      exact .committed (.changed hcommit)
    · exact .ends rfl

private theorem readPending_silent {pending : PendingMfaId} {now : DateTime}
    {answer : CoreResult LoginPendingMfaRow} {db' : Database} {next : Option FlowCall}
    {out : FlowAnswer} (h : readPending db pending now = (answer, db'))
    (hout : out.effective = false) : Silent db ⟨db', next, out⟩ := by
  obtain ⟨loginPendingMfa, hnone, heq⟩ := readPending_eq db pending now
  rw [h] at heq
  cases heq
  exact .of_eq rfl rfl rfl hnone hout

/-- What one step of a call does. -/
theorem advance_cases (call : FlowCall) :
    Silent db (call.advance P key maxLockoutSecs db draw) ∨
      Committed P key db draw call (call.advance P key maxLockoutSecs db draw) := by
  have hadvances := @advance_advances P key maxLockoutSecs db draw call
  generalize call.advance P key maxLockoutSecs db draw = result at hadvances
  cases hadvances with
  | committed h => exact .inr h
  | ends hout => exact .inl (.reads _ rfl hout)
  | loginCounted h =>
    obtain ⟨users, log, rfl⟩ := recordLoginFailure_ok h
    exact .inl (.of_eq rfl rfl rfl (fun _ hr => hr) rfl)
  | linked h =>
    obtain ⟨federationLink, rfl⟩ := FederationLink.upsert_ok h
    exact .inl (.of_eq rfl rfl rfl (fun _ hr => hr) rfl)
  | attemptFailed h =>
    obtain ⟨-, federationLoginAttempt, -, -, -, rfl⟩ := FederationLoginAttempt.updateWhere_ok h
    exact .inl (.of_eq rfl rfl rfl (fun _ hr => hr) rfl)
  | continued h =>
    obtain ⟨-, federationLoginAttempt, federationMfaPending, federationWebauthnCeremony, -, -, -,
      -, rfl⟩ := issueFederatedMfaPending_ok h
    exact .inl (.of_eq rfl rfl rfl (fun _ hr => hr) rfl)
  | pendingFound h => exact .inl (readPending_silent h rfl)
  | pendingMissed h => exact .inl (readPending_silent h rfl)
  | assertionVerified =>
    exact .inl ⟨rfl, rfl, WebauthnCredentials.updatePasskey_factors .., fun _ hr => hr, rfl⟩
  | factorCounted _ h =>
    -- a wrong second factor deletes pending rows and adds none
    obtain ⟨loginPendingMfa, users, log, hnone, -, rfl⟩ := recordSecondFactorFailure_ok h
    exact .inl (.of_eq rfl rfl rfl hnone rfl)
  | fedRefused h hnot _ hout =>
    -- an F03 that does not promote writes rows of the federated door only
    obtain ⟨row, -, -, heffect⟩ := completeFederatedMfa_ok h
    cases heffect with
    | promoted => exact absurd rfl (hnot _ _ _)
    | rejected _ t ceremonies _ _ hdb | exhausted _ t ceremonies _ _ hdb | invalidated _ t _ hdb =>
      subst hdb
      exact .inl (.of_eq rfl rfl rfl (fun _ hr => hr) hout)
  | genericDeleted => exact .inl (.of_eq rfl rfl rfl (LoginPendingMfa.noneAdded_delete _ _) rfl)
  | _ => exact .inl (.goOn _)

/-- A commit ends its call; after F03 a pending row is left to delete. -/
theorem Committed.next_bare {call call' : FlowCall} {result : FlowResult}
    (h : Committed P key db draw call result) (hnext : result.next = some call') :
    call'.bare = true := by
  cases h with
  | promoted h =>
    cases hnext
    rfl
  | _ => cases hnext

end Steps

/-! ## What a call carries -/

def FirstFactor.check (user : UserId) : FirstFactor → Option (UserId × CredentialRow)
  | .password credential => some (user, credential)
  | _ => none

namespace FlowCall

/-- The password check a call rests on: the user and the row it was made
against. -/
def check : FlowCall → Option (UserId × CredentialRow)
  | .verified first user | .withoutTotp first user | .withFactor first user
  | .withoutFactor first user => first.check user
  | .changeVerified user checked .. => some (user, checked)
  | _ => none

/-- The user whose TOTP row the call has found missing. -/
def noTotp : FlowCall → Option UserId
  | .withoutTotp _ user | .withoutFactor _ user => some user
  | _ => none

/-- The user whose passkeys the call has found missing. -/
def noPasskey : FlowCall → Option UserId
  | .withoutFactor _ user => some user
  | _ => none

/-- The pending row a call of the local door is about. -/
def localPending : FlowCall → Option PendingMfaId
  | .codeSubmitted pending _ | .assertionSubmitted pending => some pending
  | .pendingRead pending _ | .codeChecked pending _ _ | .assertionWanted pending
  | .assertionVerified pending => some pending.id
  | _ => none

/-- The proof a checked code amounts to, and the method it is recorded under. -/
def codeProof : FlowCall → Option (SecondFactorProof × AuthMethod)
  | .codeChecked _ (some proof) method => some (proof, method)
  | _ => none

theorem bare_carries (call : FlowCall) (hbare : call.bare = true) :
    call.check = none ∧ call.noTotp = none ∧ call.noPasskey = none ∧ call.localPending = none ∧
      call.codeProof = none := by
  cases call <;> first | exact ⟨rfl, rfl, rfl, rfl, rfl⟩ | cases hbare

end FlowCall

/-- The method a proof of the local door amounts to. -/
def SecondFactorProof.authMethod : SecondFactorProof → AuthMethod
  | .totp _ => .totp
  | .recoveryCode _ _ => .recoveryCode
  | .webauthn => .webauthn

/-- A call and the one it becomes: each fact is inherited or read in the step.
A directory user who is new has an identifier that was just drawn. -/
structure Next (db : Database) (draw : FlowDraw) (call call' : FlowCall) : Prop where
  check : ∀ {user credential}, call'.check = some (user, credential) →
    call.check = some (user, credential) ∨ db.credentials.get? user = some credential
  noTotp : ∀ {user}, call'.noTotp = some user →
    call.noTotp = some user ∨ UserTotp.isEnabled db user = false ∨
      ((∃ shadow sourceSlug audience,
        call = .directoryVerified shadow sourceSlug none audience) ∧ user = draw.userId)
  noPasskey : ∀ {user}, call'.noPasskey = some user →
    WebauthnCredentials.hasAny db user = false ∨
      ((∃ shadow sourceSlug audience,
        call = .directoryVerified shadow sourceSlug none audience) ∧ user = draw.userId)
  localPending : ∀ {id}, call'.localPending = some id → call.localPending = some id
  method : ∀ {proof method}, call'.codeProof = some (proof, method) → proof.authMethod = method

namespace Next

variable {db : Database} {draw : FlowDraw} {call call' : FlowCall}

theorem of_bare (hbare : call'.bare = true) : Next db draw call call' := by
  obtain ⟨hcheck, hnoTotp, hnoPasskey, hlocal, hcode⟩ := call'.bare_carries hbare
  refine ⟨?_, ?_, ?_, ?_, ?_⟩
  · simp [hcheck]
  · simp [hnoTotp]
  · simp [hnoPasskey]
  · simp [hlocal]
  · simp [hcode]

end Next

/-- The method of a checked code is the method of its proof. -/
theorem checkCode_method {P : Primitives} {key : MasterKey} {nonce : Nonce}
    {totpRow : UserTotpRow} {code : String} {now : DateTime} {proof : SecondFactorProof}
    {method : AuthMethod}
    (h : checkCode P key nonce totpRow code now = .ok (some proof, method)) :
    proof.authMethod = method := by
  unfold checkCode at h
  dsimp only at h
  split at h
  · simp only [bind_eq_ok, pure_eq_ok, Prod.mk.injEq, Option.map_eq_some_iff] at h
    obtain ⟨-, -, ⟨step, -, rfl⟩, rfl⟩ := h
    rfl
  · simp only [bind_eq_ok, pure_eq_ok, Prod.mk.injEq] at h
    obtain ⟨proof', hmatch, rfl, rfl⟩ := h
    unfold matchRecoveryCode at hmatch
    split at hmatch
    · cases hmatch
    · simp only [bind_eq_ok] at hmatch
      obtain ⟨blob, -, hashes, -, hmatch⟩ := hmatch
      split at hmatch
      · cases hmatch
      · simp only [bind_eq_ok, pure_eq_ok, Option.some.injEq] at hmatch
        obtain ⟨newSealed, -, rfl⟩ := hmatch
        rfl

section Calls

variable {P : Primitives} {key : MasterKey} {maxLockoutSecs : Int} {db : Database}
  {draw : FlowDraw} {call' : FlowCall}

private theorem carriesNot {α : Type} {carried : Option α} {a : α} {p : Prop}
    (hnone : carried = none) (hsome : carried = some a) : p := by
  rw [hnone] at hsome
  cases hsome

variable {user : UserId} {pending : PendingMfaId} {row : LoginPendingMfaRow}

/-- A call that has verified a first factor goes on with it. -/
private theorem Next.of_check {call : FlowCall} {first : FirstFactor}
    (hcall : call.check = first.check user) :
    Next db draw call (.withFactor first user) :=
  ⟨fun h => .inl (hcall.trans h), carriesNot rfl, carriesNot rfl, carriesNot rfl,
    carriesNot rfl⟩

/-- A call that has read the credential. -/
private theorem Next.of_credential {call : FlowCall} {credential : CredentialRow}
    (hcheck : call'.check = some (user, credential))
    (hget : db.credentials.get? user = some credential) (hno : call'.noTotp = none)
    (hpasskey : call'.noPasskey = none) (hlocal : call'.localPending = none)
    (hcode : call'.codeProof = none) : Next db draw call call' := by
  refine ⟨fun h => ?_, carriesNot hno, carriesNot hpasskey, carriesNot hlocal, carriesNot hcode⟩
  cases hcheck.symm.trans h
  exact .inr hget

/-- A call of the local door goes on with its row. -/
private theorem Next.of_pending {call : FlowCall}
    (hlocal : ∀ id, call'.localPending = some id → call.localPending = some id)
    (hcheck : call'.check = none) (hno : call'.noTotp = none) (hpasskey : call'.noPasskey = none)
    (hcode : call'.codeProof = none) : Next db draw call call' :=
  ⟨carriesNot hcheck, carriesNot hno, carriesNot hpasskey, hlocal _, carriesNot hcode⟩

private theorem localPending_of_get (hget : db.loginPendingMfa.get? pending = some row)
    (id : PendingMfaId) (hid : some row.id = some id) : some pending = some id := by
  rw [← hid, (Table.get?_eq_some.mp hget).2]

private theorem get_of_readPending {now : DateTime} {db' : Database}
    (h : readPending db pending now = (.ok row, db')) :
    db.loginPendingMfa.get? pending = some row := by
  unfold readPending at h
  split at h
  · cases h
  · rename_i hget
    split at h
    · cases h
    · cases h
      exact hget

/-- What a call carries to its next step. -/
theorem advance_next {call : FlowCall}
    (h : (call.advance P key maxLockoutSecs db draw).next = some call') :
    Next db draw call call' := by
  have hadvances := @advance_advances P key maxLockoutSecs db draw call
  generalize call.advance P key maxLockoutSecs db draw = result at hadvances h
  cases hadvances with
  | committed hcommitted => exact .of_bare (hcommitted.next_bare h)
  | goesOn _ hbare =>
    cases h
    exact .of_bare hbare
  | passwordRight hget =>
    cases h
    exact .of_credential rfl hget rfl rfl rfl rfl
  | shadowNew =>
    cases h
    refine ⟨carriesNot rfl, fun huser => ?_, fun huser => ?_, carriesNot rfl, carriesNot rfl⟩
    · cases huser
      exact .inr (.inr ⟨⟨_, _, _, rfl⟩, rfl⟩)
    · cases huser
      exact .inr ⟨⟨_, _, _, rfl⟩, rfl⟩
  | totpFound =>
    cases h
    exact .of_check rfl
  | passkeyFound =>
    cases h
    exact .of_check rfl
  | totpMissing hdisabled =>
    cases h
    refine ⟨.inl, fun huser => ?_, carriesNot rfl, carriesNot rfl, carriesNot rfl⟩
    cases huser
    exact .inr (.inl hdisabled)
  | passkeyMissing hnone =>
    cases h
    refine ⟨.inl, .inl, fun huser => ?_, carriesNot rfl, carriesNot rfl⟩
    cases huser
    exact .inl hnone
  | pendingFound hread =>
    cases h
    exact .of_pending (localPending_of_get (get_of_readPending hread)) rfl rfl rfl rfl
  | @codeMatched pending code totpRow proof method _ hcheck =>
    cases h
    refine ⟨carriesNot rfl, carriesNot rfl, carriesNot rfl, id, fun hproof => ?_⟩
    cases proof with
    | none => cases hproof
    | some proof =>
      cases hproof
      exact checkCode_method hcheck
  | assertionWanted hget =>
    cases h
    exact .of_pending (localPending_of_get hget) rfl rfl rfl rfl
  | assertionVerified =>
    cases h
    exact .of_pending (fun _ hid => hid) rfl rfl rfl rfl
  | fedRefused _ _ hnext _ =>
    rcases hnext with rfl | rfl
    · cases h
    · cases h
      exact .of_bare rfl
  | currentVerified hget =>
    cases h
    exact .of_credential rfl hget rfl rfl rfl rfl
  | ends _ | loginCounted _ | attemptFailed _ | pendingMissed _ | factorCounted _ _
  | genericDeleted => cases h
  | accountFound | passwordRefused =>
    cases h
    exact .of_bare rfl
  | shadowFound | linked _ | active | continued _ | fedExpired | fedMismatched | fedProved _ _ =>
    cases h
    exact .of_pending (fun _ hid => hid) rfl rfl rfl rfl

end Calls

/-! ## What a commit writes -/

/-- The credential a call is about to write. -/
def FlowCall.replacement : FlowCall → Option CredentialRow
  | .changeVerified _ _ replacement .. => some replacement
  | _ => none

theorem FlowCall.replacement_of_issuer (call : FlowCall) {first : FirstFactor}
    (h : call.issuer = some first) (replacement : CredentialRow) :
    call.replacement ≠ some replacement := by
  cases call with
  | changeVerified user checked replacement keepCurrentSession revokeOthers => cases h
  | _ => nofun

/-- The calls whose commit spends a second factor. -/
def FlowCall.spends : FlowCall → Bool
  | .codeChecked .. | .assertionVerified _ | .fedDecided .. => true
  | _ => false

namespace Committed

variable {P : Primitives} {key : MasterKey} {db : Database} {draw : FlowDraw} {call : FlowCall}
  {result : FlowResult}

/-- What a commit may write: U09 a credential, the spending of a factor its table, and a pending
row is added only when it is the answer. -/
structure Wrote (db : Database) (draw : FlowDraw) (call : FlowCall) (result : FlowResult) :
    Prop where
  credentials : result.db.credentials = db.credentials ∨
    ∃ replacement, call.replacement = some replacement ∧
      result.db.credentials = db.credentials.upsert replacement
  factorTables : call.spends = false → result.db.userTotp = db.userTotp ∧
    result.db.webauthnCredentials = db.webauthnCredentials
  pendings : (LoginPendingMfa.NoneAdded db.loginPendingMfa result.db.loginPendingMfa ∧
      ∀ row, result.out ≠ .mfaRequired row) ∨
    ∃ first user, call.issuer = some first ∧ call.check = first.check user ∧
      result.out = .mfaRequired (buildPendingMfaRow draw user) ∧
      db.loginPendingMfa.insert? (buildPendingMfaRow draw user) = some result.db.loginPendingMfa

theorem wrote (h : Committed P key db draw call result) : Wrote db draw call result := by
  cases h with
  | password h =>
    obtain ⟨-, users, sessions, log, rfl⟩ := signInWithPassword_ok h
    exact ⟨.inl rfl, fun _ => ⟨rfl, rfl⟩, .inl ⟨fun _ hr => hr, nofun⟩⟩
  | directory h =>
    obtain ⟨-, users, sessions, log, rfl⟩ := signInFromDirectory_ok h
    exact ⟨.inl rfl, fun _ => ⟨rfl, rfl⟩, .inl ⟨fun _ hr => hr, nofun⟩⟩
  | federation h =>
    obtain ⟨_, _, _, _, log, -, -, -, rfl⟩ := signInFederated_ok h
    exact ⟨.inl rfl, fun _ => ⟨rfl, rfl⟩, .inl ⟨fun _ hr => hr, nofun⟩⟩
  | provisioned h =>
    obtain ⟨_, _, _, _, _, log, -, -, -, rfl⟩ := provisionFederatedUser_ok h
    exact ⟨.inl rfl, fun _ => ⟨rfl, rfl⟩, .inl ⟨fun _ hr => hr, nofun⟩⟩
  | directoryPending h =>
    obtain ⟨-, users, loginPendingMfa, log, hinsert, rfl⟩ := signInFromDirectoryMfaRequired_ok h
    exact ⟨.inl rfl, fun _ => ⟨rfl, rfl⟩, .inr ⟨_, _, rfl, rfl, rfl, hinsert⟩⟩
  | passwordPending h | federationPending h =>
    obtain ⟨loginPendingMfa, hinsert, rfl⟩ := LoginPendingMfa.insert_ok h
    exact ⟨.inl rfl, fun _ => ⟨rfl, rfl⟩, .inr ⟨_, _, rfl, rfl, rfl, hinsert⟩⟩
  | code h | assertion h =>
    obtain ⟨-, -, -, _, _, _, _, log, hnone, -, -, rfl⟩ := completeSecondFactor_ok h
    exact ⟨.inl rfl, nofun, .inl ⟨hnone, nofun⟩⟩
  | promoted h =>
    obtain ⟨row, -, -, heffect⟩ := completeFederatedMfa_ok h
    cases heffect with
    | promoted _ _ _ _ _ _ hdb =>
      obtain ⟨_, _, _, _, _, _, rfl⟩ := hdb
      exact ⟨.inl rfl, nofun, .inl ⟨fun _ hr => hr, nofun⟩⟩
  | changed h =>
    obtain ⟨users, resets, sessions, tokens, log, rfl⟩ := changePasswordSelf_ok h
    exact ⟨.inr ⟨_, rfl, rfl⟩, fun _ => ⟨rfl, rfl⟩, .inl ⟨fun _ hr => hr, nofun⟩⟩

/-- No commit of a call adds a factor. -/
theorem factors (h : Committed P key db draw call result) : FactorsKept db result.db := by
  cases hspends : call.spends with
  | false => exact .of_eq (h.wrote.factorTables hspends).1 (h.wrote.factorTables hspends).2
  | true =>
    cases h with
    | code h => exact completeSecondFactor_factors h
    | assertion h => exact completeSecondFactor_factors h
    | promoted h => exact completeFederatedMfa_factors h
    | _ => cases hspends

end Committed

/-! ## One event -/

section Events

variable {P : Primitives} {key : MasterKey} {maxLockoutSecs : Int} {w : FlowWorld} {e : FlowEvent}
variable {id : FlowId} {x : FlowTaken}

theorem FlowWorld.after_origins_of_ne (w : FlowWorld) {call : FlowCall} {result : FlowResult}
    (h : ∀ row, result.out ≠ .mfaRequired row) :
    (w.after id call result).origins = w.origins := by
  unfold FlowWorld.after
  dsimp only
  split
  · rename_i row hout
    exact absurd hout (h row)
  · rfl

theorem FlowWorld.after_origins_issued (w : FlowWorld) {call : FlowCall} {result : FlowResult}
    {row : LoginPendingMfaRow} (h : result.out = .mfaRequired row) :
    (w.after id call result).origins = Function.update w.origins row.id call.issuer := by
  simp only [FlowWorld.after, h]

/-- The credential an event is about to write, with U09 or U10. -/
def FlowWorld.replacement (w : FlowWorld) : FlowEvent → Option CredentialRow
  | .next id _ => (w.calls id).bind FlowCall.replacement
  | .resetPassword _ _ credential _ _ => some credential
  | _ => none

/-- What a write outside the calls does to what a sign-in rests on: only U10 writes
credentials, and only U12 and U15 give a user a factor. -/
structure Outside (w : FlowWorld) (e : FlowEvent) (db : Database) : Prop where
  notNext : ∀ id draw, e ≠ .next id draw
  credentials : db.credentials = w.db.credentials ∨
    ∃ replacement, w.replacement e = some replacement ∧
      db.credentials = w.db.credentials.upsert replacement
  totp : ∀ user, UserTotp.isEnabled db user = true → UserTotp.isEnabled w.db user = true ∨
    ∃ codes step now, e = .confirmTotp user codes step now
  passkeys : ∀ user, WebauthnCredentials.hasAny db user = true →
    WebauthnCredentials.hasAny w.db user = true ∨
      ∃ row, e = .registerPasskey row ∧ row.userId = user
  pendings : LoginPendingMfa.NoneAdded w.db.loginPendingMfa db.loginPendingMfa

theorem Outside.of_factors {w : FlowWorld} {e : FlowEvent} {db : Database}
    (hnotNext : ∀ id draw, e ≠ .next id draw) (hcredentials : db.credentials = w.db.credentials)
    (hfactors : FactorsKept w.db db)
    (hpendings : LoginPendingMfa.NoneAdded w.db.loginPendingMfa db.loginPendingMfa) :
    Outside w e db :=
  ⟨hnotNext, .inl hcredentials, fun _ h => .inl (hfactors.isEnabled h),
    fun _ h => .inl (hfactors.hasAny h), hpendings⟩

/-- What an event does to the world, and its answer. -/
inductive Moves (P : Primitives) (key : MasterKey) (maxLockoutSecs : Int) (w : FlowWorld) :
    FlowEvent → FlowWorld × FlowAnswer → Prop where
  /-- Nothing happens; the next access is one of a call that is not in flight. -/
  | refused {e : FlowEvent} {out : FlowAnswer}
      (hidle : ∀ id draw, e = .next id draw → w.calls id = none) (hsilent : out.effective = false) :
      Moves P key maxLockoutSecs w e (w, out)
  | begins {id : FlowId} {request : FlowRequest} {call : FlowCall}
      (hstart : request.start = some call) :
      Moves P key maxLockoutSecs w (.begin id request)
        ({ w with calls := Function.update w.calls id (some call) }, .running)
  | advances {id : FlowId} {draw : FlowDraw} {call : FlowCall} (hcall : w.calls id = some call) :
      Moves P key maxLockoutSecs w (.next id draw)
        (w.after id call (call.advance P key maxLockoutSecs w.db draw),
          (call.advance P key maxLockoutSecs w.db draw).out)
  | writes {e : FlowEvent} {db : Database} (h : Outside w e db) :
      Moves P key maxLockoutSecs w e ({ w with db }, .committed (.ok ()))

/-- A transaction outside the calls is carried out whole or refused. -/
theorem Moves.commit (hnotNext : ∀ id draw, e ≠ .next id draw) {result : StoreResult Database}
    (h : ∀ db, result = .ok db → Outside w e db) :
    Moves P key maxLockoutSecs w e (w.commit result) := by
  cases result with
  | error error => exact .refused (fun id draw heq => absurd heq (hnotNext id draw)) rfl
  | ok db => exact .writes (h db rfl)

theorem flowStep_moves : Moves P key maxLockoutSecs w e (flowStep P key maxLockoutSecs w e) := by
  cases e with
  | begin id request =>
    simp only [flowStep]
    split
    · rename_i call hfree hstart
      exact .begins hstart
    · exact .refused nofun rfl
    · exact .refused nofun rfl
  | next id draw =>
    simp only [flowStep]
    split
    · rename_i hnone
      exact .refused (fun id draw heq => by cases heq; exact hnone) rfl
    · rename_i call hcall
      exact .advances hcall
  | resetPassword user token credential consumedAt hibpWarned =>
    refine .commit (fun _ _ h => by cases h) fun db hok => ?_
    obtain ⟨⟨_, _⟩, hreset, rfl⟩ := map_eq_ok.mp hok
    obtain ⟨resets, log, keepLock, rfl⟩ := consumeAndResetPassword_ok hreset
    exact ⟨nofun, .inr ⟨credential, rfl, rfl⟩, fun _ => .inl, fun _ => .inl, fun _ h => h⟩
  | confirmTotp user sealedRecoveryCodes lastUsedStep now =>
    refine .commit (fun _ _ h => by cases h) fun db hok => ?_
    obtain ⟨⟨_, _⟩, hconfirm, rfl⟩ := map_eq_ok.mp hok
    obtain ⟨honly, userTotp, log, rfl⟩ := confirmTotpEnrollment_ok hconfirm
    refine ⟨nofun, .inl rfl, fun other hnew => ?_, fun _ => .inl, fun _ h => h⟩
    rcases honly other hnew with rfl | hold
    · exact .inr ⟨_, _, _, rfl⟩
    · exact .inl hold
  | registerPasskey row =>
    refine .commit (fun _ _ h => by cases h) fun db hok => ?_
    obtain ⟨⟨_, _⟩, hregister, rfl⟩ := map_eq_ok.mp hok
    obtain ⟨honly, webauthnCredentials, log, rfl⟩ := registerPasskey_ok hregister
    refine ⟨nofun, .inl rfl, fun _ => .inl, fun other hnew => ?_, fun _ h => h⟩
    rcases honly other hnew with rfl | hold
    · exact .inr ⟨row, rfl, rfl⟩
    · exact .inl hold
  | enrollTotp user secretEnc now =>
    refine .commit (fun _ _ h => by cases h) fun db hok => ?_
    obtain ⟨hkept, userTotp, rfl⟩ := UserTotp.upsertPending_ok hok
    exact .of_factors (fun _ _ h => by cases h) rfl hkept fun _ h => h
  | purgePending now =>
    exact .writes (.of_factors (fun _ _ h => by cases h) rfl (.of_eq rfl rfl)
      (LoginPendingMfa.noneAdded_delete _ _))
  | elsewhere db =>
    exact .writes (.of_factors (fun _ _ h => by cases h) rfl (.of_eq rfl rfl) fun _ h => h)

/-- A call in flight was left alone, has begun, or was advanced. -/
theorem flowStep_calls {call' : FlowCall}
    (h : (flowStep P key maxLockoutSecs w e).1.calls id = some call') :
    (w.calls id = some call' ∧ ∀ draw, e ≠ .next id draw) ∨
      (∃ request, e = .begin id request ∧ request.start = some call') ∨
      ∃ draw call, e = .next id draw ∧ w.calls id = some call ∧
        (call.advance P key maxLockoutSecs w.db draw).next = some call' := by
  revert h
  generalize hstep : flowStep P key maxLockoutSecs w e = step
  intro h
  cases hstep ▸ flowStep_moves with
  | refused hidle _ =>
    refine .inl ⟨h, fun draw heq => ?_⟩
    rw [hidle id draw heq] at h
    cases h
  | @begins id' request call hstart =>
    dsimp only at h
    by_cases hid : id = id'
    · subst hid
      rw [Function.update_self] at h
      cases h
      exact .inr (.inl ⟨request, rfl, hstart⟩)
    · rw [Function.update_of_ne hid] at h
      exact .inl ⟨h, nofun⟩
  | @advances id' draw call hcall =>
    simp only [FlowWorld.after] at h
    by_cases hid : id = id'
    · subst hid
      rw [Function.update_self] at h
      exact .inr (.inr ⟨draw, call, rfl, hcall, h⟩)
    · rw [Function.update_of_ne hid] at h
      refine .inl ⟨h, fun draw' heq => ?_⟩
      cases heq
      exact hid rfl
  | writes hdb => exact .inl ⟨h, fun draw => hdb.notNext id draw⟩

/-- A call that begins has read nothing yet. -/
theorem FlowRequest.start_carries {request : FlowRequest} {call : FlowCall}
    (h : request.start = some call) :
    call.check = none ∧ call.noTotp = none ∧ call.noPasskey = none ∧ call.codeProof = none := by
  cases request with
  | mfaChallenge cookies fedCsrf code =>
    simp only [FlowRequest.start] at h
    split at h
    · cases h
      exact ⟨rfl, rfl, rfl, rfl⟩
    · cases h
    · obtain ⟨id, -, rfl⟩ := Option.map_eq_some_iff.mp h
      exact ⟨rfl, rfl, rfl, rfl⟩
  | login | directory | callback | provision | assertion | changePassword =>
    cases h
    exact ⟨rfl, rfl, rfl, rfl⟩

/-- An answer to a `next` is the answer of the call. -/
theorem flowStep_next {draw : FlowDraw} {call : FlowCall} (hcall : w.calls id = some call) :
    flowStep P key maxLockoutSecs w (.next id draw) =
      (w.after id call (call.advance P key maxLockoutSecs w.db draw),
        (call.advance P key maxLockoutSecs w.db draw).out) := by
  simp only [flowStep, hcall]

/-- A session, a pending row and a new password come from a commit of a call. -/
theorem flowStep_effective (h : (flowStep P key maxLockoutSecs w e).2.effective = true) :
    ∃ id draw call result, e = .next id draw ∧ w.calls id = some call ∧
      (flowStep P key maxLockoutSecs w e).2 = result.out ∧
      Committed P key w.db draw call result := by
  revert h
  generalize hstep : flowStep P key maxLockoutSecs w e = step
  intro h
  cases hstep ▸ flowStep_moves with
  | refused _ hsilent =>
    rw [hsilent] at h
    cases h
  | begins _ => cases h
  | @advances id draw call hcall =>
    rcases advance_cases call with hsilent | hcommitted
    · rw [hsilent.silent] at h
      cases h
    · exact ⟨id, draw, call, _, rfl, hcall, rfl, hcommitted⟩
  | writes _ => cases h

/-- A session is the answer of a commit. -/
theorem signedIn_committed {session : SessionRow}
    (hout : x.out = (flowStep P key maxLockoutSecs x.pre x.event).2)
    (hsigned : x.out = .signedIn session) :
    ∃ id draw call result, x.event = .next id draw ∧ x.pre.calls id = some call ∧
      Committed P key x.pre.db draw call result ∧ result.out = .signedIn session := by
  have heffective : (flowStep P key maxLockoutSecs x.pre x.event).2.effective = true := by
    rw [← hout, hsigned]
    rfl
  obtain ⟨id, draw, call, result, hevent, hcall, hanswer, hcommitted⟩ :=
    flowStep_effective heffective
  rw [← hout, hsigned] at hanswer
  exact ⟨id, draw, call, result, hevent, hcall, hcommitted, hanswer.symm⟩

/-- The first factor of the pending row that the next step of a call continues. -/
def FlowWorld.continued (w : FlowWorld) : FlowEvent → Option FirstFactor
  | .next id _ => ((w.calls id).bind FlowCall.localPending).bind w.origins
  | _ => none

/-- A second factor is completed on a pending row that is stored and has not
expired. -/
theorem continued_row {session : SessionRow} {first : FirstFactor}
    (hout : x.out = (flowStep P key maxLockoutSecs x.pre x.event).2)
    (hsigned : x.out = .signedIn session) (hcontinued : x.pre.continued x.event = some first) :
    ∃ r ∈ x.pre.db.loginPendingMfa, r.userId = session.userId ∧ session.createdAt < r.expiresAt ∧
      x.pre.origins r.id = some first ∧
      ∃ id draw call, x.event = .next id draw ∧ x.pre.calls id = some call ∧
        call.localPending = some r.id := by
  obtain ⟨id, draw, call, result, hevent, hcall, hcommitted, hanswer⟩ :=
    signedIn_committed hout hsigned
  rw [hevent] at hcontinued
  simp only [FlowWorld.continued, hcall, Option.bind_some] at hcontinued
  cases hcommitted with
  | code h | assertion h =>
    cases hanswer
    obtain ⟨rfl, ⟨r, hr, hid, hrow, hexpires⟩, -⟩ := completeSecondFactor_ok h
    exact ⟨r, hr, hrow, hexpires, hid ▸ hcontinued, id, draw, _, hevent, hcall,
      congrArg some hid.symm⟩
  | _ => simp [FlowCall.localPending] at hcontinued

/-- Only U09 and U10 write credentials. -/
theorem flowStep_credentials :
    (flowStep P key maxLockoutSecs w e).1.db.credentials = w.db.credentials ∨
      ∃ replacement, w.replacement e = some replacement ∧
        (flowStep P key maxLockoutSecs w e).1.db.credentials =
          w.db.credentials.upsert replacement := by
  generalize hstep : flowStep P key maxLockoutSecs w e = step
  cases hstep ▸ flowStep_moves with
  | refused _ _ => exact .inl rfl
  | begins _ => exact .inl rfl
  | advances hcall =>
    simp only [FlowWorld.replacement, hcall, Option.bind_some, FlowWorld.after]
    rcases advance_cases _ with hsilent | hcommitted
    · exact .inl hsilent.credentials
    · exact hcommitted.wrote.credentials
  | writes hdb => exact hdb.credentials

/-- Only U12 and U15 give a user a factor. -/
theorem flowStep_factors (user : UserId) :
    (UserTotp.isEnabled (flowStep P key maxLockoutSecs w e).1.db user = true →
        UserTotp.isEnabled w.db user = true ∨
          ∃ codes step now, e = .confirmTotp user codes step now) ∧
      (WebauthnCredentials.hasAny (flowStep P key maxLockoutSecs w e).1.db user = true →
        WebauthnCredentials.hasAny w.db user = true ∨
          ∃ row, e = .registerPasskey row ∧ row.userId = user) := by
  generalize hstep : flowStep P key maxLockoutSecs w e = step
  cases hstep ▸ flowStep_moves with
  | refused _ _ => exact ⟨.inl, .inl⟩
  | begins _ => exact ⟨.inl, .inl⟩
  | @advances id draw call _ =>
    have hkept : FactorsKept w.db (call.advance P key maxLockoutSecs w.db draw).db := by
      rcases advance_cases call with hsilent | hcommitted
      · exact hsilent.factors
      · exact hcommitted.factors
    exact ⟨fun h => .inl (hkept.isEnabled h), fun h => .inl (hkept.hasAny h)⟩
  | writes hdb => exact ⟨hdb.totp user, hdb.passkeys user⟩

/-- A pending row was there with its history, or was issued in this step. -/
theorem flowStep_pendings {r : LoginPendingMfaRow}
    (h : r ∈ (flowStep P key maxLockoutSecs w e).1.db.loginPendingMfa) :
    (r ∈ w.db.loginPendingMfa ∧
        (flowStep P key maxLockoutSecs w e).1.origins r.id = w.origins r.id) ∨
      ∃ id draw call first, e = .next id draw ∧ w.calls id = some call ∧
        call.issuer = some first ∧ call.check = first.check r.userId ∧ r.id = draw.pendingId ∧
        (flowStep P key maxLockoutSecs w e).1.origins r.id = some first ∧
        (flowStep P key maxLockoutSecs w e).1.db.credentials = w.db.credentials := by
  revert h
  generalize hstep : flowStep P key maxLockoutSecs w e = step
  intro h
  cases hstep ▸ flowStep_moves with
  | refused _ _ => exact .inl ⟨h, rfl⟩
  | begins _ => exact .inl ⟨h, rfl⟩
  | @advances id draw call hcall =>
    dsimp only at h ⊢
    rcases advance_cases call with hsilent | hcommitted
    · rw [w.after_origins_of_ne hsilent.not_mfaRequired]
      exact .inl ⟨hsilent.pendings r h, rfl⟩
    · rcases hcommitted.wrote.pendings with
        ⟨hnone, hout⟩ | ⟨first, user, hissuer, hcheck, hout, hinsert⟩
      · rw [w.after_origins_of_ne hout]
        exact .inl ⟨hnone r h, rfl⟩
      · rw [w.after_origins_issued hout]
        rcases (Table.mem_of_insert? hinsert).mp h with hold | rfl
        · have hne : r.id ≠ (buildPendingMfaRow draw user).id :=
            (Table.insert?_eq_some.mp hinsert).1 r hold
          rw [Function.update_of_ne hne]
          exact .inl ⟨hold, rfl⟩
        · rw [Function.update_self]
          refine .inr ⟨id, draw, call, first, rfl, hcall, hissuer, hcheck, rfl, hissuer, ?_⟩
          rcases hcommitted.wrote.credentials with hsame | ⟨replacement, hreplacement, -⟩
          · exact hsame
          · exact absurd hreplacement (call.replacement_of_issuer hissuer replacement)
  | writes hdb => exact .inl ⟨hdb.pendings r h, rfl⟩

/-- A call that never begins is never in flight. -/
theorem flowRun_calls_none {es : List FlowEvent} (h : w.calls id = none)
    (hes : ∀ e ∈ es, ∀ request, e ≠ .begin id request) :
    (Machine.run (flowStep P key maxLockoutSecs) w es).calls id = none := by
  refine Machine.run_invariant (I := fun w : FlowWorld => w.calls id = none)
    (fun w e hnone hnot => ?_)
    (Machine.guarded_of_forall hes) h
  cases hcall : (flowStep P key maxLockoutSecs w e).1.calls id with
  | none => rfl
  | some call' =>
    rcases flowStep_calls hcall with ⟨hold, -⟩ | ⟨request, heq, -⟩ | ⟨draw, call, -, hold, -⟩
    · rw [hnone] at hold
      cases hold
    · exact absurd heq (hnot request)
    · rw [hnone] at hold
      cases hold

end Events

end SuiId
