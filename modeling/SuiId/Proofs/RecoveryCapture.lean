import SuiId.Proofs.AccountEffects

/-!
# Recovery links for administrators

U37 refuses an administrator's link for another administrator unless the target was never
activated, which it reads off two columns: no row of `credentials`, no `last_login_at`.  Every
sign-in but F04 sets `last_login_at` where it inserts the session (`LifeStep`).
-/

namespace SuiId

open Lib Lib.Result Lib.Machine

section LifeStep

variable {P : Primitives} {key : MasterKey} {rfc3339 : DateTime → String} {db db' : Database}

/-- F04 for this account. -/
def Transaction.provisions (user : UserId) : Transaction → Bool
  | .provisionFederatedUser _ _ _ _ session => session.userId == user
  | _ => false

/-- A sign-in writes no recovery link. -/
theorem transaction_life {transaction : Transaction} {returned : Returned}
    (h : transaction.perform P key db = .ok (returned, db')) :
    LifeStep (fun user => transaction.provisions user = true) db db' ∧
      db'.passwordResetTokens = db.passwordResetTokens := by
  cases Transaction.performed h with
  | insertAttempt hcommit =>
    simp only [FederationLoginAttempt.insert, bind_eq_ok, ensure_eq_ok, require_eq_ok,
      pure_eq_ok] at hcommit
    obtain ⟨sealed, -, -, -, -, -, t, -, rfl⟩ := hcommit
    exact ⟨.quiet (.refl _) rfl rfl, rfl⟩
  | terminalizeFailed hcommit =>
    obtain ⟨r, t, -, -, -, rfl⟩ := FederationLoginAttempt.updateWhere_ok hcommit
    exact ⟨.quiet (.refl _) rfl rfl, rfl⟩
  | purgeAttempts => exact ⟨.quiet (.refl _) rfl rfl, rfl⟩
  | purgePendings => exact ⟨.quiet (.refl _) rfl rfl, rfl⟩
  | issueFederatedMfaPending hcommit =>
    obtain ⟨_, _, _, _, -, -, -, -, rfl⟩ := issueFederatedMfaPending_ok hcommit
    exact ⟨.quiet (.refl _) rfl rfl, rfl⟩
  | beginFederationWebauthnCeremony hcommit =>
    obtain ⟨ceremonies, rfl⟩ := beginFederationWebauthnCeremony_ok hcommit
    exact ⟨.quiet (.refl _) rfl rfl, rfl⟩
  | signInFederated hcommit => exact (signInFederated_effect hcommit).life
  | provisionFederatedUser hcommit =>
    obtain ⟨-, ⟨hlogins, hcredentials, hsessions⟩, -, htokens⟩ :=
      provisionFederatedUser_effect hcommit
    refine ⟨⟨hlogins, hcredentials, fun id hcreates => ?_⟩, htokens⟩
    rcases hsessions id hcreates with hsigned | hid
    · exact .inl hsigned
    · exact .inr (beq_iff_eq.mpr hid)
  | completeFederatedMfa hcommit => exact (completeFederatedMfa_effect hcommit).life
  | signInWithPassword hcommit => exact (signInWithPassword_effect hcommit).life
  | completeSecondFactor hcommit => exact (completeSecondFactor_effect hcommit).life
  | signInFromDirectory hcommit => exact (signInFromDirectory_effect hcommit).life
  | recordLoginFailure hcommit => exact (recordLoginFailure_effect hcommit).life
  | recordSecondFactorFailure hcommit => exact (recordSecondFactorFailure_effect hcommit).life

/-- F04 for this account. -/
def AccountCommand.provisions (user : UserId) : AccountCommand → Bool
  | .signIn transaction => transaction.provisions user
  | _ => false

theorem command_life {command : AccountCommand}
    (h : command.perform P key rfc3339 db = .ok db') :
    LifeStep (fun user => command.provisions user = true) db db' := by
  by_cases hcommand : ∃ transaction, command = .signIn transaction
  · obtain ⟨transaction, rfl⟩ := hcommand
    obtain ⟨⟨returned, db₁⟩, hperform, rfl⟩ := map_eq_ok.mp h
    exact (transaction_life hperform).1
  · exact (accountCommand_effect (not_exists.mp hcommand) h).toLifeStep.mono

end LifeStep

/-! ## Over a run -/

section Run

variable (P : Primitives) (key : MasterKey) (rfc3339 : DateTime → String)

/-- The step created a session for the user. -/
def OpensSession (x : AccountTaken) (user : UserId) : Prop :=
  CreatesSession x.pre.sessions (accountStep P key rfc3339 x.pre x.event).1.sessions user

/-- In none of the steps `past`, which led to `db`, did the user get a session or have a
credential. -/
structure NeverUsed (past : List AccountTaken) (db : Database) (user : UserId) : Prop where
  sessions : ∀ y ∈ past, ¬ OpensSession P key rfc3339 y user
  credentials : ∀ y ∈ past, ¬ HasCredential y.pre user
  credential : ¬ HasCredential db user

/-- An F04 for the user has committed. -/
def Provisioned (past : List AccountTaken) (user : UserId) : Prop :=
  ∃ y ∈ past, y.event.provisions user = true ∧ y.out = .ok ()

/-- What the columns still tell about the past. -/
structure OnRecord (past : List AccountTaken) (db : Database) : Prop where
  sessions : ∀ y ∈ past, ∀ user, OpensSession P key rfc3339 y user →
    Users.HasSignedIn db.users user ∨ Provisioned past user
  credentials : ∀ y ∈ past, ∀ user, HasCredential y.pre user → HasCredential db user
  answers : ∀ y ∈ past, y.out = (accountStep P key rfc3339 y.pre y.event).2

variable {P key rfc3339} {past rest : List AccountTaken} {db : Database} {user : UserId}

theorem Provisioned.mono (h : Provisioned past user) : Provisioned (past ++ rest) user := by
  obtain ⟨y, hy, hprovisions⟩ := h
  exact ⟨y, List.mem_append_left rest hy, hprovisions⟩

theorem onRecord_nil : OnRecord P key rfc3339 [] db where
  sessions _ hy := absurd hy List.not_mem_nil
  credentials _ hy := absurd hy List.not_mem_nil
  answers _ hy := absurd hy List.not_mem_nil

theorem accountStep_life (db : Database) (command : AccountCommand) :
    LifeStep (fun user => command.provisions user = true ∧
        (accountStep P key rfc3339 db command).2 = .ok ())
      db (accountStep P key rfc3339 db command).1 := by
  rcases accountStep_cases P key rfc3339 db command with ⟨db', hperform, heq⟩ | ⟨e, heq⟩
  · rw [heq]
    obtain ⟨hlogins, hcredentials, hsessions⟩ := command_life hperform
    exact ⟨hlogins, hcredentials, fun user hcreates => (hsessions user hcreates).imp_right
      fun hprovisions => ⟨hprovisions, rfl⟩⟩
  · rw [heq]
    exact .quiet (.refl _) rfl rfl

theorem onRecord_step {command : AccountCommand} (h : OnRecord P key rfc3339 past db) :
    OnRecord P key rfc3339 (past ++ [⟨db, command, (accountStep P key rfc3339 db command).2⟩])
      (accountStep P key rfc3339 db command).1 := by
  obtain ⟨hlogins, hcredentials, hsessions⟩ :=
    @accountStep_life P key rfc3339 db command
  constructor
  · intro y hy user hopens
    rcases List.mem_append.mp hy with hy | hy
    · exact (h.sessions y hy user hopens).imp (hlogins user) .mono
    · cases List.mem_singleton.mp hy
      exact (hsessions user hopens).imp_right fun hprovisions =>
        ⟨_, List.mem_append_right past List.mem_cons_self, hprovisions⟩
  · intro y hy user hcredential
    rcases List.mem_append.mp hy with hy | hy
    · exact hcredentials user (h.credentials y hy user hcredential)
    · cases List.mem_singleton.mp hy
      exact hcredentials user hcredential
  · intro y hy
    rcases List.mem_append.mp hy with hy | hy
    · exact h.answers y hy
    · cases List.mem_singleton.mp hy
      rfl

/-- F04 created a session, whatever it recorded. -/
theorem opensSession_of_provisions {x : AccountTaken}
    (hprovisions : x.event.provisions user = true)
    (hok : (accountStep P key rfc3339 x.pre x.event).2 = .ok ()) :
    OpensSession P key rfc3339 x user := by
  obtain ⟨db, command, out⟩ := x
  simp only [OpensSession] at hok ⊢
  rcases accountStep_cases P key rfc3339 db command with ⟨db', hperform, heq⟩ | ⟨e, heq⟩
  · rw [heq]
    cases command with
    | signIn transaction =>
      cases transaction with
      | provisionFederatedUser attempt provider row link session =>
        obtain ⟨⟨returned, db₁⟩, htransaction, rfl⟩ := map_eq_ok.mp hperform
        cases Transaction.performed htransaction with
        | provisionFederatedUser hcommit =>
          have huser : session.userId = user := beq_iff_eq.mp hprovisions
          exact huser ▸ (provisionFederatedUser_effect hcommit).2.2.1
      | _ => cases hprovisions
    | _ => cases hprovisions
  · rw [heq] at hok
    cases hok

/-- A link that an administrator issues for another one goes to an account never used before, if
and only if no F04 has created that account. -/
theorem recovery_link_never_used_iff {events : List AccountCommand} {x : AccountTaken}
    {admin : UserId} {session : SessionId} {target : UserId} {tokenId : ResetTokenId}
    {tokenHash : Bytes} {reason : String} {expiresAt now : DateTime} {u : UserRow}
    (hx : trace (accountStep P key rfc3339) db events = past ++ x :: rest)
    (hevent : x.event =
      .issueRecoveryLinkAsAdmin admin session target tokenId tokenHash reason expiresAt now)
    (hout : x.out = .ok ()) (hget : x.pre.users.get? target = some u) (hrole : u.role = .admin) :
    NeverUsed P key rfc3339 past x.pre target ↔ ¬ Provisioned past target := by
  obtain ⟨hrecord, -, hanswer⟩ :=
    trace_history (fun _ _ _ h _ => onRecord_step h) (guarded_true db events) onRecord_nil hx
  constructor
  · rintro hnever ⟨y, hy, hprovisions, hok⟩
    exact hnever.sessions y hy
      (opensSession_of_provisions hprovisions ((hrecord.answers y hy).symm.trans hok))
  · intro hnot
    rcases accountStep_cases P key rfc3339 x.pre x.event with ⟨db', hperform, -⟩ | ⟨e, heq⟩
    · rw [hevent] at hperform
      obtain ⟨⟨grant, db₁⟩, hissue, -⟩ := map_eq_ok.mp hperform
      obtain ⟨⟨u', hget', hchecked⟩, -⟩ := issueRecoveryLinkAsAdmin_ok hissue
      obtain rfl := Option.some.inj (hget.symm.trans hget')
      obtain ⟨hcredential, hlogin⟩ := hchecked hrole
      refine ⟨fun y hy hopens => ?_, fun y hy hheld => ?_, hcredential⟩
      · rcases hrecord.sessions y hy target hopens with ⟨u₁, hu₁, hid, hsigned⟩ | hprovisioned
        · obtain rfl := Option.some.inj (hget.symm.trans (Table.get?_eq_some.mpr ⟨hu₁, hid⟩))
          exact hsigned hlogin
        · exact hnot hprovisioned
      · exact hcredential (hrecord.credentials y hy target hheld)
    · rw [hout, heq] at hanswer
      cases hanswer

end Run

/-! ## An administrator that F04 created -/

private theorem provisioningDb_claimed :
    AttemptStatus.exchanging = .pending ↔ some (0 : DateTime) = none := by
  decide

/-- Administrator 1 has stepped up; an exchange with provider 1 is done. -/
def provisioningDb : Database :=
  { linkedDb with
    users := ⟨[plainUser 1 "root" .admin], by decide⟩
    sessions := ⟨[{ id := 5, userId := 1, expiresAt := seconds 86400, createdAt := 0
                    revokedAt := none, authMethods := [.pwd, .totp], lastStepUpAt := some 0
                    lastStepUpMethod := some "totp", lastUsedAt := none }], by decide⟩
    userTotp := ⟨[{ userId := 1, secretEnc := [], enabled := true, recoveryCodesEnc := none
                    lastUsedStep := 0, createdAt := 0, confirmedAt := some 0 }], by decide⟩
    federationLink := ∅
    federationLoginAttempt := ⟨[{ id := 3, providerId := 1, providerConfigVersion := 0
                                  providerActivationGeneration := 0, stateSha256 := []
                                  nonceSha256 := [], browserBindingSha256 := []
                                  pkceVerifierSealed := [], exactRedirectUri := ""
                                  nextPath := none, createdAt := 0, expiresAt := seconds 600
                                  status := .exchanging, claimedAt := some 0
                                  check_claimed := provisioningDb_claimed }], by decide⟩ }

/-- The first federated sign-in of account 9. -/
def firstFederatedSignIn : AccountCommand :=
  .signIn (.provisionFederatedUser 3 1
    { plainUser 9 "ada" .user with email := some "ada@corp.example" }
    { userId := 9, providerId := 1, upstreamSub := "ada", upstreamEmail := some "ada@corp.example"
      linkedAt := seconds 1, lastSeenAt := seconds 1 }
    { id := 6, userId := 9, expiresAt := seconds 3600, createdAt := seconds 1, revokedAt := none
      authMethods := [.fed], lastStepUpAt := none, lastStepUpMethod := none, lastUsedAt := none })

/-- Administrator 1 issues a link for account 9. -/
def linkForNine : AccountCommand :=
  .issueRecoveryLinkAsAdmin 1 5 9 8 [1] "lost the phone" (seconds 3600) (seconds 3)

/-- Account 9 signs in, is made an administrator, and a link is issued for it. -/
def capturedAdmin : List AccountCommand :=
  [firstFederatedSignIn, .changeUserRole 1 9 .admin, linkForNine]

/-- Account 9 is created by hand as an administrator. -/
def invitedAdmin : List AccountCommand :=
  [.createUser 1 (plainUser 9 "ada" .admin), linkForNine]

def accountTrace (commands : List AccountCommand) : List AccountTaken :=
  trace (accountStep .transparent (.constant 7) fun _ => "") provisioningDb commands

private theorem capturedAdmin_event : (accountTrace capturedAdmin)[2].event = linkForNine := rfl

private theorem capturedAdmin_out : (accountTrace capturedAdmin)[2].out = .ok () := by
  decide +kernel

private theorem capturedAdmin_role :
    ((accountTrace capturedAdmin)[2].pre.users.get? 9).map (fun u => u.role) = some .admin := by
  decide +kernel

private theorem capturedAdmin_provisioned :
    (accountTrace capturedAdmin)[0].event.provisions 9 = true ∧
      (accountTrace capturedAdmin)[0].out = .ok () := by
  decide +kernel

/-- Account 9 had a session when administrator 1 got a link for it. -/
theorem recovery_link_captures_admin :
    ¬ ∀ (past rest : List AccountTaken) (x : AccountTaken),
      accountTrace capturedAdmin = past ++ x :: rest →
      ∀ admin session target tokenId tokenHash reason expiresAt now, x.event =
        .issueRecoveryLinkAsAdmin admin session target tokenId tokenHash reason expiresAt now →
      x.out = .ok () →
      (x.pre.users.get? target).map (fun u => u.role) = some .admin →
      NeverUsed .transparent (.constant 7) (fun _ => "") past x.pre target := by
  intro h
  have hnever := h ((accountTrace capturedAdmin).take 2) [] ((accountTrace capturedAdmin)[2]) rfl
    _ _ _ _ _ _ _ _ capturedAdmin_event capturedAdmin_out capturedAdmin_role
  refine hnever.sessions ((accountTrace capturedAdmin)[0]) List.mem_cons_self ?_
  exact opensSession_of_provisions capturedAdmin_provisioned.1 capturedAdmin_provisioned.2

private theorem invitedAdmin_out : (accountTrace invitedAdmin)[1].out = .ok () := by
  decide +kernel

private theorem invitedAdmin_role : ∃ u,
    (accountTrace invitedAdmin)[1].pre.users.get? 9 = some u ∧ u.role = .admin :=
  ⟨plainUser 9 "ada" .admin, by decide +kernel, rfl⟩

private theorem invitedAdmin_split :
    trace (accountStep .transparent (.constant 7) fun _ => "") provisioningDb invitedAdmin =
      [(accountTrace invitedAdmin)[0]] ++ (accountTrace invitedAdmin)[1] :: [] := rfl

theorem recovery_link_never_used_invitedAdmin :
    ¬ Provisioned [(accountTrace invitedAdmin)[0]] 9 ∧
      NeverUsed .transparent (.constant 7) (fun _ => "") [(accountTrace invitedAdmin)[0]]
        (accountTrace invitedAdmin)[1].pre 9 := by
  obtain ⟨u, hget, hrole⟩ := invitedAdmin_role
  have hnot : ¬ Provisioned [(accountTrace invitedAdmin)[0]] 9 := by
    rintro ⟨y, hy, hprovisions, -⟩
    cases List.mem_singleton.mp hy
    cases hprovisions
  exact ⟨hnot, (recovery_link_never_used_iff invitedAdmin_split rfl invitedAdmin_out hget
    hrole).mpr hnot⟩

end SuiId
