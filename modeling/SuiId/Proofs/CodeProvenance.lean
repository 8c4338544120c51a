import SuiId.Core.Authorize

/-!
# Where a request in flight comes from

`Became` lists the transitions of a request: what was read, and in which state,
when it went from one access to the next.  `became_of_step` says that a step
moves a request in no other way.  Everything about the origin of a code is
proved from these two.
-/

namespace SuiId

open Lib Lib.Result

section Transitions

variable (P : Primitives) (K : ConsentCodec) (key : MasterKey)

/-- The event takes request `r` of `w` to the call. -/
inductive Became (w : AuthorizeWorld) : AuthorizeEvent → RequestId → AuthorizeCall → Prop
  | clientValid {r} {query : AuthorizeQuery} {clientId cookie}
      (hparse : K.parseId query.clientId = some clientId) :
      Became w (.authorize r query cookie) r (.clientValid query clientId cookie)
  | signedIn {r} {draw : AuthorizeDraw} {query : AuthorizeQuery} {clientId} {cookie : Option String}
      {session session' user authMethods}
      (hcall : w.calls r = some (.clientValid query clientId cookie))
      (hcookie : cookie.bind K.parseId = some session)
      (hread : resolveSession w.db draw.now session = some (session', user, authMethods)) :
      Became w (.next r draw) r (.signedIn (query.params clientId) session' user authMethods)
  | accepted {r draw params session user authMethods}
      (hcall : w.calls r = some (.signedIn params session user authMethods)) :
      Became w (.next r draw) r (.accepted params session user authMethods)
  | permittedByPolicy {r draw} {params : AuthorizeParams} {session user authMethods}
      {client : ClientRow} (hcall : w.calls r = some (.accepted params session user authMethods))
      (hclient : w.db.clients.get? params.clientId = some client)
      (hpolicy : client.consentPolicy = .none) :
      Became w (.next r draw) r (.permitted params session user authMethods)
  | consentWantedByPolicy {r draw params session user authMethods}
      (hcall : w.calls r = some (.accepted params session user authMethods)) :
      Became w (.next r draw) r (.consentWanted params session)
  | grantWanted {r draw} {params : AuthorizeParams} {session user authMethods} {client : ClientRow}
      (hcall : w.calls r = some (.accepted params session user authMethods))
      (hclient : w.db.clients.get? params.clientId = some client)
      (hpolicy : client.consentPolicy = .firstTime) :
      Became w (.next r draw) r (.grantWanted params session user authMethods)
  | permittedByGrant {r draw} {params : AuthorizeParams} {session user authMethods}
      {row : UserConsentRow}
      (hcall : w.calls r = some (.grantWanted params session user authMethods))
      (hrow : w.db.userConsent.get? (user, params.clientId) = some row)
      (hcovers : covers row.grantedScopes params.scope = true) :
      Became w (.next r draw) r (.permitted params session user authMethods)
  | consentWanted {r draw params session user authMethods}
      (hcall : w.calls r = some (.grantWanted params session user authMethods)) :
      Became w (.next r draw) r (.consentWanted params session)
  | answering {r} {submission : ConsentSubmission} {now session user}
      (hcookie : submission.sessionCookie.bind K.parseId = some session)
      (hread : (resolve w.db now session).1 = .ok user) :
      Became w (.consentPost r submission now) r (.answering submission session user)
  | approving {r} {draw : AuthorizeDraw} {submission session user params}
      (hcall : w.calls r = some (.answering submission session user))
      (hread : readSubmission P K key w.db submission session draw.now = .ok (some params)) :
      Became w (.next r draw) r (.approving params session user)
  | attributed {r draw params session user authMethods}
      (hcall : w.calls r = some (.approving params session user)) :
      Became w (.next r draw) r (.attributed params session user authMethods)
  | granted {r draw params session user authMethods}
      (hcall : w.calls r = some (.attributed params session user authMethods)) :
      Became w (.next r draw) r (.granted params session user authMethods)
  | permittedAgain {r draw params session user authMethods}
      (hcall : w.calls r = some (.granted params session user authMethods)) :
      Became w (.next r draw) r (.permitted params session user authMethods)

end Transitions

variable {P : Primitives} {K : ConsentCodec} {key : MasterKey} {w : AuthorizeWorld}
variable {request r : RequestId} {call : AuthorizeCall}

private theorem calls_endCall (h : (w.endCall request).calls r = some call) :
    w.calls r = some call := by
  by_cases hr : r = request
  · subst hr
    simp [AuthorizeWorld.endCall] at h
  · simpa [AuthorizeWorld.endCall, Function.update_of_ne hr] using h

private theorem calls_goOn {next : AuthorizeCall} (h : (w.goOn request next).calls r = some call) :
    w.calls r = some call ∨ (r = request ∧ call = next) := by
  by_cases hr : r = request
  · subst hr
    simp only [AuthorizeWorld.goOn, Function.update_self, Option.some.injEq] at h
    exact .inr ⟨rfl, h.symm⟩
  · have hcalls : (w.goOn request next).calls r = w.calls r := Function.update_of_ne hr _ _
    exact .inl (hcalls ▸ h)

variable {w' : AuthorizeWorld} {user : UserId} {client : ClientId} {e : AuthorizeEvent}

private theorem calls_grant {grantedScopes : String} {now : DateTime}
    (h : w.grant user client grantedScopes now = .ok w') :
    w'.calls = w.calls := by
  simp only [AuthorizeWorld.grant, map_eq_ok] at h
  obtain ⟨_, -, rfl⟩ := h
  rfl

private theorem calls_revoke (h : w.revoke user client = .ok w') : w'.calls = w.calls := by
  simp only [AuthorizeWorld.revoke, map_eq_ok] at h
  obtain ⟨_, -, rfl⟩ := h
  rfl

private theorem became_of_advance {draw : AuthorizeDraw} {call' : AuthorizeCall}
    (hcall : w.calls request = some call)
    (h : (advance P K key w request draw call).1.calls r = some call') :
    w.calls r = some call' ∨ Became P K key w (.next request draw) r call' := by
  cases call with
  | clientValid query clientId cookie =>
    simp only [advance] at h
    split at h
    · exact .inl (calls_endCall h)
    · rename_i session user authMethods hread
      obtain ⟨id, hcookie, hread⟩ := Option.bind_eq_some_iff.mp hread
      rcases calls_goOn h with h | ⟨rfl, rfl⟩
      · exact .inl h
      · exact .inr (.signedIn hcall hcookie hread)
  | signedIn params session user authMethods =>
    simp only [advance] at h
    split at h
    · rcases calls_goOn h with h | ⟨rfl, rfl⟩
      · exact .inl h
      · exact .inr (.accepted hcall)
    · exact .inl (calls_endCall h)
  | accepted params session user authMethods =>
    simp only [advance] at h
    split at h
    · exact .inl (calls_endCall h)
    · rename_i client hclient
      split at h
      · rename_i hpolicy
        rcases calls_goOn h with h | ⟨rfl, rfl⟩
        · exact .inl h
        · exact .inr (.permittedByPolicy hcall hclient hpolicy)
      · rcases calls_goOn h with h | ⟨rfl, rfl⟩
        · exact .inl h
        · exact .inr (.consentWantedByPolicy hcall)
      · rename_i hpolicy
        rcases calls_goOn h with h | ⟨rfl, rfl⟩
        · exact .inl h
        · exact .inr (.grantWanted hcall hclient hpolicy)
  | grantWanted params session user authMethods =>
    simp only [advance] at h
    split at h
    · rename_i hany
      obtain ⟨row, hrow, hcovers⟩ := (Option.any_eq_true _ _).mp hany
      rcases calls_goOn h with h | ⟨rfl, rfl⟩
      · exact .inl h
      · exact .inr (.permittedByGrant hcall hrow hcovers)
    · rcases calls_goOn h with h | ⟨rfl, rfl⟩
      · exact .inl h
      · exact .inr (.consentWanted hcall)
  | consentWanted params session =>
    simp only [advance] at h
    exact .inl (calls_endCall h)
  | answering submission session user =>
    simp only [advance] at h
    split at h
    · rename_i params hread
      rcases calls_goOn h with h | ⟨rfl, rfl⟩
      · exact .inl h
      · exact .inr (.approving hcall hread)
    · exact .inl (calls_endCall h)
    · exact .inl (calls_endCall h)
  | approving params session user =>
    simp only [advance] at h
    split at h
    · exact .inl (calls_endCall h)
    · rcases calls_goOn h with h | ⟨rfl, rfl⟩
      · exact .inl h
      · exact .inr (.attributed hcall)
  | attributed params session user authMethods =>
    simp only [advance] at h
    split at h
    · rename_i w' hgrant
      rcases calls_goOn h with h | ⟨rfl, rfl⟩
      · exact .inl (calls_grant hgrant ▸ h)
      · exact .inr (.granted hcall)
    · exact .inl (calls_endCall h)
  | granted params session user authMethods =>
    simp only [advance] at h
    split at h
    · rcases calls_goOn h with h | ⟨rfl, rfl⟩
      · exact .inl h
      · exact .inr (.permittedAgain hcall)
    · exact .inl (calls_endCall h)
  | permitted params session user authMethods =>
    simp only [advance] at h
    split at h
    · exact .inl (calls_endCall h)
    · exact .inl (calls_endCall h)

/-- A request after a step was there before, or one of the transitions took it
where it is. -/
theorem became_of_step (h : (authorizeStep P K key w e).1.calls r = some call) :
    w.calls r = some call ∨ Became P K key w e r call := by
  cases e with
  | authorize request query cookie =>
    simp only [authorizeStep] at h
    split at h
    · exact .inl h
    · split at h
      · exact .inl h
      · rename_i clientId hparse
        split at h
        · rcases calls_goOn h with h | ⟨rfl, rfl⟩
          · exact .inl h
          · exact .inr (.clientValid hparse)
        · exact .inl h
  | consentPost request submission now =>
    simp only [authorizeStep] at h
    split at h
    · exact .inl h
    · split at h
      · exact .inl h
      · rename_i session hcookie
        split at h
        · rename_i user db hresolve
          rcases calls_goOn h with h | ⟨rfl, rfl⟩
          · exact .inl h
          · exact .inr (.answering hcookie (by rw [hresolve]))
        · exact .inl h
  | next request draw =>
    simp only [authorizeStep] at h
    split at h
    · exact .inl h
    · rename_i call₀ hcall
      exact became_of_advance hcall h
  | grantConsent user client grantedScopes now =>
    simp only [authorizeStep] at h
    split at h
    · rename_i w' hgrant
      exact .inl (calls_grant hgrant ▸ h)
    · exact .inl h
  | revokeConsent user client =>
    simp only [authorizeStep] at h
    split at h
    · rename_i w' hrevoke
      exact .inl (calls_revoke hrevoke ▸ h)
    · exact .inl h
  | elsewhere db => exact .inl h

/-- A code is issued at the last access of a request only. -/
theorem issued_of_step {row : AuthorizationCodeRow}
    (h : (authorizeStep P K key w e).2 = .issued row) :
    ∃ r draw params session user authMethods, e = .next r draw ∧
      w.calls r = some (.permitted params session user authMethods) ∧
      row = authorizationCode P draw user authMethods params := by
  cases e with
  | authorize | consentPost =>
    simp only [authorizeStep] at h
    split at h
    · cases h
    · split at h
      · cases h
      · split at h
        · cases h
        · cases h
  | next request draw =>
    simp only [authorizeStep] at h
    split at h
    · cases h
    · rename_i call hcall
      cases call with
      | permitted params session user authMethods =>
        simp only [advance] at h
        split at h
        · cases h
          exact ⟨request, draw, params, session, user, authMethods, rfl, hcall, rfl⟩
        · cases h
      | _ =>
        simp only [advance] at h
        (repeat' split at h) <;> cases h
  | grantConsent | revokeConsent =>
    simp only [authorizeStep] at h
    split at h
    · cases h
    · cases h
  | elsewhere db => cases h

/-! ## A request that runs -/

/-- A public client with one redirect URI. -/
def spaClient (consentPolicy : ConsentPolicy) : ClientRow :=
  { id := 5, name := "app", confidential := false, secretHash := none, allowedScopes := ""
    isDisabled := false, isDeleted := false, tokenEndpointAuthMethod := none, grantTypes := none
    redirectUris := ["app:cb"], consentPolicy }

/-- The account with a session 10, and that client. -/
def authorizeDb (user : UserRow) (consentPolicy : ConsentPolicy) : Database :=
  { Database.empty with
    users := ⟨[user], List.nodup_singleton _⟩
    sessions := ⟨[plainSession 10 user.id], List.nodup_singleton _⟩
    clients := ⟨[spaClient consentPolicy], List.nodup_singleton _⟩ }

def codeQuery : AuthorizeQuery :=
  { clientId := ConsentCodec.unaryId 5, redirectUri := "app:cb", responseType := "code"
    scope := none, state := none, nonce := none, codeChallenge := "c"
    codeChallengeMethod := "S256" }

/-- An authorization request with session 10, to its last access at `now`. -/
def codeRun (now : DateTime) : List AuthorizeEvent :=
  .authorize 1 codeQuery (some (ConsentCodec.unaryId 10)) ::
    List.replicate 4 (.next 1 ⟨now, "code"⟩)

end SuiId
