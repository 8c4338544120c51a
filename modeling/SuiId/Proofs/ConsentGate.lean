import SuiId.Proofs.SessionReaders

/-!
# The consent gate

Every authorization code was asked for by its user's session, and is there
because of the client's policy, a stored grant, or an answer to the consent
screen.  The answer reaches the server with a cookie; `Unforged` says that only
tags the server has computed verify, and `opened_of_unforged` that such a cookie
brings back the request the screen was shown for, to the session it was shown to,
within its lifetime.

`Origin` is what a request in flight has behind it, in terms of the steps taken
so far, and `Provenance` is kept by every step.
-/

namespace SuiId

open Lib Lib.Result

/-! ## The cookie -/

section Cookie

variable {K : ConsentCodec} {key : MasterKey}

/-- The tag of a cookie covers its session and its body. -/
theorem macMessage_injective (hK : K.Lawful) {text text' : String} {session session' : SessionId}
    {body body' : String} (hparse : K.parseId text = some session)
    (hparse' : K.parseId text' = some session')
    (h : ConsentState.macMessage K session body = ConsentState.macMessage K session' body') :
    session = session' ∧ body = body' := by
  have hlen := hK.length_idText hparse
  have hlen' := hK.length_idText hparse'
  simp only [ConsentState.macMessage, hlen, hlen', List.append_assoc, List.append_cancel_left_eq]
    at h
  obtain ⟨htext, hbody⟩ := List.append_inj h (hlen.trans hlen'.symm)
  have hid : K.idText session = K.idText session' := utf8_inj htext
  have hsession : some session = some session' := by
    rw [← hK.parse_idText hparse, ← hK.parse_idText hparse', hid]
  exact ⟨Option.some.inj hsession, utf8_inj hbody⟩

/-- Opening a value: its tag verifies, its body decodes, and it has not expired. -/
theorem openState_eq_some {session : SessionId} {now : Int} {value : String}
    {req : ConsentRequest} (h : ConsentState.openState K key session now value = some req) :
    ∃ body exp, ConsentState.verifiedBody K key session value = some body ∧
      K.decodeBody body = some ⟨exp, req⟩ ∧ now ≤ exp := by
  unfold ConsentState.openState at h
  split at h
  · cases h
  · rename_i body hbody
    split at h
    · cases h
    · rename_i payload hpayload
      split at h
      · cases h
      · rename_i hexp
        cases h
        exact ⟨body, payload.exp, hbody, hpayload, Int.not_lt.mp hexp⟩

/-- The payload a cookie was sealed with. -/
def HandedOut.payload (K : ConsentCodec) (h : HandedOut) : ConsentPayload :=
  ⟨timestamp h.sealedAt + ConsentState.lifetimeSecs, h.params.consentRequest K⟩

/-- The submission a request is about to read, and its session. -/
def AuthorizeCall.submission? : AuthorizeCall → Option (ConsentSubmission × SessionId)
  | .answering submission session _ => some (submission, session)
  | _ => none

/-- The tag of a value that verifies for a session is over a message the server has
tagged. -/
def TaggedBefore (K : ConsentCodec) (key : MasterKey) (w : AuthorizeWorld) (session : SessionId)
    (value : String) : Prop :=
  ∀ body ∈ ConsentState.verifiedBody K key session value,
    ∃ h ∈ w.handedOut, ConsentState.macMessage K session body =
      ConsentState.macMessage K h.session (K.encodeBody (h.payload K))

instance (w : AuthorizeWorld) (session : SessionId) (value : String) :
    Decidable (TaggedBefore K key w session value) :=
  inferInstanceAs (Decidable (∀ body ∈ ConsentState.verifiedBody K key session value,
    ∃ h ∈ w.handedOut, ConsentState.macMessage K session body =
      ConsentState.macMessage K h.session (K.encodeBody (h.payload K))))

/-- HMAC-SHA256 cannot be forged: no request presents a value with a tag that the
server has not computed. -/
def Unforged (K : ConsentCodec) (key : MasterKey) (w : AuthorizeWorld) : AuthorizeEvent → Prop
  | .next request _ =>
    ∀ call ∈ w.calls request, ∀ answer ∈ call.submission?,
      ∀ value ∈ answer.1.stateCookie, TaggedBefore K key w answer.2 value
  | _ => True

instance (w : AuthorizeWorld) : ∀ e, Decidable (Unforged K key w e)
  | .next request _ => inferInstanceAs (Decidable (∀ call ∈ w.calls request,
      ∀ answer ∈ call.submission?,
        ∀ value ∈ answer.1.stateCookie, TaggedBefore K key w answer.2 value))
  | .authorize .. => isTrue trivial
  | .consentPost .. => isTrue trivial
  | .grantConsent .. => isTrue trivial
  | .revokeConsent .. => isTrue trivial
  | .elsewhere _ => isTrue trivial

end Cookie

/-! ## What a request has behind it -/

section Origins

variable (P : Primitives) (K : ConsentCodec) (key : MasterKey)

/-- The request came in with these parameters. -/
def Asked (past : List AuthorizeTaken) (r : RequestId) (params : AuthorizeParams) : Prop :=
  ∃ y ∈ past, ∃ query cookie clientId, y.event = .authorize r query cookie ∧
    K.parseId query.clientId = some clientId ∧ params = query.params clientId

/-- The step reads, for an authorization request with these parameters, a session
of the user that is neither revoked nor expired. -/
def RequestRead (y : AuthorizeTaken) (r : RequestId) (params : AuthorizeParams)
    (session : SessionId) (user : UserId) : Prop :=
  ∃ draw query clientId cookie s, y.event = .next r draw ∧
    y.pre.calls r = some (.clientValid query clientId cookie) ∧ params = query.params clientId ∧
    cookie.bind K.parseId = some session ∧ y.pre.db.sessions.get? session = some s ∧
    s.userId = user ∧ s.revokedAt = none ∧ draw.now ≤ s.expiresAt

/-- An authorization request with these parameters, by a session of the user. -/
def Requested (past : List AuthorizeTaken) (r : RequestId) (params : AuthorizeParams)
    (session : SessionId) (user : UserId) : Prop :=
  Asked K past r params ∧ ∃ y ∈ past, RequestRead K y r params session user

/-- The step reads the policy of the request's client. -/
def PolicyRead (z : AuthorizeTaken) (r : RequestId) (params : AuthorizeParams)
    (session : SessionId) (user : UserId) (policy : ConsentPolicy) : Prop :=
  ∃ draw authMethods client, z.event = .next r draw ∧
    z.pre.calls r = some (.accepted params session user authMethods) ∧
    z.pre.db.clients.get? params.clientId = some client ∧ client.consentPolicy = policy

/-- The step finds every requested scope token in the scope the user last approved
for the client and has not revoked. -/
def GrantRead (z : AuthorizeTaken) (r : RequestId) (params : AuthorizeParams)
    (session : SessionId) (user : UserId) : Prop :=
  ∃ draw authMethods scopes, z.event = .next r draw ∧
    z.pre.calls r = some (.grantWanted params session user authMethods) ∧
    z.pre.approved (user, params.clientId) = some scopes ∧
    ∀ token ∈ Text.splitWhitespace params.scope, token ∈ Text.splitWhitespace scopes

/-- The cookie was handed out with the consent screen of an authorization request. -/
def HandedOutBy (past : List AuthorizeTaken) (h : HandedOut) : Prop :=
  ∃ r draw user, (∃ y ∈ past, y.event = .next r draw ∧ draw.now = h.sealedAt ∧
      y.pre.calls r = some (.consentWanted h.params h.session) ∧
      y.out = .consentScreen (ConsentState.sealState P K key h.session (timestamp h.sealedAt)
        (h.params.consentRequest K))) ∧
    Requested K past r h.params h.session user

/-- The step resolves the session of an answer to the consent screen. -/
def SubmissionRead (y : AuthorizeTaken) (r : RequestId) (submission : ConsentSubmission)
    (session : SessionId) (user : UserId) : Prop :=
  ∃ now s, y.event = .consentPost r submission now ∧
    submission.sessionCookie.bind K.parseId = some session ∧
    y.pre.db.sessions.get? session = some s ∧ s.userId = user ∧ Accepted y.pre.db now s

/-- The cookie was sealed at most 300 seconds before, in whole seconds of Unix time. -/
def WithinLifetime (sealedAt answeredAt : DateTime) : Prop :=
  timestamp answeredAt - timestamp sealedAt ≤ 300

/-- The user approved a screen that had been shown to the same session, for the same
request, and in time. -/
def Approved (inTime : DateTime → DateTime → Prop) (past : List AuthorizeTaken) (r : RequestId)
    (params : AuthorizeParams)
    (session : SessionId) (user : UserId) : Prop :=
  ∃ before z after, past = before ++ z :: after ∧ ∃ draw submission value h,
    z.event = .next r draw ∧ z.pre.calls r = some (.answering submission session user) ∧
    (∃ y ∈ before, SubmissionRead K y r submission session user) ∧
    submission.decision = "approve" ∧ submission.stateCookie = some value ∧
    ConsentState.verifiedBody K key session value = some (K.encodeBody (h.payload K)) ∧
    HandedOutBy P K key before h ∧ h.session = session ∧
    params = { h.params with responseType := "code" } ∧
    inTime h.sealedAt draw.now

/-- Why a code may be issued. -/
def Permitted (inTime : DateTime → DateTime → Prop) (past : List AuthorizeTaken) (r : RequestId)
    (params : AuthorizeParams)
    (session : SessionId) (user : UserId) : Prop :=
  Approved P K key inTime past r params session user ∨
    (Requested K past r params session user ∧
      ((∃ z ∈ past, PolicyRead z r params session user .none) ∨
        ((∃ z ∈ past, PolicyRead z r params session user .firstTime) ∧
          ∃ z ∈ past, GrantRead z r params session user)))

/-- What a request in flight has behind it. -/
def Origin (past : List AuthorizeTaken) (r : RequestId) : AuthorizeCall → Prop
  | .clientValid query clientId _ => Asked K past r (query.params clientId)
  | .signedIn params session user _ => Requested K past r params session user
  | .accepted params session user _ => Requested K past r params session user
  | .grantWanted params session user _ =>
    Requested K past r params session user ∧
      ∃ z ∈ past, PolicyRead z r params session user .firstTime
  | .consentWanted params session => ∃ user, Requested K past r params session user
  | .answering submission session user => ∃ y ∈ past, SubmissionRead K y r submission session user
  | .approving params session user => Approved P K key WithinLifetime past r params session user
  | .attributed params session user _ =>
    Approved P K key WithinLifetime past r params session user
  | .granted params session user _ =>
    Approved P K key WithinLifetime past r params session user
  | .permitted params session user _ =>
    Permitted P K key WithinLifetime past r params session user

/-- The requests in flight, the cookies that are out and the grants are accounted
for by the steps taken. -/
structure Provenance (past : List AuthorizeTaken) (w : AuthorizeWorld) : Prop where
  calls : ∀ r call, w.calls r = some call → Origin P K key past r call
  handedOut : ∀ h ∈ w.handedOut, HandedOutBy P K key past h
  approved : ∀ pair, w.approved pair = (w.db.userConsent.get? pair).map (·.grantedScopes)

end Origins

variable {P : Primitives} {K : ConsentCodec} {key : MasterKey} {past : List AuthorizeTaken}
  {r : RequestId} {params : AuthorizeParams} {session : SessionId} {user : UserId}

/-! ### A longer past -/

private theorem exists_mem_append {α : Type} {p : α → Prop} {l l' : List α} (h : ∃ a ∈ l, p a) :
    ∃ a ∈ l ++ l', p a := by
  obtain ⟨a, ha, hp⟩ := h
  exact ⟨a, List.mem_append_left l' ha, hp⟩

variable {later : List AuthorizeTaken} {inTime : DateTime → DateTime → Prop}

private theorem Asked.append (h : Asked K past r params) : Asked K (past ++ later) r params :=
  exists_mem_append h

private theorem Requested.append (h : Requested K past r params session user) :
    Requested K (past ++ later) r params session user :=
  ⟨h.1.append, exists_mem_append h.2⟩

variable {h : HandedOut} {call : AuthorizeCall} {submission : ConsentSubmission} {now : DateTime}
  {draw : AuthorizeDraw} {w' : AuthorizeWorld} {client : ClientId}

private theorem HandedOutBy.append (hout : HandedOutBy P K key past h) :
    HandedOutBy P K key (past ++ later) h := by
  obtain ⟨r, draw, user, hstep, hrequested⟩ := hout
  exact ⟨r, draw, user, exists_mem_append hstep, hrequested.append⟩

private theorem Approved.append (h : Approved P K key inTime past r params session user) :
    Approved P K key inTime (past ++ later) r params session user := by
  obtain ⟨before, z, after, rfl, hz⟩ := h
  refine ⟨before, z, after ++ later, ?_, hz⟩
  rw [List.append_assoc, List.cons_append]

private theorem Permitted.append (h : Permitted P K key inTime past r params session user) :
    Permitted P K key inTime (past ++ later) r params session user := by
  rcases h with h | ⟨hrequested, hnone | ⟨hfirst, hgrant⟩⟩
  · exact .inl h.append
  · exact .inr ⟨hrequested.append, .inl (exists_mem_append hnone)⟩
  · exact .inr ⟨hrequested.append, .inr ⟨exists_mem_append hfirst, exists_mem_append hgrant⟩⟩

private theorem Origin.append (h : Origin P K key past r call) :
    Origin P K key (past ++ later) r call := by
  cases call with
  | clientValid query clientId cookie => exact Asked.append h
  | signedIn | accepted => exact Requested.append h
  | grantWanted params session user authMethods =>
    exact ⟨Requested.append h.1, exists_mem_append h.2⟩
  | consentWanted params session =>
    obtain ⟨user, h⟩ := h
    exact ⟨user, Requested.append h⟩
  | answering submission session user => exact exists_mem_append h
  | approving params session user => exact Approved.append h
  | attributed params session user authMethods => exact Approved.append h
  | granted params session user authMethods => exact Approved.append h
  | permitted params session user authMethods => exact Permitted.append h

/-! ### The cookie comes back -/

private theorem readSubmission_ok {db : Database}
    (h : readSubmission P K key db submission session now = .ok (some params)) :
    ∃ value req clientId, submission.stateCookie = some value ∧
      ConsentState.openState K key session (timestamp now) value = some req ∧
      K.parseId req.clientId = some clientId ∧ submission.decision = "approve" ∧
      params = req.params clientId := by
  simp only [readSubmission, bind_eq_ok, ensure_eq_ok, require_eq_ok, pure_eq_ok] at h
  obtain ⟨-, -, req, hopen, clientId, hparse, -, -, hanswer⟩ := h
  obtain ⟨value, hvalue, hopen⟩ := Option.bind_eq_some_iff.mp hopen
  split at hanswer
  · rename_i hdecision
    cases hanswer
    exact ⟨value, req, clientId, hvalue, hopen, hparse, beq_iff_eq.mp hdecision, rfl⟩
  · cases hanswer

/-- The identifiers of a cookie have been parsed. -/
private theorem HandedOutBy.parsed (hout : HandedOutBy P K key past h) :
    (∃ text, K.parseId text = some h.params.clientId) ∧
      ∃ text, K.parseId text = some h.session := by
  obtain ⟨_, _, _, -, ⟨_, -, query, _, clientId, -, hclient, hparams⟩, _, -, hread⟩ := hout
  obtain ⟨_, _, _, _, _, -, -, -, hsession, -⟩ := hread
  obtain ⟨text, -, hsession⟩ := Option.bind_eq_some_iff.mp hsession
  refine ⟨⟨query.clientId, ?_⟩, text, hsession⟩
  rw [hclient, hparams]
  rfl

/-- So has the session of an answer. -/
private theorem SubmissionRead.parsed {y : AuthorizeTaken}
    (h : SubmissionRead K y r submission session user) : ∃ text, K.parseId text = some session := by
  obtain ⟨_, _, -, hcookie, -⟩ := h
  obtain ⟨text, -, hparse⟩ := Option.bind_eq_some_iff.mp hcookie
  exact ⟨text, hparse⟩

/-- A value that opens, if it is not forged, is a cookie handed out to the same
session, and it has not expired. -/
theorem opened_of_unforged (hK : K.Lawful) {w : AuthorizeWorld} {value : String}
    {req : ConsentRequest} (hout : ∀ h ∈ w.handedOut, HandedOutBy P K key past h)
    (hunforged : Unforged K key w (.next r draw))
    (hcall : w.calls r = some (.answering submission session user)) {text : String}
    (hparse : K.parseId text = some session) (hvalue : submission.stateCookie = some value)
    (hopen : ConsentState.openState K key session (timestamp draw.now) value = some req) :
    ∃ h ∈ w.handedOut, h.session = session ∧ req = h.params.consentRequest K ∧
      ConsentState.verifiedBody K key session value = some (K.encodeBody (h.payload K)) ∧
      WithinLifetime h.sealedAt draw.now := by
  obtain ⟨body, exp, hbody, hdecode, hexp⟩ := openState_eq_some hopen
  obtain ⟨h, hmem, hmac⟩ := hunforged _ hcall (submission, session) rfl value hvalue body hbody
  obtain ⟨text', hparse'⟩ := (hout h hmem).parsed.2
  obtain ⟨hsession, rfl⟩ := macMessage_injective hK hparse hparse' hmac
  rw [hK.decode_encodeBody] at hdecode
  have hpayload : h.payload K = ⟨exp, req⟩ := Option.some.inj hdecode
  simp only [HandedOut.payload, ConsentState.lifetimeSecs, ConsentPayload.mk.injEq] at hpayload
  obtain ⟨hexp', hreq⟩ := hpayload
  refine ⟨h, hmem, hsession.symm, hreq.symm, hbody, ?_⟩
  unfold WithinLifetime
  omega

/-- An approving answer goes back to a screen that was shown to its session. -/
private theorem approved_of_readSubmission (hK : K.Lawful) {w : AuthorizeWorld}
    (hpast : Provenance P K key past w) (hunforged : Unforged K key w (.next r draw))
    (hcall : w.calls r = some (.answering submission session user))
    (hread : readSubmission P K key w.db submission session draw.now = .ok (some params))
    (out : AuthorizeAnswer) :
    Approved P K key WithinLifetime (past ++ [⟨w, .next r draw, out⟩]) r params session user := by
  obtain ⟨value, req, clientId, hvalue, hopen, hclient, hdecision, rfl⟩ := readSubmission_ok hread
  obtain ⟨y, hy, hsubmission⟩ : ∃ y ∈ past, SubmissionRead K y r submission session user :=
    hpast.calls r _ hcall
  obtain ⟨text, hparse⟩ := hsubmission.parsed
  obtain ⟨h, hmem, hsession, rfl, hbody, htime⟩ :=
    opened_of_unforged hK hpast.handedOut hunforged hcall hparse hvalue hopen
  have hout := hpast.handedOut h hmem
  obtain ⟨text', hparse'⟩ := hout.parsed.1
  have hid : h.params.clientId = clientId := by
    have hagain : K.parseId (K.idText h.params.clientId) = some h.params.clientId :=
      hK.parse_idText hparse'
    exact Option.some.inj (hagain.symm.trans hclient)
  have hparams : (h.params.consentRequest K).params clientId =
      { h.params with responseType := "code" } := by
    rw [← hid]
    rfl
  exact ⟨past, _, [], rfl, draw, submission, value, h, rfl, hcall, ⟨y, hy, hsubmission⟩,
    hdecision, hvalue, hbody, hout, hsession, hparams, htime⟩

/-! ## Steps -/

variable {w : AuthorizeWorld} {e : AuthorizeEvent}

/-- The transition of a request keeps or extends what it has behind it. -/
private theorem origin_of_became (hK : K.Lawful) (hpast : Provenance P K key past w)
    (hunforged : Unforged K key w e) (hbecame : Became P K key w e r call) (out : AuthorizeAnswer) :
    Origin P K key (past ++ [⟨w, e, out⟩]) r call := by
  have hlast : (⟨w, e, out⟩ : AuthorizeTaken) ∈ past ++ [⟨w, e, out⟩] :=
    List.mem_append_right past (List.mem_singleton.mpr rfl)
  cases hbecame with
  | clientValid hparse => exact ⟨_, hlast, _, _, _, rfl, hparse, rfl⟩
  | @signedIn _ draw query clientId cookie read _ _ authMethods hcall hcookie hread =>
    have hasked : Asked K past r (query.params clientId) := hpast.calls r _ hcall
    obtain ⟨s, hs, hrevoked, hexpires, rfl, rfl, -⟩ := resolveSession_eq_some_iff.mp hread
    exact ⟨hasked.append, _, hlast, draw, query, clientId, cookie, s, rfl, hcall, rfl, hcookie, hs,
      rfl, hrevoked, hexpires⟩
  | accepted hcall =>
    have hrequested : Origin P K key past r _ := hpast.calls r _ hcall
    exact Requested.append hrequested
  | permittedByPolicy hcall hclient hpolicy =>
    have hrequested : Origin P K key past r _ := hpast.calls r _ hcall
    exact .inr ⟨Requested.append hrequested, .inl ⟨_, hlast, _, _, _, rfl, hcall, hclient, hpolicy⟩⟩
  | consentWantedByPolicy hcall =>
    have hrequested : Origin P K key past r _ := hpast.calls r _ hcall
    exact ⟨_, Requested.append hrequested⟩
  | grantWanted hcall hclient hpolicy =>
    have hrequested : Origin P K key past r _ := hpast.calls r _ hcall
    exact ⟨Requested.append hrequested, _, hlast, _, _, _, rfl, hcall, hclient, hpolicy⟩
  | @permittedByGrant _ draw params session user authMethods row hcall hrow hcovers =>
    obtain ⟨hrequested, hpolicy⟩ : Origin P K key past r (.grantWanted params session user _) :=
      hpast.calls r _ hcall
    have happroved : w.approved (user, params.clientId) = some row.grantedScopes := by
      rw [hpast.approved, hrow]
      rfl
    have htokens : ∀ token ∈ Text.splitWhitespace params.scope,
        token ∈ Text.splitWhitespace row.grantedScopes := by
      simpa [covers] using hcovers
    exact .inr ⟨hrequested.append, .inr ⟨exists_mem_append hpolicy,
      _, hlast, draw, authMethods, row.grantedScopes, rfl, hcall, happroved, htokens⟩⟩
  | consentWanted hcall =>
    have hrequested : Origin P K key past r _ := hpast.calls r _ hcall
    exact ⟨_, Requested.append hrequested.1⟩
  | @answering _ submission now _ _ hcookie hread =>
    obtain ⟨s, hs, huser, haccepted⟩ := resolve_eq_ok_iff.mp hread
    exact ⟨_, hlast, now, s, rfl, hcookie, hs, huser, haccepted⟩
  | approving hcall hread => exact approved_of_readSubmission hK hpast hunforged hcall hread out
  | attributed hcall | granted hcall =>
    have happroved : Origin P K key past r _ := hpast.calls r _ hcall
    exact Approved.append happroved
  | permittedAgain hcall =>
    have happroved : Origin P K key past r _ := hpast.calls r _ hcall
    exact .inl (Approved.append happroved)

/-- The cookies and the grants are left as they are. -/
private structure SameHistory (w w' : AuthorizeWorld) : Prop where
  handedOut : w'.handedOut = w.handedOut
  approved : w'.approved = w.approved
  userConsent : w'.db.userConsent = w.db.userConsent

private theorem SameHistory.refl (w : AuthorizeWorld) : SameHistory w w := ⟨rfl, rfl, rfl⟩

private theorem sameHistory_answer {id : SessionId} (request : RequestId) (call : AuthorizeCall) :
    SameHistory w ({ w with db := touchLastUsed (resolve w.db now id).2 now id }.goOn request call)
    where
  handedOut := rfl
  approved := rfl
  userConsent := by
    obtain ⟨sessions, log, -, heq⟩ := resolve_eq w.db now id
    show (touchLastUsed (resolve w.db now id).2 now id).userConsent = w.db.userConsent
    rw [heq]
    unfold touchLastUsed
    split
    · rfl
    · split
      · rfl
      · rfl

private theorem sameHistory_refuse {id : SessionId} :
    SameHistory w { w with db := (resolve w.db now id).2 } where
  handedOut := rfl
  approved := rfl
  userConsent := by
    obtain ⟨sessions, log, -, heq⟩ := resolve_eq w.db now id
    show (resolve w.db now id).2.userConsent = w.db.userConsent
    rw [heq]

/-- What a step does to the cookies and the grants: nothing, or it hands out one
cookie, or it writes or revokes one grant. -/
private inductive HistoryStep (P : Primitives) (K : ConsentCodec) (key : MasterKey)
    (w : AuthorizeWorld) : AuthorizeEvent → AuthorizeWorld × AuthorizeAnswer → Prop
  | same {e : AuthorizeEvent} {w' out} (h : SameHistory w w') : HistoryStep P K key w e (w', out)
  | handsOut {r : RequestId} {draw : AuthorizeDraw} {params : AuthorizeParams} {session : SessionId}
      (hcall : w.calls r = some (.consentWanted params session)) :
      HistoryStep P K key w (.next r draw)
        ({ w with handedOut := ⟨session, draw.now, params⟩ :: w.handedOut }.endCall r,
          .consentScreen (ConsentState.sealState P K key session (timestamp draw.now)
            (params.consentRequest K)))
  | grants {e : AuthorizeEvent} {user : UserId} {client grantedScopes now w₁ w' out}
      (hgrant : w.grant user client grantedScopes now = .ok w₁) (h : SameHistory w₁ w') :
      HistoryStep P K key w e (w', out)
  | revokes {e : AuthorizeEvent} {user : UserId} {client w' out}
      (hrevoke : w.revoke user client = .ok w') :
      HistoryStep P K key w e (w', out)

private theorem historyStep_advance (hcall : w.calls r = some call) :
    HistoryStep P K key w (.next r draw) (advance P K key w r draw call) := by
  cases call with
  | consentWanted params session => exact .handsOut hcall
  | attributed params session user authMethods =>
    simp only [advance]
    split
    · rename_i w₁ hgrant
      exact .grants hgrant ⟨rfl, rfl, rfl⟩
    · exact .same ⟨rfl, rfl, rfl⟩
  | permitted params session user authMethods =>
    simp only [advance]
    split
    · rename_i db hinsert
      obtain ⟨authCodes, -, rfl⟩ := AuthCodes.insert_ok hinsert
      exact .same ⟨rfl, rfl, rfl⟩
    · exact .same ⟨rfl, rfl, rfl⟩
  | _ =>
    simp only [advance]
    (repeat' split) <;> exact .same ⟨rfl, rfl, rfl⟩

private theorem historyStep (w : AuthorizeWorld) (e : AuthorizeEvent) :
    HistoryStep P K key w e (authorizeStep P K key w e) := by
  cases e with
  | authorize request query cookie =>
    simp only [authorizeStep]
    (repeat' split) <;> exact .same ⟨rfl, rfl, rfl⟩
  | consentPost request submission now =>
    simp only [authorizeStep]
    split
    · exact .same (.refl w)
    · split
      · exact .same (.refl w)
      · rename_i session hsession
        split
        · rename_i user db hresolve
          have hdb : db = (resolve w.db now session).2 := by rw [hresolve]
          subst hdb
          exact .same (sameHistory_answer _ _)
        · rename_i error db hresolve
          have hdb : db = (resolve w.db now session).2 := by rw [hresolve]
          subst hdb
          exact .same sameHistory_refuse
  | next request draw =>
    simp only [authorizeStep]
    split
    · exact .same (.refl w)
    · rename_i call hcall
      exact historyStep_advance hcall
  | grantConsent user client grantedScopes now =>
    simp only [authorizeStep]
    split
    · rename_i w' hgrant
      exact .grants hgrant (.refl w')
    · exact .same (.refl w)
  | revokeConsent user client =>
    simp only [authorizeStep]
    split
    · rename_i w' hrevoke
      exact .revokes hrevoke
    · exact .same (.refl w)
  | elsewhere db => exact .same ⟨rfl, rfl, rfl⟩

private theorem handedOut_grant {grantedScopes : String}
    (h : w.grant user client grantedScopes now = .ok w') :
    w'.handedOut = w.handedOut := by
  simp only [AuthorizeWorld.grant, map_eq_ok] at h
  obtain ⟨_, -, rfl⟩ := h
  rfl

private theorem handedOut_revoke (h : w.revoke user client = .ok w') :
    w'.handedOut = w.handedOut := by
  simp only [AuthorizeWorld.revoke, map_eq_ok] at h
  obtain ⟨_, -, rfl⟩ := h
  rfl

/-- A cookie after a step was out before, or the step handed it out. -/
private theorem handedOut_of_step (hmem : h ∈ (authorizeStep P K key w e).1.handedOut) :
    h ∈ w.handedOut ∨ ∃ r draw, e = .next r draw ∧ draw.now = h.sealedAt ∧
      w.calls r = some (.consentWanted h.params h.session) ∧
      (authorizeStep P K key w e).2 = .consentScreen (ConsentState.sealState P K key h.session
        (timestamp h.sealedAt) (h.params.consentRequest K)) := by
  have hstep := @historyStep P K key w e
  generalize authorizeStep P K key w e = next at hstep hmem ⊢
  cases hstep with
  | same hsame => exact .inl (hsame.handedOut ▸ hmem)
  | @handsOut r draw params session hcall =>
    rcases List.mem_cons.mp hmem with rfl | hmem
    · exact .inr ⟨r, draw, rfl, rfl, hcall, rfl⟩
    · exact .inl hmem
  | grants hgrant hsame => exact .inl (handedOut_grant hgrant ▸ hsame.handedOut ▸ hmem)
  | revokes hrevoke => exact .inl (handedOut_revoke hrevoke ▸ hmem)

/-- The history of grants is what the table holds. -/
private def GrantsRecorded (w : AuthorizeWorld) : Prop :=
  ∀ pair, w.approved pair = (w.db.userConsent.get? pair).map (·.grantedScopes)

private theorem SameHistory.grantsRecorded (h : SameHistory w w') (hw : GrantsRecorded w) :
    GrantsRecorded w' := by
  intro pair
  rw [h.approved, h.userConsent]
  exact hw pair

private theorem grantsRecorded_grant {grantedScopes : String} (hw : GrantsRecorded w)
    (h : w.grant user client grantedScopes now = .ok w') : GrantsRecorded w' := by
  simp only [AuthorizeWorld.grant, map_eq_ok] at h
  obtain ⟨⟨u, db'⟩, hgrant, rfl⟩ := h
  obtain ⟨event, db₁, log, hbody, rfl⟩ := classA_eq_ok hgrant
  simp only [bind_eq_ok, ensure_eq_ok, pure_eq_ok, Prod.mk.injEq] at hbody
  obtain ⟨-, -, -, -, -, -, rfl⟩ := hbody
  intro pair
  show Function.update w.approved (user, client) (some grantedScopes) pair =
    ((w.db.userConsent.upsert ⟨user, client, grantedScopes, now⟩).get? pair).map _
  rw [Table.get?_upsert]
  by_cases hpair : pair = (user, client)
  · subst hpair
    simp [UserConsentRow.key]
  · rw [Function.update_of_ne hpair, if_neg fun h => hpair h.symm]
    exact hw pair

private theorem grantsRecorded_revoke (hw : GrantsRecorded w) (h : w.revoke user client = .ok w') :
    GrantsRecorded w' := by
  simp only [AuthorizeWorld.revoke, map_eq_ok] at h
  obtain ⟨⟨u, db'⟩, hrevoke, rfl⟩ := h
  obtain ⟨event, db₁, log, hbody, rfl⟩ := classA_eq_ok hrevoke
  simp only [revokeWithTokens, bind_eq_ok, ensure_eq_ok, pure_eq_ok, Prod.mk.injEq] at hbody
  obtain ⟨db₂, ⟨-, -, rfl⟩, -, -, rfl⟩ := hbody
  intro pair
  show Function.update w.approved (user, client) none pair =
    ((w.db.userConsent.delete fun r => r.userId == user && r.clientId == client).get? pair).map _
  rw [Table.get?_delete]
  cases hget : w.db.userConsent.get? pair with
  | none =>
    have hold : w.approved pair = none := by
      rw [hw pair, hget]
      rfl
    by_cases hpair : pair = (user, client)
    · subst hpair
      simp
    · simp [Function.update_of_ne hpair, hold]
  | some row =>
    have hkey : (row.userId, row.clientId) = pair := (Table.get?_eq_some.mp hget).2
    have hold : w.approved pair = some row.grantedScopes := by
      rw [hw pair, hget]
      rfl
    subst hkey
    by_cases hpair : (row.userId, row.clientId) = (user, client)
    · have hthis : (row.userId == user && row.clientId == client) = true := by
        simpa using hpair
      rw [hpair, Function.update_self, Option.filter_some_neg (by simp [hthis])]
      rfl
    · have hother : (row.userId == user && row.clientId == client) = false := by
        simpa using hpair
      rw [Function.update_of_ne hpair, hold, Option.filter_some_pos (by simp [hother])]
      rfl

private theorem grantsRecorded_step (hw : GrantsRecorded w) :
    GrantsRecorded (authorizeStep P K key w e).1 := by
  have hstep := @historyStep P K key w e
  generalize authorizeStep P K key w e = next at hstep ⊢
  cases hstep with
  | same hsame => exact hsame.grantsRecorded hw
  | handsOut hcall => exact hw
  | grants hgrant hsame => exact hsame.grantsRecorded (grantsRecorded_grant hw hgrant)
  | revokes hrevoke => exact grantsRecorded_revoke hw hrevoke

/-- A step keeps the provenance. -/
theorem provenance_step (hK : K.Lawful) (past : List AuthorizeTaken) (w : AuthorizeWorld)
    (e : AuthorizeEvent) (hpast : Provenance P K key past w) (hunforged : Unforged K key w e) :
    Provenance P K key (past ++ [⟨w, e, (authorizeStep P K key w e).2⟩])
      (authorizeStep P K key w e).1 where
  calls r call hcall := by
    rcases became_of_step hcall with hcall | hbecame
    · exact (hpast.calls r call hcall).append
    · exact origin_of_became hK hpast hunforged hbecame _
  handedOut h hmem := by
    rcases handedOut_of_step hmem with hmem | ⟨r, draw, rfl, hnow, hcall, hout⟩
    · exact (hpast.handedOut h hmem).append
    · obtain ⟨user, hrequested⟩ : Origin P K key past r _ := hpast.calls r _ hcall
      exact ⟨r, draw, user, ⟨⟨w, .next r draw, _⟩,
        List.mem_append_right past (List.mem_singleton.mpr rfl), rfl, hnow, hcall, hout⟩,
        hrequested.append⟩
  approved := grantsRecorded_step hpast.approved

/-! ## Codes -/

/-- The code is for these values. -/
def AuthorizationCodeRow.carries (row : AuthorizationCodeRow) (params : AuthorizeParams) : Prop :=
  row.clientId = params.clientId ∧ row.redirectUri = params.redirectUri ∧
    row.scope = params.scope ∧ row.nonce = params.nonce ∧
    row.codeChallenge = params.codeChallenge ∧
    row.codeChallengeMethod = params.codeChallengeMethod

/-- Every code was asked for, and permitted by the client's policy, by a grant of its
user, or by an answer of that user's session to the screen the session was shown. -/
theorem consent_gate {P : Primitives} {K : ConsentCodec} {key : MasterKey} (hK : K.Lawful)
    (db : Database) (es : List AuthorizeEvent)
    (hunforged : Machine.Guarded (authorizeStep P K key) (Unforged K key) (.start db) es)
    {past rest : List AuthorizeTaken} {x : AuthorizeTaken} {row : AuthorizationCodeRow}
    (htrace : authorizeTrace P K key (.start db) es = past ++ x :: rest)
    (hissued : x.out = .issued row) :
    ∃ r draw params session, x.event = .next r draw ∧ row.carries params ∧
      Permitted P K key WithinLifetime past r params session row.userId := by
  have hstart : Provenance P K key [] (.start db) := by
    refine ⟨?_, ?_, fun pair => rfl⟩
    · intro r call hcall
      cases hcall
    · intro h hmem
      cases hmem
  obtain ⟨hpast, -, hout⟩ :=
    Machine.trace_history (provenance_step hK) hunforged hstart htrace
  rw [hout] at hissued
  obtain ⟨r, draw, params, session, user, authMethods, hevent, hcall, rfl⟩ :=
    issued_of_step hissued
  have hpermitted : Permitted P K key WithinLifetime past r params session user :=
    hpast.calls r _ hcall
  exact ⟨r, draw, params, session, hevent, ⟨rfl, rfl, rfl, rfl, rfl, rfl⟩, hpermitted⟩

section Witness

/-- The cookie that request 1 is shown the consent screen with, at time 0. -/
def screenCookie : String :=
  ConsentState.sealState Primitives.transparent ConsentCodec.transparent (.constant 7) 10 0
    ((codeQuery.params 5).consentRequest ConsentCodec.transparent)

def approval : ConsentSubmission :=
  { sessionCookie := some (ConsentCodec.unaryId 10), csrfCookie := some "token"
    stateCookie := some screenCookie, csrf := "token", decision := "approve" }

/-- Request 1 is shown the screen at time 0, and request 2 approves it at `now`. -/
def approvalRun (now : DateTime) : List AuthorizeEvent :=
  codeRun 0 ++
    (.consentPost 2 approval now :: List.replicate 5 (.next 2 ⟨now, "code"⟩) : List AuthorizeEvent)

def approvalTrace (now : DateTime) : List AuthorizeTaken :=
  authorizeTrace Primitives.transparent ConsentCodec.transparent (.constant 7)
    (.start (authorizeDb (plainUser 1 "alice" .user) .always)) (approvalRun now)

/-- The code of the approval. -/
def approvedRow (now : DateTime) : AuthorizationCodeRow :=
  authorizationCode Primitives.transparent ⟨now, "code"⟩ 1 [.pwd] (codeQuery.params 5)

/-- The code of an answer. -/
private def issuedCode : AuthorizeAnswer → Option AuthorizationCodeRow
  | .issued row => some row
  | _ => none

private theorem eq_issued {out : AuthorizeAnswer} {row : AuthorizationCodeRow}
    (h : issuedCode out = some row) : out = .issued row := by
  cases out with
  | issued row' => exact congrArg AuthorizeAnswer.issued (Option.some.inj h)
  | _ => cases h

private theorem approvalTrace_eq (now : DateTime) (h : approvalTrace now ≠ []) :
    approvalTrace now = (approvalTrace now).dropLast ++ (approvalTrace now).getLast h :: [] :=
  (List.dropLast_append_getLast h).symm

/-- An answer after 300 seconds. -/
theorem consent_gate_approvalRun :
    ∃ past x, approvalTrace (seconds 300) = past ++ [x] ∧
      x.out = .issued (approvedRow (seconds 300)) ∧
      ∃ r draw params session, x.event = .next r draw ∧
        (approvedRow (seconds 300)).carries params ∧
        Permitted Primitives.transparent ConsentCodec.transparent (.constant 7) WithinLifetime past
          r params session 1 := by
  have hsplit := approvalTrace_eq (seconds 300) (List.cons_ne_nil _ _)
  have hissued : ((approvalTrace (seconds 300)).getLast (List.cons_ne_nil _ _)).out =
      .issued (approvedRow (seconds 300)) := eq_issued (by decide +kernel)
  exact ⟨_, _, hsplit, hissued, consent_gate ConsentCodec.transparent_lawful _
    (approvalRun (seconds 300)) (by decide +kernel) hsplit hissued⟩

/-- Nine tenths of a second later than 300 seconds. -/
def lateAnswer : DateTime := seconds 300 + 900000000

/-- The step does not permit request 2 anything: no screen is shown after time 0, no
answer is read before `lateAnswer`, and the client always asks. -/
private def permitsNothing (z : AuthorizeTaken) : Bool :=
  match z.event with
  | .next r draw =>
    match z.pre.calls r with
    | some (.accepted params ..) =>
      (z.pre.db.clients.get? params.clientId).all (·.consentPolicy == .always)
    | some (.consentWanted ..) => draw.now == 0
    | some (.answering ..) => draw.now == lateAnswer
    | _ => true
  | _ => true

private theorem not_policyRead {z : AuthorizeTaken} (hz : permitsNothing z = true)
    {policy : ConsentPolicy} (hpolicy : policy ≠ .always) :
    ¬ PolicyRead z r params session user policy := by
  rintro ⟨draw, authMethods, client, hevent, hcall, hclient, rfl⟩
  simp only [permitsNothing, hevent, hcall, hclient, Option.all_some, beq_iff_eq] at hz
  exact hpolicy hz

/-- Then the code is issued although the cookie was sealed more than 300 seconds
before. -/
theorem late_answer_gets_code :
    Machine.Guarded (authorizeStep Primitives.transparent ConsentCodec.transparent (.constant 7))
      (Unforged ConsentCodec.transparent (.constant 7))
      (.start (authorizeDb (plainUser 1 "alice" .user) .always)) (approvalRun lateAnswer) ∧
    ∃ past x, approvalTrace lateAnswer = past ++ [x] ∧
      x.out = .issued (approvedRow lateAnswer) ∧
      ¬ ∃ r draw params session, x.event = .next r draw ∧
        (approvedRow lateAnswer).carries params ∧
        Permitted Primitives.transparent ConsentCodec.transparent (.constant 7)
          (fun sealedAt answeredAt => answeredAt - sealedAt ≤ seconds 300) past r params session
          1 := by
  have hnothing : ∀ z ∈ (approvalTrace lateAnswer).dropLast, permitsNothing z = true := by
    decide +kernel
  refine ⟨by decide +kernel, _, _, approvalTrace_eq lateAnswer (List.cons_ne_nil _ _),
    eq_issued (by decide +kernel), ?_⟩
  rintro ⟨r, draw, params, session, -, -, happroved | ⟨-, ⟨z, hz, hpolicy⟩ | ⟨⟨z, hz, hpolicy⟩, -⟩⟩⟩
  · obtain ⟨before, z, after, hpast, draw, submission, value, h, hevent, hcall, -, -, -, -,
      ⟨r', draw', _, ⟨y, hy, hevent', hnow, hcall', -⟩, -⟩, -, -, hlate⟩ := happroved
    have hz : permitsNothing z = true := hnothing z (by rw [hpast]; simp)
    have hy : permitsNothing y = true := hnothing y (by rw [hpast]; simp [hy])
    simp only [permitsNothing, hevent, hcall, beq_iff_eq] at hz
    simp only [permitsNothing, hevent', hcall', beq_iff_eq] at hy
    rw [hz, ← hnow, hy] at hlate
    exact absurd hlate (by decide)
  · exact not_policyRead (hnothing z hz) (by decide) hpolicy
  · exact not_policyRead (hnothing z hz) (by decide) hpolicy

end Witness

end SuiId
