import SuiId.Core.Endpoint

/-!
# What one event can do

Three inversion lemmas.  `DbStep` lists the ways the database and the history
of refresh tokens change in one `worldStep`, with the guard under which each of
them happens; `Effect` is the same for a single command; `Progress` lists what
a call can carry that it did not carry before.  Everything later is a case
analysis on these, never on `worldStep` itself.
-/

namespace SuiId

open Lib Lib.Result

variable {P : Primitives} {ctx : IssuanceContext}

/-- The database and the history after one event. -/
inductive DbStep (P : Primitives) (ctx : IssuanceContext) (w : World) :
    Event → Database → List Issued → Prop where
  | same {e} : DbStep P ctx w e w.db w.issued
  | consumed {call now req} (hcall : w.calls call = some (.codeChecked req)) :
      DbStep P ctx w (.codeConsume call now) (consumeCode P w.db req now).2 w.issued
  | issued {call} {draw : TokenDraw} {req : CodeExchangeRequest} {grant : IssuableGrant}
      {jwt tokens db'} (hcall : w.calls call = some (.codeSigned req grant jwt))
      (hissue : issueFor P w.db ctx draw req.clientId grant jwt = .ok (tokens, db')) :
      DbStep P ctx w (.codeIssue call draw) db'
        (w.issued ++ [⟨(freshRow draw ctx.lifetimes grant.userId req.clientId grant.row.scope
          grant.row.authMethods draw.id).binding, P.sha256 draw.rawToken⟩])
  | rotated {call draw req} {row successor : RefreshTokenRow} {jwt rawToken db'}
      (hcall : w.calls call = some (.refreshSigned req row jwt))
      (hrotate : rotateWith P w.db ctx draw req row = .ok (.rotated successor rawToken, db')) :
      DbStep P ctx w (.refreshRotate call draw) db'
        (w.issued ++ [⟨successor.binding, P.sha256 rawToken⟩])
  | theft {call draw req row jwt n db'} (hcall : w.calls call = some (.refreshSigned req row jwt))
      (hrotate : rotateWith P w.db ctx draw req row = .ok (.theftDetected n, db')) :
      DbStep P ctx w (.refreshRotate call draw) db' w.issued
  | pendingRead {call pending now} :
      DbStep P ctx w (.mfaBegin call pending now) (readPending w.db pending now).2 w.issued
  | finished
      {call key nonce codeInput checkedAt sessionId maxLockoutSecs now pending totpRow proof method}
      (hcall : w.calls call = some (.mfaTotp pending totpRow)) :
      DbStep P ctx w
        (.mfaFinish call key nonce codeInput checkedAt sessionId maxLockoutSecs now)
        (finishPending w.db pending proof method sessionId maxLockoutSecs now).2 w.issued
  | rooted {draw : TokenDraw} {user client scope authMethods prepared db'}
      (hprepare : prepareDrawn P draw
        (freshRow draw ctx.lifetimes user client scope authMethods draw.id) = .ok prepared)
      (hinsert : RefreshTokens.insertPrepared w.db prepared = .ok db') :
      DbStep P ctx w (.insertInitial draw user client scope authMethods) db'
        (w.issued ++ [⟨(freshRow draw ctx.lifetimes user client scope authMethods
          draw.id).binding, P.sha256 draw.rawToken⟩])
  | codeInserted {row db'} (hinsert : AuthCodes.insert w.db row = .ok db') :
      DbStep P ctx w (.completeAuthorization row) db' w.issued
  | backfilled {key entry} (hentry : entry ∈ w.backfill) :
      DbStep P ctx w (.backfillWrite key) (RefreshTokens.backfillWrite P key w.db entry) w.issued
  | resolved {session now} :
      DbStep P ctx w (.resolve session now) (resolve w.db now session).2 w.issued
  | committed {command : Command} {db'} (hperform : command.perform P w.db = .ok db') :
      DbStep P ctx w (.command command) db' w.issued

/-- What a committed command did to the database. -/
inductive Effect (P : Primitives) (db : Database) : Command → Database → Prop where
  | revoke {id now} :
      Effect P db (.revoke id now) (RefreshTokens.revoke db id now)
  | revokeFamily {family now} :
      Effect P db (.revokeFamily family now) (RefreshTokens.revokeFamily db family now)
  | revokeAllForUser {user now} :
      Effect P db (.revokeAllForUser user now) (RefreshTokens.revokeAllForUser db user now)
  | revokeAllForClient {client now} :
      Effect P db (.revokeAllForClient client now) (RefreshTokens.revokeAllForClient db client now)
  | purgeExpired {now} :
      Effect P db (.purgeExpired now) (RefreshTokens.purgeExpired db now)
  | purgeCodes {now} : Effect P db (.purgeCodes now) (AuthCodes.purgeExpired db now)
  | resealAll {oldKey newKey nonce refreshTokens} (hrows : db.refreshTokens.forRows
        (fun r => do
          let plain ← openBytes P oldKey r.tokenEnc RefreshTokens.aad
          sealBytes P newKey (nonce r.id) plain RefreshTokens.aad)
        (fun resealed r => { r with tokenEnc := resealed }) = .ok refreshTokens) :
      Effect P db (.resealAll oldKey newKey nonce) { db with refreshTokens }
  | disableUser {admin session target reason now log} :
      Effect P db (.disableUser admin session target reason now)
        { sweepUser db target now with
          users := db.users.update (fun u => u.id == target && true)
            fun u => { u with isDisabled := true }
          auditLog := log }
  | enableUser {admin session target now log} :
      Effect P db (.enableUser admin session target now)
        { db with
          users := db.users.update (fun u => u.id == target && true)
            fun u => { u with isDisabled := false }
          auditLog := log }
  | deleteUser {admin session target reason now log} :
      Effect P db (.deleteUser admin session target reason now)
        { sweepUser db target now with
          users := db.users.update (fun u => u.id == target && true)
            fun u => { u with isDeleted := true, isDisabled := true }
          auditLog := log }
  | resetPassword
      {user token credential consumedAt hibpWarned users passwordResetTokens credentials log}
      (hflags : Users.FlagsKept db.users users) :
      Effect P db (.resetPassword user token credential consumedAt hibpWarned)
        { db with
          passwordResetTokens, credentials, users
          sessions := (Sessions.revokeAllForUser db user consumedAt).sessions
          refreshTokens := (RefreshTokens.revokeAllForUser db user consumedAt).refreshTokens
          auditLog := log }
  | revokeConsent {user client userConsent log} :
      Effect P db (.revokeConsent user client)
        { db with
          refreshTokens := db.refreshTokens.delete fun r => r.userId == user && r.clientId == client
          userConsent, auditLog := log }
  | grantConsent {user client grantedScopes now userConsent log} :
      Effect P db (.grantConsent user client grantedScopes now)
        { db with userConsent, auditLog := log }
  | disableClient {admin target reason now log} :
      Effect P db (.disableClient admin target reason now)
        { RefreshTokens.revokeAllForClient db target now with
          clients := db.clients.update (fun c => c.id == target)
            fun c => { c with isDisabled := true }
          auditLog := log }
  | enableClient {admin target log} :
      Effect P db (.enableClient admin target)
        { db with
          clients := db.clients.update (fun c => c.id == target)
            fun c => { c with isDisabled := false }
          auditLog := log }
  | deleteClient {admin target reason now log} (hclient : (db.clients.get? target).isSome = true) :
      Effect P db (.deleteClient admin target reason now)
        { RefreshTokens.revokeAllForClient db target now with
          clients := db.clients.update (fun c => c.id == target)
            fun c => { c with isDeleted := true, isDisabled := true }
          auditLog := log }
  | issuePendingMfa {row loginPendingMfa}
      (hinsert : db.loginPendingMfa.insert? row = some loginPendingMfa) :
      Effect P db (.issuePendingMfa row) { db with loginPendingMfa }

variable {db' : Database} {e : Event} {draw : TokenDraw} {c : CallId} {x : Call}

theorem perform_effect {db : Database} {command : Command} (h : command.perform P db = .ok db') :
    Effect P db command db' := by
  cases command with
  | revoke id now => cases h; exact .revoke
  | revokeFamily family now => cases h; exact .revokeFamily
  | revokeAllForUser user now => cases h; exact .revokeAllForUser
  | revokeAllForClient client now => cases h; exact .revokeAllForClient
  | purgeExpired now => cases h; exact .purgeExpired
  | purgeCodes now => cases h; exact .purgeCodes
  | resealAll oldKey newKey nonce =>
    simp only [Command.perform, RefreshTokens.resealAll, bind_eq_ok, pure_eq_ok] at h
    obtain ⟨refreshTokens, hrows, rfl⟩ := h
    exact .resealAll hrows
  | disableUser admin session target reason now =>
    obtain ⟨⟨_, _⟩, hcommit, rfl⟩ := map_eq_ok.mp h
    obtain ⟨db₁, log, hset, rfl⟩ := disableUser_ok hcommit
    obtain ⟨-, rfl⟩ := Users.updateWhere_ok hset
    exact .disableUser
  | enableUser admin session target now =>
    obtain ⟨⟨_, _⟩, hcommit, rfl⟩ := map_eq_ok.mp h
    obtain ⟨db₁, log, hset, rfl⟩ := enableUser_ok hcommit
    obtain ⟨-, rfl⟩ := Users.updateWhere_ok hset
    exact .enableUser
  | deleteUser admin session target reason now =>
    obtain ⟨⟨_, _⟩, hcommit, rfl⟩ := map_eq_ok.mp h
    obtain ⟨db₁, log, hset, rfl⟩ := deleteUser_ok hcommit
    obtain ⟨-, rfl⟩ := Users.updateWhere_ok hset
    exact .deleteUser
  | resetPassword user token credential consumedAt hibpWarned =>
    obtain ⟨⟨_, _⟩, hcommit, rfl⟩ := map_eq_ok.mp h
    obtain ⟨resets, log, keepLock, rfl⟩ := consumeAndResetPassword_ok hcommit
    refine .resetPassword ?_
    exact Users.flagsKept_update fun _ => ⟨rfl, rfl⟩
  | revokeConsent user client =>
    obtain ⟨⟨_, _⟩, hcommit, rfl⟩ := map_eq_ok.mp h
    obtain ⟨userConsent, log, rfl⟩ := revokeConsent_ok hcommit
    exact .revokeConsent
  | grantConsent user client scopes now =>
    obtain ⟨⟨_, _⟩, hcommit, rfl⟩ := map_eq_ok.mp h
    obtain ⟨userConsent, log, rfl⟩ := grantConsent_ok hcommit
    exact .grantConsent
  | disableClient admin target reason now =>
    obtain ⟨⟨_, _⟩, hcommit, rfl⟩ := map_eq_ok.mp h
    obtain ⟨log, rfl⟩ := disableClient_ok hcommit
    exact .disableClient
  | enableClient admin target =>
    obtain ⟨⟨_, _⟩, hcommit, rfl⟩ := map_eq_ok.mp h
    obtain ⟨log, rfl⟩ := enableClient_ok hcommit
    exact .enableClient
  | deleteClient admin target reason now =>
    obtain ⟨⟨_, _⟩, hcommit, rfl⟩ := map_eq_ok.mp h
    obtain ⟨hclient, log, rfl⟩ := deleteClient_ok hcommit
    exact .deleteClient hclient
  | issuePendingMfa row =>
    simp only [Command.perform, LoginPendingMfa.insert, bind_eq_ok, ensure_eq_ok, require_eq_ok,
      pure_eq_ok] at h
    obtain ⟨-, -, loginPendingMfa, hinsert, rfl⟩ := h
    exact .issuePendingMfa hinsert

/-- What a call carries after its step. -/
inductive Progress (P : Primitives) (w : World) : Event → Call → Prop where
  | codeChecked {call} {req : CodeExchangeRequest} {client} (hfree : w.calls call = none)
      (hcheck : checkClient P w.db req.clientId req.clientSecret req.clientSecretChannel =
        .ok client) :
      Progress P w (.codeBegin call req) (.codeChecked req)
  | codeVerified {call now req row} (hcall : w.calls call = some (.codeChecked req))
      (hconsume : (consumeCode P w.db req now).1 = .ok row) :
      Progress P w (.codeConsume call now) (.codeVerified req row)
  | codeIssuable {call req row grant} (hcall : w.calls call = some (.codeVerified req row))
      (hresolve : resolveUser w.db row = .ok grant) :
      Progress P w (.codeResolveUser call) (.codeIssuable req grant)
  | codeSigned {call draw req grant jwt} (hcall : w.calls call = some (.codeIssuable req grant)) :
      Progress P w (.codeSign call draw) (.codeSigned req grant jwt)
  | refreshChecked {call req client} (hfree : w.calls call = none) :
      Progress P w (.refreshBegin call req) (.refreshChecked req client)
  | refreshMissed {call req client} (hcall : w.calls call = some (.refreshChecked req client)) :
      Progress P w (.refreshFindByHash call) (.refreshMissed req client)
  | refreshFoundByHash {call} {req : RefreshExchangeRequest} {client row}
      (hcall : w.calls call = some (.refreshChecked req client))
      (hfind : RefreshTokens.findAnyByHash P w.db req.refreshToken = some row) :
      Progress P w (.refreshFindByHash call) (.refreshFound req client row)
  | refreshFoundByScan {call key} {req : RefreshExchangeRequest} {client row}
      (hcall : w.calls call = some (.refreshMissed req client))
      (hfind : RefreshTokens.findAnyByScan P key w.db req.refreshToken = some row) :
      Progress P w (.refreshFindByScan call key) (.refreshFound req client row)
  | refreshPermitted {call req client row email}
      (hcall : w.calls call = some (.refreshFound req client row)) :
      Progress P w (.refreshPermit call) (.refreshPermitted req row email)
  | refreshSigned {call draw req row email jwt}
      (hcall : w.calls call = some (.refreshPermitted req row email)) :
      Progress P w (.refreshSign call draw) (.refreshSigned req row jwt)
  | mfaRead {call id now pending} :
      Progress P w (.mfaBegin call id now) (.mfaRead pending)
  | mfaTotp {call pending totpRow} :
      Progress P w (.mfaReadTotp call) (.mfaTotp pending totpRow)

/-! ## The helpers of `worldStep` -/

namespace World

variable {α : Type} (w : World) (call : CallId) (result : CoreResult α) (next : α → Call)

@[simp] theorem goOnWith_db : (w.goOnWith call result next).1.db = w.db := by
  cases result <;> rfl

@[simp] theorem goOnWith_issued : (w.goOnWith call result next).1.issued = w.issued := by
  cases result <;> rfl

@[simp] theorem goOnWith_codes : (w.goOnWith call result next).1.codes = w.codes := by
  cases result <;> rfl

@[simp] theorem goOnWith_presented :
    (w.goOnWith call result next).1.presented = w.presented := by
  cases result <;> rfl

@[simp] theorem goOnWith_backfill : (w.goOnWith call result next).1.backfill = w.backfill := by
  cases result <;> rfl

@[simp] theorem goOnWith_ne_rotation {outcome : StoreResult RefreshTokens.T04Outcome}
    {tokens : CoreResult TokenSet} :
    (w.goOnWith call result next).2 ≠ .rotation outcome tokens := by
  cases result <;> simp [goOnWith]

@[simp] theorem goOnWith_ne_issued {tokens : TokenSet} :
    (w.goOnWith call result next).2 ≠ .issued tokens := by
  cases result <;> simp [goOnWith]

@[simp] theorem goOnWith_ne_signedIn {session : CoreResult SessionRow} :
    (w.goOnWith call result next).2 ≠ .signedIn session := by
  cases result <;> simp [goOnWith]

variable {w call result next}

theorem goOn_calls {c : CallId} {x y : Call} (h : (w.goOn call y).calls c = some x) :
    w.calls c = some x ∨ x = y := by
  have h : Function.update w.calls call (some y) c = some x := h
  by_cases hc : c = call
  · rw [hc, Function.update_self] at h
    exact .inr (Option.some.inj h).symm
  · rw [Function.update_of_ne hc] at h
    exact .inl h

theorem endCall_calls {c : CallId} {x : Call} (h : (w.endCall call).calls c = some x) :
    w.calls c = some x := by
  have h : Function.update w.calls call none c = some x := h
  by_cases hc : c = call
  · rw [hc, Function.update_self] at h
    cases h
  · rw [Function.update_of_ne hc] at h
    exact h

theorem goOnWith_calls {c : CallId} {x : Call}
    (h : (w.goOnWith call result next).1.calls c = some x) :
    w.calls c = some x ∨ ∃ a, result = .ok a ∧ x = next a := by
  cases result with
  | error e => exact .inl (endCall_calls h)
  | ok a =>
    rcases goOn_calls h with h | h
    · exact .inl h
    · exact .inr ⟨a, rfl, h⟩

end World

/-! ## Inversion -/

theorem insertInitialStep_db (w : World) (draw : TokenDraw) (user : UserId) (client : ClientId)
    (scope : String) (authMethods : List AuthMethod) :
    DbStep P ctx w (.insertInitial draw user client scope authMethods)
      (insertInitialStep P ctx w draw user client scope authMethods).1.db
      (insertInitialStep P ctx w draw user client scope authMethods).1.issued := by
  simp only [insertInitialStep]
  split
  · rename_i db' hdo
    obtain ⟨prepared, hprepare, hinsert⟩ := bind_eq_ok.mp hdo
    exact .rooted hprepare hinsert
  · exact .same

theorem worldStep_db (w : World) (e : Event) :
    DbStep P ctx w e (worldStep P ctx w e).1.db (worldStep P ctx w e).1.issued := by
  cases e with
  | insertInitial draw user client scope authMethods =>
    exact insertInitialStep_db w draw user client scope authMethods
  | codeBegin | codeResolveUser | codeSign | refreshBegin | refreshPermit | refreshSign
  | mfaReadTotp =>
    simp only [worldStep]
    split
    · simpa using DbStep.same
    · exact .same
  | codeConsume call now =>
    simp only [worldStep]
    split
    · rename_i hcall
      simpa using DbStep.consumed hcall
    · exact .same
  | codeIssue call draw =>
    simp only [worldStep]
    split
    · rename_i req grant jwt hcall
      simp only [issueStep]
      split
      · rename_i tokens db' hissue
        exact .issued hcall hissue
      · exact .same
    · exact .same
  | refreshFindByHash | refreshFindByScan =>
    simp only [worldStep]
    split
    · split
      · exact .same
      · exact .same
    · exact .same
  | refreshRotate call draw =>
    simp only [worldStep]
    split
    · rename_i hcall
      simp only [rotateStep]
      split
      · rename_i hrotate
        exact .rotated hcall hrotate
      · rename_i hrotate
        exact .theft hcall hrotate
      · exact .same
    · exact .same
  | mfaBegin call pending now =>
    simp only [worldStep]
    split
    · simpa using DbStep.pendingRead
    · exact .same
  | mfaFinish call key nonce codeInput checkedAt sessionId maxLockoutSecs now =>
    simp only [worldStep]
    split
    · rename_i hcall
      simp only [finishStep]
      split
      · exact .finished hcall
      · exact .same
    · exact .same
  | completeAuthorization row =>
    simp only [worldStep]
    split
    · rename_i hinsert
      exact .codeInserted hinsert
    · exact .same
  | backfillRead => exact .same
  | backfillWrite key =>
    simp only [worldStep]
    split
    · rename_i entry rest hentry
      exact .backfilled (by rw [hentry]; exact List.mem_cons_self)
    · exact .same
  | resolve session now => exact .resolved
  | command command =>
    simp only [worldStep]
    split
    · rename_i hperform
      exact .committed hperform
    · exact .same

/-- What every event but a command leaves alone. -/
structure Frame (w : World) (e : Event) (db' : Database) : Prop where
  clients : db'.clients = w.db.clients
  users : Users.FlagsKept w.db.users db'.users
  sessions : Sessions.RevokedKept w.db.sessions db'.sessions
  codes : ∀ r' ∈ db'.authCodes,
    (∃ r ∈ w.db.authCodes, r' = r ∨ r' = { r with consumed := true }) ∨
      e = .completeAuthorization r'
  pending : LoginPendingMfa.NoneAdded w.db.loginPendingMfa db'.loginPendingMfa
  signingKeys : db'.signingKeys = w.db.signingKeys

/-- An event that writes none of the framed tables. -/
private theorem frame_of_eq {w : World} (hclients : db'.clients = w.db.clients)
    (husers : db'.users = w.db.users) (hsessions : db'.sessions = w.db.sessions)
    (hcodes : db'.authCodes = w.db.authCodes)
    (hpending : db'.loginPendingMfa = w.db.loginPendingMfa)
    (hkeys : db'.signingKeys = w.db.signingKeys) : Frame w e db' where
  clients := hclients
  users := husers ▸ .refl _
  sessions := hsessions ▸ .refl _
  codes r' hr' := .inl (AuthCodes.Marked.refl _ r' (hcodes ▸ hr'))
  pending _ hr := hpending ▸ hr
  signingKeys := hkeys

variable {req : RefreshExchangeRequest} {row : RefreshTokenRow} {jwt : JwtPair} {hash : Bytes}

private theorem frame_of_rotation {w : World} {outcome : RefreshTokens.T04Outcome}
    (h : rotateWith P w.db ctx draw req row = .ok (outcome, db')) : Frame w e db' := by
  obtain ⟨prepared, -, hrotate⟩ := rotateWith_ok h
  obtain ⟨old, -, -, ⟨-, -, t', log, -, rfl⟩ | ⟨-, -, log, rfl⟩⟩ :=
    RefreshTokens.rotateRefreshToken_ok hrotate
  · exact frame_of_eq rfl rfl rfl rfl rfl rfl
  · exact frame_of_eq rfl rfl rfl rfl rfl rfl

/-- Every event is a command or keeps the frame. -/
theorem worldStep_frame (w : World) (e : Event) :
    (∃ command, e = .command command ∧ Effect P w.db command (worldStep P ctx w e).1.db) ∨
      Frame w e (worldStep P ctx w e).1.db := by
  generalize hdb : (worldStep P ctx w e).1.db = db'
  generalize hissued : (worldStep P ctx w e).1.issued = issued'
  have hstep : DbStep P ctx w e db' issued' := hdb ▸ hissued ▸ worldStep_db w e
  cases hstep with
  | same => exact .inr (frame_of_eq rfl rfl rfl rfl rfl rfl)
  | consumed hcall =>
    obtain ⟨authCodes, hmarked, heq⟩ := consumeCode_eq P w.db _ _
    rw [heq]
    exact .inr ⟨rfl, .refl _, .refl _, fun r' hr' => .inl (hmarked r' hr'), fun _ hr => hr, rfl⟩
  | issued hcall hissue =>
    obtain ⟨-, prepared, -, hinsert⟩ := issueFor_ok hissue
    obtain ⟨t', -, rfl⟩ := RefreshTokens.insertPrepared_ok hinsert
    exact .inr (frame_of_eq rfl rfl rfl rfl rfl rfl)
  | rooted hprepare hinsert =>
    obtain ⟨t', -, rfl⟩ := RefreshTokens.insertPrepared_ok hinsert
    exact .inr (frame_of_eq rfl rfl rfl rfl rfl rfl)
  | rotated hcall hrotate => exact .inr (frame_of_rotation hrotate)
  | theft hcall hrotate => exact .inr (frame_of_rotation hrotate)
  | pendingRead =>
    obtain ⟨loginPendingMfa, hnone, heq⟩ := readPending_eq w.db _ _
    rw [heq]
    exact .inr ⟨rfl, .refl _, .refl _, fun r' hr' => .inl (AuthCodes.Marked.refl _ r' hr'),
      hnone, rfl⟩
  | finished hcall =>
    obtain ⟨loginPendingMfa, userTotp, users, sessions, log, hnone, hflags, hkept, heq⟩ :=
      finishPending_eq w.db _ _ _ _ _ _
    rw [heq]
    exact .inr ⟨rfl, hflags, hkept, fun r' hr' => .inl (AuthCodes.Marked.refl _ r' hr'), hnone, rfl⟩
  | codeInserted hinsert =>
    obtain ⟨authCodes, htable, rfl⟩ := AuthCodes.insert_ok hinsert
    refine .inr ⟨rfl, .refl _, .refl _, fun r' hr' => ?_, fun _ hr => hr, rfl⟩
    rcases (Table.mem_of_insert? htable).mp hr' with hr' | rfl
    · exact .inl (AuthCodes.Marked.refl _ r' hr')
    · exact .inr rfl
  | @backfilled key entry hentry =>
    obtain ⟨t', heq⟩ := RefreshTokens.backfillWrite_eq P key w.db entry
    rw [heq]
    exact .inr (frame_of_eq rfl rfl rfl rfl rfl rfl)
  | resolved =>
    obtain ⟨sessions, log, hkept, heq⟩ := resolve_eq w.db _ _
    rw [heq]
    exact .inr ⟨rfl, .refl _, hkept, fun r' hr' => .inl (AuthCodes.Marked.refl _ r' hr'),
      fun _ hr => hr, rfl⟩
  | committed hperform => exact .inl ⟨_, rfl, perform_effect hperform⟩

theorem rotateStep_calls {w : World} {call : CallId}
    (h : (rotateStep P ctx w call draw req row jwt).1.calls c = some x) :
    w.calls c = some x := by
  unfold rotateStep at h
  split at h
  · exact World.endCall_calls h
  · exact World.endCall_calls h
  · exact World.endCall_calls h

theorem issueStep_calls {w : World} {call : CallId} {req : CodeExchangeRequest}
    {grant : IssuableGrant} (h : (issueStep P ctx w call draw req grant jwt).1.calls c = some x) :
    w.calls c = some x := by
  unfold issueStep at h
  split at h
  · exact World.endCall_calls h
  · exact World.endCall_calls h

/-- A call after the event is as it was, or has made the step the event names. -/
theorem worldStep_calls {w : World} (h : (worldStep P ctx w e).1.calls c = some x) :
    w.calls c = some x ∨ Progress P w e x := by
  cases e with
  | codeBegin call req =>
    simp only [worldStep] at h
    split at h
    · rename_i hfree
      rcases World.goOnWith_calls h with h | ⟨client, hcheck, rfl⟩
      · exact .inl h
      · exact .inr (.codeChecked hfree hcheck)
    · exact .inl h
  | codeConsume call now =>
    simp only [worldStep] at h
    split at h
    · rename_i hcall
      rcases World.goOnWith_calls h with h | ⟨row, hconsume, rfl⟩
      · exact .inl h
      · exact .inr (.codeVerified hcall hconsume)
    · exact .inl h
  | codeResolveUser call =>
    simp only [worldStep] at h
    split at h
    · rename_i hcall
      rcases World.goOnWith_calls h with h | ⟨grant, hresolve, rfl⟩
      · exact .inl h
      · exact .inr (.codeIssuable hcall hresolve)
    · exact .inl h
  | codeSign call draw =>
    simp only [worldStep] at h
    split at h
    · rename_i hcall
      rcases World.goOnWith_calls h with h | ⟨jwt, -, rfl⟩
      · exact .inl h
      · exact .inr (.codeSigned hcall)
    · exact .inl h
  | codeIssue call draw =>
    simp only [worldStep] at h
    split at h
    · exact .inl (issueStep_calls h)
    · exact .inl h
  | refreshBegin call req =>
    simp only [worldStep] at h
    split at h
    · rename_i hfree
      rcases World.goOnWith_calls h with h | ⟨client, -, rfl⟩
      · exact .inl h
      · exact .inr (.refreshChecked hfree)
    · exact .inl h
  | refreshFindByHash call =>
    simp only [worldStep] at h
    split at h
    · rename_i hcall
      split at h
      · rename_i hfind
        rcases World.goOn_calls h with h | rfl
        · exact .inl h
        · exact .inr (.refreshFoundByHash hcall hfind)
      · rcases World.goOn_calls h with h | rfl
        · exact .inl h
        · exact .inr (.refreshMissed hcall)
    · exact .inl h
  | refreshFindByScan call key =>
    simp only [worldStep] at h
    split at h
    · rename_i hcall
      split at h
      · rename_i hfind
        rcases World.goOn_calls h with h | rfl
        · exact .inl h
        · exact .inr (.refreshFoundByScan hcall hfind)
      · exact .inl (World.endCall_calls h)
    · exact .inl h
  | refreshPermit call =>
    simp only [worldStep] at h
    split at h
    · rename_i hcall
      rcases World.goOnWith_calls h with h | ⟨email, -, rfl⟩
      · exact .inl h
      · exact .inr (.refreshPermitted hcall)
    · exact .inl h
  | refreshSign call draw =>
    simp only [worldStep] at h
    split at h
    · rename_i hcall
      rcases World.goOnWith_calls h with h | ⟨jwt, -, rfl⟩
      · exact .inl h
      · exact .inr (.refreshSigned hcall)
    · exact .inl h
  | refreshRotate call draw =>
    simp only [worldStep] at h
    split at h
    · exact .inl (rotateStep_calls h)
    · exact .inl h
  | mfaBegin call pending now =>
    simp only [worldStep] at h
    split at h
    · rcases World.goOnWith_calls h with h | ⟨row, -, rfl⟩
      · exact .inl h
      · exact .inr .mfaRead
    · exact .inl h
  | mfaReadTotp call =>
    simp only [worldStep] at h
    split at h
    · rcases World.goOnWith_calls h with h | ⟨row, -, rfl⟩
      · exact .inl h
      · exact .inr .mfaTotp
    · exact .inl h
  | mfaFinish call key nonce codeInput checkedAt sessionId maxLockoutSecs now =>
    simp only [worldStep] at h
    split at h
    · unfold finishStep at h
      split at h
      · exact .inl (World.endCall_calls h)
      · exact .inl (World.endCall_calls h)
    · exact .inl h
  | insertInitial draw user client scope authMethods =>
    simp only [worldStep, insertInitialStep] at h
    split at h
    · exact .inl h
    · exact .inl h
  | completeAuthorization | backfillWrite | command =>
    simp only [worldStep] at h
    split at h
    · exact .inl h
    · exact .inl h
  | backfillRead => exact .inl h
  | resolve session now => exact .inl h

/-- What is left of a backfill was there before, or was just read. -/
theorem worldStep_backfill {w : World} {entry : RefreshTokenId × Bytes}
    (h : entry ∈ (worldStep P ctx w e).1.backfill) :
    entry ∈ w.backfill ∨ entry ∈ RefreshTokens.backfillRead w.db := by
  cases e with
  | backfillRead => exact .inr h
  | backfillWrite key =>
    simp only [worldStep] at h
    split at h
    · rename_i hentry
      rw [hentry]
      exact .inl (List.mem_cons_of_mem _ h)
    · exact .inl h
  | insertInitial draw user client scope authMethods =>
    simp only [worldStep, insertInitialStep] at h
    split at h
    · exact .inl h
    · exact .inl h
  | _ =>
    simp only [worldStep, issueStep, rotateStep, finishStep] at h
    repeat' split at h
    all_goals first
      | exact .inl h
      | exact .inl (by simpa using h)

/-! ## Answers -/

/-- Only the last step of `exchange_refresh` answers with a rotation. -/
theorem worldStep_rotation {w : World} {outcome : StoreResult RefreshTokens.T04Outcome}
    {result : CoreResult TokenSet} (h : (worldStep P ctx w e).2 = .rotation outcome result) :
    ∃ call draw req row jwt, e = .refreshRotate call draw ∧
      w.calls call = some (.refreshSigned req row jwt) ∧
      worldStep P ctx w e = rotateStep P ctx w call draw req row jwt := by
  cases e with
  | refreshRotate call draw =>
    simp only [worldStep] at h ⊢
    split at h
    · rename_i req row jwt hcall
      exact ⟨call, draw, req, row, jwt, rfl, hcall, rfl⟩
    · cases h
  | insertInitial draw user client scope authMethods =>
    simp only [worldStep, insertInitialStep] at h
    split at h
    · cases h
    · cases h
  | _ =>
    simp only [worldStep, issueStep, finishStep] at h
    repeat' split at h
    all_goals simp at h

/-- Only the last step of `exchange_code` answers with tokens of its own. -/
theorem worldStep_issuedTokens {w : World} {tokens : TokenSet}
    (h : (worldStep P ctx w e).2 = .issued tokens) :
    ∃ call draw req grant jwt db', e = .codeIssue call draw ∧
      w.calls call = some (.codeSigned req grant jwt) ∧
      issueFor P w.db ctx draw req.clientId grant jwt = .ok (tokens, db') := by
  cases e with
  | codeIssue call draw =>
    simp only [worldStep] at h
    split at h
    · rename_i req grant jwt hcall
      simp only [issueStep] at h
      split at h
      · rename_i hissue
        cases h
        exact ⟨call, draw, req, grant, jwt, _, rfl, hcall, hissue⟩
      · cases h
    · cases h
  | insertInitial draw user client scope authMethods =>
    simp only [worldStep, insertInitialStep] at h
    split at h
    · cases h
    · cases h
  | _ =>
    simp only [worldStep, rotateStep, finishStep] at h
    repeat' split at h
    all_goals simp at h

/-! ## The histories -/

theorem codeBegin_codes {w : World} {call : CallId} (req : CodeExchangeRequest)
    (hfree : w.calls call = none) :
    (worldStep P ctx w (.codeBegin call req)).1.codes = codeHashOf P req.code :: w.codes := by
  simp only [worldStep, hfree, World.goOnWith_codes]

theorem refreshBegin_presented {w : World} {call : CallId} (req : RefreshExchangeRequest)
    (hfree : w.calls call = none) :
    (worldStep P ctx w (.refreshBegin call req)).1.presented =
      P.sha256 req.refreshToken :: w.presented := by
  simp only [worldStep, hfree, World.goOnWith_presented]

theorem completeAuthorization_codes {w : World} {row : AuthorizationCodeRow}
    (hinsert : AuthCodes.insert w.db row = .ok db') :
    (worldStep P ctx w (.completeAuthorization row)).1.codes = row.codeHash :: w.codes := by
  simp only [worldStep, hinsert]

/-- No presented token is forgotten. -/
theorem worldStep_presented {w : World} (e : Event) (h : hash ∈ w.presented) :
    hash ∈ (worldStep P ctx w e).1.presented := by
  cases e with
  | insertInitial draw user client scope authMethods =>
    simp only [worldStep, insertInitialStep]
    split
    · exact h
    · exact h
  | _ =>
    simp only [worldStep, issueStep, rotateStep, finishStep]
    repeat' split
    all_goals first
      | exact h
      | simpa using h
      | simpa using Or.inr h

/-- No code is forgotten. -/
theorem worldStep_codes {w : World} (e : Event) (h : hash ∈ w.codes) :
    hash ∈ (worldStep P ctx w e).1.codes := by
  cases e with
  | insertInitial draw user client scope authMethods =>
    simp only [worldStep, insertInitialStep]
    split
    · exact h
    · exact h
  | _ =>
    simp only [worldStep, issueStep, rotateStep, finishStep]
    repeat' split
    all_goals first
      | exact h
      | exact List.mem_cons_of_mem _ h
      | simpa using h
      | simpa using Or.inr h

end SuiId
