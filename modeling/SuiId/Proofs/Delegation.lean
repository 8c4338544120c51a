import SuiId.Proofs.RefreshFamilies

/-!
# Delegated access after a revocation

A revocation covers some pairs of a user and a client.  `Severed pre w` says
what has to hold in a later state `w` so that nothing outstanding in `pre` can
be turned into tokens for a covered pair:

* the covered families of `pre` are closed;
* a covered code of `pre` can no longer be consumed: it is, or it has expired
  at a time that no later clock value is before, or its client is deleted and
  no exchange is past the client check with it;
* no exchange carries a covered code of `pre` that it has consumed.

Every event keeps `Severed`, and in a severed state an exchange that is
answered with tokens for a covered pair presented a code or a token that was
not outstanding in `pre`.
-/

namespace SuiId

open Lib Lib.Result

variable {P : Primitives} {ctx : IssuanceContext}

/-! ## What exchanges in flight carry -/

def Call.codeRequest : Call → Option CodeExchangeRequest
  | .codeChecked req => some req
  | .codeVerified req _ => some req
  | .codeIssuable req _ => some req
  | .codeSigned req _ _ => some req
  | _ => none

/-- The code an `exchange_code` has consumed, and its request. -/
def Call.held : Call → Option (CodeExchangeRequest × AuthorizationCodeRow)
  | .codeVerified req row => some (req, row)
  | .codeIssuable req grant => some (req, grant.row)
  | .codeSigned req grant _ => some (req, grant.row)
  | _ => none

def Call.grant : Call → Option IssuableGrant
  | .codeIssuable _ grant => some grant
  | .codeSigned _ grant _ => some grant
  | _ => none

def Call.refreshRequest : Call → Option RefreshExchangeRequest
  | .refreshChecked req _ => some req
  | .refreshMissed req _ => some req
  | .refreshFound req _ _ => some req
  | .refreshPermitted req _ _ => some req
  | .refreshSigned req _ _ => some req
  | _ => none

/-- The histories know every code and every presented token, and a consumed
code belongs to the request that carries it. -/
structure Recorded (P : Primitives) (w : World) : Prop where
  row : ∀ r ∈ w.db.authCodes, r.codeHash ∈ w.codes
  code : ∀ c x req, w.calls c = some x → x.codeRequest = some req →
    codeHashOf P req.code ∈ w.codes
  held : ∀ c x req row, w.calls c = some x → x.held = some (req, row) →
    row.codeHash = codeHashOf P req.code ∧ row.clientId = req.clientId
  grant : ∀ c x grant, w.calls c = some x → x.grant = some grant →
    grant.userId = grant.row.userId
  token : ∀ c x req, w.calls c = some x → x.refreshRequest = some req →
    P.sha256 req.refreshToken ∈ w.presented

/-! ### One event -/

variable {db' : Database} {command : Command} {w : World} {e : Event} {r' : AuthorizationCodeRow}
  {id : ClientId} {req : CodeExchangeRequest}
variable {db : Database} {r row : AuthorizationCodeRow} {call : CallId} {hash : Bytes}
  {tokens : TokenSet} {es : List Event} {deletes : Bool}

/-- No command adds a code. -/
theorem Effect.codes (h : Effect P db command db') :
    AuthCodes.Marked db.authCodes db'.authCodes := by
  cases h with
  | disableUser => exact AuthCodes.marked_update db.authCodes _
  | deleteUser => exact AuthCodes.marked_update db.authCodes _
  | purgeCodes =>
    intro r' hr'
    exact ⟨r', (Table.mem_delete.mp hr').1, .inl rfl⟩
  | _ => exact .refl _

/-- A code is as it was, or has been consumed, or was just issued. -/
theorem worldStep_authCodes (hr' : r' ∈ (worldStep P ctx w e).1.db.authCodes) :
    (∃ r ∈ w.db.authCodes, r' = r ∨ r' = { r with consumed := true }) ∨
      e = .completeAuthorization r' := by
  have hframe : (∃ command, e = .command command ∧
      Effect P w.db command (worldStep P ctx w e).1.db) ∨
      Frame w e (worldStep P ctx w e).1.db := worldStep_frame w e
  rcases hframe with ⟨command, -, heffect⟩ | hframe
  · exact .inl (heffect.codes r' hr')
  · exact hframe.codes r' hr'

/-- A code that was just issued is in the history. -/
theorem completeAuthorization_recorded (hnew : r ∉ w.db.authCodes)
    (hr : r ∈ (worldStep P ctx w (.completeAuthorization r)).1.db.authCodes) :
    r.codeHash ∈ (worldStep P ctx w (.completeAuthorization r)).1.codes := by
  cases hinsert : AuthCodes.insert w.db r with
  | ok db' =>
    rw [completeAuthorization_codes hinsert]
    exact List.mem_cons_self
  | error err =>
    simp only [worldStep, hinsert] at hr
    exact absurd hr hnew

private theorem Recorded.row_step (h : Recorded P w)
    (hr' : r' ∈ (worldStep P ctx w e).1.db.authCodes) :
    r'.codeHash ∈ (worldStep P ctx w e).1.codes := by
  rcases worldStep_authCodes hr' with ⟨r, hr, rfl | rfl⟩ | rfl
  · exact worldStep_codes e (h.row _ hr)
  · exact worldStep_codes e (h.row r hr)
  · by_cases hold : r' ∈ w.db.authCodes
    · exact worldStep_codes _ (h.row r' hold)
    · exact completeAuthorization_recorded hold hr'

/-- One event keeps the histories complete. -/
theorem recorded_step (h : Recorded P w) (e : Event) :
    Recorded P (worldStep P ctx w e).1 where
  row _ hr' := h.row_step hr'
  code c x req hnext hx := by
    rcases worldStep_calls hnext with hcall | hprogress
    · exact worldStep_codes e (h.code c x req hcall hx)
    · cases hprogress with
      | codeChecked hfree hcheck =>
        cases hx
        rw [codeBegin_codes req hfree]
        exact List.mem_cons_self
      | codeVerified hcall hconsume | codeIssuable hcall hresolve | codeSigned hcall =>
        cases hx
        exact worldStep_codes _ (h.code _ _ _ hcall rfl)
      | _ => cases hx
  held c x req row hnext hx := by
    rcases worldStep_calls hnext with hcall | hprogress
    · exact h.held c x req row hcall hx
    · cases hprogress with
      | codeVerified hcall hconsume =>
        cases hx
        obtain ⟨old, -, hhash, -, rfl, hclient⟩ := consumeCode_ok hconsume
        exact ⟨hhash, hclient⟩
      | codeIssuable hcall hresolve =>
        cases hx
        rw [(resolveUser_ok hresolve).1]
        exact h.held _ _ _ _ hcall rfl
      | codeSigned hcall =>
        cases hx
        exact h.held _ _ _ _ hcall rfl
      | _ => cases hx
  grant c x grant hnext hx := by
    rcases worldStep_calls hnext with hcall | hprogress
    · exact h.grant c x grant hcall hx
    · cases hprogress with
      | codeIssuable hcall hresolve =>
        cases hx
        obtain ⟨hrow, huser⟩ := resolveUser_ok hresolve
        rw [huser, hrow]
      | codeSigned hcall =>
        cases hx
        exact h.grant _ _ _ hcall rfl
      | _ => cases hx
  token c x req hnext hx := by
    rcases worldStep_calls hnext with hcall | hprogress
    · exact worldStep_presented e (h.token c x req hcall hx)
    · cases hprogress with
      | refreshChecked hfree =>
        cases hx
        rw [refreshBegin_presented req hfree]
        exact List.mem_cons_self
      | refreshMissed hcall | refreshFoundByHash hcall hfind | refreshFoundByScan hcall hfind
      | refreshPermitted hcall | refreshSigned hcall =>
        cases hx
        exact worldStep_presented _ (h.token _ _ _ hcall rfl)
      | _ => cases hx

/-! ## Deleted clients -/

def ClientDeleted (db : Database) (id : ClientId) : Prop :=
  ∀ c ∈ db.clients, c.id = id → c.isDeleted = true

theorem deleted_update {t : Table ClientRow.id} {p : ClientRow → Bool} {f : ClientRow → ClientRow}
    {hkey : ∀ c, (f c).id = c.id} {c' : ClientRow} (hc' : c' ∈ t.update p f hkey)
    (hid : c'.id = id) (hf : ∀ c, c.isDeleted = true → (f c).isDeleted = true)
    (hdeleted : ∀ c ∈ t, c.id = id → c.isDeleted = true) : c'.isDeleted = true := by
  obtain ⟨c, hc, rfl⟩ := Table.mem_update.mp hc'
  by_cases hp : p c = true
  · rw [if_pos hp] at hid ⊢
    exact hf c (hdeleted c hc ((hkey c).symm.trans hid))
  · rw [if_neg hp] at hid ⊢
    exact hdeleted c hc hid

/-- No command removes a deletion. -/
theorem Effect.clientDeleted (h : Effect P db command db') (hdeleted : ClientDeleted db id) :
    ClientDeleted db' id := by
  cases h with
  | disableClient | enableClient =>
    intro c' hc' hid
    dsimp only at hc'
    exact deleted_update hc' hid (fun _ h => h) hdeleted
  | deleteClient hclient =>
    intro c' hc' hid
    dsimp only at hc'
    exact deleted_update hc' hid (fun _ _ => rfl) hdeleted
  | _ => exact hdeleted

theorem clientDeleted_step (e : Event) (hdeleted : ClientDeleted w.db id) :
    ClientDeleted (worldStep P ctx w e).1.db id := by
  have hframe : (∃ command, e = .command command ∧
      Effect P w.db command (worldStep P ctx w e).1.db) ∨
      Frame w e (worldStep P ctx w e).1.db := worldStep_frame w e
  rcases hframe with ⟨command, -, heffect⟩ | hframe
  · exact heffect.clientDeleted hdeleted
  · unfold ClientDeleted
    rw [hframe.clients]
    exact hdeleted

/-! ## Severed access -/

/-- The clock value at which an event takes a code or a pending second factor. -/
def Event.redeemsAt : Event → Option DateTime
  | .codeConsume _ now => some now
  | .mfaFinish _ _ _ _ _ _ _ now => some now
  | _ => none

/-- The event takes nothing at a clock value before `t`. -/
def Event.NotBefore (t : DateTime) (e : Event) : Prop := ∀ now ∈ e.redeemsAt, t ≤ now

instance (t : DateTime) (e : Event) : Decidable (e.NotBefore t) :=
  inferInstanceAs (Decidable (∀ now ∈ e.redeemsAt, t ≤ now))

section Severed

variable (P) (t : DateTime) (cover : UserId → ClientId → Prop)

/-- The code is consumed or has expired by `t`, or nobody can get to the step that consumes it. -/
def Unredeemable (w : World) (r : AuthorizationCodeRow) : Prop :=
  r.consumed = true ∨ r.expiresAt ≤ t ∨
    (ClientDeleted w.db r.clientId ∧ ∀ c req, w.calls c = some (.codeChecked req) →
      codeHashOf P req.code = r.codeHash → req.clientId ≠ r.clientId)

/-- Nothing outstanding in `pre` leads to tokens for a covered pair in `w`, from `t` on. -/
structure Severed (pre w : World) : Prop where
  codes : ∀ hash ∈ pre.codes, hash ∈ w.codes
  presented : ∀ hash ∈ pre.presented, hash ∈ w.presented
  known : ∀ e ∈ pre.issued, e ∈ w.issued
  issued : ∀ e ∈ w.issued, e ∈ pre.issued ∨ e.hash ∉ pre.presented
  family : ∀ e ∈ pre.issued, cover e.binding.userId e.binding.clientId →
    FamilyClosed w.db e.binding.familyId
  code : ∀ r ∈ w.db.authCodes, cover r.userId r.clientId → r.codeHash ∈ pre.codes →
    Unredeemable P t w r
  held : ∀ c x req row, w.calls c = some x → x.held = some (req, row) →
    cover row.userId row.clientId → row.codeHash ∉ pre.codes

end Severed

variable {t : DateTime} {cover : UserId → ClientId → Prop} {pre : World}

/-- A deleted client starts no exchange, so an unredeemable code stays one. -/
theorem Unredeemable.step (h : Unredeemable P t w r) (e : Event) :
    Unredeemable P t (worldStep P ctx w e).1 r := by
  rcases h with hconsumed | hexpired | ⟨hdeleted, hcalls⟩
  · exact .inl hconsumed
  · exact .inr (.inl hexpired)
  · refine .inr (.inr ⟨clientDeleted_step e hdeleted, fun c req hnext hhash => ?_⟩)
    rcases worldStep_calls hnext with hcall | hprogress
    · exact hcalls c req hcall hhash
    · cases hprogress with
      | codeChecked hfree hcheck =>
        intro hclient
        obtain ⟨hmem, hid, hnot⟩ := checkClient_ok hcheck
        rw [hdeleted _ hmem (hid.trans hclient)] at hnot
        cases hnot

/-- Nor does an exchange get hold of it. -/
theorem Unredeemable.not_consumed {now : DateTime} (htime : t ≤ now)
    (hcall : w.calls call = some (.codeChecked req))
    (hconsume : (consumeCode P w.db req now).1 = .ok row) :
    ∃ old ∈ w.db.authCodes, old.codeHash = row.codeHash ∧ old.userId = row.userId ∧
      old.clientId = row.clientId ∧ ¬ Unredeemable P t w old := by
  obtain ⟨old, hold, hhash, hlive, rfl, hclient⟩ := consumeCode_ok hconsume
  simp only [AuthCodes.live, Bool.and_eq_true, Bool.not_eq_true', decide_eq_true_eq] at hlive
  refine ⟨old, hold, rfl, rfl, rfl, ?_⟩
  rintro (hconsumed | hexpired | ⟨-, hcalls⟩)
  · rw [hlive.1] at hconsumed
    cases hconsumed
  · exact absurd hlive.2 (Int.not_lt.mpr (Int.le_trans hexpired htime))
  · exact hcalls call req hcall hhash.symm hclient.symm

private theorem Severed.code_step (hs : Severed P t cover pre w) (hfresh : Fresh P w e)
    (hr' : r' ∈ (worldStep P ctx w e).1.db.authCodes) (hcover : cover r'.userId r'.clientId)
    (hhash : r'.codeHash ∈ pre.codes) : Unredeemable P t (worldStep P ctx w e).1 r' := by
  rcases worldStep_authCodes hr' with ⟨r, hr, rfl | rfl⟩ | rfl
  · exact (hs.code _ hr hcover hhash).step e
  · exact .inl rfl
  · exact absurd (hs.codes _ hhash) hfresh

private theorem Severed.held_step (hs : Severed P t cover pre w) (htime : e.NotBefore t)
    {c : CallId} {x : Call}
    (hnext : (worldStep P ctx w e).1.calls c = some x) (hx : x.held = some (req, row))
    (hcover : cover row.userId row.clientId) :
    row.codeHash ∉ pre.codes := by
  rcases worldStep_calls hnext with hcall | hprogress
  · exact hs.held c x req row hcall hx hcover
  · cases hprogress with
    | codeVerified hcall hconsume =>
      cases hx
      intro hhash
      obtain ⟨old, hold, holdHash, huser, hclient, hredeemable⟩ :=
        Unredeemable.not_consumed (htime _ rfl) hcall hconsume
      rw [← huser, ← hclient] at hcover
      rw [← holdHash] at hhash
      exact hredeemable (hs.code old hold hcover hhash)
    | codeIssuable hcall hresolve =>
      cases hx
      rw [(resolveUser_ok hresolve).1] at hcover ⊢
      exact hs.held _ _ _ _ hcall rfl hcover
    | codeSigned hcall =>
      cases hx
      exact hs.held _ _ _ _ hcall rfl hcover
    | _ => cases hx

/-- One event keeps access severed. -/
theorem severed_step (hP : P.Lawful) (hd : Described P w) (hs : Severed P t cover pre w)
    (hfresh : Fresh P w e) (htime : e.NotBefore t) :
    Severed P t cover pre (worldStep P ctx w e).1 := by
  have hchange : TokenChange P w e (worldStep P ctx w e).1.db.refreshTokens
      (worldStep P ctx w e).1.issued := worldStep_tokens hP hd hfresh
  refine ⟨fun hash h => worldStep_codes e (hs.codes hash h),
    fun hash h => worldStep_presented e (hs.presented hash h),
    fun e' he' => hchange.mem_issued (hs.known e' he'), fun e' he' => ?_, fun e' he' hcover => ?_,
    fun r' hr' hcover hhash => hs.code_step hfresh hr' hcover hhash,
    fun c x req row hnext hx hcover => hs.held_step htime hnext hx hcover⟩
  · rcases hchange.issued with hsame | ⟨binding, hash, -, hunseen, hnew, -⟩
    · rw [hsame] at he'
      exact hs.issued e' he'
    · rw [hnew, List.mem_append, List.mem_singleton] at he'
      rcases he' with he' | rfl
      · exact hs.issued e' he'
      · exact .inr fun h => hunseen (hs.presented _ h)
  · exact closed_step hP hd hfresh ⟨e', hs.known e' he', rfl⟩ (hs.family e' he' hcover)

/-! ## What a severed state refuses -/

/-- What an exchange presents, by its hash. -/
inductive Credential where
  | code (hash : Bytes)
  | token (hash : Bytes)
deriving DecidableEq

/-- The credential is in the database, or an exchange with it is in flight. -/
def Outstanding (P : Primitives) (w : World) : Credential → Prop
  | .code hash =>
    (∃ r ∈ w.db.authCodes, r.codeHash = hash) ∨
      ∃ c x req, w.calls c = some x ∧ x.codeRequest = some req ∧ codeHashOf P req.code = hash
  | .token hash =>
    (∃ r ∈ w.db.refreshTokens, HashOf P r hash) ∨
      ∃ c x req, w.calls c = some x ∧ x.refreshRequest = some req ∧
        P.sha256 req.refreshToken = hash

/-- The user, the client and the credential of the last step of an exchange. -/
def redeemed (P : Primitives) (w : World) : Event → Option (UserId × ClientId × Credential)
  | .codeIssue call _ =>
    match w.calls call with
    | some (.codeSigned req grant _) =>
      some (grant.userId, req.clientId, .code (codeHashOf P req.code))
    | _ => none
  | .refreshRotate call _ =>
    match w.calls call with
    | some (.refreshSigned req row _) =>
      some (row.userId, row.clientId, .token (P.sha256 req.refreshToken))
    | _ => none
  | _ => none

/-- The token set an exchange returns. -/
def Answer.tokenSet : Answer → Option TokenSet
  | .issued tokens => some tokens
  | .rotation _ (.ok tokens) => some tokens
  | _ => none

theorem Recorded.code_of_outstanding (h : Recorded P w) (hout : Outstanding P w (.code hash)) :
    hash ∈ w.codes := by
  rcases hout with ⟨r, hr, rfl⟩ | ⟨c, x, req, hcall, hx, rfl⟩
  · exact h.row r hr
  · exact h.code c x req hcall hx

theorem Recorded.token_of_outstanding (hd : Described P w) (h : Recorded P w)
    (hout : Outstanding P w (.token hash)) :
    (∃ e ∈ w.issued, e.hash = hash) ∨ hash ∈ w.presented := by
  rcases hout with ⟨r, hr, hhash⟩ | ⟨c, x, req, hcall, hx, rfl⟩
  · obtain ⟨e, he, -, hehash⟩ := hd.row r hr
    exact .inl ⟨e, he, hehash hash hhash⟩
  · exact .inr (h.token c x req hcall hx)

/-- An unrevoked row for a covered pair is of a family that began after `pre`. -/
theorem Severed.family_of_live (hs : Severed P t cover pre w) (hd : Described P w)
    {r : RefreshTokenRow} (hr : r ∈ w.db.refreshTokens) (hlive : r.revokedAt = none)
    (hcover : cover r.userId r.clientId) : ∀ e ∈ pre.issued, e.binding.familyId ≠ r.familyId := by
  intro e he hfam
  obtain ⟨e', he', hb, -⟩ := hd.row r hr
  have hgrant : e.binding.SameGrant e'.binding := by
    refine hd.family e (hs.known e he) e' he' ?_
    rw [hfam, hb]
    rfl
  have hecover : cover e.binding.userId e.binding.clientId := by
    rw [hgrant.1, hgrant.2.1, hb]
    exact hcover
  exact hs.family e he hecover r hr hfam.symm hlive

/-- Tokens are the answer of one of the two exchanges. -/
theorem tokenSet_eq_some {a : Answer} (h : a.tokenSet = some tokens) :
    a = .issued tokens ∨ a.refreshed = some tokens := by
  unfold Answer.tokenSet at h
  split at h
  · cases h
    exact .inl rfl
  · cases h
    exact .inr rfl
  · cases h

private theorem Severed.not_outstanding_code (hs : Severed P t cover pre w) (hrec : Recorded P w)
    (hrecpre : Recorded P pre) {grant : IssuableGrant} {jwt : JwtPair}
    (hcall : w.calls call = some (.codeSigned req grant jwt))
    (hcover : cover grant.userId req.clientId) :
    ¬ Outstanding P pre (.code (codeHashOf P req.code)) := by
  intro hout
  obtain ⟨hhash, hclient⟩ := hrec.held call _ req grant.row hcall rfl
  rw [hrec.grant call _ grant hcall rfl, ← hclient] at hcover
  have hnot : grant.row.codeHash ∉ pre.codes := hs.held call _ req grant.row hcall rfl hcover
  rw [hhash] at hnot
  exact hnot (hrecpre.code_of_outstanding hout)

private theorem Severed.not_outstanding_token (hs : Severed P t cover pre w) (hd : Described P w)
    (hdpre : Described P pre) (hrecpre : Recorded P pre) {old : RefreshTokenRow} {token : Bytes}
    (hold : old ∈ w.db.refreshTokens) (hlive : old.revokedAt = none)
    (hhash : old.tokenHash = some (P.sha256 token)) (hcover : cover old.userId old.clientId) :
    ¬ Outstanding P pre (.token (P.sha256 token)) := by
  intro hout
  obtain ⟨e', he', hb, hehash⟩ := hd.row old hold
  have hnew : e' ∉ pre.issued := by
    intro hmem
    apply hs.family_of_live hd hold hlive hcover e' hmem
    rw [hb]
    rfl
  have hhash' : e'.hash = P.sha256 token := hehash _ (.inl hhash)
  rcases hrecpre.token_of_outstanding hdpre hout with ⟨e, he, hsame⟩ | hpresented
  · -- The presented token is an old one, so its entry is the row's.
    have hee' : e = e' := hd.hash_inj e (hs.known e he) e' he' (hsame.trans hhash'.symm)
    exact hnew (hee' ▸ he)
  · rcases hs.issued e' he' with hmem | hunseen
    · exact hnew hmem
    · rw [hhash'] at hunseen
      exact hunseen hpresented

/-- No outstanding code or token of `pre` is answered with tokens for a covered
pair. -/
theorem Severed.not_outstanding (hs : Severed P t cover pre w) (hd : Described P w)
    (hrec : Recorded P w) (hdpre : Described P pre) (hrecpre : Recorded P pre) {user : UserId}
    {client : ClientId} {credential : Credential}
    (htokens : (worldStep P ctx w e).2.tokenSet = some tokens)
    (hredeemed : redeemed P w e = some (user, client, credential)) (hcover : cover user client) :
    ¬ Outstanding P pre credential := by
  rcases tokenSet_eq_some htokens with hissued | hrefreshed
  · obtain ⟨call, draw, req, grant, jwt, db', rfl, hcall, -⟩ := worldStep_issuedTokens hissued
    simp only [redeemed, hcall, Option.some.injEq, Prod.mk.injEq] at hredeemed
    obtain ⟨rfl, rfl, rfl⟩ := hredeemed
    exact hs.not_outstanding_code hrec hrecpre hcall hcover
  · obtain ⟨call, draw, req, row, jwt, rfl, hcall, -, old, hold, hlive, hhash, hbinding⟩ :=
      refreshed_spends hd hrefreshed
    simp only [redeemed, hcall, Option.some.injEq, Prod.mk.injEq] at hredeemed
    obtain ⟨rfl, rfl, rfl⟩ := hredeemed
    have huser : old.userId = row.userId := congrArg Binding.userId hbinding
    have hclient : old.clientId = row.clientId := congrArg Binding.clientId hbinding
    rw [← huser, ← hclient] at hcover
    exact hs.not_outstanding_token hd hdpre hrecpre hold hlive hhash hcover

/-! ## Whole runs -/

/-- In a run `es` from `post`: no credential outstanding in `pre` is answered
with tokens for a covered pair, and no unrevoked row for a covered pair is of a
family that had a row in `pre`. -/
def AccessEnded (P : Primitives) (ctx : IssuanceContext) (cover : UserId → ClientId → Prop)
    (pre post : World) (es : List Event) : Prop :=
  (∀ x ∈ Machine.trace (worldStep P ctx) post es, ∀ tokens user client credential,
      x.out.tokenSet = some tokens →
      redeemed P x.pre x.event = some (user, client, credential) → cover user client →
      ¬ Outstanding P pre credential) ∧
    ∀ mid rest, es = mid ++ rest →
      ∀ r ∈ (Machine.run (worldStep P ctx) post mid).db.refreshTokens, r.revokedAt = none →
        cover r.userId r.clientId → ∀ r₀ ∈ pre.db.refreshTokens, r₀.familyId ≠ r.familyId

theorem accessEnded_of_severed (hP : P.Lawful) (hdpre : Described P pre)
    (hrecpre : Recorded P pre) {post : World} (hd : Described P post) (hrec : Recorded P post)
    (hs : Severed P t cover pre post)
    (hfresh : Machine.Guarded (worldStep P ctx) (Fresh P) post es)
    (htime : ∀ e ∈ es, e.NotBefore t) : AccessEnded P ctx cover pre post es := by
  have hguarded := hfresh.and (Machine.guarded_of_forall htime)
  have hstep : ∀ w e, (Described P w ∧ Recorded P w ∧ Severed P t cover pre w) →
      Fresh P w e ∧ e.NotBefore t →
        Described P (worldStep P ctx w e).1 ∧ Recorded P (worldStep P ctx w e).1 ∧
          Severed P t cover pre (worldStep P ctx w e).1 := by
    rintro w e ⟨hd, hrec, hs⟩ ⟨hfresh, htime⟩
    exact ⟨described_step hP hd hfresh, recorded_step hrec e, severed_step hP hd hs hfresh htime⟩
  constructor
  · intro x hx tokens user client credential htokens hredeemed hcover
    obtain ⟨⟨hd', hrec', hs'⟩, -, hanswer⟩ :=
      Machine.trace_invariant hstep hguarded ⟨hd, hrec, hs⟩ hx
    rw [hanswer] at htokens
    exact hs'.not_outstanding hd' hrec' hdpre hrecpre htokens hredeemed hcover
  · rintro mid rest rfl r hr hlive hcover r₀ hr₀
    obtain ⟨hd', -, hs'⟩ :=
      Machine.run_invariant hstep (Machine.guarded_append.mp hguarded).1 ⟨hd, hrec, hs⟩
    obtain ⟨e, he, hfam⟩ := hdpre.known_of_mem hr₀
    rw [← hfam]
    exact hs'.family_of_live hd' hr hlive hcover e he

/-- No exchange in flight has consumed a covered code, and none can consume one
from `t` on: it is consumed, or has expired by `t`, or its client is deleted (or
`deletes` says that it is about to be) and no exchange with it is past the
client check. -/
def NothingRedeemable (P : Primitives) (t : DateTime) (w : World)
    (cover : UserId → ClientId → Prop) (deletes : Bool) : Prop :=
  (∀ c x req row, w.calls c = some x → x.held = some (req, row) →
      ¬ cover row.userId row.clientId) ∧
    ∀ r ∈ w.db.authCodes, cover r.userId r.clientId →
      r.consumed = true ∨ r.expiresAt ≤ t ∨
        ((deletes = true ∨ ClientDeleted w.db r.clientId) ∧
          ∀ c req, w.calls c = some (.codeChecked req) → codeHashOf P req.code = r.codeHash →
            req.clientId ≠ r.clientId)

/-- A command that revokes every covered token severs access when it finds
nothing redeemable. -/
theorem severed_of_sweep (hd : Described P { pre with db := db' })
    (heffect : Effect P pre.db command db')
    (hswept : ∀ r ∈ db'.refreshTokens, cover r.userId r.clientId → r.revokedAt ≠ none)
    (hdeletes : deletes = true → ∀ user client, cover user client → ClientDeleted db' client)
    (hnothing : NothingRedeemable P t pre cover deletes) :
    Severed P t cover pre { pre with db := db' } where
  codes _ h := h
  presented _ h := h
  known _ h := h
  issued _ h := .inl h
  family e he hcover r hr hfam := by
    obtain ⟨e', he', hb, -⟩ := hd.row r hr
    have hgrant : e.binding.SameGrant e'.binding := by
      refine hd.family e he e' he' ?_
      rw [hb]
      exact hfam.symm
    rw [hgrant.1, hgrant.2.1, hb] at hcover
    exact hswept r hr hcover
  code r' hr' hcover _ := by
    obtain ⟨r, hr, rfl | rfl⟩ := heffect.codes r' hr'
    · rcases hnothing.2 r' hr hcover with
        hconsumed | hexpired | ⟨hdeletes' | hdeleted, hcalls⟩
      · exact .inl hconsumed
      · exact .inr (.inl hexpired)
      · exact .inr (.inr ⟨hdeletes hdeletes' _ _ hcover, hcalls⟩)
      · exact .inr (.inr ⟨heffect.clientDeleted hdeleted, hcalls⟩)
    · exact .inl rfl
  held c x req row hcall hx hcover := absurd hcover (hnothing.1 c x req row hcall hx)

/-! ## Accepted commands -/

def Answer.accepted : Answer → Bool
  | .committed (.ok _) => true
  | _ => false

theorem accepted_command (h : (worldStep P ctx w (.command command)).2.accepted = true) :
    ∃ db', Effect P w.db command db' ∧
      (worldStep P ctx w (.command command)).1 = { w with db := db' } := by
  simp only [worldStep] at h ⊢
  split at h
  · rename_i db' hperform
    exact ⟨db', perform_effect hperform, rfl⟩
  · cases h

/-- The two invariants of every run. -/
theorem known_throughout (hP : P.Lawful) (hd : Described P w) (hrec : Recorded P w)
    (hfresh : Machine.Guarded (worldStep P ctx) (Fresh P) w es) :
    Described P (Machine.run (worldStep P ctx) w es) ∧
      Recorded P (Machine.run (worldStep P ctx) w es) := by
  have hstep : ∀ w e, (Described P w ∧ Recorded P w) → Fresh P w e →
      Described P (worldStep P ctx w e).1 ∧ Recorded P (worldStep P ctx w e).1 :=
    fun w e h hfresh => ⟨described_step hP h.1 hfresh, recorded_step h.2 e⟩
  exact Machine.run_invariant hstep hfresh ⟨hd, hrec⟩

/-- A committed command that revokes every covered token and finds nothing
redeemable ends the access of everything outstanding. -/
theorem accessEnded_of_command (hP : P.Lawful) (hd : Described P pre) (hrec : Recorded P pre)
    {after : List Event} (haccepted : (worldStep P ctx pre (.command command)).2.accepted = true)
    (hswept : ∀ db', Effect P pre.db command db' → ∀ r ∈ db'.refreshTokens,
      cover r.userId r.clientId → r.revokedAt ≠ none)
    (hdeletes : ∀ db', Effect P pre.db command db' → deletes = true → ∀ user client,
      cover user client → ClientDeleted db' client)
    (hnothing : NothingRedeemable P t pre cover deletes)
    (hafter : Machine.Guarded (worldStep P ctx) (Fresh P)
      (worldStep P ctx pre (.command command)).1 after)
    (htime : ∀ e ∈ after, e.NotBefore t) :
    AccessEnded P ctx cover pre (worldStep P ctx pre (.command command)).1 after := by
  obtain ⟨db', heffect, hpost⟩ := accepted_command haccepted
  have hdpost : Described P (worldStep P ctx pre (.command command)).1 :=
    described_step hP hd trivial
  refine accessEnded_of_severed hP hd hrec hdpost (recorded_step hrec _) ?_ hafter htime
  rw [hpost] at hdpost ⊢
  exact severed_of_sweep hdpost heffect (hswept db' heffect) (hdeletes db' heffect) hnothing

end SuiId
