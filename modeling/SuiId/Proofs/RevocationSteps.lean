import SuiId.Proofs.RevocationCalls

/-!
# Calls that revoke, and calls that come later

Where a call stands that revokes an active access token (`RevokesAccess`) or an active refresh token
(`RevokesRefresh`): each of its steps keeps it so, or leaves the token denied or expired, and the
family without a live row.

Where a later call stands (`LateAccess`, `LateFamily`): it goes on being refused.
-/

namespace SuiId

open Lib Lib.Result

variable {T : TokenServer}

/-! ## Answers and stages -/

/-- Introspection calls the token active, or `userinfo` answers. -/
def TokenAnswer.accepts : TokenAnswer → Bool
  | .introspected (.ok response) => response.active
  | .userinfo (.ok _) => true
  | _ => false

/-- Introspection calls the token an active refresh token. -/
def TokenAnswer.acceptsRefresh : TokenAnswer → Bool
  | .introspected (.ok response) => response.active && response.kind == some "refresh_token"
  | _ => false

/-- The claims that wait for the deny-list. -/
def TokenStage.awaiting : TokenStage → Option AccessTokenClaims
  | .verified claims _ => some claims
  | _ => none

/-- The kinds that a call has not given up. -/
def TokenStage.remaining : TokenStage → List TokenKind
  | .trying kind rest => kind :: rest
  | .verified _ rest => .accessToken :: rest
  | .permitted _ => [.accessToken]
  | .missed _ rest => .refreshToken :: rest
  | .found _ => [.refreshToken]

theorem nextKind_goesOn {use : TokenUse} {rest : List TokenKind} {stage : TokenStage}
    (h : use.nextKind rest = .goesOn stage) : ∃ kind rest', rest = kind :: rest' ∧
      stage = .trying kind rest' := by
  cases rest with
  | nil => cases use <;> cases h
  | cons kind rest =>
    cases h
    exact ⟨kind, rest, rfl, rfl⟩

theorem nextKind_answers {use : TokenUse} {rest : List TokenKind} {answer : TokenAnswer}
    (h : use.nextKind rest = .answers answer) : rest = [] ∧ answer.accepts = false := by
  cases rest with
  | nil => cases use <;> cases h <;> exact ⟨rfl, rfl⟩
  | cons kind rest => cases h

/-! ## A call that revokes an access token -/

/-- The token is denied until it expires, or has expired. -/
def DeniedOrExpired (denyList : DenyList) (claims : AccessTokenClaims) (now : DateTime) : Prop :=
  (∃ r ∈ denyList, r.jti = claims.jti ∧ seconds claims.exp ≤ r.exp) ∨ claims.exp < timestamp now

theorem timestamp_mono {now now' : DateTime} (h : now ≤ now') : timestamp now ≤ timestamp now' :=
  Int.ediv_le_ediv (by decide) h

/-- Where a call that revokes an access token stands. -/
structure RevokesAccess (T : TokenServer) (db : Database) (now : DateTime)
    (request : TokenRequest) (stage : TokenStage) (claims : AccessTokenClaims) : Prop where
  isQuery : ∃ client token hint, request = .query .revoke client token hint ∧
    T.signedClaims db token = some claims ∧ T.parseId claims.aud = some client
  awaiting : ∀ claims' ∈ stage.awaiting, claims' = claims
  notFound : ∀ row, stage ≠ .found row
  pending : .accessToken ∈ stage.remaining ∨ claims.exp < timestamp now

theorem RevokesAccess.mono {db db' : Database} {now now' : DateTime} {request : TokenRequest}
    {stage : TokenStage} {claims : AccessTokenClaims}
    (h : RevokesAccess T db now request stage claims) (hkeys : db'.signingKeys = db.signingKeys)
    (hle : now ≤ now') : RevokesAccess T db' now' request stage claims where
  isQuery := by
    obtain ⟨client, token, hint, hrequest, hsigned, haudience⟩ := h.isQuery
    exact ⟨client, token, hint, hrequest, (signedClaims_congr hkeys).trans hsigned, haudience⟩
  awaiting := h.awaiting
  notFound := h.notFound
  pending := h.pending.imp_right fun hexp => lt_of_lt_of_le hexp (timestamp_mono hle)

section Advance

variable {tables tables' : TokenTables} {draw : StepDraw} {request : TokenRequest}
  {stage : TokenStage} {outcome : TokenOutcome}

/-- A step of such a call keeps it so, or denies the token, or has found that it has expired. -/
theorem RevokesAccess.advance {claims : AccessTokenClaims} {now : DateTime}
    (h : RevokesAccess T tables.db now request stage claims)
    (hapart : T.isBoth tables request.token = false) (hle : now ≤ draw.now)
    (hjti : ∀ claims ∈ stage.awaiting, ∀ r ∈ tables.denyList, r.jti = claims.jti →
      seconds claims.exp ≤ r.exp)
    (hstep : TokenStep T tables draw request stage tables' outcome) :
    (∀ stage', outcome = .goesOn stage' →
      RevokesAccess T tables.db draw.now request stage' claims) ∧
    (outcome = .answers (.revoked (.ok ())) →
      DeniedOrExpired tables'.denyList claims draw.now) := by
  obtain ⟨client, token, hint, rfl, hsigned, haudience⟩ := h.isQuery
  replace hapart : T.isBoth tables token = false := hapart
  have hpassed : ∀ {rest : List TokenKind},
      .accessToken ∈ rest ∨ claims.exp < timestamp draw.now →
      (∀ stage', TokenUse.revoke.nextKind rest = .goesOn stage' →
        RevokesAccess T tables.db draw.now (.query .revoke client token hint) stage' claims) ∧
      (TokenUse.revoke.nextKind rest = .answers (.revoked (.ok ())) →
        DeniedOrExpired tables.denyList claims draw.now) := by
    intro rest hpending
    constructor
    · intro stage' hnext
      obtain ⟨kind, rest', rfl, rfl⟩ := nextKind_goesOn hnext
      exact ⟨⟨client, token, hint, rfl, hsigned, haudience⟩, (fun _ hc => by cases hc),
        (fun _ hfound => by cases hfound), hpending⟩
    · intro hnext
      obtain ⟨rfl, -⟩ := nextKind_answers hnext
      exact .inr (hpending.resolve_left List.not_mem_nil)
  have hlater : claims.exp < timestamp now → claims.exp < timestamp draw.now :=
    fun hexp => lt_of_lt_of_le hexp (timestamp_mono hle)
  cases hstep with
  | accessRefused hrefused => exact hpassed (.inr (hrefused claims hsigned haudience))
  | @accessVerified _ _ _ _ rest claims' hsigned' hexp =>
    rw [hsigned] at hsigned'
    cases hsigned'
    refine ⟨fun stage' hnext => ?_, (fun hnext => by cases hnext)⟩
    cases hnext
    exact ⟨⟨client, token, hint, rfl, hsigned, haudience⟩, (fun _ hc => by cases hc; rfl),
      (fun _ hfound => by cases hfound), .inl List.mem_cons_self⟩
  | hashFound hfinds | hashOther hfinds | scanFound hfinds | scanOther hfinds =>
    cases hsigned.symm.trans (not_signed_of_isRowOf hapart hfinds.mem hfinds.isRowOf)
  | hashMissed =>
    refine ⟨fun stage' hnext => ?_, (fun hnext => by cases hnext)⟩
    cases hnext
    refine ⟨⟨client, token, hint, rfl, hsigned, haudience⟩, (fun _ hc => by cases hc),
      (fun _ hfound => by cases hfound), ?_⟩
    exact h.pending.imp id hlater
  | scanMissed =>
    refine hpassed ?_
    rcases h.pending with hpending | hexp
    · exact .inl ((List.mem_cons.mp hpending).resolve_left (by decide))
    · exact .inr (hlater hexp)
  | denyFailed => exact ⟨(fun _ hnext => by cases hnext), (fun hnext => by cases hnext)⟩
  | @denied _ _ _ rest claims' denyList row hjti' hexp hinsert =>
    obtain rfl : claims' = claims := h.awaiting claims' rfl
    refine ⟨(fun _ hnext => by cases hnext), fun _ => .inl ?_⟩
    obtain ⟨hkept, ⟨r, hr, hsame, -⟩ | hmem⟩ := RevokedAccessTokens.insert_ok hinsert
    · have hsame' : r.jti = claims'.jti := hsame.trans hjti'
      exact ⟨r, hkept r hr, hsame', hjti claims' rfl r hr hsame'⟩
    · exact ⟨row, hmem, hjti', le_of_eq hexp.symm⟩
  | rowRevoked => exact absurd rfl (h.notFound _)
  | ignored => exact ⟨(fun _ hnext => by cases hnext), (fun hnext => by cases hnext)⟩

end Advance

/-! ## A call that revokes a refresh token -/

theorem SameRow.isRowOf {r r' : RefreshTokenRow} (h : SameRow r r') (P : Primitives)
    (key : MasterKey) (token : Bytes) :
    RefreshTokens.isRowOf P key token r' = RefreshTokens.isRowOf P key token r := by
  rcases h with rfl | ⟨-, t, rfl⟩
  · rfl
  · rfl

/-- A row that is found for a token is that of the token's entry. -/
theorem Finds.issued {w : World} (hd : Described T.P w) {token : String} {now : DateTime}
    {row : RefreshTokenRow} (h : Finds T w.db token now row) :
    ∃ i ∈ w.issued, i.binding = row.binding ∧ i.hash = T.P.sha256 (utf8 token) := by
  obtain ⟨i, hi, hbinding, hhash⟩ := hd.row row h.mem
  exact ⟨i, hi, hbinding, hhash _ (hashOf_of_isRowOf h.isRowOf)⟩

theorem binding_of_issued {w : World} (hd : Described T.P w) {token : String} {b b' : Binding}
    (h : ∃ i ∈ w.issued, i.binding = b ∧ i.hash = T.P.sha256 (utf8 token))
    (h' : ∃ i ∈ w.issued, i.binding = b' ∧ i.hash = T.P.sha256 (utf8 token)) : b = b' := by
  obtain ⟨i, hi, rfl, hhash⟩ := h
  obtain ⟨i', hi', rfl, hhash'⟩ := h'
  rw [hd.hash_inj i hi i' hi' (hhash.trans hhash'.symm)]

/-- Where a call that revokes a refresh token stands. -/
structure RevokesRefresh (T : TokenServer) (w : World) (now : DateTime) (request : TokenRequest)
    (stage : TokenStage) (b : Binding) : Prop where
  isQuery : ∃ token hint, request = .query .revoke b.clientId token hint
  unsigned : T.signedClaims w.db request.token = none
  entry : ∃ i ∈ w.issued, i.binding = b ∧ i.hash = T.P.sha256 (utf8 request.token)
  only : FamilyOnly w.db b.familyId b.id
  rowOf : ∀ r ∈ w.db.refreshTokens, r.id = b.id →
    RefreshTokens.isRowOf T.P T.key (utf8 request.token) r = true
  awaiting : stage.awaiting = none
  found : ∀ row, stage = .found row → row.id = b.id
  missed : ∀ now' rest, stage = .missed now' rest → now' ≤ now ∧
    ∀ r ∈ w.db.refreshTokens, r.id = b.id → r.tokenHash ≠ none → RefreshTokens.live now' r = false
  pending : .refreshToken ∈ stage.remaining ∨ FamilyDead w.db b.familyId now

section Refresh

variable {w : World} {now : DateTime} {request : TokenRequest} {stage : TokenStage} {b : Binding}

theorem RevokesRefresh.later (h : RevokesRefresh T w now request stage b) {now' : DateTime}
    (hle : now ≤ now') : RevokesRefresh T w now' request stage b where
  isQuery := h.isQuery
  unsigned := h.unsigned
  entry := h.entry
  only := h.only
  rowOf := h.rowOf
  awaiting := h.awaiting
  found := h.found
  missed now'' rest hstage := ⟨(h.missed now'' rest hstage).1.trans hle,
    (h.missed now'' rest hstage).2⟩
  pending := h.pending.imp_right fun hdead => hdead.later hle

/-- An event of the token endpoint that does not rotate the token. -/
theorem RevokesRefresh.worldStep (hP : T.P.Lawful) (hd : Described T.P w)
    (h : RevokesRefresh T w now request stage b) {e : Event} (hfresh : Fresh T.P w e)
    (hplain : e.isMaintenance = false)
    (htime : ∀ call draw, e = .refreshRotate call draw → now ≤ draw.now)
    (hother : ∀ row ∈ rotatable T.P w e, b.id ≠ row.id) :
    RevokesRefresh T (worldStep T.P T.ctx w e).1 now request stage b := by
  obtain ⟨i, hi, hbinding, hhash⟩ := h.entry
  have hknown : KnownFamily w b.familyId := ⟨i, hi, by rw [hbinding]⟩
  have hchange : TokenChange T.P w e (SuiId.worldStep T.P T.ctx w e).1.db.refreshTokens
      (SuiId.worldStep T.P T.ctx w e).1.issued := worldStep_tokens hP hd hfresh
  have hrow : ∀ r' ∈ (SuiId.worldStep T.P T.ctx w e).1.db.refreshTokens, r'.id = b.id →
      ∃ r ∈ w.db.refreshTokens, SameRow r r' ∧ r.id = b.id := by
    intro r' hr' hid
    obtain ⟨r, hr, hsame⟩ := row_of_issued hd hfresh hplain hi hr' (by rw [hid, hbinding])
    exact ⟨r, hr, hsame, hsame.id_eq.symm.trans hid⟩
  refine ⟨h.isQuery, (signedClaims_congr (worldStep_signingKeys w e)).trans h.unsigned,
    ⟨i, hchange.mem_issued hi, hbinding, hhash⟩,
    only_step hd hfresh hplain hknown h.only fun row hrot => (hother row hrot).symm, ?_,
    h.awaiting, h.found, fun now' rest hstage => ⟨(h.missed now' rest hstage).1, ?_⟩,
    h.pending.imp_right fun hdead => dead_step hd hfresh hplain hknown hdead htime⟩
  · intro r' hr' hid
    obtain ⟨r, hr, hsame, hid'⟩ := hrow r' hr' hid
    rw [hsame.isRowOf]
    exact h.rowOf r hr hid'
  · intro r' hr' hid hhashed
    obtain ⟨r, hr, hsame, hid'⟩ := hrow r' hr' hid
    rw [Bool.eq_false_iff]
    intro hlive
    obtain rfl := hsame.live (RefreshTokens.live_iff.mp hlive).1
    rw [(h.missed now' rest hstage).2 r' hr hid' hhashed] at hlive
    cases hlive

/-- Neither read has found the row: it is no longer live. -/
theorem RevokesRefresh.dead_of_missed (h : RevokesRefresh T w now request stage b)
    {now' now'' : DateTime} {rest : List TokenKind} (hstage : stage = .missed now' rest)
    (hscan : RefreshTokens.findActiveByScan T.P T.key w.db now' (utf8 request.token) = none)
    (hle : now' ≤ now'') : FamilyDead w.db b.familyId now'' := by
  intro r hr hfamily
  rw [Bool.eq_false_iff]
  intro hlive
  have hid : r.id = b.id := h.only r hr hfamily (RefreshTokens.live_iff.mp hlive).1
  have hearlier := live_earlier hle hlive
  cases hhash : r.tokenHash with
  | some hash =>
    rw [(h.missed now' rest hstage).2 r hr hid (by rw [hhash]; simp)] at hearlier
    cases hearlier
  | none =>
    have hrow := h.rowOf r hr hid
    rw [RefreshTokens.isRowOf, hhash] at hrow
    have hopens : RefreshTokens.opensTo T.P T.key r.tokenEnc (utf8 request.token) = true := by
      simpa using hrow
    rw [RefreshTokens.not_live_of_findByScan hscan hr hhash hopens] at hearlier
    cases hearlier

/-- A step of such a call keeps it so, or leaves the family dead. -/
theorem RevokesRefresh.advance (hd : Described T.P w)
    (h : RevokesRefresh T w now request stage b) {denyList : DenyList} {draw : StepDraw}
    {tables' : TokenTables} {outcome : TokenOutcome} (hle : now ≤ draw.now)
    (hstep : TokenStep T ⟨w.db, denyList⟩ draw request stage tables' outcome) :
    (∀ stage', outcome = .goesOn stage' → RevokesRefresh T w draw.now request stage' b) ∧
    (outcome = .answers (.revoked (.ok ())) → FamilyDead tables'.db b.familyId draw.now) := by
  obtain ⟨token, hint, rfl⟩ := h.isQuery
  have hgoesOn : ∀ {stage' : TokenStage}, stage'.awaiting = none →
      (∀ row, stage' = .found row → row.id = b.id) →
      (∀ now' rest, stage' = .missed now' rest → now' ≤ draw.now ∧
        ∀ r ∈ w.db.refreshTokens, r.id = b.id → r.tokenHash ≠ none →
          RefreshTokens.live now' r = false) →
      (.refreshToken ∈ stage'.remaining ∨ FamilyDead w.db b.familyId draw.now) →
      RevokesRefresh T w draw.now (.query .revoke b.clientId token hint) stage' b :=
    fun hawaiting hfound hmissed hpending => ⟨h.isQuery, h.unsigned, h.entry, h.only, h.rowOf,
      hawaiting, hfound, hmissed, hpending⟩
  have hpassed : ∀ {rest : List TokenKind},
      .refreshToken ∈ rest ∨ FamilyDead w.db b.familyId draw.now →
      (∀ stage', TokenUse.revoke.nextKind rest = .goesOn stage' →
        RevokesRefresh T w draw.now (.query .revoke b.clientId token hint) stage' b) ∧
      (TokenUse.revoke.nextKind rest = .answers (.revoked (.ok ())) →
        FamilyDead w.db b.familyId draw.now) := by
    intro rest hpending
    constructor
    · intro stage' hnext
      obtain ⟨kind, rest', rfl, rfl⟩ := nextKind_goesOn hnext
      exact hgoesOn rfl (fun _ hfound => by cases hfound) (fun _ _ hmissed => by cases hmissed)
        hpending
    · intro hnext
      obtain ⟨rfl, -⟩ := nextKind_answers hnext
      exact hpending.resolve_left List.not_mem_nil
  have hbinding : ∀ {row : RefreshTokenRow} {now' : DateTime}, Finds T w.db token now' row →
      row.binding = b :=
    fun hfinds => binding_of_issued hd (hfinds.issued hd) h.entry
  cases hstep with
  | accessRefused =>
    refine hpassed ?_
    rcases h.pending with hpending | hdead
    · exact .inl ((List.mem_cons.mp hpending).resolve_left (by decide))
    · exact .inr (hdead.later hle)
  | accessVerified hsigned =>
    have hunsigned : T.signedClaims w.db token = none := h.unsigned
    cases hsigned.symm.trans hunsigned
  | hashFound hfinds | scanFound hfinds =>
    refine ⟨fun stage' hnext => ?_, (fun hnext => by cases hnext)⟩
    cases hnext
    refine hgoesOn rfl (fun row hfound => ?_) (fun _ _ hmissed => by cases hmissed)
      (.inl List.mem_cons_self)
    cases hfound
    exact congrArg Binding.id (hbinding hfinds)
  | hashOther hfinds hclient | scanOther hfinds hclient =>
    exact absurd (congrArg Binding.clientId (hbinding hfinds)) hclient
  | hashMissed hnone =>
    refine ⟨fun stage' hnext => ?_, (fun hnext => by cases hnext)⟩
    cases hnext
    refine hgoesOn rfl (fun _ hfound => by cases hfound) (fun now' rest hmissed => ?_)
      (.inl List.mem_cons_self)
    cases hmissed
    refine ⟨le_rfl, fun r hr hid hhashed => ?_⟩
    have hrow := h.rowOf r hr hid
    have hnotNull : r.tokenHash.isNone = false := by simpa [Option.isSome_iff_ne_none] using hhashed
    rw [RefreshTokens.isRowOf, hnotNull, Bool.false_and, Bool.or_false, beq_iff_eq] at hrow
    exact RefreshTokens.not_live_of_findByHash hnone hr hrow
  | scanMissed hnone =>
    have hdead := h.dead_of_missed rfl hnone ((h.missed _ _ rfl).1.trans hle)
    exact hpassed (.inr hdead)
  | denyFailed => exact ⟨(fun _ hnext => by cases hnext), (fun hnext => by cases hnext)⟩
  | denied => cases h.awaiting
  | @rowRevoked _ _ _ row =>
    refine ⟨(fun _ hnext => by cases hnext), fun _ => ?_⟩
    rw [h.found row rfl]
    exact dead_of_revoke h.only draw.now draw.now
  | ignored => exact ⟨(fun _ hnext => by cases hnext), (fun hnext => by cases hnext)⟩

end Refresh

/-! ## Later calls -/

/-- Where a later call for a revoked access token stands. -/
structure LateAccess (denyList : DenyList) (claims : AccessTokenClaims) (stage : TokenStage) :
    Prop where
  notPermitted : ∀ claims', stage ≠ .permitted claims'
  notFound : ∀ row, stage ≠ .found row
  awaiting : ∀ claims' ∈ stage.awaiting,
    claims' = claims ∧ RevokedAccessTokens.isRevoked denyList claims.jti = true

/-- Where a later call stands after a refresh token has been revoked. -/
structure LateFamily (since : DateTime) (token : String) (f : FamilyId) (request : TokenRequest)
    (stage : TokenStage) : Prop where
  found : ∀ row, stage = .found row → row.familyId ≠ f
  missed : ∀ now rest, stage = .missed now rest → since ≤ now
  awaiting : request.isRevoke = true → request.token = token → stage.awaiting = none

section Late

variable {tables tables' : TokenTables} {draw : StepDraw} {request : TokenRequest}
  {stage : TokenStage} {outcome : TokenOutcome}

theorem LateAccess.advance {claims : AccessTokenClaims} {now : DateTime}
    (h : LateAccess tables.denyList claims stage)
    (hsigned : T.signedClaims tables.db request.token = some claims)
    (hgone : DeniedOrExpired tables.denyList claims now)
    (hapart : T.isBoth tables request.token = false) (hle : now ≤ draw.now)
    (hstep : TokenStep T tables draw request stage tables' outcome) :
    tables' = tables ∧
      (∀ stage', outcome = .goesOn stage' → LateAccess tables.denyList claims stage') ∧
      ∀ answer, outcome = .answers answer → answer.accepts = false := by
  have hdenied : timestamp draw.now ≤ claims.exp →
      RevokedAccessTokens.isRevoked tables.denyList claims.jti = true := by
    intro hexp
    rcases hgone with ⟨r, hr, hjti, -⟩ | hexpired
    · exact RevokedAccessTokens.isRevoked_iff.mpr ⟨r, hr, hjti⟩
    · have hle' := timestamp_mono hle
      omega
  have hpassed : ∀ {use : TokenUse} {rest : List TokenKind},
      (∀ stage', use.nextKind rest = .goesOn stage' → LateAccess tables.denyList claims stage') ∧
      ∀ answer, use.nextKind rest = .answers answer → answer.accepts = false := by
    intro use rest
    refine ⟨fun stage' hnext => ?_, fun answer hnext => (nextKind_answers hnext).2⟩
    obtain ⟨kind, rest', rfl, rfl⟩ := nextKind_goesOn hnext
    exact ⟨(fun _ hc => by cases hc), (fun _ hc => by cases hc), (fun _ hc => by cases hc)⟩
  have hverified : ∀ {rest : List TokenKind}, timestamp draw.now ≤ claims.exp →
      LateAccess tables.denyList claims (.verified claims rest) := by
    intro rest hexp
    exact ⟨(fun _ hc => by cases hc), (fun _ hc => by cases hc),
      fun claims' hc => ⟨(Option.some.inj hc).symm, hdenied hexp⟩⟩
  cases hstep with
  | accessRefused | scanMissed | introspectDenied => exact ⟨rfl, hpassed⟩
  | accessVerified hsigned' hexp =>
    cases hsigned.symm.trans hsigned'
    refine ⟨rfl, fun stage' hnext => ?_, (fun _ hnext => by cases hnext)⟩
    cases hnext
    exact hverified hexp
  | hashFound hfinds | hashOther hfinds | scanFound hfinds | scanOther hfinds =>
    cases hsigned.symm.trans (not_signed_of_isRowOf hapart hfinds.mem hfinds.isRowOf)
  | hashMissed =>
    refine ⟨rfl, fun stage' hnext => ?_, (fun _ hnext => by cases hnext)⟩
    cases hnext
    exact ⟨(fun _ hc => by cases hc), (fun _ hc => by cases hc), (fun _ hc => by cases hc)⟩
  | @denied _ _ _ _ claims' denyList row hjti hexp hinsert =>
    obtain ⟨rfl, hrevoked⟩ := h.awaiting claims' rfl
    rw [← hjti] at hrevoked
    rw [RevokedAccessTokens.insert_of_isRevoked hrevoked] at hinsert
    cases hinsert
    exact ⟨rfl, (fun _ hnext => by cases hnext), (fun _ hnext => by cases hnext; rfl)⟩
  | introspectPermitted hnot | userinfoPermitted hnot =>
    obtain ⟨rfl, hrevoked⟩ := h.awaiting _ rfl
    rw [hrevoked] at hnot
    cases hnot
  | introspectAccess | userinfoAnswered => exact absurd rfl (h.notPermitted _)
  | rowRevoked | introspectRefresh => exact absurd rfl (h.notFound _)
  | userinfoVerified hverify =>
    obtain ⟨rfl, hexp⟩ := claims_unique hsigned hverify
    refine ⟨rfl, fun stage' hnext => ?_, (fun _ hnext => by cases hnext)⟩
    cases hnext
    exact hverified hexp
  | _ => exact ⟨rfl, (fun _ hnext => by cases hnext), (fun _ hnext => by cases hnext; rfl)⟩

theorem LateFamily.advance {w : World} (hd : Described T.P w) {since : DateTime} {token : String}
    {b : Binding} {denyList : DenyList} (h : LateFamily since token b.familyId request stage)
    (hentry : ∃ i ∈ w.issued, i.binding = b ∧ i.hash = T.P.sha256 (utf8 token))
    (hunsigned : T.signedClaims w.db token = none) (hdead : FamilyDead w.db b.familyId since)
    (hfound : ∀ row, stage = .found row →
      ∃ i ∈ w.issued, i.binding = row.binding ∧ i.hash = T.P.sha256 (utf8 request.token))
    (hle : since ≤ draw.now)
    (hstep : TokenStep T ⟨w.db, denyList⟩ draw request stage tables' outcome) :
    (∀ stage', outcome = .goesOn stage' → LateFamily since token b.familyId request stage') ∧
      (request.isRevoke = true → request.token = token → tables' = ⟨w.db, denyList⟩) ∧
      ∀ answer, outcome = .answers answer → answer.acceptsRefresh = true →
        ∃ row, stage = .found row := by
  have hpassed : ∀ {use : TokenUse} {rest : List TokenKind},
      ∀ stage', use.nextKind rest = .goesOn stage' →
        LateFamily since token b.familyId request stage' := by
    intro use rest stage' hnext
    obtain ⟨kind, rest', rfl, rfl⟩ := nextKind_goesOn hnext
    exact ⟨(fun _ hc => by cases hc), (fun _ _ hc => by cases hc), fun _ _ => rfl⟩
  have hrefused : ∀ {use : TokenUse} {rest : List TokenKind} {answer : TokenAnswer},
      use.nextKind rest = .answers answer → answer.acceptsRefresh = true →
        ∃ row, stage = .found row := by
    intro use rest answer hnext haccepts
    obtain ⟨rfl, -⟩ := nextKind_answers hnext
    cases use <;> cases hnext <;> cases haccepts
  have hlive : ∀ {row : RefreshTokenRow} {now : DateTime} {token' : String}, since ≤ now →
      Finds T w.db token' now row → LateFamily since token b.familyId request (.found row) := by
    intro row now token' hle' hfinds
    refine ⟨fun row' hc hfamily => ?_, (fun _ _ hc => by cases hc), fun _ _ => rfl⟩
    cases hc
    have hlive := live_earlier hle' hfinds.live
    rw [hdead row hfinds.mem hfamily] at hlive
    cases hlive
  cases hstep with
  | accessRefused | hashOther | scanOther | scanMissed | introspectDenied =>
    exact ⟨hpassed, fun _ _ => rfl, fun _ hnext haccepts => hrefused hnext haccepts⟩
  | accessVerified hsigned =>
    refine ⟨fun stage' hnext => ?_, fun _ _ => rfl, (fun _ hnext => by cases hnext)⟩
    cases hnext
    refine ⟨(fun _ hc => by cases hc), (fun _ _ hc => by cases hc), fun _ htoken => ?_⟩
    obtain rfl := htoken
    cases hsigned.symm.trans hunsigned
  | hashFound hfinds =>
    refine ⟨fun stage' hnext => ?_, fun _ _ => rfl, (fun _ hnext => by cases hnext)⟩
    cases hnext
    exact hlive hle hfinds
  | hashMissed =>
    refine ⟨fun stage' hnext => ?_, fun _ _ => rfl, (fun _ hnext => by cases hnext)⟩
    cases hnext
    exact ⟨(fun _ hc => by cases hc), (fun _ _ hc => by cases hc; exact hle), fun _ _ => rfl⟩
  | scanFound hfinds =>
    refine ⟨fun stage' hnext => ?_, fun _ _ => rfl, (fun _ hnext => by cases hnext)⟩
    cases hnext
    exact hlive (h.missed _ _ rfl) hfinds
  | denied =>
    refine ⟨(fun _ hnext => by cases hnext), fun hrevoke htoken => ?_,
      (fun _ hnext haccepts => by cases hnext; cases haccepts)⟩
    cases h.awaiting hrevoke htoken
  | rowRevoked =>
    refine ⟨(fun _ hnext => by cases hnext), fun _ htoken => ?_,
      (fun _ hnext haccepts => by cases hnext; cases haccepts)⟩
    have hissued := hfound _ rfl
    rw [htoken] at hissued
    have hbinding := binding_of_issued hd hissued hentry
    exact absurd (congrArg Binding.familyId hbinding) (h.found _ rfl)
  | introspectRefresh =>
    exact ⟨(fun _ hnext => by cases hnext), fun _ _ => rfl, fun _ _ _ => ⟨_, rfl⟩⟩
  | introspectPermitted | userinfoVerified | userinfoPermitted =>
    refine ⟨fun stage' hnext => ?_, (fun hrevoke => by cases hrevoke),
      (fun _ hnext => by cases hnext)⟩
    cases hnext
    exact ⟨(fun _ hc => by cases hc), (fun _ _ hc => by cases hc),
      (fun hrevoke => by cases hrevoke)⟩
  | _ =>
    exact ⟨(fun _ hnext => by cases hnext), fun _ _ => rfl,
      (fun _ hnext haccepts => by cases hnext; cases haccepts)⟩

end Late

end SuiId
