import SuiId.Proofs.RefreshRows

/-!
# Steps of introspection and revocation

`TokenStep` lists what one access of a call can find and leave, with the facts that later arguments
use; they are case analyses on it, never on `TokenServer.advance`.

* `verifyAccessToken_ok` splits verification into a part that only the signing keys decide
  (`signedClaims`) and the expiry; `claims_unique` says that the claims depend on the token alone.
* `callAlone_answers`: an uninterrupted call ends.
* `callAlone_hint`: what it leaves and answers does not depend on its hint.
-/

namespace SuiId

open Lib Lib.Result

/-! ## Verification -/

theorem jwtVerify_claims {claims : Type} {J : JwtPackages} {parse : Bytes → Option claims}
    {token : String} {resolver resolver' : String → Option Bytes} {d d' : Decoded claims}
    (hok : jwtVerify J parse token resolver = .ok d)
    (hok' : jwtVerify J parse token resolver' = .ok d') : d.claims = d'.claims := by
  unfold jwtVerify at hok hok'
  split at hok
  · rename_i hparts
    rw [hparts] at hok'
    simp only [bind_eq_ok, require_eq_ok, ensure_eq_ok, pure_eq_ok] at hok hok'
    obtain ⟨-, -, -, -, -, -, -, -, -, -, -, -, -, -, payload, hpayload, c, hc, rfl⟩ := hok
    obtain ⟨-, -, -, -, -, -, -, -, -, -, -, -, -, -, payload', hpayload', c', hc', rfl⟩ := hok'
    rw [hpayload] at hpayload'
    cases hpayload'
    rw [hc] at hc'
    exact Option.some.inj hc'
  · cases hok

/-- The claims of a token that a published key has signed. -/
def TokenServer.signedClaims (T : TokenServer) (db : Database) (token : String) :
    Option AccessTokenClaims :=
  (verifyFromSnapshot T.J T.J.parseAccessTokenClaims (publishedKeys db) token).toOption.map
    (·.claims)

/-- Is the string both a signed access token and a stored refresh token? -/
def TokenServer.isBoth (T : TokenServer) (tables : TokenTables) (token : String) : Bool :=
  (T.signedClaims tables.db token).isSome &&
    tables.db.refreshTokens.rows.any (RefreshTokens.isRowOf T.P T.key (utf8 token))

variable {T : TokenServer} {tables : TokenTables} {token : String} {claims : AccessTokenClaims}
  {now : DateTime}

theorem verifyAccessTokenWith_ok {keys : List CachedSigningKey} :
    verifyAccessTokenWith T.J keys now token = .ok claims ↔
      ∃ d, verifyFromSnapshot T.J T.J.parseAccessTokenClaims keys token = .ok d ∧
        timestamp now ≤ d.claims.exp ∧ d.claims = claims := by
  simp only [verifyAccessTokenWith, bind_eq_ok, ensure_eq_ok, pure_eq_ok, Bool.not_eq_true',
    decide_eq_false_iff_not, Int.not_lt, exists_const]

variable {db : Database} {stage : TokenStage}

theorem signedClaims_eq_some :
    T.signedClaims db token = some claims ↔
      ∃ d, verifyFromSnapshot T.J T.J.parseAccessTokenClaims (publishedKeys db) token = .ok d ∧
        d.claims = claims := by
  unfold TokenServer.signedClaims
  cases verifyFromSnapshot T.J T.J.parseAccessTokenClaims (publishedKeys db) token with
  | error e => simp [Except.toOption]
  | ok d => simp [Except.toOption]

theorem verifyAccessToken_ok :
    verifyAccessToken T.J db now token = .ok claims ↔
      T.signedClaims db token = some claims ∧ timestamp now ≤ claims.exp := by
  rw [signedClaims_eq_some]
  constructor
  · intro h
    obtain ⟨d, hd, hexp, rfl⟩ := verifyAccessTokenWith_ok.mp h
    exact ⟨⟨d, hd, rfl⟩, hexp⟩
  · rintro ⟨⟨d, hd, rfl⟩, hexp⟩
    exact verifyAccessTokenWith_ok.mpr ⟨d, hd, hexp, rfl⟩

/-- A cached key list reads the same claims. -/
theorem claims_unique {keys : List CachedSigningKey} {claims' : AccessTokenClaims}
    (h : T.signedClaims db token = some claims)
    (h' : verifyAccessTokenWith T.J keys now token = .ok claims') :
    claims' = claims ∧ timestamp now ≤ claims.exp := by
  obtain ⟨d, hd, rfl⟩ := signedClaims_eq_some.mp h
  obtain ⟨d', hd', hexp, rfl⟩ := verifyAccessTokenWith_ok.mp h'
  have hclaims : d'.claims = d.claims := jwtVerify_claims hd' hd
  rw [← hclaims]
  exact ⟨rfl, hexp⟩

theorem signedClaims_congr {db' : Database} (h : db'.signingKeys = db.signingKeys) :
    T.signedClaims db' token = T.signedClaims db token := by
  have hkeys : publishedKeys db' = publishedKeys db := by
    unfold publishedKeys SigningKeys.listPublished
    rw [h]
  rw [TokenServer.signedClaims, hkeys, TokenServer.signedClaims]

/-- No row is stored for a signed token. -/
theorem not_isRowOf_of_signed (hapart : T.isBoth tables token = false)
    (hsigned : (T.signedClaims tables.db token).isSome = true) {r : RefreshTokenRow}
    (hr : r ∈ tables.db.refreshTokens) :
    RefreshTokens.isRowOf T.P T.key (utf8 token) r = false := by
  rw [TokenServer.isBoth, hsigned, Bool.true_and, List.any_eq_false] at hapart
  exact Bool.eq_false_iff.mpr (hapart r hr)

theorem not_signed_of_isRowOf (hapart : T.isBoth tables token = false) {r : RefreshTokenRow}
    (hr : r ∈ tables.db.refreshTokens)
    (hrow : RefreshTokens.isRowOf T.P T.key (utf8 token) r = true) :
    T.signedClaims tables.db token = none := by
  cases hsigned : T.signedClaims tables.db token with
  | none => rfl
  | some claims =>
    rw [not_isRowOf_of_signed hapart (by rw [hsigned]; rfl) hr] at hrow
    cases hrow

/-! ## One step -/

/-- A row that `find_active` finds at this time. -/
structure Finds (T : TokenServer) (db : Database) (token : String) (now : DateTime)
    (row : RefreshTokenRow) : Prop where
  mem : row ∈ db.refreshTokens
  isRowOf : RefreshTokens.isRowOf T.P T.key (utf8 token) row = true
  live : RefreshTokens.live now row = true

/-- What one access of a call can find and leave. -/
inductive TokenStep (T : TokenServer) (tables : TokenTables) (draw : StepDraw) :
    TokenRequest → TokenStage → TokenTables → TokenOutcome → Prop where
  | accessRefused {use : TokenUse} {client : ClientId} {token : String} {hint : Option String}
      {rest} (hrefused : ∀ claims, T.signedClaims tables.db token = some claims →
        T.parseId claims.aud = some client → claims.exp < timestamp draw.now) :
      TokenStep T tables draw (.query use client token hint) (.trying .accessToken rest) tables
        (use.nextKind rest)
  | accessBroken {client : ClientId} {token : String} {hint : Option String} {rest}
      {claims : AccessTokenClaims} (hsigned : T.signedClaims tables.db token = some claims)
      (haudience : T.parseId claims.aud = none) :
      TokenStep T tables draw (.query .introspect client token hint) (.trying .accessToken rest)
        tables (.answers (.introspected (.error .internal)))
  | accessVerified {use : TokenUse} {client : ClientId} {token : String} {hint : Option String}
      {rest} {claims : AccessTokenClaims} (hsigned : T.signedClaims tables.db token = some claims)
      (hexp : timestamp draw.now ≤ claims.exp) :
      TokenStep T tables draw (.query use client token hint) (.trying .accessToken rest) tables
        (.goesOn (.verified claims rest))
  | hashFound {use : TokenUse} {client : ClientId} {token : String} {hint : Option String} {rest}
      {row : RefreshTokenRow}
      (hfinds : Finds T tables.db token draw.now row) (hclient : row.clientId = client) :
      TokenStep T tables draw (.query use client token hint) (.trying .refreshToken rest) tables
        (.goesOn (.found row))
  | hashOther {use : TokenUse} {client : ClientId} {token : String} {hint : Option String} {rest}
      {row : RefreshTokenRow}
      (hfinds : Finds T tables.db token draw.now row) (hclient : row.clientId ≠ client) :
      TokenStep T tables draw (.query use client token hint) (.trying .refreshToken rest) tables
        (use.nextKind rest)
  | hashMissed {use : TokenUse} {client : ClientId} {token : String} {hint : Option String} {rest}
      (hnone : RefreshTokens.findActiveByHash T.P tables.db draw.now (utf8 token) = none) :
      TokenStep T tables draw (.query use client token hint) (.trying .refreshToken rest) tables
        (.goesOn (.missed draw.now rest))
  | scanFound {use : TokenUse} {client : ClientId} {token : String} {hint : Option String} {rest}
      {now : DateTime} {row : RefreshTokenRow}
      (hfinds : Finds T tables.db token now row) (hclient : row.clientId = client) :
      TokenStep T tables draw (.query use client token hint) (.missed now rest) tables
        (.goesOn (.found row))
  | scanOther {use : TokenUse} {client : ClientId} {token : String} {hint : Option String} {rest}
      {now : DateTime} {row : RefreshTokenRow}
      (hfinds : Finds T tables.db token now row) (hclient : row.clientId ≠ client) :
      TokenStep T tables draw (.query use client token hint) (.missed now rest) tables
        (use.nextKind rest)
  | scanMissed {use : TokenUse} {client : ClientId} {token : String} {hint : Option String} {rest}
      {now : DateTime}
      (hnone : RefreshTokens.findActiveByScan T.P T.key tables.db now (utf8 token) = none) :
      TokenStep T tables draw (.query use client token hint) (.missed now rest) tables
        (use.nextKind rest)
  | denyFailed {client : ClientId} {token : String} {hint : Option String} {rest}
      {claims : AccessTokenClaims} {error} :
      TokenStep T tables draw (.query .revoke client token hint) (.verified claims rest) tables
        (.answers (.revoked (.error error)))
  | denied {client : ClientId} {token : String} {hint : Option String} {rest}
      {claims : AccessTokenClaims} {denyList} {row : RevokedAccessTokenRow}
      (hjti : row.jti = claims.jti) (hexp : row.exp = seconds claims.exp)
      (hinsert : RevokedAccessTokens.insert tables.denyList tables.db row = .ok denyList) :
      TokenStep T tables draw (.query .revoke client token hint) (.verified claims rest)
        { tables with denyList } (.answers (.revoked (.ok ())))
  | introspectDenied {client : ClientId} {token : String} {hint : Option String} {rest}
      {claims : AccessTokenClaims} :
      TokenStep T tables draw (.query .introspect client token hint) (.verified claims rest) tables
        (TokenUse.introspect.nextKind rest)
  | introspectPermitted {client : ClientId} {token : String} {hint : Option String} {rest}
      {claims : AccessTokenClaims}
      (hnot : RevokedAccessTokens.isRevoked tables.denyList claims.jti = false) :
      TokenStep T tables draw (.query .introspect client token hint) (.verified claims rest) tables
        (.goesOn (.permitted claims))
  | introspectAccess {client : ClientId} {token : String} {hint : Option String}
      {claims : AccessTokenClaims} :
      TokenStep T tables draw (.query .introspect client token hint) (.permitted claims) tables
        (.answers (.introspected (.ok (activeFromAccess T tables claims))))
  | rowRevoked {client : ClientId} {token : String} {hint : Option String} {row : RefreshTokenRow} :
      TokenStep T tables draw (.query .revoke client token hint) (.found row)
        { tables with db := RefreshTokens.revoke tables.db row.id draw.now }
        (.answers (.revoked (.ok ())))
  | introspectRefresh {client : ClientId} {token : String} {hint : Option String} {row} :
      TokenStep T tables draw (.query .introspect client token hint) (.found row) tables
        (.answers (.introspected (.ok (activeFromRefresh tables row))))
  | userinfoRefused {token : String} {stage error} :
      TokenStep T tables draw (.userinfo token) stage tables (.answers (.userinfo (.error error)))
  | userinfoVerified {token : String} {rest} {claims : AccessTokenClaims}
      (hverify : verifyAccessTokenWith T.J draw.keys draw.now token = .ok claims) :
      TokenStep T tables draw (.userinfo token) (.trying .accessToken rest) tables
        (.goesOn (.verified claims rest))
  | userinfoPermitted {token : String} {rest} {claims : AccessTokenClaims}
      (hnot : RevokedAccessTokens.isRevoked tables.denyList claims.jti = false) :
      TokenStep T tables draw (.userinfo token) (.verified claims rest) tables
        (.goesOn (.permitted claims))
  | userinfoAnswered {token : String} {claims : AccessTokenClaims} :
      TokenStep T tables draw (.userinfo token) (.permitted claims) tables
        (.answers (.userinfo (userinfoAnswer T tables claims)))
  | ignored {request stage} :
      TokenStep T tables draw request stage tables (.answers .ignored)

private theorem verifyQuery_step (draw : StepDraw) (use : TokenUse) (client : ClientId)
    (token : String) (hint : Option String) (rest : List TokenKind) :
    TokenStep T tables draw (.query use client token hint) (.trying .accessToken rest) tables
      (verifyQuery T tables use client token rest draw.now) := by
  unfold verifyQuery
  split
  · rename_i error hverify
    refine .accessRefused fun claims hsigned _ => ?_
    by_contra hexp
    rw [verifyAccessToken_ok.mpr ⟨hsigned, Int.not_lt.mp hexp⟩] at hverify
    cases hverify
  · rename_i claims hverify
    obtain ⟨hsigned, hexp⟩ := verifyAccessToken_ok.mp hverify
    split
    · rename_i haudience
      exact .accessBroken hsigned haudience
    · split
      · exact .accessVerified hsigned hexp
      · rename_i hother
        refine .accessRefused fun claims' hsigned' haudience => ?_
        rw [hsigned] at hsigned'
        cases hsigned'
        exact absurd haudience hother

private theorem denyClaims_step (draw : StepDraw) (client : ClientId) (token : String)
    (hint : Option String) (claims : AccessTokenClaims) (rest : List TokenKind) :
    TokenStep T tables draw (.query .revoke client token hint) (.verified claims rest)
      (denyClaims T tables client claims draw.now).1
      (denyClaims T tables client claims draw.now).2 := by
  unfold denyClaims
  split
  · exact .denyFailed
  · rename_i exp hexp
    have hseconds : exp = seconds claims.exp := by
      unfold fromTimestamp at hexp
      split at hexp
      · exact (Option.some.inj hexp).symm
      · cases hexp
    dsimp only
    split
    · rename_i denyList hinsert
      exact .denied rfl hseconds hinsert
    · exact .denyFailed

/-- Every step is one of these. -/
theorem advance_step (tables : TokenTables) (draw : StepDraw) (request : TokenRequest)
    (stage : TokenStage) :
    TokenStep T tables draw request stage (T.advance tables draw request stage).1
      (T.advance tables draw request stage).2 := by
  unfold TokenServer.advance
  split
  · exact verifyQuery_step draw _ _ _ _ _
  · rename_i use client token hint rest
    split
    · rename_i row hfind
      obtain ⟨hmem, hrow, hlive⟩ := @RefreshTokens.active_of_findByHash T.P T.key _ _ _ _ hfind
      unfold TokenUse.foundRow
      split
      · exact .hashFound ⟨hmem, hrow, hlive⟩ ‹_›
      · exact .hashOther ⟨hmem, hrow, hlive⟩ ‹_›
    · exact .hashMissed ‹_›
  · rename_i use client token hint now rest
    split
    · rename_i row hfind
      obtain ⟨hmem, hrow, hlive⟩ := RefreshTokens.active_of_findByScan hfind
      unfold TokenUse.foundRow
      split
      · exact .scanFound ⟨hmem, hrow, hlive⟩ ‹_›
      · exact .scanOther ⟨hmem, hrow, hlive⟩ ‹_›
    · exact .scanMissed ‹_›
  · exact denyClaims_step draw _ _ _ _ _
  · split
    · exact .introspectDenied
    · exact .introspectPermitted (Bool.eq_false_iff.mpr ‹_›)
  · exact .introspectAccess
  · exact .rowRevoked
  · exact .introspectRefresh
  · split
    · exact .userinfoVerified ‹_›
    · exact .userinfoRefused
  · split
    · exact .userinfoRefused
    · exact .userinfoPermitted (Bool.eq_false_iff.mpr ‹_›)
  · exact .userinfoAnswered
  · exact .ignored

/-! ## A call by itself -/

/-- How many steps are left at most. -/
def TokenStage.stepsLeft : TokenStage → Nat
  | .trying _ rest => 3 * rest.length + 3
  | .missed _ rest => 3 * rest.length + 2
  | .verified _ rest => 3 * rest.length + 2
  | .permitted _ => 1
  | .found _ => 1

theorem stepsLeft_nextKind {use : TokenUse} {rest : List TokenKind}
    (h : use.nextKind rest = .goesOn stage) : stage.stepsLeft ≤ 3 * rest.length := by
  cases rest with
  | nil => cases use <;> cases h
  | cons kind rest =>
    cases h
    simp [TokenStage.stepsLeft]
    omega

/-- A step leaves fewer steps. -/
theorem TokenStep.stepsLeft_lt {draw : StepDraw} {request : TokenRequest} {tables' : TokenTables}
    {outcome : TokenOutcome} (h : TokenStep T tables draw request stage tables' outcome)
    {stage' : TokenStage} (hnext : outcome = .goesOn stage') :
    stage'.stepsLeft < stage.stepsLeft := by
  cases h with
  | accessRefused | hashOther | scanOther | scanMissed | introspectDenied =>
    refine lt_of_le_of_lt (stepsLeft_nextKind hnext) ?_
    simp [TokenStage.stepsLeft]
  | accessVerified | hashFound | hashMissed | scanFound | introspectPermitted | userinfoVerified
  | userinfoPermitted =>
    cases hnext
    simp only [TokenStage.stepsLeft]
    omega
  | _ => cases hnext

theorem runAlone_answers (times : TokenTimes) (keys : List CachedSigningKey)
    (request : TokenRequest) (n : Nat) (tables : TokenTables) (stage : TokenStage)
    (hn : stage.stepsLeft ≤ n) :
    ∃ answer, (runAlone T times keys request n tables stage).2 = .answers answer := by
  induction n generalizing tables stage with
  | zero => cases stage <;> simp [TokenStage.stepsLeft] at hn
  | succ n ih =>
    have hstep := advance_step (T := T) tables ⟨times.at stage, keys⟩ request stage
    rw [runAlone]
    split
    · rename_i tables' stage' hadvance
      rw [hadvance] at hstep
      have hlt := hstep.stepsLeft_lt rfl
      exact ih tables' stage' (by omega)
    · exact ⟨_, rfl⟩

/-- An uninterrupted call ends. -/
theorem callAlone_answers (times : TokenTimes) (keys : List CachedSigningKey)
    (tables : TokenTables) (request : TokenRequest) :
    ∃ answer, (callAlone T times keys tables request).2 = .answers answer := by
  refine runAlone_answers times keys request 6 tables _ ?_
  cases request with
  | query use client token hint =>
    simp only [TokenRequest.start]
    split <;> simp [TokenStage.stepsLeft]
  | userinfo token => simp [TokenRequest.start, TokenStage.stepsLeft]

section Order

variable {times : TokenTimes} {keys : List CachedSigningKey} {use : TokenUse} {client : ClientId}
  {hint hint' : Option String}

theorem advance_hint (draw : StepDraw) (stage : TokenStage) :
    T.advance tables draw (.query use client token hint) stage =
      T.advance tables draw (.query use client token hint') stage := by
  cases stage with
  | trying kind rest => cases use <;> cases kind <;> rfl
  | verified claims rest => cases use <;> rfl
  | permitted claims => cases use <;> rfl
  | missed now rest => cases use <;> rfl
  | found row => cases use <;> rfl

theorem runAlone_hint (n : Nat) (tables : TokenTables) (stage : TokenStage) :
    runAlone T times keys (.query use client token hint) n tables stage =
      runAlone T times keys (.query use client token hint') n tables stage := by
  induction n generalizing tables stage with
  | zero => rfl
  | succ n ih =>
    rw [runAlone, runAlone, @advance_hint T tables token use client hint hint']
    split
    · exact ih _ _
    · rfl

/-- A token that no key has signed is passed over as an access token. -/
private theorem verifyQuery_unsigned (hsigned : T.signedClaims tables.db token = none)
    (rest : List TokenKind) (now : DateTime) :
    verifyQuery T tables use client token rest now = use.nextKind rest := by
  unfold verifyQuery
  split
  · rfl
  · rename_i claims hok
    have hsome := (verifyAccessToken_ok.mp hok).1
    rw [hsigned] at hsome
    cases hsome

private theorem order_of_unsigned (hsigned : T.signedClaims tables.db token = none) :
    runAlone T times keys (.query use client token hint) 6 tables
        (.trying .accessToken [.refreshToken]) =
      runAlone T times keys (.query use client token hint) 6 tables
        (.trying .refreshToken [.accessToken]) := by
  have hverify := @verifyQuery_unsigned T tables token use client hsigned
  cases hhash : RefreshTokens.findActiveByHash T.P tables.db times.find (utf8 token) with
  | some row =>
    by_cases hclient : row.clientId = client <;> cases use <;>
      simp [runAlone, TokenServer.advance, TokenTimes.at, TokenUse.nextKind, TokenUse.foundRow,
        hverify, hhash, hclient]
  | none =>
    cases hscan : RefreshTokens.findActiveByScan T.P T.key tables.db times.find (utf8 token) with
    | some row =>
      by_cases hclient : row.clientId = client <;> cases use <;>
        simp [runAlone, TokenServer.advance, TokenTimes.at, TokenUse.nextKind, TokenUse.foundRow,
          hverify, hhash, hscan, hclient]
    | none =>
      cases use <;>
        simp [runAlone, TokenServer.advance, TokenTimes.at, TokenUse.nextKind, hverify, hhash,
          hscan]

private theorem denyClaims_answers (client : ClientId) (claims : AccessTokenClaims)
    (now : DateTime) :
    ∃ tables' answer, denyClaims T tables client claims now = (tables', .answers answer) := by
  unfold denyClaims
  split
  · exact ⟨_, _, rfl⟩
  · dsimp only
    split <;> exact ⟨_, _, rfl⟩

/-- A token that no row is stored for is passed over as a refresh token. -/
private theorem order_of_unstored
    (hnone : ∀ r ∈ tables.db.refreshTokens,
      RefreshTokens.isRowOf T.P T.key (utf8 token) r = false) :
    runAlone T times keys (.query use client token hint) 6 tables
        (.trying .accessToken [.refreshToken]) =
      runAlone T times keys (.query use client token hint) 6 tables
        (.trying .refreshToken [.accessToken]) := by
  have hhash : RefreshTokens.findActiveByHash T.P tables.db times.find (utf8 token) = none := by
    rw [Option.eq_none_iff_forall_ne_some]
    intro r hfind
    obtain ⟨hmem, hrow, -⟩ := @RefreshTokens.active_of_findByHash T.P T.key _ _ _ _ hfind
    rw [hnone r hmem] at hrow
    cases hrow
  have hscan : RefreshTokens.findActiveByScan T.P T.key tables.db times.find (utf8 token) =
      none := by
    rw [Option.eq_none_iff_forall_ne_some]
    intro r hfind
    obtain ⟨hmem, hrow, -⟩ := RefreshTokens.active_of_findByScan hfind
    rw [hnone r hmem] at hrow
    cases hrow
  cases hverify : verifyAccessToken T.J tables.db times.verify token with
  | error e =>
    cases use <;>
      simp [runAlone, TokenServer.advance, TokenTimes.at, verifyQuery, TokenUse.nextKind, hhash,
        hscan, hverify]
  | ok claims =>
    by_cases haudience : T.parseId claims.aud = some client
    · cases use with
      | revoke =>
        obtain ⟨tables', answer, hdeny⟩ :=
          @denyClaims_answers T tables client claims times.write
        simp [runAlone, TokenServer.advance, TokenTimes.at, verifyQuery, TokenUse.nextKind, hhash,
          hscan, hverify, haudience, hdeny]
      | introspect =>
        cases hdenied : RevokedAccessTokens.isRevoked tables.denyList claims.jti <;>
          simp [runAlone, TokenServer.advance, TokenTimes.at, verifyQuery, TokenUse.nextKind,
            hhash, hscan, hverify, haudience, hdenied]
    · cases hid : T.parseId claims.aud with
      | none =>
        cases use <;>
          simp [runAlone, TokenServer.advance, TokenTimes.at, verifyQuery, TokenUse.nextKind,
            hhash, hscan, hverify, hid]
      | some aud =>
        rw [hid] at haudience
        cases use <;>
          simp [runAlone, TokenServer.advance, TokenTimes.at, verifyQuery, TokenUse.nextKind,
            hhash, hscan, hverify, hid, haudience]

/-- What an uninterrupted call leaves and answers does not depend on its hint. -/
theorem callAlone_hint (hapart : T.isBoth tables token = false) (times : TokenTimes)
    (keys : List CachedSigningKey) (use : TokenUse) (client : ClientId)
    (hint hint' : Option String) :
    callAlone T times keys tables (.query use client token hint) =
      callAlone T times keys tables (.query use client token hint') := by
  have horder : runAlone T times keys (.query use client token hint) 6 tables
        (.trying .accessToken [.refreshToken]) =
      runAlone T times keys (.query use client token hint) 6 tables
        (.trying .refreshToken [.accessToken]) := by
    cases hsigned : T.signedClaims tables.db token with
    | none => exact order_of_unsigned hsigned
    | some claims =>
      exact order_of_unstored fun r hr => not_isRowOf_of_signed hapart (by rw [hsigned]; rfl) hr
  have hany : ∀ h, runAlone T times keys (.query use client token hint) 6 tables
      (TokenRequest.query use client token h).start =
        runAlone T times keys (.query use client token hint) 6 tables
          (.trying .refreshToken [.accessToken]) := by
    intro h
    simp only [TokenRequest.start]
    split
    · rfl
    · exact horder
  unfold callAlone
  have hsame : runAlone T times keys (.query use client token hint') 6 tables
      (TokenRequest.query use client token hint').start =
        runAlone T times keys (.query use client token hint) 6 tables
          (TokenRequest.query use client token hint').start := runAlone_hint 6 tables _
  rw [hany hint, hsame, hany hint']

end Order

end SuiId
