import SuiId.Core.SignedTokens

/-!
# The two kinds of tokens

Access tokens and ID tokens are signed with the same keys under the same header.  A reader of one
kind accepts the other if the members that it requires are there: `scope` keeps ID tokens out of
`verify_access_token`, but nothing keeps access tokens out of `verify_id_token`.

`TokenUnforged` says that only texts that were issued verify.  `exists_issued` turns that into the
claims: what was read is what was written, because the two segments determine the document.
-/

namespace SuiId

open Lib Lib.Result

/-! ## Reading what was written -/

section Claims

/-- The fields of an ID token; some of them may be missing. -/
private def idTokenFields (c : IdTokenClaims) : List (String × Option Json) :=
  [("iss", some (.string c.iss)), ("sub", some (.string c.sub)), ("aud", some (.string c.aud)),
    ("iat", some (.ofInt c.iat)), ("exp", some (.ofInt c.exp)), ("nonce", c.nonce.map .string),
    ("jti", some (.string c.jti)), ("acr", c.acr.map .string),
    ("amr", c.amr.map fun amr => .array (amr.map .string)), ("email", c.email.map .string),
    ("email_verified", c.emailVerified.map .bool)]

private theorem skipNone_eq (name : String) (v : Option Json) :
    skipNone name v = Json.present [(name, v)] := by
  cases v <;> rfl

private theorem toJson_eq (c : IdTokenClaims) :
    c.toJson = .object (Json.present (idTokenFields c)) := by
  have hfixed : ([("iss", .string c.iss), ("sub", .string c.sub), ("aud", .string c.aud),
      ("iat", .ofInt c.iat), ("exp", .ofInt c.exp)] : List (String × Json)) =
    Json.present ((idTokenFields c).take 5) := rfl
  have hjti : [("jti", Json.string c.jti)] = Json.present [("jti", some (.string c.jti))] := rfl
  rw [IdTokenClaims.toJson, hfixed, hjti]
  simp only [skipNone_eq, ← Json.present_append]
  rfl

private theorem idTokenFields_nodup (c : IdTokenClaims) :
    ((idTokenFields c).map (·.1)).Nodup := by
  show ["iss", "sub", "aud", "iat", "exp", "nonce", "jti", "acr", "amr", "email",
    "email_verified"].Nodup
  decide

theorem AccessTokenClaims.ofJson_toJson {c : AccessTokenClaims} (hiat : InI64 c.iat)
    (hexp : InI64 c.exp) : ofJson c.toJson = some c := by
  have hiat' := Json.asInt?_ofInt hiat.1 hiat.2
  have hexp' := Json.asInt?_ofInt hexp.1 hexp.2
  rw [toJson, ofJson, Json.record_of_nodup (by
    show ["iss", "sub", "aud", "iat", "exp", "scope", "jti"].Nodup
    decide)]
  simp [Json.lookup, hiat', hexp', Json.asStr?]

/-- An ID token has no `scope`. -/
theorem AccessTokenClaims.ofJson_idToken (c : IdTokenClaims) : ofJson c.toJson = none := by
  have hmissing : "scope" ∉ (idTokenFields c).map (·.1) := by
    show "scope" ∉ ["iss", "sub", "aud", "iat", "exp", "nonce", "jti", "acr", "amr", "email",
      "email_verified"]
    decide
  have hscope := Json.lookup_present_of_notMem hmissing
  have hnames := (idTokenFields_nodup c).sublist (Json.names_present _)
  rw [toJson_eq, ofJson, Json.record_of_nodup hnames]
  simp [hscope]

theorem JwtHeader.ofJson_jwtHeader (kid : String) :
    ofJson (jwtHeader kid) = some ⟨"EdDSA", kid⟩ := by
  rw [jwtHeader, ofJson, Json.record_of_nodup (by
    show ["alg", "typ", "kid"].Nodup
    decide)]
  simp [Json.lookup, Json.asStr?]

variable {α : Type}

private theorem optional_map {read : Json → Option α} {write : α → Json} {x : Option α}
    (hnull : ∀ a, write a ≠ .null) (hread : ∀ a, read (write a) = some a) :
    Json.optional read (x.map write) = some x := by
  cases x with
  | none => rfl
  | some a =>
    rw [Option.map_some]
    unfold Json.optional
    split
    · rename_i h
      cases h
    · rename_i h
      exact absurd (Option.some.inj h) (hnull a)
    · rename_i v hv h
      rw [← Option.some.inj h, hread, Option.map_some]

private theorem bind_intro {β : Type} {x : Option α} {a : α} {f : α → Option β} {b : β}
    (hx : x = some a) (hf : f a = some b) : x >>= f = some b := by
  rw [hx]
  exact hf

theorem IdTokenClaims.ofJson_toJson {c : IdTokenClaims} (hiat : InI64 c.iat)
    (hexp : InI64 c.exp) : ofJson c.toJson = some c := by
  have hstring : ∀ x : Option String, Json.optional Json.asStr? (x.map .string) = some x :=
    fun x => optional_map (fun a h => by cases h) fun a => rfl
  have hbool : Json.optional Json.asBool? (c.emailVerified.map .bool) = some c.emailVerified :=
    optional_map (fun a h => by cases h) fun a => rfl
  have hamr : Json.optional Json.asStrings? (c.amr.map fun amr => .array (amr.map .string)) =
      some c.amr := optional_map (fun a h => by cases h) Json.asStrings?_strings
  have hfield : ∀ k (hk : k < 11), Json.lookup (idTokenFields c)[k].1
      (Json.present (idTokenFields c)) = (idTokenFields c)[k].2 := fun k hk =>
    Json.lookup_present (idTokenFields_nodup c) (List.getElem_mem hk)
  have hnames := (idTokenFields_nodup c).sublist (Json.names_present _)
  rw [toJson_eq]
  refine bind_intro (Json.record_of_nodup hnames) ?_
  refine bind_intro (congrArg (Option.bind · Json.asStr?) (hfield 0 (by omega))) ?_
  refine bind_intro (congrArg (Option.bind · Json.asStr?) (hfield 1 (by omega))) ?_
  refine bind_intro (congrArg (Option.bind · Json.asStr?) (hfield 2 (by omega))) ?_
  refine bind_intro ((congrArg (Option.bind · Json.asInt?) (hfield 3 (by omega))).trans
    (Json.asInt?_ofInt hiat.1 hiat.2)) ?_
  refine bind_intro ((congrArg (Option.bind · Json.asInt?) (hfield 4 (by omega))).trans
    (Json.asInt?_ofInt hexp.1 hexp.2)) ?_
  refine bind_intro ((congrArg (Json.optional Json.asStr?) (hfield 5 (by omega))).trans
    (hstring _)) ?_
  refine bind_intro (congrArg (Option.bind · Json.asStr?) (hfield 6 (by omega))) ?_
  refine bind_intro ((congrArg (Json.optional Json.asStr?) (hfield 7 (by omega))).trans
    (hstring _)) ?_
  refine bind_intro ((congrArg (Json.optional Json.asStrings?) (hfield 8 (by omega))).trans hamr) ?_
  refine bind_intro ((congrArg (Json.optional Json.asStr?) (hfield 9 (by omega))).trans
    (hstring _)) ?_
  refine bind_intro ((congrArg (Json.optional Json.asBool?) (hfield 10 (by omega))).trans hbool) ?_
  rfl

end Claims

/-! ## The parts of a token -/

/-- The text that a token's signature is about: its first two segments. -/
def signedPart (token : String) : Option String :=
  match Text.split token '.' with
  | [h, p, _] => some (h ++ "." ++ p)
  | _ => none

def tokenSignature (token : String) : Option Bytes :=
  match Text.split token '.' with
  | [_, _, s] => Base64Url.decode s
  | _ => none

section Parts

variable {J : JwtCrates} {token h p s kid kid' : String} {v v' : Json}

private theorem toList_of_split (hsplit : Text.split token '.' = [h, p, s]) :
    token.toList = h.toList ++ '.' :: (p.toList ++ '.' :: s.toList) := by
  have hback := @List.intercalate_splitOn Char token.toList _ _ '.'
  have hpieces : token.toList.splitOn '.' = [h.toList, p.toList, s.toList] := by
    have hmap := congrArg (List.map String.toList) hsplit
    rw [Text.split, List.map_map] at hmap
    rw [← List.map_id (token.toList.splitOn '.'), ← List.map_congr_left fun l _ =>
      String.toList_ofList]
    exact hmap
  rw [← hback, hpieces]
  simp [List.intercalate]

/-- The two segments of a text that was signed determine its payload. -/
theorem payload_of_signedPart (hsplit : Text.split token '.' = [h, p, s])
    (hinput : h ++ "." ++ p = signingInput J kid v) : Base64Url.decode p = some (J.write v) := by
  have htoken := toList_of_split hsplit
  have hdot : ∀ bytes, '.' ∉ (Base64Url.encode bytes).toList := fun bytes h =>
    (Base64Url.range_of_mem_alphabet (Base64Url.mem_alphabet h)).2.2 rfl
  have hchars : h.toList ++ '.' :: p.toList = (Base64Url.encode (J.write (jwtHeader kid))).toList ++
      '.' :: (Base64Url.encode (J.write v)).toList := by
    have htoList := congrArg String.toList hinput
    simpa [signingInput, String.toList_append] using htoList
  have hsplit' : Text.split token '.' = [Base64Url.encode (J.write (jwtHeader kid)),
      Base64Url.encode (J.write v)] ++ Text.split s '.' := by
    have hlonger : token.toList = (Base64Url.encode (J.write (jwtHeader kid))).toList ++
        '.' :: ((Base64Url.encode (J.write v)).toList ++ '.' :: s.toList) := by
      have hleft : h.toList ++ '.' :: (p.toList ++ '.' :: s.toList) =
          (h.toList ++ '.' :: p.toList) ++ '.' :: s.toList := by simp
      rw [htoken, hleft, hchars]
      simp
    rw [Text.split, hlonger, List.splitOn_append_cons_self_of_not_mem (hdot _),
      List.splitOn_append_cons_self_of_not_mem (hdot _)]
    simp [Text.split]
  rw [hsplit] at hsplit'
  obtain ⟨-, hrest⟩ := List.cons.inj hsplit'
  obtain ⟨hpayload, -⟩ := List.cons.inj hrest
  rw [hpayload, Base64Url.decode_encode]

theorem signedPart_eq_some {message : String} :
    signedPart token = some message ↔
      ∃ h p s, Text.split token '.' = [h, p, s] ∧ h ++ "." ++ p = message := by
  unfold signedPart
  constructor
  · intro hsome
    split at hsome
    · rename_i h p s hsplit
      exact ⟨h, p, s, hsplit, Option.some.inj hsome⟩
    · cases hsome
  · rintro ⟨h, p, s, hsplit, rfl⟩
    rw [hsplit]

/-- Two documents whose signed texts are both the signed part of a token were written the same
way. -/
theorem write_eq_of_signedPart (h : signedPart token = some (signingInput J kid v))
    (h' : signedPart token = some (signingInput J kid' v')) : J.write v = J.write v' := by
  obtain ⟨h, p, s, hsplit, hinput⟩ := signedPart_eq_some.mp h
  rw [signedPart_eq_some.mpr ⟨h, p, s, hsplit, rfl⟩] at h'
  have hpayload := payload_of_signedPart hsplit hinput
  rw [payload_of_signedPart hsplit (Option.some.inj h')] at hpayload
  exact (Option.some.inj hpayload).symm

variable {claims : Type}

/-- What a verified token has been through. -/
theorem verifyFromSnapshot_ok {parse : Bytes → Option claims} {keys : List CachedSigningKey}
    {d : Decoded claims} (hok : verifyFromSnapshot J.packages parse keys token = .ok d) :
    ∃ message signature payload, ∃ entry ∈ keys, signedPart token = some message ∧
      tokenSignature token = some signature ∧
      J.verifySignature entry.publicKeyBytes (utf8 message) signature = true ∧
      (∀ kid v, message = signingInput J kid v → payload = J.write v) ∧
      parse payload = some d.claims := by
  unfold verifyFromSnapshot jwtVerify at hok
  split at hok
  · rename_i h p s hsplit
    simp only [bind_eq_ok, require_eq_ok, ensure_eq_ok, pure_eq_ok] at hok
    obtain ⟨-, -, parsed, -, -, -, vk, hvk, signature, hsignature, -, -, -, hverified, payload,
      hpayload,
      c, hc, rfl⟩ := hok
    obtain ⟨entry, hfind, hkey⟩ := Option.bind_eq_some_iff.mp hvk
    obtain ⟨-, hsame⟩ := Option.ite_none_right_eq_some.mp hkey
    cases hsame
    refine ⟨h ++ "." ++ p, signature, payload, entry, List.mem_of_find?_eq_some hfind,
      signedPart_eq_some.mpr ⟨h, p, s, hsplit, rfl⟩, ?_, hverified, ?_, hc⟩
    · rw [tokenSignature, show Text.split token '.' = [h, p, s] from hsplit]
      exact hsignature
    · intro kid v hinput
      have hwritten := payload_of_signedPart hsplit hinput
      rw [show Base64Url.decode p = some payload from hpayload] at hwritten
      exact Option.some.inj hwritten
  · cases hok

/-- The verifier's result for a token whose parts are what they should be. -/
private theorem verify_dotted {parse : Bytes → Option claims} {entry : CachedSigningKey}
    {header payload signature : Bytes} {kid : String} {c : claims}
    (hheader : (J.read header).bind JwtHeader.ofJson = some ⟨"EdDSA", kid⟩)
    (hkid : entry.kid = kid) (hkey : entry.publicKeyBytes.length = 32)
    (hvalid : J.isVerifyingKey entry.publicKeyBytes = true) (hlength : signature.length = 64)
    (hverified : J.verifySignature entry.publicKeyBytes
      (utf8 (Base64Url.encode header ++ "." ++ Base64Url.encode payload)) signature = true)
    (hparse : parse payload = some c) :
    verifyFromSnapshot J.packages parse [entry] (Base64Url.dotted header payload signature) =
      .ok ⟨c, kid⟩ := by
  have hdecode : ∀ bytes, J.packages.decodeBase64Url (Base64Url.encode bytes) = some bytes :=
    Base64Url.decode_encode
  have hsplit : ((Base64Url.dotted header payload signature).toList.splitOn '.').map
      String.ofList = _ := Base64Url.split_dotted header payload signature
  have hentry : (([entry].find? fun k => k.kid == kid).bind fun entry =>
      if entry.publicKeyBytes.length == 32 && J.packages.isVerifyingKey entry.publicKeyBytes then
        some entry.publicKeyBytes
      else none) = some entry.publicKeyBytes := by
    have hvalid' : J.packages.isVerifyingKey entry.publicKeyBytes = true := hvalid
    simp [hkid, hkey, hvalid']
  unfold verifyFromSnapshot jwtVerify
  rw [hsplit]
  simp only [bind_eq_ok, require_eq_ok, ensure_eq_ok, pure_eq_ok]
  refine ⟨header, hdecode header, ⟨"EdDSA", kid⟩, hheader, (), rfl, _, hentry, ?_⟩
  exact ⟨signature, hdecode signature, (), beq_iff_eq.mpr hlength, (), hverified, payload,
    hdecode payload, c, hparse, rfl⟩

end Parts

/-! ## Issued tokens -/

section Issued

variable (J : JwtCrates) (issued : List TokenIssue)

/-- The texts that were signed: an access token for each call, and an ID token where one was asked
for. -/
inductive Signed : TokenIssue → String → Json → Prop where
  | access (i : TokenIssue) : Signed i (i.accessInput J) i.accessClaims.toJson
  | id {i : TokenIssue} (h : i.includeIdToken = true) : Signed i (i.idInput J) i.idClaims.toJson

/-- `serde_json` reads the claims back that it wrote. -/
def ReadsBack : Prop :=
  ∀ i ∈ issued, ∀ message v, Signed J i message v → J.read (J.write v) = some v

/-- Ed25519 is not forged: where the token's signature verifies with one of the keys, its signed
part was signed by the server. -/
def TokenUnforged (keys : List CachedSigningKey) (token : String) : Prop :=
  ∀ message signature, signedPart token = some message → tokenSignature token = some signature →
    ∀ entry ∈ keys, J.verifySignature entry.publicKeyBytes (utf8 message) signature = true →
      ∃ i ∈ issued, ∃ v, Signed J i message v

/-- Issued as an access token that has not expired, for the subject and the client that were
returned. -/
def IssuedAccess (token : String) (now : DateTime) (claims : AccessTokenClaims) : Prop :=
  ∃ i ∈ issued, signedPart token = some (i.accessInput J) ∧
    timestamp now < i.accessClaims.exp ∧ claims.sub = toString i.user ∧
    claims.aud = toString i.client

/-- Issued as an ID token, likewise. -/
def IssuedId (token : String) (now : DateTime) (acceptExpired : Bool) (claims : IdTokenClaims) :
    Prop :=
  ∃ i ∈ issued, i.includeIdToken = true ∧ signedPart token = some (i.idInput J) ∧
    (acceptExpired = true ∨ timestamp now < i.idClaims.exp) ∧ claims.sub = toString i.user ∧
    claims.aud = toString i.client

/-- No access token with this signed part expires at this second. -/
def AccessNotExpiring (token : String) (now : DateTime) : Prop :=
  ∀ i ∈ issued, signedPart token = some (i.accessInput J) → i.accessClaims.exp ≠ timestamp now

/-- The signed part is not that of an access token, and no ID token with it expires at this
second. -/
def OnlyIdToken (token : String) (now : DateTime) (acceptExpired : Bool) : Prop :=
  (∀ i ∈ issued, signedPart token ≠ some (i.accessInput J)) ∧
    (acceptExpired = true ∨ ∀ i ∈ issued, i.includeIdToken = true →
      signedPart token = some (i.idInput J) → i.idClaims.exp ≠ timestamp now)

variable {J issued} {keys : List CachedSigningKey} {token : String} {now : DateTime}

/-- What a verified token says was written for a call. -/
theorem exists_issued (hread : ReadsBack J issued) (hunforged : TokenUnforged J issued keys token)
    {claims : Type} {ofJson : Json → Option claims} {d : Decoded claims}
    (hok : verifyFromSnapshot J.packages (fun bytes => (J.read bytes).bind ofJson) keys token =
      .ok d) :
    ∃ i ∈ issued, ∃ message v, Signed J i message v ∧ signedPart token = some message ∧
      ofJson v = some d.claims := by
  obtain ⟨message, signature, payload, entry, hentry, hmessage, hsignature, hverified, hpayload,
    hparse⟩ := verifyFromSnapshot_ok hok
  obtain ⟨i, hi, v, hsigned⟩ :=
    hunforged message signature hmessage hsignature entry hentry hverified
  refine ⟨i, hi, message, v, hsigned, hmessage, ?_⟩
  have hwritten : payload = J.write v := by
    cases hsigned with
    | access => exact hpayload _ _ rfl
    | id h => exact hpayload _ _ rfl
  rw [hwritten, hread i hi message v hsigned, Option.bind_some] at hparse
  exact hparse

variable {i i' : TokenIssue} {message : String} {claims : AccessTokenClaims}

/-- Documents with the same signed part are the same. -/
theorem signed_unique (hread : ReadsBack J issued) (hi : i ∈ issued) (hi' : i' ∈ issued)
    {message' : String} {v v' : Json} (hsigned : Signed J i message v)
    (hsigned' : Signed J i' message' v') (hpart : signedPart token = some message)
    (hpart' : signedPart token = some message') : v = v' := by
  have hwrite : J.write v = J.write v' := by
    cases hsigned with
    | access =>
      cases hsigned' with
      | access => exact write_eq_of_signedPart hpart hpart'
      | id h => exact write_eq_of_signedPart hpart hpart'
    | id h =>
      cases hsigned' with
      | access => exact write_eq_of_signedPart hpart hpart'
      | id h' => exact write_eq_of_signedPart hpart hpart'
  have hback := hread i hi message v hsigned
  rw [hwrite, hread i' hi' message' v' hsigned'] at hback
  exact (Option.some.inj hback).symm

theorem ofJson_accessClaims (i : TokenIssue) :
    AccessTokenClaims.ofJson i.accessClaims.toJson = some i.accessClaims :=
  AccessTokenClaims.ofJson_toJson i.iatFits i.accessFits

theorem ofJson_idClaims (i : TokenIssue) :
    IdTokenClaims.ofJson i.idClaims.toJson = some i.idClaims :=
  IdTokenClaims.ofJson_toJson i.iatFits i.idFits

/-- A text that is read as an access token's claims was signed as an access token. -/
theorem access_of_signed {v : Json} (hsigned : Signed J i message v)
    (hjson : AccessTokenClaims.ofJson v = some claims) :
    message = i.accessInput J ∧ claims = i.accessClaims := by
  cases hsigned with
  | access =>
    rw [ofJson_accessClaims i] at hjson
    exact ⟨rfl, (Option.some.inj hjson).symm⟩
  | id h =>
    rw [AccessTokenClaims.ofJson_idToken] at hjson
    cases hjson

/-- An access token with the signed part of an ID token would have no `scope`. -/
theorem access_ne_id (hread : ReadsBack J issued) (hi : i ∈ issued) (hi' : i' ∈ issued)
    (hid : i'.includeIdToken = true) (hpart : signedPart token = some (i.accessInput J)) :
    signedPart token ≠ some (i'.idInput J) := by
  intro hpart'
  have hsame := signed_unique hread hi hi' (.access i) (.id hid) hpart hpart'
  have hjson := ofJson_accessClaims i
  rw [hsame, AccessTokenClaims.ofJson_idToken] at hjson
  cases hjson

theorem issuedAccess_iff (hread : ReadsBack J issued)
    (hunforged : TokenUnforged J issued keys token)
    (hok : verifyAccessTokenWith J.packages keys now token = .ok claims) :
    IssuedAccess J issued token now claims ↔ AccessNotExpiring J issued token now := by
  simp only [verifyAccessTokenWith, bind_eq_ok, ensure_eq_ok, pure_eq_ok, Bool.not_eq_true'] at hok
  obtain ⟨d, hd, -, hexp, rfl⟩ := hok
  have hnotExpired := of_decide_eq_false hexp
  have hd' : verifyFromSnapshot J.packages (fun bytes =>
      (J.read bytes).bind AccessTokenClaims.ofJson) keys token = .ok d := hd
  obtain ⟨i, hi, message, v, hsigned, hpart, hjson⟩ := exists_issued hread hunforged hd'
  obtain ⟨rfl, hclaims⟩ := access_of_signed hsigned hjson
  rw [hclaims] at hnotExpired
  constructor
  · rintro ⟨i₁, hi₁, hpart₁, hlive, -, -⟩ i₂ hi₂ hpart₂
    have hsame := signed_unique hread hi₁ hi₂ (.access i₁) (.access i₂) hpart₁ hpart₂
    have hclaims₁ := ofJson_accessClaims i₁
    rw [hsame, ofJson_accessClaims i₂] at hclaims₁
    rw [Option.some.inj hclaims₁]
    omega
  · intro hnot
    have hne := hnot i hi hpart
    refine ⟨i, hi, hpart, by omega, ?_, ?_⟩
    · rw [hclaims]
      rfl
    · rw [hclaims]
      rfl

theorem issuedId_iff (hread : ReadsBack J issued) (hunforged : TokenUnforged J issued keys token)
    {acceptExpired : Bool} {claims : IdTokenClaims}
    (hok : verifyIdTokenWith J.packages keys now token acceptExpired = .ok claims) :
    IssuedId J issued token now acceptExpired claims ↔
      OnlyIdToken J issued token now acceptExpired := by
  simp only [verifyIdTokenWith, bind_eq_ok, ensure_eq_ok, pure_eq_ok, Bool.not_eq_true'] at hok
  obtain ⟨d, hd, -, hexp, rfl⟩ := hok
  have hnotExpired : acceptExpired = true ∨ ¬ d.claims.exp < timestamp now := by
    cases acceptExpired with
    | true => exact Or.inl rfl
    | false => exact Or.inr (of_decide_eq_false hexp)
  have hd' : verifyFromSnapshot J.packages (fun bytes =>
      (J.read bytes).bind IdTokenClaims.ofJson) keys token = .ok d := hd
  obtain ⟨i, hi, message, v, hsigned, hpart, hjson⟩ := exists_issued hread hunforged hd'
  constructor
  · rintro ⟨i₁, hi₁, hid₁, hpart₁, hlive, -, -⟩
    refine ⟨fun i₂ hi₂ hpart₂ => access_ne_id hread hi₂ hi₁ hid₁ hpart₂ hpart₁, ?_⟩
    refine hlive.imp_right fun hlive i₂ hi₂ hid₂ hpart₂ => ?_
    have hsame := signed_unique hread hi₁ hi₂ (.id hid₁) (.id hid₂) hpart₁ hpart₂
    have hclaims₁ := ofJson_idClaims i₁
    rw [hsame, ofJson_idClaims i₂] at hclaims₁
    rw [Option.some.inj hclaims₁]
    omega
  · rintro ⟨hnoAccess, hne⟩
    cases hsigned with
    | access => exact absurd hpart (hnoAccess i hi)
    | id hid =>
      rw [ofJson_idClaims i] at hjson
      rw [← Option.some.inj hjson] at hnotExpired ⊢
      refine ⟨i, hi, hid, hpart, ?_, rfl, rfl⟩
      rcases hne with haccept | hne
      · exact Or.inl haccept
      · refine hnotExpired.imp_right fun hnotExpired => ?_
        have hne := hne i hi hid hpart
        omega

theorem signedPart_jwtSign (J : JwtCrates) (kid : String) (signingKey : Bytes) (v : Json) :
    signedPart (jwtSign J kid signingKey v) = some (signingInput J kid v) := by
  have hsplit := Base64Url.split_dotted (J.write (jwtHeader kid)) (J.write v)
    (J.sign signingKey (utf8 (signingInput J kid v)))
  exact signedPart_eq_some.mpr ⟨_, _, _, hsplit, rfl⟩

/-- The tokens of a set have the signed parts of their call. -/
theorem signedPart_issueTokenSet (i : TokenIssue) :
    signedPart (issueTokenSet J i).accessToken = some (i.accessInput J) ∧
      ∀ idToken, (issueTokenSet J i).idToken = some idToken →
        i.includeIdToken = true ∧ signedPart idToken = some (i.idInput J) := by
  refine ⟨signedPart_jwtSign J _ _ _, fun idToken hid => ?_⟩
  obtain ⟨hinclude, hsome⟩ := Option.ite_none_right_eq_some.mp hid
  cases hsome
  exact ⟨hinclude, signedPart_jwtSign J _ _ _⟩

/-- A pair of tokens of the exchange is what one call issues. -/
theorem issueJwtPair_issue {P : Primitives} {db : Database} {ctx : IssuanceContext}
    {draw : SigningDraw} {user : UserId} {client : ClientId} {scope : String}
    {nonce : Option String} {methods : List AuthMethod} {email : Option (String × Bool)}
    {pair : JwtPair} (hiat : InI64 (timestamp draw.now))
    (haccess : InI64 (timestamp draw.now + ctx.lifetimes.accessSecs))
    (hid : InI64 (timestamp draw.now + ctx.lifetimes.idSecs))
    (h : issueJwtPair P db ctx draw user client scope nonce methods email = .ok pair) :
    ∃ i : TokenIssue, i.user = user ∧ i.client = client ∧
      pair.accessToken = ⟨i.kid, i.signingKey, i.accessClaims⟩ ∧
      pair.idToken = if i.includeIdToken then some ⟨i.kid, i.signingKey, i.idClaims⟩ else none := by
  simp only [issueJwtPair, bind_eq_ok, require_eq_ok, mapError_eq_ok, pure_eq_ok] at h
  obtain ⟨keyRow, -, privateBytes, -, -, -, rfl⟩ := h
  exact ⟨⟨ctx.issuer, user, client, scope, nonce, scopeHas scope "openid", toString keyRow.id,
    privateBytes, ctx.lifetimes, draw.now, methods, email, draw.accessJti, draw.idJti, hiat,
    haccess,
    hid⟩, rfl, rfl, rfl, rfl⟩

/-- The four readers of tokens tell what was issued, unless an access token is given to a reader of
ID tokens, or a token is read in the second at which it expires. -/
theorem tokens_told_apart_iff {db : Database} {caches : Caches} (hread : ReadsBack J issued)
    (hstored : TokenUnforged J issued (publishedToCached (SigningKeys.listPublished db)) token)
    (hcached : TokenUnforged J issued caches.jwks token) :
    (∀ claims, verifyAccessToken J.packages db now token = .ok claims ∨
        verifyAccessTokenCached J.packages caches now token = .ok claims →
      (IssuedAccess J issued token now claims ↔ AccessNotExpiring J issued token now)) ∧
    ∀ acceptExpired claims, verifyIdToken J.packages db now token acceptExpired = .ok claims ∨
        verifyIdTokenCached J.packages caches now token acceptExpired = .ok claims →
      (IssuedId J issued token now acceptExpired claims ↔
        OnlyIdToken J issued token now acceptExpired) := by
  constructor
  · rintro claims (hok | hok)
    · exact issuedAccess_iff hread hstored hok
    · exact issuedAccess_iff hread hcached hok
  · rintro acceptExpired claims (hok | hok)
    · exact issuedId_iff hread hstored hok
    · exact issuedId_iff hread hcached hok

end Issued

/-! ## One access token -/

def edTokenHeader : String :=
  "\x7b\"alg\":\"EdDSA\",\"typ\":\"JWT\",\"kid\":\"1\"\x7d"

def edAccessText : String :=
  "\x7b\"iss\":\"i\",\"sub\":\"1\",\"aud\":\"1\",\"iat\":9,\"exp\":10,\"scope\":\"\"," ++
    "\"jti\":\"j\"\x7d"

def edSecretKey : Bytes :=
  [157, 97, 177, 157, 239, 253, 90, 96, 186, 132, 74, 244, 146, 236, 44, 196, 68, 73, 197, 105, 123,
    50, 105, 25, 112, 59, 172, 3, 28, 174, 127, 96]

def edPublicKey : Bytes :=
  [215, 90, 152, 1, 130, 177, 10, 183, 213, 75, 254, 211, 201, 100, 7, 58, 14, 225, 114, 243, 218,
    166, 35, 37, 175, 2, 26, 104, 247, 7, 81, 26]

/-- The signature of `edSecretKey` on the header and the claims. -/
def edAccessSignature : Bytes :=
  [217, 206, 77, 184, 31, 101, 8, 61, 80, 76, 46, 34, 239, 240, 30, 8, 178, 219, 217, 69, 190, 207,
    136, 153, 54, 27, 195, 70, 250, 211, 170, 15, 156, 32, 164, 38, 199, 29, 162, 118, 5, 125, 237,
    204, 133, 109, 41, 103, 221, 193, 221, 79, 190, 55, 240, 9, 32, 83, 116, 91, 121, 175, 168, 11]

/-- An access token of one second, nine seconds past the epoch. -/
def edIssue : TokenIssue where
  issuer := "i"
  user := 1
  client := 1
  scope := ""
  nonce := none
  includeIdToken := false
  kid := "1"
  signingKey := edSecretKey
  lifetimes := ⟨1, 1, 1⟩
  now := 9000000000
  authMethods := []
  userEmail := none
  accessJti := "j"
  idJti := "k"
  iatFits := by decide
  accessFits := by decide
  idFits := by decide

def edAccessInput : String :=
  Base64Url.encode (utf8 edTokenHeader) ++ "." ++ Base64Url.encode (utf8 edAccessText)

/-- Crates that know the two documents of the token and its signature. -/
def JwtCrates.ed : JwtCrates where
  write v := if (v.get? "alg").isSome then utf8 edTokenHeader else utf8 edAccessText
  read bytes :=
    if bytes = utf8 edTokenHeader then some (jwtHeader "1")
    else if bytes = utf8 edAccessText then some edIssue.accessClaims.toJson
    else none
  sign _ _ := edAccessSignature
  isVerifyingKey key := key == edPublicKey
  verifySignature key message signature :=
    key == edPublicKey && message == utf8 edAccessInput && signature == edAccessSignature

/-- The published key. -/
def edCaches : Caches := ⟨∅, [⟨"1", "EdDSA", edPublicKey⟩]⟩

private theorem accessInput_ed : edIssue.accessInput .ed = edAccessInput := rfl

private theorem accessToken_ed : (issueTokenSet .ed edIssue).accessToken =
    Base64Url.dotted (utf8 edTokenHeader) (utf8 edAccessText) edAccessSignature := by
  have hheader : JwtCrates.ed.write (jwtHeader edIssue.kid) = utf8 edTokenHeader := rfl
  have hclaims : JwtCrates.ed.write edIssue.accessClaims.toJson = utf8 edAccessText := rfl
  rw [issueTokenSet, jwtSign, signingInput, hheader, hclaims]
  rfl

private theorem read_access_ed :
    JwtCrates.ed.read (utf8 edAccessText) = some edIssue.accessClaims.toJson := by
  have hne : utf8 edAccessText ≠ utf8 edTokenHeader := by decide +kernel
  simp [JwtCrates.ed, hne]

private theorem readsBack_ed : ReadsBack .ed [edIssue] := by
  intro i hi message v hsigned
  rw [List.mem_singleton.mp hi] at hsigned
  cases hsigned with
  | access => exact read_access_ed
  | id h => cases h

private theorem unforged_ed (keys : List CachedSigningKey) (token : String) :
    TokenUnforged .ed [edIssue] keys token := by
  intro message signature hmessage hsignature entry hentry hverified
  have hboth := (Bool.and_eq_true_iff.mp hverified).1
  have hbytes := (Bool.and_eq_true_iff.mp hboth).2
  have htext := utf8_inj (beq_iff_eq.mp hbytes)
  rw [htext, ← accessInput_ed]
  exact ⟨edIssue, List.mem_singleton_self _, _, .access edIssue⟩

/-- Either reader gets the claims that it takes out of the access token. -/
private theorem verify_ed {claims : Type} {ofJson : Json → Option claims} {c : claims}
    (hjson : ofJson edIssue.accessClaims.toJson = some c) :
    verifyFromSnapshot JwtCrates.ed.packages (fun bytes => (JwtCrates.ed.read bytes).bind ofJson)
      edCaches.jwks (issueTokenSet .ed edIssue).accessToken = .ok ⟨c, "1"⟩ := by
  rw [accessToken_ed]
  apply verify_dotted
  · have hread : JwtCrates.ed.read (utf8 edTokenHeader) = some (jwtHeader "1") := by
      simp [JwtCrates.ed]
    rw [hread]
    exact JwtHeader.ofJson_jwtHeader "1"
  · rfl
  · rfl
  · rfl
  · rfl
  · simp [JwtCrates.ed, edAccessInput]
  · rw [read_access_ed, Option.bind_some, hjson]

/-- The access token, in the second before it expires. -/
theorem tokens_told_apart_ed :
    IssuedAccess .ed [edIssue] (issueTokenSet .ed edIssue).accessToken 9000000000
      edIssue.accessClaims := by
  have hok : verifyAccessTokenCached JwtCrates.ed.packages edCaches 9000000000
      (issueTokenSet .ed edIssue).accessToken = .ok edIssue.accessClaims :=
    bind_eq_ok.mpr ⟨_, verify_ed (ofJson_accessClaims edIssue), rfl⟩
  have hstored : TokenUnforged .ed [edIssue]
      (publishedToCached (SigningKeys.listPublished Database.empty))
      (issueTokenSet .ed edIssue).accessToken := unforged_ed _ _
  refine ((tokens_told_apart_iff readsBack_ed hstored (unforged_ed edCaches.jwks _)).1
    edIssue.accessClaims (Or.inr hok)).mpr ?_
  intro i hi _
  rw [List.mem_singleton.mp hi]
  decide

/-- The reader of ID tokens returns claims for the access token. -/
theorem access_token_read_as_id :
    ReadsBack .ed [edIssue] ∧
      TokenUnforged .ed [edIssue] edCaches.jwks (issueTokenSet .ed edIssue).accessToken ∧
      ∃ claims, verifyIdTokenCached JwtCrates.ed.packages edCaches 9000000000
          (issueTokenSet .ed edIssue).accessToken false = .ok claims ∧
        ¬ IssuedId .ed [edIssue] (issueTokenSet .ed edIssue).accessToken 9000000000 false
          claims := by
  refine ⟨readsBack_ed, unforged_ed _ _, _, bind_eq_ok.mpr ⟨_, verify_ed rfl, rfl⟩, ?_⟩
  rintro ⟨i, hi, hinclude, -⟩
  rw [List.mem_singleton.mp hi] at hinclude
  cases hinclude

end SuiId
