import SuiId.Core.IdToken
import SuiId.Proofs.KeySelection

/-!
# The ID tokens that are accepted

`parseCompactJws_ok`, `verifyIdTokenAgainstJwks_ok`, `validateIdentityClaims_ok` and
`validateIat_ok` read the rules of the three modules off a success.  They are about maps;
`member_of_get?` and `rule_of_get?` carry them over to the document as the bytes have it, which
is where no name may be there twice.

What the library is trusted with is `JoseCrates.Lawful`.  A payload that is an array passes the
library's own reading of `exp`, since it reads records from arrays too; such a payload has no
issuer.
-/

namespace SuiId

open Lib Lib.Result

/-- What `serde_json` and `decode` of `jsonwebtoken` do.  `verifies` is the signature check of the
message, the signature, the key and the algorithm. -/
structure JoseCrates.Lawful (J : JoseCrates)
    (verifies : Bytes → Bytes → J.DecodingKey → J.Algorithm → Prop) : Prop where
  names : ∀ {bytes members}, J.read bytes = some (.object members) →
    J.memberNames bytes = some (Json.names members)
  payload : ∀ {token h p s key validation now claims}, segments token = [h, p, s] →
    J.decode token key validation now = .ok claims →
    ∃ bytes, J.decodeVec p = some bytes ∧ J.fromSlice bytes = some claims
  signature : ∀ {token h p s key validation now claims}, segments token = [h, p, s] →
    J.decode token key validation now = .ok claims → validation.validateSignature = true →
    ∃ bytes, ∃ algorithm ∈ validation.algorithms, J.decodeVec s = some bytes ∧
      verifies (utf8 (h ++ "." ++ p)) bytes key algorithm
  required : ∀ {token key validation now claims}, J.decode token key validation now = .ok claims →
    claims.isObject = true → ∀ name ∈ validation.requiredSpecClaims, (claims.get? name).isSome
  exp : ∀ {token key validation now claims} {exp : UInt64},
    J.decode token key validation now = .ok claims → validation.validateExp = true →
    claims.get? "exp" = some (.number (.posInt exp)) → now ≤ exp.toNat + validation.leeway
  nbf : ∀ {token key validation now claims} {nbf : UInt64},
    J.decode token key validation now = .ok claims → validation.validateNbf = true →
    claims.get? "nbf" = some (.number (.posInt nbf)) → nbf.toNat ≤ now + validation.leeway

/-! ## What an accepted token is -/

/-- The header as its bytes have it. -/
structure SoundHeader (idTokenAlgs : List String) (alg kid : String)
    (members : List (String × Json)) : Prop where
  distinct : (Json.names members).Nodup
  algMember : ("alg", .string alg) ∈ members
  allowed : alg ∈ idTokenAlgs
  kidMember : ("kid", .string kid) ∈ members
  length : 1 ≤ (utf8 kid).length ∧ (utf8 kid).length ≤ 128
  visible : ∀ b ∈ utf8 kid, 0x21 ≤ b ∧ b ≤ 0x7e
  forbidden : ∀ name ∈ ["jku", "x5u", "jwk", "x5c", "crit", "b64"], name ∉ Json.names members

/-- The audience is the client, or a few of which the client is one, and then `azp` says so. -/
structure SoundAudience (clientId : String) (members : List (String × Json)) : Prop where
  aud : ("aud", .string clientId) ∈ members ∨
    ∃ audiences : List String, ("aud", .array (audiences.map .string)) ∈ members ∧
      audiences.Nodup ∧ audiences.length ≤ 8 ∧ clientId ∈ audiences ∧
      (1 < audiences.length → ("azp", .string clientId) ∈ members)
  azp : ∀ v, ("azp", v) ∈ members → v = .string clientId

/-- The times, where `clock` is what the library reads, `created` the start of the attempt and
`now` the time of the check, all in seconds. -/
structure SoundTimes (clock created now : Int) (members : List (String × Json)) : Prop where
  exp : ∃ exp : UInt64, ("exp", .number (.posInt exp)) ∈ members ∧ clock ≤ exp.toNat + 60
  nbf : ∀ v, ("nbf", v) ∈ members →
    ∃ nbf : UInt64, v = .number (.posInt nbf) ∧ nbf.toNat ≤ clock + 60
  iat : ∃ iat : UInt64, ("iat", .number (.posInt iat)) ∈ members ∧
    created - 60 ≤ iat.toNat ∧ iat.toNat ≤ now + 60

/-- The payload as its bytes have it. -/
structure SoundPayload (issuer clientId sub : String) (members : List (String × Json)) : Prop where
  distinct : (Json.names members).Nodup
  issMember : ("iss", .string issuer) ∈ members
  audience : SoundAudience clientId members
  subMember : ("sub", .string sub) ∈ members
  length : 1 ≤ sub.utf8ByteSize ∧ sub.utf8ByteSize ≤ 255
  noControl : ∀ c ∈ sub.toList, isControl c = false

/-- A signature of the first two segments, with the one key that the header names. -/
def SignedBy (J : JoseCrates) (verifies : Bytes → Bytes → J.DecodingKey → J.Algorithm → Prop)
    (jwksBytes : Bytes) (alg kid : String) (message : String) (signature : Bytes) : Prop :=
  ∃ key jwk decodingKey algorithm, OnlyKey J jwksBytes kid key ∧ J.jwkFromValue key = some jwk ∧
    J.fromJwk jwk = some decodingKey ∧ J.parseAlgorithm alg = some algorithm ∧
    verifies (utf8 message) signature decodingKey algorithm

/-! ## Two readings of an object -/

section Members

variable {members : List (String × Json)} {name : String}

private theorem exists_member (hnodup : (Json.names members).Nodup) {w : Json}
    (h : (Json.collect (.object members)).get? name = some w) :
    ∃ v, (name, v) ∈ members ∧ v.collect = w :=
  (Json.get?_collect hnodup).mp h

theorem member_string_of_get? (hnodup : (Json.names members).Nodup) {s : String}
    (h : (Json.collect (.object members)).get? name = some (.string s)) :
    (name, .string s) ∈ members := by
  obtain ⟨v, hv, hcollect⟩ := exists_member hnodup h
  rw [Json.collect_eq_string.mp hcollect] at hv
  exact hv

theorem member_number_of_get? (hnodup : (Json.names members).Nodup) {n : Json.Number}
    (h : (Json.collect (.object members)).get? name = some (.number n)) :
    (name, .number n) ∈ members := by
  obtain ⟨v, hv, hcollect⟩ := exists_member hnodup h
  rw [Json.collect_eq_number.mp hcollect] at hv
  exact hv

theorem member_strings_of_get? (hnodup : (Json.names members).Nodup) {texts : List String}
    (h : (Json.collect (.object members)).get? name = some (.array (texts.map .string))) :
    (name, .array (texts.map .string)) ∈ members := by
  obtain ⟨v, hv, hcollect⟩ := exists_member hnodup h
  cases v with
  | array items =>
    rw [Json.collect, Json.array.injEq] at hcollect
    rw [Json.collectItems_strings.mp hcollect] at hv
    exact hv
  | null => cases hcollect
  | bool b => cases hcollect
  | number n => cases hcollect
  | string s => cases hcollect
  | object ms => cases hcollect

theorem get?_of_member (hnodup : (Json.names members).Nodup) {v : Json} (h : (name, v) ∈ members) :
    (Json.collect (.object members)).get? name = some v.collect :=
  (Json.get?_collect hnodup).mpr ⟨v, h, rfl⟩

end Members

variable {names : List String}

theorem firstDuplicate_eq_none {seen : List String} :
    firstDuplicate seen names = none ↔ names.Nodup ∧ ∀ name ∈ names, name ∉ seen := by
  induction names generalizing seen with
  | nil => simp [firstDuplicate]
  | cons name rest ih =>
    rw [firstDuplicate]
    by_cases hseen : name ∈ seen
    · rw [if_pos (List.contains_iff_mem.mpr hseen)]
      refine iff_of_false (by simp) ?_
      rintro ⟨-, hnone⟩
      exact hnone name (List.mem_cons_self ..) hseen
    · rw [if_neg (fun h => hseen (List.contains_iff_mem.mp h)), ih, List.nodup_cons]
      constructor
      · rintro ⟨hnodup, hrest⟩
        have hname : name ∉ rest := fun hmem =>
          hrest name hmem (List.mem_append_right _ (List.mem_singleton_self _))
        refine ⟨⟨hname, hnodup⟩, fun other hother => ?_⟩
        rcases List.mem_cons.mp hother with rfl | hmem
        · exact hseen
        · exact fun h => hrest other hmem (List.mem_append_left _ h)
      · rintro ⟨⟨hname, hnodup⟩, hrest⟩
        refine ⟨hnodup, fun other hother hmem => ?_⟩
        rcases List.mem_append.mp hmem with h | h
        · exact hrest other (List.mem_cons_of_mem _ hother) h
        · rw [List.mem_singleton.mp h] at hother
          exact hname hother

theorem nodup_of_firstDuplicate (h : firstDuplicate [] names = none) :
    names.Nodup := (firstDuplicate_eq_none.mp h).1

/-! ## Reading the rules off -/

section Rules

variable {J : JoseCrates}
variable {value : Json}

theorem checkForbidden_ok (h : checkForbidden value = .ok ()) :
    ∀ name ∈ forbiddenMembers, value.get? name = none := by
  unfold checkForbidden at h
  split at h
  · cases h
  · rename_i hnone
    intro name hname
    have habsent := List.find?_eq_none.mp hnone name hname
    simpa using habsent

/-- The rules of the header, on its map. -/
theorem validateHeader_ok {header : ValidatedHeader} (h : validateHeader value = .ok header) :
    value.get? "alg" = some (.string header.alg) ∧ value.get? "kid" = some (.string header.kid) ∧
      (∀ name ∈ forbiddenMembers, value.get? name = none) ∧
      (1 ≤ (utf8 header.kid).length ∧ (utf8 header.kid).length ≤ 128) ∧
      ∀ b ∈ utf8 header.kid, 0x21 ≤ b ∧ b ≤ 0x7e := by
  simp only [validateHeader, bind_eq_ok, require_eq_ok, ensure_eq_ok, pure_eq_ok] at h
  obtain ⟨algValue, halgValue, alg, halg, ⟨⟩, hforbidden, -, -, typ, -, kidValue, hkidValue, kid,
    hkid, -, hbytes, rfl⟩ := h
  rw [Json.asStr?_eq_some.mp halg] at halgValue
  rw [Json.asStr?_eq_some.mp hkid] at hkidValue
  simp only [Bool.and_eq_true, decide_eq_true_eq, List.all_eq_true] at hbytes
  obtain ⟨⟨hpos, hmax⟩, hvisible⟩ := hbytes
  exact ⟨halgValue, hkidValue, checkForbidden_ok hforbidden, ⟨hpos, hmax⟩, hvisible⟩

/-- Three segments, of which the first is a header with the required members. -/
theorem parseCompactJws_ok {token : String} {compact : CompactJws}
    (hread : ∀ {bytes members}, J.read bytes = some (.object members) →
      J.memberNames bytes = some (Json.names members))
    (h : parseCompactJws J token = .ok compact) :
    ∃ headerB64 payloadB64 signatureB64 headerBytes members,
      segments token = [headerB64, payloadB64, signatureB64] ∧
      J.decodeVec headerB64 = some headerBytes ∧ J.read headerBytes = some (.object members) ∧
      (Json.names members).Nodup ∧
      validateHeader (Json.collect (.object members)) = .ok compact.header ∧
      J.decodeVec payloadB64 = some compact.payload ∧
      J.decodeVec signatureB64 = some compact.signature := by
  simp only [parseCompactJws, bind_eq_ok, ensure_eq_ok] at h
  obtain ⟨-, -, -, -, h⟩ := h
  split at h
  · rename_i headerB64 payloadB64 signatureB64 hsegments
    simp only [bind_eq_ok, ensure_eq_ok, require_eq_ok] at h
    obtain ⟨-, -, -, -, -, -, -, -, headerBytes, hheaderBytes, payload, hpayload, signature,
      hsignature, -, -, value, hvalue, -, hobject, names, hnames, h⟩ := h
    split at h
    · cases h
    · rename_i hnone
      simp only [bind_eq_ok, pure_eq_ok] at h
      obtain ⟨header, hheader, rfl⟩ := h
      obtain ⟨raw, hraw, rfl⟩ := Option.map_eq_some_iff.mp hvalue
      rw [Json.isObject_collect] at hobject
      obtain ⟨members, rfl⟩ := Json.isObject_iff.mp hobject
      rw [hread hraw] at hnames
      cases hnames
      exact ⟨headerB64, payloadB64, signatureB64, headerBytes, members, hsegments, hheaderBytes,
        hraw, nodup_of_firstDuplicate hnone, hheader, hpayload, hsignature⟩
  · cases h

theorem numericDate_ok {v : Json} {secs : Int} (h : numericDate v = .ok secs) :
    ∃ n : UInt64, v = .number (.posInt n) ∧ secs = n.toNat := by
  unfold numericDate at h
  split at h
  · rename_i n
    simp only [bind_eq_ok, ensure_eq_ok, pure_eq_ok] at h
    obtain ⟨-, -, -, -, rfl⟩ := h
    exact ⟨n, rfl, rfl⟩
  · cases h
  · cases h
  · cases h

theorem checkTimeClaims_ok {claims : List String} (h : checkTimeClaims value claims = .ok ()) :
    ∀ claim ∈ claims, ∀ v, value.get? claim = some v → ∃ n : UInt64, v = .number (.posInt n) := by
  induction claims with
  | nil =>
    intro claim hclaim
    cases hclaim
  | cons first rest ih =>
    intro claim hclaim v hv
    rw [checkTimeClaims] at h
    cases hget : value.get? first with
    | none =>
      rw [hget] at h
      rcases List.mem_cons.mp hclaim with rfl | hmem
      · rw [hget] at hv
        cases hv
      · exact ih h claim hmem v hv
    | some v' =>
      rw [hget] at h
      simp only [bind_eq_ok, mapError_eq_ok] at h
      obtain ⟨secs, hsecs, hrest⟩ := h
      rcases List.mem_cons.mp hclaim with rfl | hmem
      · rw [hget] at hv
        cases hv
        obtain ⟨n, hn, -⟩ := numericDate_ok hsecs
        exact ⟨n, hn⟩
      · exact ih hrest claim hmem v hv

/-- The conversion of a key that is selected. -/
theorem acceptKey_converts {key : Json} {alg : String} {decodingKey : J.DecodingKey}
    (h : acceptKey key J alg = .ok decodingKey) :
    ∃ jwk, J.jwkFromValue key = some jwk ∧ J.fromJwk jwk = some decodingKey := by
  simp only [acceptKey, bind_eq_ok, require_eq_ok] at h
  obtain ⟨-, -, -, -, -, -, -, -, -, -, -, -, -, -, jwk, hjwk, hdecoding⟩ := h
  exact ⟨jwk, hjwk, hdecoding⟩

/-- What the library was asked, and what was checked before. -/
theorem verifyIdTokenAgainstJwks_ok {now : Int} {token : String} {idTokenAlgs : List String}
    {jwks : Jwks} {claims : VerifiedIdTokenClaims}
    (h : verifyIdTokenAgainstJwks J now token idTokenAlgs jwks = .ok claims) :
    ∃ compact algorithm decodingKey, parseCompactJws J token = .ok compact ∧
      firstDuplicateMember J compact.payload = none ∧
      checkTimeClaims ((J.fromSlice compact.payload).getD .null) ["exp", "nbf"] = .ok () ∧
      compact.header.alg ∈ idTokenAlgs ∧
      selectKey J jwks compact.header.kid compact.header.alg = .ok decodingKey ∧
      J.parseAlgorithm compact.header.alg = some algorithm ∧
      J.decode token decodingKey (validationFor algorithm) now = .ok claims.payload := by
  simp only [verifyIdTokenAgainstJwks, bind_eq_ok, mapError_eq_ok] at h
  obtain ⟨compact, hcompact, h⟩ := h
  split at h
  · cases h
  · rename_i hnone
    simp only [bind_eq_ok, mapError_eq_ok, ensure_eq_ok, require_eq_ok, pure_eq_ok] at h
    obtain ⟨⟨⟩, htimes, -, halg, decodingKey, hkey, algorithm, halgorithm, payload, hdecode,
      rfl⟩ := h
    exact ⟨compact, algorithm, decodingKey, hcompact, hnone, htimes,
      List.contains_iff_mem.mp halg, hkey, halgorithm, hdecode⟩

end Rules

/-! ## Identity and time -/

section Claims

variable {claims : VerifiedIdTokenClaims} {issuer clientId : String}

theorem validateIssuer_ok (h : validateIssuer claims issuer = .ok ()) :
    claims.payload.get? "iss" = some (.string issuer) := by
  simp only [validateIssuer, bind_eq_ok, require_eq_ok, ensure_eq_ok, beq_iff_eq] at h
  obtain ⟨value, hvalue, iss, hiss, rfl⟩ := h
  rw [Json.asStr?_eq_some.mp hiss] at hvalue
  exact hvalue

theorem validateSubject_ok {sub : String} (h : validateSubject claims = .ok sub) :
    claims.payload.get? "sub" = some (.string sub) ∧
      (1 ≤ sub.utf8ByteSize ∧ sub.utf8ByteSize ≤ 255) ∧ ∀ c ∈ sub.toList, isControl c = false := by
  simp only [validateSubject, bind_eq_ok, require_eq_ok, ensure_eq_ok, pure_eq_ok] at h
  obtain ⟨value, hvalue, sub', hsub, -, hlength, -, hcontrol, rfl⟩ := h
  rw [Json.asStr?_eq_some.mp hsub] at hvalue
  rw [Bool.and_eq_true, decide_eq_true_eq, decide_eq_true_eq] at hlength
  rw [Bool.not_eq_true'] at hcontrol
  refine ⟨hvalue, hlength, fun c hc => ?_⟩
  have hnot := List.any_eq_false.mp hcontrol c hc
  simpa using hnot

variable {audiences : List String}

private theorem items_of_audiences {items : List Json} {e : IdentityClaimsError}
    (h : List.Forall₂ (fun item s => require item.asStr? e = .ok s) items audiences) :
    items = audiences.map .string := by
  induction h with
  | nil => rfl
  | cons hitem _ ih =>
    rw [List.map_cons, ← ih, Json.asStr?_eq_some.mp (require_eq_ok.mp hitem)]

theorem audiencesOf_ok {value : Json} (h : audiencesOf value = .ok audiences) :
    (∃ s, value = .string s ∧ audiences = [s]) ∨ value = .array (audiences.map .string) := by
  unfold audiencesOf at h
  split at h
  · rename_i s
    left
    exact ⟨s, rfl, (pure_eq_ok.mp h).symm⟩
  · right
    rw [← items_of_audiences (mapM_eq_ok.mp h)]
  · cases h

/-- The audiences are a string or a list without repetition, and the client is one of them. -/
theorem validateAudience_ok (h : validateAudience claims clientId = .ok audiences) :
    claims.payload.get? "aud" = some (.string clientId) ∨
      claims.payload.get? "aud" = some (.array (audiences.map .string)) ∧
        audiences.Nodup ∧ audiences.length ≤ 8 ∧ clientId ∈ audiences := by
  simp only [validateAudience, bind_eq_ok, require_eq_ok, ensure_eq_ok, pure_eq_ok] at h
  obtain ⟨value, hvalue, audiences', haudiences, -, -, -, hmany, -, hdistinct, -, hclient, rfl⟩ := h
  have hmem : clientId ∈ audiences' := List.contains_iff_mem.mp hclient
  rcases audiencesOf_ok haudiences with ⟨s, rfl, rfl⟩ | rfl
  · left
    rw [List.mem_singleton.mp hmem]
    exact hvalue
  · right
    refine ⟨hvalue, nodup_of_firstDuplicate (Option.isNone_iff_eq_none.mp hdistinct), ?_, hmem⟩
    rw [Bool.not_eq_true', decide_eq_false_iff_not] at hmany
    omega

theorem validateAzp_ok (h : validateAzp claims audiences clientId = .ok ()) :
    (1 < audiences.length → claims.payload.get? "azp" = some (.string clientId)) ∧
      ∀ v, claims.payload.get? "azp" = some v → v = .string clientId := by
  simp only [validateAzp, VerifiedIdTokenClaims.claim, bind_eq_ok, ensure_eq_ok] at h
  obtain ⟨-, hmissing, h⟩ := h
  cases hazp : claims.payload.get? "azp" with
  | none =>
    rw [hazp, Option.isNone_none, Bool.and_true, Bool.not_eq_true', decide_eq_false_iff_not]
      at hmissing
    exact ⟨fun hmany => absurd hmany hmissing, fun v hv => by cases hv⟩
  | some azpValue =>
    rw [hazp] at h
    simp only [bind_eq_ok, require_eq_ok, ensure_eq_ok, beq_iff_eq] at h
    obtain ⟨azp, hstring, rfl⟩ := h
    rw [Json.asStr?_eq_some.mp hstring]
    refine ⟨fun _ => rfl, fun v hv => ?_⟩
    exact (Option.some.inj hv).symm

theorem validateIat_ok {createdAt now : DateTime} (h : validateIat claims createdAt now = .ok ()) :
    ∃ iat : UInt64, claims.payload.get? "iat" = some (.number (.posInt iat)) ∧
      timestamp createdAt - 60 ≤ iat.toNat ∧ iat.toNat ≤ timestamp now + 60 := by
  simp only [validateIat, bind_eq_ok, require_eq_ok, mapError_eq_ok, ensure_eq_ok,
    Bool.not_eq_true', skewSeconds] at h
  obtain ⟨value, hvalue, secs, hsecs, -, hold, hnew⟩ := h
  obtain ⟨iat, rfl, rfl⟩ := numericDate_ok hsecs
  have hnotOld := of_decide_eq_false hold
  have hnotNew := of_decide_eq_false hnew
  refine ⟨iat, hvalue, ?_, ?_⟩
  · omega
  · omega

theorem issuer_of_identity {identity : RequiredIdentityClaims}
    (h : validateIdentityClaims claims issuer clientId = .ok identity) :
    claims.payload.get? "iss" = some (.string issuer) := by
  simp only [validateIdentityClaims, bind_eq_ok] at h
  obtain ⟨⟨⟩, hissuer, -⟩ := h
  exact validateIssuer_ok hissuer

variable {members : List (String × Json)}

/-- What the identity claims say about the document. -/
theorem validateIdentityClaims_ok {identity : RequiredIdentityClaims}
    (hpayload : claims.payload = Json.collect (.object members))
    (hnodup : (Json.names members).Nodup)
    (h : validateIdentityClaims claims issuer clientId = .ok identity) :
    SoundPayload issuer clientId identity.sub members := by
  simp only [validateIdentityClaims, bind_eq_ok, pure_eq_ok] at h
  obtain ⟨⟨⟩, hissuer, sub, hsub, audiences, haudience, ⟨⟩, hazp, rfl⟩ := h
  have hiss := validateIssuer_ok hissuer
  obtain ⟨hsubject, hlength, hcontrol⟩ := validateSubject_ok hsub
  have haud := validateAudience_ok haudience
  obtain ⟨hmany, hclient⟩ := validateAzp_ok hazp
  rw [hpayload] at hiss hsubject haud hmany hclient
  refine ⟨hnodup, member_string_of_get? hnodup hiss, ⟨?_, fun v hv => ?_⟩,
    member_string_of_get? hnodup hsubject, hlength, hcontrol⟩
  · rcases haud with hsingle | ⟨hlist, hdistinct, hfew, hmem⟩
    · left
      exact member_string_of_get? hnodup hsingle
    · right
      refine ⟨audiences, member_strings_of_get? hnodup hlist, hdistinct, hfew, hmem,
        fun hlong => ?_⟩
      exact member_string_of_get? hnodup (hmany hlong)
  · exact Json.collect_eq_string.mp (hclient _ (get?_of_member hnodup hv))

end Claims

/-! ## Accepted tokens -/

section Accepted

variable {J : JoseCrates} {verifies : Bytes → Bytes → J.DecodingKey → J.Algorithm → Prop}
  {clock : Int} {token issuer clientId : String} {idTokenAlgs : List String} {jwksBytes : Bytes}
  {jwks : Jwks} {claims : VerifiedIdTokenClaims} {identity : RequiredIdentityClaims}
  {createdAt now : DateTime}

/-- A token whose document has passed every rule. -/
def SoundToken (J : JoseCrates) (verifies : Bytes → Bytes → J.DecodingKey → J.Algorithm → Prop)
    (clock : Int) (token : String) (idTokenAlgs : List String) (jwksBytes : Bytes)
    (issuer clientId sub : String) (createdAt now : DateTime) : Prop :=
  ∃ headerB64 payloadB64 signatureB64 headerBytes payloadBytes signature header payload alg kid,
    segments token = [headerB64, payloadB64, signatureB64] ∧
      J.decodeVec headerB64 = some headerBytes ∧ J.read headerBytes = some (.object header) ∧
      J.decodeVec payloadB64 = some payloadBytes ∧ J.read payloadBytes = some (.object payload) ∧
      J.decodeVec signatureB64 = some signature ∧
      SoundHeader idTokenAlgs alg kid header ∧ SoundPayload issuer clientId sub payload ∧
      SoundTimes clock (timestamp createdAt) (timestamp now) payload ∧
      SignedBy J verifies jwksBytes alg kid (headerB64 ++ "." ++ payloadB64) signature

/-- A payload in which the library found the required claims, and that has an issuer, is an object
whose names are all different. -/
private theorem exists_payload (hJ : J.Lawful verifies) {bytes : Bytes}
    (hslice : J.fromSlice bytes = some claims.payload)
    (hduplicate : firstDuplicateMember J bytes = none)
    (hobject : claims.payload.isObject = true) :
    ∃ members, J.read bytes = some (.object members) ∧ (Json.names members).Nodup ∧
      claims.payload = Json.collect (.object members) := by
  obtain ⟨raw, hraw, hcollect⟩ := Option.map_eq_some_iff.mp hslice
  rw [← hcollect, Json.isObject_collect] at hobject
  obtain ⟨members, rfl⟩ := Json.isObject_iff.mp hobject
  rw [firstDuplicateMember, hJ.names hraw, Option.getD_some] at hduplicate
  exact ⟨members, hraw, nodup_of_firstDuplicate hduplicate, hcollect.symm⟩

/-- The times of a token that the library let through. -/
private theorem soundTimes (hJ : J.Lawful verifies) {decodingKey : J.DecodingKey}
    {algorithm : J.Algorithm} {members : List (String × Json)}
    (hpayload : claims.payload = Json.collect (.object members))
    (hnodup : (Json.names members).Nodup)
    (hchecked : checkTimeClaims claims.payload ["exp", "nbf"] = .ok ())
    (hdecode : J.decode token decodingKey (validationFor algorithm) clock = .ok claims.payload)
    (hiat : validateIat claims createdAt now = .ok ()) :
    SoundTimes clock (timestamp createdAt) (timestamp now) members := by
  have hnumbers := checkTimeClaims_ok hchecked
  obtain ⟨iat, hget, hafter, hbefore⟩ := validateIat_ok hiat
  have hobject : claims.payload.isObject = true := by
    rw [hpayload, Json.isObject_collect]
    rfl
  refine ⟨?_, fun v hv => ?_, iat, ?_, hafter, hbefore⟩
  · obtain ⟨v, hv⟩ := Option.isSome_iff_exists.mp
      (hJ.required hdecode hobject "exp" (List.mem_singleton_self _))
    obtain ⟨exp, rfl⟩ := hnumbers "exp" (by decide) v hv
    have hlate := hJ.exp hdecode rfl hv
    rw [hpayload] at hv
    exact ⟨exp, member_number_of_get? hnodup hv, hlate⟩
  · have hget := get?_of_member hnodup hv
    rw [← hpayload] at hget
    obtain ⟨nbf, hnumber⟩ := hnumbers "nbf" (by decide) _ hget
    rw [hnumber] at hget
    exact ⟨nbf, Json.collect_eq_number.mp hnumber, hJ.nbf hdecode rfl hget⟩
  · rw [hpayload] at hget
    exact member_number_of_get? hnodup hget

/-- A token that is accepted is sound in every part of its document. -/
theorem accepted_id_token_sound (hJ : J.Lawful verifies) (hparse : parseJwks J jwksBytes = .ok jwks)
    (hverify : verifyIdTokenAgainstJwks J clock token idTokenAlgs jwks = .ok claims)
    (hidentity : validateIdentityClaims claims issuer clientId = .ok identity)
    (hiat : validateIat claims createdAt now = .ok ()) :
    SoundToken J verifies clock token idTokenAlgs jwksBytes issuer clientId identity.sub createdAt
      now := by
  obtain ⟨compact, algorithm, decodingKey, hcompact, hduplicate, htimes, hallowed, hkey, halgorithm,
    hdecode⟩ := verifyIdTokenAgainstJwks_ok hverify
  obtain ⟨headerB64, payloadB64, signatureB64, headerBytes, header, hsegments, hheaderBytes,
    hheader, hdistinct, hmembers, hpayloadBytes, hsignature⟩ := parseCompactJws_ok hJ.names hcompact
  obtain ⟨halg, hkid, hforbidden, hlength, hvisible⟩ := validateHeader_ok hmembers
  obtain ⟨key, before, after, -, honly, -, haccept⟩ := selectKey_ok hparse hkey
  obtain ⟨jwk, hjwk, hdecodingKey⟩ := acceptKey_converts haccept
  -- the library reads the payload and the signature from the same segments
  obtain ⟨bytes, hbytes, hslice⟩ := hJ.payload hsegments hdecode
  rw [hpayloadBytes] at hbytes
  cases hbytes
  rw [hslice, Option.getD_some] at htimes
  obtain ⟨bytes, algorithm', halgorithm', hbytes, hverified⟩ := hJ.signature hsegments hdecode rfl
  rw [hsignature] at hbytes
  cases hbytes
  cases List.mem_singleton.mp halgorithm'
  have hobject := Json.isObject_of_get? (issuer_of_identity hidentity)
  obtain ⟨payload, hread, hnodup, hpayload⟩ := exists_payload hJ hslice hduplicate hobject
  refine ⟨headerB64, payloadB64, signatureB64, headerBytes, compact.payload, compact.signature,
    header, payload, compact.header.alg, compact.header.kid, hsegments, hheaderBytes, hheader,
    hpayloadBytes, hread, hsignature, ⟨hdistinct, member_string_of_get? hdistinct halg, hallowed,
      member_string_of_get? hdistinct hkid, hlength, hvisible, fun name hname => ?_⟩,
    validateIdentityClaims_ok hpayload hnodup hidentity,
    soundTimes hJ hpayload hnodup htimes hdecode hiat,
    key, jwk, decodingKey, algorithm, honly, hjwk, hdecodingKey, halgorithm, hverified⟩
  exact Json.get?_collect_eq_none.mp (hforbidden name hname)

end Accepted

/-! ## A token that is put together from its parts -/

private theorem startsWith_dotted (header payload signature : Bytes) :
    Text.startsWith (Base64Url.dotted header payload signature) "\x7b" = false := by
  rw [← Bool.not_eq_true]
  intro hstarts
  obtain ⟨rest, hrest⟩ := List.isPrefixOf_iff_prefix.mp hstarts
  rw [Base64Url.dotted] at hrest
  simp only [String.toList_append] at hrest
  cases hheader : (Base64Url.encode header).toList with
  | nil =>
    rw [hheader] at hrest
    have hfirst : some '\x7b' = some '.' := congrArg List.head? hrest
    exact absurd (Option.some.inj hfirst) (by decide)
  | cons c cs =>
    rw [hheader] at hrest
    have hfirst : some '\x7b' = some c := congrArg List.head? hrest
    have hmem : c ∈ (Base64Url.encode header).toList := by
      rw [hheader]
      exact List.mem_cons_self ..
    rw [← Option.some.inj hfirst] at hmem
    exact absurd (Base64Url.range_of_mem_alphabet (Base64Url.mem_alphabet hmem)).2.1 (by decide)

/-- Bytes of a header with the required members, of a payload and of a signature make a token that
is taken apart into them. -/
theorem parseCompactJws_dotted {J : JoseCrates} {headerBytes payload signature : Bytes}
    {value : Json} {header : ValidatedHeader}
    (hdecode : ∀ bytes, J.decodeVec (Base64Url.encode bytes) = some bytes)
    (hheaderBytes : headerBytes ≠ []) (hpayload : payload ≠ []) (hsignature : signature ≠ [])
    (hsize : headerBytes.length + payload.length ≤ maxDecodedHeaderAndPayload)
    (htoken : (Base64Url.dotted headerBytes payload signature).utf8ByteSize ≤ maxEncodedJwsLen)
    (hvalue : J.fromSlice headerBytes = some value) (hobject : value.isObject = true)
    (hnames : J.memberNames headerBytes = some names) (hdistinct : names.Nodup)
    (hheader : validateHeader value = .ok header) :
    parseCompactJws J (Base64Url.dotted headerBytes payload signature) =
      .ok { header, signingInput := Base64Url.encode headerBytes ++ "." ++ Base64Url.encode payload
            payload, signature } := by
  have hnone : firstDuplicate [] names = none :=
    firstDuplicate_eq_none.mpr ⟨hdistinct, fun _ _ h => nomatch h⟩
  have hshort : ∀ bytes : Bytes, bytes.length ≤ maxDecodedHeaderAndPayload →
      ¬ maxEncodedSegment < (Base64Url.encode bytes).utf8ByteSize := by
    intro bytes hbytes
    rw [Base64Url.utf8ByteSize_encode, Base64Url.width, maxEncodedSegment]
    rw [maxDecodedHeaderAndPayload] at hbytes ⊢
    omega
  have hshortHeader := hshort headerBytes (by omega)
  have hshortPayload := hshort payload (by omega)
  simp only [parseCompactJws, bind_eq_ok, ensure_eq_ok, decide_eq_true_eq]
  refine ⟨(), htoken, (), by rw [startsWith_dotted]; rfl, ?_⟩
  rw [segments, Base64Url.split_dotted]
  simp only [bind_eq_ok, ensure_eq_ok, require_eq_ok, decide_eq_true_eq, Base64Url.isEmpty_encode,
    hheaderBytes, hpayload, hsignature, hshortHeader, hshortPayload, hdecode, ne_eq,
    not_false_eq_true, decide_false, Bool.or_false, Bool.not_false]
  refine ⟨(), trivial, (), trivial, (), trivial, (), trivial, _, rfl, _, rfl, _, rfl, (), hsize,
    value, hvalue, (), hobject, names, hnames, ?_⟩
  rw [hnone]
  exact bind_eq_ok.mpr ⟨header, hheader, rfl⟩

/-! ## A signed token -/

def edX : String := "11qYAYKxCrfVS_7TyWQHOg7hcvPapiMlrwIaaPcHURo"

def edKey : Json :=
  .object [("crv", .string "Ed25519"), ("kid", .string "k"), ("kty", .string "OKP"),
    ("x", .string edX)]

def edKeys : Json := .object [("keys", .array [edKey])]

def edKeysText : String :=
  "\x7b\"keys\":[\x7b\"crv\":\"Ed25519\",\"kid\":\"k\",\"kty\":\"OKP\",\"x\":\"" ++ edX ++
    "\"\x7d]\x7d"

def edHeaderText : String := "\x7b\"alg\":\"EdDSA\",\"kid\":\"k\"\x7d"

def edHeader : Json := .object [("alg", .string "EdDSA"), ("kid", .string "k")]

def edClaimsText : String :=
  "\x7b\"aud\":\"c\",\"exp\":9,\"iat\":9,\"iss\":\"i\",\"sub\":\"s\"\x7d"

def edClaims : Json :=
  .object [("aud", .string "c"), ("exp", .number (.posInt 9)), ("iat", .number (.posInt 9)),
    ("iss", .string "i"), ("sub", .string "s")]

/-- The signature of the key `edX` on the header and the claims. -/
def edSignature : Bytes :=
  [123, 213, 53, 9, 16, 152, 26, 150, 203, 57, 45, 68, 56, 167, 213, 93, 69, 230, 116, 31, 68, 111,
    152, 111, 189, 199, 39, 125, 57, 128, 223, 19, 214, 26, 169, 55, 160, 34, 40, 139, 168, 63, 68,
    72, 168, 40, 11, 144, 222, 129, 239, 175, 100, 69, 130, 208, 241, 237, 3, 123, 62, 25, 186, 9]

def edToken : String := Base64Url.dotted (utf8 edHeaderText) (utf8 edClaimsText) edSignature

def edVerifies (message signature : Bytes) (key : Json) (algorithm : String) : Prop :=
  message = utf8 (Base64Url.encode (utf8 edHeaderText) ++ "." ++
      Base64Url.encode (utf8 edClaimsText)) ∧
    signature = edSignature ∧ key.get? "x" = some (.string edX) ∧ algorithm = "EdDSA"

/-- The decoder, as it treats this token and refuses every other. -/
def edDecode (token : String) (key : Json) (validation : Validation String) (now : Int) :
    Except DecodeError Json := do
  ensure (token == edToken && (key.get? "x").bind Json.asStr? == some edX &&
    validation.algorithms.contains "EdDSA") .other
  ensure (validation.requiredSpecClaims.all fun name => (edClaims.get? name).isSome) .other
  ensure (now ≤ 9 + validation.leeway) .expiredSignature
  pure edClaims

def JoseCrates.ed : JoseCrates :=
  { JoseCrates.sample
      [(edKeysText, edKeys), (edHeaderText, edHeader), (edClaimsText, edClaims)] with
    decode := edDecode }

private theorem edDecode_ok {token : String} {key claims : Json} {validation : Validation String}
    {now : Int} (h : edDecode token key validation now = .ok claims) :
    token = edToken ∧ key.get? "x" = some (.string edX) ∧ "EdDSA" ∈ validation.algorithms ∧
      (∀ name ∈ validation.requiredSpecClaims, (edClaims.get? name).isSome) ∧
      now ≤ 9 + validation.leeway ∧ claims = edClaims := by
  simp only [edDecode, bind_eq_ok, ensure_eq_ok, pure_eq_ok, Bool.and_eq_true, beq_iff_eq,
    decide_eq_true_eq, List.all_eq_true, List.contains_iff_mem] at h
  obtain ⟨-, ⟨⟨htoken, hkey⟩, halg⟩, -, hrequired, -, hexp, rfl⟩ := h
  obtain ⟨v, hv, hstring⟩ := Option.bind_eq_some_iff.mp hkey
  rw [Json.asStr?_eq_some.mp hstring] at hv
  exact ⟨htoken, hv, halg, hrequired, hexp, rfl⟩

private theorem collect_edClaims : edClaims.collect = edClaims := rfl

private theorem read_ed : JoseCrates.ed.read (utf8 edKeysText) = some edKeys ∧
    JoseCrates.ed.read (utf8 edHeaderText) = some edHeader ∧
    JoseCrates.ed.read (utf8 edClaimsText) = some edClaims := by
  have hheader : utf8 edKeysText ≠ utf8 edHeaderText := by decide +kernel
  have hclaims : utf8 edKeysText ≠ utf8 edClaimsText := by decide +kernel
  have hclaims' : utf8 edHeaderText ≠ utf8 edClaimsText := by decide +kernel
  refine ⟨?_, ?_, ?_⟩
  · simp [JoseCrates.ed, JoseCrates.sample, readSample]
  · simp [JoseCrates.ed, JoseCrates.sample, readSample, hheader]
  · simp [JoseCrates.ed, JoseCrates.sample, readSample, hclaims, hclaims']

private theorem decodeVec_ed (bytes : Bytes) :
    JoseCrates.ed.decodeVec (Base64Url.encode bytes) = some bytes := Base64Url.decode_encode bytes

theorem JoseCrates.lawful_ed : JoseCrates.ed.Lawful edVerifies where
  names := by
    intro bytes members h
    have hread : readSample
        [(edKeysText, edKeys), (edHeaderText, edHeader), (edClaimsText, edClaims)] bytes =
        some (.object members) := h
    simp only [JoseCrates.ed, JoseCrates.sample, hread]
  payload := by
    intro token h p s key validation now claims hsegments hdecode
    obtain ⟨rfl, -, -, -, -, rfl⟩ := edDecode_ok hdecode
    rw [segments, edToken, Base64Url.split_dotted] at hsegments
    simp only [List.cons.injEq, and_true] at hsegments
    obtain ⟨-, rfl, -⟩ := hsegments
    refine ⟨utf8 edClaimsText, decodeVec_ed _, ?_⟩
    rw [JoseCrates.fromSlice, read_ed.2.2, Option.map_some, collect_edClaims]
  signature := by
    intro token h p s key validation now claims hsegments hdecode hsignature
    obtain ⟨rfl, hkey, halg, -, -, rfl⟩ := edDecode_ok hdecode
    rw [segments, edToken, Base64Url.split_dotted] at hsegments
    simp only [List.cons.injEq, and_true] at hsegments
    obtain ⟨rfl, rfl, rfl⟩ := hsegments
    exact ⟨edSignature, "EdDSA", halg, decodeVec_ed _, rfl, rfl, hkey, rfl⟩
  required := by
    intro token key validation now claims hdecode hobject name hname
    obtain ⟨-, -, -, hrequired, -, rfl⟩ := edDecode_ok hdecode
    exact hrequired name hname
  exp := by
    intro token key validation now claims exp hdecode hvalidate hexp
    obtain ⟨-, -, -, -, hnow, rfl⟩ := edDecode_ok hdecode
    cases hexp
    exact hnow
  nbf := by
    intro token key validation now claims nbf hdecode hvalidate hnbf
    obtain ⟨-, -, -, -, -, rfl⟩ := edDecode_ok hdecode
    cases hnbf

private theorem parseJwks_ed : parseJwks .ed (utf8 edKeysText) = .ok ⟨[edKey]⟩ := by
  have hbytes : (utf8 edKeysText).length ≤ maxResponseBytes := by decide +kernel
  have hsmall : "Ed25519".utf8ByteSize ≤ 8 * 1024 ∧ "k".utf8ByteSize ≤ 8 * 1024 ∧
      "OKP".utf8ByteSize ≤ 8 * 1024 ∧ edX.utf8ByteSize ≤ 8 * 1024 := by decide
  apply parseJwks_of hbytes read_ed.1
  · rfl
  · simp [checkCaps, checkCapsMembers, checkCapsItems, edKeys, edKey,
      ResponseCaps.jwksAndTransport, hsmall, bind_eq_ok, ensure_eq_ok]
  · show 3 ≤ 16
    decide
  · simp [edKeys, edKey, firstRepeatedMember, repeatedAfter, repeatedInItems]
  · rfl
  · exact Nat.le_add_left 1 31
  · rfl

private theorem selectKey_ed :
    selectKey .ed ⟨[edKey]⟩ "k" "EdDSA" = .ok (edKey : JoseCrates.ed.DecodingKey) := by
  show acceptKey edKey .ed "EdDSA" = .ok edKey
  refine bind_eq_ok.mpr ⟨(), rfl, bind_eq_ok.mpr ⟨(), rfl, bind_eq_ok.mpr ⟨(), rfl,
    bind_eq_ok.mpr ⟨(), rfl, bind_eq_ok.mpr ⟨"OKP", rfl, bind_eq_ok.mpr ⟨(), rfl, ?_⟩⟩⟩⟩⟩⟩
  exact bind_eq_ok.mpr ⟨(), rfl, rfl⟩

private theorem parseCompactJws_ed :
    ∃ compact, parseCompactJws .ed edToken = .ok compact ∧
      compact.header = { alg := "EdDSA", kid := "k", typ := none } ∧
      compact.payload = utf8 edClaimsText := by
  have hcollect : edHeader.collect = edHeader := rfl
  have htoken : edToken.utf8ByteSize ≤ maxEncodedJwsLen := by
    rw [edToken, Base64Url.dotted]
    simp only [String.utf8ByteSize_append, Base64Url.utf8ByteSize_encode]
    decide +kernel
  have hvalue : JoseCrates.ed.fromSlice (utf8 edHeaderText) = some edHeader := by
    rw [JoseCrates.fromSlice, read_ed.2.1, Option.map_some, hcollect]
  have hnames : JoseCrates.ed.memberNames (utf8 edHeaderText) = some ["alg", "kid"] :=
    JoseCrates.lawful_ed.names read_ed.2.1
  have hheader : validateHeader edHeader = .ok { alg := "EdDSA", kid := "k", typ := none } := by
    decide +kernel
  exact ⟨_, parseCompactJws_dotted decodeVec_ed (by decide +kernel) (by decide +kernel)
    (by decide) (by decide +kernel) htoken hvalue rfl hnames (by decide) hheader, rfl, rfl⟩

private theorem verifyIdTokenAgainstJwks_ed :
    verifyIdTokenAgainstJwks .ed 9 edToken ["EdDSA"] ⟨[edKey]⟩ = .ok ⟨edClaims⟩ := by
  obtain ⟨compact, hcompact, hheader, hpayload⟩ := parseCompactJws_ed
  have hduplicate : firstDuplicateMember .ed (utf8 edClaimsText) = none := by
    rw [firstDuplicateMember, JoseCrates.lawful_ed.names read_ed.2.2]
    decide
  have hslice : JoseCrates.ed.fromSlice (utf8 edClaimsText) = some edClaims := by
    rw [JoseCrates.fromSlice, read_ed.2.2, Option.map_some, collect_edClaims]
  have htimes : checkTimeClaims edClaims ["exp", "nbf"] = .ok () := by decide
  have hdecode : JoseCrates.ed.decode edToken edKey (validationFor "EdDSA") 9 = .ok edClaims := by
    refine bind_eq_ok.mpr ⟨(), ?_, rfl⟩
    rw [ensure_eq_ok, beq_self_eq_true]
    rfl
  simp only [verifyIdTokenAgainstJwks, bind_eq_ok, mapError_eq_ok]
  refine ⟨compact, hcompact, ?_⟩
  rw [hheader, hpayload, hduplicate, hslice]
  exact bind_eq_ok.mpr ⟨(), htimes, bind_eq_ok.mpr ⟨(), rfl, bind_eq_ok.mpr ⟨edKey,
    mapError_eq_ok.mpr selectKey_ed, bind_eq_ok.mpr ⟨"EdDSA", rfl, bind_eq_ok.mpr ⟨edClaims,
      mapError_eq_ok.mpr hdecode, rfl⟩⟩⟩⟩⟩

/-- A token of nine seconds past the epoch, at that second. -/
theorem accepted_id_token_sound_ed :
    SoundToken .ed edVerifies 9 edToken ["EdDSA"] (utf8 edKeysText) "i" "c" "s" 9000000000
      9000000000 := by
  have hidentity : validateIdentityClaims ⟨edClaims⟩ "i" "c" = .ok ⟨"s"⟩ := by decide +kernel
  exact accepted_id_token_sound JoseCrates.lawful_ed parseJwks_ed verifyIdTokenAgainstJwks_ed
    hidentity (by decide +kernel)

end SuiId
