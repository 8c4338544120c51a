import SuiId.Core.Jwks
import SuiId.Lib.Base64
import SuiId.Store.Schema

/-!
# The key that is selected

`acceptKey_ok` reads every rule of `select_key` off a key that is selected.  The rules look at
members of the expected type and skip the others; that the conversion of the key refuses those is
what `JoseCrates.TypedMembers` asks of it.  `null` is no member to it.

The rules of RSA are about bytes.  That the exponent is odd and at least three follows from them,
but two thousand and forty-eight bits do not follow from two hundred and fifty-six bytes: the
first of them may be zero.
-/

namespace SuiId

open Lib Lib.Result

/-- The conversion of a key refuses `use`, `alg` and `key_ops` of another type. -/
structure JoseCrates.TypedMembers (J : JoseCrates) : Prop where
  text : ∀ {key jwk name v}, J.jwkFromValue key = some jwk → name ∈ ["use", "alg"] →
    key.get? name = some v → v = .null ∨ ∃ s, v = .string s
  texts : ∀ {key jwk v}, J.jwkFromValue key = some jwk → key.get? "key_ops" = some v →
    v = .null ∨ ∃ ops : List String, v = .array (ops.map .string)

/-! ## What a selected key is -/

/-- The key type of an algorithm, and its curve. -/
inductive AlgRequires : String → String → Option String → Prop where
  | rsa {alg : String} (h : alg ∈ ["RS256", "RS384", "RS512", "PS256", "PS384", "PS512"]) :
      AlgRequires alg "RSA" none
  | es256 : AlgRequires "ES256" "EC" (some "P-256")
  | edDSA : AlgRequires "EdDSA" "OKP" (some "Ed25519")

theorem AlgRequires.mem_of_rsa {alg kty : String} {crv : Option String}
    (h : AlgRequires alg kty crv) (hkty : kty = "RSA") :
    alg ∈ ["RS256", "RS384", "RS512", "PS256", "PS384", "PS512"] := by
  cases h with
  | rsa hmem => exact hmem
  | es256 => exact absurd hkty (by decide)
  | edDSA => exact absurd hkty (by decide)

theorem AlgRequires.rsa_unique {alg kty : String} {crv : Option String}
    (h : AlgRequires alg "RSA" none) (hrequires : AlgRequires alg kty crv) : kty = "RSA" := by
  have hmem := h.mem_of_rsa rfl
  cases hrequires with
  | rsa hmem' => rfl
  | es256 => exact absurd hmem (by decide)
  | edDSA => exact absurd hmem (by decide)

/-- An RSA key of at least 2048 bits with an odd exponent of at least three. -/
structure StrongRsa (J : JoseCrates) (key : Json) : Prop where
  modulus : ∃ n nBytes, key.get? "n" = some (.string n) ∧ J.decodeVec n = some nBytes ∧
    2 ^ 2047 ≤ ofBytes nBytes
  exponent : ∃ e eBytes, key.get? "e" = some (.string e) ∧ J.decodeVec e = some eBytes ∧
    ofBytes eBytes % 2 = 1 ∧ 3 ≤ ofBytes eBytes

/-- Of the keys of the document, this one and no other has the `kid`. -/
def OnlyKey (J : JoseCrates) (bytes : Bytes) (kid : String) (key : Json) : Prop :=
  ∃ document before after, J.fromSlice bytes = some document ∧
    document.get? "keys" = some (.array (before ++ key :: after)) ∧
    key.get? "kid" = some (.string kid) ∧
    ∀ other ∈ before ++ after, other.get? "kid" ≠ some (.string kid)

/-- What is promised of a key beside its RSA parameters. -/
structure UsableKey (headerAlg keyType : String) (key : Json) : Prop where
  isPublic : ∀ member ∈ ["d", "p", "q", "dp", "dq", "qi", "oth"], key.get? member = none
  use : ∀ v, key.get? "use" = some v → v = .null ∨ v = .string "sig"
  ops : ∀ v, key.get? "key_ops" = some v →
    v = .null ∨ ∃ ops : List String, v = .array (ops.map .string) ∧ ∀ op ∈ ops, op = "verify"
  alg : ∀ v, key.get? "alg" = some v → v = .null ∨ v = .string headerAlg
  kty : key.get? "kty" = some (.string keyType)
  required : ∃ crv, AlgRequires headerAlg keyType crv ∧ ∀ c ∈ crv, key.get? "crv" = some (.string c)

/-! ## Reading the rules off -/

section Rules

variable {J : JoseCrates} {key : Json} {alg kty kid : String}

private theorem member_string {name s : String} (h : (key.get? name).bind Json.asStr? = some s) :
    key.get? name = some (.string s) := by
  obtain ⟨v, hv, hs⟩ := Option.bind_eq_some_iff.mp h
  rw [hv, Json.asStr?_eq_some.mp hs]

/-- A rule that is only about strings is about every member, if the others are refused. -/
private theorem member_of_text {name : String} {p : String → Prop}
    (htyped : ∀ v, key.get? name = some v → v = .null ∨ ∃ s, v = .string s)
    (hrule : ∀ s, (key.get? name).bind Json.asStr? = some s → p s) (v : Json)
    (hv : key.get? name = some v) : v = .null ∨ ∃ s, v = .string s ∧ p s := by
  rcases htyped v hv with hnull | ⟨s, rfl⟩
  · exact Or.inl hnull
  · refine Or.inr ⟨s, rfl, hrule s ?_⟩
    rw [hv]
    rfl

theorem checkPrivateMembers_ok (h : checkPrivateMembers key = .ok ()) :
    ∀ member ∈ privateKeyMembers, key.get? member = none := by
  unfold checkPrivateMembers at h
  split at h
  · cases h
  · rename_i hnone
    intro member hmember
    have habsent := List.find?_eq_none.mp hnone member hmember
    simpa using habsent

theorem checkUse_ok (h : checkUse key = .ok ()) (use : String)
    (huse : (key.get? "use").bind Json.asStr? = some use) : use = "sig" := by
  unfold checkUse at h
  rw [huse] at h
  exact beq_iff_eq.mp (ensure_eq_ok.mp h)

theorem checkAlg_ok (h : checkAlg key alg = .ok ()) (keyAlg : String)
    (halg : (key.get? "alg").bind Json.asStr? = some keyAlg) : keyAlg = alg := by
  unfold checkAlg at h
  rw [halg] at h
  exact beq_iff_eq.mp (ensure_eq_ok.mp h)

theorem filterMap_strings (ops : List String) :
    (ops.map Json.string).filterMap Json.asStr? = ops := by
  induction ops with
  | nil => rfl
  | cons op ops ih =>
    rw [List.map_cons, List.filterMap_cons, ih]
    rfl

theorem checkKeyOps_ok (h : checkKeyOps key = .ok ()) (ops : List String)
    (hops : key.get? "key_ops" = some (.array (ops.map .string))) : ∀ op ∈ ops, op = "verify" := by
  unfold checkKeyOps at h
  rw [hops] at h
  simp only [Option.bind_some, Json.asArray?, filterMap_strings, bind_eq_ok, ensure_eq_ok] at h
  obtain ⟨-, -, hothers⟩ := h
  intro op hop
  rw [Bool.not_eq_true', Bool.or_eq_false_iff] at hothers
  obtain ⟨hsign, hothers⟩ := hothers
  have hop' := List.any_eq_false.mp hothers op hop
  simp only [Bool.and_eq_true, bne_iff_ne, ne_eq, not_and, Decidable.not_not] at hop'
  apply hop'
  rintro rfl
  have hcontains : ops.contains "sign" = true := List.contains_iff_mem.mpr hop
  rw [hcontains] at hsign
  cases hsign

theorem requiredKty_eq_some (h : requiredKty alg = some kty) :
    ∃ crv, AlgRequires alg kty crv ∧
      ∀ c ∈ crv, checkKeyType key J kty = checkCurve key c := by
  unfold requiredKty at h
  split at h
  · rename_i hrsa
    cases h
    exact ⟨none, .rsa (List.contains_iff_mem.mp hrsa), fun c hc => by cases hc⟩
  · split at h
    · rename_i halg
      cases h
      rw [beq_iff_eq.mp halg]
      refine ⟨some "P-256", .es256, fun c hc => ?_⟩
      cases hc
      rfl
    · split at h
      · rename_i halg
        cases h
        rw [beq_iff_eq.mp halg]
        refine ⟨some "Ed25519", .edDSA, fun c hc => ?_⟩
        cases hc
        rfl
      · cases h

/-- Every rule that a selected key has passed. -/
theorem acceptKey_ok (hJ : J.TypedMembers) {decodingKey : J.DecodingKey}
    (h : acceptKey key J alg = .ok decodingKey) :
    ∃ kty jwk, UsableKey alg kty key ∧ checkKeyType key J kty = .ok () ∧
      J.jwkFromValue key = some jwk ∧ J.fromJwk jwk = some decodingKey := by
  simp only [acceptKey, bind_eq_ok, require_eq_ok, ensure_eq_ok] at h
  obtain ⟨⟨⟩, hprivate, ⟨⟩, huse, ⟨⟩, hops, ⟨⟩, halg, kty, hkty, -, hkeyKty, ⟨⟩, htype, jwk, hjwk,
    hdecoding⟩ := h
  have htext : ∀ name ∈ ["use", "alg"], ∀ v, key.get? name = some v →
      v = .null ∨ ∃ s, v = .string s := fun name hname v hv => hJ.text hjwk hname hv
  obtain ⟨crv, hrequires, hcurve⟩ := @requiredKty_eq_some J key _ _ hkty
  refine ⟨kty, jwk, ⟨?_, ?_, ?_, ?_, ?_, crv, hrequires, fun c hc => ?_⟩, htype, hjwk, hdecoding⟩
  · exact checkPrivateMembers_ok hprivate
  · intro v hv
    rcases member_of_text (htext "use" (by decide)) (checkUse_ok huse) v hv with
      hnull | ⟨s, hs, rfl⟩
    · exact Or.inl hnull
    · exact Or.inr hs
  · intro v hv
    rcases hJ.texts hjwk hv with hnull | ⟨ops, rfl⟩
    · exact Or.inl hnull
    · exact Or.inr ⟨ops, rfl, checkKeyOps_ok hops ops hv⟩
  · intro v hv
    rcases member_of_text (htext "alg" (by decide)) (checkAlg_ok halg) v hv with
      hnull | ⟨s, hs, rfl⟩
    · exact Or.inl hnull
    · exact Or.inr hs
  · exact member_string (beq_iff_eq.mp hkeyKty)
  · rw [hcurve c hc, checkCurve, ensure_eq_ok] at htype
    exact member_string (beq_iff_eq.mp htype)

/-! ## RSA -/

/-- The trimmed bytes of an exponent tell whether it is below three. -/
private theorem three_le_of_trimmed {bytes : Bytes} (hodd : ofBytes bytes % 2 = 1)
    (hlarge : (bytes.dropWhile (· == 0)).length = 1 →
      ((bytes.dropWhile (· == 0)).all fun b => b.toNat < 3) = false) : 3 ≤ ofBytes bytes := by
  rw [← ofBytes_dropWhile] at hodd ⊢
  cases htrimmed : bytes.dropWhile (· == 0) with
  | nil =>
    rw [htrimmed] at hodd
    cases hodd
  | cons first rest =>
    rw [htrimmed] at hodd hlarge
    cases rest with
    | nil =>
      have hfirst := hlarge rfl
      rw [List.all_cons, List.all_nil, Bool.and_true, decide_eq_false_iff_not, Nat.not_lt] at hfirst
      rw [ofBytes_singleton]
      exact hfirst
    | cons second rest =>
      have hnonzero : ¬ (first == 0) = true := by
        have hhead := List.head?_dropWhile_not (· == 0) bytes
        rw [htrimmed] at hhead
        simpa using hhead
      have hpos : 0 < first.toNat := by
        rw [Nat.pos_iff_ne_zero]
        intro hzero
        exact hnonzero (beq_iff_eq.mpr (UInt8.toNat_inj.mp hzero))
      have hpow : 0 < 256 ^ rest.length := Nat.pow_pos (by omega)
      have hbig : 1 * (256 ^ rest.length * 256) ≤ first.toNat * (256 ^ rest.length * 256) :=
        Nat.mul_le_mul_right _ hpos
      rw [ofBytes_cons, List.length_cons, pow_succ]
      omega

/-- What the rules of RSA say about the numbers. -/
theorem checkRsaParameters_ok (h : checkRsaParameters key J = .ok ()) :
    (∃ n nBytes, key.get? "n" = some (.string n) ∧ J.decodeVec n = some nBytes ∧
      256 ≤ nBytes.length) ∧
    ∃ e eBytes, key.get? "e" = some (.string e) ∧ J.decodeVec e = some eBytes ∧
      ofBytes eBytes % 2 = 1 ∧ 3 ≤ ofBytes eBytes := by
  simp only [checkRsaParameters, bind_eq_ok, require_eq_ok, ensure_eq_ok] at h
  obtain ⟨n, hn, e, he, nBytes, hnBytes, eBytes, heBytes, -, hlength, hexponent⟩ := h
  rw [Bool.not_eq_true', decide_eq_false_iff_not, Nat.not_lt] at hlength
  refine ⟨⟨n, nBytes, member_string hn, hnBytes, hlength⟩, e, eBytes, member_string he, heBytes, ?_⟩
  rw [Bool.not_eq_true', Bool.or_eq_false_iff] at hexponent
  obtain ⟨heven, hsmall⟩ := hexponent
  have hodd : ofBytes eBytes % 2 = 1 := by
    cases hlast : eBytes.getLast? with
    | none =>
      rw [hlast] at heven
      cases heven
    | some last =>
      rw [hlast] at heven
      have hbit : last.toNat % 2 ≠ 0 := by simpa using heven
      rw [ofBytes_mod_two hlast]
      omega
  refine ⟨hodd, three_le_of_trimmed hodd fun hone => ?_⟩
  rw [Bool.or_eq_false_iff, hone] at hsmall
  exact hsmall.2

/-- The last two hundred and fifty-six bytes begin with a set bit, or a byte before them is not
zero. -/
def FillsBits (bytes : Bytes) : Prop :=
  128 ≤ ((bytes.drop (bytes.length - 256)).headD 0).toNat ∨
    ∃ b ∈ bytes.take (bytes.length - 256), b ≠ 0

theorem fillsBits_iff {bytes : Bytes} (hlength : 256 ≤ bytes.length) :
    2 ^ 2047 ≤ ofBytes bytes ↔ FillsBits bytes := by
  cases hdrop : bytes.drop (bytes.length - 256) with
  | nil =>
    have hshort := congrArg List.length hdrop
    rw [List.length_drop, List.length_nil] at hshort
    omega
  | cons top rest =>
    have hrest : rest.length = 255 := by
      have hlong := congrArg List.length hdrop
      rw [List.length_drop, List.length_cons] at hlong
      omega
    have hsplit := topBit_le_ofBytes_iff (bytes.take (bytes.length - 256)) rest top
    rw [← hdrop, List.take_append_drop, hrest] at hsplit
    have hpower : 2 ^ 2047 = 128 * 256 ^ 255 := by
      rw [show 128 = 2 ^ 7 from rfl, show 256 = 2 ^ 8 from rfl, ← pow_mul, ← pow_add]
    rw [hpower, hsplit, FillsBits, hdrop]
    rfl

/-! ## Selection -/

variable {bytes : Bytes} {jwks : Jwks} {decodingKey : J.DecodingKey}

/-- The keys of a set that was parsed are those of its document. -/
theorem parseJwks_ok (h : parseJwks J bytes = .ok jwks) :
    ∃ document, J.fromSlice bytes = some document ∧
      document.get? "keys" = some (.array jwks.keys) := by
  simp only [parseJwks, bind_eq_ok, require_eq_ok, ensure_eq_ok] at h
  obtain ⟨-, -, raw, hread, -, -, -, -, -, -, h⟩ := h
  split at h
  · cases h
  · simp only [bind_eq_ok, require_eq_ok, ensure_eq_ok, pure_eq_ok] at h
    obtain ⟨keys, hkeys, -, -, -, -, rfl⟩ := h
    refine ⟨raw.collect, by rw [JoseCrates.fromSlice, hread, Option.map_some], ?_⟩
    obtain ⟨v, hv, hitems⟩ := Option.bind_eq_some_iff.mp hkeys
    rw [hv, Json.asArray?_eq_some.mp hitems]

theorem kidOf_eq_some : kidOf key = some kid ↔ key.get? "kid" = some (.string kid) := by
  constructor
  · exact member_string
  · intro h
    rw [kidOf, h]
    rfl

/-- A selected key is the only one with the `kid`, and has passed every rule. -/
theorem selectKey_ok (hparse : parseJwks J bytes = .ok jwks)
    (h : selectKey J jwks kid alg = .ok decodingKey) :
    ∃ key before after, jwks.keys = before ++ key :: after ∧ OnlyKey J bytes kid key ∧
      (∀ other ∈ before ++ after, kidOf other ≠ some kid) ∧
      acceptKey key J alg = .ok decodingKey := by
  unfold selectKey at h
  split at h
  · cases h
  · rename_i candidate hfilter
    obtain ⟨before, after, hkeys, hbefore, hkid, hafter⟩ := List.filter_eq_cons_iff.mp hfilter
    have hothers : ∀ other ∈ before ++ after, kidOf other ≠ some kid := by
      intro other hother
      rcases List.mem_append.mp hother with hmem | hmem
      · simpa using hbefore other hmem
      · simpa using List.filter_eq_nil_iff.mp hafter other hmem
    obtain ⟨document, hdocument, hget⟩ := parseJwks_ok hparse
    refine ⟨candidate, before, after, hkeys, ⟨document, before, after, hdocument, hkeys ▸ hget,
      kidOf_eq_some.mp (beq_iff_eq.mp hkid), fun other hother => ?_⟩, hothers, h⟩
    exact fun heq => hothers other hother (kidOf_eq_some.mpr heq)
  · cases h

theorem OnlyKey.mem (h : OnlyKey J bytes kid key) (hparse : parseJwks J bytes = .ok jwks) :
    key ∈ jwks.keys ∧ key.get? "kid" = some (.string kid) := by
  obtain ⟨document, before, after, hdocument, hkeys, hkid, -⟩ := h
  obtain ⟨document', hdocument', hkeys'⟩ := parseJwks_ok hparse
  rw [hdocument] at hdocument'
  cases hdocument'
  rw [hkeys] at hkeys'
  have hsame := Json.array.inj (Option.some.inj hkeys')
  rw [← hsame]
  exact ⟨List.mem_append_right _ (List.mem_cons_self ..), hkid⟩

/-- The one key of its `kid`, for verification only, of the type and curve of the algorithm, and
not weak. -/
structure SoundKey (J : JoseCrates) (bytes : Bytes) (kid alg : String) (key : Json) : Prop where
  only : OnlyKey J bytes kid key
  usable : ∃ kty, UsableKey alg kty key
  rsa : AlgRequires alg "RSA" none → StrongRsa J key

/-- The modulus of an RSA key with the `kid` fills two thousand and forty-eight bits. -/
def ModulusFills (J : JoseCrates) (jwks : Jwks) (kid alg : String) : Prop :=
  AlgRequires alg "RSA" none → ∀ key ∈ jwks.keys, key.get? "kid" = some (.string kid) →
    ∀ n nBytes, key.get? "n" = some (.string n) → J.decodeVec n = some nBytes → FillsBits nBytes

/-- A selected key is sound exactly if its modulus, without the zeros in front, is as long as the
rule about its bytes would have it. -/
theorem selected_key_sound_iff (hJ : J.TypedMembers) (hparse : parseJwks J bytes = .ok jwks)
    (hselect : selectKey J jwks kid alg = .ok decodingKey) :
    (∃ key jwk, SoundKey J bytes kid alg key ∧ J.jwkFromValue key = some jwk ∧
        J.fromJwk jwk = some decodingKey) ↔ ModulusFills J jwks kid alg := by
  obtain ⟨key, before, after, hkeys, honly, hothers, haccept⟩ := selectKey_ok hparse hselect
  obtain ⟨kty, jwk, husable, htype, hjwk, hdecoding⟩ := acceptKey_ok hJ haccept
  have hmem : key ∈ jwks.keys := by
    rw [hkeys]
    exact List.mem_append_right _ (List.mem_cons_self ..)
  have hunique : ∀ other ∈ jwks.keys, other.get? "kid" = some (.string kid) → other = key := by
    intro other hother hkid
    rw [hkeys, List.mem_append, List.mem_cons] at hother
    by_contra hne
    have hrest : other ∈ before ++ after := by
      rw [List.mem_append]
      exact hother.imp_right fun h => h.resolve_left hne
    exact hothers other hrest (kidOf_eq_some.mpr hkid)
  obtain ⟨-, hkid⟩ := honly.mem hparse
  have hrsa : AlgRequires alg "RSA" none → checkRsaParameters key J = .ok () := by
    intro hfamily
    obtain ⟨crv, hrequires, -⟩ := husable.required
    rw [hfamily.rsa_unique hrequires] at htype
    exact htype
  constructor
  · rintro ⟨key', jwk', hsound, -, -⟩ hfamily other hother hkid' n nBytes hn hnBytes
    have hsame : key' = key := by
      obtain ⟨hmem', hkid''⟩ := hsound.only.mem hparse
      exact hunique key' hmem' hkid''
    rw [hunique other hother hkid'] at hn
    subst hsame
    obtain ⟨⟨n₁, nBytes₁, hn₁, hnBytes₁, hlength⟩, -⟩ := checkRsaParameters_ok (hrsa hfamily)
    obtain ⟨n₂, nBytes₂, hn₂, hnBytes₂, hlarge⟩ := (hsound.rsa hfamily).modulus
    rw [hn] at hn₁ hn₂
    cases hn₁
    cases hn₂
    rw [hnBytes] at hnBytes₁ hnBytes₂
    cases hnBytes₁
    cases hnBytes₂
    exact (fillsBits_iff hlength).mp hlarge
  · intro hfills
    refine ⟨key, jwk, ⟨honly, ⟨kty, husable⟩, fun hfamily => ?_⟩, hjwk, hdecoding⟩
    obtain ⟨⟨n, nBytes, hn, hnBytes, hlength⟩, hexponent⟩ := checkRsaParameters_ok (hrsa hfamily)
    refine ⟨⟨n, nBytes, hn, hnBytes, (fillsBits_iff hlength).mpr ?_⟩, hexponent⟩
    exact hfills hfamily key hmem hkid n nBytes hn hnBytes

end Rules

/-! ## A document of one RSA key -/

/-- The library's type of keys has texts where a key has texts. -/
def hasTypedMembers (key : Json) : Bool :=
  (["use", "alg"].all fun name => (key.get? name).all fun
    | .null | .string _ => true
    | _ => false) &&
  (key.get? "key_ops").all fun
    | .null => true
    | .array items => items.all fun item => item.asStr?.isSome
    | _ => false

/-- The document that was written down for these bytes. -/
def readSample (documents : List (String × Json)) (bytes : Bytes) : Option Json :=
  (documents.find? fun d => utf8 d.1 = bytes).map (·.2)

/-- Crates that read these documents and verify nothing. -/
def JoseCrates.sample (documents : List (String × Json)) : JoseCrates where
  read := readSample documents
  memberNames bytes :=
    match readSample documents bytes with
    | some (.object members) => some (Json.names members)
    | _ => none
  decodeVec := Base64Url.decode
  Jwk := Json
  DecodingKey := Json
  Algorithm := String
  jwkFromValue key := if hasTypedMembers key then some key else none
  fromJwk := some
  parseAlgorithm := some
  decode _ _ _ _ := .error .other

/-- A document that passes every rule of `parse_jwks`. -/
theorem parseJwks_of {J : JoseCrates} {bytes : Bytes} {document : Json} {keys : List Json}
    (hbytes : bytes.length ≤ maxResponseBytes) (hread : J.read bytes = some document)
    (hcollect : document.collect = document)
    (hcaps : checkCaps .jwksAndTransport document = .ok ())
    (hdepth : nestingDepth document ≤ maxJwksDepth) (hrepeat : firstRepeatedMember document = none)
    (hkeys : document.get? "keys" = some (.array keys)) (hfew : keys.length ≤ maxJwksKeys)
    (hkids : checkKids 0 [] keys = .ok ()) : parseJwks J bytes = .ok ⟨keys⟩ := by
  unfold parseJwks
  simp only [bind_eq_ok, require_eq_ok, ensure_eq_ok, mapError_eq_ok, decide_eq_true_eq]
  refine ⟨(), hbytes, _, hread, ?_⟩
  rw [hcollect, hrepeat]
  refine ⟨(), Json.isObject_of_get? hkeys, (), hcaps, (), hdepth, ?_⟩
  simp only [bind_eq_ok, require_eq_ok, ensure_eq_ok, hkeys, decide_eq_true_eq]
  exact ⟨keys, rfl, (), hfew, (), hkids, rfl⟩

def rsaKey (n : String) : Json :=
  .object [("e", .string "AQAB"), ("kid", .string "k"), ("kty", .string "RSA"), ("n", .string n)]

def rsaKeys (n : String) : Json := .object [("keys", .array [rsaKey n])]

def rsaKeysText (n : String) : String :=
  "\x7b\"keys\":[\x7b\"e\":\"AQAB\",\"kid\":\"k\",\"kty\":\"RSA\",\"n\":\"" ++ n ++
    "\"\x7d]\x7d"

def JoseCrates.rsa (n : String) : JoseCrates := .sample [(rsaKeysText n, rsaKeys n)]

theorem length_utf8 (s : String) : (utf8 s).length = s.utf8ByteSize := by
  rw [utf8]
  exact Array.length_toList

private theorem length_rsaKeysText (n : String) {k : Nat}
    (hk : n.utf8ByteSize + 100 ≤ k) :
    (utf8 (rsaKeysText n)).length ≤ k := by
  have hleft :
      "\x7b\"keys\":[\x7b\"e\":\"AQAB\",\"kid\":\"k\",\"kty\":\"RSA\",\"n\":\"".utf8ByteSize
        ≤ 90 := by
    decide
  have hright : "\"\x7d]\x7d".utf8ByteSize ≤ 10 := by decide
  have hsplit : (rsaKeysText n).utf8ByteSize = _ := String.utf8ByteSize_append
  rw [String.utf8ByteSize_append] at hsplit
  rw [length_utf8, hsplit]
  omega

theorem parseJwks_rsa {n : String} (hn : n.utf8ByteSize ≤ 8 * 1024) :
    parseJwks (.rsa n) (utf8 (rsaKeysText n)) = .ok ⟨[rsaKey n]⟩ := by
  have hread : (JoseCrates.rsa n).read (utf8 (rsaKeysText n)) = some (rsaKeys n) := by
    simp [JoseCrates.rsa, JoseCrates.sample, readSample]
  have hsmall : "AQAB".utf8ByteSize ≤ 8 * 1024 ∧ "k".utf8ByteSize ≤ 8 * 1024 ∧
      "RSA".utf8ByteSize ≤ 8 * 1024 := by decide
  have hbytes : (utf8 (rsaKeysText n)).length ≤ maxResponseBytes := by
    apply length_rsaKeysText
    rw [maxResponseBytes]
    omega
  apply parseJwks_of hbytes hread
  · rfl
  · simp [checkCaps, checkCapsMembers, checkCapsItems, rsaKeys, rsaKey,
      ResponseCaps.jwksAndTransport, hn, hsmall, bind_eq_ok, ensure_eq_ok]
  · show 3 ≤ 16
    decide
  · simp [rsaKeys, rsaKey, firstRepeatedMember, repeatedAfter, repeatedInItems]
  · rfl
  · exact Nat.le_add_left 1 31
  · rfl

private theorem selectKey_rsa {modulus : Bytes} (hlength : 256 ≤ modulus.length) :
    selectKey (.rsa (Base64Url.encode modulus)) ⟨[rsaKey (Base64Url.encode modulus)]⟩ "k" "RS256" =
      .ok (rsaKey (Base64Url.encode modulus)) := by
  have hexponent : Base64Url.decode "AQAB" = some [1, 0, 1] := by decide
  have hshort : ¬ modulus.length < 256 := by omega
  have hrsa : checkRsaParameters (rsaKey (Base64Url.encode modulus))
      (.rsa (Base64Url.encode modulus)) = .ok () := by
    simp only [checkRsaParameters, bind_eq_ok, require_eq_ok]
    refine ⟨_, rfl, _, rfl, modulus, Base64Url.decode_encode modulus, _, hexponent, (), ?_, rfl⟩
    rw [ensure_eq_ok, Bool.not_eq_true', decide_eq_false_iff_not]
    exact hshort
  show acceptKey (rsaKey (Base64Url.encode modulus)) (.rsa (Base64Url.encode modulus)) "RS256" =
    .ok (rsaKey (Base64Url.encode modulus))
  refine bind_eq_ok.mpr ⟨(), rfl, bind_eq_ok.mpr ⟨(), rfl, bind_eq_ok.mpr ⟨(), rfl,
    bind_eq_ok.mpr ⟨(), rfl, bind_eq_ok.mpr ⟨"RSA", rfl, bind_eq_ok.mpr ⟨(), rfl, ?_⟩⟩⟩⟩⟩⟩
  exact bind_eq_ok.mpr ⟨(), hrsa, rfl⟩

private theorem strings_of_all {items : List Json}
    (h : items.all (fun item => item.asStr?.isSome) = true) :
    ∃ texts : List String, items = texts.map .string := by
  induction items with
  | nil => exact ⟨[], rfl⟩
  | cons item items ih =>
    rw [List.all_cons, Bool.and_eq_true] at h
    obtain ⟨s, hs⟩ := Option.isSome_iff_exists.mp h.1
    obtain ⟨texts, rfl⟩ := ih h.2
    exact ⟨s :: texts, by rw [Json.asStr?_eq_some.mp hs, List.map_cons]⟩

theorem JoseCrates.typedMembers_sample (documents : List (String × Json)) :
    (JoseCrates.sample documents).TypedMembers where
  text := by
    intro key jwk name v h hname hv
    obtain ⟨htyped, -⟩ := Option.ite_none_right_eq_some.mp h
    rw [hasTypedMembers, Bool.and_eq_true, List.all_eq_true] at htyped
    have hmember := htyped.1 name hname
    rw [hv] at hmember
    cases v with
    | null => exact Or.inl rfl
    | string s => exact Or.inr ⟨s, rfl⟩
    | bool b => cases hmember
    | number n => cases hmember
    | array items => cases hmember
    | object members => cases hmember
  texts := by
    intro key jwk v h hv
    obtain ⟨htyped, -⟩ := Option.ite_none_right_eq_some.mp h
    rw [hasTypedMembers, Bool.and_eq_true, hv] at htyped
    have hops := htyped.2
    cases v with
    | null => exact Or.inl rfl
    | array items =>
      obtain ⟨ops, rfl⟩ := strings_of_all hops
      exact Or.inr ⟨ops, rfl⟩
    | string s => cases hops
    | bool b => cases hops
    | number n => cases hops
    | object members => cases hops

private theorem size_encode {modulus : Bytes} (h : modulus.length = 256) :
    (Base64Url.encode modulus).utf8ByteSize ≤ 8 * 1024 := by
  have hsize := Text.utf8ByteSize_ofList_le (Base64Url.encode modulus).toList
  rw [String.ofList_toList, String.length_toList, Base64Url.length_encode, h] at hsize
  exact Nat.le_trans hsize (by decide)

private theorem modulus_rsa {modulus nBytes : Bytes} {n : String}
    (hn : (rsaKey (Base64Url.encode modulus)).get? "n" = some (.string n))
    (hnBytes : Base64Url.decode n = some nBytes) : nBytes = modulus := by
  cases hn
  rw [Base64Url.decode_encode] at hnBytes
  cases hnBytes
  rfl

/-- A key whose modulus has its top bit set. -/
theorem selected_key_sound_rsa :
    let n := Base64Url.encode (128 :: List.replicate 255 0)
    ∃ key jwk, SoundKey (.rsa n) (utf8 (rsaKeysText n)) "k" "RS256" key ∧
      (JoseCrates.rsa n).jwkFromValue key = some jwk ∧
      (JoseCrates.rsa n).fromJwk jwk = some (rsaKey n) := by
  have hlength : (128 :: List.replicate 255 (0 : UInt8)).length = 256 := by
    rw [List.length_cons, List.length_replicate]
  refine (selected_key_sound_iff (JoseCrates.typedMembers_sample _)
    (parseJwks_rsa (size_encode hlength)) (selectKey_rsa (Nat.le_of_eq hlength.symm))).mpr ?_
  intro hfamily key hkey hkid n' nBytes hn hnBytes
  rw [List.mem_singleton.mp hkey] at hn
  rw [modulus_rsa hn hnBytes]
  left
  rw [hlength]
  decide

/-- Two hundred and fifty-six bytes that write the number one. -/
theorem weak_key_selected :
    let n := Base64Url.encode (List.replicate 255 0 ++ [1])
    (JoseCrates.rsa n).TypedMembers ∧
      parseJwks (.rsa n) (utf8 (rsaKeysText n)) = .ok ⟨[rsaKey n]⟩ ∧
      selectKey (.rsa n) ⟨[rsaKey n]⟩ "k" "RS256" = .ok (rsaKey n) ∧
      ¬ ∃ key, SoundKey (.rsa n) (utf8 (rsaKeysText n)) "k" "RS256" key := by
  have hlength : (List.replicate 255 (0 : UInt8) ++ [1]).length = 256 := by
    rw [List.length_append, List.length_replicate, List.length_singleton]
  have hone : ofBytes (List.replicate 255 (0 : UInt8) ++ [1]) = 1 := by
    rw [← ofBytes_dropWhile, List.dropWhile_append_of_pos]
    · exact ofBytes_singleton 1
    · intro byte hbyte
      rw [List.eq_of_mem_replicate hbyte]
      rfl
  have hparse := parseJwks_rsa (size_encode hlength)
  refine ⟨JoseCrates.typedMembers_sample _, hparse, selectKey_rsa (Nat.le_of_eq hlength.symm), ?_⟩
  rintro ⟨key, hsound⟩
  have hkey := List.mem_singleton.mp (hsound.only.mem hparse).1
  subst hkey
  obtain ⟨n', nBytes, hn, hnBytes, hlarge⟩ := (hsound.rsa (.rsa (by decide))).modulus
  rw [modulus_rsa hn hnBytes, hone] at hlarge
  exact absurd hlarge (by norm_num)

end SuiId
