import SuiId.Core.Discovery
import SuiId.Lib.JsonShape
import SuiId.Proofs.KeySelection

/-!
# One reading of federated JSON

The caps and the depth are measured on the map, which has lost what a repeated name hid, and the
repeats are looked for in the document as it stands.  `repeats` lists them in the order in which
they are met, and `first_repeated_member` is the first of that list.  Where there is none the map
has lost nothing, and what was measured on it holds of the document.
-/

namespace SuiId

open Lib Lib.Result Lib.Json

variable {caps : ResponseCaps} {v : Json} {items : List Json} {members : List (String × Json)}

/-! ## Repeated members -/

mutual

/-- The names that are met again, in the order of the text. -/
def repeats : Json → List String
  | .object members => repeatsAfter [] members
  | .array items => repeatsInItems items
  | .null | .bool _ | .number _ | .string _ => []

def repeatsAfter (seen : List String) : List (String × Json) → List String
  | [] => []
  | (name, v) :: rest =>
    (if seen.contains name then [name] else []) ++ repeats v ++ repeatsAfter (seen ++ [name]) rest

def repeatsInItems : List Json → List String
  | [] => []
  | v :: rest => repeats v ++ repeatsInItems rest

end

/-- Some object of the document has the name twice. -/
def RepeatsName (v : Json) (name : String) : Prop :=
  ∃ members, Part (.object members) v ∧ 2 ≤ (names members).count name

/-- The walk finds the first name that is met again. -/
theorem firstRepeatedMember_eq (v : Json) : firstRepeatedMember v = (repeats v).head? := by
  induction v using Json.induct with
  | null | bool | number | string => rw [firstRepeatedMember, repeats, List.head?_nil]
  | array items ih =>
    rw [firstRepeatedMember, repeats]
    induction items with
    | nil => rw [repeatedInItems, repeatsInItems, List.head?_nil]
    | cons v rest ihRest =>
      rw [List.forall_mem_cons] at ih
      rw [repeatedInItems, repeatsInItems, ih.1, ihRest ih.2]
      cases repeats v with
      | nil => rfl
      | cons found _ => rfl
  | object members ih =>
    rw [firstRepeatedMember, repeats]
    generalize ([] : List String) = seen
    induction members generalizing seen with
    | nil => rw [repeatedAfter, repeatsAfter, List.head?_nil]
    | cons m rest ihRest =>
      obtain ⟨name, w⟩ := m
      rw [List.forall_mem_cons] at ih
      rw [repeatedAfter, repeatsAfter]
      by_cases hseen : seen.contains name = true
      · rw [if_pos hseen, if_pos hseen]
        rfl
      · rw [if_neg hseen, if_neg hseen, List.nil_append, ih.1, ihRest ih.2]
        cases repeats w with
        | nil => rfl
        | cons found _ => rfl

variable {name : String} {d : Nat} {J : JoseCrates} {bytes : Bytes}

theorem mem_repeatsInItems :
    name ∈ repeatsInItems items ↔ ∃ v ∈ items, name ∈ repeats v := by
  induction items with
  | nil => simp [repeatsInItems]
  | cons v rest ih => simp [repeatsInItems, ih]

private theorem or_shuffle {p q r t u : Prop} (htr : t → r) :
    ((p ∨ q) ∨ r ∨ t ∨ u) ↔ (p ∨ r ∨ q ∨ u) := by
  tauto

theorem mem_repeatsAfter {seen : List String} :
    name ∈ repeatsAfter seen members ↔
      (name ∈ seen ∧ name ∈ names members) ∨ 2 ≤ (names members).count name ∨
        ∃ m ∈ members, name ∈ repeats m.2 := by
  induction members generalizing seen with
  | nil => simp [repeatsAfter, names]
  | cons m rest ih =>
    obtain ⟨first, w⟩ := m
    have hnames : names ((first, w) :: rest) = first :: names rest := rfl
    have hmem : name ∈ (if seen.contains first = true then [first] else []) ↔
        name ∈ seen ∧ name = first := by
      by_cases hseen : seen.contains first = true
      · rw [if_pos hseen, List.mem_singleton]
        rw [List.contains_iff_mem] at hseen
        exact ⟨fun h => ⟨h ▸ hseen, h⟩, fun h => h.2⟩
      · rw [if_neg hseen]
        rw [List.contains_iff_mem] at hseen
        exact ⟨fun h => absurd h List.not_mem_nil, fun h => absurd (h.2 ▸ h.1) hseen⟩
    rw [repeatsAfter, List.mem_append, List.mem_append, hmem, ih, hnames, List.exists_mem_cons_iff,
      List.mem_append, List.mem_singleton, List.mem_cons, List.count_cons]
    have hcount : name ∈ names rest ↔ 1 ≤ (names rest).count name :=
      List.one_le_count_iff.symm
    by_cases hsame : name = first
    · subst hsame
      have htwice : 2 ≤ (names rest).count name + 1 ↔ 1 ≤ (names rest).count name := by omega
      have hmore : 2 ≤ (names rest).count name → 1 ≤ (names rest).count name := by omega
      rw [beq_self_eq_true, if_pos rfl, hcount, htwice]
      simp only [and_true, or_true, true_or, true_and]
      exact or_shuffle hmore
    · have hbeq : (first == name) = false := beq_eq_false_iff_ne.mpr (Ne.symm hsame)
      rw [hbeq, if_neg Bool.false_ne_true, Nat.add_zero]
      simp only [hsame, false_or, or_false, and_false]
      rw [or_left_comm, or_left_comm (b := 2 ≤ (names rest).count name)]

/-- The names that are met again are the ones that some object has twice. -/
theorem mem_repeats : name ∈ repeats v ↔ RepeatsName v name := by
  induction v using Json.induct with
  | null | bool | number | string =>
    exact iff_of_false (by simp [repeats]) fun ⟨_, hpart, _⟩ => by cases hpart
  | array items ih =>
    rw [repeats, mem_repeatsInItems]
    constructor
    · rintro ⟨w, hw, hname⟩
      obtain ⟨members, hpart, htwice⟩ := (ih w hw).mp hname
      exact ⟨members, .item hw hpart, htwice⟩
    · rintro ⟨members, hpart, htwice⟩
      cases hpart with
      | item hw inside => exact ⟨_, hw, (ih _ hw).mpr ⟨members, inside, htwice⟩⟩
  | object members ih =>
    rw [repeats, mem_repeatsAfter]
    constructor
    · rintro (⟨hseen, -⟩ | htwice | ⟨m, hm, hname⟩)
      · exact absurd hseen List.not_mem_nil
      · exact ⟨members, .refl, htwice⟩
      · obtain ⟨members', hpart, htwice⟩ := (ih m hm).mp hname
        exact ⟨members', .member hm hpart, htwice⟩
    · rintro ⟨members', hpart, htwice⟩
      cases hpart with
      | refl => exact Or.inr (Or.inl htwice)
      | member hm inside =>
        exact Or.inr (Or.inr ⟨_, hm, (ih _ hm).mpr ⟨members', inside, htwice⟩⟩)

theorem unambiguous_iff : Unambiguous v ↔ ∀ name, ¬RepeatsName v name := by
  constructor
  · rintro h name ⟨members, hpart, htwice⟩
    have hone := List.nodup_iff_count_le_one.mp (h members hpart) name
    omega
  · intro h members hpart
    rw [List.nodup_iff_count_le_one]
    intro name
    have hnot : ¬2 ≤ (names members).count name := fun htwice => h name ⟨members, hpart, htwice⟩
    omega

theorem firstRepeatedMember_eq_none : firstRepeatedMember v = none ↔ Unambiguous v := by
  rw [firstRepeatedMember_eq, List.head?_eq_none_iff, List.eq_nil_iff_forall_not_mem,
    unambiguous_iff]
  exact forall_congr' fun name => not_congr mem_repeats

/-! ## Depth and caps -/

theorem deepestMember_le :
    deepestMember members ≤ d ↔ ∀ m ∈ members, nestingDepth m.2 ≤ d := by
  induction members with
  | nil => simp [deepestMember]
  | cons m rest ih =>
    rw [deepestMember, Nat.max_le, ih, List.forall_mem_cons]

theorem deepestItem_le : deepestItem items ≤ d ↔ ∀ v ∈ items, nestingDepth v ≤ d := by
  induction items with
  | nil => simp [deepestItem]
  | cons v rest ih =>
    rw [deepestItem, Nat.max_le, ih, List.forall_mem_cons]

/-- The map of an unambiguous document nests as deep as the document. -/
theorem nestingDepth_collect_le (h : Unambiguous v) :
    nestingDepth v.collect ≤ d ↔ nestingDepth v ≤ d := by
  induction v using Json.induct generalizing d with
  | null => rw [collect]
  | bool b => rw [collect]
  | number n => rw [collect]
  | string s => rw [collect]
  | array items ih =>
    rw [unambiguous_array] at h
    rw [collect, nestingDepth, nestingDepth]
    cases d with
    | zero => omega
    | succ d =>
      rw [Nat.add_comm, Nat.add_le_add_iff_right, Nat.add_comm, Nat.add_le_add_iff_right,
        deepestItem_le, deepestItem_le, collectItems_eq_map, List.forall_mem_map]
      exact forall₂_congr fun v hv => ih v hv (h v hv)
  | object members ih =>
    rw [unambiguous_object] at h
    rw [collect, nestingDepth, nestingDepth]
    cases d with
    | zero => omega
    | succ d =>
      have hperm := collectMembers_perm h.1
      rw [Nat.add_comm, Nat.add_le_add_iff_right, Nat.add_comm, Nat.add_le_add_iff_right,
        deepestMember_le, deepestMember_le]
      have hmap : (∀ m ∈ collectMembers members [], nestingDepth m.2 ≤ d) ↔
          ∀ m ∈ members.map fun m => (m.1, collect m.2), nestingDepth m.2 ≤ d :=
        forall_congr' fun m => imp_congr hperm.mem_iff Iff.rfl
      rw [hmap, List.forall_mem_map]
      exact forall₂_congr fun m hm => ih m hm (h.2 m hm)

/-- What the caps ask of one part of a document. -/
def PartWithin (caps : ResponseCaps) : Json → Prop
  | .object members => members.length ≤ caps.maxMembers
  | .array items => items.length ≤ caps.maxArrayLen
  | .string s => s.utf8ByteSize ≤ caps.maxStringLen
  | .null | .bool _ | .number _ => True

def WithinCaps (caps : ResponseCaps) (v : Json) : Prop := ∀ part, Part part v → PartWithin caps part

theorem checkCapsMembers_ok :
    checkCapsMembers caps members = .ok () ↔ ∀ m ∈ members, checkCaps caps m.2 = .ok () := by
  induction members with
  | nil => simp [checkCapsMembers, pure, Except.pure]
  | cons m rest ih =>
    rw [checkCapsMembers, bind_eq_ok, List.forall_mem_cons, ← ih]
    exact ⟨fun h => h.choose_spec, fun h => ⟨(), h⟩⟩

theorem checkCapsItems_ok :
    checkCapsItems caps items = .ok () ↔ ∀ v ∈ items, checkCaps caps v = .ok () := by
  induction items with
  | nil => simp [checkCapsItems, pure, Except.pure]
  | cons v rest ih =>
    rw [checkCapsItems, bind_eq_ok, List.forall_mem_cons, ← ih]
    exact ⟨fun h => h.choose_spec, fun h => ⟨(), h⟩⟩

private theorem withinCaps_scalar (harray : ∀ items, v ≠ .array items)
    (hobject : ∀ members, v ≠ .object members) : WithinCaps caps v ↔ PartWithin caps v :=
  ⟨fun h => h v .refl, fun h _ hpart => hpart.eq_of_scalar harray hobject ▸ h⟩

/-- The walk accepts a document whose parts are all within the caps. -/
theorem checkCaps_ok : checkCaps caps v = .ok () ↔ WithinCaps caps v := by
  induction v using Json.induct with
  | null | bool | number =>
    rw [withinCaps_scalar (by simp) (by simp)]
    exact iff_of_true rfl trivial
  | string s =>
    rw [withinCaps_scalar (by simp) (by simp), checkCaps, ensure_eq_ok, decide_eq_true_eq]
    rfl
  | array items ih =>
    rw [WithinCaps, forall_part_array, checkCaps, bind_eq_ok]
    simp only [ensure_eq_ok, decide_eq_true_eq, checkCapsItems_ok]
    constructor
    · rintro ⟨-, hlength, hitems⟩
      exact ⟨hlength, fun v hv => (ih v hv).mp (hitems v hv)⟩
    · rintro ⟨hlength, hitems⟩
      exact ⟨(), hlength, fun v hv => (ih v hv).mpr (hitems v hv)⟩
  | object members ih =>
    rw [WithinCaps, forall_part_object, checkCaps, bind_eq_ok]
    simp only [ensure_eq_ok, decide_eq_true_eq, checkCapsMembers_ok]
    constructor
    · rintro ⟨-, hlength, hmembers⟩
      exact ⟨hlength, fun m hm => (ih m hm).mp (hmembers m hm)⟩
    · rintro ⟨hlength, hmembers⟩
      exact ⟨(), hlength, fun m hm => (ih m hm).mpr (hmembers m hm)⟩

/-- The map of an unambiguous document is within the caps where the document is. -/
theorem withinCaps_collect (h : Unambiguous v) : WithinCaps caps v.collect ↔ WithinCaps caps v := by
  induction v using Json.induct with
  | null => rw [collect]
  | bool b => rw [collect]
  | number n => rw [collect]
  | string s => rw [collect]
  | array items ih =>
    rw [unambiguous_array] at h
    rw [collect, WithinCaps, WithinCaps, forall_part_array, forall_part_array, collectItems_eq_map,
      List.forall_mem_map]
    refine and_congr ?_ (forall₂_congr fun v hv => ih v hv (h v hv))
    rw [PartWithin, PartWithin, List.length_map]
  | object members ih =>
    rw [unambiguous_object] at h
    have hperm := collectMembers_perm h.1
    rw [collect, WithinCaps, WithinCaps, forall_part_object, forall_part_object]
    refine and_congr ?_ ?_
    · rw [PartWithin, PartWithin, hperm.length_eq, List.length_map]
    · have hmap : (∀ m ∈ collectMembers members [], WithinCaps caps m.2) ↔
          ∀ m ∈ members.map fun m => (m.1, collect m.2), WithinCaps caps m.2 :=
        forall_congr' fun m => imp_congr hperm.mem_iff Iff.rfl
      exact hmap.trans (List.forall_mem_map.trans
        (forall₂_congr fun m hm => ih m hm (h.2 m hm)))

/-! ## Accepted documents -/

/-- A document with one reading, within the bounds. -/
structure OneReading (caps : ResponseCaps) (depth : Nat) (document : Json) : Prop where
  unambiguous : Unambiguous document
  depth_le : nestingDepth document ≤ depth
  within : WithinCaps caps document
  readings : document.collectFirst = document.collect

/-- What was measured on the map of a document in which nothing repeats. -/
private theorem OneReading.of_checks {depth : Nat}
    (hcaps : checkCaps caps v.collect = .ok ()) (hdepth : nestingDepth v.collect ≤ depth)
    (hrepeats : firstRepeatedMember v = none) : OneReading caps depth v := by
  have hunambiguous := firstRepeatedMember_eq_none.mp hrepeats
  exact ⟨hunambiguous, (nestingDepth_collect_le hunambiguous).mp hdepth,
    (withinCaps_collect hunambiguous).mp (checkCaps_ok.mp hcaps),
    collectFirst_eq_collect hunambiguous⟩

theorem parseJwks_oneReading {jwks : Jwks} (h : parseJwks J bytes = .ok jwks) :
    ∃ document, J.read bytes = some document ∧
      OneReading .jwksAndTransport maxJwksDepth document := by
  simp only [parseJwks, bind_eq_ok, ensure_eq_ok, require_eq_ok, mapError_eq_ok,
    decide_eq_true_eq] at h
  obtain ⟨-, -, document, hread, -, -, ⟨⟩, hcaps, -, hdepth, hrest⟩ := h
  split at hrest
  · cases hrest
  · next hrepeats => exact ⟨document, hread, .of_checks hcaps hdepth hrepeats⟩

theorem validateDiscoveryBytes_oneReading {P : Primitives} {issuer allowedOrigins : String}
    {discovery : ValidatedDiscovery}
    (h : validateDiscoveryBytes P J bytes issuer allowedOrigins = .ok discovery) :
    ∃ document, J.read bytes = some document ∧
      OneReading .discovery discoveryMaxDepth document := by
  simp only [validateDiscoveryBytes, bind_eq_ok, ensure_eq_ok, require_eq_ok, mapError_eq_ok,
    decide_eq_true_eq] at h
  obtain ⟨-, -, document, hread, ⟨⟩, hcaps, -, hdepth, hrest⟩ := h
  split at hrest
  · cases hrest
  · next hrepeats => exact ⟨document, hread, .of_checks hcaps hdepth hrepeats⟩

/-- A document of keys or of discovery that is accepted has one reading, within its bounds.  The
walk reports a name that some object repeats, and reports one whenever there is one. -/
theorem federated_json_has_one_reading (P : Primitives) (J : JoseCrates) :
    (∀ bytes jwks, parseJwks J bytes = .ok jwks →
      ∃ document, J.read bytes = some document ∧
        OneReading .jwksAndTransport maxJwksDepth document) ∧
    (∀ bytes issuer allowedOrigins discovery,
      validateDiscoveryBytes P J bytes issuer allowedOrigins = .ok discovery →
      ∃ document, J.read bytes = some document ∧
        OneReading .discovery discoveryMaxDepth document) ∧
    ∀ document, (∀ name, firstRepeatedMember document = some name → RepeatsName document name) ∧
      ((∃ name, firstRepeatedMember document = some name) ↔ ∃ name, RepeatsName document name) := by
  refine ⟨fun _ _ => parseJwks_oneReading, fun _ _ _ _ => validateDiscoveryBytes_oneReading,
    fun document => ?_⟩
  have hfound : ∀ name, firstRepeatedMember document = some name → RepeatsName document name := by
    intro name h
    rw [firstRepeatedMember_eq] at h
    exact mem_repeats.mp (List.mem_of_head? h)
  refine ⟨hfound, fun ⟨name, h⟩ => ⟨name, hfound name h⟩, ?_⟩
  rintro ⟨name, hname⟩
  cases h : firstRepeatedMember document with
  | some found => exact ⟨found, rfl⟩
  | none => exact absurd hname (unambiguous_iff.mp (firstRepeatedMember_eq_none.mp h) name)

/-! ## Two documents -/

def discoveryText : String :=
  "\x7b\"authorization_endpoint\":\"https://i.example/a\"," ++
    "\"authorization_response_iss_parameter_supported\":true," ++
    "\"code_challenge_methods_supported\":[\"S256\"]," ++
    "\"id_token_signing_alg_values_supported\":[\"RS256\"],\"issuer\":\"https://i.example\"," ++
    "\"response_types_supported\":[\"code\"],\"subject_types_supported\":[\"public\"]," ++
    "\"token_endpoint\":\"https://i.example/t\"," ++
    "\"token_endpoint_auth_methods_supported\":[\"none\"]\x7d"

def discoveryDocument : Json :=
  .object [("authorization_endpoint", .string "https://i.example/a"),
    ("authorization_response_iss_parameter_supported", .bool true),
    ("code_challenge_methods_supported", .array [.string "S256"]),
    ("id_token_signing_alg_values_supported", .array [.string "RS256"]),
    ("issuer", .string "https://i.example"), ("response_types_supported", .array [.string "code"]),
    ("subject_types_supported", .array [.string "public"]),
    ("token_endpoint", .string "https://i.example/t"),
    ("token_endpoint_auth_methods_supported", .array [.string "none"])]

private def issuerUrl (path asStr : String) : Url where
  scheme := "https"
  username := ""
  password := none
  host := some (.domain "i.example")
  port := none
  path := path
  query := none
  fragment := none
  origin := .tuple "https" "i.example" 443
  asStr := asStr

/-- The URLs of the document. -/
def Primitives.discovery : Primitives where
  __ := Primitives.transparent
  parseUrl s :=
    if s = "https://i.example" then some (issuerUrl "/" "https://i.example/")
    else if s = "https://i.example/a" then some (issuerUrl "/a" s)
    else if s = "https://i.example/t" then some (issuerUrl "/t" s)
    else none

private def JoseCrates.discovery : JoseCrates := .sample [(discoveryText, discoveryDocument)]

theorem federated_json_has_one_reading_sample :
    OneReading .jwksAndTransport maxJwksDepth (rsaKeys "AQAB") ∧
      OneReading .discovery discoveryMaxDepth discoveryDocument := by
  have hkeys : parseJwks (.rsa "AQAB") (utf8 (rsaKeysText "AQAB")) = .ok ⟨[rsaKey "AQAB"]⟩ :=
    parseJwks_rsa (by decide)
  have hreadKeys : (JoseCrates.rsa "AQAB").read (utf8 (rsaKeysText "AQAB")) =
      some (rsaKeys "AQAB") := by
    simp [JoseCrates.rsa, JoseCrates.sample, readSample]
  have hreadDiscovery : JoseCrates.discovery.read (utf8 discoveryText) =
      some discoveryDocument := by
    simp [JoseCrates.discovery, JoseCrates.sample, readSample]
  have hvalid : ∃ discovery, (require (RawDiscovery.fromValue discoveryDocument) .notJson >>=
      fun raw => ValidatedDiscovery.validate .discovery raw "https://i.example" "") =
        .ok discovery := ⟨_, rfl⟩
  have hdiscovery : ∃ discovery, validateDiscoveryBytes .discovery .discovery
      (utf8 discoveryText) "https://i.example" "" = .ok discovery := by
    have hcollect : discoveryDocument.collect = discoveryDocument := rfl
    have hcaps : checkCaps .discovery discoveryDocument = .ok () := by
      rfl
    have hrepeat : firstRepeatedMember discoveryDocument = none := by
      simp [discoveryDocument, firstRepeatedMember, repeatedAfter, repeatedInItems]
    obtain ⟨discovery, hvalid⟩ := hvalid
    refine ⟨discovery, ?_⟩
    unfold validateDiscoveryBytes
    simp only [bind_eq_ok, require_eq_ok, ensure_eq_ok, mapError_eq_ok, decide_eq_true_eq]
    refine ⟨(), by decide +kernel, _, hreadDiscovery, ?_⟩
    rw [hcollect, hrepeat]
    refine ⟨(), hcaps, (), ?_, ?_⟩
    · show 2 ≤ 16
      decide
    · simpa only [bind_eq_ok, require_eq_ok] using hvalid
  obtain ⟨discovery, hdiscovery⟩ := hdiscovery
  obtain ⟨document, hread, hone⟩ :=
    (federated_json_has_one_reading .discovery _).1 _ _ hkeys
  obtain ⟨document', hread', hone'⟩ :=
    (federated_json_has_one_reading .discovery _).2.1 _ _ _ _ hdiscovery
  obtain rfl := Option.some.inj (hread.symm.trans hreadKeys)
  obtain rfl := Option.some.inj (hread'.symm.trans hreadDiscovery)
  exact ⟨hone, hone'⟩

/-! ## What is not reported -/

/-- One key, whose one member has this name. -/
def namedKeys (name : String) : Json := .object [("keys", .array [.object [(name, .null)]])]

def namedKeysText (name : String) : String :=
  "\x7b\"keys\":[\x7b\"" ++ name ++ "\":null\x7d]\x7d"

def JoseCrates.named (name : String) : JoseCrates := .sample [(namedKeysText name, namedKeys name)]

theorem read_named (name : String) :
    (JoseCrates.named name).read (utf8 (namedKeysText name)) = some (namedKeys name) := by
  simp [JoseCrates.named, JoseCrates.sample, readSample]

/-- Only string values are measured: a key is accepted with a name longer than any of them. -/
theorem parseJwks_named (hname : name.utf8ByteSize ≤ 9000) (hkid : name ≠ "kid") :
    parseJwks (.named name) (utf8 (namedKeysText name)) = .ok ⟨[.object [(name, .null)]]⟩ := by
  have hleft : "\x7b\"keys\":[\x7b\"".utf8ByteSize ≤ 100 := by decide
  have hright : "\":null\x7d]\x7d".utf8ByteSize ≤ 100 := by decide
  have hbytes : (utf8 (namedKeysText name)).length ≤ maxResponseBytes := by
    have hsplit : (namedKeysText name).utf8ByteSize = _ := String.utf8ByteSize_append
    rw [String.utf8ByteSize_append] at hsplit
    rw [length_utf8, hsplit, maxResponseBytes]
    omega
  have hnoKid : kidOf (.object [(name, .null)]) = none := by
    simp [kidOf, Json.get?, lookup, hkid]
  apply parseJwks_of hbytes (read_named name)
  · rfl
  · rfl
  · show 3 ≤ 16
    decide
  · simp [namedKeys, firstRepeatedMember, repeatedAfter, repeatedInItems]
  · rfl
  · exact Nat.le_add_left 1 31
  · rw [checkKids, hnoKid]
    rfl

/-- With two names that are repeated only one is reported, and the name of a member of an accepted
document may be longer than any string of it. -/
theorem second_repeat_and_long_name_pass :
    (¬∀ document name, firstRepeatedMember document = some name ↔ RepeatsName document name) ∧
    ¬∀ (J : JoseCrates) bytes jwks document members, parseJwks J bytes = .ok jwks →
      J.read bytes = some document → Part (.object members) document →
      ∀ name ∈ names members,
        name.utf8ByteSize ≤ ResponseCaps.jwksAndTransport.maxStringLen := by
  constructor
  · intro h
    have hrepeats : RepeatsName (.object [("a", .null), ("a", .null), ("b", .null), ("b", .null)])
        "b" := ⟨_, .refl, by decide⟩
    have hreported := (h _ _).mpr hrepeats
    simp [firstRepeatedMember, repeatedAfter] at hreported
  · intro h
    obtain ⟨name, hname⟩ : ∃ name : String, name.utf8ByteSize = 8193 :=
      ⟨_, Text.utf8ByteSize_replicate (c := 'x') (by decide) 8193⟩
    have hkid : name ≠ "kid" := by
      rintro rfl
      revert hname
      decide
    have hshort := h _ _ _ _ [(name, .null)] (parseJwks_named (hname.trans_le (by decide)) hkid)
      (read_named name) (.member (m := ("keys", _)) (List.mem_singleton_self _)
        (.item (List.mem_singleton_self _) .refl)) name (List.mem_singleton_self _)
    rw [hname] at hshort
    revert hshort
    decide

end SuiId
