import SuiId.Lib.Text

/-!
# Queries of URLs

`application/x-www-form-urlencoded` over bytes.  `pairs` reads a query: pieces between `&`, empty
pieces skipped, each cut at its first `=`, with `+` for a space and `%` before two hexadecimal
digits.  `encode` writes a value with letters and digits only.

`serialize` writes pairs as a browser posts a form, and `pairs_serialize` reads them back.  `lossy`
is the text of decoded bytes.

A URI is cut at its first `#`, and what is before that at its first `?`.  `appendPiece` writes one
more piece at the end of its query, and `queryPairs_appendPiece` says that the query then has the
pairs of the piece after its own.  `linkQuery` is the query that a browser asks for when it follows
a link: it strips the text and percent-encodes the bytes that a query may not have.
-/

namespace Lib.FormUrl

variable {name value piece query rest uri : List UInt8}

/-! ## Values -/

/-- An ASCII letter or digit. -/
def isAlphanumeric (b : UInt8) : Bool :=
  (48 ≤ b && b ≤ 57) || (65 ≤ b && b ≤ 90) || (97 ≤ b && b ≤ 122)

/-- A hexadecimal digit, in upper case. -/
def hexDigit (n : UInt8) : UInt8 := if n < 10 then 48 + n else 55 + n

/-- The value of a hexadecimal digit. -/
def hexValue (b : UInt8) : Option UInt8 :=
  if 48 ≤ b && b ≤ 57 then some (b - 48)
  else if 65 ≤ b && b ≤ 70 then some (b - 55)
  else if 97 ≤ b && b ≤ 102 then some (b - 87)
  else none

/-- A byte as `urlencoding` writes it. -/
def encodeByte (b : UInt8) : List UInt8 :=
  if isAlphanumeric b then [b] else [37, hexDigit (b / 16), hexDigit (b % 16)]

/-- Percent encoding of all bytes but letters and digits. -/
def encode (bytes : List UInt8) : List UInt8 := bytes.flatMap encodeByte

/-- `+` is a space. -/
def space (b : UInt8) : UInt8 := if b = 43 then 32 else b

/-- Percent decoding of a name or a value. -/
def decode : List UInt8 → List UInt8
  | [] => []
  | [b] => [space b]
  | [b, b'] => [space b, space b']
  | b :: high :: low :: rest =>
    if b = 37 then
      match hexValue high, hexValue low with
      | some h, some l => (16 * h + l) :: decode rest
      | _, _ => 37 :: decode (high :: low :: rest)
    else space b :: decode (high :: low :: rest)

variable {p : UInt8 → Prop} {bits : Nat} {low high : UInt8} {path : List UInt8}

/-- A property of bytes is decided byte by byte. -/
theorem forall_byte (h : ∀ n < 256, p (UInt8.ofNat n)) (b : UInt8) : p b := by
  rw [← UInt8.ofNat_toNat (x := b)]
  exact h b.toNat b.toNat_lt

variable {d b c sep : UInt8} {bytes : List UInt8}

/-- A property is decided for the values of a hexadecimal digit. -/
theorem forall_digit (h : ∀ n < 16, p (UInt8.ofNat n)) (hd : d.toNat < 16) :
    p d := by
  rw [← UInt8.ofNat_toNat (x := d)]
  exact h d.toNat hd

theorem digits_lt (b : UInt8) : (b / 16).toNat < 16 ∧ (b % 16).toNat < 16 := by
  have hb := b.toNat_lt
  rw [UInt8.toNat_div, UInt8.toNat_mod]
  show b.toNat / 16 < 16 ∧ b.toNat % 16 < 16
  omega

theorem digits_value (b : UInt8) : 16 * (b / 16) + b % 16 = b := by
  have hb := b.toNat_lt
  rw [← UInt8.toNat_inj, UInt8.toNat_add, UInt8.toNat_mul, UInt8.toNat_div, UInt8.toNat_mod]
  show (16 * (b.toNat / 16) % 256 + b.toNat % 16) % 256 = b.toNat
  omega

theorem decode_cons (h : b ≠ 37) (rest : List UInt8) :
    decode (b :: rest) = space b :: decode rest := by
  match rest with
  | [] => rfl
  | [_] => rfl
  | _ :: _ :: _ => rw [decode, if_neg h]

theorem hexValue_hexDigit (hd : d.toNat < 16) : hexValue (hexDigit d) = some d := by
  refine forall_digit (p := fun d => hexValue (hexDigit d) = some d) ?_ hd
  decide

theorem isAlphanumeric_hexDigit (hd : d.toNat < 16) :
    isAlphanumeric (hexDigit d) = true := by
  refine forall_digit (p := fun d => isAlphanumeric (hexDigit d) = true) ?_ hd
  decide

theorem ne_of_isAlphanumeric (h : isAlphanumeric b = true) :
    b ≠ 37 ∧ space b = b := by
  have hplus : b ≠ 43 := by
    rintro rfl
    exact absurd h (by decide)
  refine ⟨?_, if_neg hplus⟩
  rintro rfl
  exact absurd h (by decide)

theorem range_of_isAlphanumeric (h : isAlphanumeric b = true) :
    48 ≤ b.toNat ∧ b.toNat ≤ 122 := by
  simp only [isAlphanumeric, Bool.or_eq_true, Bool.and_eq_true, decide_eq_true_eq,
    UInt8.le_iff_toNat_le] at h
  change (48 ≤ b.toNat ∧ b.toNat ≤ 57 ∨ 65 ≤ b.toNat ∧ b.toNat ≤ 90) ∨
    97 ≤ b.toNat ∧ b.toNat ≤ 122 at h
  omega

theorem decode_encoded (b : UInt8) (rest : List UInt8) :
    decode (37 :: hexDigit (b / 16) :: hexDigit (b % 16) :: rest) = b :: decode rest := by
  obtain ⟨hhigh, hlow⟩ := digits_lt b
  rw [decode, if_pos rfl, hexValue_hexDigit hhigh, hexValue_hexDigit hlow]
  show (16 * (b / 16) + b % 16) :: decode rest = _
  rw [digits_value]

/-- What stands for a byte has `%`, letters and digits. -/
theorem mem_percent (h : c ∈ [37, hexDigit (b / 16), hexDigit (b % 16)]) :
    isAlphanumeric c = true ∨ c = 37 := by
  obtain ⟨hhigh, hlow⟩ := digits_lt b
  rw [List.mem_cons, List.mem_cons, List.mem_singleton] at h
  rcases h with rfl | rfl | rfl
  · exact Or.inr rfl
  · exact Or.inl (isAlphanumeric_hexDigit hhigh)
  · exact Or.inl (isAlphanumeric_hexDigit hlow)

theorem decode_encodeByte (b : UInt8) (rest : List UInt8) :
    decode (encodeByte b ++ rest) = b :: decode rest := by
  by_cases hplain : isAlphanumeric b = true
  · obtain ⟨hne, hsame⟩ := ne_of_isAlphanumeric hplain
    rw [encodeByte, if_pos hplain, List.singleton_append, decode_cons hne, hsame]
  · rw [encodeByte, if_neg hplain]
    exact decode_encoded b rest

theorem decode_encode (bytes : List UInt8) : decode (encode bytes) = bytes := by
  induction bytes with
  | nil => rfl
  | cons b bytes ih =>
    show decode (encodeByte b ++ encode bytes) = _
    rw [decode_encodeByte, ih]

/-- A text without `+` and `%` stands for itself. -/
theorem decode_of_plain (h : ∀ b ∈ value, b ≠ 37 ∧ b ≠ 43) : decode value = value := by
  induction value with
  | nil => rfl
  | cons b value ih =>
    have hb := h b (List.mem_cons_self ..)
    rw [decode_cons hb.1, ih fun b' hb' => h b' (List.mem_cons_of_mem _ hb'), space, if_neg hb.2]

private theorem mem_encodeByte (b : UInt8) : ∀ c ∈ encodeByte b, isAlphanumeric c ∨ c = 37 := by
  intro c hc
  rw [encodeByte] at hc
  split at hc
  · next hplain =>
    rw [List.mem_singleton.mp hc]
    exact Or.inl hplain
  · exact mem_percent hc

theorem mem_encode (h : c ∈ encode bytes) :
    isAlphanumeric c ∨ c = 37 := by
  obtain ⟨b, -, hc⟩ := List.mem_flatMap.mp h
  exact mem_encodeByte b c hc

theorem toNat_lt_of_mem_encode (h : c ∈ encode bytes) :
    c.toNat < 128 := by
  rcases mem_encode h with hc | rfl
  · exact Nat.lt_of_le_of_lt (range_of_isAlphanumeric hc).2 (by decide)
  · decide

/-- A separator is not in what is encoded. -/
theorem notMem_encode (hplain : isAlphanumeric c = false) (hne : c ≠ 37) (bytes : List UInt8) :
    c ∉ encode bytes := by
  intro h
  rcases mem_encode h with hc | hc
  · rw [hplain] at hc
    cases hc
  · exact hne hc

/-! ## Pairs -/

/-- What is before the first separator, and what is after it. -/
def cut (sep : UInt8) : List UInt8 → List UInt8 × Option (List UInt8)
  | [] => ([], none)
  | b :: rest => if b = sep then ([], some rest) else ((b :: (cut sep rest).1), (cut sep rest).2)

theorem cut_append {before : List UInt8} (h : sep ∉ before) (after : List UInt8) :
    cut sep (before ++ sep :: after) = (before, some after) := by
  induction before with
  | nil => rw [List.nil_append, cut, if_pos rfl]
  | cons b before ih =>
    rw [List.mem_cons, not_or] at h
    rw [List.cons_append, cut, if_neg (Ne.symm h.1), ih h.2]

theorem cut_of_notMem (h : sep ∉ bytes) :
    cut sep bytes = (bytes, none) := by
  induction bytes with
  | nil => rfl
  | cons b bytes ih =>
    rw [List.mem_cons, not_or] at h
    rw [cut, if_neg (Ne.symm h.1), ih h.2]

/-- Bytes with a separator in them have one that is the first. -/
theorem exists_first (h : sep ∈ bytes) :
    ∃ before after, sep ∉ before ∧ bytes = before ++ sep :: after := by
  obtain ⟨before, after, hbytes, hbefore⟩ := List.eq_append_cons_of_mem h
  exact ⟨before, after, hbefore, hbytes⟩

/-- The name and the value of a piece. -/
def pair (piece : List UInt8) : List UInt8 × List UInt8 :=
  (decode (cut 61 piece).1, decode ((cut 61 piece).2.getD []))

/-- The pairs of a query. -/
def pairs (query : List UInt8) : List (List UInt8 × List UInt8) :=
  ((query.splitOn 38).filter fun piece => !piece.isEmpty).map pair

@[simp] theorem pairs_nil : pairs [] = [] := rfl

theorem pairs_append (query rest : List UInt8) :
    pairs (query ++ 38 :: rest) = pairs query ++ pairs rest := by
  rw [pairs, List.splitOn_append_cons_self, List.filter_append, List.map_append]
  rfl

theorem pairs_piece (hpiece : 38 ∉ piece) (hne : piece ≠ []) : pairs piece = [pair piece] := by
  rw [pairs, List.splitOn_eq_singleton hpiece]
  cases piece with
  | nil => exact absurd rfl hne
  | cons b piece => rfl

theorem pair_of_equals (hname : 61 ∉ name) (value : List UInt8) :
    pair (name ++ 61 :: value) = (decode name, decode value) := by
  rw [pair, cut_append hname]
  rfl

private theorem pairs_single (hname : ∀ b ∈ name, b ≠ 37 ∧ b ≠ 43 ∧ b ≠ 38 ∧ b ≠ 61)
    {value : List UInt8} (hvalue : 38 ∉ value) :
    pairs (name ++ 61 :: value) = [(name, decode value)] := by
  have hequals : 61 ∉ name := fun h => (hname _ h).2.2.2 rfl
  have hpiece : 38 ∉ name ++ 61 :: value := by
    intro h
    rcases List.mem_append.mp h with h | h
    · exact (hname _ h).2.2.1 rfl
    · rcases List.mem_cons.mp h with h | h
      · cases h
      · exact hvalue h
  rw [pairs_piece hpiece (by simp), pair_of_equals hequals,
    decode_of_plain fun b hb => ⟨(hname b hb).1, (hname b hb).2.1⟩]

/-- One pair whose value is encoded. -/
theorem pairs_encode (hname : ∀ b ∈ name, b ≠ 37 ∧ b ≠ 43 ∧ b ≠ 38 ∧ b ≠ 61) (value : List UInt8) :
    pairs (name ++ 61 :: encode value) = [(name, value)] := by
  rw [pairs_single hname (notMem_encode (by decide) (by decide) value), decode_encode]

/-- One pair whose value needs no encoding. -/
theorem pairs_plain (hname : ∀ b ∈ name, b ≠ 37 ∧ b ≠ 43 ∧ b ≠ 38 ∧ b ≠ 61)
    (hvalue : ∀ b ∈ value, b ≠ 37 ∧ b ≠ 43 ∧ b ≠ 38) :
    pairs (name ++ 61 :: value) = [(name, value)] := by
  rw [pairs_single hname fun h => (hvalue _ h).2.2 rfl,
    decode_of_plain fun b hb => ⟨(hvalue b hb).1, (hvalue b hb).2.1⟩]

/-- The last piece of a query is where more text goes. -/
theorem exists_lastPiece (query : List UInt8) :
    ∃ before last, 38 ∉ last ∧ ∀ rest, pairs (query ++ rest) = before ++ pairs (last ++ rest) := by
  induction hn : query.length using Nat.strong_induction_on generalizing query with
  | _ n ih =>
    by_cases hmem : 38 ∈ query
    · obtain ⟨first, query', -, rfl⟩ := exists_first hmem
      have hshorter : query'.length < n := by
        rw [← hn, List.length_append, List.length_cons]
        omega
      obtain ⟨before, last, hlast, hpairs⟩ := ih _ hshorter query' rfl
      refine ⟨pairs first ++ before, last, hlast, fun rest => ?_⟩
      rw [List.append_assoc, List.cons_append, pairs_append, hpairs, List.append_assoc]
    · exact ⟨[], query, hmem, fun rest => rfl⟩

/-- A piece that is written without a separator does not give its own pair. -/
theorem pairs_glued (hpiece : 38 ∉ piece) (hne : piece ≠ []) (query : List UInt8)
    (p : List UInt8 × List UInt8) (hp : pair piece ≠ p) :
    pairs (query ++ piece) ≠ pairs query ++ [p] := by
  obtain ⟨before, last, hlast, hpairs⟩ := exists_lastPiece query
  have hglued : pairs (last ++ piece) = [pair (last ++ piece)] :=
    pairs_piece (by simp [hlast, hpiece]) (by simp [hne])
  have hquery := hpairs []
  rw [List.append_nil, List.append_nil] at hquery
  rw [hpairs, hquery, List.append_assoc, ne_eq, List.append_cancel_left_eq, hglued]
  intro hsame
  have hlength := congrArg List.length hsame
  rw [List.length_append, List.length_singleton, List.length_singleton] at hlength
  have hnone : pairs last = [] := List.length_eq_zero_iff.mp (by omega)
  by_cases hempty : last = []
  · rw [hempty, List.nil_append, pairs_nil, List.nil_append] at hsame
    exact hp (List.singleton_inj.mp hsame)
  · rw [pairs_piece hlast hempty] at hnone
    cases hnone

/-! ## Forms -/

/-- The bytes that a form serializer leaves as they are. -/
def isFormPlain (b : UInt8) : Bool := isAlphanumeric b || b = 42 || b = 45 || b = 46 || b = 95

/-- A byte as the form serialiser writes it. -/
def serializeByte (b : UInt8) : List UInt8 :=
  if b = 32 then [43]
  else if isFormPlain b then [b]
  else [37, hexDigit (b / 16), hexDigit (b % 16)]

/-- A name or a value of a form. -/
def serializeText (bytes : List UInt8) : List UInt8 := bytes.flatMap serializeByte

/-- The body of a form. -/
def serialize : List (List UInt8 × List UInt8) → List UInt8
  | [] => []
  | [(name, value)] => serializeText name ++ 61 :: serializeText value
  | (name, value) :: rest =>
    serializeText name ++ 61 :: serializeText value ++ 38 :: serialize rest

private theorem space_of_isFormPlain (h : isFormPlain b = true) :
    b ≠ 37 ∧ space b = b := by
  have hplus : b ≠ 43 := by
    rintro rfl
    exact absurd h (by decide)
  refine ⟨?_, if_neg hplus⟩
  rintro rfl
  exact absurd h (by decide)

theorem decode_serializeByte (b : UInt8) (rest : List UInt8) :
    decode (serializeByte b ++ rest) = b :: decode rest := by
  rw [serializeByte]
  split
  · rename_i hspace
    rw [hspace]
    exact decode_cons (by decide) rest
  · split
    · rename_i hplain
      obtain ⟨hne, hsame⟩ := space_of_isFormPlain hplain
      rw [List.singleton_append, decode_cons hne, hsame]
    · exact decode_encoded b rest

theorem decode_serializeText (bytes : List UInt8) : decode (serializeText bytes) = bytes := by
  induction bytes with
  | nil => rfl
  | cons b bytes ih =>
    show decode (serializeByte b ++ serializeText bytes) = _
    rw [decode_serializeByte, ih]

private theorem mem_serializeByte (b : UInt8) : ∀ c ∈ serializeByte b, c ≠ 38 ∧ c ≠ 61 := by
  intro c hc
  rw [serializeByte] at hc
  split at hc
  · rw [List.mem_singleton.mp hc]
    decide
  · split at hc
    · next hplain =>
      rw [List.mem_singleton.mp hc]
      constructor
      · rintro rfl
        exact absurd hplain (by decide)
      · rintro rfl
        exact absurd hplain (by decide)
    · have hdigits := mem_percent hc
      constructor
      · rintro rfl
        exact absurd hdigits (by decide)
      · rintro rfl
        exact absurd hdigits (by decide)

theorem notMem_serializeText (bytes : List UInt8) :
    38 ∉ serializeText bytes ∧ 61 ∉ serializeText bytes := by
  constructor <;> intro h
  · obtain ⟨b, -, hb⟩ := List.mem_flatMap.mp h
    exact (mem_serializeByte b _ hb).1 rfl
  · obtain ⟨b, -, hb⟩ := List.mem_flatMap.mp h
    exact (mem_serializeByte b _ hb).2 rfl

private theorem pairs_serialized (name value : List UInt8) :
    pairs (serializeText name ++ 61 :: serializeText value) = [(name, value)] := by
  obtain ⟨hname, hequals⟩ := notMem_serializeText name
  have hvalue := (notMem_serializeText value).1
  rw [pairs_piece (by simp [hname, hvalue]) (by simp), pair_of_equals hequals, decode_serializeText,
    decode_serializeText]

/-- What a form has posted is read as it was. -/
theorem pairs_serialize (form : List (List UInt8 × List UInt8)) :
    pairs (serialize form) = form := by
  induction form using serialize.induct with
  | case1 => rfl
  | case2 name value => exact pairs_serialized name value
  | case3 name value rest _ ih =>
    rw [serialize.eq_3 _ _ _ ‹_›, pairs_append, pairs_serialized, ih]
    rfl

/-! ## Texts -/

/-- What follows a first byte of more: the value of its bits, the range of the second byte, and how
many bytes come after that. -/
def lead (b : UInt8) : Option (Nat × UInt8 × UInt8 × Nat) :=
  if 0xC2 ≤ b && b ≤ 0xDF then some (b.toNat % 32, 0x80, 0xBF, 0)
  else if b = 0xE0 then some (0, 0xA0, 0xBF, 1)
  else if b = 0xED then some (13, 0x80, 0x9F, 1)
  else if 0xE1 ≤ b && b ≤ 0xEF then some (b.toNat % 16, 0x80, 0xBF, 1)
  else if b = 0xF0 then some (0, 0x90, 0xBF, 2)
  else if 0xF1 ≤ b && b ≤ 0xF3 then some (b.toNat % 8, 0x80, 0xBF, 2)
  else if b = 0xF4 then some (4, 0x80, 0x8F, 2)
  else none

/-- The first byte of a character: the characters it ends, and what has to follow. -/
def startChar (b : UInt8) : List Char × Option (Nat × UInt8 × UInt8 × Nat) :=
  if b < 0x80 then ([Char.ofNat b.toNat], none)
  else match lead b with
    | none => (['\uFFFD'], none)
    | some expected => ([], some expected)

/-- Reads bytes with what the bytes before have left open. -/
def lossyFrom : Option (Nat × UInt8 × UInt8 × Nat) → List UInt8 → List Char
  | none, [] => []
  | some _, [] => ['\uFFFD']
  | none, b :: rest => (startChar b).1 ++ lossyFrom (startChar b).2 rest
  | some (bits, low, high, more), b :: rest =>
    if low ≤ b && b ≤ high then
      match more with
      | 0 => Char.ofNat (bits * 64 + b.toNat % 64) :: lossyFrom none rest
      | more + 1 => lossyFrom (some (bits * 64 + b.toNat % 64, 0x80, 0xBF, more)) rest
    else '\uFFFD' :: ((startChar b).1 ++ lossyFrom (startChar b).2 rest)

/-- The text of bytes, with a replacement character for what is not UTF-8. -/
def lossy (bytes : List UInt8) : String := String.ofList (lossyFrom none bytes)

/-- The text of bytes below 128. -/
def ascii (bytes : List UInt8) : String := String.ofList (bytes.map fun b => Char.ofNat b.toNat)

theorem lossy_of_ascii (h : ∀ b ∈ bytes, b < 0x80) :
    lossy bytes = ascii bytes := by
  have hfrom : lossyFrom none bytes = bytes.map fun b => Char.ofNat b.toNat := by
    induction bytes with
    | nil => rfl
    | cons b bytes ih =>
      have hstart : startChar b = ([Char.ofNat b.toNat], none) := if_pos (h b List.mem_cons_self)
      rw [lossyFrom, hstart, List.map_cons, ih fun b' hb' => h b' (List.mem_cons_of_mem _ hb')]
      rfl
  rw [lossy, hfrom, ascii]

/-- Such a text is encoded with one byte for each character. -/
theorem utf8Encode_of_ascii (h : ∀ b ∈ bytes, b < 0x80) :
    (bytes.map fun b => Char.ofNat b.toNat).flatMap String.utf8EncodeChar = bytes := by
  have hbyte : ∀ b ∈ bytes, String.utf8EncodeChar (Char.ofNat b.toNat) = [b] := by
    intro b hb
    have hsmall : b.toNat < 128 := UInt8.lt_iff_toNat_lt.mp (h b hb)
    have hvalid : Nat.isValidChar b.toNat := Or.inl (by omega)
    have hval : (Char.ofNat b.toNat).val.toNat = b.toNat := by
      rw [Char.ofNat, dif_pos hvalid]
      rfl
    rw [String.utf8EncodeChar, hval, if_pos (by omega), UInt8.ofNat_toNat]
  rw [List.flatMap_map, List.flatMap_congr hbyte, List.flatMap_singleton']

/-- The first byte of a character of two, three or four bytes. -/
private theorem lead_two (hlow : 0xC2 ≤ b.toNat) (hhigh : b.toNat ≤ 0xDF) :
    lead b = some (b.toNat % 32, 0x80, 0xBF, 0) := by
  have hrange : (0xC2 ≤ b && b ≤ 0xDF) = true := by
    simp only [Bool.and_eq_true, decide_eq_true_eq, UInt8.le_iff_toNat_le]
    exact ⟨hlow, hhigh⟩
  rw [lead, if_pos hrange]

private theorem lead_three (hlow : 0xE0 ≤ b.toNat) (hhigh : b.toNat ≤ 0xEF) :
    lead b = some (b.toNat % 16, if b = 0xE0 then 0xA0 else 0x80,
      if b = 0xED then 0x9F else 0xBF, 1) := by
  have htwo : ¬ (0xC2 ≤ b && b ≤ 0xDF) = true := by
    simp only [Bool.and_eq_true, decide_eq_true_eq, UInt8.le_iff_toNat_le, not_and, Nat.not_le]
    intro _
    exact Nat.lt_of_lt_of_le (by decide) hlow
  have hthree (hne : b ≠ 0xE0) : (0xE1 ≤ b && b ≤ 0xEF) = true := by
    simp only [Bool.and_eq_true, decide_eq_true_eq, UInt8.le_iff_toNat_le]
    have hne' : b.toNat ≠ 0xE0 := fun h => hne (UInt8.toNat_inj.mp h)
    exact ⟨by show 0xE1 ≤ _; omega, hhigh⟩
  rw [lead, if_neg htwo]
  by_cases hE0 : b = 0xE0
  · subst hE0
    rfl
  · by_cases hED : b = 0xED
    · subst hED
      rfl
    · rw [if_neg hE0, if_neg hED, if_pos (hthree hE0), if_neg hE0, if_neg hED]

private theorem lead_four (hlow : 0xF0 ≤ b.toNat) (hhigh : b.toNat ≤ 0xF4) :
    lead b = some (b.toNat % 8, if b = 0xF0 then 0x90 else 0x80,
      if b = 0xF4 then 0x8F else 0xBF, 2) := by
  have hcases : b = 0xF0 ∨ b = 0xF1 ∨ b = 0xF2 ∨ b = 0xF3 ∨ b = 0xF4 := by
    simp only [← UInt8.toNat_inj]
    show b.toNat = 0xF0 ∨ b.toNat = 0xF1 ∨ b.toNat = 0xF2 ∨ b.toNat = 0xF3 ∨ b.toNat = 0xF4
    omega
  rcases hcases with rfl | rfl | rfl | rfl | rfl
  · rfl
  · rfl
  · rfl
  · rfl
  · rfl

private theorem lossyFrom_lead (hb : 0x80 ≤ b.toNat) {expected : Nat × UInt8 × UInt8 × Nat}
    (h : lead b = some expected) (rest : List UInt8) :
    lossyFrom none (b :: rest) = lossyFrom (some expected) rest := by
  have hnot : ¬ b < 0x80 := by
    rw [UInt8.lt_iff_toNat_lt]
    exact Nat.not_lt.mpr hb
  rw [lossyFrom, startChar, if_neg hnot, h]
  rfl

private theorem lossyFrom_more {more : Nat} (hlow : low.toNat ≤ b.toNat)
    (hhigh : b.toNat ≤ high.toNat) (rest : List UInt8) :
    lossyFrom (some (bits, low, high, more + 1)) (b :: rest) =
      lossyFrom (some (bits * 64 + b.toNat % 64, 0x80, 0xBF, more)) rest := by
  have hbounds : (low ≤ b && b ≤ high) = true := by
    simp only [Bool.and_eq_true, decide_eq_true_eq, UInt8.le_iff_toNat_le]
    exact ⟨hlow, hhigh⟩
  rw [lossyFrom, if_pos hbounds]

private theorem lossyFrom_last (hlow : low.toNat ≤ b.toNat) (hhigh : b.toNat ≤ high.toNat)
    (rest : List UInt8) :
    lossyFrom (some (bits, low, high, 0)) (b :: rest) =
      Char.ofNat (bits * 64 + b.toNat % 64) :: lossyFrom none rest := by
  have hbounds : (low ≤ b && b ≤ high) = true := by
    simp only [Bool.and_eq_true, decide_eq_true_eq, UInt8.le_iff_toNat_le]
    exact ⟨hlow, hhigh⟩
  rw [lossyFrom, if_pos hbounds]

private theorem toNat_ofNat {n : Nat} (h : n < 256) : (UInt8.ofNat n).toNat = n := by
  rw [UInt8.toNat_ofNat', Nat.mod_eq_of_lt h]

/-- The bytes after the first: six bits each. -/
private theorem toNat_tail (n : Nat) : (UInt8.ofNat (n % 64 + 0x80)).toNat = n % 64 + 0x80 :=
  toNat_ofNat (by omega)

private theorem tail_low (n : Nat) :
    (0x80 : UInt8).toNat ≤ (UInt8.ofNat (n % 64 + 0x80)).toNat := by
  rw [toNat_tail]
  exact Nat.le_add_left 0x80 _

private theorem tail_high (n : Nat) :
    (UInt8.ofNat (n % 64 + 0x80)).toNat ≤ (0xBF : UInt8).toNat := by
  rw [toNat_tail]
  show _ ≤ 0xBF
  omega

private theorem tail_bits (n : Nat) : (UInt8.ofNat (n % 64 + 0x80)).toNat % 64 = n % 64 := by
  rw [toNat_tail]
  omega

section Chars

variable {v : Nat} (rest : List UInt8)

private theorem lossyFrom_one (h : v ≤ 0x7f) :
    lossyFrom none (UInt8.ofNat v :: rest) = Char.ofNat v :: lossyFrom none rest := by
  have hb : (UInt8.ofNat v).toNat = v := toNat_ofNat (by omega)
  have hsmall : UInt8.ofNat v < 0x80 := by
    rw [UInt8.lt_iff_toNat_lt, hb]
    exact Nat.lt_succ_of_le h
  rw [lossyFrom, startChar, if_pos hsmall, hb]
  rfl

private theorem lossyFrom_two (hlow : 0x7f < v) (hhigh : v ≤ 0x7ff) :
    lossyFrom none (UInt8.ofNat (v / 64 % 32 + 0xc0) :: UInt8.ofNat (v % 64 + 0x80) :: rest) =
      Char.ofNat v :: lossyFrom none rest := by
  have hb : (UInt8.ofNat (v / 64 % 32 + 0xc0)).toNat = v / 64 % 32 + 0xc0 := toNat_ofNat (by omega)
  have hbits : (v / 64 % 32 + 0xc0) % 32 * 64 + v % 64 = v := by omega
  rw [lossyFrom_lead (by omega) (lead_two (by omega) (by omega)),
    lossyFrom_last (tail_low v) (tail_high v), hb, tail_bits, hbits]

variable {n : Nat} {lead : UInt8}

private theorem eq_of_lead (hb : (UInt8.ofNat n).toNat = n) (h : UInt8.ofNat n = lead) :
    n = lead.toNat := by
  rw [← h, hb]

/-- A second byte is not below the bound that one lead byte sets. -/
private theorem bound_le_tail {b low : UInt8} (h : b = lead → low.toNat ≤ n % 64 + 0x80) :
    (if b = lead then low else 0x80 : UInt8).toNat ≤ (UInt8.ofNat (n % 64 + 0x80)).toNat := by
  split
  · next hlead =>
    rw [toNat_tail]
    exact h hlead
  · exact tail_low _

private theorem tail_le_bound {b high : UInt8} (h : b = lead → n % 64 + 0x80 ≤ high.toNat) :
    (UInt8.ofNat (n % 64 + 0x80)).toNat ≤ (if b = lead then high else 0xBF : UInt8).toNat := by
  split
  · next hlead =>
    rw [toNat_tail]
    exact h hlead
  · exact tail_high _

private theorem lossyFrom_three (hlow : 0x7ff < v) (hhigh : v ≤ 0xffff)
    (hvalid : v < 0xd800 ∨ 0xdfff < v) :
    lossyFrom none (UInt8.ofNat (v / 4096 % 16 + 0xe0) :: UInt8.ofNat (v / 64 % 64 + 0x80) ::
      UInt8.ofNat (v % 64 + 0x80) :: rest) = Char.ofNat v :: lossyFrom none rest := by
  have hb : (UInt8.ofNat (v / 4096 % 16 + 0xe0)).toNat = v / 4096 % 16 + 0xe0 :=
    toNat_ofNat (by omega)
  have hE0 (h : UInt8.ofNat (v / 4096 % 16 + 0xe0) = 0xE0) : 0xA0 ≤ v / 64 % 64 + 0x80 := by
    have hlead : v / 4096 % 16 + 0xe0 = 0xE0 := eq_of_lead hb h
    omega
  have hED (h : UInt8.ofNat (v / 4096 % 16 + 0xe0) = 0xED) : v / 64 % 64 + 0x80 ≤ 0x9F := by
    have hlead : v / 4096 % 16 + 0xe0 = 0xED := eq_of_lead hb h
    omega
  have hbits : ((v / 4096 % 16 + 0xe0) % 16 * 64 + v / 64 % 64) * 64 + v % 64 = v := by omega
  rw [lossyFrom_lead (by omega) (lead_three (by omega) (by omega)),
    lossyFrom_more (bound_le_tail hE0) (tail_le_bound hED),
    lossyFrom_last (tail_low v) (tail_high v), hb, tail_bits, tail_bits, hbits]

private theorem lossyFrom_four (hlow : 0xffff < v) (hhigh : v < 0x110000) :
    lossyFrom none (UInt8.ofNat (v / 262144 % 8 + 0xf0) :: UInt8.ofNat (v / 4096 % 64 + 0x80) ::
      UInt8.ofNat (v / 64 % 64 + 0x80) :: UInt8.ofNat (v % 64 + 0x80) :: rest) =
      Char.ofNat v :: lossyFrom none rest := by
  have hb : (UInt8.ofNat (v / 262144 % 8 + 0xf0)).toNat = v / 262144 % 8 + 0xf0 :=
    toNat_ofNat (by omega)
  have hF0 (h : UInt8.ofNat (v / 262144 % 8 + 0xf0) = 0xF0) : 0x90 ≤ v / 4096 % 64 + 0x80 := by
    have hlead : v / 262144 % 8 + 0xf0 = 0xF0 := eq_of_lead hb h
    omega
  have hF4 (h : UInt8.ofNat (v / 262144 % 8 + 0xf0) = 0xF4) : v / 4096 % 64 + 0x80 ≤ 0x8F := by
    have hlead : v / 262144 % 8 + 0xf0 = 0xF4 := eq_of_lead hb h
    omega
  have hbits : (((v / 262144 % 8 + 0xf0) % 8 * 64 + v / 4096 % 64) * 64 + v / 64 % 64) * 64 +
      v % 64 = v := by omega
  rw [lossyFrom_lead (by omega) (lead_four (by omega) (by omega)),
    lossyFrom_more (bound_le_tail hF0) (tail_le_bound hF4),
    lossyFrom_more (tail_low _) (tail_high _), lossyFrom_last (tail_low v) (tail_high v), hb,
    tail_bits, tail_bits, tail_bits, hbits]

end Chars

/-- A character that is encoded is read back. -/
theorem lossyFrom_utf8EncodeChar (c : Char) (rest : List UInt8) :
    lossyFrom none (String.utf8EncodeChar c ++ rest) = c :: lossyFrom none rest := by
  have hvalid : c.toNat < 0xd800 ∨ 0xdfff < c.toNat ∧ c.toNat < 0x110000 := c.valid
  have hval : c.val.toNat = c.toNat := rfl
  rw [String.utf8EncodeChar]
  simp only [hval]
  split
  · next h1 => rw [List.singleton_append, lossyFrom_one rest h1, Char.ofNat_toNat]
  · split
    · next h1 h2 =>
      show lossyFrom none (_ :: _ :: rest) = _
      rw [lossyFrom_two rest (by omega) h2, Char.ofNat_toNat]
    · split
      · next h2 h3 =>
        show lossyFrom none (_ :: _ :: _ :: rest) = _
        rw [lossyFrom_three rest (by omega) h3 (by omega), Char.ofNat_toNat]
      · next h3 =>
        show lossyFrom none (_ :: _ :: _ :: _ :: rest) = _
        rw [lossyFrom_four rest (by omega) (by omega), Char.ofNat_toNat]

/-- A text that is encoded is read back. -/
theorem lossyFrom_utf8Encode (cs : List Char) :
    lossyFrom none (cs.flatMap String.utf8EncodeChar) = cs := by
  induction cs with
  | nil => rfl
  | cons c cs ih => rw [List.flatMap_cons, lossyFrom_utf8EncodeChar, ih]

/-! ## URIs -/

/-- What is before the query. -/
def base (uri : List UInt8) : List UInt8 := (cut 63 (cut 35 uri).1).1

/-- What stands between the question mark and the fragment. -/
def query? (uri : List UInt8) : Option (List UInt8) := (cut 63 (cut 35 uri).1).2

/-- What stands after the number sign. -/
def fragment? (uri : List UInt8) : Option (List UInt8) := (cut 35 uri).2

/-- The pairs in the query of a URI. -/
def queryPairs (uri : List UInt8) : List (List UInt8 × List UInt8) := pairs ((query? uri).getD [])

/-- The separator before one more piece. -/
def separator (uri : List UInt8) : UInt8 := if 63 ∈ uri then 38 else 63

/-- One more piece in the query. -/
def appendPiece (uri piece : List UInt8) : List UInt8 := uri ++ separator uri :: piece

theorem base_append (huri : 35 ∉ uri) (hmem : 63 ∈ uri) (hrest : 35 ∉ rest) :
    base (uri ++ rest) = base uri ∧ query? (uri ++ rest) = (query? uri).map (· ++ rest) := by
  have hall : 35 ∉ uri ++ rest := by simp [huri, hrest]
  obtain ⟨before, after, hbefore, rfl⟩ := exists_first hmem
  rw [base, query?, base, query?, cut_of_notMem hall, cut_of_notMem huri, cut_append hbefore,
    List.append_assoc, List.cons_append, cut_append hbefore]
  exact ⟨rfl, rfl⟩

theorem queryPairs_appendPiece (huri : 35 ∉ uri) (hpiece : 35 ∉ piece) :
    base (appendPiece uri piece) = base uri ∧ fragment? (appendPiece uri piece) = none ∧
      queryPairs (appendPiece uri piece) = queryPairs uri ++ pairs piece := by
  by_cases hmem : 63 ∈ uri
  · have hrest : 35 ∉ 38 :: piece := by simp [hpiece]
    have hall : 35 ∉ uri ++ 38 :: piece := by simp [huri, hpiece]
    obtain ⟨hbase, hquery⟩ := base_append huri hmem hrest
    obtain ⟨before, after, hbefore, rfl⟩ := exists_first hmem
    have hsome : query? (before ++ 63 :: after) = some after := by
      rw [query?, cut_of_notMem huri, cut_append hbefore]
    rw [appendPiece, separator, if_pos hmem]
    refine ⟨hbase, by rw [fragment?, cut_of_notMem hall], ?_⟩
    rw [queryPairs, hquery, queryPairs, hsome]
    exact pairs_append after piece
  · have hall : 35 ∉ uri ++ 63 :: piece := by simp [huri, hpiece]
    rw [appendPiece, separator, if_neg hmem, base, fragment?, queryPairs, query?, base, queryPairs,
      query?, cut_of_notMem hall, cut_of_notMem huri, cut_append hmem, cut_of_notMem hmem]
    exact ⟨rfl, rfl, rfl⟩

/-! ## Links -/

/-- A character that a URL parser trims. -/
def isControlOrSpace (b : UInt8) : Bool := b ≤ 32

/-- A character that a URL parser does not remove. -/
def isKept (b : UInt8) : Bool := b ≠ 9 && b ≠ 10 && b ≠ 13

/-- The text of a link: without what surrounds it, and without tabs and newlines. -/
def strippedLink (link : List UInt8) : List UInt8 :=
  ((link.dropWhile isControlOrSpace).rdropWhile isControlOrSpace).filter isKept

/-- The bytes that the parser of a URL encodes in a query. -/
def isQueryEncoded (b : UInt8) : Bool :=
  b ≤ 32 || b = 34 || b = 35 || b = 39 || b = 60 || b = 62 || 126 < b

/-- A byte as a URL parser writes it in a query. -/
def queryEncodeByte (b : UInt8) : List UInt8 :=
  if isQueryEncoded b then [37, hexDigit (b / 16), hexDigit (b % 16)] else [b]

/-- The query that a URL parser writes. -/
def queryEncode (bytes : List UInt8) : List UInt8 := bytes.flatMap queryEncodeByte

/-- The query that is asked for when a link is followed. -/
def linkQuery (link : List UInt8) : List UInt8 := queryEncode ((query? (strippedLink link)).getD [])

@[simp] theorem queryEncode_append (bytes bytes' : List UInt8) :
    queryEncode (bytes ++ bytes') = queryEncode bytes ++ queryEncode bytes' := List.flatMap_append

/-- A value without `%` is decoded as it would be without the link. -/
theorem decode_queryEncode (h : 37 ∉ value) : decode (queryEncode value) = value.map space := by
  induction value with
  | nil => rfl
  | cons b value ih =>
    rw [List.mem_cons, not_or] at h
    show decode (queryEncodeByte b ++ queryEncode value) = space b :: value.map space
    rw [queryEncodeByte]
    split
    · rename_i hencoded
      have hspace : space b = b := by
        rw [space, if_neg]
        rintro rfl
        cases hencoded
      rw [hspace, ← ih h.2]
      exact decode_encoded b (queryEncode value)
    · rw [List.singleton_append, decode_cons (Ne.symm h.1), ih h.2]

theorem queryEncode_of_plain (h : ∀ b ∈ value, isQueryEncoded b = false) :
    queryEncode value = value := by
  induction value with
  | nil => rfl
  | cons b value ih =>
    show queryEncodeByte b ++ queryEncode value = b :: value
    rw [queryEncodeByte, h b List.mem_cons_self, ih fun b' hb' => h b' (List.mem_cons_of_mem _ hb')]
    rfl

private theorem mem_queryEncodeByte (b : UInt8) (h : 38 ∈ queryEncodeByte b) : b = 38 := by
  rw [queryEncodeByte] at h
  split at h
  · exact absurd (mem_percent h) (by decide)
  · exact (List.mem_singleton.mp h).symm

theorem notMem_queryEncode (h : 38 ∉ value) : 38 ∉ queryEncode value := by
  intro hmem
  obtain ⟨b, hb, hc⟩ := List.mem_flatMap.mp hmem
  have hb38 : b = 38 := mem_queryEncodeByte b hc
  exact h (hb38 ▸ hb)

/-- What is stripped from an end does not reach over a byte that stays. -/
private theorem dropWhile_append_cons {p : UInt8 → Bool} (hb : ¬p b = true)
    (bytes rest : List UInt8) :
    (bytes ++ b :: rest).dropWhile p = bytes.dropWhile p ++ b :: rest := by
  induction bytes with
  | nil => rw [List.nil_append, List.dropWhile_cons_of_neg hb, List.dropWhile_nil, List.nil_append]
  | cons c bytes ih =>
    by_cases hc : p c = true
    · rw [List.cons_append, List.dropWhile_cons_of_pos hc, List.dropWhile_cons_of_pos hc, ih]
    · rw [List.cons_append, List.dropWhile_cons_of_neg hc, List.dropWhile_cons_of_neg hc,
        List.cons_append]

private theorem rdropWhile_append_cons {p : UInt8 → Bool} (hb : ¬p b = true)
    (bytes rest : List UInt8) :
    (bytes ++ b :: rest).rdropWhile p = bytes ++ b :: rest.rdropWhile p := by
  rw [List.rdropWhile, List.reverse_append, List.reverse_cons, List.append_assoc,
    List.singleton_append, dropWhile_append_cons hb, List.reverse_append, List.reverse_cons,
    List.reverse_reverse, List.append_assoc, List.singleton_append]
  rfl

/-- Nothing is stripped inside a query but at its end. -/
theorem linkQuery_append (hpath : 63 ∉ path ∧ 35 ∉ path)
    (hquery : ∀ b ∈ query, b ≠ 35 ∧ b ≠ 9 ∧ b ≠ 10 ∧ b ≠ 13) :
    linkQuery (path ++ 63 :: query) = queryEncode (query.rdropWhile isControlOrSpace) := by
  have hsub : ∀ b ∈ query.rdropWhile isControlOrSpace, b ∈ query := fun b hb =>
    (List.rdropWhile_prefix _ _).subset hb
  have hkept : (query.rdropWhile isControlOrSpace).filter isKept =
      query.rdropWhile isControlOrSpace := by
    rw [List.filter_eq_self]
    intro b hb
    obtain ⟨-, htab, hline, hreturn⟩ := hquery b (hsub b hb)
    simp [isKept, htab, hline, hreturn]
  rw [linkQuery, strippedLink, dropWhile_append_cons (by decide),
    rdropWhile_append_cons (by decide), List.filter_append, List.filter_cons_of_pos (by decide),
    hkept]
  have hfront : ∀ b ∈ (path.dropWhile isControlOrSpace).filter isKept, b ∈ path := fun b hb =>
    (List.dropWhile_suffix _).subset (List.mem_of_mem_filter hb)
  have hall : 35 ∉ (path.dropWhile isControlOrSpace).filter isKept ++
      63 :: query.rdropWhile isControlOrSpace := by
    rw [List.mem_append, List.mem_cons, not_or, not_or]
    refine ⟨fun h => hpath.2 (hfront _ h), by decide, fun h => ?_⟩
    exact (hquery _ (hsub _ h)).1 rfl
  rw [query?, cut_of_notMem hall, cut_append fun h => hpath.1 (hfront _ h)]
  rfl

/-- A link whose last pair is in the query: the end of the value is what is stripped. -/
theorem linkQuery_pair (hpath : 63 ∉ path ∧ 35 ∉ path)
    (hquery : ∀ b ∈ name ++ 61 :: value, b ≠ 35 ∧ b ≠ 9 ∧ b ≠ 10 ∧ b ≠ 13) :
    linkQuery (path ++ 63 :: (name ++ 61 :: value)) =
      queryEncode (name ++ 61 :: value.rdropWhile isControlOrSpace) := by
  rw [linkQuery_append hpath hquery, rdropWhile_append_cons (by decide)]

end Lib.FormUrl
