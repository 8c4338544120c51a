import Mathlib.Tactic.Ring
import SuiId.Lib.Digits
import SuiId.Lib.FormUrl

/-!
# Base64 with the standard alphabet

`encode` writes three bytes as four characters, with `=` for what is missing at the end.  `sextets`
are the groups of six bits that it writes; a `+` stands for 62 and for nothing else.  `decode`
accepts exactly what `encode` writes.
-/

namespace Lib.Base64

/-- The groups of six bits, the last one filled up with zeros. -/
def sextets : List UInt8 → List UInt8
  | [] => []
  | [a] => [a / 4, a % 4 * 16]
  | [a, b] => [a / 4, a % 4 * 16 + b / 16, b % 16 * 4]
  | a :: b :: c :: rest =>
    a / 4 :: (a % 4 * 16 + b / 16) :: (b % 16 * 4 + c / 64) :: c % 64 :: sextets rest

/-- The character of a group, as a byte. -/
def digit (s : UInt8) : UInt8 :=
  if s < 26 then 65 + s
  else if s < 52 then 71 + s
  else if s < 62 then s - 4
  else if s = 62 then 43
  else 47

/-- How many `=` stand at the end. -/
def padding (length : Nat) : Nat := (3 - length % 3) % 3

/-- The text of a byte string. -/
def encode (bytes : List UInt8) : List UInt8 :=
  (sextets bytes).map digit ++ List.replicate (padding bytes.length) 61

private theorem digit_plain :
    ∀ s : UInt8, FormUrl.isAlphanumeric (digit s) ∨ digit s = 43 ∨ digit s = 47 := by
  apply FormUrl.forall_byte
  decide +kernel

theorem digit_eq_plus_iff : ∀ s : UInt8, digit s = 43 ↔ s = 62 := by
  apply FormUrl.forall_byte
  decide +kernel

variable {bytes : List UInt8}

theorem mem_encode {b : UInt8} (h : b ∈ encode bytes) :
    FormUrl.isAlphanumeric b ∨ b = 43 ∨ b = 47 ∨ b = 61 := by
  rcases List.mem_append.mp h with hdigit | hpad
  · obtain ⟨s, -, rfl⟩ := List.mem_map.mp hdigit
    rcases digit_plain s with halnum | hplus | hslash
    · exact Or.inl halnum
    · exact Or.inr (Or.inl hplus)
    · exact Or.inr (Or.inr (Or.inl hslash))
  · exact Or.inr (Or.inr (Or.inr (List.eq_of_mem_replicate hpad)))

theorem plus_mem_encode_iff (bytes : List UInt8) : 43 ∈ encode bytes ↔ 62 ∈ sextets bytes := by
  rw [encode, List.mem_append, List.mem_map]
  constructor
  · rintro (⟨s, hs, hplus⟩ | hpad)
    · exact (digit_eq_plus_iff s).mp hplus ▸ hs
    · exact absurd (List.eq_of_mem_replicate hpad) (by decide)
  · intro hs
    exact Or.inl ⟨62, hs, by decide⟩

theorem length_sextets (bytes : List UInt8) :
    (sextets bytes).length = (4 * bytes.length + 2) / 3 := by
  induction bytes using sextets.induct with
  | case1 => rfl
  | case2 => simp [sextets]
  | case3 => simp [sextets]
  | case4 a b c rest ih =>
    simp only [sextets, List.length_cons, ih]
    omega

/-! ### Decoding -/

/-- The group of a character. -/
def group (c : UInt8) : UInt8 :=
  if c = 43 then 62
  else if c = 47 then 63
  else if c < 65 then c + 4
  else if c < 97 then c - 65
  else c - 71

/-- The bytes of the groups; what fills up the last one is dropped. -/
def bytesOf : List UInt8 → List UInt8
  | a :: b :: c :: d :: rest =>
    (a * 4 + b / 16) :: (b % 16 * 16 + c / 4) :: (c % 4 * 64 + d) :: bytesOf rest
  | [a, b, c] => [a * 4 + b / 16, b % 16 * 16 + c / 4]
  | [a, b] => [a * 4 + b / 16]
  | _ => []

/-- The bytes that the text encodes, if there are any. -/
def decode (text : List UInt8) : Option (List UInt8) :=
  let bytes := bytesOf ((text.filter (· ≠ 61)).map group)
  if encode bytes = text then some bytes else none

private theorem group_digit : ∀ s : UInt8, s < 64 → group (digit s) = s ∧ digit s ≠ 61 := by
  apply FormUrl.forall_byte
  decide +kernel

private theorem first_byte (a b : UInt8) : a / 4 * 4 + (a % 4 * 16 + b / 16) / 16 = a := by
  have ha := a.toNat_lt
  have hb := b.toNat_lt
  apply UInt8.toNat_inj.mp
  simp only [UInt8.toNat_add, UInt8.toNat_mul, UInt8.toNat_div, UInt8.toNat_mod, UInt8.reduceToNat]
  omega

private theorem second_byte (a b c : UInt8) :
    (a % 4 * 16 + b / 16) % 16 * 16 + (b % 16 * 4 + c / 64) / 4 = b := by
  have hb := b.toNat_lt
  have hc := c.toNat_lt
  apply UInt8.toNat_inj.mp
  simp only [UInt8.toNat_add, UInt8.toNat_mul, UInt8.toNat_div, UInt8.toNat_mod, UInt8.reduceToNat]
  omega

private theorem third_byte (b c : UInt8) : (b % 16 * 4 + c / 64) % 4 * 64 + c % 64 = c := by
  have hc := c.toNat_lt
  apply UInt8.toNat_inj.mp
  simp only [UInt8.toNat_add, UInt8.toNat_mul, UInt8.toNat_div, UInt8.toNat_mod, UInt8.reduceToNat]
  omega

theorem bytesOf_sextets (bytes : List UInt8) : bytesOf (sextets bytes) = bytes := by
  induction bytes using sextets.induct with
  | case1 => rfl
  | case2 a => simpa [sextets, bytesOf] using first_byte a 0
  | case3 a b => simpa [sextets, bytesOf, first_byte] using second_byte a b 0
  | case4 a b c rest ih => rw [sextets, bytesOf, first_byte, second_byte, third_byte, ih]

private theorem first_lt (a : UInt8) : a / 4 < 64 := by
  have ha := a.toNat_lt
  rw [UInt8.lt_iff_toNat_lt, UInt8.toNat_div]
  show a.toNat / 4 < 64
  omega

private theorem middle_lt (a b : UInt8) : a % 4 * 16 + b / 16 < 64 ∧ a % 16 * 4 + b / 64 < 64 := by
  have hb := b.toNat_lt
  simp only [UInt8.lt_iff_toNat_lt, UInt8.toNat_add, UInt8.toNat_mul, UInt8.toNat_div,
    UInt8.toNat_mod, UInt8.reduceToNat]
  omega

theorem sextets_lt {s : UInt8} (h : s ∈ sextets bytes) : s < 64 := by
  induction bytes using sextets.induct with
  | case1 => cases h
  | case2 a =>
    simp only [sextets, List.mem_cons, List.not_mem_nil, or_false] at h
    rcases h with rfl | rfl
    · exact first_lt a
    · simpa using (middle_lt a 0).1
  | case3 a b =>
    simp only [sextets, List.mem_cons, List.not_mem_nil, or_false] at h
    rcases h with rfl | rfl | rfl
    · exact first_lt a
    · exact (middle_lt a b).1
    · simpa using (middle_lt b 0).2
  | case4 a b c rest ih =>
    simp only [sextets, List.mem_cons] at h
    rcases h with rfl | rfl | rfl | rfl | h
    · exact first_lt a
    · exact (middle_lt a b).1
    · exact (middle_lt b c).2
    · exact UInt8.mod_lt _ (by decide)
    · exact ih h

@[simp] theorem decode_encode (bytes : List UInt8) : decode (encode bytes) = some bytes := by
  have hdigits : (encode bytes).filter (· ≠ 61) = (sextets bytes).map digit := by
    rw [encode, List.filter_append, List.filter_eq_self.mpr, List.filter_eq_nil_iff.mpr,
      List.append_nil]
    · simp
    · intro c hc
      obtain ⟨s, hs, rfl⟩ := List.mem_map.mp hc
      simpa using (group_digit s (sextets_lt hs)).2
  have hgroups : ((sextets bytes).map digit).map group = sextets bytes := by
    rw [List.map_map]
    exact (List.map_congr_left fun s hs => (group_digit s (sextets_lt hs)).1).trans (List.map_id _)
  simp only [decode, hdigits, hgroups, bytesOf_sextets, if_true]

end Lib.Base64

/-! ## Base64 for URLs

`encode` writes bytes as digits of base 64, six bits to a character, with the last character
filled up with zero bits and no padding after it.  `decode` accepts exactly what `encode` writes.
`dotted` joins texts of bytes with dots, which the alphabet does not have.

`ofBytes` is the number that bytes write, the most significant first.
-/

namespace Lib

open Digits

/-! ## Numbers in bytes -/

/-- The number that the bytes write, the most significant byte first. -/
def ofBytes (bytes : List UInt8) : Nat := value 256 (bytes.map (·.toNat))

theorem value_concat (b : Nat) (l : List Nat) (d : Nat) :
    value b (l ++ [d]) = value b l * b + d := by
  rw [value, List.foldl_append]
  rfl

theorem value_append (b : Nat) (l l' : List Nat) :
    value b (l ++ l') = value b l * b ^ l'.length + value b l' := by
  induction l' using List.reverseRecOn with
  | nil => simp [value]
  | append_singleton l' d ih =>
    rw [← List.append_assoc, value_concat, ih, value_concat, List.length_append,
      List.length_singleton, pow_succ]
    ring

@[simp] theorem ofBytes_nil : ofBytes [] = 0 := rfl

theorem ofBytes_append (bytes bytes' : List UInt8) :
    ofBytes (bytes ++ bytes') = ofBytes bytes * 256 ^ bytes'.length + ofBytes bytes' := by
  rw [ofBytes, List.map_append, value_append, List.length_map]
  rfl

theorem ofBytes_singleton (byte : UInt8) : ofBytes [byte] = byte.toNat := by
  rw [ofBytes, value, List.map_singleton, List.foldl_cons, List.foldl_nil, Nat.zero_mul,
    Nat.zero_add]

theorem ofBytes_cons (byte : UInt8) (bytes : List UInt8) :
    ofBytes (byte :: bytes) = byte.toNat * 256 ^ bytes.length + ofBytes bytes := by
  rw [← List.singleton_append, ofBytes_append, ofBytes_singleton]

theorem ofBytes_lt (bytes : List UInt8) : ofBytes bytes < 256 ^ bytes.length := by
  induction bytes with
  | nil => exact Nat.one_pos
  | cons byte bytes ih =>
    have hbyte : byte.toNat + 1 ≤ 256 := byte.toNat_lt
    rw [ofBytes_cons, List.length_cons, pow_succ, Nat.mul_comm (256 ^ bytes.length)]
    calc byte.toNat * 256 ^ bytes.length + ofBytes bytes
        < byte.toNat * 256 ^ bytes.length + 256 ^ bytes.length := Nat.add_lt_add_left ih _
      _ = (byte.toNat + 1) * 256 ^ bytes.length := (Nat.succ_mul _ _).symm
      _ ≤ 256 * 256 ^ bytes.length := Nat.mul_le_mul_right _ hbyte

variable {bytes : List UInt8}

theorem ofBytes_pos_iff : 0 < ofBytes bytes ↔ ∃ byte ∈ bytes, byte ≠ 0 := by
  induction bytes with
  | nil => simp
  | cons byte bytes ih =>
    rw [ofBytes_cons, List.exists_mem_cons_iff, ← ih]
    have hpow : 0 < 256 ^ bytes.length := Nat.pow_pos (by omega)
    have hzero : byte ≠ 0 ↔ 0 < byte.toNat := by
      rw [Nat.pos_iff_ne_zero, not_iff_not, ← UInt8.toNat_inj]
      rfl
    rw [hzero, Nat.add_pos_iff_pos_or_pos, Nat.mul_pos_iff_of_pos_right hpow]

/-- Zeros in front do not change the number. -/
theorem ofBytes_dropWhile (bytes : List UInt8) :
    ofBytes (bytes.dropWhile (· == 0)) = ofBytes bytes := by
  induction bytes with
  | nil => rfl
  | cons byte bytes ih =>
    by_cases hzero : byte = 0
    · subst hzero
      rw [List.dropWhile_cons_of_pos (by rfl), ih, ofBytes_cons]
      show _ = 0 * _ + _
      rw [Nat.zero_mul, Nat.zero_add]
    · rw [List.dropWhile_cons_of_neg (by simpa using hzero)]

/-- The last byte decides whether the number is odd. -/
theorem ofBytes_mod_two {last : UInt8} (h : bytes.getLast? = some last) :
    ofBytes bytes % 2 = last.toNat % 2 := by
  obtain ⟨lead, rfl⟩ := List.getLast?_eq_some_iff.mp h
  rw [ofBytes_append, ofBytes_singleton, List.length_singleton, pow_one]
  omega

/-- A number reaches the top bit of one of its bytes if that bit is set, or if a byte before it
is not zero. -/
theorem topBit_le_ofBytes_iff (lead rest : List UInt8) (byte : UInt8) :
    128 * 256 ^ rest.length ≤ ofBytes (lead ++ byte :: rest) ↔
      128 ≤ byte.toNat ∨ ∃ b ∈ lead, b ≠ 0 := by
  have hpow : 0 < 256 ^ rest.length := Nat.pow_pos (by omega)
  rw [← ofBytes_pos_iff, ofBytes_append, ofBytes_cons, List.length_cons, pow_succ]
  have hrest := ofBytes_lt rest
  constructor
  · intro hle
    by_contra hnot
    obtain ⟨hbyte, hlead⟩ := not_or.mp hnot
    have hzero : ofBytes lead = 0 := by omega
    have hsmall : (byte.toNat + 1) * 256 ^ rest.length ≤ 128 * 256 ^ rest.length :=
      Nat.mul_le_mul_right _ (by omega)
    rw [hzero, Nat.zero_mul, Nat.zero_add] at hle
    rw [Nat.succ_mul] at hsmall
    omega
  · rintro (hbyte | hlead)
    · have hlarge : 128 * 256 ^ rest.length ≤ byte.toNat * 256 ^ rest.length :=
        Nat.mul_le_mul_right _ hbyte
      omega
    · have hlarge : 1 * (256 ^ rest.length * 256) ≤ ofBytes lead * (256 ^ rest.length * 256) :=
        Nat.mul_le_mul_right _ hlead
      omega

/-! ## Encoding -/

namespace Base64Url

/-- The letters, in the order of their values. -/
def alphabet : List Char :=
  "ABCDEFGHIJKLMNOPQRSTUVWXYZabcdefghijklmnopqrstuvwxyz0123456789-_".toList

/-- How many characters so many bytes take. -/
def width (bytes : Nat) : Nat := (8 * bytes + 5) / 6

/-- The character of a digit. -/
def charOf (d : Nat) : Char := alphabet.getD d 'A'

/-- The value of a letter. -/
def digitOf (c : Char) : Option Nat := alphabet.idxOf? c

/-- The text of a byte string. -/
def encode (bytes : List UInt8) : String :=
  let w := width bytes.length
  String.ofList ((fixed 64 w (ofBytes bytes * 2 ^ (6 * w - 8 * bytes.length))).map charOf)

/-- The bytes that the text encodes, if there are any. -/
def decode (s : String) : Option (List UInt8) :=
  (s.toList.mapM digitOf).bind fun digits =>
    let length := 6 * digits.length / 8
    let bytes := (fixed 256 length (value 64 digits / 2 ^ (6 * digits.length - 8 * length))).map
      UInt8.ofNat
    if encode bytes = s then some bytes else none

theorem length_encode (bytes : List UInt8) : (encode bytes).length = width bytes.length := by
  rw [encode, String.length_ofList, List.length_map, length_fixed]

variable {l : List Nat} {c : Char} {d : Nat}

/-- A field of the right width gives the digits back. -/
theorem fixed_value {b : Nat} (hl : ∀ d ∈ l, d < b) :
    fixed b l.length (value b l) = l := by
  induction l using List.reverseRecOn with
  | nil => rfl
  | append_singleton l d ih =>
    have hd : d < b := hl d (List.mem_append_right _ (List.mem_singleton_self d))
    have hrest : ∀ d' ∈ l, d' < b := fun d' hd' => hl d' (List.mem_append_left _ hd')
    have hpos : 0 < b := by omega
    have hdiv : (value b l * b + d) / b = value b l := by
      rw [Nat.mul_comm, Nat.mul_add_div hpos, Nat.div_eq_of_lt hd, Nat.add_zero]
    have hmod : (value b l * b + d) % b = d := by
      rw [Nat.mul_comm, Nat.mul_add_mod, Nat.mod_eq_of_lt hd]
    rw [List.length_append, List.length_singleton, value_concat, fixed, hdiv, hmod, ih hrest]

/-- Upper case, lower case, digits and two more. -/
private def codes : List Nat :=
  List.range' 65 26 ++ List.range' 97 26 ++ List.range' 48 10 ++ [45, 95]

private theorem codes_alphabet : alphabet.map Char.toNat = codes := by
  decide +kernel

private theorem toNat_mem_codes (h : c ∈ alphabet) : c.toNat ∈ codes := by
  rw [← codes_alphabet]
  exact List.mem_map_of_mem h

/-- A character of the alphabet is a letter, a digit or one of the two. -/
theorem range_of_mem_alphabet (h : c ∈ alphabet) :
    45 ≤ c.toNat ∧ c.toNat ≤ 122 ∧ c ≠ '.' := by
  have hcode := toNat_mem_codes h
  have hrange : ∀ n ∈ codes, 45 ≤ n ∧ n ≤ 122 ∧ n ≠ 46 := by decide
  obtain ⟨hlow, hhigh, hdot⟩ := hrange _ hcode
  refine ⟨hlow, hhigh, ?_⟩
  rintro rfl
  exact hdot rfl

private theorem length_alphabet : alphabet.length = 64 := by
  rw [← List.length_map (f := Char.toNat), codes_alphabet]
  rfl

private theorem nodup_alphabet : alphabet.Nodup := by
  have hcodes : codes.Nodup := by decide +kernel
  rw [← codes_alphabet] at hcodes
  exact List.Pairwise.of_map _ (fun _ _ hne hsame => hne (congrArg _ hsame)) hcodes

private theorem charOf_eq (hd : d < alphabet.length) : charOf d = alphabet[d] := by
  rw [charOf, List.getD_eq_getElem?_getD, List.getElem?_eq_getElem hd, Option.getD_some]

private theorem digitOf_charOf (hd : d < 64) : digitOf (charOf d) = some d := by
  have hlt : d < alphabet.length := by rwa [length_alphabet]
  rw [digitOf, charOf_eq hlt, List.idxOf?_eq_some_iff]
  exact ⟨hlt, rfl, fun j hj => List.pairwise_iff_getElem.mp nodup_alphabet j d _ hlt hj⟩

private theorem mapM_digitOf (hl : ∀ d ∈ l, d < 64) :
    (l.map charOf).mapM digitOf = some l := by
  induction l with
  | nil => rfl
  | cons d l ih =>
    have hd := digitOf_charOf (hl d (List.mem_cons_self ..))
    have hrest := ih fun d' hd' => hl d' (List.mem_cons_of_mem _ hd')
    rw [List.map_cons, List.mapM_cons, hd, hrest]
    rfl

/-- What was encoded is decoded. -/
@[simp] theorem decode_encode (bytes : List UInt8) : decode (encode bytes) = some bytes := by
  have hwidth : 8 * bytes.length ≤ 6 * width bytes.length ∧
      6 * width bytes.length / 8 = bytes.length := by
    unfold width
    omega
  obtain ⟨hle, hlength⟩ := hwidth
  let shift := 2 ^ (6 * width bytes.length - 8 * bytes.length)
  have hshift : 0 < shift := Nat.pow_pos (by omega)
  have hfits : ofBytes bytes * shift < 64 ^ width bytes.length := by
    have hbound := Nat.mul_lt_mul_of_pos_right (ofBytes_lt bytes) hshift
    have hpow : 256 ^ bytes.length * shift = 64 ^ width bytes.length := by
      rw [show 256 = 2 ^ 8 from rfl, show 64 = 2 ^ 6 from rfl, ← pow_mul, ← pow_mul, ← pow_add,
        Nat.add_sub_cancel' hle]
    rwa [hpow] at hbound
  have hdigits : (encode bytes).toList.mapM digitOf =
      some (fixed 64 (width bytes.length) (ofBytes bytes * shift)) := by
    rw [encode, String.toList_ofList]
    exact mapM_digitOf fun d hd => lt_of_mem_fixed (by omega) hd
  have hbytes : (fixed 256 bytes.length (ofBytes bytes)).map UInt8.ofNat = bytes := by
    have hback := fixed_value (b := 256) (l := bytes.map (·.toNat)) (by
      intro d hd
      obtain ⟨byte, -, rfl⟩ := List.mem_map.mp hd
      exact byte.toNat_lt)
    rw [List.length_map] at hback
    rw [ofBytes, hback, List.map_map]
    exact (List.map_congr_left fun byte _ => UInt8.ofNat_toNat).trans (List.map_id _)
  rw [decode, hdigits, Option.bind_some]
  simp only [length_fixed, hlength, value_fixed, Nat.mod_eq_of_lt hfits]
  rw [show ofBytes bytes * shift / 2 ^ (6 * width bytes.length - 8 * bytes.length) = ofBytes bytes
    from Nat.mul_div_cancel _ hshift, hbytes, if_pos rfl]

theorem mem_alphabet {bytes : List UInt8} (h : c ∈ (encode bytes).toList) :
    c ∈ alphabet := by
  rw [encode, String.toList_ofList, List.mem_map] at h
  obtain ⟨d, hd, rfl⟩ := h
  have hlt : d < alphabet.length := by
    rw [length_alphabet]
    exact lt_of_mem_fixed (by omega) hd
  rw [charOf_eq hlt]
  exact List.getElem_mem hlt

theorem utf8ByteSize_encode (bytes : List UInt8) :
    (encode bytes).utf8ByteSize = width bytes.length := by
  have hall : ∀ c ∈ alphabet, c.utf8Size = 1 := fun c hc => by
    rw [Char.utf8Size_eq_one_iff, UInt32.le_iff_toNat_le]
    exact Nat.le_trans (range_of_mem_alphabet hc).2.1 (by decide)
  have hsize := @Text.utf8ByteSize_ofList (encode bytes).toList fun c hc =>
    hall c (mem_alphabet hc)
  rw [String.ofList_toList, String.length_toList, length_encode] at hsize
  exact hsize

theorem isEmpty_encode {bytes : List UInt8} (h : bytes ≠ []) : (encode bytes).isEmpty = false := by
  rw [← Bool.not_eq_true, String.isEmpty_iff]
  intro hempty
  have hsize := utf8ByteSize_encode bytes
  rw [hempty, width] at hsize
  have hpos : 0 < bytes.length := List.length_pos_iff.mpr h
  have hzero : "".utf8ByteSize = 0 := rfl
  omega

/-! ## Dots -/

/-- Three texts of bytes with dots between them. -/
def dotted (header payload signature : List UInt8) : String :=
  encode header ++ "." ++ encode payload ++ "." ++ encode signature

theorem split_dotted (header payload signature : List UInt8) :
    Text.split (dotted header payload signature) '.' =
      [encode header, encode payload, encode signature] := by
  have hdot : ∀ bytes, '.' ∉ (encode bytes).toList := fun bytes h =>
    (range_of_mem_alphabet (mem_alphabet h)).2.2 rfl
  apply Text.split_intercalate (by simp)
  · simp only [List.mem_cons, List.not_mem_nil, or_false]
    rintro piece (rfl | rfl | rfl)
    · exact hdot header
    · exact hdot payload
    · exact hdot signature
  · simp [dotted, List.intercalate, String.toList_append]

end Base64Url

end Lib
