import SuiId.Lib.Digits

/-!
# Base32

RFC 4648 Base32 without padding.  The bits of the bytes, the most significant first, are cut into
groups of five, with zero bits behind the last of them, and each group is one character.  `decode`
reads a text back: `decode_of_groups` is for any writer whose groups hold the right bits.
-/

namespace Lib.Base32

open Digits

/-! ## Characters -/

/-- `A` to `Z` and then `2` to `7`. -/
def digit (n : Nat) : Char := if n < 26 then Char.ofNat (65 + n) else Char.ofNat (24 + n)

/-- The value of a letter. -/
def value? (c : Char) : Option Nat :=
  if 'A' ≤ c && c ≤ 'Z' then some (c.toNat - 65)
  else if '2' ≤ c && c ≤ '7' then some (c.toNat - 24)
  else none

theorem value?_digit : ∀ n < 32, value? (digit n) = some n := by decide

variable {groups fill : List Nat} {bytes : List UInt8} {k : Nat}

theorem mapM_value?_map_digit (h : ∀ n ∈ groups, n < 32) :
    (groups.map digit).mapM value? = some groups := by
  induction groups with
  | nil => rfl
  | cons n groups ih =>
    rw [List.map_cons, List.mapM_cons, value?_digit n (h n List.mem_cons_self),
      ih fun m hm => h m (List.mem_cons_of_mem _ hm)]
    rfl

/-! ## Bits -/

/-- The bits of bytes. -/
def bitsOf (bytes : List UInt8) : List Nat := bytes.flatMap fun b => fixed 2 8 b.toNat

/-- The bytes that bits make up, and the bits behind them. -/
def octets : List Nat → List UInt8 × List Nat
  | b₇ :: b₆ :: b₅ :: b₄ :: b₃ :: b₂ :: b₁ :: b₀ :: rest =>
    let (bytes, fill) := octets rest
    (UInt8.ofNat (value 2 [b₇, b₆, b₅, b₄, b₃, b₂, b₁, b₀]) :: bytes, fill)
  | fill => ([], fill)

theorem octets_of_short (h : fill.length < 8) : octets fill = ([], fill) := by
  match fill, h with
  | [], _ => rfl
  | [_], _ => rfl
  | [_, _], _ => rfl
  | [_, _, _], _ => rfl
  | [_, _, _, _], _ => rfl
  | [_, _, _, _, _], _ => rfl
  | [_, _, _, _, _, _], _ => rfl
  | [_, _, _, _, _, _, _], _ => rfl

theorem octets_byte (b : UInt8) (rest : List Nat) :
    octets (fixed 2 8 b.toNat ++ rest) = (b :: (octets rest).1, (octets rest).2) := by
  have hvalue : value 2 (fixed 2 8 b.toNat) = b.toNat := by
    rw [value_fixed]
    exact Nat.mod_eq_of_lt b.toNat_lt
  have hbyte : UInt8.ofNat (value 2 (fixed 2 8 b.toNat)) = b := by
    rw [hvalue]
    exact UInt8.ofNat_toNat
  have hstep : octets (fixed 2 8 b.toNat ++ rest) =
      (UInt8.ofNat (value 2 (fixed 2 8 b.toNat)) :: (octets rest).1, (octets rest).2) := rfl
  rw [hstep, hbyte]

/-- Bytes are read back from their bits. -/
theorem octets_bitsOf (bytes : List UInt8) (h : fill.length < 8) :
    octets (bitsOf bytes ++ fill) = (bytes, fill) := by
  induction bytes with
  | nil => exact octets_of_short h
  | cons b bytes ih =>
    rw [bitsOf, List.flatMap_cons, List.append_assoc, octets_byte]
    rw [bitsOf] at ih
    rw [ih]

/-! ## Decoding -/

/-- Fewer than five bits are left behind the last byte, and they are zero. -/
def decode (text : List Char) : Option (List UInt8) :=
  (text.mapM value?).bind fun groups =>
    let (bytes, fill) := octets (groups.flatMap (fixed 2 5))
    if fill.length < 5 && fill.all (· = 0) then some bytes else none

/-- Groups of five bits that hold the bits of bytes, with zeros behind them. -/
theorem decode_of_groups (hgroups : ∀ n ∈ groups, n < 32) (hk : k < 5)
    (hbits : groups.flatMap (fixed 2 5) = bitsOf bytes ++ List.replicate k 0) :
    decode (groups.map digit) = some bytes := by
  have hoctets : octets (groups.flatMap (fixed 2 5)) = (bytes, List.replicate k 0) := by
    rw [hbits]
    exact octets_bitsOf bytes (by simp; omega)
  rw [decode, mapM_value?_map_digit hgroups, Option.bind_some, hoctets]
  simp [hk]

/-- How many characters stand for so many bytes. -/
theorem length_of_groups (hk : k < 5)
    (hbits : groups.flatMap (fixed 2 5) = bitsOf bytes ++ List.replicate k 0) :
    groups.length = (8 * bytes.length + 4) / 5 := by
  have hlength := congrArg List.length hbits
  have hfive : (groups.flatMap (fixed 2 5)).length = 5 * groups.length := by
    simp [List.length_flatMap, Nat.mul_comm]
  have height : (bitsOf bytes).length = 8 * bytes.length := by
    simp [bitsOf, List.length_flatMap, Nat.mul_comm]
  rw [List.length_append, List.length_replicate, hfive, height] at hlength
  omega

end Lib.Base32
