import Mathlib.Algebra.Group.Nat.Defs
import Mathlib.Data.Nat.Basic

/-!
# The first bits of a word

`mask w n` keeps the first `n` of `w` bits.  Two words agree under it if their quotients by
`2 ^ (w - n)` are the same (`and_mask_eq_iff`), so a word agrees with one whose other bits are zero
if it is in an interval (`and_mask_eq_iff_of_aligned`), and a table of such prefixes covers a list
of intervals if each is inside one of the other (`exists_row_iff`).
-/

namespace Lib.Prefix

variable {w n : Nat}

/-- Ones, then `w - n` zeros. -/
def mask (w n : Nat) : BitVec w := BitVec.allOnes w <<< (w - n)

theorem mask_zero (w : Nat) : mask w 0 = 0 := by
  rw [mask, Nat.sub_zero, BitVec.shiftLeft_eq_zero (le_refl w)]
  rfl

theorem getLsbD_and_mask (x : BitVec w) {i : Nat} (hi : i < w) :
    (x &&& mask w n).getLsbD i = (x.getLsbD i && decide (w - n ≤ i)) := by
  rw [BitVec.getLsbD_and, mask, BitVec.getLsbD_shiftLeft, BitVec.getLsbD_allOnes]
  by_cases hlow : w - n ≤ i
  · have hsmall : i - (w - n) < w := by omega
    simp [hi, hlow, hsmall]
  · simp [hlow, Nat.lt_of_not_le hlow]

theorem and_mask_eq_iff (x y : BitVec w) :
    x &&& mask w n = y &&& mask w n ↔ x.toNat / 2 ^ (w - n) = y.toNat / 2 ^ (w - n) := by
  have hshift : ∀ z : BitVec w, z.toNat / 2 ^ (w - n) = (z >>> (w - n)).toNat := fun z => by
    rw [BitVec.toNat_ushiftRight, Nat.shiftRight_eq_div_pow]
  rw [hshift, hshift, BitVec.toNat_inj]
  constructor
  · intro h
    apply BitVec.eq_of_getLsbD_eq
    intro i hi
    rw [BitVec.getLsbD_ushiftRight, BitVec.getLsbD_ushiftRight]
    by_cases hbit : w - n + i < w
    · have hsame := congrArg (fun z => z.getLsbD (w - n + i)) h
      simp only [getLsbD_and_mask _ hbit, Nat.le_add_right, decide_true, Bool.and_true] at hsame
      exact hsame
    · rw [BitVec.getLsbD_of_ge x _ (Nat.le_of_not_lt hbit),
        BitVec.getLsbD_of_ge y _ (Nat.le_of_not_lt hbit)]
  · intro h
    apply BitVec.eq_of_getLsbD_eq
    intro i hi
    rw [getLsbD_and_mask x hi, getLsbD_and_mask y hi]
    by_cases hlow : w - n ≤ i
    · have hsame := congrArg (fun z => z.getLsbD (i - (w - n))) h
      simp only [BitVec.getLsbD_ushiftRight, Nat.add_sub_cancel' hlow] at hsame
      rw [hsame]
    · simp [hlow]

/-- A word that agrees with `y` in its first bits, where the other bits of `y` are zero. -/
theorem and_mask_eq_iff_of_aligned {x y : BitVec w} (h : y.toNat % 2 ^ (w - n) = 0) :
    x &&& mask w n = y &&& mask w n ↔
      y.toNat ≤ x.toNat ∧ x.toNat < y.toNat + 2 ^ (w - n) := by
  have hpos : 0 < 2 ^ (w - n) := Nat.two_pow_pos _
  obtain ⟨q, hq⟩ := Nat.dvd_of_mod_eq_zero h
  rw [and_mask_eq_iff, hq, Nat.mul_div_cancel_left q hpos, Nat.div_eq_iff hpos]
  constructor
  · rintro ⟨hle, hlt⟩
    rw [Nat.mul_comm] at hle hlt
    omega
  · rintro ⟨hle, hlt⟩
    rw [Nat.mul_comm q]
    omega

/-- A table of prefixes against a list of intervals. -/
theorem exists_row_iff {rows : List (BitVec w × Nat)} {ranges : List (BitVec w × BitVec w)}
    (haligned : (rows.all fun r => r.1.toNat % 2 ^ (w - r.2) = 0) = true)
    (hrows : (rows.all fun r => ranges.any fun s =>
      s.1.toNat ≤ r.1.toNat ∧ r.1.toNat + 2 ^ (w - r.2) ≤ s.2.toNat + 1) = true)
    (hranges : (ranges.all fun s => rows.any fun r =>
      r.1.toNat ≤ s.1.toNat ∧ s.2.toNat + 1 ≤ r.1.toNat + 2 ^ (w - r.2)) = true) (x : BitVec w) :
    (∃ r ∈ rows, x &&& mask w r.2 = r.1 &&& mask w r.2) ↔
      ∃ s ∈ ranges, s.1.toNat ≤ x.toNat ∧ x.toNat ≤ s.2.toNat := by
  simp only [List.all_eq_true, List.any_eq_true, decide_eq_true_eq] at haligned hrows hranges
  constructor
  · rintro ⟨r, hr, hagree⟩
    obtain ⟨hfirst, hlast⟩ := (and_mask_eq_iff_of_aligned (haligned r hr)).mp hagree
    obtain ⟨s, hs, hbelow, habove⟩ := hrows r hr
    exact ⟨s, hs, by omega, by omega⟩
  · rintro ⟨s, hs, hfirst, hlast⟩
    obtain ⟨r, hr, hbelow, habove⟩ := hranges s hs
    exact ⟨r, hr, (and_mask_eq_iff_of_aligned (haligned r hr)).mpr ⟨by omega, by omega⟩⟩

end Lib.Prefix
