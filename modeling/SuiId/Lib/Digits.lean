import SuiId.Lib.Text

/-!
# Digits

The canonical decimal text of a natural number is the one that `toString` writes: digits
only, and no leading zero but in `0` itself.  `isCanonical` recognises these texts and
`decimal` reads them.

A field of fixed width holds so many digits of a number in some base and loses the rest:
`fixed` writes it, and `value_fixed` is what is read back.
-/

namespace Lib.Digits

/-- Digits, without a leading zero unless the text is `0`. -/
def isCanonical (s : String) : Bool :=
  !s.toList.isEmpty && s.toList.all Char.isDigit && (s == "0" || !Text.startsWith s "0")

/-- The number that a text of digits writes. -/
def decimal (s : String) : Nat := Nat.ofDigitChars 10 s.toList 0

/-- A positive number is written with a leading digit other than `0`. -/
private theorem head_toDigits_ne_zero {n : Nat} (hn : 0 < n) :
    (Nat.toDigits 10 n).head? ≠ some '0' := by
  induction n using Nat.strongRecOn with
  | ind n ih =>
    by_cases hlt : n < 10
    · rw [Nat.toDigits_of_lt_base hlt, List.head?_cons]
      intro h
      have hzero := Nat.digitChar_eq_zero.mp (Option.some.inj h)
      omega
    · have hpos : 0 < n / 10 := by omega
      have hsmaller : n / 10 < n := by omega
      have hdigits := Nat.toDigits_of_base_le (show 1 < 10 by omega) (show 10 ≤ n by omega)
      rw [hdigits, List.head?_append_of_ne_nil _ Nat.toDigits_ne_nil]
      exact ih _ hsmaller hpos

theorem toList_toString (n : Nat) : (toString n).toList = Nat.toDigits 10 n := Nat.toList_repr

/-- What `toString` writes is canonical. -/
theorem isCanonical_toString (n : Nat) : isCanonical (toString n) = true := by
  have hdigits : (toString n).toList.all Char.isDigit = true := by
    rw [List.all_eq_true, toList_toString]
    intro c hc
    exact Nat.isDigit_of_mem_toDigits (by omega) (by omega) hc
  have hnonempty : (toString n).toList.isEmpty = false := by
    rw [toList_toString, List.isEmpty_eq_false_iff]
    exact Nat.toDigits_ne_nil
  have hlead : (toString n == "0" || !Text.startsWith (toString n) "0") = true := by
    by_cases hn : n = 0
    · subst hn
      rfl
    · have hhead := head_toDigits_ne_zero (show 0 < n by omega)
      have hstart : Text.startsWith (toString n) "0" = false := by
        show (['0'] : List Char).isPrefixOf (toString n).toList = false
        rw [toList_toString]
        cases hl : Nat.toDigits 10 n with
        | nil => exact absurd hl Nat.toDigits_ne_nil
        | cons c cs =>
          rw [hl, List.head?_cons, ne_eq, Option.some.injEq] at hhead
          simp [List.isPrefixOf, Ne.symm hhead]
      rw [hstart]
      simp
  rw [isCanonical, hnonempty, hdigits, hlead]
  rfl

/-- `decimal` reads back what `toString` writes. -/
@[simp] theorem decimal_toString (n : Nat) : decimal (toString n) = n := by
  rw [decimal, toList_toString]
  exact Nat.ofDigitChars_ten_toDigits

/-! ## Fields of fixed width -/

/-- The last `w` digits of `n`, the most significant first. -/
def fixed (b : Nat) : Nat → Nat → List Nat
  | 0, _ => []
  | w + 1, n => fixed b w (n / b) ++ [n % b]

/-- The number that a list of digits writes. -/
def value (b : Nat) (digits : List Nat) : Nat := digits.foldl (fun v d => v * b + d) 0

@[simp] theorem length_fixed (b w n : Nat) : (fixed b w n).length = w := by
  induction w generalizing n with
  | zero => rfl
  | succ w ih => rw [fixed, List.length_append, ih, List.length_singleton]

theorem lt_of_mem_fixed {b w n d : Nat} (hb : 0 < b) (h : d ∈ fixed b w n) : d < b := by
  induction w generalizing n with
  | zero => cases h
  | succ w ih =>
    rcases List.mem_append.mp h with h | h
    · exact ih h
    · rw [List.mem_singleton.mp h]
      exact Nat.mod_lt n hb

/-- A field keeps the number up to a power of the base. -/
theorem value_fixed (b w n : Nat) : value b (fixed b w n) = n % b ^ w := by
  induction w generalizing n with
  | zero => rw [Nat.pow_zero, Nat.mod_one, fixed, value, List.foldl_nil]
  | succ w ih =>
    have hlead : value b (fixed b w (n / b)) = n / b % b ^ w := ih (n / b)
    have hstep : value b (fixed b (w + 1) n) = value b (fixed b w (n / b)) * b + n % b := by
      rw [fixed, value, List.foldl_append]
      rfl
    rw [hstep, hlead, Nat.pow_succ, Nat.mul_comm (b ^ w) b, Nat.mod_mul, Nat.mul_comm]
    omega

/-- A wide field is a field of the higher digits before one of the lower digits. -/
theorem fixed_add (b w v n : Nat) :
    fixed b (w + v) n = fixed b w (n / b ^ v) ++ fixed b v n := by
  induction v generalizing n with
  | zero => rw [Nat.pow_zero, Nat.div_one, Nat.add_zero, fixed, List.append_nil]
  | succ v ih =>
    rw [← Nat.add_assoc, fixed, ih, fixed, List.append_assoc, Nat.div_div_eq_div_mul,
      Nat.pow_succ, Nat.mul_comm (b ^ v) b]

/-- A field depends on its own digits only. -/
theorem fixed_mod {b w k : Nat} (h : w ≤ k) (n : Nat) : fixed b w (n % b ^ k) = fixed b w n := by
  induction w generalizing n k with
  | zero => rfl
  | succ w ih =>
    obtain ⟨k, rfl⟩ : ∃ j, k = j + 1 := ⟨k - 1, by omega⟩
    have hlow : n % b ^ (k + 1) % b = n % b := by
      rw [Nat.pow_succ, Nat.mul_comm]
      exact Nat.mod_mul_right_mod n b (b ^ k)
    have hhigh : n % b ^ (k + 1) / b = n / b % b ^ k := by
      rw [Nat.pow_succ, Nat.mul_comm]
      exact Nat.mod_mul_right_div_self n b (b ^ k)
    rw [fixed, fixed, hlow, hhigh, ih (by omega)]

/-- The lower digits of a multiple of a power of the base. -/
theorem fixed_mul_pow {b : Nat} (hb : 0 < b) (w n : Nat) :
    fixed b w (n * b ^ w) = List.replicate w 0 := by
  induction w generalizing n with
  | zero => rfl
  | succ w ih =>
    have hmul : n * b ^ (w + 1) = n * b ^ w * b := by rw [Nat.pow_succ, Nat.mul_assoc]
    rw [fixed, hmul, Nat.mul_div_cancel _ hb, Nat.mul_mod_left, ih, List.replicate_succ']

end Lib.Digits
