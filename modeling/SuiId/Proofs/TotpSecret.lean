import SuiId.Core.Mfa
import SuiId.Lib.Base32

/-!
# The secret of an authenticator is Base32

The invariant of the loop is `Holds`: the groups written so far and the low bits of the word, as
many as are pending, are the bits of the bytes read so far.  What stands above those bits in the
word does not matter, as a group is five bits of the pending ones.
-/

namespace SuiId.Totp

open Lib Lib.Digits Lib.Base32

/-! ## Words -/

/-- The source's alphabet is the one of the standard. -/
theorem characterAt_eq_digit (x : UInt32) : characterAt x = digit (x.toNat % 32) := by
  have hindex : (x &&& 0x1f).toNat = x.toNat % 32 := by
    rw [UInt32.toNat_and]
    exact Nat.and_two_pow_sub_one_eq_mod x.toNat 5
  have hall : ∀ n (h : n < alphabet.length), alphabet.get ⟨n, h⟩ = digit n := by
    decide
  rw [characterAt, hall, hindex]

/-- A byte takes the place of the eight low bits. -/
theorem toNat_pushed (buf : UInt32) (b : UInt8) :
    (buf <<< 8 ||| b.toUInt32).toNat = buf.toNat % 2 ^ 24 * 2 ^ 8 + b.toNat := by
  have hb : b.toNat < 2 ^ 8 := b.toNat_lt
  have hshift : (buf <<< 8).toNat = 2 ^ 8 * (buf.toNat % 2 ^ 24) := by
    rw [UInt32.toNat_shiftLeft, Nat.shiftLeft_eq]
    have height : (8 : UInt32).toNat % 32 = 8 := rfl
    rw [height]
    omega
  rw [UInt32.toNat_or, UInt8.toNat_toUInt32, hshift, ← Nat.two_pow_add_eq_or_of_lt hb,
    Nat.mul_comm]

variable {bits : Nat} {bytes : Bytes} {e : Encoder}

/-- The pending bits, with those of another byte. -/
theorem fixed_pushed (hbits : bits ≤ 24) (buf : UInt32) (b : UInt8) :
    fixed 2 (bits + 8) (buf <<< 8 ||| b.toUInt32).toNat =
      fixed 2 bits buf.toNat ++ fixed 2 8 b.toNat := by
  have hb : b.toNat < 2 ^ 8 := b.toNat_lt
  rw [toNat_pushed, fixed_add]
  have hhigh : (buf.toNat % 2 ^ 24 * 2 ^ 8 + b.toNat) / 2 ^ 8 = buf.toNat % 2 ^ 24 := by omega
  have hlow : (buf.toNat % 2 ^ 24 * 2 ^ 8 + b.toNat) % 2 ^ 8 = b.toNat := by omega
  rw [hhigh, fixed_mod hbits, ← fixed_mod (Nat.le_refl 8) (buf.toNat % 2 ^ 24 * 2 ^ 8 + b.toNat),
    hlow]

private theorem toNat_ofNat_mod {n : Nat} (h : n < 32) : (UInt32.ofNat n).toNat % 32 = n := by
  rw [UInt32.toNat_ofNat']
  omega

/-- The first five of the pending bits. -/
theorem fixed_drained (hbits : bits < 32) (buf : UInt32) :
    fixed 2 (bits + 5) buf.toNat =
      fixed 2 5 ((buf >>> UInt32.ofNat bits).toNat % 32) ++ fixed 2 bits buf.toNat := by
  have hshift : (buf >>> UInt32.ofNat bits).toNat = buf.toNat / 2 ^ bits := by
    rw [UInt32.toNat_shiftRight, toNat_ofNat_mod hbits, Nat.shiftRight_eq_div_pow]
  rw [hshift, Nat.add_comm, fixed_add]
  congr 1
  exact (fixed_mod (Nat.le_refl 5) _).symm

/-- The pending bits of the last group, filled up with zeros. -/
theorem fixed_filled (hbits : bits < 5) (buf : UInt32) :
    fixed 2 5 ((buf <<< UInt32.ofNat (5 - bits)).toNat % 32) =
      fixed 2 bits buf.toNat ++ List.replicate (5 - bits) 0 := by
  have hshift : (buf <<< UInt32.ofNat (5 - bits)).toNat % 32 =
      buf.toNat * 2 ^ (5 - bits) % 2 ^ 5 := by
    rw [UInt32.toNat_shiftLeft, toNat_ofNat_mod (by omega), Nat.shiftLeft_eq]
    omega
  have hfive : bits + (5 - bits) = 5 := by omega
  have hdiv : buf.toNat * 2 ^ (5 - bits) / 2 ^ (5 - bits) = buf.toNat :=
    Nat.mul_div_cancel _ (Nat.two_pow_pos _)
  rw [hshift, fixed_mod (Nat.le_refl 5), ← fixed_mul_pow Nat.two_pos (5 - bits) buf.toNat]
  have hsplit := fixed_add 2 bits (5 - bits) (buf.toNat * 2 ^ (5 - bits))
  rw [hfive, hdiv] at hsplit
  exact hsplit

/-! ## The loops -/

/-- What has been written and what is pending are the bits of the bytes so far. -/
def Holds (e : Encoder) (bytes : Bytes) : Prop :=
  ∃ groups : List Nat, (∀ n ∈ groups, n < 32) ∧ e.out = groups.map digit ∧
    groups.flatMap (fixed 2 5) ++ fixed 2 e.bits e.buf.toNat = bitsOf bytes

/-- One more group is written. -/
theorem holds_drain {buf : UInt32} (hbits : bits < 32) {out : List Char}
    (h : Holds ⟨buf, bits, out⟩ bytes) :
    Holds (drain buf bits out) bytes ∧ (drain buf bits out).bits < 5 := by
  fun_induction drain buf bits out with
  | case1 bits out ih =>
    apply ih (by omega)
    obtain ⟨groups, hgroups, hout, hbytes⟩ := h
    refine ⟨groups ++ [(buf >>> UInt32.ofNat bits).toNat % 32], ?_, ?_, ?_⟩
    · intro n hn
      rcases List.mem_append.mp hn with hn | hn
      · exact hgroups n hn
      · rw [List.mem_singleton.mp hn]
        exact Nat.mod_lt _ (by decide)
    · rw [List.map_append, ← hout, List.map_singleton, ← characterAt_eq_digit]
    · have hstep := fixed_drained (show bits < 32 by omega) buf
      rw [← hbytes, List.flatMap_append, List.flatMap_singleton, List.append_assoc, ← hstep]
  | case2 bits out hsmall =>
    refine ⟨h, ?_⟩
    by_contra hlarge
    have hlarge : 5 ≤ bits := Nat.le_of_not_lt hlarge
    exact hsmall (bits - 5) (by omega)

/-- One byte is read. -/
theorem holds_pushByte (hbits : e.bits < 5) (h : Holds e bytes) (b : UInt8) :
    Holds (pushByte e b) (bytes ++ [b]) ∧ (pushByte e b).bits < 5 := by
  apply holds_drain (by omega)
  obtain ⟨groups, hgroups, hout, hbytes⟩ := h
  refine ⟨groups, hgroups, hout, ?_⟩
  have hstep := fixed_pushed (show e.bits ≤ 24 by omega) e.buf b
  show groups.flatMap (fixed 2 5) ++ fixed 2 (e.bits + 8) _ = _
  rw [hstep, ← List.append_assoc, hbytes, bitsOf, bitsOf, List.flatMap_append,
    List.flatMap_singleton]

theorem holds_foldl (hbits : e.bits < 5) {before : Bytes} (h : Holds e before) (bytes : Bytes) :
    Holds (bytes.foldl pushByte e) (before ++ bytes) ∧
      (bytes.foldl pushByte e).bits < 5 := by
  induction bytes generalizing e before with
  | nil =>
    rw [List.append_nil]
    exact ⟨h, hbits⟩
  | cons b bytes ih =>
    obtain ⟨hstep, hstepBits⟩ := holds_pushByte hbits h b
    have hrest := ih hstepBits hstep
    rw [List.append_assoc] at hrest
    exact hrest

/-- The groups of the output hold the bits of the bytes, and zeros behind them. -/
theorem exists_groups_finish (hbits : e.bits < 5) (h : Holds e bytes) :
    ∃ (groups : List Nat) (k : Nat), (∀ n ∈ groups, n < 32) ∧ k < 5 ∧
      finish e = groups.map digit ∧
      groups.flatMap (fixed 2 5) = bitsOf bytes ++ List.replicate k 0 := by
  obtain ⟨groups, hgroups, hout, hbytes⟩ := h
  by_cases hpending : 0 < e.bits
  · refine ⟨groups ++ [(e.buf <<< UInt32.ofNat (5 - e.bits)).toNat % 32], 5 - e.bits, ?_,
      by omega, ?_, ?_⟩
    · intro n hn
      rcases List.mem_append.mp hn with hn | hn
      · exact hgroups n hn
      · rw [List.mem_singleton.mp hn]
        exact Nat.mod_lt _ (by decide)
    · rw [finish, if_pos hpending, hout, characterAt_eq_digit, List.map_append,
        List.map_singleton]
    · rw [List.flatMap_append, List.flatMap_singleton, fixed_filled hbits, ← List.append_assoc,
        hbytes]
  · have hzero : e.bits = 0 := by omega
    refine ⟨groups, 0, hgroups, by decide, ?_, ?_⟩
    · rw [finish, if_neg hpending, hout]
    · rw [hzero] at hbytes
      rw [← hbytes]
      simp [fixed]

theorem exists_groups (bytes : Bytes) :
    ∃ (groups : List Nat) (k : Nat), (∀ n ∈ groups, n < 32) ∧ k < 5 ∧
      (base32Encode bytes).toList = groups.map digit ∧
      groups.flatMap (fixed 2 5) = bitsOf bytes ++ List.replicate k 0 := by
  have hstart : Holds ⟨0, 0, []⟩ [] := ⟨[], by simp, rfl, rfl⟩
  obtain ⟨hholds, hbits⟩ := holds_foldl (by decide) hstart bytes
  rw [base32Encode, String.toList_ofList]
  exact exists_groups_finish hbits hholds

theorem digit_mem_alphabet : ∀ n < 32, digit n ∈ alphabet := by decide

/-- The output has the length and the characters of Base32 without padding, and it is read back as
the bytes. -/
theorem base32_encode_decodes (bytes : Bytes) :
    (base32Encode bytes).length = (8 * bytes.length + 4) / 5 ∧
      (∀ c ∈ (base32Encode bytes).toList, c ∈ alphabet) ∧
      decode (base32Encode bytes).toList = some bytes := by
  obtain ⟨groups, k, hgroups, hk, htext, hbits⟩ := exists_groups bytes
  refine ⟨?_, ?_, ?_⟩
  · rw [← String.length_toList, htext, List.length_map, length_of_groups hk hbits]
  · intro c hc
    rw [htext] at hc
    obtain ⟨n, hn, rfl⟩ := List.mem_map.mp hc
    exact digit_mem_alphabet n (hgroups n hn)
  · rw [htext]
    exact decode_of_groups hgroups hk hbits

end SuiId.Totp
