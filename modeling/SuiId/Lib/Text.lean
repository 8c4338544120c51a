import Mathlib.Algebra.Ring.Int.Defs
import Mathlib.Algebra.Ring.Nat
import Mathlib.Data.Bool.AllAny
import Mathlib.Data.List.DropRight

/-!
# Texts

`trim` and `splitWhitespace` on the Unicode `White_Space` characters, `lines`,
`split`, `splitOnce`, `replace`, and how many bytes a decimal number takes.
-/

namespace Lib.Text

/-- The characters with the Unicode property `White_Space`. -/
def isWhitespace (c : Char) : Bool :=
  let n := c.toNat
  (0x09 ≤ n && n ≤ 0x0d) || n == 0x20 || n == 0x85 || n == 0xa0 || n == 0x1680 ||
    (0x2000 ≤ n && n ≤ 0x200a) || n == 0x2028 || n == 0x2029 || n == 0x202f || n == 0x205f ||
    n == 0x3000

/-- The text without leading and trailing white space. -/
def trim (s : String) : String :=
  String.ofList (((s.toList.dropWhile isWhitespace).reverse.dropWhile isWhitespace).reverse)

theorem toList_trim (s : String) :
    (trim s).toList = (s.toList.dropWhile isWhitespace).rdropWhile isWhitespace := by
  rw [trim, String.toList_ofList]
  rfl

private theorem dropWhile_rdropWhile {p : Char → Bool} (l : List Char) :
    ((l.dropWhile p).rdropWhile p).dropWhile p = (l.dropWhile p).rdropWhile p := by
  rw [List.dropWhile_eq_self_iff]
  intro hlength hhead
  have hprefix := List.rdropWhile_prefix p (l.dropWhile p)
  have hlength' : 0 < (l.dropWhile p).length := hlength.trans_le hprefix.length_le
  have hsame : ((l.dropWhile p).rdropWhile p)[0] = (l.dropWhile p)[0] :=
    hprefix.getElem hlength
  rw [hsame] at hhead
  exact List.dropWhile_get_zero_not p l hlength' hhead

@[simp] theorem trim_trim (s : String) : trim (trim s) = trim s := by
  apply String.toList_injective
  rw [toList_trim, toList_trim, dropWhile_rdropWhile, List.rdropWhile_idempotent]

variable {s : String} {c sep : Char}

theorem mem_of_mem_trim (h : c ∈ (trim s).toList) : c ∈ s.toList := by
  rw [toList_trim] at h
  exact (List.dropWhile_suffix isWhitespace).subset ((List.rdropWhile_prefix _ _).subset h)

/-- A text that begins and ends in no white space, with a line end. -/
theorem trim_newline (h : trim s = s) : trim (s ++ "\n") = s := by
  have hs : s.toList = (s.toList.dropWhile isWhitespace).rdropWhile isWhitespace := by
    rw [← toList_trim, h]
  have hdrop : s.toList.dropWhile isWhitespace = s.toList := by
    rw [hs, dropWhile_rdropWhile]
  apply String.toList_injective
  rw [toList_trim, String.toList_append]
  have hnewline : isWhitespace '\n' = true := by decide
  cases hl : s.toList with
  | nil => 
    simp [hnewline]
  | cons c cs =>
    have hc : isWhitespace c = false := by
      rw [hl] at hdrop
      by_contra hc
      rw [Bool.not_eq_false] at hc
      rw [List.dropWhile_cons_of_pos hc] at hdrop
      have hlength := congrArg List.length hdrop
      have hle := (List.dropWhile_suffix isWhitespace (l := cs)).length_le
      simp only [List.length_cons] at hlength
      omega
    have hkeep : (c :: cs ++ "\n".toList).dropWhile isWhitespace = c :: cs ++ ['\n'] := by
      simp [hc]
    rw [hkeep, List.rdropWhile_concat_pos _ _ _ hnewline, ← hl]
    rw [hdrop] at hs
    exact hs.symm

/-- A text without white space. -/
theorem trim_of_graphic (h : ∀ c ∈ s.toList, isWhitespace c = false) : trim s = s := by
  apply String.toList_injective
  have hdrop : s.toList.dropWhile isWhitespace = s.toList := by
    rw [List.dropWhile_eq_self_iff]
    intro hl
    simp [h _ (List.getElem_mem hl)]
  rw [toList_trim, hdrop, List.rdropWhile_eq_self_iff]
  intro hl
  simp [h _ (List.getLast_mem hl)]

private theorem dropWhile_append_cons {p : Char → Bool} (hc : p c = false) (l after : List Char) :
    (l ++ c :: after).dropWhile p = l.dropWhile p ++ c :: after := by
  induction l with
  | nil => simp [hc]
  | cons c' l ih =>
    by_cases h : p c' = true
    · rw [List.cons_append, List.dropWhile_cons_of_pos h, List.dropWhile_cons_of_pos h, ih]
    · rw [List.cons_append, List.dropWhile_cons_of_neg h, List.dropWhile_cons_of_neg h,
        List.cons_append]

/-- What stands on either side of a character that is no white space is trimmed by itself. -/
theorem toList_trim_around (hc : isWhitespace c = false) (before after : List Char) :
    (trim (String.ofList (before ++ c :: after))).toList =
      before.dropWhile isWhitespace ++ c :: after.rdropWhile isWhitespace := by
  rw [toList_trim, String.toList_ofList, dropWhile_append_cons hc]
  have hswap : (before.dropWhile isWhitespace ++ c :: after).reverse =
      after.reverse ++ c :: (before.dropWhile isWhitespace).reverse := by simp
  rw [List.rdropWhile, hswap, dropWhile_append_cons hc, List.rdropWhile]
  simp

/-- The maximal pieces of the text without white space. -/
def splitWhitespace (s : String) : List String :=
  ((s.toList.splitOnP isWhitespace).filter fun w => !w.isEmpty).map String.ofList

/-- `str::lines`: a line ends with a line feed, which one carriage return may precede.  The end of
the last line may be missing. -/
def lines (s : String) : List String :=
  let pieces := s.toList.splitOn '\n'
  let ended := pieces.dropLast.map fun line =>
    if line.getLast? = some '\r' then line.dropLast else line
  let last := (pieces.getLast?.filter fun line => !line.isEmpty).toList
  (ended ++ last).map String.ofList

/-- `str::split` at a character. -/
def split (s : String) (sep : Char) : List String := (s.toList.splitOn sep).map String.ofList

/-- Texts without the separator are the pieces of their concatenation. -/
theorem split_intercalate {pieces : List String} (hne : pieces ≠ [])
    (hsep : ∀ piece ∈ pieces, sep ∉ piece.toList)
    (hs : s.toList = [sep].intercalate (pieces.map String.toList)) : split s sep = pieces := by
  rw [split, hs, List.splitOn_intercalate]
  · rw [List.map_map]
    exact (List.map_congr_left fun piece _ => String.ofList_toList).trans (List.map_id _)
  · intro l hl
    obtain ⟨piece, hpiece, rfl⟩ := List.mem_map.mp hl
    exact hsep piece hpiece
  · rwa [ne_eq, List.map_eq_nil_iff]

private theorem mem_splitOn {l piece : List Char} (h : piece ∈ l.splitOn sep) :
    sep ∉ piece ∧ piece ⊆ l := by
  induction l generalizing piece with
  | nil =>
    rw [List.splitOn_nil, List.mem_singleton] at h
    rw [h]
    exact ⟨List.not_mem_nil, List.Subset.refl _⟩
  | cons c l ih =>
    rw [List.splitOn_cons_eq_if_modifyHead] at h
    split at h
    · rcases List.mem_cons.mp h with rfl | h
      · exact ⟨List.not_mem_nil, List.nil_subset _⟩
      · exact ⟨(ih h).1, List.Subset.trans (ih h).2 (List.subset_cons_self c l)⟩
    · rename_i hne
      have hne' : sep ≠ c := fun hsame => hne (beq_iff_eq.mpr hsame.symm)
      cases hpieces : l.splitOn sep with
      | nil => exact absurd hpieces (List.splitOn_ne_nil sep l)
      | cons first rest =>
        rw [hpieces] at h ih
        rcases List.mem_cons.mp h with rfl | h
        · have hfirst := ih (List.mem_cons_self ..)
          refine ⟨?_, List.cons_subset_cons c hfirst.2⟩
          simp [hne', hfirst.1]
        · have hrest := ih (List.mem_cons_of_mem _ h)
          exact ⟨hrest.1, List.Subset.trans hrest.2 (List.subset_cons_self c l)⟩

/-- A piece has no separator in it, and no other characters than the text. -/
theorem mem_split {piece : String} (h : piece ∈ split s sep) :
    sep ∉ piece.toList ∧ piece.toList ⊆ s.toList := by
  obtain ⟨chars, hchars, rfl⟩ := List.mem_map.mp h
  rw [String.toList_ofList]
  exact mem_splitOn hchars

/-- Cut the characters at the first occurrence of `sep`. -/
def cutAt (sep : List Char) : List Char → List Char → Option (List Char × List Char)
  | before, [] => if sep.isEmpty then some (before.reverse, []) else none
  | before, c :: cs =>
    if sep.isPrefixOf (c :: cs) then some (before.reverse, (c :: cs).drop sep.length)
    else cutAt sep (c :: before) cs

/-- `str::split_once`. -/
def splitOnce (s sep : String) : Option (String × String) :=
  (cutAt sep.toList [] s.toList).map fun (before, after) =>
    (String.ofList before, String.ofList after)

/-- The first occurrence of a separator whose first character is not there before. -/
theorem splitOnce_append_of_head {c : Char} {more before : List Char} (hbefore : c ∉ before)
    (after : List Char) (sep : String) (hsep : sep.toList = c :: more) :
    splitOnce (String.ofList (before ++ (c :: more ++ after))) sep =
      some (String.ofList before, String.ofList after) := by
  have hcut (acc : List Char) : cutAt (c :: more) acc (before ++ (c :: more ++ after)) =
      some (acc.reverse ++ before, after) := by
    induction before generalizing acc with
    | nil =>
      have hstart : (c :: more).isPrefixOf (c :: (more ++ after)) = true :=
        List.isPrefixOf_iff_prefix.mpr ⟨after, rfl⟩
      have hdrop : (c :: (more ++ after)).drop (c :: more).length = after := by simp
      rw [List.nil_append, List.cons_append, cutAt, if_pos hstart, hdrop, List.append_nil]
    | cons b before ih =>
      rw [List.mem_cons, not_or] at hbefore
      rw [List.cons_append, cutAt, if_neg, ih hbefore.2]
      · simp
      · simp [List.isPrefixOf, hbefore.1]
  rw [splitOnce, hsep, String.toList_ofList, hcut]
  rfl

theorem splitOnce_append {before : List Char} (hbefore : c ∉ before) (after : List Char)
    (sep : String) (hsep : sep.toList = [c]) :
    splitOnce (String.ofList (before ++ c :: after)) sep =
      some (String.ofList before, String.ofList after) := by
  have hsplit := splitOnce_append_of_head hbefore after sep hsep
  rwa [List.singleton_append] at hsplit

/-- The two sides of a separator that was found. -/
theorem toList_of_splitOnce {sep before after : String}
    (h : splitOnce s sep = some (before, after)) :
    s.toList = before.toList ++ sep.toList ++ after.toList := by
  have hcut (acc cs : List Char) {pair : List Char × List Char}
      (hpair : cutAt sep.toList acc cs = some pair) :
      acc.reverse ++ cs = pair.1 ++ sep.toList ++ pair.2 := by
    induction cs generalizing acc with
    | nil =>
      rw [cutAt] at hpair
      split at hpair
      · next hempty =>
        cases hpair
        simp [List.isEmpty_iff.mp hempty]
      · cases hpair
    | cons c cs ih =>
      rw [cutAt] at hpair
      split at hpair
      · next hstart =>
        cases hpair
        obtain ⟨rest, hrest⟩ := List.isPrefixOf_iff_prefix.mp hstart
        rw [← hrest, List.drop_left, List.append_assoc]
      · simpa using ih (c :: acc) hpair
  rw [splitOnce, Option.map_eq_some_iff] at h
  obtain ⟨⟨first, second⟩, hpair, hsame⟩ := h
  cases hsame
  simpa using hcut [] s.toList hpair

theorem splitOnce_of_not_mem {sep : String} (hsep : sep.toList = [c]) (hs : c ∉ s.toList) :
    splitOnce s sep = none := by
  have hcut (acc cs : List Char) (hcs : c ∉ cs) : cutAt [c] acc cs = none := by
    induction cs generalizing acc with
    | nil => rfl
    | cons b cs ih =>
      rw [List.mem_cons, not_or] at hcs
      rw [cutAt, if_neg, ih _ hcs.2]
      simpa using hcs.1
  rw [splitOnce, hsep, hcut _ _ hs]
  rfl

/-- `starts_with`. -/
def startsWith (s start : String) : Bool := start.toList.isPrefixOf s.toList

/-- Replace the occurrences of `old`, left to right.  The counter skips what is left of
an occurrence. -/
def replaceFrom (old new : List Char) : Nat → List Char → List Char
  | _, [] => []
  | skip + 1, _ :: cs => replaceFrom old new skip cs
  | 0, c :: cs =>
    if old.isPrefixOf (c :: cs) then new ++ replaceFrom old new (old.length - 1) cs
    else c :: replaceFrom old new 0 cs

/-- `str::replace`, for a pattern that is not empty. -/
def replace (s old new : String) : String :=
  String.ofList (replaceFrom old.toList new.toList 0 s.toList)

/-- `eq_ignore_ascii_case`. -/
def eqIgnoreAsciiCase (s t : String) : Bool :=
  s.toList.map Char.toLower == t.toList.map Char.toLower

/-! ## Letter case -/

private theorem isUpper_iff (c : Char) :
    (c.val ≥ 'A'.val ∧ c.val ≤ 'Z'.val) ↔ 0x41 ≤ c.toNat ∧ c.toNat ≤ 0x5a := by
  rw [ge_iff_le, UInt32.le_iff_toNat_le, UInt32.le_iff_toNat_le]
  rfl

theorem toNat_toLower (c : Char) :
    c.toLower.toNat = if 0x41 ≤ c.toNat ∧ c.toNat ≤ 0x5a then c.toNat + 0x20 else c.toNat := by
  unfold Char.toLower
  by_cases h : c.val ≥ 'A'.val ∧ c.val ≤ 'Z'.val
  · rw [dif_pos h, if_pos ((isUpper_iff c).mp h)]
    show (c.val + 0x20).toNat = c.toNat + 0x20
    have hle : c.toNat ≤ 0x5a := ((isUpper_iff c).mp h).2
    have hval : c.val.toNat = c.toNat := rfl
    have hstep : (0x20 : UInt32).toNat = 0x20 := rfl
    rw [UInt32.toNat_add, hval, hstep]
    omega
  · rw [dif_neg h, if_neg ((isUpper_iff c).not.mp h)]

/-- A character that is no letter is not the other case of a letter. -/
theorem toLower_eq_iff {d : Char}
    (hd : d.toNat < 0x41 ∨ (0x5a < d.toNat ∧ d.toNat < 0x61) ∨ 0x7a < d.toNat) :
    c.toLower = d ↔ c = d := by
  rw [← Char.toNat_inj, ← Char.toNat_inj, toNat_toLower]
  split <;> omega

@[simp] theorem isWhitespace_toLower (c : Char) : isWhitespace c.toLower = isWhitespace c := by
  have hlower := toNat_toLower c
  unfold isWhitespace
  split at hlower
  · rw [hlower]
    grind
  · rw [hlower]

@[simp] theorem utf8Size_toLower (c : Char) : c.toLower.utf8Size = c.utf8Size := by
  have hlower := toNat_toLower c
  split at hlower
  · rename_i hupper
    have hc : c.utf8Size = 1 := by
      rw [Char.utf8Size_eq_one_iff, UInt32.le_iff_toNat_le]
      show c.toNat ≤ 127
      omega
    have hc' : c.toLower.utf8Size = 1 := by
      rw [Char.utf8Size_eq_one_iff, UInt32.le_iff_toNat_le]
      show c.toLower.toNat ≤ 127
      omega
    rw [hc, hc']
  · rw [Char.toNat_inj.mp hlower]

/-! ## Sizes -/

/-- The size of a text is that of its characters. -/
theorem utf8ByteSize_eq_sum (s : String) :
    s.utf8ByteSize = (s.toList.map Char.utf8Size).sum := by
  have hlist (cs : List Char) :
      (String.ofList cs).utf8ByteSize = (cs.map Char.utf8Size).sum := by
    induction cs with
    | nil => simp
    | cons c cs ih =>
      have hsplit : String.ofList (c :: cs) = String.singleton c ++ String.ofList cs := by
        rw [← String.toList_inj]
        simp
      rw [hsplit, String.utf8ByteSize_append, String.utf8ByteSize_singleton, ih, List.map_cons,
        List.sum_cons]
  rw [← hlist, String.ofList_toList]

theorem utf8ByteSize_ofList_le (cs : List Char) :
    (String.ofList cs).utf8ByteSize ≤ 4 * cs.length := by
  induction cs with
  | nil => simp
  | cons c cs ih =>
    have hsplit : String.ofList (c :: cs) = String.singleton c ++ String.ofList cs := by
      rw [← String.toList_inj]
      simp
    have hsize : c.utf8Size ≤ 4 := c.utf8Size_le_four
    rw [hsplit, String.utf8ByteSize_append, String.utf8ByteSize_singleton, List.length_cons]
    omega

/-- A text of one-byte characters has as many bytes as characters. -/
theorem utf8ByteSize_ofList {cs : List Char} (h : ∀ c ∈ cs, c.utf8Size = 1) :
    (String.ofList cs).utf8ByteSize = cs.length := by
  induction cs with
  | nil => simp
  | cons c cs ih =>
    have hsplit : String.ofList (c :: cs) = String.singleton c ++ String.ofList cs := by
      rw [← String.toList_inj]
      simp
    have hrest := ih fun c' hc' => h c' (List.mem_cons_of_mem _ hc')
    rw [hsplit, String.utf8ByteSize_append, String.utf8ByteSize_singleton, hrest,
      h c (List.mem_cons_self ..), List.length_cons]
    omega

theorem utf8ByteSize_replicate (hc : c.utf8Size = 1) (n : Nat) :
    (String.ofList (List.replicate n c)).utf8ByteSize = n := by
  have hsize := @utf8ByteSize_ofList (List.replicate n c) fun c' hc' =>
    (List.eq_of_mem_replicate hc') ▸ hc
  rwa [List.length_replicate] at hsize

/-- A 64-bit number has at most twenty digits. -/
theorem utf8ByteSize_toString_le {n : Nat} (h : n < 2 ^ 64) : (toString n).utf8ByteSize ≤ 80 := by
  have hlen : (Nat.toDigits 10 n).length ≤ 20 := by
    rw [Nat.length_toDigits_le_iff (by omega) (by omega)]
    omega
  have hsize : (String.ofList (Nat.toDigits 10 n)).utf8ByteSize ≤ 4 * (Nat.toDigits 10 n).length :=
    utf8ByteSize_ofList_le _
  show (Nat.repr n).utf8ByteSize ≤ 80
  rw [Nat.repr_eq_ofList_toDigits]
  omega

theorem utf8ByteSize_toString_int_le {n : Int} (hnonneg : 0 ≤ n) (h : n < 2 ^ 64) :
    (toString n).utf8ByteSize ≤ 80 := by
  obtain ⟨m, rfl⟩ := Int.eq_ofNat_of_zero_le hnonneg
  have hm : m < 2 ^ 64 := by omega
  exact utf8ByteSize_toString_le hm

end Lib.Text
