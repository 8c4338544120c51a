import SuiId.Store.ReadConn

/-!
# What the guard of the read connection lets through

The guard and SQLite agree on comments, and all white space of SQLite is white space of the guard.
What the guard does not skip are lone semicolons and byte-order marks: behind one of them it sees no
keyword at all, and SQLite compiles the statement that follows.
-/

namespace SuiId.ReadConn

open Lib

/-- One of the words that the guard refuses. -/
def RefusedKeyword (word : List Char) : Prop :=
  ∃ keyword ∈ "PRAGMA" :: "EXPLAIN" :: nonContentEffectKeywords, isKeyword word keyword = true

/-! ## Words -/

variable {c : Char} {sql cs : List Char}

theorem isAlpha_of_toUpper (h : c.toUpper.isAlpha = true) : c.isAlpha = true := by
  by_cases hlower : 'a'.val ≤ c.val ∧ c.val ≤ 'z'.val
  · have hisLower : c.isLower = true := by
      delta Char.isLower
      simp only [ge_iff_le, hlower.1, hlower.2, decide_true, Bool.and_self]
    delta Char.isAlpha
    rw [hisLower, Bool.or_true]
  · have hsame : c.toUpper = c := dif_neg hlower
    rwa [hsame] at h

theorem toNat_of_isAlpha (h : c.isAlpha = true) : 0x41 ≤ c.toNat ∧ c.toNat ≤ 0x7a := by
  delta Char.isAlpha Char.isUpper Char.isLower at h
  simp only [Bool.or_eq_true, Bool.and_eq_true, decide_eq_true_eq, ge_iff_le,
    UInt32.le_iff_toNat_le] at h
  have hval : c.val.toNat = c.toNat := rfl
  have hA : 'A'.val.toNat = 0x41 := rfl
  have hZ : 'Z'.val.toNat = 0x5a := rfl
  have ha : 'a'.val.toNat = 0x61 := rfl
  have hz : 'z'.val.toNat = 0x7a := rfl
  omega

theorem isWhitespace_of_isAlpha (h : c.isAlpha = true) :
    Text.isWhitespace c = false := by
  have hrange := toNat_of_isAlpha h
  simp only [Text.isWhitespace, Bool.or_eq_false_iff, Bool.and_eq_false_iff,
    decide_eq_false_iff_not, beq_eq_false_iff_ne]
  omega

/-- A refused word is made of letters, and not empty. -/
theorem RefusedKeyword.letters {word : List Char} (h : RefusedKeyword word) :
    word ≠ [] ∧ ∀ c ∈ word, c.isAlpha = true := by
  obtain ⟨keyword, hkeyword, hword⟩ := h
  have hletters : ∀ keyword ∈ "PRAGMA" :: "EXPLAIN" :: nonContentEffectKeywords,
      keyword.toList ≠ [] ∧ keyword.toList.all Char.isAlpha = true := by decide
  obtain ⟨hne, hall⟩ := hletters keyword hkeyword
  rw [List.all_eq_true] at hall
  rw [← beq_iff_eq.mp hword] at hne hall
  refine ⟨fun hnil => hne (congrArg (List.map Char.toUpper) hnil), fun c hc => ?_⟩
  exact isAlpha_of_toUpper (hall c.toUpper (List.mem_map_of_mem hc))

theorem prepare_eq_ok_iff {sqlite : List Char → Option Bool} :
    prepare sqlite sql = .ok () ↔
      ¬ RefusedKeyword (leadingKeyword sql) ∧ sqlite sql = some true := by
  have hrefused : RefusedKeyword (leadingKeyword sql) ↔
      isKeyword (leadingKeyword sql) "PRAGMA" = true ∨
        isKeyword (leadingKeyword sql) "EXPLAIN" = true ∨
          nonContentEffectKeywords.any (isKeyword (leadingKeyword sql)) = true := by
    simp only [RefusedKeyword, List.exists_mem_cons_iff, List.any_eq_true]
  rw [hrefused, prepare]
  by_cases hpragma : isKeyword (leadingKeyword sql) "PRAGMA" = true
  · simp only [hpragma, if_true, true_or, not_true_eq_false, false_and, reduceCtorEq]
  · by_cases hexplain : isKeyword (leadingKeyword sql) "EXPLAIN" = true
    · simp only [hpragma, hexplain, if_true, if_false, true_or, or_true, not_true_eq_false,
        false_and, Bool.false_eq_true, reduceCtorEq]
    · by_cases heffect : nonContentEffectKeywords.any (isKeyword (leadingKeyword sql)) = true
      · simp only [hpragma, hexplain, heffect, if_true, if_false, or_true, not_true_eq_false,
          false_and, Bool.false_eq_true, reduceCtorEq]
      · simp only [hpragma, hexplain, heffect, if_false, or_false, not_false_eq_true, true_and,
          Bool.false_eq_true]
        cases sqlite sql with
        | none => simp
        | some readonly =>
          cases readonly with
          | false => simp
          | true => simp

/-! ## What is skipped -/

/-- The text does not begin with a refused word. -/
def NoKeyword (rest : List Char) : Prop := ¬ RefusedKeyword (rest.takeWhile isIdChar)

theorem noKeyword_nil : NoKeyword [] := fun h => h.letters.1 rfl

theorem noKeyword_of_head (hc : c.isAlpha = false) :
    NoKeyword (c :: cs) := by
  intro h
  obtain ⟨hne, hall⟩ := h.letters
  rw [List.takeWhile_cons] at hne hall
  split at hne
  · next hid =>
    rw [if_pos hid] at hall
    exact Bool.noConfusion (hc.symm.trans (hall c List.mem_cons_self))
  · exact hne rfl

theorem comment_none (hdash : c ≠ '-') (hslash : c ≠ '/') (cs : List Char) :
    comment (c :: cs) = .none := by
  unfold comment
  split
  · next heq => exact absurd (List.cons.inj heq).1 hdash
  · next heq => exact absurd (List.cons.inj heq).1 hslash
  · rfl

/-- A comment begins with a character that SQLite does not skip by itself. -/
theorem sqliteSkip_comment {rest : List Char} (h : comment cs = .before rest) :
    sqliteSkip cs = sqliteSkip rest := by
  cases cs with
  | nil => cases h
  | cons c cs =>
    have hstart : (isSqliteSpace c || c = byteOrderMark || c = ';') = false := by
      by_cases hdash : c = '-'
      · rw [hdash]
        decide
      · by_cases hslash : c = '/'
        · rw [hslash]
          decide
        · rw [comment_none hdash hslash] at h
          cases h
    rw [sqliteSkip, if_neg (Bool.eq_false_iff.mp hstart)]
    split
    · next hnone => cases h.symm.trans hnone
    · next hopen => cases h.symm.trans hopen
    · next rest' hrest => rw [Comment.before.inj (h.symm.trans hrest)]

theorem sqliteSkip_trimStart (sql : List Char) :
    sqliteSkip sql = sqliteSkip (trimStart sql) ∨ NoKeyword (sqliteSkip sql) := by
  induction sql with
  | nil => exact Or.inl rfl
  | cons c cs ih =>
    cases hspace : Text.isWhitespace c with
    | false =>
      left
      rw [trimStart, List.dropWhile_cons, hspace]
      rfl
    | true =>
      have htrim : trimStart (c :: cs) = trimStart cs := by
        rw [trimStart, List.dropWhile_cons, hspace]
        rfl
      rw [htrim]
      cases hsqlite : isSqliteSpace c with
      | true =>
        have hskip : sqliteSkip (c :: cs) = sqliteSkip cs := by
          rw [sqliteSkip]
          simp [hsqlite]
        rw [hskip]
        exact ih
      | false =>
        right
        have hne (d : Char) (hd : Text.isWhitespace d = false) : c ≠ d := by
          rintro rfl
          exact Bool.noConfusion (hspace.symm.trans hd)
        have hstart : (isSqliteSpace c || c = byteOrderMark || c = ';') = false := by
          simp [hsqlite, hne byteOrderMark (by decide), hne ';' (by decide)]
        have hnone := comment_none (hne '-' (by decide)) (hne '/' (by decide)) cs
        have hstop : sqliteSkip (c :: cs) = c :: cs := by
          rw [sqliteSkip, if_neg (Bool.eq_false_iff.mp hstart)]
          split
          · rfl
          · next hopen => cases hnone.symm.trans hopen
          · next rest hrest => cases hnone.symm.trans hrest
        rw [hstop]
        refine noKeyword_of_head (Bool.eq_false_iff.mpr fun halpha => ?_)
        exact Bool.noConfusion (hspace.symm.trans (isWhitespace_of_isAlpha halpha))

/-- Whatever the guard skips, SQLite skips too, or it stops at something that is no keyword. -/
theorem sqliteSkip_skipLeadingTrivia (sql : List Char) :
    sqliteSkip sql = sqliteSkip (skipLeadingTrivia sql) ∨ NoKeyword (sqliteSkip sql) := by
  fun_induction skipLeadingTrivia sql with
  | case1 sql rest hcomment hlt ih =>
    rcases sqliteSkip_trimStart sql with htrim | hnone
    · rw [htrim, sqliteSkip_comment hcomment]
      exact ih
    · exact Or.inr hnone
  | case2 sql hcomment => exact sqliteSkip_trimStart sql

/-! ## The guard -/

/-- Behind a lone semicolon or a byte-order mark, where the guard sees no keyword, SQLite compiles a
statement that begins with one. -/
def HiddenKeyword (sql : List Char) : Prop :=
  (∃ c rest, skipLeadingTrivia sql = c :: rest ∧ (c = ';' ∨ c = byteOrderMark)) ∧
    RefusedKeyword (sqliteKeyword sql)

/-- Where the guard stops: at the end, or at a character that is no white space and does not begin
a comment with an end. -/
theorem skipLeadingTrivia_stops (sql : List Char) :
    skipLeadingTrivia sql = [] ∨ ∃ c cs, skipLeadingTrivia sql = c :: cs ∧
      Text.isWhitespace c = false ∧ ∀ rest, comment (c :: cs) ≠ .before rest := by
  fun_induction skipLeadingTrivia sql with
  | case1 sql rest hcomment hlt ih => exact ih
  | case2 sql hcomment =>
    cases htrim : trimStart sql with
    | nil => exact Or.inl rfl
    | cons c cs =>
      rw [htrim] at hcomment
      have hhead : Text.isWhitespace c = false := by
        have hnot := List.head?_dropWhile_not Text.isWhitespace sql
        rw [← trimStart, htrim] at hnot
        simpa using hnot
      exact Or.inr ⟨c, cs, rfl, hhead, hcomment⟩

/-- A word of letters is cut at the same place by both. -/
private theorem takeWhile_congr_of_all {α : Type} {p q : α → Bool}
    (himp : ∀ a, p a = true → q a = true) {l : List α}
    (hall : ∀ a ∈ l.takeWhile q, p a = true) : l.takeWhile p = l.takeWhile q := by
  induction l with
  | nil => rfl
  | cons a l ih =>
    rw [List.takeWhile_cons, List.takeWhile_cons]
    by_cases hq : q a = true
    · rw [List.takeWhile_cons, if_pos hq] at hall
      have hp := hall a List.mem_cons_self
      rw [if_pos hp, if_pos hq, ih fun x hx => hall x (List.mem_cons_of_mem a hx)]
    · rw [if_neg hq, if_neg fun hp => hq (himp a hp)]

/-- A statement that SQLite takes for a refused one passes the guard only from behind a semicolon or
a byte-order mark. -/
theorem hidden_of_passed (hguard : ¬ RefusedKeyword (leadingKeyword sql))
    (hkeyword : RefusedKeyword (sqliteKeyword sql)) : HiddenKeyword sql := by
  refine ⟨?_, hkeyword⟩
  have hskip : sqliteSkip sql = sqliteSkip (skipLeadingTrivia sql) :=
    (sqliteSkip_skipLeadingTrivia sql).resolve_right fun hnone => hnone hkeyword
  rw [sqliteKeyword, hskip] at hkeyword
  rcases skipLeadingTrivia_stops sql with hend | ⟨c, cs, hrest, hspace, hcomment⟩
  · rw [hend, sqliteSkip] at hkeyword
    exact absurd hkeyword noKeyword_nil
  · refine ⟨c, cs, hrest, ?_⟩
    by_contra hother
    rw [not_or] at hother
    have hsqlite : isSqliteSpace c = false := by
      simp only [isSqliteSpace, Text.isWhitespace, Bool.or_eq_false_iff, Bool.and_eq_false_iff,
        decide_eq_false_iff_not, beq_eq_false_iff_ne] at hspace ⊢
      omega
    have hstart : (isSqliteSpace c || c = byteOrderMark || c = ';') = false := by
      simp [hsqlite, hother.1, hother.2]
    rw [hrest, sqliteSkip, if_neg (Bool.eq_false_iff.mp hstart)] at hkeyword
    split at hkeyword
    · refine hguard ?_
      have hword : leadingKeyword sql = (c :: cs).takeWhile isIdChar := by
        rw [leadingKeyword, hrest]
        refine takeWhile_congr_of_all (fun a ha => ?_) hkeyword.letters.2
        simp only [isIdChar, Char.isAlphanum, ha, Bool.true_or]
      rw [hword]
      exact hkeyword
    · exact noKeyword_nil hkeyword
    · next rest hbefore => exact hcomment rest hbefore

/-- What passes the guard does not begin with a refused word, exactly when SQLite refuses the text,
calls it not read-only, or finds no such word behind a semicolon or a byte-order mark. -/
theorem read_conn_refuses_effects_iff (sqlite : List Char → Option Bool) (sql : List Char) :
    (prepare sqlite sql = .ok () → ¬ RefusedKeyword (sqliteKeyword sql)) ↔
      ¬ (sqlite sql = some true ∧ HiddenKeyword sql) := by
  rw [prepare_eq_ok_iff]
  constructor
  · rintro hprepare ⟨hsqlite, ⟨c, rest, hrest, hc⟩, hkeyword⟩
    have hempty : leadingKeyword sql = [] := by
      rw [leadingKeyword, hrest, List.takeWhile_cons]
      rcases hc with rfl | rfl
      · rfl
      · rfl
    refine hprepare ⟨?_, hsqlite⟩ hkeyword
    rw [hempty]
    exact fun h => h.letters.1 rfl
  · rintro hnot ⟨hguard, hsqlite⟩ hkeyword
    exact hnot ⟨hsqlite, hidden_of_passed hguard hkeyword⟩

/-! ## A semicolon in front -/

/-- A transaction begins on the read connection. -/
theorem begin_behind_semicolon :
    prepare (fun _ => some true) [';', 'B', 'E', 'G', 'I', 'N'] = .ok () ∧
      RefusedKeyword (sqliteKeyword [';', 'B', 'E', 'G', 'I', 'N']) := by
  have hguard : leadingKeyword [';', 'B', 'E', 'G', 'I', 'N'] = [] := by
    rw [leadingKeyword, skipLeadingTrivia]
    rfl
  have hsqlite : sqliteKeyword [';', 'B', 'E', 'G', 'I', 'N'] = ['B', 'E', 'G', 'I', 'N'] := by
    rw [sqliteKeyword, sqliteSkip, if_pos (by decide), sqliteSkip, if_neg (by decide)]
    rfl
  refine ⟨prepare_eq_ok_iff.mpr ⟨?_, rfl⟩, ?_⟩
  · rw [hguard]
    exact fun h => h.letters.1 rfl
  · rw [hsqlite]
    exact ⟨"BEGIN", by decide, by decide⟩

end SuiId.ReadConn
