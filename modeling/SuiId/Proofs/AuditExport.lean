import SuiId.Core.AuditExport
import SuiId.Lib.Csv

/-!
# What the audit export reads as

A quote inside a quoted field is written twice.  `esc` writes it three times, so two of the three
stand for one quote and the third ends the field or begins the next pair.  No value with a quote is
read back: the values without one are, and so is the file if no value has a quote.
-/

namespace SuiId.AuditExport

open Lib Lib.Csv

/-! ## One field -/

/-- What `esc` makes of the characters of a field. -/
def tripled (s : List Char) : List Char :=
  s.flatMap fun c => if c = '"' then ['"', '"', '"'] else [c]

private theorem tripled_quote (s : List Char) :
    tripled ('"' :: s) = '"' :: '"' :: '"' :: tripled s := rfl

private theorem tripled_cons {c : Char} (hc : c ≠ '"') (s : List Char) :
    tripled (c :: s) = c :: tripled s := by
  rw [tripled, List.flatMap_cons, if_neg hc]
  rfl

private theorem tripled_of_not_mem {s : List Char} (hs : '"' ∉ s) : tripled s = s := by
  induction s with
  | nil => rfl
  | cons c s ih =>
    have hc : c ≠ '"' := fun h => hs (h ▸ List.mem_cons_self)
    rw [tripled_cons hc, ih fun h => hs (List.mem_cons_of_mem c h)]

/-- A pair of quotes in a quoted field. -/
private theorem read_pair {cs : List Char} {r : Reading}
    (h : Csv.read true .quoted ('"' :: '"' :: cs) = some r) :
    ∃ r', Csv.read true .quoted cs = some r' ∧ r.current = '"' :: r'.current := by
  have hpair : Csv.read true .quoted ('"' :: '"' :: cs) =
      (Csv.read true .quoted cs).map (.character '"') := rfl
  rw [hpair] at h
  obtain ⟨r', hr', rfl⟩ := Option.map_eq_some_iff.mp h
  exact ⟨r', hr', rfl⟩

private theorem current_of_lineBreak {cs : List Char} {r : Reading}
    (h : (if cs = [] then some .done else (Csv.read true .start cs).map .lineBreak) = some r) :
    r.current = [] := by
  split at h
  · rw [← Option.some.inj h]
    rfl
  · obtain ⟨r', -, rfl⟩ := Option.map_eq_some_iff.mp h
    rfl

/-- After the end of a quoted field nothing more is read into it. -/
private theorem current_of_closed {c : Char} (hc : c ≠ '"') {cs : List Char} {r : Reading}
    (h : Csv.read true .closed (c :: cs) = some r) : r.current = [] := by
  simp only [Csv.read, action, delimiter, hc, if_false, if_true] at h
  by_cases hcomma : c = ','
  · simp only [hcomma, if_true, Option.map_eq_some_iff] at h
    obtain ⟨r', -, rfl⟩ := h
    rfl
  · by_cases hcr : c = '\r'
    · simp only [hcr, if_false, if_true, Char.reduceEq] at h
      cases cs with
      | nil => cases h
      | cons d cs =>
        by_cases hlf : d = '\n'
        · simp only [Csv.read, action, hlf, if_true] at h
          exact current_of_lineBreak h
        · simp only [Csv.read, action, hlf, if_false, reduceCtorEq] at h
    · by_cases hlf : c = '\n'
      · simp only [hlf, if_true, if_false, Char.reduceEq] at h
        exact current_of_lineBreak h
      · simp only [hcomma, hcr, hlf, if_false, reduceCtorEq] at h

/-- A quote that is the last character. -/
private theorem read_quote_last {rest : List Char} {r : Reading}
    (h : Csv.read true .quoted (tripled ['"'] ++ '"' :: rest) = some r) :
    ∃ more, r.current = '"' :: '"' :: more := by
  obtain ⟨r₁, h₁, hcurrent⟩ := read_pair h
  obtain ⟨r₂, -, hcurrent₁⟩ := read_pair h₁
  exact ⟨r₂.current, by rw [hcurrent, hcurrent₁]⟩

/-- A quote before another character. -/
private theorem read_quote_other {c : Char} (hc : c ≠ '"') {s rest : List Char} {r : Reading}
    (h : Csv.read true .quoted (tripled ('"' :: c :: s) ++ '"' :: rest) = some r) :
    r.current = ['"'] := by
  rw [tripled_quote, tripled_cons hc] at h
  obtain ⟨r₁, h₁, hcurrent⟩ := read_pair h
  have hclosed : Csv.read true .closed (c :: (tripled s ++ '"' :: rest)) = some r₁ := h₁
  rw [hcurrent, current_of_closed hc hclosed]

/-- Two quotes are read as three. -/
private theorem read_two_quotes {s rest : List Char} {r : Reading}
    (h : Csv.read true .quoted (tripled ('"' :: '"' :: s) ++ '"' :: rest) = some r) :
    ∃ r', Csv.read true .quoted (tripled s ++ '"' :: rest) = some r' ∧
      r.current = '"' :: '"' :: '"' :: r'.current := by
  obtain ⟨r₁, h₁, hcurrent⟩ := read_pair h
  obtain ⟨r₂, h₂, hcurrent₁⟩ := read_pair h₁
  obtain ⟨r₃, h₃, hcurrent₂⟩ := read_pair h₂
  exact ⟨r₃, h₃, by rw [hcurrent, hcurrent₁, hcurrent₂]⟩

/-- Quotes that are read too many are not made up for. -/
private theorem shifted_ne (s : List Char) (k : Nat) {rest : List Char} {r : Reading}
    (h : Csv.read true .quoted (tripled s ++ '"' :: rest) = some r) :
    List.replicate (k + 1) '"' ++ r.current ≠ s := by
  intro hsame
  match s, hsame, h with
  | [], hsame, _ => exact List.cons_ne_nil _ _ hsame
  | c :: s, hsame, h =>
    obtain ⟨hquote, htail⟩ := List.cons.inj hsame
    subst hquote
    match s, htail, h with
    | [], htail, h =>
      obtain ⟨more, hcurrent⟩ := read_quote_last h
      rw [hcurrent] at htail
      exact List.append_ne_nil_of_right_ne_nil _ (List.cons_ne_nil _ _) htail
    | d :: s, htail, h =>
      by_cases hd : d = '"'
      · subst hd
        obtain ⟨r', h', hcurrent⟩ := read_two_quotes h
        refine shifted_ne s (k + 1) h' ?_
        rw [hcurrent] at htail
        have hthree : List.replicate k '"' ++ '"' :: '"' :: '"' :: r'.current =
            '"' :: (List.replicate (k + 2) '"' ++ r'.current) := by
          rw [List.append_cons, List.append_cons, List.append_cons, ← List.replicate_succ',
            ← List.replicate_succ', ← List.replicate_succ', List.replicate_succ, List.cons_append]
        exact (List.cons.inj (hthree.symm.trans htail)).2
      · have hone : List.replicate k '"' ++ ['"'] = d :: s := read_quote_other hd h ▸ htail
        rw [← List.replicate_succ', List.replicate_succ] at hone
        exact hd (List.cons.inj hone).1.symm

/-- A value with a quote is not read back. -/
private theorem current_ne {s rest : List Char} (hs : '"' ∈ s) {r : Reading}
    (h : Csv.read true .quoted (tripled s ++ '"' :: rest) = some r) : r.current ≠ s := by
  induction s generalizing r with
  | nil => exact absurd hs List.not_mem_nil
  | cons c s ih =>
    by_cases hc : c = '"'
    · subst hc
      cases s with
      | nil =>
        obtain ⟨more, hcurrent⟩ := read_quote_last h
        rw [hcurrent]
        exact fun hsame => List.cons_ne_nil _ _ (List.cons.inj hsame).2
      | cons d s =>
        by_cases hd : d = '"'
        · subst hd
          obtain ⟨r', h', hcurrent⟩ := read_two_quotes h
          rw [hcurrent]
          intro hsame
          exact shifted_ne s 0 h' (List.cons.inj (List.cons.inj hsame).2).2
        · rw [read_quote_other hd h]
          exact fun hsame => List.cons_ne_nil _ _ (List.cons.inj hsame).2.symm
    · have hkeep : action true .quoted c = .keep .quoted := if_neg hc
      rw [tripled_cons hc, List.cons_append, Csv.read, hkeep] at h
      obtain ⟨r', h', rfl⟩ := Option.map_eq_some_iff.mp h
      intro hsame
      exact ih ((List.mem_cons.mp hs).resolve_left (Ne.symm hc)) h' (List.cons.inj hsame).2

/-! ## The cells of the export -/

/-- A field between quotes. -/
def quotedCell (s : String) : Cell := ⟨'"' :: (tripled s.toList ++ ['"']), s.toList⟩

def plainCell (s : String) : Cell := ⟨s.toList, s.toList⟩

theorem quotedCell_misread {s : String} (hs : '"' ∈ s.toList) : (quotedCell s).Misread := by
  intro c rest r hc h
  have hopen : (quotedCell s).text ++ c :: rest =
      '"' :: (tripled s.toList ++ '"' :: c :: rest) := by
    simp [quotedCell]
  rw [hopen] at h
  exact current_ne hs (show Csv.read true .quoted _ = some r from h)

theorem quotedCell_faithful {s : String} (hs : '"' ∉ s.toList) : (quotedCell s).Faithful := by
  have hsame : quotedCell s = ⟨'"' :: (s.toList ++ ['"']), s.toList⟩ := by
    rw [quotedCell, tripled_of_not_mem hs]
  rw [hsame]
  exact faithful_quoted hs

theorem quotedCell_faithful_iff (s : String) : (quotedCell s).Faithful ↔ '"' ∉ s.toList :=
  ⟨fun hfaithful hs => quotedCell_misread hs |>.not_faithful hfaithful, quotedCell_faithful⟩

private theorem replaceFrom_quote (s : List Char) :
    Text.replaceFrom ['"'] ['"', '"', '"'] 0 s = tripled s := by
  induction s with
  | nil => rfl
  | cons c s ih =>
    by_cases hc : c = '"'
    · subst hc
      rw [tripled_quote, ← ih]
      rfl
    · have hprefix : List.isPrefixOf ['"'] (c :: s) = false := by
        simp [List.isPrefixOf, Ne.symm hc]
      rw [tripled_cons hc, ← ih, Text.replaceFrom, hprefix]
      rfl

theorem toList_esc (s : String) : (esc s).toList = (quotedCell s).text := by
  have hquotes : ("\"\"\"" : String).toList = ['"', '"', '"'] := rfl
  have hquote : ("\"" : String).toList = ['"'] := rfl
  rw [esc, String.toList_append, String.toList_append, hquote, Text.replace, String.toList_ofList,
    hquotes, hquote, replaceFrom_quote]
  rfl

/-- The fields of a row. -/
def fields (r : AuditLogRow) : List String :=
  [toRfc3339 r.at_, r.actor.getD "", r.action, r.target.getD "", r.result, r.note.getD ""]

def headerFields : List String := ["when", "actor", "action", "target", "result", "note"]

def rowCells (r : AuditLogRow) : List Cell :=
  [plainCell (toRfc3339 r.at_), quotedCell (r.actor.getD ""), quotedCell r.action,
    quotedCell (r.target.getD ""), quotedCell r.result, quotedCell (r.note.getD "")]

theorem toList_auditCsv (entries : List AuditLogRow) :
    (auditCsv entries).toList =
      (headerFields.map plainCell :: entries.map rowCells).flatMap lineText := by
  have hline (r : AuditLogRow) : (csvLine r).toList = lineText (rowCells r) := by
    have hcomma : ("," : String).toList = [','] := rfl
    have hnewline : ("\n" : String).toList = ['\n'] := rfl
    simp only [csvLine, String.toList_append, toList_esc, hcomma, hnewline, rowCells, lineText,
      plainCell, List.append_assoc, List.cons_append, List.nil_append]
  have hfold (csv : String) : (entries.foldl (fun csv r => csv ++ csvLine r) csv).toList =
      csv.toList ++ (entries.map rowCells).flatMap lineText := by
    induction entries generalizing csv with
    | nil => exact (List.append_nil _).symm
    | cons r entries ih =>
      rw [List.foldl_cons, ih, String.toList_append, hline, List.map_cons, List.flatMap_cons,
        List.append_assoc]
  rw [auditCsv, hfold, List.flatMap_cons]
  rfl

theorem toRfc3339_plain (t : Int) : (toRfc3339 t).toList.all isPlain = true := by
  rw [toRfc3339, String.toList_ofList, List.all_eq_true]
  intro c hc
  rcases Timestamps.render_chars 'T' t c hc with rfl | hchar
  · decide
  · simp only [Timestamps.isTimestampChar, Bool.or_eq_true, decide_eq_true_eq] at hchar
    rcases hchar with hdigit | hmark
    · have hne (d : Char) (hd : d.isDigit = false) : c ≠ d := by
        rintro rfl
        exact Bool.noConfusion (hdigit.symm.trans hd)
      simp [isPlain, hne '"' (by decide), hne ',' (by decide), hne '\r' (by decide),
        hne '\n' (by decide)]
    · simp only [List.mem_cons, List.not_mem_nil, or_false] at hmark
      rcases hmark with rfl | rfl | rfl | rfl
      · decide
      · decide
      · decide
      · decide

/-- No quote in what a row stores. -/
def NoQuotes (r : AuditLogRow) : Prop :=
  ∀ s ∈ [r.actor.getD "", r.action, r.target.getD "", r.result, r.note.getD ""], '"' ∉ s.toList

private theorem rowCells_faithful_iff (r : AuditLogRow) :
    (∀ cell ∈ rowCells r, cell.Faithful) ↔ NoQuotes r := by
  simp only [rowCells, NoQuotes, List.forall_mem_cons, quotedCell_faithful_iff,
    faithful_plain (toRfc3339_plain r.at_), plainCell, true_and, List.not_mem_nil,
    false_implies, implies_true]

/-- The export reads as the header and a record of six fields for each row, in order, exactly when
no row stores a quote. -/
theorem audit_csv_reads_back_iff (entries : List AuditLogRow) :
    readFile true (auditCsv entries).toList =
        some ((headerFields :: entries.map fields).map (List.map String.toList)) ↔
      ∀ r ∈ entries, NoQuotes r := by
  have hvalues : (headerFields :: entries.map fields).map (List.map String.toList) =
      (headerFields.map plainCell :: entries.map rowCells).map (List.map Cell.value) := by
    simp only [List.map_cons, List.map_map]
    rfl
  have hplain (s : String) (hs : s.toList.all isPlain = true) : (plainCell s).Faithful :=
    faithful_plain hs
  have hheader : ∀ cell ∈ headerFields.map plainCell, cell.Faithful := by
    intro cell hcell
    obtain ⟨s, hs, rfl⟩ := List.mem_map.mp hcell
    have hall : ∀ s ∈ headerFields, s.toList.all isPlain = true := by decide
    exact hplain s (hall s hs)
  have hquoted (s : String) : (quotedCell s).Faithful ∨ (quotedCell s).Misread := by
    by_cases hs : '"' ∈ s.toList
    · exact Or.inr (quotedCell_misread hs)
    · exact Or.inl (quotedCell_faithful hs)
  have hlines : ∀ line ∈ headerFields.map plainCell :: entries.map rowCells,
      line ≠ [] ∧ ∀ cell ∈ line, cell.Faithful ∨ cell.Misread := by
    refine List.forall_mem_cons.mpr ⟨⟨List.cons_ne_nil _ _, fun cell hcell =>
      Or.inl (hheader cell hcell)⟩, ?_⟩
    rintro _ hline
    obtain ⟨r, -, rfl⟩ := List.mem_map.mp hline
    refine ⟨List.cons_ne_nil _ _, ?_⟩
    simp only [rowCells, List.forall_mem_cons, hquoted, List.not_mem_nil, false_implies,
      implies_true, and_true]
    exact Or.inl (hplain _ (toRfc3339_plain r.at_))
  rw [toList_auditCsv, hvalues, readFile_iff hlines, List.forall_mem_cons, and_iff_right hheader,
    List.forall_mem_map]
  exact forall₂_congr fun r _ => rowCells_faithful_iff r

/-- A note with a quote, which the reader refuses. -/
theorem audit_csv_with_quote :
    readFile true (auditCsv [⟨0, none, "a", none, "ok", some "x\"y"⟩]).toList ≠
      some ((headerFields :: [fields ⟨0, none, "a", none, "ok", some "x\"y"⟩]).map
        (List.map String.toList)) := by
  decide +kernel

/-- By the letter of the grammar no export is read at all: its lines end with LF alone. -/
theorem audit_csv_needs_bare_line_feeds (entries : List AuditLogRow) :
    readFile false (auditCsv entries).toList = none := by
  have hheader (more : List Char) : readFile false (csvHeader.toList ++ more) = none := rfl
  have hfile : (auditCsv entries).toList =
      csvHeader.toList ++ (entries.map rowCells).flatMap lineText := by
    rw [toList_auditCsv, List.flatMap_cons]
    rfl
  rw [hfile, hheader]

end SuiId.AuditExport
