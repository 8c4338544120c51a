import Mathlib.Data.List.Basic

/-!
# Comma-separated values

The grammar of RFC 4180 as a machine that reads one character after the other.  A field is plain or
quoted; in a quoted one a quote is written twice, and all other characters stand for themselves.  A
record ends with CR LF and, where `bareLf` is set, with LF alone.  The line break after the last
record may be missing.

`read_plain` and `read_quoted` are the two forms of a field.  A cell is a text with the value that
it should have; `readRecord_iff` and `readFile_iff` say that lines of cells read as their values
exactly when every cell does.
-/

namespace Lib.Csv

/-- Where the machine is: before a field, in a plain one, in a quoted one, after a quote in a quoted
one, and after the CR of a line break. -/
inductive Phase where
  | start
  | plain
  | quoted
  | closed
  | cr
deriving DecidableEq

/-- What is read from some place on: the rest of a field, the other fields of its record, and the
other records. -/
structure Reading where
  current : List Char
  fields : List (List Char)
  records : List (List (List Char))
deriving DecidableEq

/-- The record that the reading begins with. -/
def Reading.record (r : Reading) : List (List Char) := r.current :: r.fields

/-- A character of the field in front. -/
def Reading.character (c : Char) (r : Reading) : Reading := { r with current := c :: r.current }

/-- A comma in front. -/
def Reading.comma (r : Reading) : Reading := ⟨[], r.record, r.records⟩

/-- A line break in front. -/
def Reading.lineBreak (r : Reading) : Reading := ⟨[], [], r.record :: r.records⟩

/-- One record of one empty field. -/
def Reading.done : Reading := ⟨[], [], []⟩

/-- What the machine does with a character. -/
inductive Action where
  | refuse
  | keep (next : Phase)
  | skip (next : Phase)
  | comma
  | lineBreak
deriving DecidableEq

/-- A character that ends a field, or one of a plain field. -/
def delimiter (bareLf : Bool) (c : Char) (otherwise : Action) : Action :=
  if c = ',' then .comma
  else if c = '\r' then .skip .cr
  else if c = '\n' then if bareLf then .lineBreak else .refuse
  else otherwise

/-- What the machine does in a phase. -/
def action (bareLf : Bool) (phase : Phase) (c : Char) : Action :=
  match phase with
  | .start => if c = '"' then .skip .quoted else delimiter bareLf c (.keep .plain)
  | .plain => if c = '"' then .refuse else delimiter bareLf c (.keep .plain)
  | .quoted => if c = '"' then .skip .closed else .keep .quoted
  | .closed => if c = '"' then .keep .quoted else delimiter bareLf c .refuse
  | .cr => if c = '\n' then .lineBreak else .refuse

/-- The text may end in every phase but these two. -/
def Phase.mayEnd (phase : Phase) : Bool := phase ≠ .quoted && phase ≠ .cr

/-- The machine on the rest of a text. -/
def read (bareLf : Bool) (phase : Phase) : List Char → Option Reading
  | [] => if phase.mayEnd then some .done else none
  | c :: cs =>
    match action bareLf phase c with
    | .refuse => none
    | .keep next => (read bareLf next cs).map (.character c)
    | .skip next => read bareLf next cs
    | .comma => (read bareLf .start cs).map .comma
    | .lineBreak => if cs = [] then some .done else (read bareLf .start cs).map .lineBreak

/-- The records of a file. -/
def readFile (bareLf : Bool) (text : List Char) : Option (List (List (List Char))) :=
  (read bareLf .start text).map fun r => r.record :: r.records

/-- The records after a line break. -/
def readRest (bareLf : Bool) (text : List Char) : Option (List (List (List Char))) :=
  if text = [] then some [] else readFile bareLf text

/-! ## Fields -/

/-- A character that a plain field may have. -/
def isPlain (c : Char) : Bool := c ≠ '"' && c ≠ ',' && c ≠ '\r' && c ≠ '\n'

section Fields

variable {bareLf : Bool}

/-- Before a plain field and in one, its characters are kept. -/
theorem read_plain {phase : Phase} (hphase : phase = .start ∨ phase = .plain) {s : List Char}
    (hs : s.all isPlain = true) {c : Char} (hquote : c ≠ '"') (rest : List Char) :
    read bareLf phase (s ++ c :: rest) = (read bareLf .plain (c :: rest)).map fun r =>
      { r with current := s ++ r.current } := by
  induction s generalizing phase with
  | nil =>
    have hsame : action bareLf phase c = action bareLf .plain c := by
      rcases hphase with rfl | rfl
      · rw [action, action, if_neg hquote, if_neg hquote]
      · rfl
    have hread : read bareLf phase (c :: rest) = read bareLf .plain (c :: rest) := by
      rw [read, read, hsame]
    rw [List.nil_append, hread]
    exact Option.map_id'.symm
  | cons x s ih =>
    simp only [List.all_cons, Bool.and_eq_true] at hs
    have hkeep : action bareLf phase x = .keep .plain := by
      have hx := hs.1
      simp only [isPlain, Bool.and_eq_true, decide_eq_true_eq] at hx
      obtain ⟨⟨⟨hx, hcomma⟩, hcr⟩, hlf⟩ := hx
      rcases hphase with rfl | rfl
      · simp only [action, delimiter, hx, hcomma, hcr, hlf, if_false]
      · simp only [action, delimiter, hx, hcomma, hcr, hlf, if_false]
    rw [List.cons_append, read, hkeep]
    dsimp only
    rw [ih (Or.inr rfl) hs.2, Option.map_map]
    rfl

/-- In a quoted field all characters but the quote are kept. -/
theorem read_quoted {s : List Char} (hs : '"' ∉ s) (rest : List Char) :
    read bareLf .quoted (s ++ '"' :: rest) = (read bareLf .closed rest).map fun r =>
      { r with current := s ++ r.current } := by
  induction s with
  | nil =>
    show read bareLf .closed rest = _
    exact Option.map_id'.symm
  | cons x s ih =>
    have hx : x ≠ '"' := fun h => hs (h ▸ List.mem_cons_self)
    have hkeep : action bareLf .quoted x = .keep .quoted := if_neg hx
    rw [List.cons_append, read, hkeep]
    dsimp only
    rw [ih (fun h => hs (List.mem_cons_of_mem x h)), Option.map_map]
    rfl

end Fields

/-! ## Lines -/

/-- The text of a field, and the value that it should have. -/
structure Cell where
  text : List Char
  value : List Char

/-- A comma or a line feed ends a field. -/
def EndsField (c : Char) : Prop := c = ',' ∨ c = '\n'

/-- The text is read as the value. -/
def Cell.Faithful (cell : Cell) : Prop :=
  ∀ c rest, EndsField c → read true .start (cell.text ++ c :: rest) =
    (read true .plain (c :: rest)).map fun r => { r with current := cell.value ++ r.current }

/-- The text is never read as the value. -/
def Cell.Misread (cell : Cell) : Prop :=
  ∀ c rest r, EndsField c → read true .start (cell.text ++ c :: rest) = some r →
    r.current ≠ cell.value

variable {cell : Cell} {cells : List Cell} {lines : List (List Cell)}

theorem Cell.Misread.not_faithful (h : cell.Misread) : ¬ cell.Faithful := by
  intro hfaithful
  have hread := hfaithful ',' [] (Or.inl rfl)
  have hcomma : read true .plain [','] = some ⟨[], [[]], []⟩ := rfl
  rw [hcomma, Option.map_some, List.append_nil] at hread
  exact h ',' [] _ (Or.inl rfl) hread rfl

/-- The cells of a line with commas between them, and a line feed. -/
def lineText : List Cell → List Char
  | [] => ['\n']
  | [cell] => cell.text ++ ['\n']
  | cell :: cells => cell.text ++ ',' :: lineText cells

private theorem read_lineFeed (rest : List Char) :
    read true .plain ('\n' :: rest) =
      (readRest true rest).map fun records => ⟨[], [], records⟩ := by
  show (if rest = [] then some Reading.done else (read true .start rest).map .lineBreak) = _
  unfold readRest
  split
  · rfl
  · rw [readFile, Option.map_map]
    rfl

/-- A faithful cell at the end of a line, and one before another. -/
private theorem Cell.Faithful.read_last (h : cell.Faithful) (rest : List Char) :
    read true .start (lineText [cell] ++ rest) =
      (readRest true rest).map fun records => ⟨cell.value, [], records⟩ := by
  rw [lineText, List.append_assoc, List.singleton_append, h _ _ (Or.inr rfl), read_lineFeed,
    Option.map_map]
  simp only [Function.comp_def, List.append_nil]

private theorem Cell.Faithful.read_cons {next : Cell} (h : cell.Faithful) (rest : List Char) :
    read true .start (lineText (cell :: next :: cells) ++ rest) =
      (read true .start (lineText (next :: cells) ++ rest)).map fun r =>
        ⟨cell.value, r.record, r.records⟩ := by
  have hcomma : read true .plain (',' :: (lineText (next :: cells) ++ rest)) =
      (read true .start (lineText (next :: cells) ++ rest)).map .comma := rfl
  rw [lineText, List.append_assoc, List.cons_append, h _ _ (Or.inl rfl), hcomma, Option.map_map]
  simp only [Function.comp_def, Reading.comma, List.append_nil]
  exact List.cons_ne_nil _ _

/-- What follows the first cell of a line begins with the end of a field. -/
private theorem lineText_cons (cell : Cell) (cells : List Cell) (rest : List Char) :
    ∃ c after, EndsField c ∧ lineText (cell :: cells) ++ rest = cell.text ++ c :: after := by
  cases cells with
  | nil =>
    refine ⟨'\n', rest, Or.inr rfl, ?_⟩
    rw [lineText, List.append_assoc, List.singleton_append]
  | cons next cells =>
    refine ⟨',', lineText (next :: cells) ++ rest, Or.inl rfl, ?_⟩
    rw [lineText, List.append_assoc, List.cons_append]
    exact List.cons_ne_nil _ _

/-- A line reads as the values of its cells exactly when each of them does. -/
theorem readLine_iff (hne : cells ≠ []) (hcells : ∀ cell ∈ cells, cell.Faithful ∨ cell.Misread)
    (rest : List Char) (records : List (List (List Char))) :
    (∃ r, read true .start (lineText cells ++ rest) = some r ∧ r.record = cells.map Cell.value ∧
        r.records = records) ↔
      (∀ cell ∈ cells, cell.Faithful) ∧ readRest true rest = some records := by
  induction cells with
  | nil => exact absurd rfl hne
  | cons cell cells ih =>
    by_cases hfaithful : cell.Faithful
    · cases cells with
      | nil =>
        simp only [hfaithful.read_last, List.forall_mem_singleton, hfaithful, true_and,
          Option.map_eq_some_iff, List.map_cons, List.map_nil]
        constructor
        · rintro ⟨r, ⟨records', hrest, rfl⟩, -, rfl⟩
          exact hrest
        · intro hrest
          exact ⟨_, ⟨records, hrest, rfl⟩, rfl, rfl⟩
      | cons next cells =>
        have htail := ih (List.cons_ne_nil next cells) fun x hx =>
          hcells x (List.mem_cons_of_mem cell hx)
        rw [List.forall_mem_cons, and_assoc, ← htail]
        simp only [hfaithful.read_cons, hfaithful, true_and, Option.map_eq_some_iff]
        constructor
        · rintro ⟨r, ⟨r', hread, rfl⟩, hrecord, hrecords⟩
          exact ⟨r', hread, (List.cons.inj hrecord).2, hrecords⟩
        · rintro ⟨r', hread, hrecord, hrecords⟩
          exact ⟨_, ⟨r', hread, rfl⟩, congrArg (cell.value :: ·) hrecord, hrecords⟩
    · have hmisread := (hcells cell List.mem_cons_self).resolve_left hfaithful
      constructor
      · rintro ⟨r, hread, hrecord, -⟩
        obtain ⟨c, after, hends, htext⟩ := lineText_cons cell cells rest
        rw [htext] at hread
        exact absurd (List.cons.inj hrecord).1 (hmisread c after r hends hread)
      · rintro ⟨hall, -⟩
        exact absurd (hall cell List.mem_cons_self) hfaithful

/-- A file of lines reads as their values exactly when each cell does. -/
theorem readRest_iff
    (hlines : ∀ cells ∈ lines, cells ≠ [] ∧ ∀ cell ∈ cells, cell.Faithful ∨ cell.Misread) :
    readRest true (lines.flatMap lineText) = some (lines.map (List.map Cell.value)) ↔
      ∀ cells ∈ lines, ∀ cell ∈ cells, cell.Faithful := by
  induction lines with
  | nil =>
    refine iff_of_true rfl ?_
    rintro _ ⟨⟩
  | cons cells lines ih =>
    obtain ⟨⟨hne, hcells⟩, hrest⟩ := List.forall_mem_cons.mp hlines
    obtain ⟨cell, cells', rfl⟩ := List.exists_cons_of_ne_nil hne
    have hnonempty : lineText (cell :: cells') ++ lines.flatMap lineText ≠ [] := by
      obtain ⟨c, after, -, htext⟩ := lineText_cons cell cells' (lines.flatMap lineText)
      rw [htext]
      exact List.append_ne_nil_of_right_ne_nil _ (List.cons_ne_nil c after)
    rw [List.flatMap_cons, List.forall_mem_cons, ← ih hrest, ← readLine_iff hne hcells, readRest,
      if_neg hnonempty, readFile, Option.map_eq_some_iff, List.map_cons]
    constructor
    · rintro ⟨r, hread, hrecords⟩
      exact ⟨r, hread, (List.cons.inj hrecords).1, (List.cons.inj hrecords).2⟩
    · rintro ⟨r, hread, hrecord, hrecords⟩
      exact ⟨r, hread, congrArg₂ List.cons hrecord hrecords⟩

theorem readFile_iff
    (hlines : ∀ line ∈ cells :: lines,
      line ≠ [] ∧ ∀ cell ∈ line, cell.Faithful ∨ cell.Misread) :
    readFile true ((cells :: lines).flatMap lineText) =
        some ((cells :: lines).map (List.map Cell.value)) ↔
      ∀ line ∈ cells :: lines, ∀ cell ∈ line, cell.Faithful := by
  have hnonempty : (cells :: lines).flatMap lineText ≠ [] := by
    obtain ⟨cell, cells', rfl⟩ := List.exists_cons_of_ne_nil (hlines cells List.mem_cons_self).1
    obtain ⟨c, after, -, htext⟩ := lineText_cons cell cells' (lines.flatMap lineText)
    rw [List.flatMap_cons, htext]
    exact List.append_ne_nil_of_right_ne_nil _ (List.cons_ne_nil c after)
  have hrest := readRest_iff hlines
  rw [readRest, if_neg hnonempty] at hrest
  exact hrest

/-! ## The two forms of a field -/

theorem faithful_plain {s : List Char} (hs : s.all isPlain = true) : (Cell.mk s s).Faithful := by
  rintro c rest hc
  refine read_plain (Or.inl rfl) hs ?_ rest
  rintro rfl
  exact hc.elim (by decide) (by decide)

/-- A text without quotes, between quotes. -/
theorem faithful_quoted {s : List Char} (hs : '"' ∉ s) :
    (Cell.mk ('"' :: (s ++ ['"'])) s).Faithful := by
  rintro c rest hc
  have hopen : read true .start ('"' :: (s ++ '"' :: c :: rest)) =
      read true .quoted (s ++ '"' :: c :: rest) := rfl
  have hclosed : read true .closed (c :: rest) = read true .plain (c :: rest) := by
    rcases hc with rfl | rfl
    · rfl
    · rfl
  show read true .start ('"' :: (s ++ ['"']) ++ c :: rest) = _
  rw [List.cons_append, List.append_assoc, List.singleton_append, hopen, read_quoted hs, hclosed]

end Lib.Csv
