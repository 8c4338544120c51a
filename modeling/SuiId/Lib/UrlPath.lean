import SuiId.Lib.FormUrl

/-!
# Paths of URLs

What the URL standard does with the segments of a path: characters of a set are percent-encoded,
`.` stands for where it is, and `..` takes the segment before it back.  Either dot may be written
`%2e`.

`addSegments` is the walk of the parser from left to right, which keeps the path so far.
`standing` says without that path which names are left: those that no later `..` takes back.
`addSegments_eq` connects the two.
-/

namespace Lib.UrlPath

/-! ## Percent encoding -/

/-- An upper-case hexadecimal digit. -/
def hexChar (n : UInt8) : Char := Char.ofNat (FormUrl.hexDigit n).toNat

/-- A byte in percent encoding. -/
def percentByte (b : UInt8) : List Char := ['%', hexChar (b / 16), hexChar (b % 16)]

/-- UTF-8 percent-encoding of the characters of a set. -/
def encodeChar (inSet : Char → Bool) (c : Char) : List Char :=
  if inSet c then (String.utf8EncodeChar c).flatMap percentByte else [c]

/-- The text with the characters of a set in percent encoding. -/
def percentEncode (inSet : Char → Bool) (text : List Char) : List Char :=
  text.flatMap (encodeChar inSet)

section Encoding

variable {inSet : Char → Bool} {c : Char} {text : List Char}

@[simp] theorem percentEncode_nil : percentEncode inSet [] = [] := rfl

theorem percentEncode_cons_of_mem (h : inSet c = true) (text : List Char) :
    percentEncode inSet (c :: text) =
      (String.utf8EncodeChar c).flatMap percentByte ++ percentEncode inSet text := by
  rw [percentEncode, List.flatMap_cons, encodeChar, if_pos h]
  rfl

theorem percentEncode_cons_of_notMem (h : inSet c = false) (text : List Char) :
    percentEncode inSet (c :: text) = c :: percentEncode inSet text := by
  rw [percentEncode, List.flatMap_cons, encodeChar, if_neg (by rw [h]; decide)]
  rfl

theorem percentEncode_of_plain (h : ∀ c ∈ text, inSet c = false) :
    percentEncode inSet text = text := by
  induction text with
  | nil => rfl
  | cons c text ih =>
    rw [percentEncode_cons_of_notMem (h c List.mem_cons_self),
      ih fun d hd => h d (List.mem_cons_of_mem _ hd)]

/-- What stands for a character of the set begins with the two digits of a byte. -/
theorem exists_percentByte (c : Char) : ∃ b rest,
    (String.utf8EncodeChar c).flatMap percentByte = percentByte b ++ rest ∧
      (b = 0x2e → c = '.') := by
  cases hbytes : String.utf8EncodeChar c with
  | nil =>
    have hread := FormUrl.lossyFrom_utf8EncodeChar c []
    rw [hbytes] at hread
    simp [FormUrl.lossyFrom] at hread
  | cons b bytes =>
    refine ⟨b, bytes.flatMap percentByte, rfl, fun hb => ?_⟩
    have hread := FormUrl.lossyFrom_utf8EncodeChar c []
    have hdot : FormUrl.startChar 0x2e = (['.'], none) := by decide
    rw [hbytes, hb, List.cons_append] at hread
    simp only [FormUrl.lossyFrom] at hread
    rw [hdot] at hread
    exact (List.cons.inj hread).1.symm

/-- A text without `%` is the encoding of itself only. -/
theorem eq_of_percentEncode_eq {name : List Char} (hname : '%' ∉ name)
    (h : percentEncode inSet text = name) : text = name := by
  rw [← h]
  refine (percentEncode_of_plain fun c hc => ?_).symm
  by_contra hset
  rw [Bool.not_eq_false] at hset
  apply hname
  rw [← h, percentEncode, List.mem_flatMap]
  refine ⟨c, hc, ?_⟩
  obtain ⟨b, rest, hencoded, -⟩ := exists_percentByte c
  rw [encodeChar, if_pos hset, hencoded]
  exact List.mem_append_left _ List.mem_cons_self

variable {names : List (List Char)}

theorem map_percentEncode_eq {texts : List (List Char)} (hnames : ∀ name ∈ names, '%' ∉ name)
    (h : texts.map (percentEncode inSet) = names) : texts = names := by
  induction names generalizing texts with
  | nil => exact List.map_eq_nil_iff.mp h
  | cons name names ih =>
    obtain ⟨text, rest, rfl, htext, hrest⟩ := List.map_eq_cons_iff.mp h
    rw [eq_of_percentEncode_eq (hnames name List.mem_cons_self) htext,
      ih (fun name hname => hnames name (List.mem_cons_of_mem _ hname)) hrest]

theorem map_percentEncode_self (hself : ∀ name ∈ names, percentEncode inSet name = name) :
    names.map (percentEncode inSet) = names :=
  (List.map_congr_left hself).trans (List.map_id _)

/-- Texts that begin with names which need no encoding. -/
theorem map_percentEncode_begins_iff {texts : List (List Char)}
    (hnames : ∀ name ∈ names, '%' ∉ name)
    (hself : ∀ name ∈ names, percentEncode inSet name = name) :
    (∃ next rest, texts.map (percentEncode inSet) = names ++ next :: rest) ↔
      ∃ next rest, texts = names ++ next :: rest := by
  constructor
  · rintro ⟨next, rest, h⟩
    obtain ⟨front, back, rfl, hfront, hback⟩ := List.map_eq_append_iff.mp h
    obtain ⟨next, rest, rfl, -, -⟩ := List.map_eq_cons_iff.mp hback
    exact ⟨next, rest, by rw [map_percentEncode_eq hnames hfront]⟩
  · rintro ⟨next, rest, rfl⟩
    refine ⟨percentEncode inSet next, rest.map (percentEncode inSet), ?_⟩
    rw [List.map_append, List.map_cons, map_percentEncode_self hself]

/-- A character other than `%` stands for itself. -/
theorem percentEncode_eq_cons {rest : List Char} (hc : c ≠ '%')
    (h : percentEncode inSet text = c :: rest) :
    ∃ tail, text = c :: tail ∧ percentEncode inSet tail = rest := by
  cases text with
  | nil => cases h
  | cons d tail =>
    cases hset : inSet d with
    | true =>
      obtain ⟨b, more, hencoded, -⟩ := exists_percentByte d
      rw [percentEncode_cons_of_mem hset, hencoded] at h
      exact absurd (List.cons.inj h).1.symm hc
    | false =>
      rw [percentEncode_cons_of_notMem hset] at h
      obtain ⟨hd, htail⟩ := List.cons.inj h
      exact ⟨tail, by rw [hd], htail⟩

private theorem isAlphanum_hexChar {d : UInt8} (hd : d.toNat < 16) :
    (hexChar d).isAlphanum = true := by
  refine FormUrl.forall_digit (p := fun d => (hexChar d).isAlphanum = true) ?_ hd
  decide

private theorem mem_percentByte_ne (b : UInt8) :
    ∀ c ∈ percentByte b, c.isAlphanum ∨ c = '%' := by
  obtain ⟨hhigh, hlow⟩ := FormUrl.digits_lt b
  intro c hc
  rw [percentByte, List.mem_cons, List.mem_cons, List.mem_singleton] at hc
  rcases hc with rfl | rfl | rfl
  · exact Or.inr rfl
  · exact Or.inl (isAlphanum_hexChar hhigh)
  · exact Or.inl (isAlphanum_hexChar hlow)

/-- A character that is neither a letter, a digit nor `%` comes from the text itself. -/
theorem mem_of_mem_percentEncode (hplain : c.isAlphanum = false) (hpercent : c ≠ '%')
    (h : c ∈ percentEncode inSet text) : c ∈ text ∧ inSet c = false := by
  rw [percentEncode, List.mem_flatMap] at h
  obtain ⟨d, hd, hc⟩ := h
  unfold encodeChar at hc
  split at hc
  · rw [List.mem_flatMap] at hc
    obtain ⟨b, -, hb⟩ := hc
    have hbyte := mem_percentByte_ne b c hb
    simp [hplain, hpercent] at hbyte
  · next hset =>
    rw [List.mem_singleton] at hc
    rw [hc]
    exact ⟨hd, by simpa using hset⟩

/-- No character of the set is left, if the escapes have none. -/
theorem eq_false_of_mem_percentEncode (hescape : ∀ c : Char, c.isAlphanum ∨ c = '%' →
    inSet c = false) (h : c ∈ percentEncode inSet text) : inSet c = false := by
  rw [percentEncode, List.mem_flatMap] at h
  obtain ⟨d, -, hc⟩ := h
  unfold encodeChar at hc
  split at hc
  · rw [List.mem_flatMap] at hc
    obtain ⟨b, -, hb⟩ := hc
    exact hescape c (mem_percentByte_ne b c hb)
  · next hset =>
    rw [List.mem_singleton] at hc
    rw [hc]
    simpa using hset

end Encoding

/-! ## Dots -/

/-- How many dots a segment consists of, each written `.` or `%2e`. -/
def dots : List Char → Option Nat
  | [] => some 0
  | '.' :: rest => (dots rest).map (· + 1)
  | '%' :: '2' :: c :: rest => if c = 'e' || c = 'E' then (dots rest).map (· + 1) else none
  | _ :: _ => none

/-- A single-dot segment. -/
abbrev isSingleDot (segment : List Char) : Bool := dots segment = some 1

/-- A double-dot segment. -/
abbrev isDoubleDot (segment : List Char) : Bool := dots segment = some 2

private theorem percentByte_dot (b : UInt8) (hhigh : hexChar (b / 16) = '2')
    (hlow : hexChar (b % 16) = 'e' ∨ hexChar (b % 16) = 'E') : b = 0x2e := by
  have htwo {d : UInt8} (hd : d.toNat < 16) : hexChar d = '2' → d = 2 := by
    refine FormUrl.forall_digit (p := fun d => hexChar d = '2' → d = 2) ?_ hd
    decide
  have hfourteen {d : UInt8} (hd : d.toNat < 16) :
      (hexChar d = 'e' ∨ hexChar d = 'E') → d = 14 := by
    refine FormUrl.forall_digit (p := fun d => (hexChar d = 'e' ∨ hexChar d = 'E') → d = 14) ?_ hd
    decide
  obtain ⟨hltHigh, hltLow⟩ := FormUrl.digits_lt b
  rw [← FormUrl.digits_value b, htwo hltHigh hhigh, hfourteen hltLow hlow]
  rfl

/-- What stands for a character of the set is no dot. -/
private theorem dots_encoded {inSet : Char → Bool} {c : Char} (hset : inSet c = true)
    (hdot : inSet '.' = false) (rest : List Char) :
    dots ((String.utf8EncodeChar c).flatMap percentByte ++ rest) = none := by
  obtain ⟨b, more, hencoded, hb⟩ := exists_percentByte c
  have hne : b ≠ 0x2e := by
    intro h
    rw [hb h, hdot] at hset
    cases hset
  rw [hencoded]
  show dots ('%' :: hexChar (b / 16) :: hexChar (b % 16) :: (more ++ rest)) = none
  by_cases hhigh : hexChar (b / 16) = '2'
  · have hlow : ¬(hexChar (b % 16) = 'e' ∨ hexChar (b % 16) = 'E') :=
      fun h => hne (percentByte_dot b hhigh h)
    simp [hhigh, dots, hlow]
  · unfold dots
    split <;> simp_all

/-- The parser looks for dots after it has encoded a segment, which makes no difference. -/
theorem dots_percentEncode {inSet : Char → Bool} (hplain : ∀ c ∈ ['.', '%', '2', 'e', 'E'],
    inSet c = false) (segment : List Char) :
    dots (percentEncode inSet segment) = dots segment := by
  have hdot := hplain '.' (by decide)
  fun_induction dots segment with
  | case1 => rfl
  | case2 rest ih => rw [percentEncode_cons_of_notMem hdot, dots, ih]
  | case3 c rest hc ih =>
    have hset : inSet c = false := by
      simp only [Bool.or_eq_true, decide_eq_true_eq] at hc
      rcases hc with rfl | rfl <;> exact hplain _ (by decide)
    rw [percentEncode_cons_of_notMem (hplain '%' (by decide)),
      percentEncode_cons_of_notMem (hplain '2' (by decide)), percentEncode_cons_of_notMem hset,
      dots, if_pos hc, ih]
  | case4 c rest hc =>
    rw [percentEncode_cons_of_notMem (hplain '%' (by decide)),
      percentEncode_cons_of_notMem (hplain '2' (by decide))]
    cases hset : inSet c with
    | true =>
      obtain ⟨b, more, hencoded, -⟩ := exists_percentByte c
      rw [percentEncode_cons_of_mem hset, hencoded]
      rfl
    | false => rw [percentEncode_cons_of_notMem hset, dots, if_neg hc]
  | case5 c rest hne hpercent =>
    cases hset : inSet c with
    | true =>
      rw [percentEncode_cons_of_mem hset]
      exact dots_encoded hset hdot _
    | false =>
      rw [percentEncode_cons_of_notMem hset]
      unfold dots
      split
      · cases ‹_ :: _ = []›
      · next heq => exact (hne (List.cons.inj heq).1).elim
      · next d tail heq =>
        -- The two characters after the `%` are there before the encoding.
        obtain ⟨hc, htail⟩ := List.cons.inj heq
        obtain ⟨rest', hrest, hencoded⟩ := percentEncode_eq_cons (by decide) htail
        cases rest' with
        | nil => cases hencoded
        | cons d' rest' => exact (hpercent d' rest' hc hrest).elim
      · rfl

/-! ## Segments -/

/-- A path with one more segment, which may be the last one. -/
def addSegment (path : List (List Char)) (isLast : Bool) (segment : List Char) :
    List (List Char) :=
  let here := if isLast then [[]] else []
  if isDoubleDot segment then path.dropLast ++ here
  else if isSingleDot segment then path ++ here
  else path ++ [segment]

/-- The path after these segments. -/
def addSegments (path : List (List Char)) : List (List Char) → List (List Char)
  | [] => path
  | [segment] => addSegment path true segment
  | segment :: segments => addSegments (addSegment path false segment) segments

/-- How many of the segments before these are taken back, and the names that are left. -/
def standing : List (List Char) → Nat × List (List Char)
  | [] => (0, [])
  | segment :: segments =>
    let (ups, names) := standing segments
    if isDoubleDot segment then (ups + 1, names)
    else if isSingleDot segment then (ups, names)
    else
      match ups with
      | 0 => (0, segment :: names)
      | ups + 1 => (ups, names)

/-- A path that ends in dots is the one of a directory. -/
def endsInDots (segments : List (List Char)) : Bool :=
  segments.getLast?.any fun segment => isDoubleDot segment || isSingleDot segment

/-- Where segments lead from the root. -/
def landing (segments : List (List Char)) : List (List Char) :=
  (standing segments).2 ++ if endsInDots segments then [[]] else []

variable {segment rest : List Char} {segments path : List (List Char)}

theorem standing_of_double (h : isDoubleDot segment = true) (segments : List (List Char)) :
    standing (segment :: segments) = ((standing segments).1 + 1, (standing segments).2) := by
  simp [standing, h]

theorem standing_of_single (hdouble : isDoubleDot segment = false)
    (h : isSingleDot segment = true) (segments : List (List Char)) :
    standing (segment :: segments) = standing segments := by
  simp [standing, hdouble, h]

theorem standing_of_name (hdouble : isDoubleDot segment = false)
    (hsingle : isSingleDot segment = false) (segments : List (List Char)) :
    standing (segment :: segments) =
      match (standing segments).1 with
      | 0 => (0, segment :: (standing segments).2)
      | ups + 1 => (ups, (standing segments).2) := by
  simp [standing, hdouble, hsingle]

private theorem rdrop_dropLast (path : List (List Char)) (n : Nat) :
    path.dropLast.rdrop n = path.rdrop (n + 1) := by
  rw [List.rdrop, List.rdrop, List.dropLast_eq_take, List.take_take, List.length_take]
  congr 1
  omega

theorem addSegments_eq (path : List (List Char)) (h : segments ≠ []) :
    addSegments path segments = path.rdrop (standing segments).1 ++ landing segments := by
  induction segments generalizing path with
  | nil => exact absurd rfl h
  | cons segment segments ih =>
    cases segments with
    | nil =>
      show addSegment path true segment = _
      unfold addSegment landing standing endsInDots
      by_cases hdouble : isDoubleDot segment = true
      · simp [hdouble, standing, List.rdrop, List.dropLast_eq_take]
      · by_cases hsingle : isSingleDot segment = true <;>
          simp [hdouble, hsingle, standing]
    | cons next rest =>
      have hnext := ih (addSegment path false segment) (List.cons_ne_nil _ _)
      have hends : endsInDots (segment :: next :: rest) = endsInDots (next :: rest) := by
        rw [endsInDots, List.getLast?_cons_cons]
        rfl
      show addSegments (addSegment path false segment) (next :: rest) = _
      rw [hnext, landing, landing, hends]
      by_cases hdouble : isDoubleDot segment = true
      · have hpath : addSegment path false segment = path.dropLast := by simp [addSegment, hdouble]
        rw [hpath, standing_of_double hdouble, rdrop_dropLast]
      · rw [Bool.not_eq_true] at hdouble
        by_cases hsingle : isSingleDot segment = true
        · have hpath : addSegment path false segment = path := by
            simp [addSegment, hdouble, hsingle]
          rw [hpath, standing_of_single hdouble hsingle]
        · have hpath : addSegment path false segment = path ++ [segment] := by
            simp [addSegment, hdouble, hsingle]
          rw [Bool.not_eq_true] at hsingle
          rw [hpath]
          -- The name is left unless one of the `..` behind it is still unmatched.
          cases hups : (standing (next :: rest)).1 with
          | zero =>
            rw [standing_of_name hdouble hsingle, hups]
            simp
          | succ ups => rw [standing_of_name hdouble hsingle, hups, List.rdrop_concat_succ]

/-- From the root nothing can be taken back. -/
theorem addSegments_root (h : segments ≠ []) :
    addSegments [] segments = landing segments := by
  rw [addSegments_eq [] h, List.rdrop_nil, List.nil_append]

/-- What is left is a segment that was there and is no dots. -/
theorem mem_standing (h : segment ∈ (standing segments).2) :
    segment ∈ segments ∧ isDoubleDot segment = false ∧ isSingleDot segment = false := by
  induction segments with
  | nil => cases h
  | cons first segments ih =>
    have hlater : segment ∈ (standing segments).2 →
        segment ∈ first :: segments ∧ isDoubleDot segment = false ∧ isSingleDot segment = false :=
      fun h => ⟨List.mem_cons_of_mem _ (ih h).1, (ih h).2⟩
    by_cases hdouble : isDoubleDot first = true
    · rw [standing_of_double hdouble] at h
      exact hlater h
    rw [Bool.not_eq_true] at hdouble
    by_cases hsingle : isSingleDot first = true
    · rw [standing_of_single hdouble hsingle] at h
      exact hlater h
    rw [Bool.not_eq_true] at hsingle
    rw [standing_of_name hdouble hsingle] at h
    split at h
    · rcases List.mem_cons.mp h with rfl | h
      · exact ⟨List.mem_cons_self, hdouble, hsingle⟩
      · exact hlater h
    · exact hlater h

theorem not_dots_of_mem_landing (h : segment ∈ landing segments) :
    isDoubleDot segment = false ∧ isSingleDot segment = false := by
  rcases List.mem_append.mp h with h | h
  · exact (mem_standing h).2
  · split at h
    · rw [List.mem_singleton.mp h]
      decide
    · cases h

/-- Names lead to themselves. -/
theorem landing_of_not_dots
    (h : ∀ segment ∈ segments, isDoubleDot segment = false ∧ isSingleDot segment = false) :
    landing segments = segments := by
  have hstanding : standing segments = (0, segments) := by
    induction segments with
    | nil => rfl
    | cons segment segments ih =>
      obtain ⟨hdouble, hsingle⟩ := h segment List.mem_cons_self
      rw [standing_of_name hdouble hsingle, ih fun s hs => h s (List.mem_cons_of_mem _ hs)]
  have hends : endsInDots segments = false := by
    rw [endsInDots]
    cases hlast : segments.getLast? with
    | none => rfl
    | some last =>
      obtain ⟨hdouble, hsingle⟩ := h last (List.mem_of_getLast? hlast)
      rw [Option.any_some, hdouble, hsingle]
      rfl
  rw [landing, hstanding, hends]
  simp

/-- The last name is not taken back. -/
private theorem last_mem_standing {last : List Char} (hdouble : isDoubleDot last = false)
    (hsingle : isSingleDot last = false) (front : List (List Char)) :
    last ∈ (standing (front ++ [last])).2 := by
  induction front with
  | nil =>
    rw [List.nil_append, standing_of_name hdouble hsingle]
    exact List.mem_cons_self
  | cons segment front ih =>
    rw [List.cons_append]
    by_cases hdouble' : isDoubleDot segment = true
    · rw [standing_of_double hdouble']
      exact ih
    rw [Bool.not_eq_true] at hdouble'
    by_cases hsingle' : isSingleDot segment = true
    · rw [standing_of_single hdouble' hsingle']
      exact ih
    rw [Bool.not_eq_true] at hsingle'
    rw [standing_of_name hdouble' hsingle']
    split
    · exact List.mem_cons_of_mem _ ih
    · exact ih

/-- A path has a last segment, which may be empty. -/
theorem landing_ne_nil (h : segments ≠ []) :
    landing segments ≠ [] := by
  unfold landing
  by_cases hends : endsInDots segments = true
  · rw [if_pos hends]
    simp
  · rw [if_neg hends, List.append_nil]
    have hname :
        (isDoubleDot (segments.getLast h) || isSingleDot (segments.getLast h)) = false := by
      rw [endsInDots, List.getLast?_eq_some_getLast h, Option.any_some] at hends
      exact (Bool.not_eq_true _).mp hends
    rw [Bool.or_eq_false_iff] at hname
    have hmem := last_mem_standing hname.1 hname.2 segments.dropLast
    rw [List.dropLast_append_getLast h] at hmem
    exact List.ne_nil_of_mem hmem

theorem mem_landing (h : segment ∈ landing segments) : segment ∈ segments ∨ segment = [] := by
  rcases List.mem_append.mp h with h | h
  · exact Or.inl (mem_standing h).1
  · split at h
    · exact Or.inr (List.mem_singleton.mp h)
    · cases h

/-- Segments are encoded one by one, and land on the encoded names. -/
theorem landing_map {f : List Char → List Char} (hdots : ∀ segment, dots (f segment) = dots segment)
    (hnil : f [] = []) (segments : List (List Char)) :
    landing (segments.map f) = (landing segments).map f := by
  have hstanding : ∀ segments : List (List Char), standing (segments.map f) =
      ((standing segments).1, (standing segments).2.map f) := by
    intro segments
    induction segments with
    | nil => rfl
    | cons segment segments ih =>
      rw [List.map_cons, standing, standing, ih]
      simp only [isDoubleDot, isSingleDot, hdots]
      split
      · rfl
      · split
        · rfl
        · cases (standing segments).1 <;> rfl
  have hends : endsInDots (segments.map f) = endsInDots segments := by
    rw [endsInDots, endsInDots, List.getLast?_map, Option.any_map]
    simp only [isDoubleDot, isSingleDot, hdots]
  rw [landing, landing, hstanding, hends, List.map_append]
  split <;> simp [hnil]

/-! ## Texts of paths -/

/-- A piece between separators has none of them. -/
theorem eq_false_of_mem_splitOnP {p : Char → Bool} {text piece : List Char}
    (h : piece ∈ text.splitOnP p) : ∀ c ∈ piece, p c = false := by
  induction text generalizing piece with
  | nil =>
    rw [List.splitOnP_nil, List.mem_singleton] at h
    simp [h]
  | cons d text ih =>
    rw [List.splitOnP_cons_eq_if_modifyHead] at h
    split at h
    · rcases List.mem_cons.mp h with rfl | h
      · simp
      · exact ih h
    · next hd =>
      cases hpieces : text.splitOnP p with
      | nil => exact absurd hpieces (List.splitOnP_ne_nil p text)
      | cons first pieces =>
        rw [hpieces] at h
        rcases List.mem_cons.mp h with rfl | h
        · intro c hc
          rcases List.mem_cons.mp hc with rfl | hc
          · simpa using hd
          · exact ih (by rw [hpieces]; exact List.mem_cons_self) c hc
        · exact ih (by rw [hpieces]; exact List.mem_cons_of_mem _ h)

/-- A path as it is written. -/
def pathText (path : List (List Char)) : List Char := path.flatMap ('/' :: ·)

/-- Two texts that are equal agree up to the first character of a kind and behind it. -/
theorem eq_of_append_stop {stops : Char → Bool} {a b rest' : List Char}
    (ha : ∀ c ∈ a, stops c = false) (hb : ∀ c ∈ b, stops c = false)
    (hrest : rest.head?.all stops = true) (hrest' : rest'.head?.all stops = true)
    (h : a ++ rest = b ++ rest') : a = b ∧ rest = rest' := by
  induction a generalizing b with
  | nil =>
    cases b with
    | nil => exact ⟨rfl, h⟩
    | cons c b =>
      rw [List.nil_append] at h
      rw [h] at hrest
      have hc : stops c = true := hrest
      rw [hb c List.mem_cons_self] at hc
      cases hc
  | cons c a ih =>
    cases b with
    | nil =>
      rw [List.nil_append] at h
      rw [← h] at hrest'
      have hc : stops c = true := hrest'
      rw [ha c List.mem_cons_self] at hc
      cases hc
    | cons d b =>
      obtain ⟨hcd, htail⟩ := List.cons.inj h
      obtain ⟨hab, hrests⟩ := ih (fun c hc => ha c (List.mem_cons_of_mem _ hc))
        (fun c hc => hb c (List.mem_cons_of_mem _ hc)) htail
      exact ⟨by rw [hcd, hab], hrests⟩

theorem eq_of_append_slash {a b rest' : List Char} (ha : '/' ∉ a) (hb : '/' ∉ b)
    (hrest : ∀ c ∈ rest.head?, c = '/') (hrest' : ∀ c ∈ rest'.head?, c = '/')
    (h : a ++ rest = b ++ rest') : a = b ∧ rest = rest' := by
  have hnot : ∀ l : List Char, '/' ∉ l → ∀ c ∈ l, decide (c = '/') = false := by
    rintro l hl c hc
    rw [decide_eq_false_iff_not]
    rintro rfl
    exact hl hc
  have hhead : ∀ l : List Char, (∀ c ∈ l.head?, c = '/') →
      (l.head?.all fun c => decide (c = '/')) = true := by
    intro l hl
    rw [Option.all_eq_true]
    exact fun c hc => decide_eq_true (hl c hc)
  exact eq_of_append_stop (hnot a ha) (hnot b hb) (hhead rest hrest) (hhead rest' hrest') h

theorem head?_pathText (path : List (List Char)) : ∀ c ∈ (pathText path).head?, c = '/' := by
  cases path with
  | nil => simp [pathText]
  | cons segment path => simp [pathText, eq_comm]

/-- The first segment of a path, read off its text. -/
theorem pathText_eq_cons {name : List Char} (hpath : ∀ segment ∈ path, '/' ∉ segment)
    (hname : '/' ∉ name) (hrest : ∀ c ∈ rest.head?, c = '/') :
    pathText path = '/' :: (name ++ rest) ↔
      ∃ tail, path = name :: tail ∧ pathText tail = rest := by
  constructor
  · intro h
    cases path with
    | nil => cases h
    | cons segment tail =>
      have htext : segment ++ pathText tail = name ++ rest := (List.cons.inj h).2
      obtain ⟨hsegment, htail⟩ := eq_of_append_slash (hpath segment List.mem_cons_self) hname
        (head?_pathText tail) hrest htext
      exact ⟨tail, by rw [hsegment], htail⟩
  · rintro ⟨tail, rfl, rfl⟩
    rfl

/-- A path that begins with names and goes on, read off its text. -/
theorem isPrefix_pathText_iff {names : List (List Char)} (hpath : ∀ s ∈ path, '/' ∉ s)
    (hnames : ∀ s ∈ names, '/' ∉ s) :
    pathText names ++ ['/'] <+: pathText path ↔ ∃ next rest, path = names ++ next :: rest := by
  constructor
  · rintro ⟨after, hafter⟩
    rw [List.append_assoc] at hafter
    induction names generalizing path with
    | nil =>
      cases path with
      | nil => cases hafter
      | cons next rest => exact ⟨next, rest, rfl⟩
    | cons name names ih =>
      have hhead : ∀ c ∈ (pathText names ++ (['/'] ++ after)).head?, c = '/' := by
        cases names with
        | nil => simp [pathText, eq_comm]
        | cons _ _ => simp [pathText, eq_comm]
      have htext : pathText path = '/' :: (name ++ (pathText names ++ (['/'] ++ after))) := by
        rw [← hafter, pathText, pathText, List.flatMap_cons]
        simp
      obtain ⟨tail, rfl, htail⟩ :=
        (pathText_eq_cons hpath (hnames name List.mem_cons_self) hhead).mp htext
      obtain ⟨next, rest, rfl⟩ := ih (fun s hs => hpath s (List.mem_cons_of_mem _ hs))
        (fun s hs => hnames s (List.mem_cons_of_mem _ hs)) htail.symm
      exact ⟨next, rest, rfl⟩
  · rintro ⟨next, rest, rfl⟩
    refine ⟨next ++ pathText rest, ?_⟩
    simp [pathText]

theorem pathText_injective {path' : List (List Char)} (hpath : ∀ s ∈ path, '/' ∉ s)
    (hpath' : ∀ s ∈ path', '/' ∉ s) (h : pathText path = pathText path') : path = path' := by
  induction path' generalizing path with
  | nil =>
    cases path with
    | nil => rfl
    | cons _ _ => cases h
  | cons name names ih =>
    obtain ⟨tail, rfl, htail⟩ := (pathText_eq_cons hpath (hpath' name List.mem_cons_self)
      (head?_pathText names)).mp h
    rw [ih (fun s hs => hpath s (List.mem_cons_of_mem _ hs))
      (fun s hs => hpath' s (List.mem_cons_of_mem _ hs)) htail]

end Lib.UrlPath
