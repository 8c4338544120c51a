import Mathlib.Data.List.Perm.Basic
import SuiId.Core.CacheFreshness

/-!
# Combining `Cache-Control`

The field values of a response are joined with commas and the joined text is cut again, at the
commas outside of quoted strings.  The first section is about that cut: the pieces of a text are
elements, which close the quoted strings they open, and elements that are joined with commas are
the pieces of what they make (`cutList_eq_some_iff`).

An element then says nothing, or one of the five recognised directives (`readings`).  What
`parse_cache_control` makes of a list depends on its size, on its characters, and on what its
elements say, in any order (`parseCacheControl_ok_iff`).
-/

namespace SuiId.CacheFreshness

open Lib Lib.Result

variable {inQuotes : Bool} {element xs e e' : List Char} {es es' : List (List Char)}
  {fieldValues fieldValues' : List String} {d : CacheDirectives}

/-! ## The cut -/

/-- One element of a list: it has no comma outside of its quoted strings, and closes them. -/
def IsElement (e : List Char) : Prop := cutList false [] e = some [e]

/-- Behind a text that closes its quoted strings a comma ends an element. -/
theorem cutList_append (ys : List Char) (h : cutList inQuotes element xs = some es) :
    cutList inQuotes element (xs ++ ',' :: ys) = (cutList false [] ys).map (es ++ ·) := by
  induction inQuotes, element, xs using cutList.induct generalizing es with
  | case1 element => cases h
  | case2 inQuotes element hopen =>
    rw [Bool.not_eq_true] at hopen
    subst hopen
    cases h
    rw [List.nil_append, cutList, if_pos rfl]
    rfl
  | case3 element =>
    rw [cutList, if_pos rfl] at h
    cases h
    show cutList true element (quote :: ',' :: ys) = _
    have houtside : decide (quote ≠ quote) = false := by decide
    rw [cutList, if_neg (by decide), houtside, cutList, if_pos rfl]
    rfl
  | case4 element c hc =>
    rw [cutList, if_neg hc] at h
    cases h
  | case5 element d cs ih =>
    rw [cutList, if_pos rfl] at h
    show cutList true element (backslash :: d :: (cs ++ ',' :: ys)) = _
    rw [cutList, if_pos rfl]
    exact ih h
  | case6 element c d cs hc ih =>
    rw [cutList, if_neg hc] at h
    show cutList true element (c :: d :: (cs ++ ',' :: ys)) = _
    rw [cutList, if_neg hc]
    exact ih h
  | case7 element cs ih =>
    rw [cutList, if_pos rfl, Option.map_eq_some_iff] at h
    obtain ⟨rest, hrest, rfl⟩ := h
    show cutList false element (',' :: (cs ++ ',' :: ys)) = _
    rw [cutList, if_pos rfl, ih hrest, Option.map_map]
    rfl
  | case8 element c cs hc ih =>
    rw [cutList, if_neg hc] at h
    show cutList false element (c :: (cs ++ ',' :: ys)) = _
    rw [cutList, if_neg hc]
    exact ih h

/-- The pieces are the text again, and each is an element.  The first may go on from what has
been read before. -/
private theorem cutList_pieces (h : cutList inQuotes element xs = some es) :
    ∃ e rest, es = (element.reverse ++ e) :: rest ∧ [','].intercalate (e :: rest) = xs ∧
      (∀ element', cutList inQuotes element' e = some [element'.reverse ++ e]) ∧
      ∀ e ∈ rest, IsElement e := by
  induction inQuotes, element, xs using cutList.induct generalizing es with
  | case1 element => cases h
  | case2 inQuotes element hopen =>
    rw [Bool.not_eq_true] at hopen
    subst hopen
    cases h
    refine ⟨[], [], by simp, by simp, fun element' => ?_, by simp⟩
    simp [cutList]
  | case3 element =>
    rw [cutList, if_pos rfl] at h
    cases h
    refine ⟨[quote], [], by simp, by simp, fun element' => ?_, by simp⟩
    simp [cutList]
  | case4 element c hc =>
    rw [cutList, if_neg hc] at h
    cases h
  | case5 element d cs ih =>
    rw [cutList, if_pos rfl] at h
    obtain ⟨e, rest, rfl, htext, hcut, hrest⟩ := ih h
    refine ⟨backslash :: d :: e, rest, by simp, by simp [htext], fun element' => ?_, hrest⟩
    rw [cutList, if_pos rfl, hcut]
    simp
  | case6 element c d cs hc ih =>
    rw [cutList, if_neg hc] at h
    obtain ⟨e, rest, rfl, htext, hcut, hrest⟩ := ih h
    refine ⟨c :: e, rest, by simp, by simp [htext], fun element' => ?_, hrest⟩
    have hnext := hcut (c :: element')
    cases e with
    | nil =>
      -- A text that ends here ends outside of quotes.
      by_cases hquote : c = quote
      · rw [cutList, if_pos hquote]
        simp
      · rw [decide_eq_true hquote] at hnext
        cases hnext
    | cons d' e' =>
      rw [cutList, if_neg hc, hnext]
      simp
  | case7 element cs ih =>
    rw [cutList, if_pos rfl, Option.map_eq_some_iff] at h
    obtain ⟨pieces, hpieces, rfl⟩ := h
    obtain ⟨e, rest, rfl, htext, hcut, hrest⟩ := ih hpieces
    have helement : IsElement e := hcut []
    refine ⟨[], e :: rest, by simp, by simp [htext], fun element' => ?_, ?_⟩
    · simp [cutList]
    · rw [List.forall_mem_cons]
      exact ⟨helement, hrest⟩
  | case8 element c cs hc ih =>
    rw [cutList, if_neg hc] at h
    obtain ⟨e, rest, rfl, htext, hcut, hrest⟩ := ih h
    refine ⟨c :: e, rest, by simp, by simp [htext], fun element' => ?_, hrest⟩
    rw [cutList, if_neg hc, hcut]
    simp

/-- Elements are the pieces of what they make with commas, and no text has other pieces. -/
theorem cutList_eq_some_iff :
    cutList false [] xs = some es ↔
      es ≠ [] ∧ [','].intercalate es = xs ∧ ∀ e ∈ es, IsElement e := by
  constructor
  · intro h
    obtain ⟨e, rest, rfl, htext, hcut, hrest⟩ := cutList_pieces h
    have helement : IsElement e := hcut []
    refine ⟨List.cons_ne_nil _ _, htext, ?_⟩
    rw [List.forall_mem_cons]
    exact ⟨helement, hrest⟩
  · rintro ⟨hne, rfl, helements⟩
    induction es with
    | nil => exact absurd rfl hne
    | cons e rest ih =>
      have helement : cutList false [] e = some [e] := helements e List.mem_cons_self
      cases rest with
      | nil => rwa [List.intercalate_singleton]
      | cons e' rest =>
        have hrest := ih (List.cons_ne_nil _ _) fun e he => helements e (List.mem_cons_of_mem _ he)
        rw [List.intercalate_cons_cons, List.append_assoc]
        show cutList false [] (e ++ ',' :: [','].intercalate (e' :: rest)) = _
        rw [cutList_append _ helement, hrest]
        rfl

/-! ## Letter case -/

/-- The cut does not read letters. -/
theorem cutList_toLower (inQuotes : Bool) (element xs : List Char) :
    cutList inQuotes (element.map Char.toLower) (xs.map Char.toLower) =
      (cutList inQuotes element xs).map (List.map (List.map Char.toLower)) := by
  have hquote {c : Char} : c.toLower = quote ↔ c = quote := Text.toLower_eq_iff (by decide)
  have hbackslash {c : Char} : c.toLower = backslash ↔ c = backslash :=
    Text.toLower_eq_iff (by decide)
  have hcomma {c : Char} : c.toLower = ',' ↔ c = ',' := Text.toLower_eq_iff (by decide)
  induction inQuotes, element, xs using cutList.induct with
  | case1 element => rfl
  | case2 inQuotes element hopen =>
    rw [Bool.not_eq_true] at hopen
    subst hopen
    simp [cutList]
  | case3 element =>
    rw [List.map_singleton, cutList, cutList, if_pos rfl, if_pos (hquote.mpr rfl)]
    simp
  | case4 element c hc =>
    rw [List.map_singleton, cutList, cutList, if_neg hc, if_neg (hquote.not.mpr hc)]
    rfl
  | case5 element d cs ih =>
    rw [List.map_cons, List.map_cons, cutList, cutList, if_pos rfl, if_pos (hbackslash.mpr rfl)]
    exact ih
  | case6 element c d cs hc ih =>
    rw [List.map_cons, List.map_cons, cutList, cutList, if_neg hc, if_neg (hbackslash.not.mpr hc)]
    have hstate : decide (c.toLower ≠ quote) = decide (c ≠ quote) :=
      decide_eq_decide.mpr hquote.not
    rw [hstate]
    exact ih
  | case7 element cs ih =>
    rw [List.map_cons, cutList, cutList, if_pos rfl, if_pos (hcomma.mpr rfl)]
    rw [List.map_nil] at ih
    rw [ih, Option.map_map, Option.map_map]
    congr 1
    funext pieces
    simp
  | case8 element c cs hc ih =>
    rw [List.map_cons, cutList, cutList, if_neg hc, if_neg (hcomma.not.mpr hc)]
    have hstate : decide (c.toLower = quote) = decide (c = quote) := decide_eq_decide.mpr hquote
    rw [hstate]
    exact ih

/-- An element in another letter case is an element. -/
theorem IsElement.of_toLower (h : IsElement e) (hcase : e'.map Char.toLower = e.map Char.toLower) :
    IsElement e' := by
  have hlower := cutList_toLower false [] e'
  rw [hcase, cutList_toLower false [] e, show cutList false [] e = some [e] from h] at hlower
  obtain ⟨pieces, hpieces, hone⟩ := Option.map_eq_some_iff.mp hlower.symm
  obtain ⟨-, htext, -⟩ := cutList_eq_some_iff.mp hpieces
  have hlength : pieces.length = 1 := by
    have hsame := congrArg List.length hone
    rwa [List.length_map] at hsame
  obtain ⟨piece, rfl⟩ := List.length_eq_one_iff.mp hlength
  rw [List.intercalate_singleton] at htext
  rw [IsElement, hpieces, htext]

/-! ## What an element says -/

/-- A recognised directive. -/
inductive Recognised where
  | noStore
  | noCache
  | mustRevalidate
  | maxAge (duration : Nat)
  | sMaxage (duration : Nat)
deriving DecidableEq, Repr

def Recognised.name : Recognised → String
  | .noStore => "no-store"
  | .noCache => "no-cache"
  | .mustRevalidate => "must-revalidate"
  | .maxAge _ => "max-age"
  | .sMaxage _ => "s-maxage"

/-- No directive at all. -/
def noDirectives : CacheDirectives := ⟨false, false, false, none, none⟩

/-- What one directive sets. -/
def Recognised.alone : Recognised → CacheDirectives
  | .noStore => { noDirectives with noStore := true }
  | .noCache => { noDirectives with noCache := true }
  | .mustRevalidate => { noDirectives with mustRevalidate := true }
  | .maxAge duration => { noDirectives with maxAge := some duration }
  | .sMaxage duration => { noDirectives with sMaxage := some duration }

/-- The directives of both. -/
def CacheDirectives.union (a b : CacheDirectives) : CacheDirectives where
  noStore := a.noStore || b.noStore
  noCache := a.noCache || b.noCache
  mustRevalidate := a.mustRevalidate || b.mustRevalidate
  maxAge := a.maxAge.or b.maxAge
  sMaxage := a.sMaxage.or b.sMaxage

/-- The recognised directive of a name and a value, if the name has one. -/
def recognise (name : String) (value : Option String) :
    Except CacheValidationError (Option Recognised) :=
  match String.ofList (name.toList.map Char.toLower) with
  | "no-store" => (flagDirective "no-store" value).map fun _ => some .noStore
  | "no-cache" => (flagDirective "no-cache" value).map fun _ => some .noCache
  | "must-revalidate" => (flagDirective "must-revalidate" value).map fun _ => some .mustRevalidate
  | "max-age" => (deltaSecondsDirective "max-age" value).map fun duration => some (.maxAge duration)
  | "s-maxage" =>
    (deltaSecondsDirective "s-maxage" value).map fun duration => some (.sMaxage duration)
  | _ => .ok none

/-- An element of the cut.  One that is blank is left out. -/
def readElement (e : List Char) : Except CacheValidationError (Option Recognised) := do
  let elem := Text.trim (String.ofList e)
  if elem.isEmpty then return none
  else
    let (name, value) ← parseDirective elem
    recognise name value

/-- One more directive, in what has been parsed. -/
def Parsed.add (parsed : Parsed) : Option Recognised → Parsed
  | none => parsed
  | some r => ⟨r.name :: parsed.seen, r.alone.union parsed.directives⟩

variable {parsed parsed' : Parsed} {name v : String} {rs : List Recognised}

theorem Parsed.see_ok :
    parsed.see name = .ok parsed' ↔
      name ∉ parsed.seen ∧ parsed' = ⟨name :: parsed.seen, parsed.directives⟩ := by
  unfold Parsed.see
  by_cases h : name ∈ parsed.seen
  · simp [h]
  · simp [h, eq_comm]

/-- The branch of a recognised directive: it has not been seen, its value is read, and it is
added. -/
private theorem directive_branch {α : Type} {value : Except CacheValidationError α}
    (said : α → Recognised) (set : Parsed → α → Parsed) (hname : ∀ a, (said a).name = name)
    (hset : ∀ a, set ⟨name :: parsed.seen, parsed.directives⟩ a = parsed.add (some (said a))) :
    (do
      let parsed ← parsed.see name
      let a ← value
      return set parsed a) = .ok parsed' ↔
    ∃ r, (value.map fun a => some (said a)) = .ok r ∧ (∀ d ∈ r, d.name ∉ parsed.seen) ∧
      parsed' = parsed.add r := by
  simp only [bind_eq_ok, Parsed.see_ok, pure_eq_ok, map_eq_ok]
  constructor
  · rintro ⟨-, ⟨hnew, rfl⟩, a, ha, rfl⟩
    refine ⟨some (said a), ⟨a, ha, rfl⟩, ?_, hset a⟩
    intro d hd
    cases hd
    rwa [hname]
  · rintro ⟨-, ⟨a, ha, rfl⟩, hnew, rfl⟩
    have hnew := hnew (said a) rfl
    rw [hname] at hnew
    exact ⟨_, ⟨hnew, rfl⟩, a, ha, hset a⟩

/-- A directive of the list adds what it says, unless that has been said. -/
theorem Parsed.directive_ok {elem : String} :
    parsed.directive elem = .ok parsed' ↔
      ∃ name value, parseDirective elem = .ok (name, value) ∧
        ∃ r, recognise name value = .ok r ∧ (∀ d ∈ r, d.name ∉ parsed.seen) ∧
          parsed' = parsed.add r := by
  rw [Parsed.directive, bind_eq_ok, Prod.exists]
  refine exists_congr fun name => exists_congr fun value => and_congr_right fun _ => ?_
  unfold recognise
  dsimp only
  generalize String.ofList (name.toList.map Char.toLower) = lower
  by_cases hstore : lower = "no-store"
  · subst hstore
    exact directive_branch (fun _ => .noStore)
      (fun parsed _ => { parsed with directives := { parsed.directives with noStore := true } })
      (fun _ => rfl) fun _ => rfl
  by_cases hcache : lower = "no-cache"
  · subst hcache
    exact directive_branch (fun _ => .noCache)
      (fun parsed _ => { parsed with directives := { parsed.directives with noCache := true } })
      (fun _ => rfl) fun _ => rfl
  by_cases hrevalidate : lower = "must-revalidate"
  · subst hrevalidate
    exact directive_branch (fun _ => .mustRevalidate)
      (fun parsed _ =>
        { parsed with directives := { parsed.directives with mustRevalidate := true } })
      (fun _ => rfl) fun _ => rfl
  by_cases hage : lower = "max-age"
  · subst hage
    exact directive_branch .maxAge
      (fun parsed secs =>
        { parsed with directives := { parsed.directives with maxAge := some secs } })
      (fun _ => rfl) fun _ => rfl
  by_cases hshared : lower = "s-maxage"
  · subst hshared
    exact directive_branch .sMaxage
      (fun parsed secs =>
        { parsed with directives := { parsed.directives with sMaxage := some secs } })
      (fun _ => rfl) fun _ => rfl
  simp only [pure_eq_ok]
  constructor
  · rintro rfl
    exact ⟨none, rfl, by simp, rfl⟩
  · rintro ⟨r, hr, -, rfl⟩
    cases hr
    rfl

/-- What an element says, where it can be read. -/
def readings (e : List Char) : List Recognised :=
  match readElement e with
  | .ok (some r) => [r]
  | _ => []

def Readable (e : List Char) : Prop := ∃ r, readElement e = .ok r

private theorem readings_eq {r : Option Recognised} (h : readElement e = .ok r) :
    readings e = r.toList := by
  unfold readings
  rw [h]
  cases r with
  | none => rfl
  | some r => rfl

/-- An element that is blank says nothing. -/
private theorem readElement_blank (h : (Text.trim (String.ofList e)).isEmpty = true) :
    readElement e = .ok none := by
  unfold readElement
  dsimp only
  rw [if_pos h]
  rfl

private theorem readElement_ok {r : Option Recognised}
    (h : ¬(Text.trim (String.ofList e)).isEmpty = true) :
    readElement e = .ok r ↔
      ∃ name value, parseDirective (Text.trim (String.ofList e)) = .ok (name, value) ∧
        recognise name value = .ok r := by
  unfold readElement
  dsimp only
  rw [if_neg h, bind_eq_ok, Prod.exists]

/-- The directives of a list, which the later ones add to. -/
def Parsed.addAll (parsed : Parsed) (rs : List Recognised) : Parsed :=
  rs.foldl (fun parsed r => parsed.add (some r)) parsed

/-- The walk over the elements: each can be read, and no recognised directive is said twice. -/
theorem foldlM_directive_ok :
    ((es.map fun e => Text.trim (String.ofList e)).filter fun e => !e.isEmpty).foldlM
        Parsed.directive parsed = .ok parsed' ↔
      (∀ e ∈ es, Readable e) ∧ ((es.flatMap readings).map Recognised.name).Nodup ∧
        (∀ r ∈ es.flatMap readings, r.name ∉ parsed.seen) ∧
        parsed' = parsed.addAll (es.flatMap readings) := by
  induction es generalizing parsed with
  | nil =>
    show Except.ok parsed = _ ↔ _
    simp [Parsed.addAll, eq_comm]
  | cons e es ih =>
    rw [List.map_cons, List.forall_mem_cons, List.flatMap_cons]
    by_cases hblank : (Text.trim (String.ofList e)).isEmpty = true
    · have hread := readElement_blank hblank
      have hreadable : Readable e := ⟨none, hread⟩
      rw [List.filter_cons_of_neg (by simpa using hblank), ih, readings_eq hread]
      simp [hreadable]
    · rw [List.filter_cons_of_pos (by simpa using hblank), List.foldlM_cons, bind_eq_ok]
      constructor
      · rintro ⟨next, hnext, h⟩
        obtain ⟨name, value, hparse, r, hr, hnew, rfl⟩ := Parsed.directive_ok.mp hnext
        have hread : readElement e = .ok r := (readElement_ok hblank).mpr ⟨_, _, hparse, hr⟩
        obtain ⟨hreadable, hnodup, hunseen, rfl⟩ := ih.mp h
        refine ⟨⟨⟨r, hread⟩, hreadable⟩, ?_⟩
        rw [readings_eq hread]
        cases r with
        | none => exact ⟨hnodup, hunseen, rfl⟩
        | some r =>
          have hunseen' : ∀ r' ∈ es.flatMap readings, r'.name ≠ r.name ∧ r'.name ∉ parsed.seen := by
            intro r' hr'
            have hnot := hunseen r' hr'
            rw [Parsed.add, List.mem_cons, not_or] at hnot
            exact hnot
          refine ⟨?_, ?_, rfl⟩
          · rw [Option.toList_some, List.singleton_append, List.map_cons, List.nodup_cons]
            refine ⟨fun hmem => ?_, hnodup⟩
            obtain ⟨r', hr', hsame⟩ := List.mem_map.mp hmem
            exact (hunseen' r' hr').1 hsame
          · rw [Option.toList_some, List.singleton_append, List.forall_mem_cons]
            exact ⟨hnew r rfl, fun r' hr' => (hunseen' r' hr').2⟩
      · rintro ⟨⟨⟨r, hread⟩, hreadable⟩, hnodup, hunseen, hresult⟩
        obtain ⟨name, value, hparse, hr⟩ := (readElement_ok hblank).mp hread
        rw [readings_eq hread] at hnodup hunseen hresult
        have hnew : ∀ d ∈ r, d.name ∉ parsed.seen := fun d hd =>
          hunseen d (List.mem_append_left _ (Option.mem_toList.mpr hd))
        have hstep : parsed.directive (Text.trim (String.ofList e)) = .ok (parsed.add r) :=
          Parsed.directive_ok.mpr ⟨name, value, hparse, r, hr, hnew, rfl⟩
        have hsame : parsed.addAll (r.toList ++ es.flatMap readings) =
            (parsed.add r).addAll (es.flatMap readings) := by
          cases r with
          | none => rfl
          | some r => rfl
        refine ⟨parsed.add r, hstep, ih.mpr ⟨hreadable, ?_, ?_, hresult.trans hsame⟩⟩
        · rw [List.map_append] at hnodup
          exact (List.nodup_append.mp hnodup).2.1
        · intro r' hr'
          have hbefore := hunseen r' (List.mem_append_right _ hr')
          cases r with
          | none => exact hbefore
          | some r =>
            rw [Option.toList_some, List.singleton_append, List.map_cons, List.nodup_cons] at hnodup
            rw [Parsed.add, List.mem_cons, not_or]
            exact ⟨fun hsame => hnodup.1 (List.mem_map.mpr ⟨r', hr', hsame⟩), hbefore⟩

/-! ## What a list says -/

theorem CacheDirectives.union_assoc (a b c : CacheDirectives) :
    (a.union b).union c = a.union (b.union c) := by
  simp [CacheDirectives.union, Bool.or_assoc, Option.or_assoc]

@[simp] theorem CacheDirectives.noDirectives_union (a : CacheDirectives) :
    noDirectives.union a = a := by
  simp [CacheDirectives.union, noDirectives]

@[simp] theorem CacheDirectives.union_noDirectives (a : CacheDirectives) :
    a.union noDirectives = a := by
  simp [CacheDirectives.union, noDirectives]

/-- The directives of a list, all together. -/
def collect (rs : List Recognised) : CacheDirectives :=
  rs.foldr (fun r directives => r.alone.union directives) noDirectives

theorem collect_append (rs rs' : List Recognised) :
    collect (rs ++ rs') = (collect rs).union (collect rs') := by
  induction rs with
  | nil => simp [collect]
  | cons r rs ih =>
    show r.alone.union (collect (rs ++ rs')) = (r.alone.union (collect rs)).union (collect rs')
    rw [ih, CacheDirectives.union_assoc]

private theorem alone_union_comm {r r' : Recognised} (h : r.name ≠ r'.name)
    (a : CacheDirectives) :
    r'.alone.union (r.alone.union a) = r.alone.union (r'.alone.union a) := by
  cases r <;> cases r' <;> first | rfl | exact absurd rfl h

/-- Distinct directives say the same in any order. -/
theorem collect_perm {rs' : List Recognised} (hperm : rs.Perm rs')
    (hnodup : (rs.map Recognised.name).Nodup) : collect rs = collect rs' := by
  refine hperm.foldr_eq' (fun r hr r' hr' a => ?_) noDirectives
  by_cases hsame : r.name = r'.name
  · rw [List.inj_on_of_nodup_map hnodup hr hr' hsame]
  · exact alone_union_comm hsame a

private theorem addAll_directives (parsed : Parsed) (rs : List Recognised) :
    (parsed.addAll rs).directives = (collect rs.reverse).union parsed.directives := by
  induction rs generalizing parsed with
  | nil => simp [Parsed.addAll, collect]
  | cons r rs ih =>
    have hone : (parsed.add (some r)).directives = (collect [r]).union parsed.directives := by
      simp [Parsed.add, collect]
    rw [Parsed.addAll, List.foldl_cons, ← Parsed.addAll, ih, hone, List.reverse_cons,
      collect_append,
      CacheDirectives.union_assoc]

/-- A character that may stand in a field value. -/
def FieldChar (c : Char) : Prop :=
  c ≠ '\r' ∧ c ≠ '\n' ∧ (0x20 ≤ c.toNat ∨ c = '\t') ∧ c.toNat ≠ 0x7f

private theorem splitHttpList_ok {combined : String} {elements : List String} :
    splitHttpList combined = .ok elements ↔
      ∃ es, cutList false [] combined.toList = some es ∧
        elements = (es.map fun e => Text.trim (String.ofList e)).filter fun e => !e.isEmpty := by
  unfold splitHttpList
  cases hcut : cutList false [] combined.toList with
  | none => simp
  | some es => simp [eq_comm]

/-- What is made of a list: its size and its characters, and what its elements say. -/
theorem parseCacheControl_ok_iff :
    parseCacheControl fieldValues = .ok d ↔
      (String.intercalate "," fieldValues).utf8ByteSize ≤ maxCacheControlLen ∧
      (∀ c ∈ (String.intercalate "," fieldValues).toList, FieldChar c) ∧
      ∃ es, cutList false [] (String.intercalate "," fieldValues).toList = some es ∧
        (∀ e ∈ es, Readable e) ∧ ((es.flatMap readings).map Recognised.name).Nodup ∧
        d = collect (es.flatMap readings) := by
  have hchars (cs : List Char) :
      (∀ c ∈ cs, FieldChar c) ↔
        (cs.all fun c => c ≠ '\r' && c ≠ '\n') = true ∧
          (cs.all fun c => (0x20 ≤ c.toNat || c = '\t') && c.toNat ≠ 0x7f) = true := by
    simp only [List.all_eq_true, Bool.and_eq_true, Bool.or_eq_true, decide_eq_true_eq, ne_eq,
      decide_not, Bool.not_eq_true', decide_eq_false_iff_not, ← forall_and, FieldChar, and_assoc]
  have hwalk (es : List (List Char)) :
      (∃ parsed, ((es.map fun e => Text.trim (String.ofList e)).filter fun e => !e.isEmpty).foldlM
          Parsed.directive { seen := [], directives := noDirectives } = .ok parsed ∧
          parsed.directives = d) ↔
        (∀ e ∈ es, Readable e) ∧ ((es.flatMap readings).map Recognised.name).Nodup ∧
          d = collect (es.flatMap readings) := by
    simp only [foldlM_directive_ok]
    constructor
    · rintro ⟨parsed, ⟨hreadable, hnodup, -, rfl⟩, rfl⟩
      refine ⟨hreadable, hnodup, ?_⟩
      rw [addAll_directives, CacheDirectives.union_noDirectives]
      exact (collect_perm (List.reverse_perm _).symm hnodup).symm
    · rintro ⟨hreadable, hnodup, rfl⟩
      refine ⟨_, ⟨hreadable, hnodup, fun r _ => List.not_mem_nil, rfl⟩, ?_⟩
      rw [addAll_directives, CacheDirectives.union_noDirectives]
      exact (collect_perm (List.reverse_perm _).symm hnodup).symm
  rw [hchars]
  simp only [parseCacheControl, bind_eq_ok, ensure_eq_ok, pure_eq_ok, splitHttpList_ok]
  constructor
  · rintro ⟨-, hsize, -, hfold, -, hcontrol, elements, ⟨es, hcut, rfl⟩, hwalked⟩
    exact ⟨of_decide_eq_true hsize, ⟨hfold, hcontrol⟩, es, hcut, (hwalk es).mp hwalked⟩
  · rintro ⟨hsize, ⟨hfold, hcontrol⟩, es, hcut, hsaid⟩
    exact ⟨(), decide_eq_true hsize, (), hfold, (), hcontrol, _, ⟨es, hcut, rfl⟩,
      (hwalk es).mpr hsaid⟩

/-! ## Field values that are joined -/

/-- The elements of a field value by itself. -/
def pieces (v : String) : List (List Char) := (cutList false [] v.toList).getD []

/-- The value closes every quoted string that it opens. -/
def Closed (v : String) : Prop := ∃ elements, splitHttpList v = .ok elements

private theorem Closed.cut (h : Closed v) :
    cutList false [] v.toList = some (pieces v) := by
  obtain ⟨elements, helements⟩ := h
  obtain ⟨es, hcut, -⟩ := splitHttpList_ok.mp helements
  rw [pieces, hcut]
  rfl

private theorem toList_join_cons (hne : fieldValues ≠ []) :
    (String.intercalate "," (v :: fieldValues)).toList =
      v.toList ++ ',' :: (String.intercalate "," fieldValues).toList := by
  rw [String.intercalate_cons_of_ne_nil hne, String.toList_append, String.toList_append,
    List.append_assoc]
  rfl

/-- No field value swallows the comma behind it: the elements of the list are those of its field
values. -/
theorem cutList_join (hclosed : ∀ v ∈ fieldValues, Closed v) (hne : fieldValues ≠ []) :
    cutList false [] (String.intercalate "," fieldValues).toList =
      some (fieldValues.flatMap pieces) := by
  induction fieldValues with
  | nil => exact absurd rfl hne
  | cons v rest ih =>
    rw [List.forall_mem_cons] at hclosed
    have hv := hclosed.1.cut
    by_cases hrest : rest = []
    · subst hrest
      rw [String.intercalate_singleton, hv]
      simp
    · rw [toList_join_cons hrest, cutList_append _ hv, ih hclosed.2 hrest]
      rfl

private theorem mem_intercalate {c : Char} :
    c ∈ [','].intercalate es → c = ',' ∨ ∃ e ∈ es, c ∈ e := by
  intro h
  induction es with
  | nil => exact absurd h List.not_mem_nil
  | cons e rest ih =>
    by_cases hrest : rest = []
    · subst hrest
      rw [List.intercalate_singleton] at h
      exact Or.inr ⟨e, List.mem_singleton.mpr rfl, h⟩
    · rw [List.intercalate_cons_of_ne_nil hrest, List.append_assoc, List.mem_append,
        List.mem_append, List.mem_singleton] at h
      rcases h with h | rfl | h
      · exact Or.inr ⟨e, List.mem_cons_self, h⟩
      · exact Or.inl rfl
      · rcases ih h with rfl | ⟨e', he', hc⟩
        · exact Or.inl rfl
        · exact Or.inr ⟨e', List.mem_cons_of_mem _ he', hc⟩

private theorem subset_intercalate (he : e ∈ es) : e ⊆ [','].intercalate es := by
  induction es with
  | nil => exact absurd he List.not_mem_nil
  | cons first rest ih =>
    by_cases hrest : rest = []
    · subst hrest
      rw [List.mem_singleton] at he
      rw [he, List.intercalate_singleton]
      exact List.Subset.refl _
    · rw [List.intercalate_cons_of_ne_nil hrest]
      rcases List.mem_cons.mp he with rfl | he
      · exact fun c hc => List.mem_append_left _ (List.mem_append_left _ hc)
      · exact List.Subset.trans (ih he) (List.subset_append_right _ _)

/-- A list in another order is as long, and has the same characters. -/
theorem join_perm (h : fieldValues.Perm fieldValues') :
    (String.intercalate "," fieldValues).toList.Perm
      (String.intercalate "," fieldValues').toList := by
  have hcommas (l : List String) (hl : l ≠ []) :
      (String.intercalate "," l).toList ++ [','] = l.flatMap fun v => v.toList ++ [','] := by
    induction l with
    | nil => exact absurd rfl hl
    | cons v rest ih =>
      by_cases hrest : rest = []
      · subst hrest
        simp
      · rw [toList_join_cons hrest, List.flatMap_cons, ← ih hrest]
        simp
  by_cases hempty : fieldValues = []
  · subst hempty
    rw [List.nil_perm.mp h]
  · have hempty' : fieldValues' ≠ [] := fun hnil => hempty (List.perm_nil.mp (hnil ▸ h))
    rw [← List.perm_append_right_iff [','], hcommas _ hempty, hcommas _ hempty']
    exact h.flatMap_right _

private theorem size_of_perm {s t : String} (h : s.toList.Perm t.toList) :
    s.utf8ByteSize = t.utf8ByteSize := by
  rw [Text.utf8ByteSize_eq_sum, Text.utf8ByteSize_eq_sum]
  exact (h.map _).sum_nat

/-! ## The names of a result -/

/-- The recognised directives that a result has. -/
def CacheDirectives.names (d : CacheDirectives) : List String :=
  (if d.noStore then ["no-store"] else []) ++ (if d.noCache then ["no-cache"] else []) ++
    (if d.mustRevalidate then ["must-revalidate"] else []) ++
    (if d.maxAge.isSome then ["max-age"] else []) ++
    (if d.sMaxage.isSome then ["s-maxage"] else [])

private theorem mem_names :
    name ∈ d.names ↔ (d.noStore = true ∧ name = "no-store") ∨
      (d.noCache = true ∧ name = "no-cache") ∨
      (d.mustRevalidate = true ∧ name = "must-revalidate") ∨
      (d.maxAge.isSome = true ∧ name = "max-age") ∨
      (d.sMaxage.isSome = true ∧ name = "s-maxage") := by
  have hone (p : Bool) (n : String) :
      name ∈ (if p = true then [n] else []) ↔ p = true ∧ name = n := by
    cases p <;> simp
  simp only [CacheDirectives.names, List.mem_append, hone, or_assoc]

private theorem mem_names_union {a b : CacheDirectives} :
    name ∈ (a.union b).names ↔ name ∈ a.names ∨ name ∈ b.names := by
  simp only [mem_names, CacheDirectives.union, Bool.or_eq_true, Option.isSome_or, or_and_right]
  apply Eq.to_iff
  ac_rfl

private theorem nodup_names (d : CacheDirectives) : d.names.Nodup := by
  have hall (p q r s t : Bool) :
      ((if p then ["no-store"] else []) ++ (if q then ["no-cache"] else []) ++
        (if r then ["must-revalidate"] else []) ++ (if s then ["max-age"] else []) ++
        (if t then ["s-maxage"] else [])).Nodup := by
    revert p q r s t
    decide
  exact hall ..

private theorem mem_names_collect :
    name ∈ (collect rs).names ↔ name ∈ rs.map Recognised.name := by
  induction rs with
  | nil => simp [collect, noDirectives, CacheDirectives.names]
  | cons r rs ih =>
    show name ∈ (r.alone.union (collect rs)).names ↔ _
    have hone : r.alone.names = [r.name] := by
      cases r <;> rfl
    rw [mem_names_union, ih, hone, List.map_cons, List.mem_cons, List.mem_cons,
      or_iff_left List.not_mem_nil]

private theorem names_collect_perm (hnodup : (rs.map Recognised.name).Nodup) :
    (rs.map Recognised.name).Perm (collect rs).names := by
  rw [List.perm_ext_iff_of_nodup hnodup (nodup_names _)]
  intro name
  exact mem_names_collect.symm

/-! ## Lists of field values -/

private theorem parseCacheControl_singleton (h : parseCacheControl [v] = .ok d) :
    (∀ c ∈ v.toList, FieldChar c) ∧ Closed v ∧ (∀ e ∈ pieces v, Readable e) ∧
      (((pieces v).flatMap readings).map Recognised.name).Nodup ∧
      d = collect ((pieces v).flatMap readings) := by
  obtain ⟨-, hchars, es, hcut, hreadable, hnodup, rfl⟩ := parseCacheControl_ok_iff.mp h
  rw [String.intercalate_singleton] at hchars hcut
  have hclosed : Closed v := ⟨_, splitHttpList_ok.mpr ⟨es, hcut, rfl⟩⟩
  have hpieces : pieces v = es := Option.some.inj (hclosed.cut.symm.trans hcut)
  rw [hpieces]
  exact ⟨hchars, hclosed, hreadable, hnodup, rfl⟩

/-- Lists that are accepted one by one and say different things say it together. -/
private theorem parse_union {ds : List CacheDirectives}
    (hone : List.Forall₂ (fun v d => parseCacheControl [v] = .ok d) fieldValues ds)
    (hdistinct : (ds.flatMap CacheDirectives.names).Nodup)
    (hsize : (String.intercalate "," fieldValues).utf8ByteSize ≤ maxCacheControlLen) :
    parseCacheControl fieldValues = .ok (ds.foldr CacheDirectives.union noDirectives) := by
  by_cases hempty : fieldValues = []
  · subst hempty
    cases hone
    rfl
  have hvalues : ∀ v ∈ fieldValues, (∀ c ∈ v.toList, FieldChar c) ∧ Closed v ∧
      ∀ e ∈ pieces v, Readable e := by
    clear hempty hdistinct hsize
    induction hone with
    | nil => exact fun v hv => absurd hv List.not_mem_nil
    | @cons v d rest ds hd _ ih =>
      obtain ⟨hchars, hclosed, hreadable, -⟩ := parseCacheControl_singleton hd
      rw [List.forall_mem_cons]
      exact ⟨⟨hchars, hclosed, hreadable⟩, ih⟩
  have hresults : ds.foldr CacheDirectives.union noDirectives =
        collect ((fieldValues.flatMap pieces).flatMap readings) ∧
      (((fieldValues.flatMap pieces).flatMap readings).map Recognised.name).Perm
        (ds.flatMap CacheDirectives.names) := by
    clear hempty hdistinct hsize hvalues
    induction hone with
    | nil => exact ⟨rfl, List.Perm.refl _⟩
    | @cons v d rest ds hd _ ih =>
      obtain ⟨-, -, -, hnodup, rfl⟩ := parseCacheControl_singleton hd
      rw [List.flatMap_cons, List.flatMap_append, List.map_append, collect_append, List.foldr_cons,
        ih.1, List.flatMap_cons]
      exact ⟨rfl, (names_collect_perm hnodup).append ih.2⟩
  rw [parseCacheControl_ok_iff, hresults.1]
  refine ⟨hsize, fun c hc => ?_, _, cutList_join (fun v hv => (hvalues v hv).2.1) hempty, ?_,
    hresults.2.nodup_iff.mpr hdistinct, rfl⟩
  · rw [String.toList_intercalate] at hc
    rcases mem_intercalate hc with rfl | ⟨cs, hcs, hmem⟩
    · exact ⟨by decide, by decide, Or.inl (by decide), by decide⟩
    · obtain ⟨v, hv, rfl⟩ := List.mem_map.mp hcs
      exact (hvalues v hv).1 c hmem
  · intro e he
    obtain ⟨v, hv, hmem⟩ := List.mem_flatMap.mp he
    exact (hvalues v hv).2.2 e hmem

/-- Field values that close their quoted strings, in another order. -/
private theorem parse_perm (h : parseCacheControl fieldValues = .ok d)
    (hperm : fieldValues.Perm fieldValues') (hclosed : ∀ v ∈ fieldValues, Closed v) :
    parseCacheControl fieldValues' = .ok d := by
  by_cases hempty : fieldValues = []
  · subst hempty
    rwa [List.nil_perm.mp hperm]
  have hempty' : fieldValues' ≠ [] := fun hnil => hempty (List.perm_nil.mp (hnil ▸ hperm))
  obtain ⟨hsize, hchars, es, hcut, hreadable, hnodup, rfl⟩ := parseCacheControl_ok_iff.mp h
  have hes : es = fieldValues.flatMap pieces :=
    Option.some.inj (hcut.symm.trans (cutList_join hclosed hempty))
  subst hes
  have hclosed' : ∀ v ∈ fieldValues', Closed v := fun v hv => hclosed v (hperm.mem_iff.mpr hv)
  have hjoined := join_perm hperm
  have hpieces : (fieldValues.flatMap pieces).Perm (fieldValues'.flatMap pieces) :=
    hperm.flatMap_right _
  have hreadings := hpieces.flatMap_right readings
  rw [parseCacheControl_ok_iff, ← size_of_perm hjoined]
  refine ⟨hsize, fun c hc => hchars c (hjoined.mem_iff.mpr hc), _, cutList_join hclosed' hempty',
    fun e he => hreadable e (hpieces.mem_iff.mpr he), ?_, collect_perm hreadings hnodup⟩
  exact (hreadings.map _).nodup_iff.mp hnodup

/-- A list whose elements are others that say the same. -/
private theorem parse_rewritten (h : parseCacheControl fieldValues = .ok d)
    (hcut : cutList false [] (String.intercalate "," fieldValues).toList = some es)
    (htext : (String.intercalate "," fieldValues').toList = [','].intercalate es')
    (hne : es' ≠ []) (helements : ∀ e ∈ es', IsElement e) (hreadable : ∀ e ∈ es', Readable e)
    (hsame : es'.flatMap readings = es.flatMap readings)
    (hsize : (String.intercalate "," fieldValues').utf8ByteSize ≤ maxCacheControlLen)
    (hchars : ∀ c ∈ (String.intercalate "," fieldValues').toList, FieldChar c) :
    parseCacheControl fieldValues' = .ok d := by
  obtain ⟨-, -, es₀, hcut₀, -, hnodup, rfl⟩ := parseCacheControl_ok_iff.mp h
  have hes : es₀ = es := Option.some.inj (hcut₀.symm.trans hcut)
  subst hes
  rw [parseCacheControl_ok_iff]
  refine ⟨hsize, hchars, es', cutList_eq_some_iff.mpr ⟨hne, htext.symm, helements⟩, hreadable, ?_⟩
  rw [hsame]
  exact ⟨hnodup, rfl⟩

/-! ## Empty elements -/

/-- A list of elements with empty ones, which are spaces and tabs or nothing, anywhere in it. -/
inductive WithEmpty : List (List Char) → List (List Char) → Prop where
  | nil : WithEmpty [] []
  | keep {es es' : List (List Char)} (e : List Char) (rest : WithEmpty es es') :
      WithEmpty (e :: es) (e :: es')
  | insert {es es' : List (List Char)} (blank : List Char)
      (hblank : ∀ c ∈ blank, c = ' ' ∨ c = '\t') (rest : WithEmpty es es') :
      WithEmpty es (blank :: es')

/-- What an empty element is: one that can be read, and says nothing. -/
private theorem blank_element (hblank : ∀ c ∈ e, c = ' ' ∨ c = '\t') :
    IsElement e ∧ Readable e ∧ readings e = [] ∧ ∀ c ∈ e, FieldChar c := by
  have hcut (read cs : List Char) (hcs : ∀ c ∈ cs, c = ' ' ∨ c = '\t') :
      cutList false read cs = some [read.reverse ++ cs] := by
    induction cs generalizing read with
    | nil => simp [cutList]
    | cons c cs ih =>
      rw [List.forall_mem_cons] at hcs
      have hplain : c ≠ ',' ∧ decide (c = quote) = false := by
        rcases hcs.1 with rfl | rfl <;> decide
      rw [cutList, if_neg hplain.1, hplain.2, ih _ hcs.2]
      simp
  have hspace : ∀ c ∈ e, Text.isWhitespace c = true := by
    intro c hc
    rcases hblank c hc with rfl | rfl <;> decide
  have htrim : (Text.trim (String.ofList e)).isEmpty = true := by
    have hlist : (Text.trim (String.ofList e)).toList = [] := by
      rw [Text.toList_trim, String.toList_ofList, List.dropWhile_eq_nil_iff.mpr hspace,
        List.rdropWhile_nil]
    rw [String.toList_eq_nil_iff] at hlist
    rw [hlist]
    rfl
  have hread := readElement_blank htrim
  refine ⟨hcut [] e hblank, ⟨none, hread⟩, readings_eq hread, fun c hc => ?_⟩
  rcases hblank c hc with rfl | rfl
  · exact ⟨by decide, by decide, Or.inl (by decide), by decide⟩
  · exact ⟨by decide, by decide, Or.inr rfl, by decide⟩

private theorem parse_withEmpty (h : parseCacheControl fieldValues = .ok d)
    (hcut : cutList false [] (String.intercalate "," fieldValues).toList = some es)
    (hempty : WithEmpty es es')
    (htext : (String.intercalate "," fieldValues').toList = [','].intercalate es')
    (hsize : (String.intercalate "," fieldValues').utf8ByteSize ≤ maxCacheControlLen) :
    parseCacheControl fieldValues' = .ok d := by
  obtain ⟨-, hchars, es₀, hcut₀, hreadable, -⟩ := parseCacheControl_ok_iff.mp h
  have hes : es₀ = es := Option.some.inj (hcut₀.symm.trans hcut)
  subst hes
  obtain ⟨hne, hjoined, helements⟩ := cutList_eq_some_iff.mp hcut
  have hgood : ∀ e ∈ es₀, IsElement e ∧ Readable e ∧ ∀ c ∈ e, FieldChar c := fun e he =>
    ⟨helements e he, hreadable e he, fun c hc =>
      hchars c (hjoined ▸ subset_intercalate he hc)⟩
  have hall : (es₀ ≠ [] → es' ≠ []) ∧ es'.flatMap readings = es₀.flatMap readings ∧
      ∀ e ∈ es', IsElement e ∧ Readable e ∧ ∀ c ∈ e, FieldChar c := by
    clear hcut hcut₀ hreadable hne hjoined helements htext
    induction hempty with
    | nil => exact ⟨id, rfl, hgood⟩
    | keep e _ ih =>
      rw [List.forall_mem_cons] at hgood ⊢
      obtain ⟨-, hsame, hrest⟩ := ih hgood.2
      rw [List.flatMap_cons, List.flatMap_cons, hsame]
      exact ⟨fun _ => List.cons_ne_nil _ _, rfl, hgood.1, hrest⟩
    | insert blank hblank _ ih =>
      obtain ⟨-, hsame, hrest⟩ := ih hgood
      obtain ⟨helement, hread, hsays, hfield⟩ := blank_element hblank
      rw [List.forall_mem_cons, List.flatMap_cons, hsays, hsame]
      exact ⟨fun _ => List.cons_ne_nil _ _, rfl, ⟨helement, hread, hfield⟩, hrest⟩
  refine parse_rewritten h hcut htext (hall.1 hne) (fun e he => (hall.2.2 e he).1)
    (fun e he => (hall.2.2 e he).2.1) hall.2.1 hsize fun c hc => ?_
  rw [htext] at hc
  rcases mem_intercalate hc with rfl | ⟨e, he, hmem⟩
  · exact ⟨by decide, by decide, Or.inl (by decide), by decide⟩
  · exact (hall.2.2 e he).2.2 c hmem

/-! ## The letter case of names -/

/-- An element with its name, which is what stands before the first `=`, in another letter
case. -/
def Recased (e e' : List Char) : Prop :=
  ∃ name name' value, e = name ++ value ∧ e' = name' ++ value ∧
    name'.map Char.toLower = name.map Char.toLower ∧ '=' ∉ name ∧
    (value = [] ∨ ∃ rest, value = '=' :: rest)

private theorem isTchar_toLower (c : Char) : isTchar c.toLower = isTchar c := by
  have hlower := Text.toNat_toLower c
  have halnum (c : Char) (h : 0x41 ≤ c.toNat ∧ c.toNat ≤ 0x5a ∨ 0x61 ≤ c.toNat ∧ c.toNat ≤ 0x7a) :
      isTchar c = true := by
    have hletter : c.isAlphanum = true := by
      delta Char.isAlphanum Char.isAlpha Char.isUpper Char.isLower
      simp only [Bool.or_eq_true, Bool.and_eq_true, decide_eq_true_eq, ge_iff_le,
        UInt32.le_iff_toNat_le]
      exact Or.inl h
    rw [isTchar, hletter]
    rfl
  split at hlower
  · rename_i hupper
    rw [halnum c (Or.inl hupper), halnum c.toLower (Or.inr (by omega))]
  · rw [Char.toNat_inj.mp hlower]

/-- What a name and a value say, once they have been cut apart. -/
private def say (name : String) (value : Option String) :
    Except CacheValidationError (Option Recognised) :=
  if name.isEmpty || !name.toList.all isTchar then .error .invalidListSyntax
  else recognise name value

private theorem isEmpty_eq (s : String) : s.isEmpty = s.toList.isEmpty := by
  rw [Bool.eq_iff_iff, String.isEmpty_iff, List.isEmpty_iff, String.toList_eq_nil_iff]

private theorem isEmpty_recased {s s' : String}
    (h : s'.toList.map Char.toLower = s.toList.map Char.toLower) : s'.isEmpty = s.isEmpty := by
  rw [isEmpty_eq, isEmpty_eq, ← List.isEmpty_map (f := Char.toLower), h, List.isEmpty_map]

private theorem say_recased {name' : String} (value : Option String)
    (h : name'.toList.map Char.toLower = name.toList.map Char.toLower) :
    say name' value = say name value := by
  have hall (s : String) : s.toList.all isTchar = (s.toList.map Char.toLower).all isTchar := by
    rw [List.all_map]
    congr 1
    funext c
    exact (isTchar_toLower c).symm
  rw [say, say, isEmpty_recased h, hall name', hall name, h, recognise, recognise, h]

private theorem map_dropWhile (cs : List Char) :
    (cs.dropWhile Text.isWhitespace).map Char.toLower =
      (cs.map Char.toLower).dropWhile Text.isWhitespace := by
  rw [List.dropWhile_map]
  congr 2
  funext c
  exact (Text.isWhitespace_toLower c).symm

private theorem map_rdropWhile (cs : List Char) :
    (cs.rdropWhile Text.isWhitespace).map Char.toLower =
      (cs.map Char.toLower).rdropWhile Text.isWhitespace := by
  rw [List.rdropWhile, List.rdropWhile, List.map_reverse, map_dropWhile, List.map_reverse]

private theorem say_eq (name : String) (value : Option String) :
    (do
      let (name, value) ←
        (if name.isEmpty || !name.toList.all isTchar then
          Except.error CacheValidationError.invalidListSyntax
        else .ok (name, value))
      recognise name value) = say name value := by
  by_cases hbad : (name.isEmpty || !name.toList.all isTchar) = true
  · rw [say, if_pos hbad, if_pos hbad]
    rfl
  · rw [say, if_neg hbad, if_neg hbad]
    rfl

private theorem readElement_eq_say (h : (Text.trim (String.ofList e)).isEmpty = false) :
    readElement e =
      match Text.splitOnce (Text.trim (String.ofList e)) "=" with
      | some (name, value) => say (trimEnd name) (some (trimStart value))
      | none => say (Text.trim (String.ofList e)) none := by
  unfold readElement parseDirective
  dsimp only
  rw [if_neg (by rw [h]; exact Bool.false_ne_true)]
  generalize Text.splitOnce (Text.trim (String.ofList e)) "=" = cut
  cases cut with
  | none => exact say_eq ..
  | some cut => exact say_eq ..

/-- An element without a value. -/
private theorem readElement_name (h : '=' ∉ e)
    (hempty : (Text.trim (String.ofList e)).isEmpty = false) :
    readElement e = say (Text.trim (String.ofList e)) none := by
  have hsplit : Text.splitOnce (Text.trim (String.ofList e)) "=" = none := by
    refine Text.splitOnce_of_not_mem (c := '=') rfl fun hmem => h ?_
    have hmem := Text.mem_of_mem_trim hmem
    rwa [String.toList_ofList] at hmem
  rw [readElement_eq_say hempty, hsplit]

/-- An element with a value. -/
private theorem readElement_value {name rest : List Char} (h : '=' ∉ name) :
    readElement (name ++ '=' :: rest) =
      say (trimEnd (String.ofList (name.dropWhile Text.isWhitespace)))
        (some (trimStart (String.ofList (rest.rdropWhile Text.isWhitespace)))) := by
  have hlist := Text.toList_trim_around (c := '=') (by decide) name rest
  have htrim : Text.trim (String.ofList (name ++ '=' :: rest)) =
      String.ofList (name.dropWhile Text.isWhitespace ++
        '=' :: rest.rdropWhile Text.isWhitespace) := by
    rw [← hlist, String.ofList_toList]
  have hempty : (Text.trim (String.ofList (name ++ '=' :: rest))).isEmpty = false := by
    rw [isEmpty_eq, hlist, List.isEmpty_eq_false_iff]
    exact List.append_ne_nil_of_right_ne_nil _ (List.cons_ne_nil _ _)
  have hname : '=' ∉ name.dropWhile Text.isWhitespace := fun hmem =>
    h ((List.dropWhile_suffix _).subset hmem)
  have hsplit := Text.splitOnce_append hname (rest.rdropWhile Text.isWhitespace) "=" rfl
  rw [readElement_eq_say hempty, htrim, hsplit]

theorem Recased.readElement_eq (h : Recased e e') : readElement e' = readElement e := by
  obtain ⟨name, name', value, rfl, rfl, hcase, hname, hvalue⟩ := h
  have hname' : '=' ∉ name' := by
    intro hmem
    have hlower : '=' ∈ name.map Char.toLower :=
      hcase ▸ List.mem_map.mpr ⟨'=', hmem, rfl⟩
    obtain ⟨c, hc, hsame⟩ := List.mem_map.mp hlower
    rw [Text.toLower_eq_iff (by decide)] at hsame
    exact hname (hsame ▸ hc)
  rcases hvalue with rfl | ⟨rest, rfl⟩
  · rw [List.append_nil, List.append_nil]
    have htrim : (Text.trim (String.ofList name')).toList.map Char.toLower =
        (Text.trim (String.ofList name)).toList.map Char.toLower := by
      rw [Text.toList_trim, Text.toList_trim, String.toList_ofList, String.toList_ofList,
        map_rdropWhile, map_rdropWhile, map_dropWhile, map_dropWhile, hcase]
    cases hempty : (Text.trim (String.ofList name)).isEmpty with
    | true =>
      have hempty' := (isEmpty_recased htrim).trans hempty
      rw [readElement_blank hempty, readElement_blank hempty']
    | false =>
      have hempty' := (isEmpty_recased htrim).trans hempty
      rw [readElement_name hname hempty, readElement_name hname' hempty', say_recased none htrim]
  · rw [readElement_value hname, readElement_value hname']
    apply say_recased
    rw [trimEnd, trimEnd, String.toList_ofList, String.toList_ofList, String.toList_ofList,
      String.toList_ofList, map_rdropWhile, map_rdropWhile, map_dropWhile, map_dropWhile, hcase]

private theorem Recased.toLower_eq (h : Recased e e') :
    e'.map Char.toLower = e.map Char.toLower := by
  obtain ⟨name, name', value, rfl, rfl, hcase, -⟩ := h
  rw [List.map_append, List.map_append, hcase]

private theorem fieldChar_toLower {c : Char} : FieldChar c.toLower ↔ FieldChar c := by
  have hreturn : c.toLower = '\r' ↔ c = '\r' := Text.toLower_eq_iff (by decide)
  have hnewline : c.toLower = '\n' ↔ c = '\n' := Text.toLower_eq_iff (by decide)
  have htab : c.toLower = '\t' ↔ c = '\t' := Text.toLower_eq_iff (by decide)
  have hlower := Text.toNat_toLower c
  have hprintable : 0x20 ≤ c.toLower.toNat ↔ 0x20 ≤ c.toNat := by
    split at hlower <;> omega
  have hdelete : c.toLower.toNat = 0x7f ↔ c.toNat = 0x7f := by
    split at hlower <;> omega
  rw [FieldChar, FieldChar, ne_eq, ne_eq, ne_eq, hreturn, hnewline, htab, hprintable, hdelete]

private theorem intercalate_recased (h : List.Forall₂ Recased es es') :
    ([','].intercalate es').map Char.toLower = ([','].intercalate es).map Char.toLower := by
  induction h with
  | nil => rfl
  | cons hfirst hrest ih =>
    cases hrest with
    | nil =>
      rw [List.intercalate_singleton, List.intercalate_singleton, hfirst.toLower_eq]
    | cons _ _ =>
      rw [List.intercalate_cons_cons, List.intercalate_cons_cons]
      simp only [List.map_append, hfirst.toLower_eq, ih]

private theorem parse_recased (h : parseCacheControl fieldValues = .ok d)
    (hcut : cutList false [] (String.intercalate "," fieldValues).toList = some es)
    (hcase : List.Forall₂ Recased es es')
    (htext : (String.intercalate "," fieldValues').toList = [','].intercalate es') :
    parseCacheControl fieldValues' = .ok d := by
  obtain ⟨hsize, hchars, es₀, hcut₀, hreadable, -⟩ := parseCacheControl_ok_iff.mp h
  have hes : es₀ = es := Option.some.inj (hcut₀.symm.trans hcut)
  subst hes
  obtain ⟨hne, hjoined, helements⟩ := cutList_eq_some_iff.mp hcut
  have hne' : es' ≠ [] := by
    rw [← List.length_pos_iff, ← hcase.length_eq]
    exact List.length_pos_iff.mpr hne
  have hlower : (String.intercalate "," fieldValues').toList.map Char.toLower =
      (String.intercalate "," fieldValues).toList.map Char.toLower := by
    rw [htext, intercalate_recased hcase, hjoined]
  have hall : es'.flatMap readings = es₀.flatMap readings ∧
      ∀ e ∈ es', IsElement e ∧ Readable e := by
    clear hcut hcut₀ hjoined hne hne' htext hlower
    induction hcase with
    | nil => exact ⟨rfl, fun e he => absurd he List.not_mem_nil⟩
    | cons hfirst _ ih =>
      rw [List.forall_mem_cons] at hreadable helements ⊢
      obtain ⟨hsame, hrest⟩ := ih hreadable.2 helements.2
      have hread := hfirst.readElement_eq
      refine ⟨?_, ⟨helements.1.of_toLower hfirst.toLower_eq, ?_⟩, hrest⟩
      · rw [List.flatMap_cons, List.flatMap_cons, hsame, readings, readings, hread]
      · rw [Readable, hread]
        exact hreadable.1
  have hsize' : (String.intercalate "," fieldValues').utf8ByteSize =
      (String.intercalate "," fieldValues).utf8ByteSize := by
    have hsum (s : String) :
        s.utf8ByteSize = ((s.toList.map Char.toLower).map Char.utf8Size).sum := by
      rw [Text.utf8ByteSize_eq_sum, List.map_map]
      congr 2
      funext c
      exact (Text.utf8Size_toLower c).symm
    rw [hsum, hlower, ← hsum]
  refine parse_rewritten h hcut htext hne' (fun e he => (hall.2 e he).1)
    (fun e he => (hall.2 e he).2) hall.1 (hsize'.trans_le hsize) fun c hc => ?_
  have hmem : c.toLower ∈ (String.intercalate "," fieldValues).toList.map Char.toLower :=
    hlower ▸ List.mem_map_of_mem hc
  obtain ⟨c', hc', hsame⟩ := List.mem_map.mp hmem
  rw [← fieldChar_toLower, ← hsame, fieldChar_toLower]
  exact hchars c' hc'

/-! ## The laws -/

private theorem intercalate_joined (before after : List String) (v w : String) :
    String.intercalate "," (before ++ (v ++ "," ++ w) :: after) =
      String.intercalate "," (before ++ v :: w :: after) := by
  induction before with
  | nil =>
    cases after with
    | nil => simp
    | cons u after => simp [String.append_assoc]
  | cons u before ih =>
    rw [List.cons_append, List.cons_append, String.intercalate_cons_of_ne_nil (by simp),
      String.intercalate_cons_of_ne_nil (by simp), ih]

/-- Field values that are accepted one by one and say different things are accepted together, and
say it all.  An accepted list says the same with two field values joined, with empty elements, and
with its names in another letter case; and in any order of its field values, where each closes its
quoted strings. -/
theorem cache_control_combines :
    (∀ (fieldValues : List String) (ds : List CacheDirectives),
      List.Forall₂ (fun v d => parseCacheControl [v] = .ok d) fieldValues ds →
      (ds.flatMap CacheDirectives.names).Nodup →
      (String.intercalate "," fieldValues).utf8ByteSize ≤ maxCacheControlLen →
      parseCacheControl fieldValues = .ok (ds.foldr CacheDirectives.union noDirectives)) ∧
    ∀ (fieldValues : List String) (d : CacheDirectives), parseCacheControl fieldValues = .ok d →
      (∀ fieldValues', fieldValues.Perm fieldValues' → (∀ v ∈ fieldValues, Closed v) →
        parseCacheControl fieldValues' = .ok d) ∧
      (∀ before v w after, fieldValues = before ++ v :: w :: after →
        parseCacheControl (before ++ (v ++ "," ++ w) :: after) = .ok d) ∧
      ∃ es, cutList false [] (String.intercalate "," fieldValues).toList = some es ∧
        ∀ fieldValues' es', (String.intercalate "," fieldValues').toList = [','].intercalate es' →
        (WithEmpty es es' →
          (String.intercalate "," fieldValues').utf8ByteSize ≤ maxCacheControlLen →
          parseCacheControl fieldValues' = .ok d) ∧
        (List.Forall₂ Recased es es' → parseCacheControl fieldValues' = .ok d) := by
  refine ⟨fun _ _ => parse_union, fun fieldValues d h => ⟨fun _ => parse_perm h, ?_, ?_⟩⟩
  · rintro before v w after rfl
    rw [parseCacheControl, intercalate_joined]
    exact h
  · obtain ⟨-, -, es, hcut, -⟩ := parseCacheControl_ok_iff.mp h
    refine ⟨es, hcut, fun fieldValues' es' htext => ?_⟩
    exact ⟨fun hempty => parse_withEmpty h hcut hempty htext,
      fun hcase => parse_recased h hcut hcase htext⟩

/-- A maximum age and a `no-store` beside an extension with a comma in quotes. -/
theorem cache_control_combines_sample :
    parseCacheControl ["max-age=60", "No-Store, x=\"a,b\""] =
        .ok ⟨true, false, false, some (fromSecs 60), none⟩ ∧
      parseCacheControl ["No-Store, x=\"a,b\"", "max-age=60"] =
        .ok ⟨true, false, false, some (fromSecs 60), none⟩ ∧
      parseCacheControl ["max-age=60,No-Store, x=\"a,b\""] =
        .ok ⟨true, false, false, some (fromSecs 60), none⟩ ∧
      parseCacheControl ["max-age=60", "", "No-Store, x=\"a,b\""] =
        .ok ⟨true, false, false, some (fromSecs 60), none⟩ ∧
      parseCacheControl ["MAX-age=60,no-store", " X=\"a,b\""] =
        .ok ⟨true, false, false, some (fromSecs 60), none⟩ := by
  have hage : parseCacheControl ["max-age=60"] =
      .ok ⟨false, false, false, some (fromSecs 60), none⟩ := by decide +kernel
  have hstore : parseCacheControl ["No-Store, x=\"a,b\""] =
      .ok ⟨true, false, false, none, none⟩ := by decide +kernel
  have hboth := cache_control_combines.1 ["max-age=60", "No-Store, x=\"a,b\""] _
    (.cons hage (.cons hstore .nil)) (by decide) (by decide)
  have hlaws := cache_control_combines.2 _ _ hboth
  have hclosed : ∀ v ∈ ["max-age=60", "No-Store, x=\"a,b\""], Closed v := by
    intro v hv
    rw [List.mem_cons, List.mem_singleton] at hv
    rcases hv with rfl | rfl
    · exact ⟨["max-age=60"], by decide +kernel⟩
    · exact ⟨["No-Store", "x=\"a,b\""], by decide +kernel⟩
  obtain ⟨es, hcut, hrewrite⟩ := hlaws.2.2
  have hes : ["max-age=60".toList, "No-Store".toList, " x=\"a,b\"".toList] = es :=
    Option.some.inj ((by decide +kernel : cutList false [] _ = some _).symm.trans hcut)
  subst hes
  have hempty := (hrewrite ["max-age=60", "", "No-Store, x=\"a,b\""] _ (by decide)).1
    (.keep _ (.insert [] (by simp) (.keep _ (.keep _ .nil)))) (by decide)
  have hfirst : Recased "max-age=60".toList "MAX-age=60".toList :=
    ⟨"max-age".toList, "MAX-age".toList, "=60".toList, rfl, rfl, by decide, by decide,
      Or.inr ⟨_, rfl⟩⟩
  have hsecond : Recased "No-Store".toList "no-store".toList :=
    ⟨"No-Store".toList, "no-store".toList, [], rfl, rfl, by decide, by decide, Or.inl rfl⟩
  have hthird : Recased " x=\"a,b\"".toList " X=\"a,b\"".toList :=
    ⟨" x".toList, " X".toList, "=\"a,b\"".toList, rfl, rfl, by decide, by decide,
      Or.inr ⟨_, rfl⟩⟩
  have hcase := (hrewrite ["MAX-age=60,no-store", " X=\"a,b\""]
    ["MAX-age=60".toList, "no-store".toList, " X=\"a,b\"".toList] (by decide)).2
    (.cons hfirst (.cons hsecond (.cons hthird .nil)))
  exact ⟨hboth, hlaws.1 _ (List.Perm.swap _ _ []) hclosed, hlaws.2.1 [] _ _ [] rfl, hempty, hcase⟩

/-- A quoted string that is opened in one field value and closed in another hides what is between
them, until they are in another order. -/
theorem order_matters_across_quotes :
    ¬∀ fieldValues fieldValues' d, parseCacheControl fieldValues = .ok d →
      fieldValues.Perm fieldValues' → parseCacheControl fieldValues' = .ok d := by
  intro h
  have hhidden : parseCacheControl ["x=\"", "no-store", "\""] = .ok noDirectives := by
    decide +kernel
  have hshown : parseCacheControl ["no-store", "x=\"", "\""] = .ok noDirectives :=
    h _ _ _ hhidden (List.Perm.swap _ _ _)
  revert hshown
  decide +kernel

end SuiId.CacheFreshness
