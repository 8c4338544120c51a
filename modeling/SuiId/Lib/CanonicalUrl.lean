import SuiId.Lib.WebOrigin

/-!
# Canonical texts of URLs

A URL without credentials and without a fragment, whose pieces are written as the parser leaves them
(`IsWritten`), has two texts: its serialisation, and for the root path also the one without that
path.  These are the canonical texts.  The parser reads them as the URL that they are texts of
(`parse_of_isTextOf`), and what it reads is written (`isWritten_of_parse`), so that a text is
canonical if the serialisation of its URL is the text itself, up to the root path
(`withRootPath_eq_text_iff`).
-/

namespace Lib

namespace WebUrl

open UrlPath

section Definitions

variable {Host : Type} (E : Edition Host)

/-- The pieces are as the parser leaves them. -/
structure IsWritten (url : WebUrl Host) : Prop where
  proper : Proper E url
  username : url.username = []
  password : url.password = []
  fragment : url.fragment = none
  path_ne_nil : url.path ≠ []
  not_dots : ∀ segment ∈ url.path, isDoubleDot segment = false ∧ isSingleDot segment = false
  path : ∀ segment ∈ url.path, ∀ c ∈ segment,
    isSlash c = false ∧ inPathSet E.encodesCaret c = false
  query : ∀ query, url.query = some query → ∀ c ∈ query, inQuerySet c = false

/-- The query, with its question mark. -/
def queryText : Option (List Char) → List Char
  | none => []
  | some query => '?' :: query

/-- The serialisation, or without the root path. -/
def IsTextOf (url : WebUrl Host) (text : List Char) : Prop :=
  text = originText E url ++ (pathText url.path ++ queryText url.query) ∨
    (url.path = [[]] ∧ text = originText E url ++ queryText url.query)

/-- The text is that of a URL which stays as it is. -/
def IsCanonical (text : List Char) : Prop := ∃ url, IsWritten E url ∧ IsTextOf E url text

/-- A text with the root path, if it has a scheme and a host and no path. -/
def withRootPath (text : List Char) : List Char :=
  match text.dropWhile (· ≠ ':') with
  | ':' :: '/' :: '/' :: rest =>
    if (rest.dropWhile (!endsAuthority ·)).head? = some '/' then text
    else
      text.takeWhile (· ≠ ':') ++ ':' :: '/' :: '/' ::
        (rest.takeWhile (!endsAuthority ·) ++ '/' :: rest.dropWhile (!endsAuthority ·))
  | _ => text

/-- Behind the host stands a colon and the port of the scheme, in any number of digits. -/
def NamesDefaultPort (text : List Char) : Prop :=
  ∃ (scheme : Scheme) (name host digits back : List Char),
    text = name ++ ':' :: '/' :: '/' :: (host ++ ':' :: digits ++ back) ∧
      name.map foldCase = scheme.name ∧ (∀ c ∈ host, endsAuthority c = false) ∧ digits ≠ [] ∧
      (∀ c ∈ digits, c.isDigit = true) ∧ Nat.ofDigitChars 10 digits 0 = scheme.defaultPort ∧
      back.head?.all endsAuthority = true

end Definitions

section Texts

variable {Host : Type} {E : Edition Host} {url : WebUrl Host}

/-! ## What the parser leaves -/

variable {c sep : Char} {text l back host : List Char}

private theorem code_of_escape (h : c.isAlphanum ∨ c = '%') :
    c.toNat = 0x25 ∨ (0x30 ≤ c.toNat ∧ c.toNat ≤ 0x39) ∨ (0x41 ≤ c.toNat ∧ c.toNat ≤ 0x5a) ∨
      (0x61 ≤ c.toNat ∧ c.toNat ≤ 0x7a) := by
  have hval : c.val.toNat = c.toNat := rfl
  rcases h with h | rfl
  · delta Char.isAlphanum Char.isAlpha Char.isUpper Char.isLower at h
    simp only [Char.isDigit, Bool.or_eq_true, Bool.and_eq_true, decide_eq_true_eq, ge_iff_le,
      UInt32.le_iff_toNat_le, hval] at h
    change ((0x41 ≤ c.toNat ∧ c.toNat ≤ 0x5a) ∨ (0x61 ≤ c.toNat ∧ c.toNat ≤ 0x7a)) ∨
      (0x30 ≤ c.toNat ∧ c.toNat ≤ 0x39) at h
    omega
  · exact Or.inl rfl

/-- An escape has no character of a set, and no slash. -/
private theorem inPathSet_escape (caret : Bool) (c : Char) (h : c.isAlphanum ∨ c = '%') :
    inPathSet caret c = false := by
  have hcode := code_of_escape h
  have hcaret : c ≠ '^' := by
    rintro rfl
    revert hcode
    decide
  simp [inPathSet, inControlSet, hcaret]
  omega

private theorem inQuerySet_escape (c : Char) (h : c.isAlphanum ∨ c = '%') :
    inQuerySet c = false := by
  have hcode := code_of_escape h
  simp [inQuerySet, inControlSet]
  omega

private theorem not_escape_of_isSlash (h : isSlash c = true) :
    c.isAlphanum = false ∧ c ≠ '%' := by
  have hcode : c.toNat = 0x2f ∨ c.toNat = 0x5c := by
    simpa [isSlash, ← Char.toNat_inj] using h
  have hnot : ¬(c.isAlphanum ∨ c = '%') := by
    intro hescape
    have hrange := code_of_escape hescape
    omega
  rw [not_or, Bool.not_eq_true] at hnot
  exact hnot

theorem isWritten_withRest {authority : WebUrl Host} (h : Proper E authority)
    (husername : authority.username = []) (hpassword : authority.password = [])
    (hfragment : after? '#' text = none) :
    IsWritten E (withRest E authority [] text) where
  proper := h
  username := husername
  password := hpassword
  fragment := by
    show (after? '#' text).map _ = none
    rw [hfragment]
    rfl
  path_ne_nil := by
    rw [withRest_path_root]
    intro hnil
    exact landing_ne_nil (List.splitOnP_ne_nil _ _) (List.map_eq_nil_iff.mp hnil)
  not_dots := by
    intro segment hsegment
    rw [withRest_path_root, List.mem_map] at hsegment
    obtain ⟨name, hname, rfl⟩ := hsegment
    have hdots := dots_percentEncode (inPathSet_plain E.encodesCaret) name
    unfold isDoubleDot isSingleDot
    rw [hdots]
    exact not_dots_of_mem_landing hname
  path := by
    intro segment hsegment c hc
    rw [withRest_path_root, List.mem_map] at hsegment
    obtain ⟨name, hname, rfl⟩ := hsegment
    have hset := eq_false_of_mem_percentEncode (inPathSet_escape _) hc
    refine ⟨?_, hset⟩
    by_contra hslash
    rw [Bool.not_eq_false] at hslash
    have hplain := not_escape_of_isSlash hslash
    have hmem := (mem_of_mem_percentEncode hplain.1 hplain.2 hc).1
    rcases mem_landing hname with hpiece | rfl
    · rw [eq_false_of_mem_splitOnP hpiece c hmem] at hslash
      cases hslash
    · cases hmem
  query := by
    intro query hquery c hc
    obtain ⟨text', -, rfl⟩ := Option.map_eq_some_iff.mp hquery
    exact eq_false_of_mem_percentEncode inQuerySet_escape hc

/-- What is parsed is written. -/
theorem isWritten_of_parse (h : parse E text = some url) (husername : url.username = [])
    (hpassword : url.password = []) (hfragment : url.fragment = none) : IsWritten E url := by
  simp only [parse, Option.bind_eq_some_iff] at h
  obtain ⟨⟨name, rest⟩, -, scheme, -, habsolute⟩ := h
  rw [absolute, Option.map_eq_some_iff] at habsolute
  obtain ⟨authority, hread, rfl⟩ := habsolute
  exact isWritten_withRest (proper_of_readAuthority hread) husername hpassword
    (Option.map_eq_none_iff.mp hfragment)

/-! ## What the parser reads -/

private theorem graphic_of_path {caret : Bool} (h : inPathSet caret c = false) :
    0x20 < c.toNat ∧ c.toNat < 0x7f ∧ c ≠ '#' ∧ c ≠ '?' := by
  simp only [inPathSet, inControlSet, Bool.or_eq_false_iff, decide_eq_false_iff_not] at h
  obtain ⟨⟨⟨hlow, hhigh⟩, hset⟩, -⟩ := h
  simp only [List.contains_cons, List.contains_nil, Bool.or_false, Bool.or_eq_false_iff,
    beq_eq_false_iff_ne] at hset
  refine ⟨by omega, by omega, ?_, ?_⟩
  · rintro rfl
    exact hset.2.2.1 rfl
  · rintro rfl
    exact hset.2.2.2.2.2.1 rfl

private theorem graphic_of_query (h : inQuerySet c = false) :
    0x20 < c.toNat ∧ c.toNat < 0x7f ∧ c ≠ '#' := by
  simp only [inQuerySet, inControlSet, Bool.or_eq_false_iff, decide_eq_false_iff_not] at h
  obtain ⟨⟨hlow, hhigh⟩, hset⟩ := h
  simp only [List.contains_cons, List.contains_nil, Bool.or_false, Bool.or_eq_false_iff,
    beq_eq_false_iff_ne] at hset
  refine ⟨by omega, by omega, ?_⟩
  rintro rfl
  exact hset.2.2.1 rfl

private theorem ne_of_notMem (h : sep ∉ l) :
    ∀ c ∈ l, decide (c ≠ sep) = true := by
  intro c hc
  rw [decide_eq_true_eq]
  rintro rfl
  exact h hc

theorem upTo_of_notMem (h : sep ∉ l) : upTo sep l = l := by
  rw [upTo, List.takeWhile_eq_self_iff]
  exact ne_of_notMem h

theorem after?_of_notMem (h : sep ∉ l) : after? sep l = none := by
  rw [after?, List.dropWhile_eq_nil_iff.mpr (ne_of_notMem h)]

theorem upTo_append (h : sep ∉ l) (rest : List Char) :
    upTo sep (l ++ sep :: rest) = l := by
  rw [upTo, List.takeWhile_append_of_pos (ne_of_notMem h),
    List.takeWhile_cons_of_neg (by simp), List.append_nil]

theorem after?_append (h : sep ∉ l) (rest : List Char) :
    after? sep (l ++ sep :: rest) = some rest := by
  rw [after?, List.dropWhile_append_of_pos (ne_of_notMem h), List.dropWhile_cons_of_neg (by simp)]

variable {first name : List Char} {rest : List (List Char)}

/-- Segments that stand behind slashes. -/
theorem splitOnP_pathText (h : ∀ segment ∈ first :: rest, ∀ c ∈ segment, isSlash c = false) :
    (first ++ pathText rest).splitOnP isSlash = first :: rest := by
  induction rest generalizing first with
  | nil =>
    have hfirst := h first List.mem_cons_self
    have htext : first ++ pathText [] = first := List.append_nil first
    rw [htext, List.splitOnP_eq_singleton hfirst]
  | cons second rest ih =>
    have hfirst := h first List.mem_cons_self
    have hslash : isSlash '/' = true := by decide
    have htext : pathText (second :: rest) = '/' :: (second ++ pathText rest) := rfl
    rw [htext, List.splitOnP_append_cons_of_forall_mem hfirst '/' hslash,
      ih fun segment hsegment => h segment (List.mem_cons_of_mem _ hsegment)]

theorem IsWritten.text_eq (h : IsWritten E url) :
    WebUrl.text E url = originText E url ++ (pathText url.path ++ queryText url.query) := by
  have hquery : url.query.elim [] ('?' :: ·) = queryText url.query := by
    cases url.query <;> rfl
  rw [WebUrl.text, credentialsText, h.username, h.password, h.fragment, hquery, originText]
  simp

/-- What stands behind the origin in a written URL is graphic. -/
theorem IsWritten.graphic (h : IsWritten E url) :
    ∀ c ∈ pathText url.path ++ queryText url.query, 0x20 < c.toNat ∧ c.toNat < 0x7f ∧ c ≠ '#' := by
  intro c hc
  rcases List.mem_append.mp hc with hc | hc
  · rw [pathText, List.mem_flatMap] at hc
    obtain ⟨segment, hsegment, hc⟩ := hc
    rcases List.mem_cons.mp hc with rfl | hc
    · decide
    · obtain ⟨hlow, hhigh, hhash, -⟩ := graphic_of_path (h.path segment hsegment c hc).2
      exact ⟨hlow, hhigh, hhash⟩
  · cases hquery : url.query with
    | none =>
      rw [hquery] at hc
      cases hc
    | some query =>
      rw [hquery] at hc
      rcases List.mem_cons.mp hc with rfl | hc
      · decide
      · exact graphic_of_query (h.query query hquery c hc)

/-- The rest of a written URL is read as it is written. -/
theorem IsWritten.withRest_eq (h : IsWritten E url) (hpath : url.path = first :: rest) :
    withRest E (authority url) [] (first ++ pathText rest ++ queryText url.query) = url := by
  have hpathText : pathText url.path = '/' :: (first ++ pathText rest) := by
    rw [hpath]
    rfl
  have hhash : '#' ∉ first ++ pathText rest ++ queryText url.query := by
    intro hmem
    refine (h.graphic '#' ?_).2.2 rfl
    rw [hpathText]
    exact List.mem_cons_of_mem _ hmem
  have hmark : '?' ∉ first ++ pathText rest := by
    intro hmem
    have hmem' : '?' ∈ pathText url.path := by
      rw [hpathText]
      exact List.mem_cons_of_mem _ hmem
    rw [pathText, List.mem_flatMap] at hmem'
    obtain ⟨segment, hsegment, hc⟩ := hmem'
    rcases List.mem_cons.mp hc with hc | hc
    · exact absurd hc (by decide)
    · exact (graphic_of_path (h.path segment hsegment _ hc).2).2.2.2 rfl
  have hsplit : (first ++ pathText rest).splitOnP isSlash = url.path := by
    rw [hpath]
    apply splitOnP_pathText
    rw [← hpath]
    exact fun segment hsegment c hc => (h.path segment hsegment c hc).1
  have hcut : upTo '?' (first ++ pathText rest ++ queryText url.query) = first ++ pathText rest ∧
      (after? '?' (first ++ pathText rest ++ queryText url.query)).map
        (percentEncode inQuerySet) = url.query := by
    cases hquery : url.query with
    | none =>
      rw [queryText, List.append_nil]
      exact ⟨upTo_of_notMem hmark, by rw [after?_of_notMem hmark]; rfl⟩
    | some query =>
      rw [queryText]
      refine ⟨upTo_append hmark query, ?_⟩
      rw [after?_append hmark, Option.map_some, percentEncode_of_plain (h.query query hquery)]
  have hlanding : addSegments [] (url.path.map (percentEncode (inPathSet E.encodesCaret))) =
      url.path := by
    rw [map_percentEncode_self fun segment hsegment =>
      percentEncode_of_plain fun c hc => (h.path segment hsegment c hc).2,
      addSegments_root h.path_ne_nil, landing_of_not_dots h.not_dots]
  unfold withRest
  dsimp only
  rw [upTo_of_notMem hhash, after?_of_notMem hhash, hcut.1, hcut.2, hsplit, hlanding, authority]
  cases url with
  | mk scheme username password host port path query fragment =>
    simp only [WebUrl.mk.injEq, true_and, Option.map_none]
    exact ⟨h.username.symm, h.password.symm, h.fragment.symm⟩

private theorem cleanedRest_of_graphic (h : ∀ c ∈ back, 0x20 < c.toNat) :
    cleanedRest back = back := by
  rw [cleanedRest, List.rdropWhile_eq_self_iff.mpr, List.filter_eq_self]
  · intro c hc
    have hgraphic := h c hc
    simp [isTabOrNewline]
    omega
  · intro hne
    have hgraphic := h _ (List.getLast_mem hne)
    rw [isControlOrSpace, decide_eq_true_eq]
    omega

/-- A canonical text is read as the URL that it is a text of. -/
theorem parse_of_isTextOf (hE : E.Lawful) (h : IsWritten E url) (htext : IsTextOf E url text) :
    parse E text = some url := by
  have horigin : (originText E url).map foldCase = originText E url :=
    (List.map_congr_left fun c hc => (originText_plain hE h.proper c hc).2.2).trans
      (List.map_id _)
  rcases htext with rfl | ⟨hroot, rfl⟩
  · cases hpath : url.path with
    | nil => exact absurd hpath h.path_ne_nil
    | cons first rest =>
      have hback : pathText (first :: rest) ++ queryText url.query =
          '/' :: (first ++ pathText rest ++ queryText url.query) := by
        simp [pathText]
      have hgraphic := h.graphic
      rw [hpath] at hgraphic
      rw [parse_spelled hE h.proper horigin (by rw [hback]; rfl),
        cleanedRest_of_graphic fun c hc => (hgraphic c hc).1, hback]
      have hslash : isSlash '/' = true := by decide
      rw [dropSlash, if_pos hslash, h.withRest_eq hpath]
  · have hgraphic : ∀ c ∈ queryText url.query, 0x20 < c.toNat := fun c hc =>
      (h.graphic c (List.mem_append_right _ hc)).1
    have hends : (queryText url.query).head?.all endsAuthority = true := by
      cases url.query <;> rfl
    have hdrop : dropSlash (queryText url.query) = queryText url.query := by
      cases url.query <;> rfl
    rw [parse_spelled hE h.proper horigin hends, cleanedRest_of_graphic hgraphic, hdrop]
    have hread := h.withRest_eq hroot
    rw [List.nil_append] at hread
    exact congrArg some hread

/-! ## The root path -/

private theorem endsAuthority_colon : endsAuthority ':' = false := by decide

/-- A text with a scheme and a host. -/
theorem withRootPath_append (hname : ':' ∉ name) (hhost : ∀ c ∈ host, endsAuthority c = false)
    (hback : back.head?.all endsAuthority = true) :
    withRootPath (name ++ ':' :: '/' :: '/' :: (host ++ back)) =
      name ++ ':' :: '/' :: '/' ::
        (host ++ if back.head? = some '/' then back else '/' :: back) := by
  have hcolon := ne_of_notMem hname
  have hplain : ∀ c ∈ host, (!endsAuthority c) = true := fun c hc => by rw [hhost c hc]; rfl
  have hstop : back.takeWhile (!endsAuthority ·) = [] ∧
      back.dropWhile (!endsAuthority ·) = back := by
    cases back with
    | nil => exact ⟨rfl, rfl⟩
    | cons c back =>
      have hc : ¬(!endsAuthority c) = true := by simpa using hback
      exact ⟨List.takeWhile_cons_of_neg hc, List.dropWhile_cons_of_neg hc⟩
  have hdrop : (name ++ ':' :: '/' :: '/' :: (host ++ back)).dropWhile (· ≠ ':') =
      ':' :: '/' :: '/' :: (host ++ back) := by
    rw [List.dropWhile_append_of_pos hcolon, List.dropWhile_cons_of_neg (by simp)]
  have htake : (name ++ ':' :: '/' :: '/' :: (host ++ back)).takeWhile (· ≠ ':') = name := by
    rw [List.takeWhile_append_of_pos hcolon, List.takeWhile_cons_of_neg (by simp),
      List.append_nil]
  unfold withRootPath
  rw [hdrop, htake]
  simp only [List.dropWhile_append_of_pos hplain, List.takeWhile_append_of_pos hplain, hstop.1,
    hstop.2, List.append_nil]
  split <;> rfl

/-- A text that the root path is missing in has a scheme and a host. -/
theorem withRootPath_eq_self_or (text : List Char) :
    withRootPath text = text ∨
      ∃ name host back, text = name ++ ':' :: '/' :: '/' :: (host ++ back) ∧ ':' ∉ name ∧
        (∀ c ∈ host, endsAuthority c = false) ∧ back.head?.all endsAuthority = true ∧
        back.head? ≠ some '/' := by
  unfold withRootPath
  split
  · next rest hdrop =>
    split
    · exact Or.inl rfl
    · next hhead =>
      refine Or.inr ⟨text.takeWhile (· ≠ ':'), rest.takeWhile (!endsAuthority ·),
        rest.dropWhile (!endsAuthority ·), ?_, ?_, ?_, ?_, hhead⟩
      · rw [List.takeWhile_append_dropWhile, ← hdrop, List.takeWhile_append_dropWhile]
      · intro hmem
        have hne := List.mem_takeWhile_imp hmem
        exact absurd hne (by decide)
      · intro c hc
        simpa using List.mem_takeWhile_imp hc
      · rw [Option.all_eq_true]
        intro c hc
        have hstop := List.head?_dropWhile_not (fun c => !endsAuthority c) rest
        rw [hc] at hstop
        simpa using hstop
  · exact Or.inl rfl

/-- A text with a scheme and a host has them in one way. -/
private theorem parts_inj {name' host' back' : List Char} (hname : ':' ∉ name)
    (hname' : ':' ∉ name') (hhost : ∀ c ∈ host, endsAuthority c = false)
    (hhost' : ∀ c ∈ host', endsAuthority c = false) (hback : back.head?.all endsAuthority = true)
    (hback' : back'.head?.all endsAuthority = true)
    (h : name ++ ':' :: '/' :: '/' :: (host ++ back) =
      name' ++ ':' :: '/' :: '/' :: (host' ++ back')) :
    name = name' ∧ host = host' ∧ back = back' := by
  have hnot : ∀ l : List Char, ':' ∉ l → ∀ c ∈ l, decide (c = ':') = false := by
    intro l hl c hc
    simpa using ne_of_notMem hl c hc
  obtain ⟨hnames, hrest⟩ := eq_of_append_stop (hnot name hname) (hnot name' hname')
    (by rfl) (by rfl) h
  simp only [List.cons.injEq, true_and] at hrest
  exact ⟨hnames, eq_of_append_stop hhost hhost' hback hback' hrest⟩

private theorem originText_eq (url : WebUrl Host) : originText E url =
    url.scheme.name ++ ':' :: '/' :: '/' :: (E.hostText url.host ++ portText url.port) := by
  simp [originText]

private theorem colon_notMem_name (scheme : Scheme) : ':' ∉ scheme.name := by
  cases scheme <;> decide

private theorem authority_plain (hE : E.Lawful) (h : Proper E url) :
    ∀ c ∈ E.hostText url.host ++ portText url.port, endsAuthority c = false := by
  obtain ⟨⟨text, hhost⟩, -⟩ := h
  intro c hc
  have hchar := hostText_portText_plain hE hhost _ c hc
  simp only [isHostCharacter, Bool.and_eq_true, Bool.not_eq_true'] at hchar
  exact hchar.1.1.2

private theorem head?_queryText (query : Option (List Char)) :
    (queryText query).head?.all endsAuthority = true ∧ (queryText query).head? ≠ some '/' := by
  cases query with
  | none => exact ⟨rfl, by decide⟩
  | some query => exact ⟨rfl, by simp [queryText]⟩

/-- The texts of a written URL are those that the serialisation differs from by the root path
only. -/
theorem withRootPath_eq_text_iff (hE : E.Lawful) (h : IsWritten E url) :
    withRootPath text = originText E url ++ (pathText url.path ++ queryText url.query) ↔
      IsTextOf E url text := by
  have hname := colon_notMem_name url.scheme
  have hauthority := authority_plain hE h.proper
  obtain ⟨hquery, hquery'⟩ := head?_queryText url.query
  cases hpath : url.path with
  | nil => exact absurd hpath h.path_ne_nil
  | cons first rest =>
    have hback : pathText (first :: rest) ++ queryText url.query =
        '/' :: (first ++ pathText rest ++ queryText url.query) := by
      simp [pathText]
    rw [originText_eq, hback, IsTextOf, originText_eq, hpath, hback]
    simp only [List.append_assoc, List.cons_append]
    rw [← List.append_assoc (E.hostText url.host), ← List.append_assoc (E.hostText url.host)]
    constructor
    · intro htext
      rcases withRootPath_eq_self_or text with hself | ⟨name, host, back, rfl, hname', hhost,
        hback', hslash⟩
      · rw [hself] at htext
        exact Or.inl htext
      · rw [withRootPath_append hname' hhost hback', if_neg hslash] at htext
        obtain ⟨rfl, rfl, hrest⟩ := parts_inj hname' hname hhost hauthority (by rfl) (by rfl) htext
        have hrest : back = first ++ (pathText rest ++ queryText url.query) :=
          (List.cons.inj hrest).2
        -- The first segment has no character that ends a host, and `back` begins with one.
        have hfirst : first = [] := by
          cases first with
          | nil => rfl
          | cons c first =>
            have hc := h.path (c :: first) (by rw [hpath]; exact List.mem_cons_self) c
              List.mem_cons_self
            have hgraphic := graphic_of_path hc.2
            rw [hrest] at hback'
            have hends : endsAuthority c = true := hback'
            simp [endsAuthority, hc.1, hgraphic.2.2.1, hgraphic.2.2.2] at hends
        have hlast : rest = [] := by
          cases rest with
          | nil => rfl
          | cons second rest =>
            rw [hrest, hfirst] at hslash
            exact absurd rfl hslash
        rw [hrest, hfirst, hlast]
        exact Or.inr ⟨rfl, rfl⟩
    · rintro (rfl | ⟨hroot, rfl⟩)
      · rw [withRootPath_append hname hauthority (by rfl)]
        rfl
      · rw [withRootPath_append hname hauthority hquery, if_neg hquery']
        obtain ⟨rfl, rfl⟩ := List.cons.inj hroot
        rfl

/-- A text that is parsed is canonical if the serialisation is the text itself, up to the root
path. -/
theorem withRootPath_eq_iff_isCanonical (hE : E.Lawful) (h : IsWritten E url)
    (hparse : parse E text = some url) :
    withRootPath text = originText E url ++ (pathText url.path ++ queryText url.query) ↔
      IsCanonical E text := by
  rw [withRootPath_eq_text_iff hE h]
  constructor
  · exact fun htext => ⟨url, h, htext⟩
  · rintro ⟨url', h', htext⟩
    rw [parse_of_isTextOf hE h' htext] at hparse
    rw [← Option.some.inj hparse]
    exact htext

/-- Of two texts of a URL one is the other with the root path. -/
theorem eq_or_withRootPath_of_isTextOf (hE : E.Lawful) (h : IsWritten E url) {text' : List Char}
    (htext : IsTextOf E url text) (htext' : IsTextOf E url text') :
    text = text' ∨ withRootPath text = text' ∨ withRootPath text' = text := by
  have hfull := (withRootPath_eq_text_iff hE h).mpr htext
  have hfull' := (withRootPath_eq_text_iff hE h).mpr htext'
  rcases htext with htext | ⟨-, htext⟩
  · rw [← htext] at hfull'
    exact Or.inr (Or.inr hfull')
  · rcases htext' with htext' | ⟨-, htext'⟩
    · rw [← htext'] at hfull
      exact Or.inr (Or.inl hfull)
    · exact Or.inl (htext.trans htext'.symm)

/-! ## What canonical texts are free of -/

theorem IsCanonical.graphic (hE : E.Lawful) (h : IsCanonical E text) :
    ∀ c ∈ text, 0x20 < c.toNat ∧ c.toNat < 0x7f := by
  obtain ⟨url, hurl, htext⟩ := h
  have hfull : ∀ c ∈ originText E url ++ (pathText url.path ++ queryText url.query),
      0x20 < c.toNat ∧ c.toNat < 0x7f := by
    intro c hc
    rcases List.mem_append.mp hc with hc | hc
    · have hplain := originText_plain hE hurl.proper c hc
      exact ⟨hplain.1, hplain.2.1⟩
    · have hgraphic := hurl.graphic c hc
      exact ⟨hgraphic.1, hgraphic.2.1⟩
  rcases htext with rfl | ⟨-, rfl⟩
  · exact hfull
  · intro c hc
    apply hfull
    rcases List.mem_append.mp hc with hc | hc
    · exact List.mem_append_left _ hc
    · exact List.mem_append_right _ (List.mem_append_right _ hc)

/-- The digits behind the last colon of a host and its port are the port. -/
private theorem port_of_colon (hE : E.Lawful) (h : Proper E url) {digits : List Char}
    (hdigits : ∀ c ∈ digits, c.isDigit = true) (hne : digits ≠ [])
    (htext : host ++ ':' :: digits = E.hostText url.host ++ portText url.port) :
    url.port = some (Nat.ofDigitChars 10 digits 0) := by
  have hreverse := congrArg List.reverse htext
  simp only [List.reverse_append, List.reverse_cons, List.append_assoc, List.singleton_append]
    at hreverse
  have hstops : ∀ c ∈ digits.reverse, (!c.isDigit) = false := fun c hc => by
    rw [hdigits c (List.mem_reverse.mp hc)]
    rfl
  cases hport : url.port with
  | none =>
    exfalso
    rw [hport, portText, List.reverse_nil, List.nil_append] at hreverse
    obtain ⟨⟨text, hhost⟩, -⟩ := h
    rcases hE.hostText_colon hhost with hplain | ⟨address, haddress, -, -⟩
    · refine (hplain ':' ?_).1 rfl
      rw [← List.mem_reverse, ← hreverse]
      exact List.mem_append_right _ List.mem_cons_self
    · -- A bracket is no digit.
      have hlast : ']' ∈ digits.reverse := by
        rw [haddress, List.reverse_cons, List.reverse_append] at hreverse
        cases hcase : digits.reverse with
        | nil => exact absurd (List.reverse_eq_nil_iff.mp hcase) hne
        | cons c rest =>
          rw [hcase] at hreverse
          rw [(List.cons.inj hreverse).1]
          exact List.mem_cons_self
      exact absurd (hdigits ']' (List.mem_reverse.mp hlast)) (by decide)
  | some n =>
    rw [hport, portText, List.reverse_cons, List.append_assoc, List.singleton_append] at hreverse
    have hstops' : ∀ c ∈ (toString n).toList.reverse, (!c.isDigit) = false := fun c hc => by
      rw [isDigit_of_mem_toString (List.mem_reverse.mp hc)]
      rfl
    obtain ⟨hsame, -⟩ := eq_of_append_stop hstops hstops' (by rfl) (by rfl) hreverse
    rw [List.reverse_injective hsame]
    exact congrArg some (Digits.decimal_toString n).symm

theorem not_namesDefaultPort (hE : E.Lawful) (h : IsCanonical E text) :
    ¬NamesDefaultPort text := by
  rintro ⟨scheme, name, host, digits, back, hnames, hscheme, hhost, hne, hdigits, hdefault,
    hback⟩
  obtain ⟨url, hurl, htext⟩ := h
  have hparts : ∃ back', back'.head?.all endsAuthority = true ∧ text =
      url.scheme.name ++ ':' :: '/' :: '/' ::
        (E.hostText url.host ++ portText url.port ++ back') := by
    rcases htext with htext | ⟨-, htext⟩
    · refine ⟨pathText url.path ++ queryText url.query, ?_, ?_⟩
      · cases hpath : url.path with
        | nil => exact absurd hpath hurl.path_ne_nil
        | cons first rest => rfl
      · rw [htext, originText_eq]
        simp
    · refine ⟨queryText url.query, (head?_queryText url.query).1, ?_⟩
      rw [htext, originText_eq]
      simp
  obtain ⟨back', hback', htext⟩ := hparts
  have hcolon : ':' ∉ name := by
    intro hmem
    have hmem' : foldCase ':' ∈ scheme.name := by
      rw [← hscheme]
      exact List.mem_map_of_mem hmem
    exact colon_notMem_name scheme hmem'
  have hplain : ∀ c ∈ host ++ ':' :: digits, endsAuthority c = false := by
    intro c hc
    rcases List.mem_append.mp hc with hc | hc
    · exact hhost c hc
    · rcases List.mem_cons.mp hc with rfl | hc
      · exact endsAuthority_colon
      · have hchar := isHostCharacter_of_isDigit (hdigits c hc)
        simp only [isHostCharacter, Bool.and_eq_true, Bool.not_eq_true'] at hchar
        exact hchar.1.1.2
  rw [hnames] at htext
  obtain ⟨hname, hauthority, -⟩ := parts_inj hcolon (colon_notMem_name url.scheme) hplain
    (authority_plain hE hurl.proper) hback hback' htext
  have hsame : scheme = url.scheme := by
    have hfold : url.scheme.name.map foldCase = url.scheme.name := by
      cases url.scheme <;> decide
    rw [hname, hfold] at hscheme
    have hread := ofName?_name url.scheme
    rw [hscheme, ofName?_name] at hread
    exact Option.some.inj hread
  have hport := port_of_colon hE hurl.proper hdigits hne hauthority
  rw [hdefault, hsame] at hport
  exact (hurl.proper.2 _ hport).2 rfl

end Texts

end WebUrl

end Lib
