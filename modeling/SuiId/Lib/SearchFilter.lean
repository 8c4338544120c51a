import Mathlib.Data.List.TakeDrop
import SuiId.Lib.Text

/-!
# Search filters of directories

The string form of a search filter.  A `Filter` is a tree with assertion values of a type of one's
choice: of characters as they are written, or of the bytes that these stand for.  `text` writes a
tree, `unescape` gives the bytes of a value, and `parse` reads a text, with the outer parentheses or
without them.  `parse_text` says that the text of a well-formed tree is read as that tree.

`replace_text` is about a mark that stands in a text for a value, such as the name of a variable:
replacing the mark in the text is replacing the value in the tree.
-/

namespace Lib.SearchFilter

/-! ## Trees -/

/-- The comparisons of a simple item. -/
inductive FilterType where
  | equal
  | approx
  | greaterOrEqual
  | lessOrEqual
deriving DecidableEq, Repr

/-- A test of one attribute.  What stands before the `:=` of an extensible match is kept as text. -/
inductive Item (V : Type) where
  | simple (attr : List Char) (type : FilterType) (value : V)
  | present (attr : List Char)
  | substrings (attr : List Char) (initial : V) (any : List V) (final : V)
  | extensible (rule : List Char) (value : V)
deriving DecidableEq, Repr

mutual

/-- A filter. -/
inductive Filter (V : Type) where
  | and (list : FilterList V)
  | or (list : FilterList V)
  | not (filter : Filter V)
  | item (item : Item V)

/-- A list of filters, at least one. -/
inductive FilterList (V : Type) where
  | one (filter : Filter V)
  | cons (filter : Filter V) (rest : FilterList V)

end

variable {V W X : Type}

/-- The item with other values. -/
def Item.map (f : V → W) : Item V → Item W
  | simple attr type value => simple attr type (f value)
  | present attr => present attr
  | substrings attr initial any final => substrings attr (f initial) (any.map f) (f final)
  | extensible rule value => extensible rule (f value)

mutual

/-- The tree with other items. -/
def Filter.mapItems (f : Item V → Item W) : Filter V → Filter W
  | .and list => .and (list.mapItems f)
  | .or list => .or (list.mapItems f)
  | .not filter => .not (filter.mapItems f)
  | .item i => .item (f i)

def FilterList.mapItems (f : Item V → Item W) : FilterList V → FilterList W
  | .one filter => .one (filter.mapItems f)
  | .cons filter rest => .cons (filter.mapItems f) (rest.mapItems f)

end

mutual

/-- All items of a tree have a property. -/
def Filter.All (p : Item V → Prop) : Filter V → Prop
  | .and list => list.All p
  | .or list => list.All p
  | .not filter => filter.All p
  | .item i => p i

/-- All items of a list have the property. -/
def FilterList.All (p : Item V → Prop) : FilterList V → Prop
  | .one filter => filter.All p
  | .cons filter rest => filter.All p ∧ rest.All p

end

/-! The facts about trees come in pairs, for a filter and for a list. -/

mutual

theorem Filter.mapItems_eq_iff {f g : Item V → Item W} :
    ∀ t : Filter V, t.mapItems f = t.mapItems g ↔ t.All fun i => f i = g i
  | .and list => (iff_of_eq (Filter.and.injEq ..)).trans (FilterList.mapItems_eq_iff list)
  | .or list => (iff_of_eq (Filter.or.injEq ..)).trans (FilterList.mapItems_eq_iff list)
  | .not filter => (iff_of_eq (Filter.not.injEq ..)).trans (Filter.mapItems_eq_iff filter)
  | .item _ => iff_of_eq (Filter.item.injEq ..)

theorem FilterList.mapItems_eq_iff {f g : Item V → Item W} :
    ∀ ts : FilterList V, ts.mapItems f = ts.mapItems g ↔ ts.All fun i => f i = g i
  | .one filter =>
      (iff_of_eq (FilterList.one.injEq ..)).trans (Filter.mapItems_eq_iff filter)
  | .cons filter rest => (iff_of_eq (FilterList.cons.injEq ..)).trans
      (and_congr (Filter.mapItems_eq_iff filter) (FilterList.mapItems_eq_iff rest))

end

mutual

theorem Filter.mapItems_mapItems (f : Item V → Item W) (g : Item W → Item X) :
    ∀ t : Filter V, (t.mapItems f).mapItems g = t.mapItems fun i => g (f i)
  | .and list => congrArg Filter.and (FilterList.mapItems_mapItems f g list)
  | .or list => congrArg Filter.or (FilterList.mapItems_mapItems f g list)
  | .not filter => congrArg Filter.not (Filter.mapItems_mapItems f g filter)
  | .item _ => rfl

theorem FilterList.mapItems_mapItems (f : Item V → Item W) (g : Item W → Item X) :
    ∀ ts : FilterList V, (ts.mapItems f).mapItems g = ts.mapItems fun i => g (f i)
  | .one filter => congrArg FilterList.one (Filter.mapItems_mapItems f g filter)
  | .cons filter rest => congrArg₂ FilterList.cons (Filter.mapItems_mapItems f g filter)
      (FilterList.mapItems_mapItems f g rest)

end

mutual

theorem Filter.All.combine {p q r : Item V → Prop} (h : ∀ i, p i → q i → r i) :
    ∀ t : Filter V, t.All p → t.All q → t.All r
  | .and list => FilterList.All.combine h list
  | .or list => FilterList.All.combine h list
  | .not filter => Filter.All.combine h filter
  | .item i => h i

theorem FilterList.All.combine {p q r : Item V → Prop} (h : ∀ i, p i → q i → r i) :
    ∀ ts : FilterList V, ts.All p → ts.All q → ts.All r
  | .one filter => Filter.All.combine h filter
  | .cons filter rest => fun hp hq =>
      ⟨Filter.All.combine h filter hp.1 hq.1, FilterList.All.combine h rest hp.2 hq.2⟩

end

mutual

theorem Filter.all_mapItems_iff {p : Item W → Prop} {f : Item V → Item W} :
    ∀ t : Filter V, (t.mapItems f).All p ↔ t.All fun i => p (f i)
  | .and list => FilterList.all_mapItems_iff list
  | .or list => FilterList.all_mapItems_iff list
  | .not filter => Filter.all_mapItems_iff filter
  | .item _ => Iff.rfl

theorem FilterList.all_mapItems_iff {p : Item W → Prop} {f : Item V → Item W} :
    ∀ ts : FilterList V, (ts.mapItems f).All p ↔ ts.All fun i => p (f i)
  | .one filter => Filter.all_mapItems_iff filter
  | .cons filter rest =>
      and_congr (Filter.all_mapItems_iff filter) (FilterList.all_mapItems_iff rest)

end

/-! ## The grammar -/

/-- A character of an attribute name. -/
def isKeychar (c : Char) : Bool := c.isAlphanum || c == '-'

/-- A descriptor or a dotted number. -/
def isOid (cs : List Char) : Bool :=
  let isDescriptor := (cs.head?.any Char.isAlpha) && cs.all isKeychar
  let isNumber (part : List Char) :=
    !part.isEmpty && part.all Char.isDigit && (part.head? != some '0' || part.length == 1)
  isDescriptor || (2 ≤ (cs.splitOn '.').length && (cs.splitOn '.').all isNumber)

/-- An attribute with its options. -/
def isAttribute (cs : List Char) : Bool :=
  match cs.splitOn ';' with
  | type :: options => isOid type && options.all fun o => !o.isEmpty && o.all isKeychar
  | [] => false

/-- The word `dn`, in any case. -/
def dnWords : List (List Char) := [['d', 'n'], ['d', 'N'], ['D', 'n'], ['D', 'N']]

/-- What stands before the `:=` of an extensible match: an attribute, `dn`, and a matching rule,
not all of them. -/
def isRule (cs : List Char) : Bool :=
  match cs.splitOn ':' with
  | [attr] => isAttribute attr
  | [attr, rule] => (attr.isEmpty || isAttribute attr) && isOid rule
  | [attr, dn, rule] =>
    (attr.isEmpty || isAttribute attr) && dnWords.contains dn && isOid rule
  | _ => false

/-- A character that stands for itself in a value. -/
def isNormal (c : Char) : Bool :=
  c != Char.ofNat 0 && c != '(' && c != ')' && c != '*' && c != '\\'

/-- The value of a hexadecimal digit. -/
def hexValue (c : Char) : Option Nat :=
  if c.isDigit then some (c.toNat - 48)
  else if 'a' ≤ c && c ≤ 'f' then some (c.toNat - 87)
  else if 'A' ≤ c && c ≤ 'F' then some (c.toNat - 55)
  else none

/-- The bytes of a value, if it is well formed. -/
def unescape : List Char → Option (List UInt8)
  | [] => some []
  | '\\' :: high :: low :: rest => do
    let h ← hexValue high
    let l ← hexValue low
    let bytes ← unescape rest
    some (UInt8.ofNat (16 * h + l) :: bytes)
  | c :: rest => if isNormal c then (unescape rest).map (String.utf8EncodeChar c ++ ·) else none

/-- The bytes of a well-formed value. -/
def bytes (value : List Char) : List UInt8 := (unescape value).getD []

/-- An item as it may be written. -/
def Item.Wf : Item (List Char) → Prop
  | simple attr _ value => isAttribute attr ∧ (unescape value).isSome
  | present attr => isAttribute attr
  | substrings attr initial any final =>
    isAttribute attr ∧ (unescape initial).isSome ∧ (∀ v ∈ any, (unescape v).isSome) ∧
      (unescape final).isSome ∧ ¬(initial = [] ∧ any = [] ∧ final = [])
  | extensible rule value => isRule rule ∧ (unescape value).isSome

/-- Every item is well formed. -/
def Filter.Wf (t : Filter (List Char)) : Prop := t.All Item.Wf

/-! ## Writing -/

/-- How a comparison is written. -/
def FilterType.mark : FilterType → List Char
  | equal => []
  | approx => ['~']
  | greaterOrEqual => ['>']
  | lessOrEqual => ['<']

/-- How an item is written. -/
def Item.text : Item (List Char) → List Char
  | simple attr type value => attr ++ type.mark ++ '=' :: value
  | present attr => attr ++ ['=', '*']
  | substrings attr initial any final =>
    attr ++ '=' :: (initial ++ '*' :: (any.flatMap (· ++ ['*']) ++ final))
  | extensible rule value => rule ++ ':' :: '=' :: value

mutual

/-- The text of a filter inside its parentheses. -/
def Filter.text : Filter (List Char) → List Char
  | .and list => '&' :: list.text
  | .or list => '|' :: list.text
  | .not filter => '!' :: '(' :: (filter.text ++ [')'])
  | .item i => i.text

/-- How a list is written. -/
def FilterList.text : FilterList (List Char) → List Char
  | .one filter => '(' :: (filter.text ++ [')'])
  | .cons filter rest => '(' :: (filter.text ++ ')' :: rest.text)

end

/-! ## Reading -/

/-- An item of one comparison. -/
def parseSimple (attr : List Char) (type : FilterType) (value : List Char) :
    Option (Item (List UInt8)) :=
  if isAttribute attr then (unescape value).map (.simple attr type) else none

/-- An equality match, or what is written with the same sign. -/
def parseEqual (attr value : List Char) : Option (Item (List UInt8)) :=
  if isAttribute attr then
    if value = ['*'] then some (.present attr)
    else do
      let parts ← (value.splitOn '*').mapM unescape
      match parts with
      | [] => none
      | [v] => some (.simple attr .equal v)
      | initial :: rest => some (.substrings attr initial rest.dropLast (rest.getLast?.getD []))
  else none

/-- What stands between two parentheses. -/
def parseItem (cs : List Char) : Option (Item (List UInt8)) :=
  match cs.span (· != '=') with
  | (left, '=' :: value) =>
    match left.getLast? with
    | some '~' => parseSimple left.dropLast .approx value
    | some '>' => parseSimple left.dropLast .greaterOrEqual value
    | some '<' => parseSimple left.dropLast .lessOrEqual value
    | some ':' =>
      if isRule left.dropLast then (unescape value).map (.extensible left.dropLast) else none
    | _ => parseEqual left value
  | _ => none

mutual

/-- Read a filter inside its parentheses. -/
def parseFilter : Nat → List Char → Option (Filter (List UInt8) × List Char)
  | 0, _ => none
  | fuel + 1, '&' :: rest => (parseList fuel rest).map fun (list, rest) => (.and list, rest)
  | fuel + 1, '|' :: rest => (parseList fuel rest).map fun (list, rest) => (.or list, rest)
  | fuel + 1, '!' :: '(' :: rest =>
    match parseFilter fuel rest with
    | some (filter, ')' :: rest) => some (.not filter, rest)
    | _ => none
  | _ + 1, cs => (parseItem (cs.span (· != ')')).1).map fun i => (.item i, (cs.span (· != ')')).2)

def parseList : Nat → List Char → Option (FilterList (List UInt8) × List Char)
  | fuel + 1, '(' :: rest =>
    match parseFilter fuel rest with
    | some (filter, ')' :: '(' :: rest) =>
      (parseList fuel ('(' :: rest)).map fun (list, rest) => (.cons filter list, rest)
    | some (filter, ')' :: rest) => some (.one filter, rest)
    | _ => none
  | _, _ => none

end

/-- Read a filter, with its outer parentheses or without them. -/
def parse : List Char → Option (Filter (List UInt8))
  | '(' :: rest =>
    match parseFilter rest.length rest with
    | some (filter, [')']) => some filter
    | _ => none
  | cs =>
    match parseFilter cs.length cs with
    | some (filter, []) => some filter
    | _ => none

/-! ## Characters of the parts -/

variable {c : Char} {cs attr : List Char} {i : Item (List Char)} {t : Filter (List Char)}

private theorem mem_of_splitOn (sep : Char) (h : c ∈ cs) :
    c = sep ∨ ∃ piece ∈ cs.splitOn sep, c ∈ piece := by
  induction cs with
  | nil => cases h
  | cons d cs ih =>
    rw [List.splitOn_cons_eq_if_modifyHead]
    by_cases hd : d = sep
    · rw [if_pos (beq_iff_eq.mpr hd)]
      rcases List.mem_cons.mp h with rfl | h
      · exact Or.inl hd
      · rcases ih h with hsep | ⟨piece, hpiece, hc⟩
        · exact Or.inl hsep
        · exact Or.inr ⟨piece, List.mem_cons_of_mem _ hpiece, hc⟩
    · rw [if_neg (fun hsame => hd (beq_iff_eq.mp hsame))]
      cases hpieces : cs.splitOn sep with
      | nil => exact absurd hpieces (List.splitOn_ne_nil sep cs)
      | cons first rest =>
        rw [List.modifyHead_cons]
        rcases List.mem_cons.mp h with rfl | h
        · exact Or.inr ⟨c :: first, List.mem_cons_self, List.mem_cons_self⟩
        · rw [hpieces] at ih
          rcases ih h with hsep | ⟨piece, hpiece, hc⟩
          · exact Or.inl hsep
          · rcases List.mem_cons.mp hpiece with rfl | hpiece
            · exact Or.inr ⟨d :: piece, List.mem_cons_self, List.mem_cons_of_mem _ hc⟩
            · exact Or.inr ⟨piece, List.mem_cons_of_mem _ hpiece, hc⟩

/-- A character of an attribute. -/
def isAttributeChar (c : Char) : Bool := isKeychar c || c == '.' || c == ';'

private theorem isKeychar_of_isOid (h : isOid cs = true) (hc : c ∈ cs) :
    isKeychar c ∨ c = '.' := by
  rw [isOid, Bool.or_eq_true, Bool.and_eq_true, Bool.and_eq_true] at h
  rcases h with ⟨-, hall⟩ | ⟨-, hall⟩
  · exact Or.inl (List.all_eq_true.mp hall c hc)
  · rcases mem_of_splitOn '.' hc with hdot | ⟨part, hpart, hc⟩
    · exact Or.inr hdot
    · have hnumber := List.all_eq_true.mp hall part hpart
      rw [Bool.and_eq_true, Bool.and_eq_true] at hnumber
      have hdigit := List.all_eq_true.mp hnumber.1.2 c hc
      refine Or.inl ?_
      rw [isKeychar, Char.isAlphanum, hdigit, Bool.or_true, Bool.true_or]

theorem isAttributeChar_of_mem (h : isAttribute cs = true) (hc : c ∈ cs) :
    isAttributeChar c = true := by
  rw [isAttributeChar, Bool.or_eq_true, Bool.or_eq_true, beq_iff_eq, beq_iff_eq]
  rcases mem_of_splitOn ';' hc with hsep | ⟨piece, hpiece, hc⟩
  · exact Or.inr hsep
  · rw [isAttribute] at h
    cases hpieces : cs.splitOn ';' with
    | nil => exact absurd hpieces (List.splitOn_ne_nil ';' cs)
    | cons type options =>
      rw [hpieces] at h hpiece
      obtain ⟨htype, hoptions⟩ := (Bool.and_eq_true _ _).mp h
      rcases List.mem_cons.mp hpiece with rfl | hpiece
      · exact Or.inl (isKeychar_of_isOid htype hc)
      · have hoption := List.all_eq_true.mp hoptions piece hpiece
        rw [Bool.and_eq_true] at hoption
        exact Or.inl (Or.inl (List.all_eq_true.mp hoption.2 c hc))

theorem isRuleChar_of_mem (h : isRule cs = true) (hc : c ∈ cs) :
    isAttributeChar c = true ∨ c = ':' := by
  have hattr : ∀ {attr : List Char}, (attr.isEmpty || isAttribute attr) = true → ∀ c ∈ attr,
      isAttributeChar c = true := by
    intro attr hattr c hc
    rcases (Bool.or_eq_true _ _).mp hattr with hempty | hattr
    · rw [List.isEmpty_iff.mp hempty] at hc
      cases hc
    · exact isAttributeChar_of_mem hattr hc
  have hoid : ∀ {rule : List Char}, isOid rule = true → ∀ c ∈ rule, isAttributeChar c = true := by
    intro rule hoid c hc
    rw [isAttributeChar, Bool.or_eq_true, Bool.or_eq_true, beq_iff_eq]
    exact Or.inl (isKeychar_of_isOid hoid hc)
  have hdn : ∀ {dn : List Char}, dnWords.contains dn = true → ∀ c ∈ dn,
      isAttributeChar c = true := by
    intro dn hdn
    have hall : ∀ dn ∈ dnWords, dn.all isAttributeChar = true := by decide
    exact List.all_eq_true.mp (hall dn (List.contains_iff_mem.mp hdn))
  rcases mem_of_splitOn ':' hc with hsep | ⟨piece, hpiece, hc⟩
  · exact Or.inr hsep
  · refine Or.inl ?_
    rw [isRule] at h
    split at h
    · rename_i attr hpieces
      rw [hpieces, List.mem_singleton] at hpiece
      exact isAttributeChar_of_mem h (hpiece ▸ hc)
    · rename_i attr rule hpieces
      rw [Bool.and_eq_true] at h
      rw [hpieces] at hpiece
      rcases List.mem_cons.mp hpiece with rfl | hpiece
      · exact hattr h.1 c hc
      · exact hoid h.2 c (List.mem_singleton.mp hpiece ▸ hc)
    · rename_i attr dn rule hpieces
      rw [Bool.and_eq_true, Bool.and_eq_true] at h
      rw [hpieces] at hpiece
      rcases List.mem_cons.mp hpiece with rfl | hpiece
      · exact hattr h.1.1 c hc
      · rcases List.mem_cons.mp hpiece with rfl | hpiece
        · exact hdn h.1.2 c hc
        · exact hoid h.2 c (List.mem_singleton.mp hpiece ▸ hc)
    · cases h

private theorem isNormal_of_hexValue {n : Nat} (h : hexValue c = some n) :
    isNormal c = true := by
  by_contra hspecial
  have hcases : c = Char.ofNat 0 ∨ c = '(' ∨ c = ')' ∨ c = '*' ∨ c = '\\' := by
    simp only [isNormal, Bool.and_eq_true, bne_iff_ne, ne_eq] at hspecial
    tauto
  have hnone : hexValue c = none := by
    rcases hcases with rfl | rfl | rfl | rfl | rfl <;> decide
  rw [hnone] at h
  cases h

private theorem ne_of_isNormal (h : isNormal c = true) :
    c ≠ '(' ∧ c ≠ ')' ∧ c ≠ '*' := by
  refine ⟨?_, ?_, ?_⟩ <;> rintro rfl <;> exact absurd h (by decide)

variable {rest initial final : List Char}

theorem unescape_escaped {high low : Char} {b : List UInt8} :
    unescape ('\\' :: high :: low :: rest) = some b ↔
      ∃ h l bytes, hexValue high = some h ∧ hexValue low = some l ∧ unescape rest = some bytes ∧
        UInt8.ofNat (16 * h + l) :: bytes = b := by
  rw [unescape]
  constructor
  · intro hsome
    obtain ⟨h, hhigh, hsome⟩ := Option.bind_eq_some_iff.mp hsome
    obtain ⟨l, hlow, hsome⟩ := Option.bind_eq_some_iff.mp hsome
    obtain ⟨bytes, hrest, hsome⟩ := Option.bind_eq_some_iff.mp hsome
    exact ⟨h, l, bytes, hhigh, hlow, hrest, Option.some_inj.mp hsome⟩
  · rintro ⟨h, l, bytes, hhigh, hlow, hrest, rfl⟩
    rw [hhigh, hlow, hrest]
    rfl

/-- A well-formed value has no character that has a meaning around it. -/
theorem plain_of_unescape {value : List Char} (h : (unescape value).isSome) :
    ∀ c ∈ value, c ≠ '(' ∧ c ≠ ')' ∧ c ≠ '*' := by
  induction value using unescape.induct with
  | case1 => simp
  | case2 high low rest ih =>
    obtain ⟨b, hb⟩ := Option.isSome_iff_exists.mp h
    obtain ⟨_, _, bytes, hhigh, hlow, hrest, -⟩ := unescape_escaped.mp hb
    have hrest' := ih (Option.isSome_iff_exists.mpr ⟨bytes, hrest⟩)
    rw [List.forall_mem_cons, List.forall_mem_cons, List.forall_mem_cons]
    exact ⟨by decide, ne_of_isNormal (isNormal_of_hexValue hhigh),
      ne_of_isNormal (isNormal_of_hexValue hlow), hrest'⟩
  | case3 c rest hne hnormal ih =>
    rw [unescape.eq_3 c rest hne, if_pos hnormal, Option.isSome_map] at h
    rw [List.forall_mem_cons]
    exact ⟨ne_of_isNormal hnormal, ih h⟩
  | case4 c rest hne hspecial =>
    rw [unescape.eq_3 c rest hne, if_neg hspecial] at h
    cases h

/-! ## Items are read as they were written -/

private theorem unescape_eq {value : List Char} (h : (unescape value).isSome) :
    unescape value = some (bytes value) := by
  obtain ⟨b, hb⟩ := Option.isSome_iff_exists.mp h
  rw [bytes, hb]
  rfl

private theorem span_append {p : Char → Bool} {before after : List Char}
    (hbefore : ∀ d ∈ before, p d = true) (hc : p c = false) :
    (before ++ c :: after).span p = (before, c :: after) := by
  rw [List.span_eq_takeWhile_dropWhile, List.takeWhile_append_of_pos hbefore,
    List.dropWhile_append_of_pos hbefore, List.takeWhile_cons_of_neg (by simp [hc]),
    List.dropWhile_cons_of_neg (by simp [hc]), List.append_nil]

/-- The sign of an item is its first `=`. -/
private theorem parseItem_cut {left value : List Char} (hleft : '=' ∉ left) :
    (left ++ '=' :: value).span (· != '=') = (left, '=' :: value) :=
  span_append (fun d hd => by
    rw [bne_iff_ne]
    rintro rfl
    exact hleft hd) (by decide)

private theorem parts_of_substrings {any : List (List Char)} (hinitial : '*' ∉ initial)
    (hany : ∀ v ∈ any, '*' ∉ v) (hfinal : '*' ∉ final) :
    (initial ++ '*' :: (any.flatMap (· ++ ['*']) ++ final)).splitOn '*' =
      initial :: (any ++ [final]) := by
  rw [List.splitOn_append_cons_self, List.splitOn_eq_singleton hinitial, List.singleton_append,
    List.cons_inj_right]
  induction any with
  | nil => rw [List.flatMap_nil, List.nil_append, List.splitOn_eq_singleton hfinal]; rfl
  | cons v any ih =>
    have hv := hany v List.mem_cons_self
    rw [List.flatMap_cons, List.append_assoc, List.append_assoc, List.singleton_append,
      List.splitOn_append_cons_self, List.splitOn_eq_singleton hv,
      ih fun w hw => hany w (List.mem_cons_of_mem _ hw)]
    rfl

private theorem ne_of_isAttributeChar (h : isAttributeChar c = true) :
    c ≠ '=' ∧ c ≠ '~' ∧ c ≠ '>' ∧ c ≠ '<' ∧ c ≠ ':' ∧ c ≠ ')' ∧ c ≠ '(' ∧ c ≠ '&' ∧ c ≠ '|' ∧
      c ≠ '!' := by
  refine ⟨?_, ?_, ?_, ?_, ?_, ?_, ?_, ?_, ?_, ?_⟩ <;> rintro rfl <;> exact absurd h (by decide)

private theorem equals_notMem (h : isAttribute attr = true) : '=' ∉ attr :=
  fun hmem => (ne_of_isAttributeChar (isAttributeChar_of_mem h hmem)).1 rfl

private theorem parseItem_equal (h : isAttribute attr = true) (value : List Char) :
    parseItem (attr ++ '=' :: value) = parseEqual attr value := by
  rw [parseItem, parseItem_cut (equals_notMem h)]
  cases hlast : attr.getLast? with
  | none => simp only [hlast]
  | some c =>
    have hmem := List.mem_of_getLast? hlast
    obtain ⟨-, htilde, hgreater, hless, hcolon, -⟩ :=
      ne_of_isAttributeChar (isAttributeChar_of_mem h hmem)
    simp only [hlast]
    split
    · rename_i hsame
      exact absurd (Option.some_inj.mp hsame) htilde
    · rename_i hsame
      exact absurd (Option.some_inj.mp hsame) hgreater
    · rename_i hsame
      exact absurd (Option.some_inj.mp hsame) hless
    · rename_i hsame
      exact absurd (Option.some_inj.mp hsame) hcolon
    · rfl

/-- An item with a sign of two characters. -/
private theorem parseItem_marked {left value : List Char} (hleft : '=' ∉ left) (hc : c ≠ '=') :
    parseItem (left ++ [c] ++ '=' :: value) =
      match some c with
      | some '~' => parseSimple left .approx value
      | some '>' => parseSimple left .greaterOrEqual value
      | some '<' => parseSimple left .lessOrEqual value
      | some ':' => if isRule left then (unescape value).map (.extensible left) else none
      | _ => parseEqual (left ++ [c]) value := by
  have hcut : '=' ∉ left ++ [c] := by simp [hleft, Ne.symm hc]
  rw [parseItem, parseItem_cut hcut]
  simp only [List.getLast?_append, List.getLast?_singleton, Option.some_or, List.dropLast_concat]

private theorem parseEqual_value {value : List Char} (hattr : isAttribute attr = true)
    (hvalue : (unescape value).isSome) :
    parseEqual attr value = some (.simple attr .equal (bytes value)) := by
  have hstar : '*' ∉ value := fun hmem => (plain_of_unescape hvalue _ hmem).2.2 rfl
  have hne : value ≠ ['*'] := fun hsame => hstar (hsame ▸ List.mem_singleton_self _)
  rw [parseEqual, if_pos hattr, if_neg hne, List.splitOn_eq_singleton hstar, List.mapM_cons,
    unescape_eq hvalue]
  rfl

private theorem mapM_unescape {values : List (List Char)} (h : ∀ v ∈ values, (unescape v).isSome) :
    values.mapM unescape = some (values.map bytes) := by
  induction values with
  | nil => rfl
  | cons v values ih =>
    rw [List.mapM_cons, unescape_eq (h v List.mem_cons_self),
      ih fun w hw => h w (List.mem_cons_of_mem _ hw)]
    rfl

private theorem parseEqual_substrings {any : List (List Char)}
    (h : (Item.substrings attr initial any final).Wf) :
    parseEqual attr (initial ++ '*' :: (any.flatMap (· ++ ['*']) ++ final)) =
      some (.substrings attr (bytes initial) (any.map bytes) (bytes final)) := by
  obtain ⟨hattr, hinitial, hany, hfinal, hnonempty⟩ := h
  have hplain : ∀ {v : List Char}, (unescape v).isSome → '*' ∉ v := fun hv hmem =>
    (plain_of_unescape hv _ hmem).2.2 rfl
  have hne : initial ++ '*' :: (any.flatMap (· ++ ['*']) ++ final) ≠ ['*'] := by
    intro hsame
    have hlength := congrArg List.length hsame
    rw [List.length_append, List.length_cons, List.length_append, List.length_singleton] at hlength
    have hnone : any = [] := by
      cases any with
      | nil => rfl
      | cons v any =>
        rw [List.flatMap_cons, List.length_append, List.length_append, List.length_singleton]
          at hlength
        omega
    exact hnonempty ⟨List.length_eq_zero_iff.mp (by omega), hnone,
      List.length_eq_zero_iff.mp (by omega)⟩
  have hparts := parts_of_substrings (hplain hinitial) (fun v hv => hplain (hany v hv))
    (hplain hfinal)
  have hall : ∀ v ∈ initial :: (any ++ [final]), (unescape v).isSome := by
    rw [List.forall_mem_cons, List.forall_mem_append, List.forall_mem_singleton]
    exact ⟨hinitial, hany, hfinal⟩
  have hmap : (initial :: (any ++ [final])).map bytes =
      bytes initial :: (any.map bytes ++ [bytes final]) := by
    rw [List.map_cons, List.map_append, List.map_singleton]
  rw [parseEqual, if_pos hattr, if_neg hne, hparts, mapM_unescape hall, hmap]
  cases hrest : any.map bytes ++ [bytes final] with
  | nil => exact absurd hrest (by simp)
  | cons second rest =>
    show some (Item.substrings attr (bytes initial) (second :: rest).dropLast
      ((second :: rest).getLast?.getD [])) = _
    rw [← hrest, List.dropLast_concat, List.getLast?_concat]
    rfl

/-- A well-formed item is read as it was written. -/
theorem parseItem_text (h : i.Wf) :
    parseItem i.text = some (i.map bytes) := by
  cases i with
  | simple attr type value =>
    obtain ⟨hattr, hvalue⟩ := h
    have hsimple : ∀ type,
        parseSimple attr type value = some (.simple attr type (bytes value)) := by
      intro type
      rw [parseSimple, if_pos hattr, unescape_eq hvalue]
      rfl
    cases type with
    | equal =>
      rw [Item.text, FilterType.mark, List.append_nil, parseItem_equal hattr,
        parseEqual_value hattr hvalue]
      rfl
    | approx => exact (parseItem_marked (equals_notMem hattr) (by decide)).trans (hsimple .approx)
    | greaterOrEqual =>
      exact (parseItem_marked (equals_notMem hattr) (by decide)).trans (hsimple .greaterOrEqual)
    | lessOrEqual =>
      exact (parseItem_marked (equals_notMem hattr) (by decide)).trans (hsimple .lessOrEqual)
  | present attr =>
    have hattr : isAttribute attr = true := h
    rw [Item.text, parseItem_equal hattr, parseEqual, if_pos hattr, if_pos rfl]
    rfl
  | substrings attr initial any final =>
    rw [Item.text, parseItem_equal h.1, parseEqual_substrings h]
    rfl
  | extensible rule value =>
    obtain ⟨hrule, hvalue⟩ := h
    have hequals : '=' ∉ rule := by
      intro hmem
      rcases isRuleChar_of_mem hrule hmem with hchar | hcolon
      · exact (ne_of_isAttributeChar hchar).1 rfl
      · cases hcolon
    have htext : rule ++ ':' :: '=' :: value = rule ++ [':'] ++ '=' :: value := by
      rw [List.append_assoc, List.singleton_append]
    rw [Item.text, htext, parseItem_marked hequals (by decide)]
    show (if isRule rule = true then (unescape value).map (Item.extensible rule) else none) = _
    rw [if_pos hrule, unescape_eq hvalue]
    rfl

/-! ## Filters are read as they were written -/

/-- What may follow a filter: nothing, or a closing parenthesis. -/
def Closed (rest : List Char) : Prop := rest = [] ∨ ∃ after, rest = ')' :: after

/-- A character of what stands before the sign of an item. -/
def IsLeftChar (c : Char) : Prop := isAttributeChar c = true ∨ c = ':'

theorem IsLeftChar.ne (h : IsLeftChar c) :
    c ≠ ')' ∧ c ≠ '&' ∧ c ≠ '|' ∧ c ≠ '!' ∧ c ≠ '(' := by
  rcases h with hattr | rfl
  · obtain ⟨-, -, -, -, -, hclose, hopen, hamp, hbar, hbang⟩ := ne_of_isAttributeChar hattr
    exact ⟨hclose, hamp, hbar, hbang, hopen⟩
  · decide

private theorem left_attribute (h : isAttribute attr = true) :
    attr ≠ [] ∧ ∀ c ∈ attr, IsLeftChar c := by
  constructor
  · rintro rfl
    exact absurd h (by decide)
  · exact fun c hc => Or.inl (isAttributeChar_of_mem h hc)

private theorem left_rule {rule : List Char} (h : isRule rule = true) :
    rule ≠ [] ∧ ∀ c ∈ rule, IsLeftChar c := by
  constructor
  · rintro rfl
    exact absurd h (by decide)
  · exact fun c hc => isRuleChar_of_mem h hc

/-- An item is what stands before its sign, and then text without a closing parenthesis. -/
private theorem text_split (h : i.Wf) :
    ∃ left right, i.text = left ++ right ∧ left ≠ [] ∧ (∀ c ∈ left, IsLeftChar c) ∧
      ')' ∉ right := by
  have hplain : ∀ {v : List Char}, (unescape v).isSome → ')' ∉ v := fun hv hmem =>
    (plain_of_unescape hv _ hmem).2.1 rfl
  cases i with
  | simple attr type value =>
    obtain ⟨hne, hleft⟩ := left_attribute h.1
    refine ⟨attr, type.mark ++ '=' :: value, List.append_assoc .., hne, hleft, ?_⟩
    have hvalue := hplain h.2
    cases type <;> simpa [FilterType.mark] using hvalue
  | present attr =>
    have hattr : isAttribute attr = true := h
    obtain ⟨hne, hleft⟩ := left_attribute hattr
    exact ⟨attr, ['=', '*'], rfl, hne, hleft, by decide⟩
  | substrings attr initial any final =>
    obtain ⟨hne, hleft⟩ := left_attribute h.1
    refine ⟨attr, _, rfl, hne, hleft, ?_⟩
    have hany : ∀ v ∈ any, ')' ∉ v := fun v hv => hplain (h.2.2.1 v hv)
    simp [hplain h.2.1, hplain h.2.2.2.1]
    exact hany
  | extensible rule value =>
    obtain ⟨hne, hleft⟩ := left_rule h.1
    exact ⟨rule, ':' :: '=' :: value, rfl, hne, hleft, by simp [hplain h.2]⟩

theorem item_head (h : i.Wf) :
    ∃ c cs, i.text = c :: cs ∧ IsLeftChar c := by
  obtain ⟨left, right, htext, hne, hleft, -⟩ := text_split h
  cases left with
  | nil => exact absurd rfl hne
  | cons c left => exact ⟨c, left ++ right, htext, hleft c List.mem_cons_self⟩

private theorem close_notMem (h : i.Wf) :
    ∀ c ∈ i.text, (c != ')') = true := by
  obtain ⟨left, right, htext, -, hleft, hright⟩ := text_split h
  intro c hc
  rw [bne_iff_ne]
  rw [htext] at hc
  rcases List.mem_append.mp hc with hc | hc
  · exact (hleft c hc).ne.1
  · rintro rfl
    exact hright hc

private theorem span_item {cs rest : List Char} (hcs : ∀ c ∈ cs, (c != ')') = true)
    (hrest : Closed rest) : (cs ++ rest).span (· != ')') = (cs, rest) := by
  rcases hrest with rfl | ⟨after, rfl⟩
  · rw [List.append_nil, List.span_eq_takeWhile_dropWhile, List.takeWhile_eq_self_iff.mpr hcs,
      List.dropWhile_eq_nil_iff.mpr hcs]
  · exact span_append hcs (by decide)

private theorem parseFilter_item (h : i.Wf) (hrest : Closed rest) (fuel : Nat) :
    parseFilter (fuel + 1) (i.text ++ rest) = some (.item (i.map bytes), rest) := by
  obtain ⟨c, cs, htext, hleft⟩ := item_head h
  obtain ⟨-, hamp, hbar, hbang, -⟩ := hleft.ne
  have hspan := span_item (close_notMem h) hrest
  have hitem := parseItem_text h
  have hother : ∀ {d : Char}, c ≠ d → ∀ after, c :: cs ++ rest = d :: after → False :=
    fun hne after hsame => hne (List.cons.inj hsame).1
  rw [htext] at hspan hitem ⊢
  rw [parseFilter.eq_5 _ _ (hother hamp) (hother hbar) (fun after => hother hbang _), hspan, hitem]
  rfl

mutual

theorem parseFilter_text : ∀ {t : Filter (List Char)} (_ : t.Wf) {rest : List Char}
    (_ : Closed rest) {fuel : Nat} (_ : t.text.length ≤ fuel),
    parseFilter fuel (t.text ++ rest) = some (t.mapItems (Item.map bytes), rest)
  | .and list, h, rest, hrest, fuel, hfuel => by
    rw [Filter.text, List.length_cons] at hfuel
    obtain ⟨fuel, rfl⟩ := Nat.exists_eq_succ_of_ne_zero (show fuel ≠ 0 by omega)
    rw [Filter.text, List.cons_append, parseFilter, parseList_text h hrest (by omega)]
    rfl
  | .or list, h, rest, hrest, fuel, hfuel => by
    rw [Filter.text, List.length_cons] at hfuel
    obtain ⟨fuel, rfl⟩ := Nat.exists_eq_succ_of_ne_zero (show fuel ≠ 0 by omega)
    rw [Filter.text, List.cons_append, parseFilter, parseList_text h hrest (by omega)]
    rfl
  | .not filter, h, rest, hrest, fuel, hfuel => by
    rw [Filter.text, List.length_cons, List.length_cons, List.length_append] at hfuel
    obtain ⟨fuel, rfl⟩ := Nat.exists_eq_succ_of_ne_zero (show fuel ≠ 0 by omega)
    have hinner := @parseFilter_text filter h (')' :: rest) (Or.inr ⟨rest, rfl⟩) fuel (by omega)
    rw [Filter.text, List.cons_append, List.cons_append, List.append_assoc, List.singleton_append,
      parseFilter, hinner]
    rfl
  | .item i, h, rest, hrest, fuel, hfuel => by
    obtain ⟨c, cs, htext, -⟩ := item_head h
    have hlength : 0 < i.text.length := by
      rw [htext, List.length_cons]
      omega
    rw [Filter.text] at hfuel
    obtain ⟨fuel, rfl⟩ := Nat.exists_eq_succ_of_ne_zero (show fuel ≠ 0 by omega)
    exact parseFilter_item h hrest fuel

theorem parseList_text : ∀ {ts : FilterList (List Char)} (_ : ts.All Item.Wf) {rest : List Char}
    (_ : Closed rest) {fuel : Nat} (_ : ts.text.length ≤ fuel),
    parseList fuel (ts.text ++ rest) = some (ts.mapItems (Item.map bytes), rest)
  | .one filter, h, rest, hrest, fuel, hfuel => by
    rw [FilterList.text, List.length_cons, List.length_append] at hfuel
    obtain ⟨fuel, rfl⟩ := Nat.exists_eq_succ_of_ne_zero (show fuel ≠ 0 by omega)
    have hinner := @parseFilter_text filter h (')' :: rest) (Or.inr ⟨rest, rfl⟩) fuel (by omega)
    rw [FilterList.text, List.cons_append, List.append_assoc, List.singleton_append, parseList,
      hinner]
    -- What follows is not one more filter.
    rcases hrest with rfl | ⟨after, rfl⟩ <;> rfl
  | .cons filter list, h, rest, hrest, fuel, hfuel => by
    obtain ⟨cs, htext⟩ : ∃ cs, list.text = '(' :: cs := by
      cases list <;> exact ⟨_, rfl⟩
    rw [FilterList.text, List.length_cons, List.length_append, List.length_cons] at hfuel
    obtain ⟨fuel, rfl⟩ := Nat.exists_eq_succ_of_ne_zero (show fuel ≠ 0 by omega)
    have hinner := @parseFilter_text filter h.1 (')' :: (list.text ++ rest)) (Or.inr ⟨_, rfl⟩) fuel
      (by omega)
    have hlist := @parseList_text list h.2 rest hrest fuel (by omega)
    rw [FilterList.text, List.cons_append, List.append_assoc, List.cons_append, parseList, hinner]
    rw [htext, List.cons_append] at hlist ⊢
    simp only [hlist]
    rfl

end

theorem text_head (h : t.Wf) : ∃ c cs, t.text = c :: cs ∧ c ≠ '(' := by
  cases t with
  | and list => exact ⟨'&', _, rfl, by decide⟩
  | or list => exact ⟨'|', _, rfl, by decide⟩
  | not filter => exact ⟨'!', _, rfl, by decide⟩
  | item i =>
    obtain ⟨c, cs, htext, hleft⟩ := item_head h
    exact ⟨c, cs, htext, hleft.ne.2.2.2.2⟩

/-- The text of a well-formed tree is read as the tree. -/
theorem parse_text (h : t.Wf) :
    parse t.text = some (t.mapItems (Item.map bytes)) := by
  obtain ⟨c, cs, htext, hopen⟩ := text_head h
  have hread := parseFilter_text h (Or.inl rfl) (Nat.le_refl t.text.length)
  rw [List.append_nil, htext] at hread
  rw [htext, parse.eq_2 _ fun rest hsame => hopen (List.cons.inj hsame).1, hread]

/-- So is the text inside parentheses. -/
theorem parse_parenthesized (h : t.Wf) :
    parse ('(' :: (t.text ++ [')'])) = some (t.mapItems (Item.map bytes)) := by
  have hread := @parseFilter_text t h [')'] (Or.inr ⟨[], rfl⟩) (t.text ++ [')']).length
    (by rw [List.length_append]; omega)
  rw [parse, hread]
  rfl

/-! ## Marks in texts -/

section Marks

variable {old new : List Char}
variable {sep : Char}

private theorem isPrefixOf_append (hsep : sep ∉ old) (before after : List Char) :
    old.isPrefixOf (before ++ sep :: after) = old.isPrefixOf before := by
  rw [Bool.eq_iff_iff, List.isPrefixOf_iff_prefix, List.isPrefixOf_iff_prefix]
  constructor
  · intro hprefix
    have hall : before ++ [sep] <+: before ++ sep :: after :=
      ⟨after, by rw [List.append_assoc, List.singleton_append]⟩
    rcases List.prefix_or_prefix_of_prefix hprefix hall with h | h
    · rcases List.prefix_concat_iff.mp h with rfl | h
      · exact absurd (List.mem_append_right before (List.mem_singleton_self sep)) hsep
      · exact h
    · exact absurd (h.subset (List.mem_append_right before (List.mem_singleton_self sep))) hsep
  · intro hprefix
    exact hprefix.trans (List.prefix_append _ _)

private theorem replaceFrom_append_aux (hsep : sep ∉ old) (hold : old ≠ [])
    (before after : List Char) : ∀ skip, skip ≤ before.length →
      Text.replaceFrom old new skip (before ++ sep :: after) =
        Text.replaceFrom old new skip before ++ sep :: Text.replaceFrom old new 0 after := by
  induction before with
  | nil =>
    intro skip hskip
    have hzero : skip = 0 := Nat.le_zero.mp hskip
    have hno : ¬old.isPrefixOf (sep :: after) = true := by
      have hsame := isPrefixOf_append hsep [] after
      rw [List.nil_append] at hsame
      rw [hsame, List.isPrefixOf_iff_prefix, List.prefix_nil]
      exact hold
    subst hzero
    show (if old.isPrefixOf (sep :: after) = true then _ else
      sep :: Text.replaceFrom old new 0 after) = sep :: Text.replaceFrom old new 0 after
    rw [if_neg hno]
  | cons c before ih =>
    intro skip hskip
    cases skip with
    | succ skip => exact ih skip (Nat.le_of_succ_le_succ hskip)
    | zero =>
      have hsame := isPrefixOf_append hsep (c :: before) after
      rw [List.cons_append] at hsame
      rw [List.cons_append, Text.replaceFrom, Text.replaceFrom, hsame]
      by_cases hmark : old.isPrefixOf (c :: before) = true
      · have hlength := (List.isPrefixOf_iff_prefix.mp hmark).length_le
        rw [List.length_cons] at hlength
        rw [if_pos hmark, if_pos hmark, ih _ (by omega), List.append_assoc]
      · rw [if_neg hmark, if_neg hmark, ih 0 (Nat.zero_le _), List.cons_append]

/-- An occurrence does not reach over a character that the mark does not have. -/
theorem replaceFrom_append (hsep : sep ∉ old) (hold : old ≠ []) (before after : List Char) :
    Text.replaceFrom old new 0 (before ++ sep :: after) =
      Text.replaceFrom old new 0 before ++ sep :: Text.replaceFrom old new 0 after :=
  replaceFrom_append_aux hsep hold before after 0 (Nat.zero_le _)

/-- A text without the mark stays as it is. -/
theorem replaceFrom_of_not_infix {cs : List Char} (h : ¬old <:+: cs) :
    Text.replaceFrom old new 0 cs = cs := by
  induction cs with
  | nil => rfl
  | cons c cs ih =>
    have hhead : ¬old.isPrefixOf (c :: cs) = true := fun hprefix =>
      h (List.isPrefixOf_iff_prefix.mp hprefix).isInfix
    have htail : ¬old <:+: cs := fun hwithin => h (hwithin.trans (List.suffix_cons c cs).isInfix)
    rw [Text.replaceFrom, if_neg hhead, ih htail]

/-- The mark alone is replaced. -/
theorem replaceFrom_self (hold : old ≠ []) : Text.replaceFrom old new 0 old = new := by
  cases old with
  | nil => exact absurd rfl hold
  | cons c cs =>
    have hskip : ∀ l : List Char, Text.replaceFrom (c :: cs) new l.length l = [] := by
      intro l
      induction l with
      | nil => rfl
      | cons d l ih => exact ih
    have hprefix : (c :: cs).isPrefixOf (c :: cs) = true :=
      List.isPrefixOf_iff_prefix.mpr (List.prefix_refl _)
    rw [Text.replaceFrom, if_pos hprefix]
    show new ++ Text.replaceFrom (c :: cs) new cs.length cs = new
    rw [hskip, List.append_nil]

theorem replaceFrom_cons (hsep : sep ∉ old) (hold : old ≠ []) (after : List Char) :
    Text.replaceFrom old new 0 (sep :: after) = sep :: Text.replaceFrom old new 0 after :=
  replaceFrom_append hsep hold [] after

/-! ## Marks in filters -/

/-- The characters with a meaning in the text of a filter. -/
def signs : List Char := ['(', ')', '&', '|', '!', '=', '~', '<', '>', ':', '*']

/-- A mark that cannot be a part of anything but a value. -/
structure IsMark (old : List Char) : Prop where
  noSign : ∀ c ∈ old, c ∉ signs
  notLeft : ∃ c ∈ old, isAttributeChar c = false

/-- The mark is in an item at most as the whole value of an equality match. -/
def Item.Placed (old : List Char) : Item (List Char) → Prop
  | simple _ type value => (type = .equal ∧ value = old) ∨ ¬old <:+: value
  | present _ => True
  | substrings _ initial any final =>
    ¬old <:+: initial ∧ (∀ v ∈ any, ¬old <:+: v) ∧ ¬old <:+: final
  | extensible _ value => ¬old <:+: value

/-- An equality match with the mark. -/
def Item.IsMarked (old : List Char) (i : Item (List Char)) : Prop :=
  ∃ attr, i = .simple attr .equal old

/-- The item that is meant with a value for the mark. -/
def Item.fill (old : List Char) (value : List UInt8) : Item (List Char) → Item (List UInt8) :=
  Item.map fun v => if v = old then value else bytes v

/-- The item with a presence test for the mark. -/
def Item.anyValue (old : List Char) : Item (List Char) → Item (List Char)
  | simple attr .equal value => if value = old then present attr else simple attr .equal value
  | i => i

/-- The item with another text for the mark. -/
def Item.put (old new : List Char) : Item (List Char) → Item (List Char) :=
  Item.map fun v => if v = old then new else v

private theorem mark_sign (type : FilterType) : ∀ c ∈ type.mark, c ∈ signs := by
  cases type <;> exact List.all_iff_forall_prop.mp (by decide)

section

variable (hold : IsMark old)
include hold

private theorem IsMark.ne_nil : old ≠ [] := by
  rintro rfl
  obtain ⟨c, hc, -⟩ := hold.notLeft
  cases hc

private theorem IsMark.notMem {c : Char} (hc : c ∈ signs) : c ∉ old := fun hmem =>
  hold.noSign c hmem hc

/-- What stands before the value of an item does not have the mark. -/
private theorem IsMark.left {left : List Char}
    (hleft : ∀ c ∈ left, isAttributeChar c = true ∨ c ∈ signs) :
    Text.replaceFrom old new 0 left = left := by
  apply replaceFrom_of_not_infix
  intro hwithin
  obtain ⟨c, hc, hchar⟩ := hold.notLeft
  rcases hleft c (hwithin.subset hc) with hattr | hsign
  · rw [hchar] at hattr
    cases hattr
  · exact hold.noSign c hc hsign

/-- A value is the mark, or it does not have it. -/
private theorem IsMark.value {value : List Char} (h : value = old ∨ ¬old <:+: value) :
    Text.replaceFrom old new 0 value = if value = old then new else value := by
  rcases h with rfl | hwithin
  · rw [if_pos rfl, replaceFrom_self hold.ne_nil]
  · have hne : value ≠ old := by
      rintro rfl
      exact hwithin (List.infix_refl _)
    rw [if_neg hne, replaceFrom_of_not_infix hwithin]

private theorem IsMark.any {any : List (List Char)} (h : ∀ v ∈ any, ¬old <:+: v)
    {final : List Char} (hfinal : ¬old <:+: final) :
    Text.replaceFrom old new 0 (any.flatMap (· ++ ['*']) ++ final) =
      (any.map fun v => if v = old then new else v).flatMap (· ++ ['*']) ++
        if final = old then new else final := by
  induction any with
  | nil => exact hold.value (Or.inr hfinal)
  | cons v any ih =>
    have hv := h v List.mem_cons_self
    rw [List.flatMap_cons, List.append_assoc, List.append_assoc, List.singleton_append,
      replaceFrom_append (hold.notMem (by decide)) hold.ne_nil, hold.value (Or.inr hv),
      ih fun w hw => h w (List.mem_cons_of_mem _ hw), List.map_cons, List.flatMap_cons,
      List.append_assoc, List.append_assoc, List.singleton_append]

/-- Replacing the mark in the text of an item replaces the value that it is. -/
theorem replaceFrom_item {i : Item (List Char)} (hwf : i.Wf) (hplaced : i.Placed old) :
    Text.replaceFrom old new 0 i.text = (i.put old new).text := by
  have hequals : '=' ∉ old := hold.notMem (by decide)
  have hattr : ∀ {attr : List Char}, isAttribute attr = true →
      Text.replaceFrom old new 0 attr = attr := fun h =>
    hold.left fun c hc => Or.inl (isAttributeChar_of_mem h hc)
  cases i with
  | simple attr type value =>
    have hleft : Text.replaceFrom old new 0 (attr ++ type.mark) = attr ++ type.mark := by
      apply hold.left
      intro c hc
      rcases List.mem_append.mp hc with hc | hc
      · exact Or.inl (isAttributeChar_of_mem hwf.1 hc)
      · exact Or.inr (mark_sign type c hc)
    have hvalue : value = old ∨ ¬old <:+: value := hplaced.imp (·.2) id
    rw [Item.text, replaceFrom_append hequals hold.ne_nil, hleft, hold.value hvalue]
    rfl
  | present attr =>
    have hstar : Text.replaceFrom old new 0 ['*'] = ['*'] :=
      hold.left fun c hc => Or.inr (List.mem_singleton.mp hc ▸ by decide)
    have hattr' : isAttribute attr = true := hwf
    rw [Item.text, replaceFrom_append hequals hold.ne_nil, hattr hattr', hstar]
    rfl
  | substrings attr initial any final =>
    obtain ⟨hinitial, hany, hfinal⟩ := hplaced
    rw [Item.text, replaceFrom_append hequals hold.ne_nil, hattr hwf.1,
      replaceFrom_append (hold.notMem (by decide)) hold.ne_nil, hold.value (Or.inr hinitial),
      hold.any hany hfinal]
    rfl
  | extensible rule value =>
    have hrule : Text.replaceFrom old new 0 rule = rule := by
      apply hold.left
      intro c hc
      rcases isRuleChar_of_mem hwf.1 hc with hchar | rfl
      · exact Or.inl hchar
      · exact Or.inr (by decide)
    rw [Item.text, replaceFrom_append (hold.notMem (by decide)) hold.ne_nil, hrule,
      replaceFrom_cons hequals hold.ne_nil, hold.value (Or.inr hplaced)]
    rfl

mutual

/-- Replacing the mark in the text of a filter replaces the values that it is. -/
theorem replaceFrom_text : ∀ {t : Filter (List Char)}, t.Wf → t.All (Item.Placed old) →
    Text.replaceFrom old new 0 t.text = (t.mapItems (Item.put old new)).text
  | .and list, hwf, hplaced => by
    rw [Filter.text, replaceFrom_cons (hold.notMem (by decide)) hold.ne_nil,
      replaceFrom_list hwf hplaced]
    rfl
  | .or list, hwf, hplaced => by
    rw [Filter.text, replaceFrom_cons (hold.notMem (by decide)) hold.ne_nil,
      replaceFrom_list hwf hplaced]
    rfl
  | .not filter, hwf, hplaced => by
    have hclose : ')' ∉ old := hold.notMem (by decide)
    have hinner := replaceFrom_text (t := filter) hwf hplaced
    rw [Filter.text, replaceFrom_cons (hold.notMem (by decide)) hold.ne_nil,
      replaceFrom_cons (hold.notMem (by decide)) hold.ne_nil,
      replaceFrom_append hclose hold.ne_nil, hinner]
    rfl
  | .item i, hwf, hplaced => replaceFrom_item hold hwf hplaced

theorem replaceFrom_list : ∀ {ts : FilterList (List Char)}, ts.All Item.Wf →
    ts.All (Item.Placed old) →
    Text.replaceFrom old new 0 ts.text = (ts.mapItems (Item.put old new)).text
  | .one filter, hwf, hplaced => by
    have hinner := replaceFrom_text (t := filter) hwf hplaced
    rw [FilterList.text, replaceFrom_cons (hold.notMem (by decide)) hold.ne_nil,
      replaceFrom_append (hold.notMem (by decide)) hold.ne_nil, hinner]
    rfl
  | .cons filter rest, hwf, hplaced => by
    have hinner := replaceFrom_text (t := filter) hwf.1 hplaced.1
    have hrest := replaceFrom_list hwf.2 hplaced.2
    rw [FilterList.text, replaceFrom_cons (hold.notMem (by decide)) hold.ne_nil,
      replaceFrom_append (hold.notMem (by decide)) hold.ne_nil, hinner, hrest]
    rfl

end

/-- So does it in the text inside parentheses. -/
theorem replaceFrom_parenthesized {t : Filter (List Char)} (hwf : t.Wf)
    (hplaced : t.All (Item.Placed old)) :
    Text.replaceFrom old new 0 ('(' :: (t.text ++ [')'])) =
      '(' :: ((t.mapItems (Item.put old new)).text ++ [')']) := by
  rw [replaceFrom_cons (hold.notMem (by decide)) hold.ne_nil,
    replaceFrom_append (hold.notMem (by decide)) hold.ne_nil, replaceFrom_text hold hwf hplaced]
  rfl

end

private theorem ne_of_absent {v : List Char} (h : ¬old <:+: v) : v ≠ old := by
  rintro rfl
  exact h (List.infix_refl _)

/-- An item without the mark stays as it is. -/
theorem Item.put_of_unmarked {i : Item (List Char)} (hplaced : i.Placed old)
    (hunmarked : ¬i.IsMarked old) : i.put old new = i := by
  cases i with
  | simple attr type value =>
    have hne : value ≠ old := by
      rcases hplaced with ⟨rfl, rfl⟩ | hwithin
      · exact absurd ⟨attr, rfl⟩ hunmarked
      · exact ne_of_absent hwithin
    exact congrArg (Item.simple attr type) (if_neg hne)
  | present attr => rfl
  | substrings attr initial any final =>
    obtain ⟨hinitial, hany, hfinal⟩ := hplaced
    have hmap : (any.map fun v => if v = old then new else v) = any := by
      rw [List.map_congr_left fun v hv => if_neg (ne_of_absent (hany v hv)), List.map_id']
    show Item.substrings attr (if initial = old then new else initial) _
      (if final = old then new else final) = _
    rw [if_neg (ne_of_absent hinitial), if_neg (ne_of_absent hfinal), hmap]
  | extensible rule value =>
    exact congrArg (Item.extensible rule) (if_neg (ne_of_absent hplaced))

theorem Item.put_of_marked (attr : List Char) :
    (Item.simple attr .equal old).put old new = .simple attr .equal new :=
  congrArg (Item.simple attr .equal) (if_pos rfl)

/-- An item stays well formed with a well-formed value. -/
private theorem Item.Wf.put {i : Item (List Char)} (hwf : i.Wf) (hplaced : i.Placed old)
    (hnew : (unescape new).isSome) : (i.put old new).Wf := by
  by_cases hmarked : i.IsMarked old
  · obtain ⟨attr, rfl⟩ := hmarked
    rw [Item.put_of_marked]
    exact ⟨hwf.1, hnew⟩
  · rw [Item.put_of_unmarked hplaced hmarked]
    exact hwf

theorem Item.map_put (i : Item (List Char)) :
    (i.put old new).map bytes = i.fill old (bytes new) := by
  cases i <;> simp [Item.put, Item.fill, Item.map, apply_ite bytes]

theorem wf_put {t : Filter (List Char)} (hwf : t.Wf) (hplaced : t.All (Item.Placed old))
    (hnew : (unescape new).isSome) : (t.mapItems (Item.put old new)).Wf :=
  (Filter.all_mapItems_iff t).mpr (Filter.All.combine (fun _ h h' => h.put h' hnew) t hwf hplaced)

/-- The tree of a filter with a value for the mark. -/
theorem mapItems_put (t : Filter (List Char)) :
    (t.mapItems (Item.put old new)).mapItems (Item.map bytes) =
      t.mapItems (Item.fill old (bytes new)) := by
  rw [Filter.mapItems_mapItems]
  congr 1
  funext i
  exact i.map_put

/-- Different values give different trees, if the mark is in the filter. -/
theorem fill_inj {t : Filter (List Char)} (hused : ¬t.All fun i => ¬i.IsMarked old)
    {value value' : List UInt8}
    (h : t.mapItems (Item.fill old value) = t.mapItems (Item.fill old value')) :
    value = value' := by
  by_contra hne
  have hall := (Filter.mapItems_eq_iff t).mp h
  apply hused
  refine Filter.All.combine (fun i hi _ => ?_) t hall hall
  rintro ⟨attr, rfl⟩
  have hvalue : (if old = old then value else bytes old) =
      if old = old then value' else bytes old :=
    (Item.simple.inj hi).2.2
  rw [if_pos rfl, if_pos rfl] at hvalue
  exact hne hvalue

/-! ## Presence for the mark -/

theorem Item.anyValue_of_unmarked {i : Item (List Char)} (h : ¬i.IsMarked old) :
    i.anyValue old = i := by
  cases i with
  | simple attr type value =>
    cases type with
    | equal =>
      have hne : value ≠ old := by
        rintro rfl
        exact h ⟨attr, rfl⟩
      exact if_neg hne
    | approx => rfl
    | greaterOrEqual => rfl
    | lessOrEqual => rfl
  | present attr => rfl
  | substrings attr initial any final => rfl
  | extensible rule value => rfl

theorem Item.anyValue_of_marked (attr : List Char) :
    (Item.simple attr .equal old).anyValue old = .present attr := if_pos rfl

/-- A filter with the mark that is one item is one presence test. -/
theorem item_of_anyValue {t : Filter (List Char)} (hused : ¬t.All fun i => ¬i.IsMarked old)
    {i : Item (List Char)} (h : t.mapItems (Item.anyValue old) = .item i) :
    ∃ attr, i = .present attr := by
  cases t with
  | and list => cases h
  | or list => cases h
  | not filter => cases h
  | item i' =>
    obtain ⟨attr, rfl⟩ : i'.IsMarked old := not_not.mp hused
    exact ⟨attr, (Filter.item.inj h).symm.trans (Item.anyValue_of_marked attr)⟩

/-- A presence test is written as an equality match with `*`. -/
private theorem Item.text_anyValue {i : Item (List Char)} (hplaced : i.Placed old) :
    (i.put old ['*']).text = (i.anyValue old).text := by
  by_cases hmarked : i.IsMarked old
  · obtain ⟨attr, rfl⟩ := hmarked
    rw [Item.put_of_marked, Item.anyValue_of_marked, Item.text, FilterType.mark, List.append_nil]
    rfl
  · rw [Item.put_of_unmarked hplaced hmarked, Item.anyValue_of_unmarked hmarked]

private theorem Item.Wf.anyValue {i : Item (List Char)} (hwf : i.Wf) : (i.anyValue old).Wf := by
  by_cases hmarked : i.IsMarked old
  · obtain ⟨attr, rfl⟩ := hmarked
    rw [Item.anyValue_of_marked]
    exact hwf.1
  · rw [Item.anyValue_of_unmarked hmarked]
    exact hwf

mutual

theorem text_mapItems_congr {f g : Item V → Item (List Char)} :
    ∀ t : Filter V, (t.All fun i => (f i).text = (g i).text) →
      (t.mapItems f).text = (t.mapItems g).text
  | .and list => fun h => congrArg ('&' :: ·) (textList_mapItems_congr list h)
  | .or list => fun h => congrArg ('|' :: ·) (textList_mapItems_congr list h)
  | .not filter => fun h =>
      congrArg (fun text => '!' :: '(' :: (text ++ [')'])) (text_mapItems_congr filter h)
  | .item _ => id

theorem textList_mapItems_congr {f g : Item V → Item (List Char)} :
    ∀ ts : FilterList V, (ts.All fun i => (f i).text = (g i).text) →
      (ts.mapItems f).text = (ts.mapItems g).text
  | .one filter => fun h =>
      congrArg (fun text => '(' :: (text ++ [')'])) (text_mapItems_congr filter h)
  | .cons filter rest => fun h =>
      congrArg₂ (fun text text' => '(' :: (text ++ ')' :: text')) (text_mapItems_congr filter h.1)
        (textList_mapItems_congr rest h.2)

end

/-- The text with `*` for the mark is the text of the tree with presence tests. -/
theorem text_star {t : Filter (List Char)} (hplaced : t.All (Item.Placed old)) :
    (t.mapItems (Item.put old ['*'])).text = (t.mapItems (Item.anyValue old)).text :=
  text_mapItems_congr t (Filter.All.combine (fun _ h _ => Item.text_anyValue h) t hplaced hplaced)

theorem wf_anyValue {t : Filter (List Char)} (hwf : t.Wf) :
    (t.mapItems (Item.anyValue old)).Wf :=
  (Filter.all_mapItems_iff t).mpr (Filter.All.combine (fun _ h _ => h.anyValue) t hwf hwf)

end Marks

end Lib.SearchFilter
