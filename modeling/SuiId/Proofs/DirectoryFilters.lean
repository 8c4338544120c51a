import SuiId.Core.Directory
import SuiId.Lib.FormUrl
import SuiId.Lib.SearchFilter

/-!
# What the filters of a directory search mean

A template is a well-formed filter in which `{username}` stands for the value of equality matches.
The filters that the source sends are read as the tree of the template, whatever is put in: what is
escaped is always one value.  Its bytes are those of the text if and only if the text is ASCII,
since the escaping writes every byte as a character of its own.
-/

namespace SuiId.LdapFilter

open Lib Lib.SearchFilter

/-! ## Templates -/

/-- A `user_search_filter`, with its outer parentheses or without them. -/
structure Template where
  tree : SearchFilter.Filter (List Char)
  wf : tree.Wf
  placed : tree.All (Item.Placed placeholder.toList)
  used : ¬tree.All fun i => ¬i.IsMarked placeholder.toList
  parenthesized : Bool

namespace Template

def text (template : Template) : String :=
  String.ofList <|
    if template.parenthesized then '(' :: (template.tree.text ++ [')']) else template.tree.text

/-- The tree with a value in the place of the name. -/
def filled (template : Template) (value : Bytes) : SearchFilter.Filter Bytes :=
  template.tree.mapItems (Item.fill placeholder.toList value)

/-- The tree with a presence test in the place of the name. -/
def anyUser (template : Template) : SearchFilter.Filter Bytes :=
  (template.tree.mapItems (Item.anyValue placeholder.toList)).mapItems (Item.map bytes)

end Template

/-- The filter of `authenticate`. -/
def usernameFilter (userSearchFilter username : String) : String :=
  Text.replace userSearchFilter placeholder (escapeFilterValue username)

theorem findByUsername_filter (source : LdapUserSource) (username : String) :
    source.findByUsername username = (do
      source.openSession
      source.firstEntry source.cfg.userSearchBase .subtree
        (usernameFilter source.cfg.userSearchFilter username)) := rfl

theorem placeholder_isMark : IsMark placeholder.toList where
  noSign := List.all_iff_forall_prop.mp (by decide)
  notLeft := ⟨'\x7b', by decide, by decide⟩

/-! ## Escaped values -/

/-- The bytes that an escaped text is read as. -/
def denoted (s : String) : Bytes :=
  (utf8 s).flatMap fun b => if b < 128 then [b] else String.utf8EncodeChar (Char.ofNat b.toNat)

/-- The characters that a byte is escaped with. -/
private def escapeByte (b : UInt8) : List Char :=
  if b = 0x2a then "\\2a".toList
  else if b = 0x28 then "\\28".toList
  else if b = 0x29 then "\\29".toList
  else if b = 0x5c then "\\5c".toList
  else if b = 0x00 then "\\00".toList
  else [Char.ofNat b.toNat]

private theorem toList_escapeFilterValue (input : String) :
    (escapeFilterValue input).toList = (utf8 input).flatMap escapeByte := by
  rw [escapeFilterValue, String.toList_ofList]
  rfl

private theorem unescape_two {high low : Char} {h l : Nat} (hhigh : hexValue high = some h)
    (hlow : hexValue low = some l) (rest : List Char) :
    unescape ('\\' :: high :: low :: rest) =
      (unescape rest).map (UInt8.ofNat (16 * h + l) :: ·) := by
  rw [unescape, hhigh, hlow]
  cases unescape rest <;> rfl

private theorem unescape_normal {c : Char} (hc : isNormal c = true) (rest : List Char) :
    unescape (c :: rest) = (unescape rest).map (String.utf8EncodeChar c ++ ·) := by
  rw [unescape.eq_3, if_pos hc]
  rintro high low rest' rfl
  exact absurd hc (by decide)

private theorem normal_byte : ∀ b : UInt8,
    (b = 0x2a ∨ b = 0x28 ∨ b = 0x29 ∨ b = 0x5c ∨ b = 0x00) ∨
      isNormal (Char.ofNat b.toNat) = true := by
  apply FormUrl.forall_byte
  decide +kernel

/-- A byte below 128 is one character of one byte; for the others it is said how the byte is found
in the two bytes of the character. -/
private theorem encoded_byte : ∀ b : UInt8,
    (b < 128 ∧ String.utf8EncodeChar (Char.ofNat b.toNat) = [b]) ∨
    (¬b < 128 ∧ String.utf8EncodeChar (Char.ofNat b.toNat) = [0xC0 + b / 64, 0x80 + b % 64] ∧
      ¬0xC0 + b / 64 < 128 ∧ (0xC0 + b / 64 - 0xC2) * 64 + (0x80 + b % 64) = b) := by
  apply FormUrl.forall_byte
  decide +kernel

/-- One byte of an escaped text. -/
private theorem unescape_escapeByte (b : UInt8) (rest : List Char) :
    unescape (escapeByte b ++ rest) = (unescape rest).map
      ((if b < 128 then [b] else String.utf8EncodeChar (Char.ofNat b.toNat)) ++ ·) := by
  by_cases hstar : b = 0x2a
  · rw [hstar]
    exact unescape_two (h := 2) (l := 10) (by decide) (by decide) rest
  by_cases hopen : b = 0x28
  · rw [hopen]
    exact unescape_two (h := 2) (l := 8) (by decide) (by decide) rest
  by_cases hclose : b = 0x29
  · rw [hclose]
    exact unescape_two (h := 2) (l := 9) (by decide) (by decide) rest
  by_cases hslash : b = 0x5c
  · rw [hslash]
    exact unescape_two (h := 5) (l := 12) (by decide) (by decide) rest
  by_cases hzero : b = 0x00
  · rw [hzero]
    exact unescape_two (h := 0) (l := 0) (by decide) (by decide) rest
  have hnormal : isNormal (Char.ofNat b.toNat) = true := by
    have hcases := normal_byte b
    tauto
  have hescape : escapeByte b = [Char.ofNat b.toNat] := by
    rw [escapeByte, if_neg hstar, if_neg hopen, if_neg hclose, if_neg hslash, if_neg hzero]
  rw [hescape, List.singleton_append, unescape_normal hnormal]
  rcases encoded_byte b with ⟨hb, hencoded⟩ | ⟨hb, -⟩
  · rw [if_pos hb, hencoded]
  · rw [if_neg hb]

/-- An escaped text is a well-formed value. -/
theorem unescape_escapeFilterValue (input : String) :
    unescape (escapeFilterValue input).toList = some (denoted input) := by
  rw [toList_escapeFilterValue, denoted]
  induction utf8 input with
  | nil => rfl
  | cons b bytes ih =>
    rw [List.flatMap_cons, unescape_escapeByte, ih, List.flatMap_cons]
    rfl

/-- All characters are ASCII. -/
def IsAscii (s : String) : Prop := ∀ c ∈ s.toList, c.toNat < 128

instance (s : String) : Decidable (IsAscii s) := decidable_of_iff _ List.all_iff_forall_prop

private theorem length_denotedByte (b : UInt8) :
    (if b < 128 then [b] else String.utf8EncodeChar (Char.ofNat b.toNat)).length =
      if b < 128 then 1 else 2 := by
  rcases encoded_byte b with ⟨hb, -⟩ | ⟨hb, hencoded, -⟩
  · rw [if_pos hb, if_pos hb]
    rfl
  · rw [if_neg hb, if_neg hb, hencoded]
    rfl

private theorem utf8EncodeChar_ascii_iff (c : Char) :
    (∀ b ∈ String.utf8EncodeChar c, b < 128) ↔ c.toNat < 128 := by
  have hc : c.toNat = c.val.toNat := rfl
  have hbound : (128 : UInt8).toNat = 128 := rfl
  unfold String.utf8EncodeChar
  simp only
  split
  · simp only [List.forall_mem_singleton, UInt8.lt_iff_toNat_lt, UInt8.toNat_ofNat', hc, hbound]
    omega
  · split
    · simp only [List.forall_mem_cons, UInt8.lt_iff_toNat_lt, UInt8.toNat_ofNat', hc, hbound]
      omega
    · split
      · simp only [List.forall_mem_cons, UInt8.lt_iff_toNat_lt, UInt8.toNat_ofNat', hc, hbound]
        omega
      · simp only [List.forall_mem_cons, UInt8.lt_iff_toNat_lt, UInt8.toNat_ofNat', hc, hbound]
        omega

private theorem utf8_ascii_iff (s : String) : (∀ b ∈ utf8 s, b < 128) ↔ IsAscii s := by
  rw [← String.ofList_toList (s := s), utf8_ofList, IsAscii, String.toList_ofList]
  constructor
  · intro hall c hc
    exact (utf8EncodeChar_ascii_iff c).mp fun b hb => hall b (List.mem_flatMap.mpr ⟨c, hc, hb⟩)
  · intro hall b hb
    obtain ⟨c, hc, hb⟩ := List.mem_flatMap.mp hb
    exact (utf8EncodeChar_ascii_iff c).mpr (hall c hc) b hb

private theorem length_flatMap {bytes : Bytes} :
    (bytes.flatMap fun b =>
      if b < 128 then [b] else String.utf8EncodeChar (Char.ofNat b.toNat)).length =
      bytes.length + bytes.countP fun b => ¬b < 128 := by
  induction bytes with
  | nil => rfl
  | cons b bytes ih =>
    rw [List.flatMap_cons, List.length_append, ih, length_denotedByte, List.countP_cons,
      List.length_cons]
    by_cases hb : b < 128
    · simp only [hb, if_true, not_true_eq_false, decide_false, Bool.false_eq_true, if_false]
      omega
    · simp only [hb, if_false, not_false_eq_true, decide_true, if_true]
      omega

/-- The bytes are those of the text if and only if the text is ASCII. -/
theorem denoted_eq_iff (s : String) : denoted s = utf8 s ↔ IsAscii s := by
  rw [← utf8_ascii_iff]
  constructor
  · intro hsame b hb
    have hlength := congrArg List.length hsame
    rw [denoted, length_flatMap] at hlength
    have hnone : (utf8 s).countP (fun b => ¬b < 128) = 0 := by omega
    have hsmall := List.countP_eq_zero.mp hnone b hb
    simpa using hsmall
  · intro hall
    rw [denoted]
    calc (utf8 s).flatMap _ = (utf8 s).flatMap fun b => [b] := by
          apply List.flatMap_congr
          intro b hb
          exact if_pos (hall b hb)
      _ = utf8 s := List.flatMap_singleton' _

/-! ## The filters that are sent -/

variable (template : Template)

/-- Whatever is put in, the filter of `authenticate` has the tree of the template. -/
theorem parse_usernameFilter (username : String) :
    parse (usernameFilter template.text username).toList =
      some (template.filled (denoted username)) := by
  have hnew := unescape_escapeFilterValue username
  have hsome : (unescape (escapeFilterValue username).toList).isSome := by rw [hnew]; rfl
  have hbytes : bytes (escapeFilterValue username).toList = denoted username := by
    rw [bytes, hnew]
    rfl
  have hwf := wf_put template.wf template.placed hsome
  rw [usernameFilter, Text.replace, String.toList_ofList, Template.text, String.toList_ofList,
    Template.filled, ← hbytes, ← mapItems_put]
  split
  · rw [replaceFrom_parenthesized placeholder_isMark template.wf template.placed]
    exact parse_parenthesized hwf
  · rw [replaceFrom_text placeholder_isMark template.wf template.placed]
    exact parse_text hwf

private theorem trim_of_ends {c d : Char} {cs : List Char} (hc : Text.isWhitespace c = false)
    (hd : Text.isWhitespace d = false) (hlast : (c :: cs).getLast? = some d) :
    Text.trim (String.ofList (c :: cs)) = String.ofList (c :: cs) := by
  have hkept : (c :: cs).rdropWhile Text.isWhitespace = c :: cs := by
    rw [List.rdropWhile_eq_self_iff]
    intro hne
    have hsame := Option.some_inj.mp ((List.getLast?_eq_some_getLast hne).symm.trans hlast)
    rw [hsame, hd]
    exact Bool.false_ne_true
  rw [Text.trim, String.toList_ofList, List.dropWhile_cons_of_neg (by rw [hc]; exact
    Bool.false_ne_true)]
  exact congrArg String.ofList hkept

private theorem startsWith_open (c : Char) (cs : List Char) :
    Text.startsWith (String.ofList (c :: cs)) "(" = ('(' == c) := by
  have hopen : "(".toList = ['('] := rfl
  rw [Text.startsWith, hopen, String.toList_ofList, List.isPrefixOf_cons_cons,
    List.isPrefixOf_nil_left, Bool.and_true]

private theorem isWhitespace_of_leftChar {c : Char} (h : IsLeftChar c) :
    Text.isWhitespace c = false := by
  have hrange : ∀ {low high : Nat}, low ≤ c.toNat ∧ c.toNat ≤ high → 0x20 < low → high < 0x85 →
      Text.isWhitespace c = false := by
    intro low high hc hlow hhigh
    simp only [Text.isWhitespace, Bool.or_eq_false_iff, Bool.and_eq_false_imp, decide_eq_true_eq,
      decide_eq_false_iff_not, beq_eq_false_iff_ne]
    omega
  rcases h with hattr | rfl
  · simp only [isAttributeChar, isKeychar, Char.isAlphanum] at hattr
    delta Char.isAlpha Char.isUpper Char.isLower at hattr
    simp only [Char.isDigit, Bool.or_eq_true, Bool.and_eq_true, decide_eq_true_eq, beq_iff_eq,
      UInt32.le_iff_toNat_le, ge_iff_le] at hattr
    rcases hattr with ((((hupper | hlower) | hdigit) | rfl) | rfl) | rfl
    · exact hrange hupper (by decide) (by decide)
    · exact hrange hlower (by decide) (by decide)
    · exact hrange hdigit (by decide) (by decide)
    · decide
    · decide
    · decide
  · decide

private theorem getLast_list : ∀ list : FilterList (List Char), list.text.getLast? = some ')'
  | .one filter => by
    rw [FilterList.text, ← List.cons_append, List.getLast?_concat]
  | .cons filter rest => by
    rw [FilterList.text, List.getLast?_cons, List.getLast?_append, List.getLast?_cons,
      getLast_list rest]
    rfl

/-- The first and the last character of a filter are no white space, if they are none in an item
that is the whole filter. -/
private theorem text_ends {t : SearchFilter.Filter (List Char)} (hwf : t.Wf)
    (hitem : ∀ i, t = .item i → ∃ d, i.text.getLast? = some d ∧ Text.isWhitespace d = false) :
    ∃ c cs d, t.text = c :: cs ∧ c ≠ '(' ∧ Text.isWhitespace c = false ∧
      (c :: cs).getLast? = some d ∧ Text.isWhitespace d = false := by
  cases t with
  | and list =>
    exact ⟨'&', list.text, ')', rfl, by decide, by decide,
      by rw [List.getLast?_cons, getLast_list]; rfl, by decide⟩
  | or list =>
    exact ⟨'|', list.text, ')', rfl, by decide, by decide,
      by rw [List.getLast?_cons, getLast_list]; rfl, by decide⟩
  | not filter =>
    exact ⟨'!', _, ')', rfl, by decide, by decide,
      by rw [← List.cons_append, ← List.cons_append, List.getLast?_concat], by decide⟩
  | item i =>
    obtain ⟨d, hlast, hd⟩ := hitem i rfl
    obtain ⟨c, cs, htext, hc⟩ := item_head hwf
    rw [htext] at hlast
    exact ⟨c, cs, d, htext, hc.ne.2.2.2.2, isWhitespace_of_leftChar hc, hlast, hd⟩

/-- What is asked for any user is the tree with presence tests, in parentheses. -/
theorem anyUserFilter_eq :
    anyUserFilter template.text = String.ofList
      ('(' :: ((template.tree.mapItems (Item.anyValue placeholder.toList)).text ++ [')'])) := by
  have hreplaced : Text.replace template.text placeholder "*" = String.ofList
      (if template.parenthesized then
        '(' :: ((template.tree.mapItems (Item.anyValue placeholder.toList)).text ++ [')'])
      else (template.tree.mapItems (Item.anyValue placeholder.toList)).text) := by
    rw [Text.replace, Template.text, String.toList_ofList, ← text_star template.placed]
    by_cases hparens : template.parenthesized = true
    · rw [if_pos hparens, if_pos hparens, String.toList_ofList]
      exact congrArg String.ofList
        (replaceFrom_parenthesized placeholder_isMark template.wf template.placed)
    · rw [if_neg hparens, if_neg hparens, String.toList_ofList]
      exact congrArg String.ofList
        (replaceFrom_text placeholder_isMark template.wf template.placed)
  have hends := text_ends (@wf_anyValue placeholder.toList template.tree template.wf) (by
    intro i hi
    obtain ⟨attr, rfl⟩ := item_of_anyValue template.used hi
    exact ⟨'*', by rw [Item.text, List.getLast?_append]; rfl, by decide⟩)
  rw [anyUserFilter, hreplaced]
  generalize (template.tree.mapItems (Item.anyValue placeholder.toList)).text = inner at hends ⊢
  split
  · have htrim : Text.trim (String.ofList ('(' :: (inner ++ [')']))) =
        String.ofList ('(' :: (inner ++ [')'])) :=
      trim_of_ends (by decide) (d := ')') (by decide)
        (by rw [← List.cons_append, List.getLast?_concat])
    simp only [htrim, startsWith_open, beq_self_eq_true, if_true]
  · obtain ⟨c, cs, d, rfl, hopen, hc, hlast, hd⟩ := hends
    have hother : ('(' == c) = false := beq_eq_false_iff_ne.mpr (Ne.symm hopen)
    simp only [trim_of_ends hc hd hlast, startsWith_open, hother, Bool.false_eq_true, if_false]
    rw [← String.toList_inj]
    simp

/-- The filter of a stable id is the tree of the template under an `and` with the id. -/
theorem parse_stableIdFilter {stableIdAttribute : String}
    (hattribute : isAttribute stableIdAttribute.toList = true) (stableId : String) :
    parse (stableIdFilter stableIdAttribute stableId template.text).toList =
      some (.and (.cons (.item (.simple stableIdAttribute.toList .equal (denoted stableId)))
        (.one template.anyUser))) := by
  have hid := unescape_escapeFilterValue stableId
  have hbytes : bytes (escapeFilterValue stableId).toList = denoted stableId := by
    rw [bytes, hid]
    rfl
  let tree : SearchFilter.Filter (List Char) :=
    .and (.cons
      (.item (.simple stableIdAttribute.toList .equal (escapeFilterValue stableId).toList))
      (.one (template.tree.mapItems (Item.anyValue placeholder.toList))))
  have hwf : tree.Wf := ⟨⟨hattribute, by rw [hid]; rfl⟩, wf_anyValue template.wf⟩
  have htext : (stableIdFilter stableIdAttribute stableId template.text).toList =
      '(' :: (tree.text ++ [')']) := by
    rw [stableIdFilter, anyUserFilter_eq]
    simp only [String.toList_append, String.toList_ofList, tree, SearchFilter.Filter.text,
      FilterList.text, Item.text, FilterType.mark, List.append_nil]
    simp
  rw [htext, parse_parenthesized hwf, ← hbytes]
  rfl

/-! ## Different texts -/

/-- Read back what `denoted` has made of the bytes. -/
private def undenote : Bytes → Bytes
  | [] => []
  | [b] => [b]
  | b :: b' :: rest =>
    if b < 128 then b :: undenote (b' :: rest) else ((b - 0xC2) * 64 + b') :: undenote rest

private theorem undenote_cons {b : UInt8} (hb : b < 128) (rest : Bytes) :
    undenote (b :: rest) = b :: undenote rest := by
  cases rest with
  | nil => rfl
  | cons b' rest => rw [undenote, if_pos hb]

/-- Two different texts never denote one value. -/
theorem denoted_inj {s s' : String} (h : denoted s = denoted s') : s = s' := by
  have hback : ∀ s, undenote (denoted s) = utf8 s := by
    intro s
    rw [denoted]
    induction utf8 s with
    | nil => rfl
    | cons b bytes ih =>
      rw [List.flatMap_cons]
      rcases encoded_byte b with ⟨hb, -⟩ | ⟨hb, hencoded, hfirst, hsame⟩
      · rw [if_pos hb, List.singleton_append, undenote_cons hb, ih]
      · rw [if_neg hb, hencoded, List.cons_append, List.singleton_append, undenote,
          if_neg hfirst, hsame, ih]
  exact utf8_inj ((hback s).symm.trans ((congrArg undenote h).trans (hback s')))

/-! ## Exactness -/

/-- What a source is configured with: a template, and a name that can be an attribute. -/
structure SearchConfig where
  template : Template
  stableIdAttribute : String
  attribute_ok : isAttribute stableIdAttribute.toList = true

/-- The filter of `authenticate` is the tree of the template with the name as its value, and the
filter of a stable id is that tree with presence tests under an `and` with the id, each if and only
if the text is ASCII. -/
theorem filters_exact_iff (cfg : SearchConfig) (username stableId : String) :
    (parse (usernameFilter cfg.template.text username).toList =
        some (cfg.template.filled (utf8 username)) ↔ IsAscii username) ∧
      (parse (stableIdFilter cfg.stableIdAttribute stableId cfg.template.text).toList =
        some (.and (.cons (.item (.simple cfg.stableIdAttribute.toList .equal (utf8 stableId)))
          (.one cfg.template.anyUser))) ↔ IsAscii stableId) := by
  rw [parse_usernameFilter, parse_stableIdFilter cfg.template cfg.attribute_ok,
    ← denoted_eq_iff username, ← denoted_eq_iff stableId, Option.some_inj, Option.some_inj]
  constructor
  · constructor
    · exact fun h => fill_inj cfg.template.used h
    · exact fun h => congrArg cfg.template.filled h
  · constructor
    · intro h
      have hfirst := (FilterList.cons.inj (SearchFilter.Filter.and.inj h)).1
      exact (Item.simple.inj (SearchFilter.Filter.item.inj hfirst)).2.2
    · intro h
      rw [h]

/-- The template `(uid={username})`. -/
def uidTemplate : Template where
  tree := .item (.simple "uid".toList .equal placeholder.toList)
  wf := ⟨by decide, by decide⟩
  placed := Or.inl ⟨rfl, rfl⟩
  used := fun h => h ⟨_, rfl⟩
  parenthesized := true

def uidConfig : SearchConfig where
  template := uidTemplate
  stableIdAttribute := "entryUUID"
  attribute_ok := by decide

/-- A name with the characters of a filter, and an id. -/
theorem filters_exact_iff_uid :
    usernameFilter uidConfig.template.text "a(*)" = "(uid=a\\28\\2a\\29)" ∧
      parse (usernameFilter uidConfig.template.text "a(*)").toList =
        some (uidConfig.template.filled (utf8 "a(*)")) ∧
      parse (stableIdFilter uidConfig.stableIdAttribute "7" uidConfig.template.text).toList =
        some (.and (.cons (.item (.simple uidConfig.stableIdAttribute.toList .equal (utf8 "7")))
          (.one uidConfig.template.anyUser))) := by
  obtain ⟨husername, hid⟩ := filters_exact_iff uidConfig "a(*)" "7"
  exact ⟨by decide, husername.mpr (by decide), hid.mpr (by decide)⟩

/-- The name `é` is sent as two other characters. -/
theorem accent_denotes_other_bytes :
    uidTemplate.text = "(uid=\x7busername\x7d)" ∧
      parse (usernameFilter uidTemplate.text "é").toList ≠
        some (uidTemplate.filled (utf8 "é")) := by
  constructor
  · decide
  · rw [parse_usernameFilter]
    intro hsame
    have hvalue := fill_inj uidTemplate.used (Option.some_inj.mp hsame)
    exact absurd ((denoted_eq_iff "é").mp hvalue) (by decide)

end SuiId.LdapFilter
