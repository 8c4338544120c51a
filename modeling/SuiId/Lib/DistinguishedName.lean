import SuiId.Lib.FormUrl
import SuiId.Lib.SearchFilter

/-!
# Distinguished names

Directory names and the texts that stand for them.  A value is written character by character: as
it is, behind a backslash, or as the octets of its UTF-8 form behind backslashes, with digits of
either case.  Spaces may stand around `,`, `;`, `+` and `=`.

`Reads` is what a reader sees in such a text: characters that stand for themselves and characters
that were escaped.  A text is read in one way (`Reads.unique`).  White space that is trimmed at an
end and letters that are put in lower case are not seen by `avasKey`
(`Reads.trim`, `Reads.lowered`), which is the name up to letter case and surrounding spaces.
-/

namespace Lib.DistinguishedName

/-! ## Letter case and spaces -/

section Case

variable (lower : Char → List Char)

/-- What lower case is relied on for. -/
structure LowerCase : Prop where
  ascii : ∀ c, c.toNat < 128 → lower c = [c.toLower]
  /-- The Kelvin sign and the dotted capital have ASCII letters in lower case. -/
  nonAscii : ∀ c, 128 ≤ c.toNat → ∀ d ∈ lower c, d.toNat < 128 → d = 'i' ∨ d = 'k'
  lowered : ∀ c, ∀ d ∈ lower c, lower d = [d]
  space : ∀ c, Text.isWhitespace c = true → lower c = [c]
  sigma : lower '\u03a3' = ['\u03c3']
  finalSigma : lower '\u03c2' = ['\u03c2']

/-- A text in lower case, letter by letter; a capital sigma may become a final one. -/
inductive LowersTo : List Char → List Char → Prop
  | nil : LowersTo [] []
  | letter (c : Char) {t u : List Char} : LowersTo t u → LowersTo (c :: t) (lower c ++ u)
  | finalSigma {t u : List Char} : LowersTo t u → LowersTo ('\u03a3' :: t) ('\u03c2' :: u)

/-- A letter without its case. -/
def fold (c : Char) : List Char :=
  (lower c).map fun d => if d = '\u03c2' then '\u03c3' else d

/-- A text without spaces around it. -/
def strip (cs : List Char) : List Char :=
  (cs.dropWhile Text.isWhitespace).rdropWhile Text.isWhitespace

/-- A value up to letter case and surrounding spaces. -/
def key (cs : List Char) : List Char := strip (cs.flatMap (fold lower))

end Case

/-! ## Names and their texts -/

/-- A type and a value. -/
structure Ava where
  kind : List Char
  value : List Char

/-- One step of a name; most have one type and value. -/
abbrev Rdn := List Ava

/-- The keys of its type and value. -/
def Ava.key (lower : Char → List Char) (a : Ava) : List Char × List Char :=
  (DistinguishedName.key lower a.kind, DistinguishedName.key lower a.value)

/-- The keys of its types and values. -/
def Rdn.key (lower : Char → List Char) (rdn : Rdn) : List (List Char × List Char) :=
  rdn.map (Ava.key lower)

/-- What may not stand for itself in a value. -/
def isSpecial (c : Char) : Bool :=
  c == '\\' || c == '"' || c == '+' || c == ',' || c == ';' || c == '<' || c == '>' ||
    c == Char.ofNat 0

/-- What may stand behind a backslash for itself. -/
def isPairable (c : Char) : Bool :=
  c == '\\' || c == '"' || c == '+' || c == ',' || c == ';' || c == '<' || c == '>' ||
    c == ' ' || c == '#' || c == '='

/-- The octet of two digits. -/
def hexOctet (high low : Char) : Option UInt8 := do
  let h ← SearchFilter.hexValue high
  let l ← SearchFilter.hexValue low
  some (UInt8.ofNat (16 * h + l))

/-- Octets, each behind a backslash. -/
inductive Octets : List UInt8 → List Char → Prop
  | nil : Octets [] []
  | cons {b : UInt8} {bytes : List UInt8} {high low : Char} {t : List Char} :
    hexOctet high low = some b → Octets bytes t → Octets (b :: bytes) ('\\' :: high :: low :: t)

/-- A text of a value.  A value written with `#` and digits is that text itself. -/
inductive ValueText : List Char → List Char → Prop
  | nil : ValueText [] []
  | plain {c : Char} {t v : List Char} :
    isSpecial c = false → ValueText t v → ValueText (c :: t) (c :: v)
  | pair {c : Char} {t v : List Char} :
    isPairable c = true → ValueText t v → ValueText ('\\' :: c :: t) (c :: v)
  | octets {c : Char} {p t v : List Char} :
    Octets (String.utf8EncodeChar c) p → ValueText t v → ValueText (p ++ t) (c :: v)

/-- A character of a type: no separator, no backslash and no white space. -/
def isTypeChar (c : Char) : Bool :=
  !isSpecial c && c != '=' && !Text.isWhitespace c

/-- Only spaces. -/
def Spaces (cs : List Char) : Prop := ∀ c ∈ cs, c = ' '

/-- A text of a type and a value. -/
inductive AvaText : List Char → Ava → Prop
  | intro {kind text value s₁ s₂ s₃ s₄ : List Char} (hne : kind ≠ [])
    (hkind : ∀ c ∈ kind, isTypeChar c = true) (hvalue : ValueText text value)
    (h₁ : Spaces s₁) (h₂ : Spaces s₂) (h₃ : Spaces s₃) (h₄ : Spaces s₄) :
    AvaText (s₁ ++ kind ++ s₂ ++ '=' :: (s₃ ++ text ++ s₄)) ⟨kind, value⟩

/-- Texts of one or more items, with a separator between any two. -/
inductive Joined {α : Type} (sep : Char → Bool) (item : List Char → α → Prop) :
    List Char → List α → Prop
  | one {t : List Char} {a : α} : item t a → Joined sep item t [a]
  | cons {t u : List Char} {c : Char} {a : α} {as : List α} :
    item t a → sep c = true → Joined sep item u as → Joined sep item (t ++ c :: u) (a :: as)

/-- A text of a step. -/
def RdnText : List Char → Rdn → Prop := Joined (· == '+') AvaText

/-- A text of a name.  The empty name has no text but spaces. -/
def DnText (t : List Char) (rdns : List Rdn) : Prop :=
  (rdns = [] ∧ Spaces t) ∨ Joined (fun c => c == ',' || c == ';') RdnText t rdns

/-! ## Reading a text -/

/-- A character of a text: one that stands for itself, or one that was escaped. -/
inductive Tok where
  | plain (c : Char)
  | escaped (c : Char)
deriving DecidableEq

/-- The character that is meant. -/
def Tok.char : Tok → Char
  | .plain c => c
  | .escaped c => c

/-- A text and what is read in it.  A backslash at the end is what trimming leaves of an escaped
space. -/
inductive Reads : List Char → List Tok → Prop
  | nil : Reads [] []
  | cut : Reads ['\\'] []
  | plain {c : Char} {t : List Char} {ts : List Tok} :
    c ≠ '\\' → Reads t ts → Reads (c :: t) (.plain c :: ts)
  | pair {c : Char} {t : List Char} {ts : List Tok} :
    isPairable c = true → Reads t ts → Reads ('\\' :: c :: t) (.escaped c :: ts)
  | octets {c : Char} {p t : List Char} {ts : List Tok} :
    Octets (String.utf8EncodeChar c) p → Reads t ts → Reads (p ++ t) (.escaped c :: ts)

/-- What a reader makes of the text before it puts octets together. -/
inductive Sym where
  | plain (c : Char)
  | octet (b : UInt8)

/-- The octets of a character. -/
def octetsOf (c : Char) : List Sym := (String.utf8EncodeChar c).map .octet

/-- The symbols of a text. -/
def syms : List Char → List Sym
  | [] => []
  | [c] => if c = '\\' then [] else [.plain c]
  | [c, d] => if c = '\\' then octetsOf d else .plain c :: syms [d]
  | c :: d :: e :: rest =>
    if c = '\\' then
      match hexOctet d e with
      | some b => .octet b :: syms rest
      | none => octetsOf d ++ syms (e :: rest)
    else .plain c :: syms (d :: e :: rest)

/-- The symbols of what was read. -/
def Tok.syms : Tok → List Sym
  | .plain c => [.plain c]
  | .escaped c => octetsOf c

variable {c w d : Char} {bytes : List UInt8} {p t kind s u : List Char} {ts us : List Tok} {x : Tok}

private theorem syms_plain (hc : c ≠ '\\') (t : List Char) :
    syms (c :: t) = .plain c :: syms t := by
  match t with
  | [] => exact if_neg hc
  | [_] => exact if_neg hc
  | _ :: _ :: _ => exact if_neg hc

private theorem hexValue_pairable (hc : isPairable c = true) :
    SearchFilter.hexValue c = none := by
  simp only [isPairable, Bool.or_eq_true, beq_iff_eq] at hc
  rcases hc with ((((((((rfl | rfl) | rfl) | rfl) | rfl) | rfl) | rfl) | rfl) | rfl) | rfl <;> rfl

private theorem syms_pair (hc : isPairable c = true) (t : List Char) :
    syms ('\\' :: c :: t) = octetsOf c ++ syms t := by
  match t with
  | [] => simp [syms]
  | e :: rest =>
    have hnone : hexOctet c e = none := by
      rw [hexOctet, hexValue_pairable hc]
      rfl
    rw [syms, if_pos rfl, hnone]

private theorem syms_octets (hp : Octets bytes p) (t : List Char) :
    syms (p ++ t) = bytes.map .octet ++ syms t := by
  induction hp with
  | nil => rfl
  | @cons b bytes high low p hb _ ih =>
    rw [List.cons_append, List.cons_append, List.cons_append, syms, if_pos rfl, hb]
    show Sym.octet b :: syms (p ++ t) = _
    rw [ih, List.map_cons, List.cons_append]

theorem Reads.syms_eq (h : Reads t ts) :
    syms t = ts.flatMap Tok.syms := by
  induction h with
  | nil => rfl
  | cut => rfl
  | plain hc _ ih => rw [syms_plain hc, ih]; rfl
  | pair hc _ ih => rw [syms_pair hc, ih]; rfl
  | octets hp _ ih => rw [syms_octets hp, ih]; rfl

/-- The octets before the first plain character. -/
private def leading : List Sym → List UInt8
  | .octet b :: rest => b :: leading rest
  | _ => []

private theorem leading_octets (bytes : List UInt8) (rest : List Sym) :
    leading (bytes.map .octet ++ rest) = bytes ++ leading rest := by
  induction bytes with
  | nil => rfl
  | cons b bytes ih =>
    show b :: leading (bytes.map .octet ++ rest) = _
    rw [ih, List.cons_append]

private theorem utf8EncodeChar_ne_nil (c : Char) : String.utf8EncodeChar c ≠ [] := by
  intro h
  have hread := FormUrl.lossyFrom_utf8EncodeChar c []
  rw [h] at hread
  cases hread

private theorem octetsOf_eq_cons (c : Char) : ∃ b rest, octetsOf c = .octet b :: rest := by
  obtain ⟨b, bytes, hbytes⟩ := List.exists_cons_of_ne_nil (utf8EncodeChar_ne_nil c)
  exact ⟨b, bytes.map .octet, by rw [octetsOf, hbytes, List.map_cons]⟩

/-- The octets of characters are put together in one way. -/
private theorem flatMap_syms_inj {ts' : List Tok} (h : ts.flatMap Tok.syms = ts'.flatMap Tok.syms) :
    ts = ts' := by
  induction ts generalizing ts' with
  | nil =>
    match ts' with
    | [] => rfl
    | .plain c :: _ => cases h
    | .escaped c :: rest =>
      obtain ⟨b, bytes, hc⟩ := octetsOf_eq_cons c
      simp [Tok.syms, hc] at h
  | cons x ts ih =>
    match x, ts' with
    | .plain c, [] => cases h
    | .escaped c, [] =>
      obtain ⟨b, bytes, hc⟩ := octetsOf_eq_cons c
      simp [Tok.syms, hc] at h
    | .plain c, .plain c' :: ts' =>
      obtain ⟨hhead, htail⟩ := List.cons.inj h
      cases hhead
      rw [ih htail]
    | .plain c, .escaped c' :: ts' =>
      obtain ⟨b, bytes, hc⟩ := octetsOf_eq_cons c'
      simp [Tok.syms, hc] at h
    | .escaped c, .plain c' :: ts' =>
      obtain ⟨b, bytes, hc⟩ := octetsOf_eq_cons c
      simp [Tok.syms, hc] at h
    | .escaped c, .escaped c' :: ts' =>
      rw [List.flatMap_cons, List.flatMap_cons] at h
      have hbytes := congrArg leading h
      have hchar : c = c' := by
        rw [Tok.syms, Tok.syms, octetsOf, octetsOf, leading_octets, leading_octets] at hbytes
        have hread := congrArg (FormUrl.lossyFrom none) hbytes
        rw [FormUrl.lossyFrom_utf8EncodeChar, FormUrl.lossyFrom_utf8EncodeChar] at hread
        exact (List.cons.inj hread).1
      subst hchar
      rw [ih (List.append_cancel_left h)]

/-- A text is read in one way. -/
theorem Reads.unique {ts' : List Tok} (h : Reads t ts) (h' : Reads t ts') :
    ts = ts' :=
  flatMap_syms_inj (h.syms_eq.symm.trans h'.syms_eq)

/-! ## The key of what is read -/

/-- What is before the first plain `+`, and the pieces after it. -/
def pieces : List Tok → List Tok × List (List Tok)
  | [] => ([], [])
  | x :: ts =>
    if x = .plain '+' then ([], (pieces ts).1 :: (pieces ts).2)
    else (x :: (pieces ts).1, (pieces ts).2)

/-- What is before the first plain `=`, and what is after it. -/
def cutEquals : List Tok → List Tok × List Tok
  | [] => ([], [])
  | x :: ts =>
    if x = .plain '=' then ([], ts) else (x :: (cutEquals ts).1, (cutEquals ts).2)

section Keys

variable (lower : Char → List Char)

/-- The key of what was read. -/
def tokKey (ts : List Tok) : List Char := key lower (ts.map Tok.char)

/-- The keys of a type and its value. -/
def avaKey (ts : List Tok) : List Char × List Char :=
  (tokKey lower (cutEquals ts).1, tokKey lower (cutEquals ts).2)

/-- The types and values of a step. -/
def avasKey (ts : List Tok) : List (List Char × List Char) :=
  avaKey lower (pieces ts).1 :: (pieces ts).2.map (avaKey lower)

/-- What is left of a step behind its first `=`. -/
def restKey (ts : List Tok) : List Char × List (List Char × List Char) :=
  (tokKey lower (pieces ts).1, (pieces ts).2.map (avaKey lower))

end Keys

theorem pieces_append (h : .plain '+' ∉ ts) (us : List Tok) :
    pieces (ts ++ us) = (ts ++ (pieces us).1, (pieces us).2) := by
  induction ts with
  | nil => rfl
  | cons x ts ih =>
    rw [List.mem_cons, not_or] at h
    rw [List.cons_append, pieces, if_neg (Ne.symm h.1), ih h.2]
    rfl

theorem cutEquals_append (h : .plain '=' ∉ ts) (us : List Tok) :
    cutEquals (ts ++ us) = (ts ++ (cutEquals us).1, (cutEquals us).2) := by
  induction ts with
  | nil => rfl
  | cons x ts ih =>
    rw [List.mem_cons, not_or] at h
    rw [List.cons_append, cutEquals, if_neg (Ne.symm h.1), ih h.2]
    rfl

private theorem pieces_self (h : .plain '+' ∉ ts) : pieces ts = (ts, []) := by
  have happend := pieces_append h []
  rw [List.append_nil] at happend
  rw [happend, pieces, List.append_nil]

/-- Plain characters. -/
def plainText (cs : List Char) : List Tok := cs.map .plain

private theorem map_char_plainText (cs : List Char) : (plainText cs).map Tok.char = cs := by
  rw [plainText, List.map_map]
  exact List.map_id cs

private theorem mem_plainText {cs : List Char} : .plain c ∈ plainText cs ↔ c ∈ cs := by
  simp [plainText]

variable {lower : Char → List Char}

/-- A type before a `=`, and what is behind it. -/
theorem avasKey_kind (hplus : '+' ∉ kind) (hequals : '=' ∉ kind) (ts : List Tok) :
    avasKey lower (plainText kind ++ .plain '=' :: ts) =
      (key lower kind, (restKey lower ts).1) :: (restKey lower ts).2 := by
  have hplus' : .plain '+' ∉ plainText kind := fun h => hplus (mem_plainText.mp h)
  have hequals' : .plain '=' ∉ plainText kind := fun h => hequals (mem_plainText.mp h)
  have hsep : pieces (.plain '=' :: ts) = (.plain '=' :: (pieces ts).1, (pieces ts).2) := by
    rw [pieces, if_neg (by decide)]
  have hcut : cutEquals (.plain '=' :: (pieces ts).1) = ([], (pieces ts).1) := by
    rw [cutEquals, if_pos rfl]
  rw [avasKey, pieces_append hplus', hsep, avaKey, cutEquals_append hequals', hcut,
    List.append_nil, tokKey, map_char_plainText]
  rfl

/-- The key of a text that goes on behind a `+`. -/
theorem restKey_plus (h : .plain '+' ∉ ts) (us : List Tok) :
    restKey lower (ts ++ .plain '+' :: us) = (tokKey lower ts, avasKey lower us) := by
  have hsep : pieces (.plain '+' :: us) = ([], (pieces us).1 :: (pieces us).2) := by
    rw [pieces, if_pos rfl]
  rw [restKey, pieces_append h, hsep, List.append_nil]
  rfl

theorem restKey_self (h : .plain '+' ∉ ts) :
    restKey lower ts = (tokKey lower ts, []) := by
  rw [restKey, pieces_self h]
  rfl

/-! ## Surrounding spaces -/

private theorem strip_cons (hc : Text.isWhitespace c = true) (cs : List Char) :
    strip (c :: cs) = strip cs := by
  rw [strip, List.dropWhile_cons_of_pos hc, strip]

private theorem strip_concat (hc : Text.isWhitespace c = true) (cs : List Char) :
    strip (cs ++ [c]) = strip cs := by
  rw [strip, strip, List.dropWhile_append]
  split
  · next h =>
    rw [List.isEmpty_iff] at h
    rw [h, List.dropWhile_cons_of_pos hc]
    rfl
  · rw [List.rdropWhile_concat_pos _ _ _ hc]

variable (hlower : LowerCase lower)
include hlower

private theorem fold_space (hc : Text.isWhitespace c = true) : fold lower c = [c] := by
  have hne : c ≠ '\u03c2' := by
    rintro rfl
    exact absurd hc (by decide)
  rw [fold, hlower.space c hc, List.map_singleton, if_neg hne]

theorem key_cons (hc : Text.isWhitespace c = true) (cs : List Char) :
    key lower (c :: cs) = key lower cs := by
  rw [key, List.flatMap_cons, fold_space hlower hc, List.singleton_append, strip_cons hc, key]

theorem key_concat (hc : Text.isWhitespace c = true) (cs : List Char) :
    key lower (cs ++ [c]) = key lower cs := by
  rw [key, List.flatMap_append, List.flatMap_singleton, fold_space hlower hc, strip_concat hc, key]

omit hlower in
private theorem isWhitespace_of_spaces (hs : Spaces s) (hc : c ∈ s) :
    Text.isWhitespace c = true := by
  rw [hs c hc]
  rfl

theorem key_spaces_append (hs : Spaces s) (cs : List Char) :
    key lower (s ++ cs) = key lower cs := by
  induction s with
  | nil => rfl
  | cons c s ih =>
    rw [List.cons_append, key_cons hlower (isWhitespace_of_spaces hs List.mem_cons_self),
      ih fun d hd => hs d (List.mem_cons_of_mem _ hd)]

theorem key_append_spaces (hs : Spaces s) (cs : List Char) :
    key lower (cs ++ s) = key lower cs := by
  induction s generalizing cs with
  | nil => rw [List.append_nil]
  | cons c s ih =>
    rw [List.append_cons, ih (fun d hd => hs d (List.mem_cons_of_mem _ hd)),
      key_concat hlower (isWhitespace_of_spaces hs List.mem_cons_self)]

omit hlower in
private theorem ne_plain_of_space (hx : Text.isWhitespace x.char = true)
    (hc : Text.isWhitespace c = false) : x ≠ .plain c := by
  rintro rfl
  rw [show (Tok.plain c).char = c from rfl, hc] at hx
  cases hx

/-- The tokens, with one more at the end or not. -/
private def SpaceAfter (x : Tok) (ts us : List Tok) : Prop := us = ts ∨ us = ts ++ [x]

private theorem SpaceAfter.tokKey (hx : Text.isWhitespace x.char = true) (h : SpaceAfter x ts us) :
    tokKey lower us = tokKey lower ts := by
  rcases h with rfl | rfl
  · rfl
  · rw [DistinguishedName.tokKey, List.map_append, List.map_singleton, key_concat hlower hx]
    rfl

omit hlower in
private theorem SpaceAfter.cons {x : Tok} {ts us : List Tok} (h : SpaceAfter x ts us) (y : Tok) :
    SpaceAfter x (y :: ts) (y :: us) := by
  rcases h with rfl | rfl
  · exact .inl rfl
  · exact .inr rfl

omit hlower in
private theorem spaceAfter_cutEquals (hx : x ≠ .plain '=') (h : SpaceAfter x ts us) :
    SpaceAfter x (cutEquals ts).1 (cutEquals us).1 ∧
      SpaceAfter x (cutEquals ts).2 (cutEquals us).2 := by
  rcases h with rfl | rfl
  · exact ⟨.inl rfl, .inl rfl⟩
  · induction ts with
    | nil =>
      have hone : cutEquals [x] = ([x], []) := if_neg hx
      rw [List.nil_append, hone]
      exact ⟨.inr rfl, .inl rfl⟩
    | cons y ts ih =>
      rw [List.cons_append, cutEquals, cutEquals]
      split
      · exact ⟨.inl rfl, .inr rfl⟩
      · exact ⟨ih.1.cons y, ih.2⟩

private theorem SpaceAfter.avaKey (hx : Text.isWhitespace x.char = true) (h : SpaceAfter x ts us) :
    avaKey lower us = avaKey lower ts := by
  obtain ⟨hkind, hvalue⟩ := spaceAfter_cutEquals (ne_plain_of_space hx rfl) h
  rw [DistinguishedName.avaKey, hkind.tokKey hlower hx, hvalue.tokKey hlower hx]
  rfl

omit hlower in
private theorem spaceAfter_pieces (hx : x ≠ .plain '+') (ts : List Tok) :
    SpaceAfter x (pieces ts).1 (pieces (ts ++ [x])).1 ∧
      List.Forall₂ (SpaceAfter x) (pieces ts).2 (pieces (ts ++ [x])).2 := by
  induction ts with
  | nil =>
    have hone : pieces [x] = ([x], []) := if_neg hx
    rw [List.nil_append, hone]
    exact ⟨.inr rfl, .nil⟩
  | cons y ts ih =>
    rw [List.cons_append, pieces, pieces]
    split
    · exact ⟨.inl rfl, .cons ih.1 ih.2⟩
    · exact ⟨ih.1.cons y, ih.2⟩

/-- White space at the end, escaped or not, is not seen. -/
theorem restKey_concat (hx : Text.isWhitespace x.char = true) (ts : List Tok) :
    restKey lower (ts ++ [x]) = restKey lower ts := by
  obtain ⟨hfirst, hrest⟩ := spaceAfter_pieces (ne_plain_of_space hx rfl) ts
  have hkeys : (pieces (ts ++ [x])).2.map (avaKey lower) = (pieces ts).2.map (avaKey lower) := by
    generalize (pieces (ts ++ [x])).2 = us at hrest
    generalize (pieces ts).2 = us' at hrest
    induction hrest with
    | nil => rfl
    | cons hone _ ih => rw [List.map_cons, List.map_cons, hone.avaKey hlower hx, ih]
  rw [restKey, hfirst.tokKey hlower hx, hkeys]
  rfl

theorem restKey_cons (hx : Text.isWhitespace x.char = true) (ts : List Tok) :
    restKey lower (x :: ts) = restKey lower ts := by
  rw [restKey, pieces, if_neg (ne_plain_of_space hx rfl), tokKey, List.map_cons,
    key_cons hlower hx]
  rfl

omit hlower in
private theorem octets_eq_cons (hp : Octets (String.utf8EncodeChar c) p) :
    ∃ high low p', p = '\\' :: high :: low :: p' := by
  obtain ⟨b, bytes, hbytes⟩ := List.exists_cons_of_ne_nil (utf8EncodeChar_ne_nil c)
  rw [hbytes] at hp
  cases hp with
  | cons _ _ => exact ⟨_, _, _, rfl⟩

omit hlower in
private theorem Reads.of_cons_space (hw : Text.isWhitespace w = true) (h : Reads (w :: t) ts) :
    ∃ ts', ts = .plain w :: ts' ∧ Reads t ts' := by
  have hne : w ≠ '\\' := by
    rintro rfl
    exact absurd hw (by decide)
  generalize htext : w :: t = text at h
  cases h with
  | nil => cases htext
  | cut => exact absurd (List.cons.inj htext).1 hne
  | plain hc hrest =>
    obtain ⟨rfl, rfl⟩ := List.cons.inj htext
    exact ⟨_, rfl, hrest⟩
  | pair hc hrest => exact absurd (List.cons.inj htext).1 hne
  | octets hp hrest =>
    obtain ⟨high, low, p', rfl⟩ := octets_eq_cons hp
    exact absurd (List.cons.inj htext).1 hne

private theorem Reads.dropWhile (h : Reads t ts) :
    ∃ ts', Reads (t.dropWhile Text.isWhitespace) ts' ∧ restKey lower ts' = restKey lower ts := by
  induction t generalizing ts with
  | nil => exact ⟨ts, h, rfl⟩
  | cons c t ih =>
    by_cases hc : Text.isWhitespace c = true
    · obtain ⟨ts', rfl, hrest⟩ := h.of_cons_space hc
      obtain ⟨us, hus, hkey⟩ := ih hrest
      rw [List.dropWhile_cons_of_pos hc]
      exact ⟨us, hus, hkey.trans (restKey_cons hlower (x := .plain c) hc ts').symm⟩
    · rw [List.dropWhile_cons_of_neg hc]
      exact ⟨ts, h, rfl⟩

omit hlower in
private theorem isWhitespace_hexValue (hc : Text.isWhitespace c = true) :
    SearchFilter.hexValue c = none := by
  simp only [Text.isWhitespace, Bool.or_eq_true, Bool.and_eq_true, decide_eq_true_eq,
    beq_iff_eq] at hc
  have hdigit : ¬ c.isDigit = true := by
    rw [Char.isDigit_iff_toNat]
    show ¬ (48 ≤ c.toNat ∧ c.toNat ≤ 57)
    omega
  have hle (d : Char) (h : d.toNat ≤ c.toNat) : d ≤ c := h
  have hlow : ¬ ('a' ≤ c && c ≤ 'f') = true := by
    simp only [Bool.and_eq_true, decide_eq_true_eq, Char.le_def, UInt32.le_iff_toNat_le]
    show ¬ (97 ≤ c.toNat ∧ c.toNat ≤ 102)
    omega
  have hhigh : ¬ ('A' ≤ c && c ≤ 'F') = true := by
    simp only [Bool.and_eq_true, decide_eq_true_eq, Char.le_def, UInt32.le_iff_toNat_le]
    show ¬ (65 ≤ c.toNat ∧ c.toNat ≤ 70)
    omega
  rw [SearchFilter.hexValue, if_neg hdigit, if_neg hlow, if_neg hhigh]

omit hlower in
private theorem Octets.no_space_last (hw : Text.isWhitespace w = true)
    (h : Octets bytes (p ++ [w])) : False := by
  generalize htext : p ++ [w] = text at h
  induction h generalizing p with
  | nil => exact absurd htext (by simp)
  | @cons b bytes high low t hb hrest ih =>
    match p with
    | [] => simp at htext
    | [_] => simp at htext
    | [_, _] =>
      have hlow : w = low := by
        simp only [List.cons_append, List.nil_append, List.cons.injEq] at htext
        exact htext.2.2.1
      subst hlow
      rw [hexOctet, isWhitespace_hexValue hw] at hb
      cases hhigh : SearchFilter.hexValue high <;> rw [hhigh] at hb <;> cases hb
    | _ :: _ :: _ :: p =>
      simp only [List.cons_append, List.cons.injEq] at htext
      exact ih htext.2.2.2

omit hlower in
/-- White space at the end stands for itself or was escaped. -/
private theorem Reads.of_concat_space (hw : Text.isWhitespace w = true) (h : Reads (t ++ [w]) ts) :
    ∃ ts' x, ts = ts' ++ [x] ∧ x.char = w ∧ Reads t ts' := by
  generalize htext : t ++ [w] = text at h
  induction h generalizing t with
  | nil => exact absurd htext (by simp)
  | cut =>
    have hsame := congrArg List.getLast? htext
    rw [List.getLast?_concat] at hsame
    cases hsame
    exact absurd hw (by decide)
  | @plain c t₀ ts hc hrest ih =>
    match t with
    | [] =>
      obtain ⟨rfl, rfl⟩ := List.cons.inj htext
      rw [← Reads.nil.unique hrest]
      exact ⟨[], .plain w, rfl, rfl, .nil⟩
    | d :: t =>
      obtain ⟨rfl, htail⟩ := List.cons.inj htext
      obtain ⟨ts', x, rfl, hx, hreads⟩ := ih htail
      exact ⟨.plain d :: ts', x, rfl, hx, .plain hc hreads⟩
  | @pair c t₀ ts hc hrest ih =>
    match t with
    | [] => simp at htext
    | [d] =>
      simp only [List.cons_append, List.nil_append, List.cons.injEq] at htext
      obtain ⟨rfl, rfl, rfl⟩ := htext
      rw [← Reads.nil.unique hrest]
      exact ⟨[], .escaped w, rfl, rfl, .cut⟩
    | d :: e :: t =>
      simp only [List.cons_append, List.cons.injEq] at htext
      obtain ⟨rfl, rfl, htail⟩ := htext
      obtain ⟨ts', x, rfl, hx, hreads⟩ := ih htail
      exact ⟨.escaped e :: ts', x, rfl, hx, .pair hc hreads⟩
  | @octets c p t₀ ts hp hrest ih =>
    rcases List.eq_nil_or_concat t₀ with rfl | ⟨t₁, d, rfl⟩
    · rw [List.append_nil] at htext
      rw [← htext] at hp
      exact (hp.no_space_last hw).elim
    · rw [List.concat_eq_append, ← List.append_assoc] at htext
      obtain ⟨rfl, hlast⟩ := List.append_inj' htext rfl
      cases hlast
      obtain ⟨ts', x, rfl, hx, hreads⟩ := ih (List.concat_eq_append ..).symm
      exact ⟨.escaped c :: ts', x, rfl, hx, .octets hp hreads⟩

private theorem Reads.rdropWhile (h : Reads t ts) :
    ∃ ts', Reads (t.rdropWhile Text.isWhitespace) ts' ∧ restKey lower ts' = restKey lower ts := by
  induction t using List.reverseRecOn generalizing ts with
  | nil => exact ⟨ts, h, rfl⟩
  | append_singleton t c ih =>
    by_cases hc : Text.isWhitespace c = true
    · obtain ⟨ts', x, rfl, hx, hrest⟩ := h.of_concat_space hc
      obtain ⟨us, hus, hkey⟩ := ih hrest
      rw [List.rdropWhile_concat_pos _ _ _ hc]
      rw [← hx] at hc
      exact ⟨us, hus, hkey.trans (restKey_concat hlower hc ts').symm⟩
    · rw [List.rdropWhile_concat_neg _ _ _ hc]
      exact ⟨ts, h, rfl⟩

/-- What trimming takes away is not seen. -/
theorem Reads.trim (h : Reads t ts) :
    ∃ ts', Reads (strip t) ts' ∧ restKey lower ts' = restKey lower ts := by
  obtain ⟨us, hus, hkey⟩ := h.dropWhile hlower
  obtain ⟨ts', hts', hkey'⟩ := hus.rdropWhile hlower
  exact ⟨ts', hts', hkey'.trans hkey⟩

/-! ## Lower case -/

/-- A character that is no letter comes from itself only. -/
private theorem eq_of_mem_lower (hd : d ∈ lower c) (hascii : d.toNat < 128)
    (hletter : d.toNat < 0x41 ∨ (0x5a < d.toNat ∧ d.toNat < 0x61) ∨ 0x7a < d.toNat) : c = d := by
  by_cases hc : c.toNat < 128
  · rw [hlower.ascii c hc, List.mem_singleton] at hd
    exact (Text.toLower_eq_iff hletter).mp hd.symm
  · rcases hlower.nonAscii c (Nat.le_of_not_lt hc) d hd hascii with rfl | rfl
    · exact absurd hletter (by decide)
    · exact absurd hletter (by decide)

private theorem lower_of_mark (hascii : c.toNat < 128)
    (hletter : c.toNat < 0x41 ∨ (0x5a < c.toNat ∧ c.toNat < 0x61) ∨ 0x7a < c.toNat) :
    lower c = [c] := by
  rw [hlower.ascii c hascii, (Text.toLower_eq_iff hletter).mpr rfl]

private theorem LowersTo.of_ascii (hc : c.toNat < 128) (h : LowersTo lower (c :: t) u) :
    ∃ u', u = c.toLower :: u' ∧ LowersTo lower t u' := by
  cases h with
  | letter _ hrest =>
    rw [hlower.ascii c hc]
    exact ⟨_, rfl, hrest⟩
  | finalSigma _ => exact absurd hc (by decide)

/-- A mark in the lowered text was in the text. -/
theorem LowersTo.mem (h : LowersTo lower t u) (hd : d ∈ u) (hascii : d.toNat < 128)
    (hletter : d.toNat < 0x41 ∨ (0x5a < d.toNat ∧ d.toNat < 0x61) ∨ 0x7a < d.toNat) : d ∈ t := by
  induction h with
  | nil => exact hd
  | letter c _ ih =>
    rcases List.mem_append.mp hd with hd | hd
    · rw [eq_of_mem_lower hlower hd hascii hletter]
      exact List.mem_cons_self
    · exact List.mem_cons_of_mem _ (ih hd)
  | finalSigma _ ih =>
    rcases List.mem_cons.mp hd with rfl | hd
    · exact absurd hascii (by decide)
    · exact List.mem_cons_of_mem _ (ih hd)

private theorem flatMap_fold_lower (c : Char) :
    (lower c).flatMap (fold lower) = fold lower c := by
  have hone : ∀ d ∈ lower c, fold lower d = [if d = '\u03c2' then '\u03c3' else d] := by
    intro d hd
    rw [fold, hlower.lowered c d hd, List.map_singleton]
  rw [List.flatMap_congr hone, fold, List.map_eq_flatMap]

private theorem fold_finalSigma : fold lower '\u03c2' = fold lower '\u03a3' := by
  rw [fold, fold, hlower.finalSigma, hlower.sigma]
  rfl

theorem LowersTo.key_eq (h : LowersTo lower t u) :
    key lower u = key lower t := by
  have hfold : u.flatMap (fold lower) = t.flatMap (fold lower) := by
    induction h with
    | nil => rfl
    | letter c _ ih =>
      rw [List.flatMap_append, flatMap_fold_lower hlower, ih, List.flatMap_cons]
    | finalSigma _ ih =>
      rw [List.flatMap_cons, List.flatMap_cons, ih, fold_finalSigma hlower]
  rw [key, key, hfold]

omit hlower in
/-- What is read in a lowered text: escaped characters have kept their case. -/
private inductive LowersTok (lower : Char → List Char) : List Tok → List Tok → Prop
  | nil : LowersTok lower [] []
  | letter (c : Char) {ts us : List Tok} :
    LowersTok lower ts us → LowersTok lower (.plain c :: ts) (plainText (lower c) ++ us)
  | finalSigma {ts us : List Tok} :
    LowersTok lower ts us → LowersTok lower (.plain '\u03a3' :: ts) (.plain '\u03c2' :: us)
  | escaped (c : Char) {ts us : List Tok} :
    LowersTok lower ts us → LowersTok lower (.escaped c :: ts) (.escaped c :: us)

private theorem LowersTok.tokKey (h : LowersTok lower ts us) :
    tokKey lower us = tokKey lower ts := by
  have hfold : (us.map Tok.char).flatMap (fold lower) = (ts.map Tok.char).flatMap (fold lower) := by
    induction h with
    | nil => rfl
    | letter c _ ih =>
      rw [List.map_append, map_char_plainText, List.flatMap_append, flatMap_fold_lower hlower, ih]
      rfl
    | finalSigma _ ih =>
      rw [List.map_cons, List.map_cons, List.flatMap_cons, List.flatMap_cons, ih]
      exact congrArg (· ++ _) (fold_finalSigma hlower)
    | escaped c _ ih =>
      rw [List.map_cons, List.map_cons, List.flatMap_cons, List.flatMap_cons, ih]
  rw [DistinguishedName.tokKey, DistinguishedName.tokKey, key, key, hfold]

private theorem plain_notMem_lower (hne : c ≠ d) (hascii : d.toNat < 128)
    (hletter : d.toNat < 0x41 ∨ (0x5a < d.toNat ∧ d.toNat < 0x61) ∨ 0x7a < d.toNat) :
    .plain d ∉ plainText (lower c) :=
  fun h => hne (eq_of_mem_lower hlower (mem_plainText.mp h) hascii hletter)

private theorem LowersTok.pieces (h : LowersTok lower ts us) :
    LowersTok lower (pieces ts).1 (pieces us).1 ∧
      List.Forall₂ (LowersTok lower) (pieces ts).2 (pieces us).2 := by
  induction h with
  | nil => exact ⟨.nil, .nil⟩
  | @letter c ts us _ ih =>
    by_cases hc : c = '+'
    · subst hc
      rw [lower_of_mark hlower (by decide) (by decide)]
      show LowersTok lower (DistinguishedName.pieces (.plain '+' :: ts)).1
        (DistinguishedName.pieces (.plain '+' :: us)).1 ∧ _
      rw [DistinguishedName.pieces, DistinguishedName.pieces, if_pos rfl, if_pos rfl]
      exact ⟨.nil, .cons ih.1 ih.2⟩
    · have hplus := plain_notMem_lower hlower (c := c) (d := '+') hc (by decide) (by decide)
      have hne : Tok.plain c ≠ .plain '+' := fun h => hc (Tok.plain.inj h)
      rw [pieces_append hplus, DistinguishedName.pieces, if_neg hne]
      exact ⟨.letter c ih.1, ih.2⟩
  | @finalSigma ts us _ ih =>
    rw [DistinguishedName.pieces, DistinguishedName.pieces, if_neg (by decide),
      if_neg (by decide)]
    exact ⟨.finalSigma ih.1, ih.2⟩
  | @escaped c ts us _ ih =>
    rw [DistinguishedName.pieces, DistinguishedName.pieces, if_neg (by simp), if_neg (by simp)]
    exact ⟨.escaped c ih.1, ih.2⟩

private theorem LowersTok.cutEquals (h : LowersTok lower ts us) :
    LowersTok lower (cutEquals ts).1 (cutEquals us).1 ∧
      LowersTok lower (cutEquals ts).2 (cutEquals us).2 := by
  induction h with
  | nil => exact ⟨.nil, .nil⟩
  | @letter c ts us hrest ih =>
    by_cases hc : c = '='
    · subst hc
      rw [lower_of_mark hlower (by decide) (by decide)]
      show LowersTok lower (DistinguishedName.cutEquals (.plain '=' :: ts)).1
        (DistinguishedName.cutEquals (.plain '=' :: us)).1 ∧ _
      rw [DistinguishedName.cutEquals, DistinguishedName.cutEquals, if_pos rfl, if_pos rfl]
      exact ⟨.nil, hrest⟩
    · have hequals := plain_notMem_lower hlower (c := c) (d := '=') hc (by decide) (by decide)
      have hne : Tok.plain c ≠ .plain '=' := fun h => hc (Tok.plain.inj h)
      rw [cutEquals_append hequals, DistinguishedName.cutEquals, if_neg hne]
      exact ⟨.letter c ih.1, ih.2⟩
  | @finalSigma ts us _ ih =>
    rw [DistinguishedName.cutEquals, DistinguishedName.cutEquals, if_neg (by decide),
      if_neg (by decide)]
    exact ⟨.finalSigma ih.1, ih.2⟩
  | @escaped c ts us _ ih =>
    rw [DistinguishedName.cutEquals, DistinguishedName.cutEquals, if_neg (by simp),
      if_neg (by simp)]
    exact ⟨.escaped c ih.1, ih.2⟩

private theorem LowersTok.restKey (h : LowersTok lower ts us) :
    restKey lower us = restKey lower ts := by
  obtain ⟨hfirst, hrest⟩ := h.pieces hlower
  have hkeys : (DistinguishedName.pieces us).2.map (avaKey lower) =
      (DistinguishedName.pieces ts).2.map (avaKey lower) := by
    generalize (DistinguishedName.pieces us).2 = us' at hrest
    generalize (DistinguishedName.pieces ts).2 = ts' at hrest
    induction hrest with
    | nil => rfl
    | cons hone _ ih =>
      obtain ⟨hkind, hvalue⟩ := hone.cutEquals hlower
      rw [List.map_cons, List.map_cons, ih, avaKey, avaKey, hkind.tokKey hlower,
        hvalue.tokKey hlower]
  rw [DistinguishedName.restKey, hfirst.tokKey hlower, hkeys]
  rfl

omit hlower in
private theorem hexValue_toLower {n : Nat} (h : SearchFilter.hexValue c = some n) :
    c.toNat < 128 ∧ SearchFilter.hexValue c.toLower = some n := by
  have hsmall : c.toNat < 128 := by
    by_contra hlarge
    have hnone : SearchFilter.hexValue c = none := by
      have hdigit : ¬ c.isDigit = true := by
        rw [Char.isDigit_iff_toNat]
        show ¬ (48 ≤ c.toNat ∧ c.toNat ≤ 57)
        omega
      have hlow : ¬ ('a' ≤ c && c ≤ 'f') = true := by
        simp only [Bool.and_eq_true, decide_eq_true_eq, Char.le_def, UInt32.le_iff_toNat_le]
        show ¬ (97 ≤ c.toNat ∧ c.toNat ≤ 102)
        omega
      have hhigh : ¬ ('A' ≤ c && c ≤ 'F') = true := by
        simp only [Bool.and_eq_true, decide_eq_true_eq, Char.le_def, UInt32.le_iff_toNat_le]
        show ¬ (65 ≤ c.toNat ∧ c.toNat ≤ 70)
        omega
      rw [SearchFilter.hexValue, if_neg hdigit, if_neg hlow, if_neg hhigh]
    rw [hnone] at h
    cases h
  have htable : ∀ m < 128, ∀ k ∈ SearchFilter.hexValue (Char.ofNat m),
      SearchFilter.hexValue (Char.ofNat m).toLower = some k := by decide +kernel
  have hvalue := htable c.toNat hsmall n (by rw [Char.ofNat_toNat, h]; rfl)
  rw [Char.ofNat_toNat] at hvalue
  exact ⟨hsmall, hvalue⟩

private theorem Octets.lowersTo (hp : Octets bytes p) (h : LowersTo lower (p ++ t) u) :
    ∃ p' u', u = p' ++ u' ∧ Octets bytes p' ∧ LowersTo lower t u' := by
  induction hp generalizing u with
  | nil => exact ⟨[], u, rfl, .nil, h⟩
  | @cons b bytes high low p hb hrest ih =>
    simp only [hexOctet, Option.bind_eq_bind, Option.bind_eq_some_iff, Option.some.injEq] at hb
    obtain ⟨x, hx, y, hy, hb⟩ := hb
    obtain ⟨hhigh, hx'⟩ := hexValue_toLower hx
    obtain ⟨hlow, hy'⟩ := hexValue_toLower hy
    obtain ⟨u₁, rfl, h₁⟩ := LowersTo.of_ascii hlower (by decide) h
    obtain ⟨u₂, rfl, h₂⟩ := LowersTo.of_ascii hlower hhigh h₁
    obtain ⟨u₃, rfl, h₃⟩ := LowersTo.of_ascii hlower hlow h₂
    obtain ⟨p', u', rfl, hp', hu'⟩ := ih h₃
    refine ⟨'\\' :: high.toLower :: low.toLower :: p', u', rfl, .cons ?_ hp', hu'⟩
    rw [hexOctet, hx', hy']
    exact congrArg some hb

omit hlower in
private theorem pairable_mark (hc : isPairable c = true) : c.toNat < 128 ∧
    (c.toNat < 0x41 ∨ (0x5a < c.toNat ∧ c.toNat < 0x61) ∨ 0x7a < c.toNat) := by
  simp only [isPairable, Bool.or_eq_true, beq_iff_eq] at hc
  rcases hc with ((((((((rfl | rfl) | rfl) | rfl) | rfl) | rfl) | rfl) | rfl) | rfl) | rfl <;>
    decide

omit hlower in
private theorem Reads.plainText {cs : List Char} (h : '\\' ∉ cs) (ht : Reads t ts) :
    Reads (cs ++ t) (plainText cs ++ ts) := by
  induction cs with
  | nil => exact ht
  | cons c cs ih =>
    rw [List.mem_cons, not_or] at h
    exact .plain (Ne.symm h.1) (ih h.2)

private theorem Reads.lowersTok (h : Reads t ts) (hu : LowersTo lower t u) :
    ∃ us, Reads u us ∧ LowersTok lower ts us := by
  induction h generalizing u with
  | nil =>
    cases hu
    exact ⟨[], .nil, .nil⟩
  | cut =>
    obtain ⟨u', rfl, hrest⟩ := hu.of_ascii hlower (by decide)
    cases hrest
    exact ⟨[], .cut, .nil⟩
  | @plain c t ts hc _ ih =>
    cases hu with
    | letter _ hrest =>
      obtain ⟨us, hreads, htok⟩ := ih hrest
      have hplain : '\\' ∉ lower c := fun h =>
        hc (eq_of_mem_lower hlower h (by decide) (by decide))
      exact ⟨_, hreads.plainText hplain, .letter c htok⟩
    | finalSigma hrest =>
      obtain ⟨us, hreads, htok⟩ := ih hrest
      exact ⟨_, .plain (by decide) hreads, .finalSigma htok⟩
  | @pair c t ts hc _ ih =>
    obtain ⟨hascii, hmark⟩ := pairable_mark hc
    obtain ⟨u₁, rfl, h₁⟩ := hu.of_ascii hlower (by decide)
    obtain ⟨u₂, rfl, h₂⟩ := h₁.of_ascii hlower hascii
    obtain ⟨us, hreads, htok⟩ := ih h₂
    rw [(Text.toLower_eq_iff hmark).mpr rfl]
    exact ⟨_, .pair hc hreads, .escaped c htok⟩
  | @octets c p t ts hp _ ih =>
    obtain ⟨p', u', rfl, hp', hrest⟩ := hp.lowersTo hlower hu
    obtain ⟨us, hreads, htok⟩ := ih hrest
    exact ⟨_, .octets hp' hreads, .escaped c htok⟩

/-- The case of letters is not seen. -/
theorem Reads.lowered (h : Reads t ts) (hu : LowersTo lower t u) :
    ∃ us, Reads u us ∧ restKey lower us = restKey lower ts := by
  obtain ⟨us, hreads, htok⟩ := h.lowersTok hlower hu
  exact ⟨us, hreads, htok.restKey hlower⟩

/-! ## What is read in the text of a name -/

omit hlower in
/-- A text of a value is read as its characters, whatever comes behind it. -/
theorem ValueText.reads {t v : List Char} (h : ValueText t v) :
    ∃ ts, ts.map Tok.char = v ∧ .plain '+' ∉ ts ∧
      ∀ u us, Reads u us → Reads (t ++ u) (ts ++ us) := by
  induction h with
  | nil => exact ⟨[], rfl, List.not_mem_nil, fun _ _ hu => hu⟩
  | @plain c t v hc _ ih =>
    obtain ⟨ts, rfl, hplus, hreads⟩ := ih
    have hne (d : Char) (hd : isSpecial d = true) : c ≠ d := by
      rintro rfl
      rw [hd] at hc
      cases hc
    refine ⟨.plain c :: ts, rfl, ?_, fun u us hu => .plain (hne '\\' rfl) (hreads u us hu)⟩
    simpa using ⟨Ne.symm (hne '+' rfl), hplus⟩
  | @pair c t v hc _ ih =>
    obtain ⟨ts, rfl, hplus, hreads⟩ := ih
    exact ⟨.escaped c :: ts, rfl, by simpa using hplus, fun u us hu => .pair hc (hreads u us hu)⟩
  | @octets c p t v hp _ ih =>
    obtain ⟨ts, rfl, hplus, hreads⟩ := ih
    refine ⟨.escaped c :: ts, rfl, by simpa using hplus, fun u us hu => ?_⟩
    rw [List.append_assoc]
    exact .octets hp (hreads u us hu)

omit hlower in
private theorem notMem_spaces (hs : Spaces s) (hc : c ≠ ' ') : c ∉ s :=
  fun h => hc (hs c h)

omit hlower in
private theorem notMem_kind (h : ∀ c ∈ kind, isTypeChar c = true) (hd : isTypeChar d = false) :
    d ∉ kind := by
  intro hmem
  rw [h d hmem] at hd
  cases hd

omit hlower in
private theorem dropWhile_spaces (hs : Spaces s) (cs : List Char) :
    (s ++ cs).dropWhile Text.isWhitespace = cs.dropWhile Text.isWhitespace := by
  induction s with
  | nil => rfl
  | cons c s ih =>
    rw [List.cons_append,
      List.dropWhile_cons_of_pos (isWhitespace_of_spaces hs List.mem_cons_self),
      ih fun d hd => hs d (List.mem_cons_of_mem _ hd)]

omit hlower in
private theorem rdropWhile_spaces (hs : Spaces s) (cs : List Char) :
    (cs ++ s).rdropWhile Text.isWhitespace = cs.rdropWhile Text.isWhitespace := by
  have hreverse : Spaces s.reverse := fun c hc => hs c (List.mem_reverse.mp hc)
  rw [List.rdropWhile, List.reverse_append, dropWhile_spaces hreverse, List.rdropWhile]

omit hlower in
/-- A type between spaces is what trimming leaves. -/
private theorem strip_kind {s₁ s₂ : List Char} (h : ∀ c ∈ kind, isTypeChar c = true)
    (h₁ : Spaces s₁) (h₂ : Spaces s₂) : strip (s₁ ++ kind ++ s₂) = kind := by
  have hno : ∀ c ∈ kind, ¬ Text.isWhitespace c = true := by
    intro c hc hspace
    have htype := h c hc
    rw [isTypeChar, hspace] at htype
    simp at htype
  have hleft : kind.dropWhile Text.isWhitespace = kind := by
    rw [List.dropWhile_eq_self_iff]
    exact fun hl => hno _ (List.getElem_mem hl)
  have hright : kind.rdropWhile Text.isWhitespace = kind := by
    rw [List.rdropWhile_eq_self_iff]
    exact fun hl => hno _ (List.getLast_mem hl)
  rw [strip, List.append_assoc, dropWhile_spaces h₁]
  by_cases hkind : kind = []
  · subst hkind
    have hempty := dropWhile_spaces h₂ []
    rw [List.append_nil] at hempty
    rw [List.nil_append, hempty]
    rfl
  · have hkeep : (kind ++ s₂).dropWhile Text.isWhitespace = kind ++ s₂ := by
      rw [List.dropWhile_append, hleft]
      rw [if_neg (by simpa using hkind)]
    rw [hkeep, rdropWhile_spaces h₂, hright]

/-- A text of a type and a value: what is before its `=`, and what is read behind it. -/
theorem AvaText.parts {a : Ava} (h : AvaText t a) :
    ∃ before after ts, t = before ++ '=' :: after ∧ a.kind ≠ [] ∧ strip before = a.kind ∧
      (∀ c ∈ before, c ≠ '\\' ∧ c ≠ '+' ∧ c ≠ '=' ∧ c ≠ ',' ∧ c ≠ ';') ∧
      (∀ c ∈ a.kind, isTypeChar c = true) ∧ key lower before = key lower a.kind ∧
      .plain '+' ∉ ts ∧ tokKey lower ts = key lower a.value ∧
      ∀ u us, Reads u us → Reads (after ++ u) (ts ++ us) := by
  cases h with
  | @intro kind text value s₁ s₂ s₃ s₄ hne hkind hvalue h₁ h₂ h₃ h₄ =>
    obtain ⟨ts, hchars, hplus, hreads⟩ := hvalue.reads
    have hsep {c : Char} (hc : isTypeChar c = false) (hspace : c ≠ ' ') :
        c ∉ s₁ ++ kind ++ s₂ := by
      simp only [List.mem_append, not_or]
      exact ⟨⟨notMem_spaces h₁ hspace, notMem_kind hkind hc⟩, notMem_spaces h₂ hspace⟩
    refine ⟨s₁ ++ kind ++ s₂, s₃ ++ text ++ s₄, plainText s₃ ++ ts ++ plainText s₄, rfl, hne,
      strip_kind hkind h₁ h₂, ?_, hkind, ?_, ?_, ?_, ?_⟩
    · intro c hc
      refine ⟨?_, ?_, ?_, ?_, ?_⟩ <;> rintro rfl
      · exact hsep (c := '\\') rfl (by decide) hc
      · exact hsep (c := '+') rfl (by decide) hc
      · exact hsep (c := '=') rfl (by decide) hc
      · exact hsep (c := ',') rfl (by decide) hc
      · exact hsep (c := ';') rfl (by decide) hc
    · rw [key_append_spaces hlower h₂, key_spaces_append hlower h₁]
    · simp only [List.mem_append, mem_plainText, not_or]
      exact ⟨⟨notMem_spaces h₃ (by decide), hplus⟩, notMem_spaces h₄ (by decide)⟩
    · rw [tokKey, List.map_append, List.map_append, map_char_plainText, map_char_plainText,
        key_append_spaces hlower h₄, key_spaces_append hlower h₃, hchars]
    · intro u us hu
      rw [List.append_assoc, List.append_assoc, List.append_assoc, List.append_assoc]
      refine Reads.plainText (notMem_spaces h₃ (by decide)) (hreads _ _ ?_)
      exact Reads.plainText (notMem_spaces h₄ (by decide)) hu

/-- A text of a step is read as its types and values. -/
theorem RdnText.reads {t : List Char} {rdn : Rdn} (h : RdnText t rdn) :
    ∃ ts, Reads t ts ∧ avasKey lower ts = rdn.key lower := by
  induction h with
  | @one t a hava =>
    obtain ⟨before, after, ts, rfl, -, -, hmarks, -, hkey, hplus, hvalue, hreads⟩ :=
      hava.parts hlower
    have hafter := hreads [] [] .nil
    rw [List.append_nil, List.append_nil] at hafter
    refine ⟨plainText before ++ .plain '=' :: ts,
      .plainText (fun h => (hmarks _ h).1 rfl) (.plain (by decide) hafter), ?_⟩
    rw [avasKey_kind (fun h => (hmarks _ h).2.1 rfl) (fun h => (hmarks _ h).2.2.1 rfl),
      restKey_self hplus, hkey, hvalue]
    rfl
  | @cons t u c a as hava hsep _ ih =>
    obtain ⟨before, after, ts, rfl, -, -, hmarks, -, hkey, hplus, hvalue, hreads⟩ :=
      hava.parts hlower
    obtain ⟨us, hu, hus⟩ := ih
    rw [beq_iff_eq] at hsep
    subst hsep
    have hafter := hreads ('+' :: u) (.plain '+' :: us) (.plain (by decide) hu)
    refine ⟨plainText before ++ .plain '=' :: (ts ++ .plain '+' :: us), ?_, ?_⟩
    · rw [List.append_assoc, List.cons_append]
      exact .plainText (fun h => (hmarks _ h).1 rfl) (.plain (by decide) hafter)
    · rw [avasKey_kind (fun h => (hmarks _ h).2.1 rfl) (fun h => (hmarks _ h).2.2.1 rfl),
        restKey_plus hplus, hkey, hvalue, hus]
      rfl

/-- A text of a step, cut at its first `=`: a type and the key of what is behind it. -/
theorem RdnText.parts {rdn : Rdn} (h : RdnText t rdn) :
    ∃ before after ts, t = before ++ '=' :: after ∧ '=' ∉ before ∧ strip before ≠ [] ∧
      (∀ c ∈ strip before, isTypeChar c = true) ∧ Reads after ts ∧
      (key lower (strip before), (restKey lower ts).1) :: (restKey lower ts).2 =
        rdn.key lower := by
  cases h with
  | @one t a hava =>
    obtain ⟨before, after, ts, rfl, hne, hstrip, hmarks, hkind, -, hplus, hvalue, hreads⟩ :=
      hava.parts hlower
    have hafter := hreads [] [] .nil
    rw [List.append_nil, List.append_nil] at hafter
    refine ⟨before, after, ts, rfl, fun h => (hmarks _ h).2.2.1 rfl, hstrip ▸ hne,
      hstrip ▸ hkind, hafter, ?_⟩
    rw [hstrip, restKey_self hplus, hvalue]
    rfl
  | @cons t u c a as hava hsep hrest =>
    obtain ⟨before, after, ts, rfl, hne, hstrip, hmarks, hkind, -, hplus, hvalue, hreads⟩ :=
      hava.parts hlower
    obtain ⟨us, hu, hus⟩ := RdnText.reads hlower hrest
    rw [beq_iff_eq] at hsep
    subst hsep
    have hafter := hreads ('+' :: u) (.plain '+' :: us) (.plain (by decide) hu)
    refine ⟨before, after ++ '+' :: u, ts ++ .plain '+' :: us, ?_,
      fun h => (hmarks _ h).2.2.1 rfl, hstrip ▸ hne, hstrip ▸ hkind, hafter, ?_⟩
    · rw [List.append_assoc, List.cons_append]
    · rw [hstrip, restKey_plus hplus, hvalue, hus]
      rfl

/-- A step in lower case and without surrounding spaces is still read as its types and values. -/
theorem RdnText.normalized {rdn : Rdn} (h : RdnText t rdn) :
    ∃ before after, t = before ++ '=' :: after ∧ '=' ∉ before ∧ strip before ≠ [] ∧
      ∀ kind rest, LowersTo lower (strip before) kind → LowersTo lower (strip after) rest →
        ∃ ts, Reads (kind ++ '=' :: rest) ts ∧ avasKey lower ts = rdn.key lower := by
  obtain ⟨before, after, ts, ht, hequals, hne, hkind, hreads, hkey⟩ := h.parts hlower
  refine ⟨before, after, ht, hequals, hne, fun kind rest hlowered hlowered' => ?_⟩
  have hmark {d : Char} (hascii : d.toNat < 128)
      (hletter : d.toNat < 0x41 ∨ (0x5a < d.toNat ∧ d.toNat < 0x61) ∨ 0x7a < d.toNat)
      (hd : isTypeChar d = false) : d ∉ kind :=
    fun h => notMem_kind hkind hd (hlowered.mem hlower h hascii hletter)
  obtain ⟨us, hus, hus'⟩ := hreads.trim hlower
  obtain ⟨vs, hvs, hvs'⟩ := hus.lowered hlower hlowered'
  refine ⟨plainText kind ++ .plain '=' :: vs,
    .plainText (hmark (by decide) (by decide) rfl) (.plain (by decide) hvs), ?_⟩
  rw [avasKey_kind (hmark (by decide) (by decide) rfl) (hmark (by decide) (by decide) rfl),
    hlowered.key_eq hlower, hvs', hus', hkey]

end Lib.DistinguishedName
