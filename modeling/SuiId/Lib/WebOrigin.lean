import SuiId.Lib.WebUrl

/-!
# Origins of URLs

`originOf` is the origin of a text: that of its URL, or that of the URL in a `blob:` URL.  Any other
text has an origin of its own, which nothing else has.

A text that begins with the serialisation of an origin, in any letter case, is a URL of that origin
(`parse_spelled`), if a host is read as it is written (`Edition.Lawful`).
-/

namespace Lib

namespace WebUrl

open UrlPath

/-! ## Letter case -/

/-- Lower case of ASCII, and of the one other character whose lower case is ASCII. -/
def foldCase (c : Char) : Char := if c.toNat = 0x212a then 'k' else c.toLower

/-- A character that is no letter is not changed. -/
theorem foldCase_eq_iff {c d : Char}
    (hd : d.toNat < 0x41 ∨ (0x5a < d.toNat ∧ d.toNat < 0x61) ∨ (0x7a < d.toNat ∧ d.toNat < 0x80)) :
    foldCase c = d ↔ c = d := by
  unfold foldCase
  split
  · next hkelvin =>
    constructor
    · rintro rfl
      exact absurd hd (by decide)
    · rintro rfl
      omega
  · exact Text.toLower_eq_iff (by omega)

theorem foldCase_foldCase (c : Char) : foldCase (foldCase c) = foldCase c := by
  have hk : foldCase 'k' = 'k' := by decide
  unfold foldCase at hk ⊢
  by_cases hkelvin : c.toNat = 0x212a
  · rw [if_pos hkelvin]
    exact hk
  · have hlower := Text.toNat_toLower c
    have hsame : c.toLower.toNat ≠ 0x212a := by split at hlower <;> omega
    rw [if_neg hkelvin, if_neg hsame]
    apply Char.toNat_inj.mp
    rw [Text.toNat_toLower]
    split at hlower <;> rw [if_neg (by omega)]

/-- The characters that a host may be written with. -/
def isHostCharacter (c : Char) : Bool :=
  0x20 < c.toNat && c.toNat < 0x7f && !endsAuthority c && c ≠ '@' && foldCase c = c

end WebUrl

/-- What is relied on of hosts. -/
structure Edition.Lawful {Host : Type} (E : Edition Host) : Prop where
  /-- A host that is written is read again. -/
  parseHost_hostText : ∀ {text host}, E.parseHost text = some host →
    E.parseHost (E.hostText host) = some host
  /-- A host is read in any letter case. -/
  parseHost_fold : ∀ {text}, (∀ c ∈ text.map WebUrl.foldCase, c.toNat < 0x80) →
    E.parseHost text = E.parseHost (text.map WebUrl.foldCase)
  hostText_ne_nil : ∀ {text host}, E.parseHost text = some host → E.hostText host ≠ []
  hostText_plain : ∀ {text host}, E.parseHost text = some host →
    ∀ c ∈ E.hostText host, WebUrl.isHostCharacter c = true
  /-- Colons stand in brackets only, and brackets around the whole host. -/
  hostText_colon : ∀ {text host}, E.parseHost text = some host →
    (∀ c ∈ E.hostText host, c ≠ ':' ∧ c ≠ '[' ∧ c ≠ ']') ∨
      ∃ address, E.hostText host = '[' :: (address ++ [']']) ∧ '[' ∉ address ∧ ']' ∉ address

namespace WebUrl

open UrlPath

/-! ## Hosts and ports -/

section Ports

/-- A port that a URL of the scheme may have. -/
def IsPort (scheme : Scheme) (port : Option Nat) : Prop :=
  ∀ n, port = some n → n ≤ 0xffff ∧ n ≠ scheme.defaultPort

variable {scheme : Scheme} {digits : List Char} {c : Char}

theorem isPort_of_readPort {port : Option Nat} (h : readPort scheme digits = some port) :
    IsPort scheme port := by
  intro n hn
  unfold readPort at h
  simp only at h
  split_ifs at h with hempty hdigits hlarge hdefault
  all_goals rw [hn] at h
  · cases Option.some.inj h
  · cases Option.some.inj h
  · rw [← Option.some.inj (Option.some.inj h)]
    exact ⟨by omega, hdefault⟩

variable {n : Nat}

theorem readPort_toString (h : IsPort scheme (some n)) :
    readPort scheme (toString n).toList = some (some n) := by
  obtain ⟨hlarge, hdefault⟩ := h n rfl
  have hcanonical := Digits.isCanonical_toString n
  simp only [Digits.isCanonical, Bool.and_eq_true, Bool.not_eq_true'] at hcanonical
  obtain ⟨⟨hempty, hdigits⟩, -⟩ := hcanonical
  have hvalue : Nat.ofDigitChars 10 (toString n).toList 0 = n := Digits.decimal_toString n
  unfold readPort
  rw [hempty, hdigits, hvalue]
  simp [hlarge, hdefault]

theorem cutPort_plain {l : List Char} (h : ∀ c ∈ l, c ≠ ':' ∧ c ≠ '[' ∧ c ≠ ']')
    (inBrackets : Bool) (rest : List Char) :
    cutPort inBrackets (l ++ rest) =
      (l ++ (cutPort inBrackets rest).1, (cutPort inBrackets rest).2) := by
  induction l with
  | nil => rfl
  | cons c l ih =>
    have hc := h c List.mem_cons_self
    rw [List.cons_append, cutPort, if_neg (by simp [hc.1])]
    simp only [hc.2.1, hc.2.2, if_false]
    rw [ih fun d hd => h d (List.mem_cons_of_mem _ hd)]
    rfl

theorem cutPort_bracketed {address : List Char} (hopen : '[' ∉ address) (hclose : ']' ∉ address)
    (rest : List Char) :
    cutPort true (address ++ ']' :: rest) =
      (address ++ ']' :: (cutPort false rest).1, (cutPort false rest).2) := by
  induction address with
  | nil => rfl
  | cons c address ih =>
    rw [List.mem_cons, not_or] at hopen hclose
    rw [List.cons_append, cutPort, if_neg (by simp)]
    simp only [Ne.symm hopen.1, Ne.symm hclose.1, if_false]
    rw [ih hopen.2 hclose.2]
    rfl

/-- Behind a bracket or a colon, letter case changes nothing. -/
theorem cutPort_fold (inBrackets : Bool) (l : List Char) :
    cutPort inBrackets (l.map foldCase) =
      ((cutPort inBrackets l).1.map foldCase,
        (cutPort inBrackets l).2.map (List.map foldCase)) := by
  have hcolon : ∀ c, foldCase c = ':' ↔ c = ':' := fun c => foldCase_eq_iff (by decide)
  have hopen : ∀ c, foldCase c = '[' ↔ c = '[' := fun c => foldCase_eq_iff (by decide)
  have hclose : ∀ c, foldCase c = ']' ↔ c = ']' := fun c => foldCase_eq_iff (by decide)
  induction l generalizing inBrackets with
  | nil => rfl
  | cons c l ih =>
    rw [List.map_cons, cutPort, cutPort]
    simp only [hcolon, hopen, hclose]
    split
    · rfl
    · rw [ih]
      rfl

theorem isDigit_of_mem_toString (h : c ∈ (toString n).toList) :
    c.isDigit = true := by
  have hcanonical := Digits.isCanonical_toString n
  simp only [Digits.isCanonical, Bool.and_eq_true] at hcanonical
  exact List.all_eq_true.mp hcanonical.1.2 c h

theorem isHostCharacter_of_isDigit (h : c.isDigit = true) :
    isHostCharacter c = true := by
  have hcode : 0x30 ≤ c.toNat ∧ c.toNat ≤ 0x39 := by
    simpa [Char.isDigit, UInt32.le_iff_toNat_le] using h
  have hfold : foldCase c = c := (foldCase_eq_iff (by omega)).mpr rfl
  have hne : ∀ d : Char, d.toNat < 0x30 ∨ 0x39 < d.toNat → c ≠ d := by
    rintro d hd rfl
    omega
  have hslash : c.toNat ≠ 0x5c := by omega
  simp [isHostCharacter, endsAuthority, isSlash, hfold, hne, hslash]
  omega

/-- Digits have no letter case. -/
theorem digits_of_fold (h : digits.map foldCase = (toString n).toList) :
    digits = (toString n).toList := by
  rw [← h]
  refine ((List.map_congr_left fun c hc => ?_).trans (List.map_id digits)).symm
  have hdigit : (foldCase c).isDigit = true := by
    apply isDigit_of_mem_toString (n := n)
    rw [← h]
    exact List.mem_map_of_mem hc
  have hcode : 0x30 ≤ (foldCase c).toNat ∧ (foldCase c).toNat ≤ 0x39 := by
    simpa [Char.isDigit, UInt32.le_iff_toNat_le] using hdigit
  exact ((foldCase_eq_iff (by omega)).mp rfl).symm

theorem cutPort_portText (port : Option Nat) :
    cutPort false (portText port) = ([], port.map fun n => (toString n).toList) := by
  cases port with
  | none => rfl
  | some n => rfl

end Ports

/-! ## Texts that begin with an origin -/

section Spelled

variable {Host : Type} {E : Edition Host}

/-- The part of a URL that its origin is made of. -/
def authority (url : WebUrl Host) : WebUrl Host :=
  { url with username := [], password := [], path := [], query := none, fragment := none }

/-- A URL with a host that is read and a port that is written. -/
def Proper (E : Edition Host) (url : WebUrl Host) : Prop :=
  (∃ text, E.parseHost text = some url.host) ∧ IsPort url.scheme url.port

variable {c : Char} {scheme : Scheme}

/-- Such a character is not one of those that the parser looks for. -/
theorem plain_of_fold (h : isHostCharacter (foldCase c) = true) :
    0x20 < c.toNat ∧ endsAuthority c = false ∧ c ≠ '@' := by
  have hsame : c.toNat < 0x41 ∨ c.toNat = 0x5c → foldCase c = c := by
    intro hc
    exact (foldCase_eq_iff (by omega)).mpr rfl
  simp only [isHostCharacter, Bool.and_eq_true, decide_eq_true_eq, Bool.not_eq_true'] at h
  obtain ⟨⟨⟨⟨hgraphic, -⟩, hends⟩, hat⟩, -⟩ := h
  refine ⟨?_, ?_, ?_⟩
  · by_contra hc
    rw [hsame (by omega)] at hgraphic
    exact hc hgraphic
  · by_contra hc
    rw [Bool.not_eq_false] at hc
    have hcode : c.toNat < 0x41 ∨ c.toNat = 0x5c := by
      simp only [endsAuthority, isSlash, Bool.or_eq_true, decide_eq_true_eq] at hc
      rcases hc with ((rfl | hc) | rfl) | rfl
      · decide
      · exact Or.inr hc
      · decide
      · decide
    rw [hsame hcode, hc] at hends
    cases hends
  · rintro rfl
    exact absurd hat (by decide)

section

variable (hE : E.Lawful) {text : List Char} {host : Host} (hhost : E.parseHost text = some host)

include hE hhost

theorem cutPort_hostText (rest : List Char) :
    cutPort false (E.hostText host ++ rest) =
      (E.hostText host ++ (cutPort false rest).1, (cutPort false rest).2) := by
  rcases hE.hostText_colon hhost with hplain | ⟨address, htext, hopen, hclose⟩
  · exact cutPort_plain hplain false rest
  · rw [htext]
    have hstep : cutPort false ('[' :: (address ++ [']']) ++ rest) =
        ('[' :: (cutPort true (address ++ ']' :: rest)).1,
          (cutPort true (address ++ ']' :: rest)).2) := by
      simp [cutPort]
    rw [hstep, cutPort_bracketed hopen hclose]
    simp

/-- What stands between the slashes and the path of an origin. -/
theorem hostText_portText_plain (port : Option Nat) :
    ∀ c ∈ E.hostText host ++ portText port, isHostCharacter c = true := by
  intro c hc
  rcases List.mem_append.mp hc with hc | hc
  · exact hE.hostText_plain hhost c hc
  · cases port with
    | none => cases hc
    | some n =>
      rcases List.mem_cons.mp hc with rfl | hc
      · decide
      · exact isHostCharacter_of_isDigit (isDigit_of_mem_toString hc)

theorem readAuthority_spelled {scheme : Scheme} {port : Option Nat} (hport : IsPort scheme port)
    {spelled : List Char}
    (hspelled : spelled.map foldCase = E.hostText host ++ portText port) :
    readAuthority E scheme spelled = some ⟨scheme, [], [], host, port, [], none, none⟩ := by
  have hplain : ∀ c ∈ spelled, isHostCharacter (foldCase c) = true := by
    intro c hc
    apply hostText_portText_plain hE hhost port
    rw [← hspelled]
    exact List.mem_map_of_mem hc
  have hat : ∀ c ∈ spelled, decide (c ≠ '@') = true := fun c hc =>
    decide_eq_true (plain_of_fold (hplain c hc)).2.2
  have hcut := cutPort_fold false spelled
  rw [hspelled, cutPort_hostText hE hhost, cutPort_portText, List.append_nil] at hcut
  obtain ⟨hfirst, hsecond⟩ := Prod.mk.inj hcut
  have hnonempty : (cutPort false spelled).1.isEmpty = false := by
    rw [List.isEmpty_eq_false_iff]
    intro hnil
    rw [hnil] at hfirst
    exact hE.hostText_ne_nil hhost hfirst
  have hread : E.parseHost (cutPort false spelled).1 = some host := by
    rw [hE.parseHost_fold, ← hfirst, hE.parseHost_hostText hhost]
    rw [← hfirst]
    intro c hc
    have hc := hE.hostText_plain hhost c hc
    simp only [isHostCharacter, Bool.and_eq_true, decide_eq_true_eq] at hc
    omega
  have hdigits : readPort scheme ((cutPort false spelled).2.getD []) = some port := by
    cases port with
    | none =>
      rw [Option.map_none, eq_comm, Option.map_eq_none_iff] at hsecond
      rw [hsecond]
      rfl
    | some n =>
      rw [Option.map_some, eq_comm, Option.map_eq_some_iff] at hsecond
      obtain ⟨digits, hdigits, hfold⟩ := hsecond
      rw [hdigits, Option.getD_some, digits_of_fold hfold]
      exact readPort_toString hport
  unfold readAuthority
  rw [List.rtakeWhile_eq_self_iff.mpr hat, List.rdropWhile_eq_nil_iff.mpr hat]
  simp [hnonempty, hread, hdigits, upTo, after?]

end

/-- What is left of what stands behind an origin. -/
def cleanedRest (back : List Char) : List Char :=
  (back.rdropWhile isControlOrSpace).filter fun c => !isTabOrNewline c

variable {back front : List Char} {url : WebUrl Host}

theorem head?_cleanedRest (h : back.head?.all endsAuthority = true) :
    (cleanedRest back).head?.all endsAuthority = true := by
  cases back with
  | nil => rfl
  | cons c back =>
    have hc : endsAuthority c = true := h
    have hcode : 0x20 < c.toNat := by
      simp only [endsAuthority, isSlash, Bool.or_eq_true, decide_eq_true_eq] at hc
      rcases hc with ((rfl | hc) | rfl) | rfl
      · decide
      · omega
      · decide
      · decide
    have hspace : isControlOrSpace c = false := by
      rw [isControlOrSpace, decide_eq_false_iff_not]
      omega
    have hkept : (!isTabOrNewline c) = true := by
      simp [isTabOrNewline]
      omega
    rw [cleanedRest, rdropWhile_cons_of_neg hspace]
    rw [List.filter_cons_of_pos (p := fun c => !isTabOrNewline c) hkept]
    exact hc

theorem cleaned_append (hne : front ≠ []) (hfront : ∀ c ∈ front, 0x20 < c.toNat)
    (back : List Char) :
    cleaned (front ++ back) = front ++ cleanedRest back := by
  have hspace : ∀ c ∈ front, isControlOrSpace c = false := by
    intro c hc
    have hgraphic := hfront c hc
    simp only [isControlOrSpace, decide_eq_false_iff_not]
    omega
  have hkept : ∀ c ∈ front, (!isTabOrNewline c) = true := by
    intro c hc
    have hgraphic := hfront c hc
    simp [isTabOrNewline]
    omega
  have hstart : (front ++ back).dropWhile isControlOrSpace = front ++ back := by
    cases front with
    | nil => exact absurd rfl hne
    | cons c front =>
      rw [List.cons_append, List.dropWhile_cons_of_neg (by simp [hspace c List.mem_cons_self])]
  have hend : ∀ l : List Char, (∀ c ∈ l, isControlOrSpace c = false) →
      (l ++ back).rdropWhile isControlOrSpace = l ++ back.rdropWhile isControlOrSpace := by
    intro l hl
    induction l with
    | nil => rfl
    | cons c l ih =>
      rw [List.cons_append, rdropWhile_cons_of_neg (hl c List.mem_cons_self),
        ih fun d hd => hl d (List.mem_cons_of_mem _ hd)]
      rfl
  rw [cleaned, hstart, hend front hspace, List.filter_append, List.filter_eq_self.mpr hkept]
  rfl

private theorem name_letters (scheme : Scheme) : ∀ c ∈ scheme.name,
    0x61 ≤ c.toNat ∧ c.toNat ≤ 0x7a ∧ c ≠ 'k' := by
  cases scheme <;> exact List.all_iff_forall_prop.mp (by decide)

private theorem isHostCharacter_name (scheme : Scheme) : ∀ c ∈ scheme.name,
    isHostCharacter c = true := by
  cases scheme <;> exact List.all_eq_true.mp (by decide)

private theorem isAlpha_of_fold
    (h : 0x61 ≤ (foldCase c).toNat ∧ (foldCase c).toNat ≤ 0x7a ∧ foldCase c ≠ 'k') :
    c.isAlpha = true ∧ c.toLower = foldCase c := by
  have hkelvin : c.toNat ≠ 0x212a := by
    intro hkelvin
    exact h.2.2 (if_pos hkelvin)
  have hfold : foldCase c = c.toLower := if_neg hkelvin
  refine ⟨?_, hfold.symm⟩
  have hcode := Text.toNat_toLower c
  rw [← hfold] at hcode
  have hval : c.val.toNat = c.toNat := rfl
  delta Char.isAlpha Char.isUpper Char.isLower
  simp only [Bool.or_eq_true, Bool.and_eq_true, decide_eq_true_eq, ge_iff_le,
    UInt32.le_iff_toNat_le, hval]
  show 0x41 ≤ c.toNat ∧ c.toNat ≤ 0x5a ∨ 0x61 ≤ c.toNat ∧ c.toNat ≤ 0x7a
  split at hcode <;> omega

theorem ofName?_name (scheme : Scheme) : Scheme.ofName? scheme.name = some scheme := by
  cases scheme <;> decide

theorem cutScheme_spelled (hfront : front.map foldCase = scheme.name) (rest : List Char) :
    cutScheme (front ++ ':' :: rest) = some (scheme.name, rest) := by
  have hletters : ∀ c ∈ front, c.isAlpha = true ∧ c.toLower = foldCase c := by
    intro c hc
    have hmem : foldCase c ∈ scheme.name := by
      rw [← hfront]
      exact List.mem_map_of_mem hc
    exact isAlpha_of_fold (name_letters scheme _ hmem)
  have hlower : front.map Char.toLower = scheme.name := by
    rw [← hfront]
    exact List.map_congr_left fun c hc => (hletters c hc).2
  have hscheme : ∀ c ∈ front, isSchemeCharacter c = true := by
    intro c hc
    simp [isSchemeCharacter, Char.isAlphanum, (hletters c hc).1]
  have hhead : (front ++ ':' :: rest).head?.any Char.isAlpha = true := by
    cases front with
    | nil => cases scheme <;> cases hfront
    | cons c front => exact (hletters c List.mem_cons_self).1
  have hcolon : ¬isSchemeCharacter ':' = true := by decide
  rw [cutScheme, if_pos hhead, List.dropWhile_append_of_pos hscheme,
    List.takeWhile_append_of_pos hscheme, List.dropWhile_cons_of_neg hcolon,
    List.takeWhile_cons_of_neg hcolon, List.append_nil, hlower]
  rfl

/-- The three parts of a text that spells an origin. -/
theorem exists_spelled (hfront : front.map foldCase = originText E url) :
    ∃ scheme spelled, front = scheme ++ ':' :: '/' :: '/' :: spelled ∧
      scheme.map foldCase = url.scheme.name ∧
      spelled.map foldCase = E.hostText url.host ++ portText url.port := by
  have htext : originText E url =
      url.scheme.name ++ (':' :: '/' :: '/' :: (E.hostText url.host ++ portText url.port)) := by
    simp [originText]
  rw [htext] at hfront
  obtain ⟨scheme, rest, rfl, hscheme, hrest⟩ := List.map_eq_append_iff.mp hfront
  obtain ⟨colon, rest, rfl, hcolon, hrest⟩ := List.map_eq_cons_iff.mp hrest
  obtain ⟨slash, rest, rfl, hslash, hrest⟩ := List.map_eq_cons_iff.mp hrest
  obtain ⟨slash', spelled, rfl, hslash', hspelled⟩ := List.map_eq_cons_iff.mp hrest
  rw [(foldCase_eq_iff (by decide)).mp hcolon, (foldCase_eq_iff (by decide)).mp hslash,
    (foldCase_eq_iff (by decide)).mp hslash']
  exact ⟨scheme, spelled, rfl, hscheme, hspelled⟩

theorem absolute_spelled (hE : E.Lawful) (hurl : Proper E url) {spelled : List Char}
    (hspelled : spelled.map foldCase = E.hostText url.host ++ portText url.port)
    (hback : back.head?.all endsAuthority = true) :
    absolute E url.scheme ('/' :: '/' :: (spelled ++ back)) =
      some (withRest E (authority url) [] (dropSlash back)) := by
  obtain ⟨⟨text, hhost⟩, hport⟩ := hurl
  have hplain : ∀ c ∈ spelled, (!endsAuthority c) = true := by
    intro c hc
    have hmem : foldCase c ∈ E.hostText url.host ++ portText url.port := by
      rw [← hspelled]
      exact List.mem_map_of_mem hc
    rw [(plain_of_fold (hostText_portText_plain hE hhost _ _ hmem)).2.1]
    rfl
  have hslashes : ('/' :: '/' :: (spelled ++ back)).dropWhile isSlash = spelled ++ back := by
    have hslash : isSlash '/' = true := by decide
    rw [List.dropWhile_cons_of_pos hslash, List.dropWhile_cons_of_pos hslash]
    cases spelled with
    | nil =>
      have hnil : E.hostText url.host = [] := by
        rw [List.map_nil, eq_comm, List.append_eq_nil_iff] at hspelled
        exact hspelled.1
      exact absurd hnil (hE.hostText_ne_nil hhost)
    | cons c spelled =>
      have hc := hplain c List.mem_cons_self
      rw [List.cons_append, List.dropWhile_cons_of_neg]
      simp only [endsAuthority, Bool.not_eq_true', Bool.or_eq_false_iff] at hc
      simp [hc.1.1]
  have hstop : back.takeWhile (!endsAuthority ·) = [] ∧
      back.dropWhile (!endsAuthority ·) = back := by
    cases back with
    | nil => exact ⟨rfl, rfl⟩
    | cons c back =>
      have hc : ¬(!endsAuthority c) = true := by simpa using hback
      exact ⟨List.takeWhile_cons_of_neg hc, List.dropWhile_cons_of_neg hc⟩
  rw [absolute, hslashes]
  simp only [List.takeWhile_append_of_pos hplain, List.dropWhile_append_of_pos hplain, hstop,
    List.append_nil]
  rw [readAuthority_spelled hE hhost hport hspelled]
  rfl

/-- A text that begins with the serialisation of an origin, in any letter case, and goes on with a
character that ends the authority, if it goes on. -/
theorem parse_spelled (hE : E.Lawful) (hurl : Proper E url)
    (hfront : front.map foldCase = originText E url) (hback : back.head?.all endsAuthority = true) :
    parse E (front ++ back) =
      some (withRest E (authority url) [] (dropSlash (cleanedRest back))) := by
  obtain ⟨scheme, spelled, rfl, hscheme, hspelled⟩ := exists_spelled hfront
  have hgraphic : ∀ c ∈ scheme ++ ':' :: '/' :: '/' :: spelled, 0x20 < c.toNat := by
    intro c hc
    rcases List.mem_append.mp hc with hc | hc
    · have hmem : foldCase c ∈ url.scheme.name := by
        rw [← hscheme]
        exact List.mem_map_of_mem hc
      exact (plain_of_fold (isHostCharacter_name _ _ hmem)).1
    · simp only [List.mem_cons] at hc
      rcases hc with rfl | rfl | rfl | hc
      · decide
      · decide
      · decide
      · have hmem : foldCase c ∈ E.hostText url.host ++ portText url.port := by
          rw [← hspelled]
          exact List.mem_map_of_mem hc
        obtain ⟨text, hhost⟩ := hurl.1
        exact (plain_of_fold (hostText_portText_plain hE hhost _ _ hmem)).1
  have hcut : cutScheme (scheme ++ ':' :: '/' :: '/' :: spelled ++ cleanedRest back) =
      some (url.scheme.name, '/' :: '/' :: (spelled ++ cleanedRest back)) := by
    rw [List.append_assoc]
    exact cutScheme_spelled hscheme _
  have hread := absolute_spelled hE hurl hspelled (head?_cleanedRest hback)
  rw [parse, cleaned_append (by simp) hgraphic back, hcut]
  simp only [Option.bind_some, ofName?_name]
  exact hread

theorem proper_of_readAuthority {text : List Char} (h : readAuthority E scheme text = some url) :
    Proper E url := by
  unfold readAuthority at h
  simp only at h
  split at h
  · cases h
  · simp only [Option.bind_eq_bind, Option.bind_eq_some_iff] at h
    obtain ⟨host, hhost, port, hport, hurl⟩ := h
    cases hurl
    exact ⟨⟨_, hhost⟩, isPort_of_readPort hport⟩

/-- What is parsed has a host that was read. -/
theorem proper_of_parse {text : List Char} (h : parse E text = some url) :
    Proper E url := by
  simp only [parse, Option.bind_eq_some_iff] at h
  obtain ⟨⟨name, rest⟩, -, scheme, -, habsolute⟩ := h
  rw [absolute, Option.map_eq_some_iff] at habsolute
  obtain ⟨authority, hread, rfl⟩ := habsolute
  have hproper := proper_of_readAuthority hread
  exact ⟨hproper.1, hproper.2⟩

/-- The serialisation of an origin has no letter case, and its scheme no colon. -/
theorem originText_plain (hE : E.Lawful) (hurl : Proper E url) :
    ∀ c ∈ originText E url, 0x20 < c.toNat ∧ c.toNat < 0x7f ∧ foldCase c = c := by
  obtain ⟨⟨text, hhost⟩, -⟩ := hurl
  intro c hc
  have hchar : isHostCharacter c = true ∨ c = '/' := by
    simp only [originText, List.append_assoc, List.mem_append] at hc
    rcases hc with hc | hc | hc
    · exact Or.inl (isHostCharacter_name _ c hc)
    · have hmarks : c = ':' ∨ c = '/' := by simpa using hc
      rcases hmarks with rfl | rfl
      · exact Or.inl (by decide)
      · exact Or.inr rfl
    · exact Or.inl (hostText_portText_plain hE hhost _ c (List.mem_append.mpr hc))
  rcases hchar with hchar | rfl
  · simp only [isHostCharacter, Bool.and_eq_true, decide_eq_true_eq] at hchar
    exact ⟨hchar.1.1.1.1, hchar.1.1.1.2, hchar.2⟩
  · decide

/-! ## The origin of a text -/

variable (E) in
/-- The URL in a `blob:` URL, whose path is no list of segments. -/
def blobUrl (text : List Char) : Option (WebUrl Host) :=
  (cutScheme (cleaned text)).bind fun (name, rest) =>
    if name = "blob".toList && rest.head? ≠ some '/' then
      (parse E (percentEncode inControlSet (upTo '?' (upTo '#' rest)))).filter fun url =>
        url.scheme = .http || url.scheme = .https
    else none

variable (E) in
/-- The serialisation of the origin of a text, unless the origin is one of its own. -/
def originOf (text : List Char) : Option (List Char) :=
  ((parse E text).or (blobUrl E text)).map (originText E)

/-- The text begins with the origin, up to letter case, and ends there or goes on with a slash. -/
def Spells (origin text : List Char) : Prop :=
  ∃ front back, text = front ++ back ∧ front.map foldCase = origin ∧
    (back = [] ∨ back.head? = some '/')

theorem originOf_of_spells (hE : E.Lawful) (hurl : Proper E url) {text : List Char}
    (h : Spells (originText E url) text) :
    originOf E text = some (originText E url) := by
  obtain ⟨front, back, rfl, hfront, hback⟩ := h
  have hends : back.head?.all endsAuthority = true := by
    rcases hback with rfl | hback
    · rfl
    · rw [hback]
      decide
  rw [originOf, parse_spelled hE hurl hfront hends]
  rfl

/-- The origins that a browser names: those of the pages that it loads. -/
theorem exists_proper_of_originOf {text origin : List Char} (h : originOf E text = some origin) :
    ∃ url, Proper E url ∧ originText E url = origin := by
  rw [originOf, Option.map_eq_some_iff] at h
  obtain ⟨url, hurl, horigin⟩ := h
  refine ⟨url, ?_, horigin⟩
  rcases Option.or_eq_some_iff.mp hurl with hparse | ⟨-, hblob⟩
  · exact proper_of_parse hparse
  · rw [blobUrl, Option.bind_eq_some_iff] at hblob
    obtain ⟨⟨name, rest⟩, -, hblob⟩ := hblob
    dsimp only at hblob
    split at hblob
    · exact proper_of_parse (Option.filter_eq_some_iff.mp hblob).1
    · cases hblob

end Spelled

end WebUrl

/-! ## Hosts of labels -/

/-- The lower case letters, the digits, the hyphen and the dot. -/
def isLabelCharacter (c : Char) : Bool :=
  (0x61 ≤ c.toNat && c.toNat ≤ 0x7a) || c.isDigit || c = '-' || c = '.'

theorem isHostCharacter_of_isLabelCharacter {c : Char} (h : isLabelCharacter c = true) :
    WebUrl.isHostCharacter c = true := by
  simp only [isLabelCharacter, Bool.or_eq_true, Bool.and_eq_true, decide_eq_true_eq] at h
  rcases h with ((⟨hlow, hhigh⟩ | hdigit) | rfl) | rfl
  · have hfold : WebUrl.foldCase c = c := by
      rw [WebUrl.foldCase, if_neg (by omega), ← Char.toNat_inj, Text.toNat_toLower,
        if_neg (by omega)]
    have hne : ∀ d : Char, d.toNat < 0x61 ∨ 0x7a < d.toNat → c ≠ d := by
      rintro d hd rfl
      omega
    have hslash : c.toNat ≠ 0x5c := by omega
    simp [WebUrl.isHostCharacter, WebUrl.endsAuthority, WebUrl.isSlash, hfold, hne, hslash]
    omega
  · exact WebUrl.isHostCharacter_of_isDigit hdigit
  · decide
  · decide

/-- An edition whose hosts are the names that no table is needed for. -/
def Edition.labels : Edition (List Char) where
  parseHost text :=
    let host := text.map WebUrl.foldCase
    if host ≠ [] && host.all isLabelCharacter then some host else none
  hostText host := host
  encodesCaret := true

private theorem labels_parseHost {text host : List Char}
    (h : Edition.labels.parseHost text = some host) :
    host ≠ [] ∧ (∀ c ∈ host, isLabelCharacter c = true) ∧ host.map WebUrl.foldCase = host := by
  simp only [Edition.labels, Option.ite_none_right_eq_some, Bool.and_eq_true, decide_eq_true_eq,
    List.all_eq_true, Option.some.injEq] at h
  obtain ⟨⟨hne, hlabels⟩, rfl⟩ := h
  refine ⟨hne, hlabels, ?_⟩
  rw [List.map_map]
  exact List.map_congr_left fun c _ => WebUrl.foldCase_foldCase c

theorem Edition.labels_lawful : Edition.labels.Lawful where
  parseHost_hostText := by
    intro text host h
    obtain ⟨hne, hlabels, hfold⟩ := labels_parseHost h
    show Edition.labels.parseHost host = some host
    simp only [Edition.labels, hfold]
    rw [if_pos]
    simpa using ⟨hne, hlabels⟩
  parseHost_fold := by
    intro text _
    have hfold : (text.map WebUrl.foldCase).map WebUrl.foldCase = text.map WebUrl.foldCase := by
      rw [List.map_map]
      exact List.map_congr_left fun c _ => WebUrl.foldCase_foldCase c
    simp only [Edition.labels, hfold]
  hostText_ne_nil h := (labels_parseHost h).1
  hostText_plain h c hc := isHostCharacter_of_isLabelCharacter ((labels_parseHost h).2.1 c hc)
  hostText_colon := by
    intro text host h
    refine Or.inl fun c hc => ?_
    have hlabel := (labels_parseHost h).2.1 c hc
    refine ⟨?_, ?_, ?_⟩ <;> rintro rfl <;> exact absurd hlabel (by decide)

end Lib
