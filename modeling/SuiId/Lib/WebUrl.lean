import SuiId.Lib.Digits
import SuiId.Lib.UrlPath

/-!
# URLs with a host

The parser of the URL standard for the special schemes that have a host.  `parse` reads a URL
without a base, and `resolve` one that a page refers to; neither reads a URL of another scheme.
The parts are read one after the other, where the standard has one machine with a state for each.

`Edition` holds what is not fixed here: the hosts, which rest on the tables of domain names, and
whether `^` is percent-encoded in a path, in which the editions of the standard differ.
-/

namespace Lib

/-- What editions of the parser differ in. -/
structure Edition (Host : Type) where
  parseHost : List Char → Option Host
  hostText : Host → List Char
  encodesCaret : Bool

namespace WebUrl

/-- The schemes with a default port. -/
inductive Scheme where
  | ftp
  | http
  | https
  | ws
  | wss
deriving DecidableEq, Repr

namespace Scheme

/-- The name of a scheme. -/
def name : Scheme → List Char
  | ftp => "ftp".toList
  | http => "http".toList
  | https => "https".toList
  | ws => "ws".toList
  | wss => "wss".toList

/-- The port that is not written. -/
def defaultPort : Scheme → Nat
  | ftp => 21
  | http | ws => 80
  | https | wss => 443

/-- The scheme of a name, in any letter case. -/
def ofName? (name : List Char) : Option Scheme :=
  [ftp, http, https, ws, wss].find? fun scheme => scheme.name = name

end Scheme

end WebUrl

/-- A URL of one of these schemes. -/
structure WebUrl (Host : Type) where
  scheme : WebUrl.Scheme
  username : List Char
  /-- Empty where there is none. -/
  password : List Char
  host : Host
  /-- Absent where it is the one of the scheme. -/
  port : Option Nat
  path : List (List Char)
  query : Option (List Char)
  fragment : Option (List Char)
deriving DecidableEq

namespace WebUrl

open UrlPath

/-! ## Characters -/

/-- A character that is trimmed. -/
def isControlOrSpace (c : Char) : Bool := c.toNat ≤ 0x20

/-- A character that is removed. -/
def isTabOrNewline (c : Char) : Bool := c.toNat = 0x09 || c.toNat = 0x0a || c.toNat = 0x0d

/-- A backslash is a slash in a URL of these schemes. -/
def isSlash (c : Char) : Bool := c = '/' || c.toNat = 0x5c

/-- A character that ends the authority. -/
def endsAuthority (c : Char) : Bool := isSlash c || c = '?' || c = '#'

/-- The controls and what is not ASCII. -/
def inControlSet (c : Char) : Bool := c.toNat < 0x20 || 0x7e < c.toNat

/-- The space, `"`, `<`, `>` and the backquote. -/
def inFragmentSet (c : Char) : Bool :=
  inControlSet c || [0x20, 0x22, 0x3c, 0x3e, 0x60].contains c.toNat

/-- The space, `"`, `#`, `<`, `>` and the apostrophe. -/
def inQuerySet (c : Char) : Bool :=
  inControlSet c || [0x20, 0x22, 0x23, 0x3c, 0x3e, 0x27].contains c.toNat

/-- The space, `"`, `#`, `<`, `>`, `?`, the backquote, `{` and `}`. -/
def inPathSet (encodesCaret : Bool) (c : Char) : Bool :=
  inControlSet c || [0x20, 0x22, 0x23, 0x3c, 0x3e, 0x3f, 0x60, 0x7b, 0x7d].contains c.toNat ||
    (encodesCaret && c = '^')

/-- Those of a path, `/`, `:`, `;`, `=`, `@`, `[`, the backslash, `]`, `^` and `|`. -/
def inUserinfoSet (c : Char) : Bool :=
  inPathSet true c || [0x2f, 0x3a, 0x3b, 0x3d, 0x40, 0x5b, 0x5c, 0x5d, 0x7c].contains c.toNat

/-! ## Pieces -/

/-- What stands before the first `sep`. -/
def upTo (sep : Char) (text : List Char) : List Char := text.takeWhile (· ≠ sep)

/-- What stands behind the first `sep`. -/
def after? (sep : Char) (text : List Char) : Option (List Char) :=
  match text.dropWhile (· ≠ sep) with
  | [] => none
  | _ :: rest => some rest

/-- The text that is read: controls and spaces at its ends, tabs and newlines are left out. -/
def cleaned (text : List Char) : List Char :=
  ((text.dropWhile isControlOrSpace).rdropWhile isControlOrSpace).filter fun c =>
    !isTabOrNewline c

/-- A character of a scheme after its first. -/
def isSchemeCharacter (c : Char) : Bool := c.isAlphanum || c = '+' || c = '-' || c = '.'

/-- The scheme in lower case, and what stands behind its colon. -/
def cutScheme (text : List Char) : Option (List Char × List Char) :=
  if text.head?.any Char.isAlpha then
    match text.dropWhile isSchemeCharacter with
    | ':' :: rest => some ((text.takeWhile isSchemeCharacter).map Char.toLower, rest)
    | _ => none
  else none

/-- The host, and what stands behind the first colon that is not in brackets. -/
def cutPort (inBrackets : Bool) : List Char → List Char × Option (List Char)
  | [] => ([], none)
  | c :: rest =>
    if c = ':' && !inBrackets then ([], some rest)
    else
      let inBrackets := if c = '[' then true else if c = ']' then false else inBrackets
      let (host, port) := cutPort inBrackets rest
      (c :: host, port)

/-- The port, or none where it is the default one. -/
def readPort (scheme : Scheme) (digits : List Char) : Option (Option Nat) :=
  if digits.isEmpty then some none
  else if digits.all Char.isDigit then
    let port := Nat.ofDigitChars 10 digits 0
    if 0xffff < port then none
    else if port = scheme.defaultPort then some none
    else some (some port)
  else none

section Parser

variable {Host : Type} (E : Edition Host)

/-- The path, the query and the fragment. -/
def withRest (url : WebUrl Host) (path : List (List Char)) (text : List Char) : WebUrl Host :=
  let segments := (upTo '?' (upTo '#' text)).splitOnP isSlash
  { url with
    path := addSegments path (segments.map (percentEncode (inPathSet E.encodesCaret)))
    query := (after? '?' (upTo '#' text)).map (percentEncode inQuerySet)
    fragment := (after? '#' text).map (percentEncode inFragmentSet) }

/-- What stands behind the slashes of an authority, with an empty path. -/
def readAuthority (scheme : Scheme) (authority : List Char) : Option (WebUrl Host) :=
  -- The last `@` is the one that counts.
  let userinfo := (authority.rdropWhile (· ≠ '@')).dropLast
  let (host, port) := cutPort false (authority.rtakeWhile (· ≠ '@'))
  if host.isEmpty then none
  else do
    let host ← E.parseHost host
    let port ← readPort scheme (port.getD [])
    return {
      scheme, host, port
      username := percentEncode inUserinfoSet (upTo ':' userinfo)
      password := percentEncode inUserinfoSet ((after? ':' userinfo).getD [])
      path := []
      query := none
      fragment := none }

/-- A text without the slash that it may begin with. -/
def dropSlash : List Char → List Char
  | [] => []
  | c :: rest => if isSlash c then rest else c :: rest

/-- What stands behind the colon of the scheme, where no base counts. -/
def absolute (scheme : Scheme) (text : List Char) : Option (WebUrl Host) :=
  let text := text.dropWhile isSlash
  (readAuthority E scheme (text.takeWhile (!endsAuthority ·))).map fun url =>
    withRest E url [] (dropSlash (text.dropWhile (!endsAuthority ·)))

/-- A reference without a scheme. -/
def relative (base : WebUrl Host) (text : List Char) : Option (WebUrl Host) :=
  if text.head?.any isSlash then
    if text.tail.head?.any isSlash then absolute E base.scheme text
    else some (withRest E base [] text.tail)
  else if text.head?.all fun c => c = '?' || c = '#' then
    some { base with
      query :=
        if text.head? = some '?' then (after? '?' (upTo '#' text)).map (percentEncode inQuerySet)
        else base.query
      fragment := (after? '#' text).map (percentEncode inFragmentSet) }
  else some (withRest E base base.path.dropLast text)

/-- The URL of a text. -/
def parse (text : List Char) : Option (WebUrl Host) :=
  (cutScheme (cleaned text)).bind fun (name, rest) =>
    (Scheme.ofName? name).bind fun scheme => absolute E scheme rest

/-- A text that a page with the URL `base` refers to. -/
def resolve (base : WebUrl Host) (text : List Char) : Option (WebUrl Host) :=
  match cutScheme (cleaned text) with
  | none => relative E base (cleaned text)
  | some (name, rest) =>
    (Scheme.ofName? name).bind fun scheme =>
      if scheme = base.scheme && rest.take 2 ≠ ['/', '/'] then relative E base rest
      else absolute E scheme rest

end Parser

/-! ## Texts -/

section Text

variable {Host : Type} (E : Edition Host) (url : WebUrl Host)

/-- The port, with its colon. -/
def portText : Option Nat → List Char
  | none => []
  | some port => ':' :: (toString port).toList

/-- The serialisation of the origin. -/
def originText : List Char :=
  url.scheme.name ++ "://".toList ++ E.hostText url.host ++ portText url.port

/-- The user and the password, with the at sign. -/
def credentialsText : List Char :=
  if url.username.isEmpty && url.password.isEmpty then []
  else url.username ++ (if url.password.isEmpty then [] else ':' :: url.password) ++ ['@']

/-- The serialisation. -/
def text : List Char :=
  url.scheme.name ++ "://".toList ++ credentialsText url ++ E.hostText url.host ++
    portText url.port ++ pathText url.path ++
    (url.query.elim [] ('?' :: ·)) ++ (url.fragment.elim [] ('#' :: ·))

end Text

/-! ## Texts that begin with a slash -/

section Rooted

variable {Host : Type} {E : Edition Host} {base : WebUrl Host}

private theorem dropWhile_congr_of_mem {p q : Char → Bool} {l : List Char}
    (h : ∀ c ∈ l, p c = q c) : l.dropWhile p = l.dropWhile q := by
  induction l with
  | nil => rfl
  | cons c l ih =>
    rw [List.dropWhile_cons, List.dropWhile_cons, h c List.mem_cons_self,
      ih fun d hd => h d (List.mem_cons_of_mem _ hd)]

/-- A text without controls loses the spaces at its ends only. -/
theorem cleaned_of_printable {text : List Char} (h : ∀ c ∈ text, 0x20 ≤ c.toNat) :
    cleaned text = (text.dropWhile (· = ' ')).rdropWhile (· = ' ') := by
  have hsame : ∀ c ∈ text, isControlOrSpace c = decide (c = ' ') := by
    intro c hc
    have hprintable := h c hc
    have hspace : c = ' ' ↔ c.toNat = 0x20 := Char.toNat_inj.symm
    rw [isControlOrSpace, decide_eq_decide, hspace]
    omega
  have hdrop := dropWhile_congr_of_mem hsame
  have hkept : ∀ c ∈ (text.dropWhile (· = ' ')).reverse,
      isControlOrSpace c = decide (c = ' ') := fun c hc =>
    hsame c ((List.dropWhile_suffix _).subset (List.mem_reverse.mp hc))
  rw [cleaned, hdrop, List.rdropWhile, dropWhile_congr_of_mem hkept, ← List.rdropWhile,
    List.filter_eq_self]
  intro c hc
  have hprintable := h c
    ((List.dropWhile_suffix _).subset ((List.rdropWhile_prefix _ _).subset hc))
  simp only [isTabOrNewline]
  simp
  omega

/-- Only what stands behind a character that is kept is cut off. -/
theorem rdropWhile_cons_of_neg {p : Char → Bool} {c : Char} (hc : p c = false) (l : List Char) :
    (c :: l).rdropWhile p = c :: l.rdropWhile p := by
  rw [List.rdropWhile, List.rdropWhile, List.reverse_cons, List.dropWhile_append]
  split
  · next hempty =>
    rw [List.isEmpty_iff.mp hempty]
    simp [hc]
  · simp

/-- One slash at the front leaves the page its scheme, its host and its port. -/
theorem resolve_rooted {text rest : List Char} (h : cleaned text = '/' :: rest)
    (hrest : rest.head?.any isSlash = false) :
    resolve E base text = some (withRest E base [] rest) := by
  have hscheme : cutScheme ('/' :: rest) = none :=
    if_neg (show ¬Char.isAlpha '/' = true by decide)
  rw [resolve, h, hscheme]
  show relative E base ('/' :: rest) = _
  have hslash : ('/' :: rest).head?.any isSlash = true := show isSlash '/' = true by decide
  rw [relative, if_pos hslash, List.tail_cons, if_neg (by rw [hrest]; decide)]

theorem inPathSet_plain (caret : Bool) : ∀ c ∈ ['.', '%', '2', 'e', 'E'],
    inPathSet caret c = false := by
  cases caret <;> exact List.all_iff_forall_prop.mp (by decide)

theorem withRest_path_root (url : WebUrl Host) (text : List Char) :
    (withRest E url [] text).path =
      (landing ((upTo '?' (upTo '#' text)).splitOnP isSlash)).map
        (percentEncode (inPathSet E.encodesCaret)) := by
  rw [withRest]
  rw [addSegments_root (by simp), landing_map (dots_percentEncode (inPathSet_plain _)) rfl]

end Rooted

end WebUrl

end Lib
