import SuiId.Core.DocumentCache
import SuiId.Lib.Result
import SuiId.Lib.Text

/-!
# Freshness of federation documents

`http/cache_freshness.rs`: the closed set of `Cache-Control` directives, the checks of `Age`,
`Date`, `ETag` and `Content-Type`, and the two functions that build the entries of the document
cache, `store_fresh` for a 200 and `apply_304` for a 304.

The part of a `RetainedEntry<T>` that the cache reads is
`FederationDocumentCache.RetainedEntry`; the rest of it is `Representation`.

The parser of an IMF-fixdate is not part of the repository.  It is the argument `parseDate`.
A duration is a number of nanoseconds.
-/

namespace SuiId.CacheFreshness

open Lib Lib.Result FederationDocumentCache

/-- `Duration::from_secs`. -/
def fromSecs (n : Nat) : Nat := n * 1000000000

/-- `CacheKind`. -/
inductive CacheKind where
  | discovery
  | jwks
deriving DecidableEq, Repr

/-- `CacheKind::default_freshness`. -/
def CacheKind.defaultFreshness : CacheKind → Nat
  | .discovery => fromSecs (60 * 60)
  | .jwks => fromSecs (15 * 60)

/-- `CacheKind::max_freshness`. -/
def CacheKind.maxFreshness : CacheKind → Nat
  | .discovery => fromSecs (24 * 60 * 60)
  | .jwks => fromSecs (6 * 60 * 60)

/-- `MAX_CACHE_CONTROL_LEN`. -/
def maxCacheControlLen : Nat := 4096

/-- `CacheDirectives`. -/
structure CacheDirectives where
  noStore : Bool
  noCache : Bool
  mustRevalidate : Bool
  maxAge : Option Nat
  sMaxage : Option Nat
deriving DecidableEq, Repr

/-- `CacheValidationError`. -/
inductive CacheValidationError where
  | cacheControlOversized
  | obsoleteLineFolding
  | invalidListSyntax
  | duplicateDirective (name : String)
  | directiveMissingValue (name : String)
  | directiveHasUnexpectedValue (name : String)
  | quotedDeltaSeconds (name : String)
  | nonCanonicalDeltaSeconds (name : String)
  | deltaSecondsOverflow (name : String)
  | duplicateField (name : String)
  | malformedAge
  | ageOverflow
  | malformedDate
  | dateInFuture
  | malformedEtag
  | etagTooLarge
deriving DecidableEq, Repr

/-! ## `Cache-Control` -/

/-- The quotation mark. -/
def quote : Char := Char.ofNat 0x22

/-- The backslash. -/
def backslash : Char := Char.ofNat 0x5c

/-- `is_tchar`. -/
def isTchar (c : Char) : Bool :=
  c.isAlphanum || "!#$%&*+-.^_|~".toList.contains c || c.toNat == 0x27 || c.toNat == 0x60

/-- `DeltaSecondsError`. -/
inductive DeltaSecondsError where
  | nonCanonical
  | overflow

/-- One or more digits, without a leading zero, that fit in 64 bits. -/
def parseCanonicalDeltaSeconds (value : String) : Except DeltaSecondsError Nat :=
  let digits := value.toList
  if digits.isEmpty || !digits.all Char.isDigit then .error .nonCanonical
  else if 1 < digits.length ∧ digits.head? = some '0' then .error .nonCanonical
  else
    let n := digits.foldl (fun n c => 10 * n + (c.toNat - '0'.toNat)) 0
    if n < 2 ^ 64 then .ok n else .error .overflow

/-- Cut at the commas outside of quoted strings.  The second argument is what has been read of the
element, in reverse. -/
def cutList : Bool → List Char → List Char → Option (List (List Char))
  | inQuotes, element, [] => if inQuotes then none else some [element.reverse]
  | true, element, [c] => if c = quote then some [(c :: element).reverse] else none
  | true, element, c :: d :: cs =>
    -- A backslash takes the next character with it.
    if c = backslash then cutList true (d :: c :: element) cs
    else cutList (c ≠ quote) (c :: element) (d :: cs)
  | false, element, c :: cs =>
    if c = ',' then (cutList false [] cs).map (element.reverse :: ·)
    else cutList (c = quote) (c :: element) cs

/-- `split_http_list`. -/
def splitHttpList (combined : String) : Except CacheValidationError (List String) :=
  match cutList false [] combined.toList with
  | none => .error .invalidListSyntax
  | some elements =>
    .ok ((elements.map fun e => Text.trim (String.ofList e)).filter fun e => !e.isEmpty)

/-- `trim_end`. -/
def trimEnd (s : String) : String := String.ofList (s.toList.rdropWhile Text.isWhitespace)

/-- `trim_start`. -/
def trimStart (s : String) : String := String.ofList (s.toList.dropWhile Text.isWhitespace)

/-- `parse_directive`. -/
def parseDirective (elem : String) : Except CacheValidationError (String × Option String) :=
  let (name, value) := match Text.splitOnce elem "=" with
    | some (n, v) => (trimEnd n, some (trimStart v))
    | none => (elem, none)
  if name.isEmpty || !name.toList.all isTchar then .error .invalidListSyntax
  else .ok (name, value)

/-- `delta_seconds_directive`. -/
def deltaSecondsDirective (name : String) (value : Option String) :
    Except CacheValidationError Nat :=
  match value with
  | none => .error (.directiveMissingValue name)
  | some raw =>
    if raw.toList.head? = some quote then .error (.quotedDeltaSeconds name)
    else
      match parseCanonicalDeltaSeconds raw with
      | .ok secs => .ok (fromSecs secs)
      | .error .nonCanonical => .error (.nonCanonicalDeltaSeconds name)
      | .error .overflow => .error (.deltaSecondsOverflow name)

/-- `flag_directive`. -/
def flagDirective (name : String) (value : Option String) : Except CacheValidationError Unit :=
  if value.isSome then .error (.directiveHasUnexpectedValue name) else .ok ()

/-- The directives so far, and the names of the recognised ones that have been seen. -/
structure Parsed where
  seen : List String
  directives : CacheDirectives

/-- A recognised directive may occur only once. -/
def Parsed.see (parsed : Parsed) (name : String) : Except CacheValidationError Parsed :=
  if name ∈ parsed.seen then .error (.duplicateDirective name)
  else .ok { parsed with seen := name :: parsed.seen }

/-- One element of the list.  An unknown directive is ignored. -/
def Parsed.directive (parsed : Parsed) (elem : String) : Except CacheValidationError Parsed := do
  let (name, value) ← parseDirective elem
  match String.ofList (name.toList.map Char.toLower) with
  | "no-store" =>
    let parsed ← parsed.see "no-store"
    flagDirective "no-store" value
    return { parsed with directives := { parsed.directives with noStore := true } }
  | "no-cache" =>
    let parsed ← parsed.see "no-cache"
    flagDirective "no-cache" value
    return { parsed with directives := { parsed.directives with noCache := true } }
  | "must-revalidate" =>
    let parsed ← parsed.see "must-revalidate"
    flagDirective "must-revalidate" value
    return { parsed with directives := { parsed.directives with mustRevalidate := true } }
  | "max-age" =>
    let parsed ← parsed.see "max-age"
    let secs ← deltaSecondsDirective "max-age" value
    return { parsed with directives := { parsed.directives with maxAge := some secs } }
  | "s-maxage" =>
    let parsed ← parsed.see "s-maxage"
    let secs ← deltaSecondsDirective "s-maxage" value
    return { parsed with directives := { parsed.directives with sMaxage := some secs } }
  | _ => return parsed

/-- `parse_cache_control`. -/
def parseCacheControl (fieldValues : List String) :
    Except CacheValidationError CacheDirectives := do
  let combined := String.intercalate "," fieldValues
  ensure (combined.utf8ByteSize ≤ maxCacheControlLen) .cacheControlOversized
  ensure (combined.toList.all fun c => c ≠ '\r' && c ≠ '\n') .obsoleteLineFolding
  ensure (combined.toList.all fun c => (0x20 ≤ c.toNat || c = '\t') && c.toNat ≠ 0x7f)
    .invalidListSyntax
  let elements ← splitHttpList combined
  let parsed ← elements.foldlM Parsed.directive
    { seen := [], directives := ⟨false, false, false, none, none⟩ }
  return parsed.directives

/-- The freshness duration.  There is none for `no-store`. -/
def lifetime (directives : CacheDirectives) (kind : CacheKind) : Option Nat :=
  if directives.noStore then none
  else if directives.noCache then some 0
  else
    some (match directives.maxAge with
      | some maxAge => min maxAge kind.maxFreshness
      | none => kind.defaultFreshness)

/-! ## The other fields -/

/-- `Age`.  Absent is zero. -/
def validateAge (values : List String) : Except CacheValidationError Nat :=
  match values with
  | [] => .ok 0
  | [v] =>
    match parseCanonicalDeltaSeconds v with
    | .ok secs => if secs < 2 ^ 32 then .ok (fromSecs secs) else .error .ageOverflow
    | .error .nonCanonical => .error .malformedAge
    | .error .overflow => .error .ageOverflow
  | _ => .error (.duplicateField "Age")

/-- `Date`, at most sixty seconds ahead of the clock. -/
def validateDate (parseDate : String → Option DateTime) (values : List String)
    (trustedNow : DateTime) : Except CacheValidationError (Option DateTime) :=
  match values with
  | [] => .ok none
  | [v] =>
    match parseDate v with
    | none => .error .malformedDate
    | some parsed =>
      if trustedNow + seconds 60 < parsed then .error .dateInFuture else .ok (some parsed)
  | _ => .error (.duplicateField "Date")

/-- What is between the quotes of an entity-tag. -/
def etagInner (v : String) : Option String :=
  let rest := if Text.startsWith v "W/" then v.toList.drop 2 else v.toList
  match rest with
  | [] => none
  | c :: inner =>
    if c = quote ∧ inner.getLast? = some quote then some (String.ofList inner.dropLast) else none

/-- `ETag`: one strong or weak entity-tag. -/
def validateEtag (values : List String) : Except CacheValidationError (Option String) :=
  match values with
  | [] => .ok none
  | [v] =>
    match etagInner v with
    | none => .error .malformedEtag
    | some inner =>
      if 256 < inner.utf8ByteSize then .error .etagTooLarge
      else if inner.toList.all fun c => c.toNat = 0x21 || (0x23 ≤ c.toNat && c.toNat ≤ 0x7e) then
        .ok (some v)
      else .error .malformedEtag
  | _ => .error (.duplicateField "ETag")

/-- `validate_content_type_multiplicity`. -/
def validateContentTypeMultiplicity (values : List String) : Except CacheValidationError Unit :=
  if 1 < values.length then .error (.duplicateField "Content-Type") else .ok ()

/-- The larger of `Age` and the gap since `Date`, which counts only where it is not negative. -/
def initialCurrentAge (age : Nat) (date : Option DateTime) (trustedNow : DateTime) : Nat :=
  let dateTerm := match date with
    | some d => (trustedNow - d).toNat
    | none => 0
  max age dateTerm

/-! ## Entries -/

/-- `outcome_for`. -/
def outcomeFor (directives : CacheDirectives) (lifetime : Option Nat) : CacheOutcome :=
  if directives.noStore then .useOnceThenEvict
  else if lifetime = some 0 then .useAndExpire
  else .retain

/-- The part of a `RetainedEntry<T>` that the cache hands on without reading it. -/
structure Representation (τ : Type) where
  document : τ
  etag : Option String
  directives : CacheDirectives
  receivedAt : DateTime
deriving DecidableEq, Repr

/-- `RetainedEntry`. -/
abbrev RetainedEntry (τ : Type) := FederationDocumentCache.RetainedEntry (Representation τ)

/-- `Store200Error`. -/
inductive Store200Error (ε : Type) where
  | header (error : CacheValidationError)
  | semantic (error : ε)
deriving DecidableEq, Repr

/-- `ResponseHeaders`. -/
structure ResponseHeaders where
  cacheControl : List String
  age : List String
  date : List String
  etag : List String
  contentType : List String

/-- A 200.  The body is validated whatever its `ETag`, and the entry in the cache is no argument
of it. -/
def storeFresh {τ ε : Type} (parseDate : String → Option DateTime) (key : CacheKey)
    (headers : ResponseHeaders) (kind : CacheKind) (body : Bytes)
    (validateBody : Bytes → Except ε τ) (trustedNow : DateTime) :
    Except (Store200Error ε) (RetainedEntry τ × CacheOutcome) := do
  let directives ← (parseCacheControl headers.cacheControl).mapError .header
  let age ← (validateAge headers.age).mapError .header
  let date ← (validateDate parseDate headers.date trustedNow).mapError .header
  let etag ← (validateEtag headers.etag).mapError .header
  (validateContentTypeMultiplicity headers.contentType).mapError .header
  let document ← (validateBody body).mapError .semantic
  let lifetime := lifetime directives kind
  let outcome := outcomeFor directives lifetime
  let etag := if directives.noStore then none else etag
  let entry : RetainedEntry τ :=
    { key
      document := { document, etag, directives, receivedAt := trustedNow }
      lifetime
      initialCurrentAge := initialCurrentAge age date trustedNow }
  return (entry, outcome)

/-- `RevalidationError`. -/
inductive RevalidationError where
  | keyMismatch
  | entryAlreadyNoStore
  | noValidatorToRevalidate
  | etagMismatch
  | header (error : CacheValidationError)
deriving DecidableEq, Repr

/-- `RevalidationHeaders`. -/
structure RevalidationHeaders where
  cacheControl : List String
  age : List String
  date : List String

/-- The directives of a 304 replace the retained ones where it has any. -/
def replacedDirectives (retained : CacheDirectives) (fieldValues : List String) :
    Except CacheValidationError CacheDirectives :=
  if fieldValues.isEmpty then .ok retained else parseCacheControl fieldValues

/-- A 304, for the entry that is retained.  Without a `Date` it is dated by its receipt, and where
the clock has gone back since the entry was received it is stale at once. -/
def apply304 {τ : Type} (parseDate : String → Option DateTime) (entry : RetainedEntry τ)
    (key : CacheKey) (returnedEtag : Option String) (headers : RevalidationHeaders)
    (kind : CacheKind) (trustedNow : DateTime) :
    Except RevalidationError (RetainedEntry τ × CacheOutcome) := do
  ensure (entry.key = key) .keyMismatch
  ensure (!entry.document.directives.noStore) .entryAlreadyNoStore
  let retainedEtag ← require entry.document.etag .noValidatorToRevalidate
  ensure (returnedEtag.all fun returned => returned = retainedEtag) .etagMismatch
  let regressed : Bool := trustedNow < entry.document.receivedAt
  let directives ←
    (replacedDirectives entry.document.directives headers.cacheControl).mapError .header
  let age ← (validateAge headers.age).mapError .header
  let date ← (validateDate parseDate headers.date trustedNow).mapError .header
  let date := date.or (some trustedNow)
  let fresh := lifetime directives kind
  let outcome := outcomeFor directives fresh
  let etag := if directives.noStore then none else entry.document.etag
  let updated : RetainedEntry τ :=
    { key := entry.key
      document :=
        { document := entry.document.document, etag, directives, receivedAt := trustedNow }
      lifetime := if regressed then some 0 else fresh
      initialCurrentAge := initialCurrentAge age date trustedNow }
  let expired := regressed && (outcome = .retain || outcome = .useAndExpire)
  return (updated, if expired then .clockRegressedExpired else outcome)

/-! ## Overflow

A duration has 64 bits of seconds, and a point in time is between the first and the last that
`chrono` has.  An operation that overflows panics; that is `none`. -/

/-- `Duration::MAX`. -/
def durationMax : Nat := fromSecs (2 ^ 64) - 1

/-- `DateTime::MIN_UTC`. -/
def minUtc : DateTime := seconds (-8334601228800)

/-- `DateTime::MAX_UTC`. -/
def maxUtc : DateTime := seconds 8210266876800 - 1

/-- The sum of two durations, in `current_age`. -/
def addDuration (a b : Nat) : Option Nat := if a + b ≤ durationMax then some (a + b) else none

/-- A point in time some seconds later, in `validate_date`. -/
def addSeconds (t : DateTime) (n : Int) : Option DateTime :=
  if minUtc ≤ t + seconds n ∧ t + seconds n ≤ maxUtc then some (t + seconds n) else none

/-- `signed_duration_since`, in `initial_current_age`: a number of milliseconds in 64 bits. -/
def signedDurationSince (t d : DateTime) : Option Int :=
  if -(2 ^ 63) * 1000000 < t - d ∧ t - d < 2 ^ 63 * 1000000 then some (t - d) else none

/-- `is_fresh_after` with the sum that it computes. -/
def isFreshAfterChecked {τ : Type} (entry : RetainedEntry τ) (resident : Nat) : Option Bool :=
  (addDuration entry.initialCurrentAge resident).map (isFresh entry.lifetime)

end SuiId.CacheFreshness
