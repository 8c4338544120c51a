import SuiId.Core.CacheFreshness

/-!
# Freshness along revalidations

A chain is a 200 that was stored and any number of 304s that were applied to it, each with its own
headers and clock reading.  `ChainEntry` says what the entry at its end is made of: the document,
the key and the validator of the 200, the directives of the latest response that carried any, and
the age of the latest response.  One response keeps it (`ChainEntry.revalidated`), and so does a
chain.
-/

namespace SuiId.CacheFreshness

open Lib Lib.Result FederationDocumentCache

/-- A 200 as it was received. -/
structure Response200 where
  headers : ResponseHeaders
  kind : CacheKind
  body : Bytes
  receivedAt : DateTime

/-- A 304 as it was received, with the key that is asked for at that time. -/
structure Response304 where
  key : CacheKey
  returnedEtag : Option String
  headers : RevalidationHeaders
  kind : CacheKind
  receivedAt : DateTime

variable {τ ε : Type} {parseDate : String → Option DateTime} {key : CacheKey}
  {validateBody : Bytes → Except ε τ} {first : Response200} {responses : List Response304}
  {entry : RetainedEntry τ}

/-- The entry after a 200 and 304s, the latest first. -/
inductive Chain (parseDate : String → Option DateTime) (key : CacheKey)
    (validateBody : Bytes → Except ε τ) (first : Response200) :
    List Response304 → RetainedEntry τ → Prop where
  | stored {entry : RetainedEntry τ} {outcome : CacheOutcome}
      (h : storeFresh parseDate key first.headers first.kind first.body validateBody
        first.receivedAt = .ok (entry, outcome)) :
      Chain parseDate key validateBody first [] entry
  | revalidated {responses : List Response304} {r : Response304} {entry entry' : RetainedEntry τ}
      {outcome : CacheOutcome} (chain : Chain parseDate key validateBody first responses entry)
      (h : apply304 parseDate entry r.key r.returnedEtag r.headers r.kind r.receivedAt =
        .ok (entry', outcome)) :
      Chain parseDate key validateBody first (r :: responses) entry'

/-! ## What a chain has said -/

/-- The `Cache-Control` of the latest response that carried any, or of the 200. -/
def inForce (first : Response200) : List Response304 → List String
  | [] => first.headers.cacheControl
  | r :: rs => if r.headers.cacheControl.isEmpty then inForce first rs else r.headers.cacheControl

/-- The clock reading of the latest response. -/
def lastReceived (first : Response200) : List Response304 → DateTime
  | [] => first.receivedAt
  | r :: _ => r.receivedAt

/-- The latest 304 was read at an earlier time than the response before it. -/
def Regressed (first : Response200) : List Response304 → Prop
  | [] => False
  | r :: rs => r.receivedAt < lastReceived first rs

def latestKind (first : Response200) : List Response304 → CacheKind
  | [] => first.kind
  | r :: _ => r.kind

/-- `Age` and `Date` of the latest response. -/
def latestAges (first : Response200) : List Response304 → List String × List String
  | [] => (first.headers.age, first.headers.date)
  | r :: _ => (r.headers.age, r.headers.date)

/-- The responses of a chain, as their `Cache-Control` and clock readings. -/
def received (first : Response200) (responses : List Response304) :
    List (List String × List String × DateTime) :=
  responses.map (fun r => (r.headers.cacheControl, r.headers.date, r.receivedAt)) ++
    [(first.headers.cacheControl, first.headers.date, first.receivedAt)]

/-- A response that carries `no-store`. -/
def SaysNoStore (cacheControl : List String) : Prop :=
  ∃ directives, parseCacheControl cacheControl = .ok directives ∧ directives.noStore = true

/-! ## The entry -/

/-- What the entry at the end of a chain is made of. -/
structure ChainEntry (parseDate : String → Option DateTime) (key : CacheKey)
    (validateBody : Bytes → Except ε τ) (first : Response200) (responses : List Response304)
    (entry : RetainedEntry τ) : Prop where
  key_eq : entry.key = key
  body : validateBody first.body = .ok entry.document.document
  etag : ∃ etag, validateEtag first.headers.etag = .ok etag ∧
    entry.document.etag = if entry.document.directives.noStore then none else etag
  directives : parseCacheControl (inForce first responses) = .ok entry.document.directives
  receivedAt : entry.document.receivedAt = lastReceived first responses
  lifetime : (Regressed first responses ∧ entry.lifetime = some 0) ∨
    (¬Regressed first responses ∧
      entry.lifetime = CacheFreshness.lifetime entry.document.directives
        (latestKind first responses))
  age : ∃ age date, validateAge (latestAges first responses).1 = .ok age ∧
    validateDate parseDate (latestAges first responses).2 (lastReceived first responses) =
      .ok date ∧
    entry.initialCurrentAge = initialCurrentAge age date (lastReceived first responses)

variable {outcome : CacheOutcome} {directives : CacheDirectives} {r : Response304}
  {age resident : Nat} {d : DateTime} {x : List String × List String × DateTime}

theorem ChainEntry.stored
    (h : storeFresh parseDate key first.headers first.kind first.body validateBody
      first.receivedAt = .ok (entry, outcome)) :
    ChainEntry parseDate key validateBody first [] entry := by
  simp only [storeFresh, bind_eq_ok, mapError_eq_ok, pure_eq_ok, Prod.mk.injEq] at h
  obtain ⟨directives, hdirectives, age, hage, date, hdate, etag, hetag, ⟨⟩, -, document, hbody, rfl,
    -⟩ := h
  exact ⟨rfl, hbody, ⟨etag, hetag, rfl⟩, hdirectives, rfl, Or.inr ⟨id, rfl⟩,
    ⟨age, date, hage, hdate, rfl⟩⟩

/-- Without a `Date` a 304 is as old as at its receipt, which is no age at all. -/
private theorem initialCurrentAge_or (age : Nat) (date : Option DateTime) (trustedNow : DateTime) :
    initialCurrentAge age (date.or (some trustedNow)) trustedNow =
      initialCurrentAge age date trustedNow := by
  cases date with
  | none =>
    show max age (trustedNow - trustedNow).toNat = max age 0
    rw [Int.sub_self, Int.toNat_zero]
  | some d => rfl

/-- The directives after a 304 are those in force. -/
private theorem replacedDirectives_ok {retained : CacheDirectives}
    (h : replacedDirectives retained r.headers.cacheControl = .ok directives)
    (hretained : parseCacheControl (inForce first responses) = .ok retained) :
    parseCacheControl (inForce first (r :: responses)) = .ok directives := by
  unfold replacedDirectives at h
  unfold inForce
  split at h
  · rename_i hempty
    rw [if_pos hempty, hretained, h]
  · rename_i hcarried
    rw [if_neg hcarried, h]

/-- A 304 takes the document, the key and the validator over, and has its own age. -/
theorem ChainEntry.revalidated {entry' : RetainedEntry τ}
    (hentry : ChainEntry parseDate key validateBody first responses entry)
    (h : apply304 parseDate entry r.key r.returnedEtag r.headers r.kind r.receivedAt =
      .ok (entry', outcome)) :
    ChainEntry parseDate key validateBody first (r :: responses) entry' := by
  simp only [apply304, bind_eq_ok, mapError_eq_ok, pure_eq_ok, ensure_eq_ok, Prod.mk.injEq] at h
  obtain ⟨-, -, -, hretained, retainedEtag, -, -, -, directives, hdirectives, age, hage, date,
    hdate, rfl, -⟩ := h
  have hkept : entry.document.directives.noStore = false := by
    rwa [Bool.not_eq_true'] at hretained
  obtain ⟨etag, hetag, hsame⟩ := hentry.etag
  rw [hkept, if_neg Bool.false_ne_true] at hsame
  have hregressed : Regressed first (r :: responses) ↔
      r.receivedAt < entry.document.receivedAt := by
    rw [hentry.receivedAt]
    rfl
  refine
    { key_eq := hentry.key_eq
      body := hentry.body
      etag := ⟨etag, hetag, by rw [← hsame]⟩
      directives := replacedDirectives_ok hdirectives hentry.directives
      receivedAt := rfl
      lifetime := ?_
      age := ⟨age, date, hage, hdate, initialCurrentAge_or age date r.receivedAt⟩ }
  rw [hregressed]
  by_cases hback : r.receivedAt < entry.document.receivedAt
  · exact Or.inl ⟨hback, if_pos (decide_eq_true hback)⟩
  · exact Or.inr ⟨hback, if_neg (by rw [decide_eq_true_iff]; exact hback)⟩

/-- So it is at the end of every chain. -/
theorem Chain.chainEntry (chain : Chain parseDate key validateBody first responses entry) :
    ChainEntry parseDate key validateBody first responses entry := by
  induction chain with
  | stored h => exact .stored h
  | revalidated _ h ih => exact ih.revalidated h

/-! ## What follows for freshness -/

theorem isFresh_eq_true {lifetime : Option Nat} (h : isFresh lifetime age = true) :
    ∃ l, lifetime = some l ∧ age < l := by
  obtain ⟨l, hl, hage⟩ := (Option.any_eq_true _ _).mp h
  exact ⟨l, hl, of_decide_eq_true hage⟩

/-- What a lifetime that is not zero says about the directives. -/
theorem lifetime_pos {kind : CacheKind} {l : Nat} (h : lifetime directives kind = some l)
    (hpos : 0 < l) :
    directives.noStore = false ∧ directives.noCache = false ∧
      l = min (directives.maxAge.getD kind.defaultFreshness) kind.maxFreshness := by
  have hdefault : kind.defaultFreshness ≤ kind.maxFreshness := by
    cases kind <;> decide
  unfold lifetime at h
  split at h
  · cases h
  · rename_i hstore
    split at h
    · cases h
      exact absurd hpos (Nat.lt_irrefl 0)
    · rename_i hcache
      refine ⟨Bool.eq_false_iff.mpr hstore, Bool.eq_false_iff.mpr hcache, ?_⟩
      rw [← Option.some_inj.mp h]
      cases directives.maxAge with
      | none => exact (Nat.min_eq_left hdefault).symm
      | some maxAge => rfl

/-- An entry is fresh only as long as directives without `no-store` and `no-cache` allow, counted
from the age of the latest response, and not at all if its clock had gone back. -/
theorem ChainEntry.fresh (hentry : ChainEntry parseDate key validateBody first responses entry)
    (hfresh : entry.isFreshAfter resident = true) :
    ∃ directives age date, parseCacheControl (inForce first responses) = .ok directives ∧
      directives.noStore = false ∧ directives.noCache = false ∧ ¬Regressed first responses ∧
      validateAge (latestAges first responses).1 = .ok age ∧
      validateDate parseDate (latestAges first responses).2 (lastReceived first responses) =
        .ok date ∧
      initialCurrentAge age date (lastReceived first responses) + resident <
        min (directives.maxAge.getD (latestKind first responses).defaultFreshness)
          (latestKind first responses).maxFreshness := by
  obtain ⟨age, date, hage, hdate, hinitial⟩ := hentry.age
  rw [RetainedEntry.isFreshAfter, currentAge, hinitial] at hfresh
  obtain ⟨l, hl, hlt⟩ := isFresh_eq_true hfresh
  rcases hentry.lifetime with ⟨-, hzero⟩ | ⟨hforward, hlifetime⟩
  · rw [hzero, Option.some_inj] at hl
    omega
  · obtain ⟨hstore, hcache, hmin⟩ := lifetime_pos (hlifetime.symm.trans hl) (by omega)
    exact ⟨_, age, date, hentry.directives, hstore, hcache, hforward, hage, hdate, hmin ▸ hlt⟩

/-! ## The validator -/

private theorem inForce_mem (first : Response200) (responses : List Response304) :
    inForce first responses ∈ (received first responses).map Prod.fst := by
  induction responses with
  | nil => exact List.mem_singleton_self _
  | cons r responses ih =>
    unfold inForce
    split
    · exact List.mem_cons_of_mem _ ih
    · exact List.mem_cons_self

/-- The validator is that of the 200 as long as no response has said `no-store`. -/
theorem ChainEntry.etag_kept (hentry : ChainEntry parseDate key validateBody first responses entry)
    (hstore : ∀ x ∈ received first responses, ¬SaysNoStore x.1) :
    validateEtag first.headers.etag = .ok entry.document.etag := by
  obtain ⟨etag, hetag, hsame⟩ := hentry.etag
  have hno : entry.document.directives.noStore = false := by
    obtain ⟨x, hx, hforce⟩ := List.mem_map.mp (inForce_mem first responses)
    rw [Bool.eq_false_iff]
    intro hyes
    exact hstore x hx ⟨_, hforce ▸ hentry.directives, hyes⟩
  rw [hno, if_neg Bool.false_ne_true] at hsame
  rw [hsame, hetag]

/-! ## Arithmetic -/

/-- The clock is read between the first point in time and a minute before the last, and a `Date` is
a point in time. -/
structure ClockInRange (parseDate : String → Option DateTime) (first : Response200)
    (responses : List Response304) : Prop where
  reading : ∀ x ∈ received first responses, minUtc ≤ x.2.2 ∧ x.2.2 + seconds 60 ≤ maxUtc
  date : ∀ s d, parseDate s = some d → minUtc ≤ d ∧ d ≤ maxUtc

/-- No operation on the way of a response overflows. -/
structure NoOverflow (parseDate : String → Option DateTime) (dates : List String)
    (trustedNow : DateTime) : Prop where
  limit : (addSeconds trustedNow 60).isSome
  gap : ∀ date, validateDate parseDate dates trustedNow = .ok date →
    ∀ d, date.or (some trustedNow) = some d → (signedDurationSince trustedNow d).isSome

theorem validateDate_parsed {dates : List String} {trustedNow : DateTime}
    (h : validateDate parseDate dates trustedNow = .ok (some d)) : ∃ s, parseDate s = some d := by
  unfold validateDate at h
  split at h
  · cases h
  · split at h
    · cases h
    · rename_i v _ parsed hparsed
      split at h
      · cases h
      · exact ⟨v, hparsed.trans (Except.ok.inj h)⟩
  · cases h

/-- What the clock and `chrono` have as points in time is far from the bounds of a difference. -/
private theorem signedDurationSince_isSome {t : DateTime} (ht : minUtc ≤ t ∧ t ≤ maxUtc)
    (hd : minUtc ≤ d ∧ d ≤ maxUtc) : (signedDurationSince t d).isSome := by
  have hrange : ∀ t d : Int, (-8334601228800 * 1000000000 ≤ t ∧
      t ≤ 8210266876800 * 1000000000 - 1) → (-8334601228800 * 1000000000 ≤ d ∧
      d ≤ 8210266876800 * 1000000000 - 1) →
      -(2 ^ 63) * 1000000 < t - d ∧ t - d < 2 ^ 63 * 1000000 := by
    intro t d ht hd
    omega
  rw [signedDurationSince, if_pos (hrange t d ht hd)]
  rfl

theorem ClockInRange.reading_le (hclock : ClockInRange parseDate first responses)
    (hx : x ∈ received first responses) :
    minUtc ≤ x.2.2 ∧ x.2.2 ≤ maxUtc := by
  obtain ⟨hlow, hhigh⟩ := hclock.reading x hx
  have hle : ∀ t m : Int, t + 60000000000 ≤ m → t ≤ m := by
    intro t m h
    omega
  exact ⟨hlow, hle _ _ hhigh⟩

theorem ClockInRange.noOverflow (hclock : ClockInRange parseDate first responses)
    (hx : x ∈ received first responses) :
    NoOverflow parseDate x.2.1 x.2.2 := by
  have hnow := hclock.reading_le hx
  constructor
  · have hlow : minUtc ≤ x.2.2 + seconds 60 := by
      have hle : ∀ m t : Int, m ≤ t → m ≤ t + 60000000000 := by
        intro m t h
        omega
      exact hle _ _ hnow.1
    rw [addSeconds, if_pos ⟨hlow, (hclock.reading x hx).2⟩]
    rfl
  · intro date hdate d hd
    cases date with
    | none =>
      rw [Option.none_or, Option.some_inj] at hd
      exact signedDurationSince_isSome hnow (hd ▸ hnow)
    | some d' =>
      obtain ⟨s, hs⟩ := validateDate_parsed hdate
      rw [Option.some_or, Option.some_inj] at hd
      exact signedDurationSince_isSome hnow (hclock.date s d (hd ▸ hs))

/-- An age of at most `2 ^ 32` seconds. -/
private theorem validateAge_lt {ages : List String} (h : validateAge ages = .ok age) :
    age < fromSecs (2 ^ 32) := by
  unfold validateAge at h
  split at h
  · cases h
    decide
  · split at h
    · split at h
      · rename_i hsmall
        cases h
        exact Nat.mul_lt_mul_of_pos_right hsmall (by decide)
      · cases h
    · cases h
    · cases h
  · cases h

private theorem lastReceived_mem (first : Response200) (responses : List Response304) :
    ∃ x ∈ received first responses, x.2.2 = lastReceived first responses := by
  cases responses with
  | nil => exact ⟨_, List.mem_singleton_self _, rfl⟩
  | cons r responses => exact ⟨_, List.mem_cons_self, rfl⟩

/-- The age of an entry is below `2 ^ 63` seconds. -/
theorem ChainEntry.age_lt (hentry : ChainEntry parseDate key validateBody first responses entry)
    (hclock : ClockInRange parseDate first responses) :
    entry.initialCurrentAge < fromSecs (2 ^ 63) := by
  obtain ⟨age, date, hage, hdate, hinitial⟩ := hentry.age
  obtain ⟨x, hx, hlast⟩ := lastReceived_mem first responses
  have hnow := hclock.reading_le hx
  rw [hlast] at hnow
  have hage' := validateAge_lt hage
  have hwide : fromSecs (2 ^ 32) < fromSecs (2 ^ 63) := by decide
  have hpos : 0 < fromSecs (2 ^ 63) := by decide
  rw [hinitial]
  unfold initialCurrentAge
  cases date with
  | none => exact max_lt (hage'.trans hwide) hpos
  | some d =>
    obtain ⟨s, hs⟩ := validateDate_parsed hdate
    have hd := hclock.date s d hs
    have hgap : ∀ t d : Int, t ≤ 8210266876800 * 1000000000 - 1 →
        -8334601228800 * 1000000000 ≤ d → (t - d).toNat < 2 ^ 63 * 1000000000 := by
      intro t d ht hd
      omega
    exact max_lt (hage'.trans hwide) (hgap _ _ hnow.2 hd.1)

/-- The sum with the resident time does not overflow below `2 ^ 63` seconds. -/
theorem ChainEntry.isFreshAfterChecked
    (hentry : ChainEntry parseDate key validateBody first responses entry)
    (hclock : ClockInRange parseDate first responses) (hresident : resident < fromSecs (2 ^ 63)) :
    CacheFreshness.isFreshAfterChecked entry resident = some (entry.isFreshAfter resident) := by
  have hage := hentry.age_lt hclock
  have hsum : entry.initialCurrentAge + resident ≤ durationMax := by
    unfold durationMax fromSecs at *
    omega
  rw [CacheFreshness.isFreshAfterChecked, addDuration, if_pos hsum]
  rfl

/-! ## Chains -/

/-- The document, the key and the validator are those of the 200; an entry is fresh only under the
directives in force, with a clock that has not gone back, and below the bound of its kind; and
nothing overflows while the clock and the resident time are in range. -/
theorem chain_fresh (chain : Chain parseDate key validateBody first responses entry) :
    (entry.key = key ∧ validateBody first.body = .ok entry.document.document ∧
      ((∀ x ∈ received first responses, ¬SaysNoStore x.1) →
        validateEtag first.headers.etag = .ok entry.document.etag)) ∧
    (∀ resident, entry.isFreshAfter resident = true →
      ∃ directives age date, parseCacheControl (inForce first responses) = .ok directives ∧
        directives.noStore = false ∧ directives.noCache = false ∧ ¬Regressed first responses ∧
        validateAge (latestAges first responses).1 = .ok age ∧
        validateDate parseDate (latestAges first responses).2 (lastReceived first responses) =
          .ok date ∧
        initialCurrentAge age date (lastReceived first responses) + resident <
          min (directives.maxAge.getD (latestKind first responses).defaultFreshness)
            (latestKind first responses).maxFreshness) ∧
    (ClockInRange parseDate first responses →
      (∀ x ∈ received first responses, NoOverflow parseDate x.2.1 x.2.2) ∧
      ∀ resident < fromSecs (2 ^ 63),
        isFreshAfterChecked entry resident = some (entry.isFreshAfter resident)) := by
  have hentry := chain.chainEntry
  refine ⟨⟨hentry.key_eq, hentry.body, hentry.etag_kept⟩, fun _ => hentry.fresh, fun hclock => ?_⟩
  exact ⟨fun _ hx => hclock.noOverflow hx, fun _ => hentry.isFreshAfterChecked hclock⟩

/-! ## Two chains -/

private def undated (_ : String) : Option DateTime := none

private def sampleKey : CacheKey := ⟨7, 1, 0⟩

private def acceptBody (_ : Bytes) : Except String Nat := .ok 1

private def sampleTag : List String := ["\"a\""]

private def sample200 (age : List String) (receivedAt : DateTime) : Response200 :=
  ⟨⟨["max-age=60"], age, [], sampleTag, []⟩, .jwks, [], receivedAt⟩

/-- A 304 ten seconds later. -/
private def sample304 : Response304 := ⟨sampleKey, none, ⟨[], [], []⟩, .jwks, seconds 10⟩

private def sampleEntry (receivedAt : DateTime) (age : Nat) : RetainedEntry Nat :=
  ⟨sampleKey, ⟨1, some "\"a\"", ⟨false, false, false, some (fromSecs 60), none⟩, receivedAt⟩,
    some (fromSecs 60), age⟩

private theorem sample_stored :
    Chain undated sampleKey acceptBody (sample200 [] 0) [] (sampleEntry 0 0) := by
  refine .stored (?_ : storeFresh undated sampleKey _ .jwks [] acceptBody 0 =
    .ok (sampleEntry 0 0, .retain))
  decide +kernel

private theorem sample_revalidated :
    Chain undated sampleKey acceptBody (sample200 [] 0) [sample304]
      (sampleEntry (seconds 10) 0) := by
  refine sample_stored.revalidated (?_ : apply304 undated (sampleEntry 0 0) sampleKey none _ .jwks
    (seconds 10) = .ok (sampleEntry (seconds 10) 0, .retain))
  decide +kernel

private theorem sample_clock : ClockInRange undated (sample200 [] 0) [sample304] where
  reading := by decide
  date _ _ h := by cases h

private theorem sample_keeps :
    ∀ x ∈ received (sample200 [] 0) [sample304], ¬ SaysNoStore x.1 := by
  rintro x hx ⟨directives, hparse, hyes⟩
  have hnone : ∀ x ∈ received (sample200 [] 0) [sample304],
      (parseCacheControl x.1).toOption.any (·.noStore) = false := by
    decide +kernel
  have hno := hnone x hx
  rw [hparse, Except.toOption, Option.any_some, hyes] at hno
  cases hno

/-- The entry is fresh for a minute. -/
theorem chain_fresh_sample :
    let entry := sampleEntry (seconds 10) 0
    (entry.key = sampleKey ∧ acceptBody [] = .ok entry.document.document ∧
      validateEtag sampleTag = .ok entry.document.etag) ∧
      (entry.isFreshAfter (fromSecs 59) = true ∧ ¬ Regressed (sample200 [] 0) [sample304]) ∧
      entry.isFreshAfter (fromSecs 60) = false ∧
      isFreshAfterChecked entry (fromSecs 60) = some (entry.isFreshAfter (fromSecs 60)) := by
  obtain ⟨⟨hkey, hbody, hetag⟩, hfresh, hclock⟩ := chain_fresh sample_revalidated
  have hnow : (sampleEntry (seconds 10) 0).isFreshAfter (fromSecs 59) = true := by decide
  obtain ⟨-, -, -, -, -, -, hregressed, -⟩ := hfresh _ hnow
  exact ⟨⟨hkey, hbody, hetag sample_keeps⟩, ⟨hnow, hregressed⟩, by decide,
    (hclock sample_clock).2 _ (by decide)⟩

/-- An `Age` of one second overflows with the largest resident time, and a response in the last
minute of the clock with the tolerance for a `Date`. -/
theorem chain_overflows :
    (∃ entry, Chain undated sampleKey acceptBody (sample200 ["1"] 0) [] entry ∧
      isFreshAfterChecked entry durationMax = none) ∧
      ∃ entry, Chain undated sampleKey acceptBody (sample200 [] maxUtc) [] entry ∧
        ¬ NoOverflow undated [] maxUtc := by
  refine ⟨⟨sampleEntry 0 (fromSecs 1), .stored (?_ : storeFresh undated sampleKey _ .jwks []
      acceptBody 0 = .ok (sampleEntry 0 (fromSecs 1), .retain)), by decide⟩,
    sampleEntry maxUtc 0, .stored (?_ : storeFresh undated sampleKey _ .jwks []
      acceptBody maxUtc = .ok (sampleEntry maxUtc 0, .retain)),
    fun h => absurd h.limit (by decide)⟩
  · decide +kernel
  · decide +kernel

end SuiId.CacheFreshness
