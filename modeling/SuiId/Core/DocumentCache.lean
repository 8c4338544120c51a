import Mathlib.Logic.Function.Basic
import SuiId.Lib.Machine
import SuiId.Store.Schema

/-!
# The federation document cache

`FederationDocumentCache<T>` of `http/federation_cache.rs`: one slot for each provider, with
single flight, the cooldown after a failure and the window of the forced refresh.

A call is cut where the source lets go of the lock or awaits.

* `lookup` and `lookup_for_kid` take the lock once and then answer, join a flight or lead one.
* A leader awaits its fetch.  When that is done it sends the result to its joiners, and takes the
  lock again to publish.
* A joiner awaits the signal of the flight it has joined.

A future that is dropped goes away at one of the two awaits.  The channel of a flight is named by
the call that leads it: dropping that call closes the channel, and nothing else.

Time is in nanoseconds of the monotonic clock, and subtraction is `saturating_duration_since`.
-/

namespace SuiId.FederationDocumentCache

open Lib

abbrev CallId := Nat

/-- A reading of the monotonic clock. -/
abbrev Instant := Nat

/-- Thirty seconds. -/
def failureCooldown : Nat := 30 * 1000000000

/-- Sixty seconds. -/
def forcedRefreshWindow : Nat := 60 * 1000000000

/-- `CacheKey`. -/
structure CacheKey where
  providerId : ProviderId
  version : UInt64
  activationGeneration : UInt64
deriving DecidableEq, Repr

/-- `CacheOutcome`. -/
inductive CacheOutcome where
  | retain
  | useOnceThenEvict
  | useAndExpire
  | clockRegressedExpired
deriving DecidableEq, Repr

/-- The part of a `RetainedEntry<T>` that the cache reads. -/
structure RetainedEntry (α : Type) where
  key : CacheKey
  document : α
  lifetime : Option Nat
  initialCurrentAge : Nat
deriving DecidableEq, Repr

/-- `current_age`. -/
def currentAge (initialCurrentAge resident : Nat) : Nat := initialCurrentAge + resident

/-- Equality is stale, and an entry without a lifetime is never fresh. -/
def isFresh (lifetime : Option Nat) (age : Nat) : Bool := lifetime.any fun l => age < l

/-- `RetainedEntry::is_fresh_after`. -/
def RetainedEntry.isFreshAfter {α : Type} (entry : RetainedEntry α) (resident : Nat) : Bool :=
  isFresh entry.lifetime (currentAge entry.initialCurrentAge resident)

/-- Why a call got no document. -/
inductive LookupError (ε : Type) where
  | cooldown
  | forcedBudgetSpent
  | flightFailed
  | fetch (error : ε)
  | kidNotFound
  | noCurrentKey
deriving DecidableEq, Repr

/-- What a fetch yields. -/
abbrev Fetched (α ε : Type) := Except ε (RetainedEntry α × CacheOutcome)

/-! ## Slots -/

/-- `Phase`. -/
inductive Phase where
  | idle
  | inFlight (rx : CallId) (key : CacheKey) (generation : UInt64)
deriving DecidableEq, Repr

/-- `Slot`. -/
structure Slot (α : Type) where
  entry : Option (RetainedEntry α)
  storedAt : Option Instant
  phase : Phase
  cooldownUntil : Option Instant
  lastForcedDispatch : Option Instant
  flightGeneration : UInt64
deriving DecidableEq, Repr

/-- What a call does after it has let go of the lock. -/
inductive Decision (α ε : Type) where
  | answer (result : Except (LookupError ε) (RetainedEntry α × CacheOutcome))
  | join (rx : CallId)
  | lead (generation : UInt64) (currentEntry : Option (RetainedEntry α))

namespace Slot

variable {α ε : Type}

/-- Nothing is cached. -/
def new : Slot α where
  entry := none
  storedAt := none
  phase := .idle
  cooldownUntil := none
  lastForcedDispatch := none
  flightGeneration := 0

/-- A new flight of the call `id`.  The counter wraps at `2 ^ 64`. -/
def lead (slot : Slot α) (id : CallId) (key : CacheKey) : Slot α × Decision α ε :=
  let generation := slot.flightGeneration + 1
  ({ slot with flightGeneration := generation, phase := .inFlight id key generation },
    .lead generation slot.entry)

/-- An entry of another key is dropped as soon as it is noticed. -/
def dropStale (slot : Slot α) (liveKey : Option CacheKey) : Slot α :=
  if slot.entry.map (·.key) ≠ liveKey then { slot with entry := none, storedAt := none } else slot

/-- The entry, while it is fresh. -/
def freshEntry (slot : Slot α) (now : Instant) : Option (RetainedEntry α) :=
  match slot.entry, slot.storedAt with
  | some entry, some storedAt => if entry.isFreshAfter (now - storedAt) then some entry else none
  | _, _ => none

/-- The flight that a caller with this key joins. -/
def joinable (slot : Slot α) (liveKey : CacheKey) : Option CallId :=
  match slot.phase with
  | .inFlight rx key _ => if key = liveKey then some rx else none
  | .idle => none

/-- No fetch before the cooldown is over. -/
def coolingDown (slot : Slot α) (now : Instant) : Bool := slot.cooldownUntil.any fun t => now < t

/-- A forced fetch was sent within the window. -/
def forcedBudgetSpent (slot : Slot α) (now : Instant) : Bool :=
  slot.lastForcedDispatch.any fun dispatched => now - dispatched < forcedRefreshWindow

/-- The slot is in flight with this generation. -/
def inFlight (slot : Slot α) (generation : UInt64) : Bool :=
  match slot.phase with
  | .inFlight _ _ g => g = generation
  | .idle => false

/-- The critical section of `lookup`, rows 1 to 4. -/
def lookup (slot : Slot α) (id : CallId) (liveKey : Option CacheKey) (now : Instant) :
    Slot α × Decision α ε :=
  let slot := slot.dropStale liveKey
  match liveKey with
  | none => (slot, .answer (.error .noCurrentKey))
  | some liveKey =>
    match slot.freshEntry now with
    | some entry => (slot, .answer (.ok (entry, .retain)))
    | none =>
      match slot.joinable liveKey with
      | some rx => (slot, .join rx)
      | none =>
        if slot.coolingDown now then (slot, .answer (.error .cooldown)) else slot.lead id liveKey

/-- The critical section of `lookup_for_kid`, rows 5 to 8.  The dispatch is marked before the
fetch runs. -/
def lookupForKid (slot : Slot α) (id : CallId) (liveKey : Option CacheKey) (now : Instant) :
    Slot α × Decision α ε :=
  let slot := slot.dropStale liveKey
  match liveKey with
  | none => (slot, .answer (.error .noCurrentKey))
  | some liveKey =>
    match slot.joinable liveKey with
    | some rx => (slot, .join rx)
    | none =>
      if slot.coolingDown now then (slot, .answer (.error .cooldown))
      else if slot.forcedBudgetSpent now then (slot, .answer (.error .forcedBudgetSpent))
      else { slot with lastForcedDispatch := some now }.lead id liveKey

/-- The critical section of `run_flight`.  A flight that another one has superseded touches
nothing. -/
def publish (slot : Slot α) (generation : UInt64) (result : Fetched α ε)
    (currentKey : Option CacheKey) (publishedAt : Instant) : Slot α :=
  if slot.inFlight generation then
    match result with
    | .ok (entry, _) =>
      if currentKey = some entry.key then
        { slot with
          phase := .idle, entry := some entry, storedAt := some publishedAt,
          cooldownUntil := none }
      else { slot with phase := .idle, cooldownUntil := none }
    | .error _ =>
      { slot with phase := .idle, cooldownUntil := some (publishedAt + failureCooldown) }
  else slot

end Slot

/-! ## Calls -/

/-- The watch channel of a flight. -/
inductive FlightSignal (α : Type) where
  | pending
  | sent (result : Except Unit (RetainedEntry α × CacheOutcome))
  /-- The sender went away without a value. -/
  | closed

/-- Where a call stands.  `lookup_for_kid` carries the `kid` that it looks for. -/
inductive Call (α ε : Type) where
  | fetching (provider : ProviderId) (kid : Option String) (generation : UInt64)
      (currentEntry : Option (RetainedEntry α))
  | publishing (provider : ProviderId) (kid : Option String) (generation : UInt64)
      (result : Fetched α ε)
  | joined (kid : Option String) (rx : CallId)
  | ended

/-- The slots, the calls and the signals of the flights. -/
structure Cache (α ε : Type) where
  slots : ProviderId → Slot α
  calls : CallId → Option (Call α ε)
  signals : CallId → FlightSignal α

/-- A lookup, a step of one, or a flush. -/
inductive Event (α ε : Type) where
  | lookup (id : CallId) (provider : ProviderId) (liveKey : Option CacheKey) (now : Instant)
  | lookupForKid (id : CallId) (provider : ProviderId) (kid : String)
      (liveKey : Option CacheKey) (now : Instant)
  /-- The fetch of a leader is done, and the joiners have their signal. -/
  | fetched (id : CallId) (result : Fetched α ε)
  | published (id : CallId) (currentKey : Option CacheKey) (publishedAt : Instant)
  /-- A joiner reads the signal of its flight. -/
  | signalled (id : CallId)
  | dropped (id : CallId)

/-- What an event answers. -/
inductive Answer (α ε : Type) where
  /-- The event is not the next one of that call. -/
  | ignored
  | running
  | returned (result : Except (LookupError ε) (RetainedEntry α × CacheOutcome))
  | gone

namespace Cache

variable {α ε : Type}

/-- Nothing is cached. -/
def new : Cache α ε where
  slots := fun _ => .new
  calls := fun _ => none
  signals := fun _ => .pending

/-- The call stands at `call`. -/
def setCall (w : Cache α ε) (id : CallId) (call : Call α ε) : Cache α ε :=
  { w with calls := Function.update w.calls id (some call) }

/-- The provider has this slot. -/
def setSlot (w : Cache α ε) (provider : ProviderId) (slot : Slot α) : Cache α ε :=
  { w with slots := Function.update w.slots provider slot }

/-- The flight has this signal. -/
def setSignal (w : Cache α ε) (id : CallId) (signal : FlightSignal α) : Cache α ε :=
  { w with signals := Function.update w.signals id signal }

/-- A call that has a document, or none, returns. -/
def finish (hasKid : α → String → Bool) (w : Cache α ε) (id : CallId) (kid : Option String)
    (result : Except (LookupError ε) (RetainedEntry α × CacheOutcome)) :
    Cache α ε × Answer α ε :=
  (w.setCall id .ended, .returned (match result with
    | .ok (entry, outcome) =>
      if kid.all (hasKid entry.document) then .ok (entry, outcome) else .error .kidNotFound
    | .error error => .error error))

/-- A call begins with what its critical section has decided.  The checks of the `kid` come only
after a join or a flight. -/
def begin (w : Cache α ε) (id : CallId) (provider : ProviderId) (kid : Option String) :
    Slot α × Decision α ε → Cache α ε × Answer α ε
  | (slot, .answer result) => ((w.setSlot provider slot).setCall id .ended, .returned result)
  | (slot, .join rx) => ((w.setSlot provider slot).setCall id (.joined kid rx), .running)
  | (slot, .lead generation currentEntry) =>
    ((w.setSlot provider slot).setCall id (.fetching provider kid generation currentEntry),
      .running)

end Cache

open Cache in
/-- One step.  A call has an identifier of its own, so an event that begins a call under a used
one is ignored. -/
def step {α ε : Type} (hasKid : α → String → Bool) (w : Cache α ε) :
    Event α ε → Cache α ε × Answer α ε
  | .lookup id provider liveKey now =>
    match w.calls id with
    | some _ => (w, .ignored)
    | none => w.begin id provider none ((w.slots provider).lookup id liveKey now)
  | .lookupForKid id provider kid liveKey now =>
    match w.calls id with
    | some _ => (w, .ignored)
    | none => w.begin id provider (some kid) ((w.slots provider).lookupForKid id liveKey now)
  | .fetched id result =>
    match w.calls id with
    | some (.fetching provider kid generation _) =>
      let signal := match result with
        | .ok value => .sent (.ok value)
        | .error _ => .sent (.error ())
      ((w.setSignal id signal).setCall id (.publishing provider kid generation result), .running)
    | _ => (w, .ignored)
  | .published id currentKey publishedAt =>
    match w.calls id with
    | some (.publishing provider kid generation result) =>
      finish hasKid
        (w.setSlot provider ((w.slots provider).publish generation result currentKey publishedAt))
        id kid (result.mapError .fetch)
    | _ => (w, .ignored)
  | .signalled id =>
    match w.calls id with
    | some (.joined kid rx) =>
      match w.signals rx with
      | .pending => (w, .running)
      | .sent result => finish hasKid w id kid (result.mapError fun _ => .flightFailed)
      | .closed => finish hasKid w id kid (.error .flightFailed)
    | _ => (w, .ignored)
  | .dropped id =>
    match w.calls id with
    | some (.fetching ..) => ((w.setSignal id .closed).setCall id .ended, .gone)
    | some (.joined ..) => (w.setCall id .ended, .gone)
    | _ => (w, .ignored)

/-! ## What a step does to a slot -/

section Steps

variable {α ε : Type}

/-- A slot is changed by a call that begins on it and by a leader that publishes to it. -/
inductive SlotStep (w : Cache α ε) (provider : ProviderId) : Event α ε → Slot α → Prop where
  | same {e} : SlotStep w provider e (w.slots provider)
  | lookup {id liveKey now} :
      w.calls id = none →
      SlotStep w provider (.lookup id provider liveKey now)
        ((w.slots provider).lookup id liveKey now : Slot α × Decision α ε).1
  | lookupForKid {id kid liveKey now} :
      w.calls id = none →
      SlotStep w provider (.lookupForKid id provider kid liveKey now)
        ((w.slots provider).lookupForKid id liveKey now : Slot α × Decision α ε).1
  | published {id kid generation result currentKey publishedAt} :
      w.calls id = some (.publishing provider kid generation result) →
      SlotStep w provider (.published id currentKey publishedAt)
        ((w.slots provider).publish generation result currentKey publishedAt)

theorem Cache.begin_slots (w : Cache α ε) (id : CallId) (provider : ProviderId)
    (kid : Option String) (r : Slot α × Decision α ε) :
    (w.begin id provider kid r).1.slots = Function.update w.slots provider r.1 := by
  obtain ⟨slot, result | rx | ⟨generation, currentEntry⟩⟩ := r <;> rfl

theorem step_slot (hasKid : α → String → Bool) (w : Cache α ε) (e : Event α ε)
    (provider : ProviderId) : SlotStep w provider e ((step hasKid w e).1.slots provider) := by
  cases e with
  | lookup id provider' liveKey now =>
    dsimp only [step]
    split
    · exact .same
    · next hcall =>
      rw [Cache.begin_slots]
      by_cases hp : provider = provider'
      · subst hp
        rw [Function.update_self]
        exact .lookup hcall
      · rw [Function.update_of_ne hp]
        exact .same
  | lookupForKid id provider' kid liveKey now =>
    dsimp only [step]
    split
    · exact .same
    · next hcall =>
      rw [Cache.begin_slots]
      by_cases hp : provider = provider'
      · subst hp
        rw [Function.update_self]
        exact .lookupForKid hcall
      · rw [Function.update_of_ne hp]
        exact .same
  | fetched id result =>
    dsimp only [step]
    split <;> exact .same
  | published id currentKey publishedAt =>
    dsimp only [step]
    split
    · next provider' kid generation result hcall =>
      by_cases hp : provider = provider'
      · subst hp
        simp only [Cache.finish, Cache.setCall, Cache.setSlot, Function.update_self]
        exact .published hcall
      · simp only [Cache.finish, Cache.setCall, Cache.setSlot, Function.update_of_ne hp]
        exact .same
    · exact .same
  | signalled id =>
    dsimp only [step]
    split
    · split <;> exact .same
    · exact .same
  | dropped id =>
    dsimp only [step]
    split <;> exact .same

end Steps

end SuiId.FederationDocumentCache
