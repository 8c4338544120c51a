import SuiId.Core.DocumentCache

/-!
# Flights without a leader

The mark of a flight is set by its leader before it awaits the fetch and taken away by its leader
after it, so it stays for ever where the leader is dropped in between: every later caller with the
same key joins that flight, finds the channel closed and fails.

Everything else keeps the mark and its leader together.

* A flight that is led replaces the mark with its own.
* A leader that publishes takes the mark away, if it is its own.
* A dropped joiner, and a leader that another flight has superseded, own no mark.

So in a run that drops no leader of the flight in force the mark names a call that runs, and a
caller that finds no leader running leads.
-/

namespace SuiId.FederationDocumentCache

open Lib Lib.Machine

variable {α ε : Type}

/-- The flight that a call leads. -/
def Call.flight : Call α ε → Option (ProviderId × UInt64)
  | .fetching provider _ generation _ => some (provider, generation)
  | .publishing provider _ generation _ => some (provider, generation)
  | .joined .. => none
  | .ended => none

def Event.id : Event α ε → CallId
  | .lookup id .. => id
  | .lookupForKid id .. => id
  | .fetched id _ => id
  | .published id .. => id
  | .signalled id => id
  | .dropped id => id

/-- The call `id` is the leader of that flight, and it runs. -/
def Cache.Leads (w : Cache α ε) (id : CallId) (provider : ProviderId) (generation : UInt64) :
    Prop :=
  ∃ call, w.calls id = some call ∧ call.flight = some (provider, generation)

/-- Every slot in flight has its leader. -/
def NotStuck (w : Cache α ε) : Prop :=
  ∀ provider rx key generation,
    (w.slots provider).phase = .inFlight rx key generation → w.Leads rx provider generation

/-- No leader is dropped while its slot is in flight with its generation. -/
def leaderKept (w : Cache α ε) : Event α ε → Bool
  | .dropped id =>
    match w.calls id with
    | some (.fetching provider _ generation _) => !(w.slots provider).inFlight generation
    | _ => true
  | _ => true

/-- The call `id` has become the leader for `key`. -/
def Cache.NowLeads (w : Cache α ε) (id : CallId) (provider : ProviderId) (kid : Option String)
    (key : CacheKey) : Prop :=
  ∃ generation currentEntry,
    w.calls id = some (.fetching provider kid generation currentEntry) ∧
      (w.slots provider).phase = .inFlight id key generation

/-- What becomes of a caller whose live key is `key`. -/
structure Arrival (hasKid : α → String → Bool) (w : Cache α ε) (id : CallId)
    (provider : ProviderId) (key : CacheKey) (now : Instant) : Prop where
  lookup :
    (step hasKid w (.lookup id provider (some key) now)).1.NowLeads id provider none key ∨
      ∃ entry, ((w.slots provider).dropStale (some key)).freshEntry now = some entry ∧
        (step hasKid w (.lookup id provider (some key) now)).2 = .returned (.ok (entry, .retain))
  lookupForKid : ∀ kid,
    (step hasKid w (.lookupForKid id provider kid (some key) now)).1.NowLeads
        id provider (some kid) key ∨
      (w.slots provider).forcedBudgetSpent now = true ∧
        (step hasKid w (.lookupForKid id provider kid (some key) now)).2 =
          .returned (.error .forcedBudgetSpent)

/-! ## What a critical section does to the phase -/

namespace Slot

variable {slot : Slot α} {id : CallId} {key : CacheKey} {liveKey : Option CacheKey}
  {now : Instant} {generation : UInt64}

theorem inFlight_eq_true :
    slot.inFlight generation = true ↔ ∃ rx key, slot.phase = .inFlight rx key generation := by
  unfold inFlight
  cases slot.phase <;> simp

@[simp] theorem dropStale_phase : (slot.dropStale liveKey).phase = slot.phase := by
  unfold dropStale
  split <;> rfl

@[simp] theorem dropStale_coolingDown :
    (slot.dropStale liveKey).coolingDown now = slot.coolingDown now := by
  unfold dropStale
  split <;> rfl

@[simp] theorem dropStale_forcedBudgetSpent :
    (slot.dropStale liveKey).forcedBudgetSpent now = slot.forcedBudgetSpent now := by
  unfold dropStale
  split <;> rfl

@[simp] theorem dropStale_joinable :
    (slot.dropStale liveKey).joinable key = slot.joinable key := by
  simp [joinable]

theorem joinable_of_idle (h : slot.phase = .idle) : slot.joinable key = none := by
  simp [joinable, h]

/-- The fields of a slot that say when it goes to the network. -/
structure SameFlight (slot slot' : Slot α) : Prop where
  phase : slot'.phase = slot.phase
  flightGeneration : slot'.flightGeneration = slot.flightGeneration
  cooldownUntil : slot'.cooldownUntil = slot.cooldownUntil
  lastForcedDispatch : slot'.lastForcedDispatch = slot.lastForcedDispatch

/-- A call leads a flight for `key`: nothing is there to join, no cooldown is left, and a forced
call has its budget. -/
structure Led (slot : Slot α) (id : CallId) (key : CacheKey) (now : Instant) (forced : Bool)
    (slot' : Slot α) : Prop where
  joinable : slot.joinable key = none
  coolingDown : slot.coolingDown now = false
  budget : forced = true → slot.forcedBudgetSpent now = false
  phase : slot'.phase = .inFlight id key (slot.flightGeneration + 1)
  flightGeneration : slot'.flightGeneration = slot.flightGeneration + 1
  cooldownUntil : slot'.cooldownUntil = slot.cooldownUntil
  lastForcedDispatch :
    slot'.lastForcedDispatch = if forced then some now else slot.lastForcedDispatch

/-- What becomes of a call in its critical section. -/
inductive Begun (slot : Slot α) (id : CallId) (liveKey : Option CacheKey) (now : Instant)
    (forced : Bool) : Slot α × Decision α ε → Prop where
  | answers {slot' result} :
      slot.SameFlight slot' → Begun slot id liveKey now forced (slot', .answer result)
  | joins {slot' rx} :
      slot.SameFlight slot' → Begun slot id liveKey now forced (slot', .join rx)
  | leads {slot' key generation currentEntry} :
      liveKey = some key → generation = slot.flightGeneration + 1 →
      slot.Led id key now forced slot' →
      Begun slot id liveKey now forced (slot', .lead generation currentEntry)

theorem dropStale_sameFlight : slot.SameFlight (slot.dropStale liveKey) := by
  unfold dropStale
  split <;> exact ⟨rfl, rfl, rfl, rfl⟩

theorem lookup_begun (slot : Slot α) (id : CallId) (liveKey : Option CacheKey) (now : Instant) :
    slot.Begun id liveKey now false (slot.lookup id liveKey now : Slot α × Decision α ε) := by
  have hdrop : slot.SameFlight (slot.dropStale liveKey) := dropStale_sameFlight
  unfold lookup
  cases liveKey with
  | none => exact .answers hdrop
  | some key =>
    dsimp only
    split
    · exact .answers hdrop
    · split
      · exact .joins hdrop
      · next hjoin =>
        split
        · exact .answers hdrop
        · next hcool =>
          rw [dropStale_joinable] at hjoin
          rw [dropStale_coolingDown, Bool.not_eq_true] at hcool
          refine .leads rfl (by rw [hdrop.flightGeneration]) ⟨hjoin, hcool, nofun, ?_, ?_, ?_, ?_⟩
          · rw [hdrop.flightGeneration]
          · rw [hdrop.flightGeneration]
          · exact hdrop.cooldownUntil
          · exact hdrop.lastForcedDispatch

theorem lookupForKid_begun (slot : Slot α) (id : CallId) (liveKey : Option CacheKey)
    (now : Instant) :
    slot.Begun id liveKey now true (slot.lookupForKid id liveKey now : Slot α × Decision α ε) := by
  have hdrop : slot.SameFlight (slot.dropStale liveKey) := dropStale_sameFlight
  unfold lookupForKid
  cases liveKey with
  | none => exact .answers hdrop
  | some key =>
    dsimp only
    split
    · exact .joins hdrop
    · next hjoin =>
      split
      · exact .answers hdrop
      · next hcool =>
        split
        · exact .answers hdrop
        · next hbudget =>
          rw [dropStale_joinable] at hjoin
          rw [dropStale_coolingDown, Bool.not_eq_true] at hcool
          rw [dropStale_forcedBudgetSpent, Bool.not_eq_true] at hbudget
          refine .leads rfl (by rw [hdrop.flightGeneration])
            ⟨hjoin, hcool, fun _ => hbudget, ?_, ?_, ?_, rfl⟩
          · rw [hdrop.flightGeneration]
          · rw [hdrop.flightGeneration]
          · exact hdrop.cooldownUntil

/-- A leader takes its own mark away and leaves every other. -/
theorem publish_phase (slot : Slot α) (generation : UInt64) (result : Fetched α ε)
    (currentKey : Option CacheKey) (publishedAt : Instant) :
    (slot.publish generation result currentKey publishedAt).phase =
      if slot.inFlight generation then .idle else slot.phase := by
  unfold publish
  split
  · cases result with
    | ok value => dsimp only; split <;> rfl
    | error error => rfl
  · rfl

end Slot

/-! ## The mark and its leader -/

section Steps

variable {w : Cache α ε} {id : CallId} {provider : ProviderId} {hasKid : α → String → Bool}

theorem notStuck_new : NotStuck (.new : Cache α ε) := fun _ _ _ _ h => by cases h

/-- A call that leads no flight in force may go on in any way. -/
theorem NotStuck.setCall {call : Call α ε} (hw : NotStuck w)
    (hfree : ∀ provider key generation,
      (w.slots provider).phase = .inFlight id key generation →
        call.flight = some (provider, generation)) :
    NotStuck (w.setCall id call) := by
  intro provider rx key generation hphase
  by_cases hrx : rx = id
  · subst hrx
    exact ⟨call, Function.update_self .., hfree provider key generation hphase⟩
  · obtain ⟨call', hcall, hflight⟩ := hw provider rx key generation hphase
    exact ⟨call', (Function.update_of_ne hrx _ _).trans hcall, hflight⟩

/-- A slot may be left in flight as it was, or idle. -/
theorem NotStuck.setSlot {slot : Slot α} (hw : NotStuck w)
    (hslot : slot.phase = (w.slots provider).phase ∨ slot.phase = .idle) :
    NotStuck (w.setSlot provider slot) := by
  intro provider' rx key generation hphase
  by_cases hp : provider' = provider
  · subst hp
    simp only [Cache.setSlot, Function.update_self] at hphase
    rcases hslot with h | h
    · exact hw provider' rx key generation (h ▸ hphase)
    · cases h.symm.trans hphase
  · simp only [Cache.setSlot, Function.update_of_ne hp] at hphase
    exact hw provider' rx key generation hphase

/-- The mark of a call is that of the flight that it leads. -/
theorem NotStuck.flight_eq (hw : NotStuck w) {call : Call α ε} (hcall : w.calls id = some call)
    {key : CacheKey} {generation : UInt64}
    (hphase : (w.slots provider).phase = .inFlight id key generation) :
    call.flight = some (provider, generation) := by
  obtain ⟨call', hcall', hflight⟩ := hw provider id key generation hphase
  rwa [Option.some.inj (hcall.symm.trans hcall')]

theorem NotStuck.unmarked_of_none (hw : NotStuck w) (hcall : w.calls id = none) {key : CacheKey}
    {generation : UInt64} : (w.slots provider).phase ≠ .inFlight id key generation := by
  intro hphase
  obtain ⟨call, hcall', -⟩ := hw provider id key generation hphase
  cases hcall.symm.trans hcall'

theorem NotStuck.begin {kid : Option String} {liveKey : Option CacheKey} {now : Instant}
    {forced : Bool} {r : Slot α × Decision α ε} (hw : NotStuck w) (hcall : w.calls id = none)
    (hr : (w.slots provider).Begun id liveKey now forced r) :
    NotStuck (w.begin id provider kid r).1 := by
  have hfree : ∀ {slot : Slot α} {provider' : ProviderId} {key : CacheKey} {generation : UInt64},
      slot.phase = (w.slots provider).phase →
      ((w.setSlot provider slot).slots provider').phase ≠ .inFlight id key generation :=
    fun hphase => (hw.setSlot (.inl hphase)).unmarked_of_none hcall
  cases hr with
  | answers hsame | joins hsame =>
    exact (hw.setSlot (.inl hsame.phase)).setCall fun _ _ _ h => (hfree hsame.phase h).elim
  | @leads slot' key generation currentEntry _ hgeneration hled =>
    have hphase : slot'.phase = .inFlight id key generation := hgeneration ▸ hled.phase
    intro provider' rx key' generation' hphase'
    by_cases hp : provider' = provider
    · subst hp
      have hin : slot'.phase = .inFlight rx key' generation' := by
        simpa [Cache.begin, Cache.setCall, Cache.setSlot] using hphase'
      obtain ⟨rfl, rfl, rfl⟩ : rx = id ∧ key' = key ∧ generation' = generation := by
        simpa using hin.symm.trans hphase
      exact ⟨_, Function.update_self .., rfl⟩
    · have hin : (w.slots provider').phase = .inFlight rx key' generation' := by
        simpa [Cache.begin, Cache.setCall, Cache.setSlot, Function.update_of_ne hp] using hphase'
      obtain ⟨call, hrx, hflight⟩ := hw provider' rx key' generation' hin
      have hne : rx ≠ id := by
        rintro rfl
        exact hw.unmarked_of_none hcall hin
      exact ⟨call, (Function.update_of_ne hne _ _).trans hrx, hflight⟩

/-- A leader that publishes owns no mark any more. -/
theorem NotStuck.publish {kid : Option String} {generation : UInt64} {result : Fetched α ε}
    (hw : NotStuck w) (hcall : w.calls id = some (.publishing provider kid generation result))
    (currentKey : Option CacheKey) (publishedAt : Instant) :
    NotStuck ((w.setSlot provider
      ((w.slots provider).publish generation result currentKey publishedAt)).setCall id
        .ended) := by
  have hphase := (w.slots provider).publish_phase generation result currentKey publishedAt
  refine (hw.setSlot ?_).setCall fun provider' key generation' h => ?_
  · rw [hphase]
    split
    · exact .inr rfl
    · exact .inl rfl
  · exfalso
    by_cases hp : provider' = provider
    · subst hp
      simp only [Cache.setSlot, Function.update_self, hphase] at h
      split at h
      · cases h
      · next hout =>
        obtain rfl : generation = generation' := by
          simpa [Call.flight] using hw.flight_eq hcall h
        exact hout (Slot.inFlight_eq_true.mpr ⟨id, key, h⟩)
    · simp only [Cache.setSlot, Function.update_of_ne hp] at h
      obtain ⟨rfl, -⟩ : provider = provider' ∧ generation = generation' := by
        simpa [Call.flight] using hw.flight_eq hcall h
      exact hp rfl

theorem notStuck_step (hasKid : α → String → Bool) (w : Cache α ε) (e : Event α ε)
    (hw : NotStuck w) (hg : leaderKept w e = true) : NotStuck (step hasKid w e).1 := by
  cases e with
  | lookup id provider liveKey now =>
    dsimp only [step]
    split
    · exact hw
    · next hcall => exact hw.begin hcall (Slot.lookup_begun ..)
  | lookupForKid id provider kid liveKey now =>
    dsimp only [step]
    split
    · exact hw
    · next hcall => exact hw.begin hcall (Slot.lookupForKid_begun ..)
  | fetched id result =>
    dsimp only [step]
    split
    · next provider kid generation currentEntry hcall =>
      exact NotStuck.setCall (w := w.setSignal id _) hw fun _ _ _ h => hw.flight_eq hcall h
    · exact hw
  | published id currentKey publishedAt =>
    dsimp only [step]
    split
    · next hcall => exact hw.publish hcall currentKey publishedAt
    · exact hw
  | signalled id =>
    dsimp only [step]
    split
    · next hcall =>
      have hend : NotStuck (w.setCall id .ended) :=
        hw.setCall fun _ _ _ h => nomatch hw.flight_eq hcall h
      split
      · exact hw
      · exact hend
      · exact hend
    · exact hw
  | dropped id =>
    dsimp only [step]
    split
    · next provider kid generation currentEntry hcall =>
      -- The mark of this leader would be the one that the guard forbids.
      refine NotStuck.setCall (w := w.setSignal id _) hw fun provider' key generation' h => ?_
      obtain ⟨rfl, rfl⟩ : provider = provider' ∧ generation = generation' := by
        simpa [Call.flight] using hw.flight_eq hcall h
      have hin : (w.slots provider).inFlight generation = true :=
        Slot.inFlight_eq_true.mpr ⟨id, key, h⟩
      simp [leaderKept, hcall, hin] at hg
    · next hcall => exact hw.setCall fun _ _ _ h => nomatch hw.flight_eq hcall h
    · exact hw

/-! ## Who leads -/

/-- A step touches no call but its own. -/
theorem step_calls (hasKid : α → String → Bool) (w : Cache α ε) (e : Event α ε)
    (hid : e.id ≠ id) : (step hasKid w e).1.calls id = w.calls id := by
  have hset : ∀ (w : Cache α ε) (call : Call α ε), (w.setCall e.id call).calls id = w.calls id :=
    fun w call => Function.update_of_ne (Ne.symm hid) _ _
  have hbegin : ∀ (provider : ProviderId) (kid : Option String) (r : Slot α × Decision α ε),
      (w.begin e.id provider kid r).1.calls id = w.calls id := by
    rintro provider kid ⟨slot, result | rx | ⟨generation, currentEntry⟩⟩ <;> exact hset _ _
  cases e with
  | lookup =>
    dsimp only [step]
    split
    · rfl
    · exact hbegin ..
  | lookupForKid =>
    dsimp only [step]
    split
    · rfl
    · exact hbegin ..
  | fetched =>
    dsimp only [step]
    split
    · exact hset ..
    · rfl
  | published =>
    dsimp only [step]
    split
    · exact hset ..
    · rfl
  | signalled =>
    dsimp only [step]
    split
    · split
      · rfl
      · exact hset ..
      · exact hset ..
    · rfl
  | dropped =>
    dsimp only [step]
    split
    · exact hset ..
    · exact hset ..
    · rfl

theorem run_calls (hasKid : α → String → Bool) (w : Cache α ε) (events : List (Event α ε))
    (hid : id ∉ events.map Event.id) :
    (run (step hasKid) w events).calls id = w.calls id := by
  induction events generalizing w with
  | nil => rfl
  | cons e events ih =>
    rw [List.map_cons, List.mem_cons, not_or] at hid
    obtain ⟨hne, hrest⟩ := hid
    exact (ih _ hrest).trans (step_calls hasKid w e (Ne.symm hne))

/-- Where all calls of a run have ended, no flight has a leader. -/
theorem not_leads_of_ended {events : List (Event α ε)}
    (hended : ∀ id ∈ events.map Event.id,
      ((run (step hasKid) .new events).calls id).bind Call.flight = none) :
    ∀ id generation, ¬ (run (step hasKid) .new events).Leads id provider generation := by
  rintro id generation ⟨call, hcall, hflight⟩
  by_cases hid : id ∈ events.map Event.id
  · have hnone := hended id hid
    rw [hcall, Option.bind_some, hflight] at hnone
    cases hnone
  · rw [run_calls hasKid _ _ hid] at hcall
    cases hcall

/-- Without a leader the slot is idle. -/
theorem NotStuck.idle (hw : NotStuck w)
    (hnone : ∀ id generation, ¬ w.Leads id provider generation) :
    (w.slots provider).phase = .idle := by
  cases hphase : (w.slots provider).phase with
  | idle => rfl
  | inFlight rx key generation =>
    exact absurd (hw provider rx key generation hphase) (hnone rx generation)

theorem nowLeads_begin (w : Cache α ε) (id : CallId) (provider : ProviderId)
    (kid : Option String) (slot : Slot α) (key : CacheKey) :
    (w.begin id provider kid (slot.lead id key)).1.NowLeads id provider kid key :=
  ⟨_, _, Function.update_self .., by
    simp [Cache.begin, Cache.setCall, Cache.setSlot, Slot.lead]⟩

theorem NotStuck.arrival {key : CacheKey} {now : Instant} (hw : NotStuck w)
    (hid : w.calls id = none) (hnone : ∀ id generation, ¬ w.Leads id provider generation)
    (hcool : (w.slots provider).coolingDown now = false) :
    Arrival hasKid w id provider key now := by
  have hjoin : (w.slots provider).joinable key = none := Slot.joinable_of_idle (hw.idle hnone)
  constructor
  · cases hfresh : ((w.slots provider).dropStale (some key)).freshEntry now with
    | some entry =>
      refine .inr ⟨entry, rfl, ?_⟩
      simp [step, hid, Slot.lookup, hfresh, Cache.begin]
    | none =>
      refine .inl ?_
      simp only [step, hid, Slot.lookup, hfresh, Slot.dropStale_joinable, hjoin,
        Slot.dropStale_coolingDown, hcool, Bool.false_eq_true, if_false]
      exact nowLeads_begin ..
  · intro kid
    cases hspent : (w.slots provider).forcedBudgetSpent now with
    | true =>
      refine .inr ⟨rfl, ?_⟩
      simp [step, hid, Slot.lookupForKid, hspent, hjoin, hcool, Cache.begin]
    | false =>
      refine .inl ?_
      simp only [step, hid, Slot.lookupForKid, Slot.dropStale_joinable, hjoin,
        Slot.dropStale_coolingDown, hcool, Slot.dropStale_forcedBudgetSpent, hspent,
        Bool.false_eq_true, if_false]
      exact nowLeads_begin ..

end Steps

/-- In a run that drops no leader of the flight in force, the mark of a flight names a call that
runs, and a caller that finds no leader and no cooldown leads, unless it needs no flight or its
forced budget is spent. -/
theorem flight_not_stuck {hasKid : α → String → Bool} {events : List (Event α ε)}
    (hg : Guarded (step hasKid) (fun w e => leaderKept w e = true) .new events) :
    NotStuck (run (step hasKid) .new events) ∧
      ∀ id provider key now,
        (run (step hasKid) .new events).calls id = none →
        (∀ id' generation, ¬ (run (step hasKid) .new events).Leads id' provider generation) →
        ((run (step hasKid) .new events).slots provider).coolingDown now = false →
        Arrival hasKid (run (step hasKid) .new events) id provider key now := by
  have hrun : NotStuck (run (step hasKid) .new events) :=
    run_invariant (notStuck_step hasKid) hg notStuck_new
  exact ⟨hrun, fun _ _ _ _ hid hnone hcool => hrun.arrival hid hnone hcool⟩

/-! ## Two runs -/

private def keyAt (version : UInt64) : CacheKey := ⟨7, version, 0⟩

private def document (version : UInt64) : RetainedEntry Nat := ⟨keyAt version, 1, some 10, 0⟩

private def holds (_ : Nat) (_ : String) : Bool := false

/-- The first leader is dropped after a caller with another key has superseded it; a joiner of the
second flight is dropped too, and that flight is published. -/
private def supersededRun : List (Event Nat String) :=
  [.lookup 1 7 (some (keyAt 1)) 0, .lookup 2 7 (some (keyAt 2)) 5, .dropped 1,
    .lookup 3 7 (some (keyAt 2)) 6, .lookup 4 7 (some (keyAt 2)) 7, .dropped 3,
    .fetched 2 (.ok (document 2, .retain)), .signalled 4, .published 2 (some (keyAt 2)) 8]

/-- The leader is dropped while it awaits its fetch. -/
private def stuckRun : List (Event Nat String) :=
  [.lookup 1 7 (some (keyAt 1)) 0, .dropped 1]

theorem flight_not_stuck_superseded :
    Guarded (step holds) (fun w e => leaderKept w e = true) .new supersededRun ∧
      NotStuck (run (step holds) .new supersededRun) ∧
      Arrival holds (run (step holds) .new supersededRun) 5 7 (keyAt 2) 20 := by
  have hg : Guarded (step holds) (fun w e => leaderKept w e = true) .new supersededRun := by
    decide +kernel
  refine ⟨hg, (flight_not_stuck hg).1, (flight_not_stuck hg).2 5 7 (keyAt 2) 20 rfl ?_ rfl⟩
  exact not_leads_of_ended (by decide +kernel)

/-- No call leads any more, but the slot stays in flight: hours later a caller with the same key,
in no cooldown, joins and fails. -/
theorem flight_stuck :
    let w := run (step holds) .new stuckRun
    let hours : Instant := 10800 * 1000000000
    ¬ NotStuck w ∧ (∀ id generation, ¬ w.Leads id 7 generation) ∧
      (w.slots 7).coolingDown hours = false ∧
      ((step holds (step holds w (.lookup 2 7 (some (keyAt 1)) hours)).1 (.signalled 2)).2 =
        .returned (.error .flightFailed)) := by
  have hidle : ∀ id generation, ¬ (run (step holds) .new stuckRun).Leads id 7 generation :=
    not_leads_of_ended (by decide +kernel)
  refine ⟨fun hstuck => ?_, hidle, rfl, rfl⟩
  exact hidle 1 1 (hstuck 7 1 (keyAt 1) 1 rfl)

end SuiId.FederationDocumentCache
