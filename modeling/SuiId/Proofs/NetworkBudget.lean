import SuiId.Proofs.DocumentAuthority

/-!
# The network budget of the document cache

How often the cache goes to the network for one provider.

* While the key stays the same there is one fetch at a time: `lookup` and `lookup_for_kid` join a
  flight of their key, and only its leader takes the mark away.
* Two forced dispatches are sixty seconds apart, whatever the order of the calls: the slot keeps
  the reading of the last one, and a reading before that is refused as well, because the
  subtraction saturates.
* After a failure nobody leads for thirty seconds, until a flight succeeds.  A success clears the
  cooldown, and a caller that has read the clock before it may then lead with a reading from within
  the thirty seconds (`led_in_cooldown`).

For the last one the clock has to be monotonic for each caller: a leader reads it again before it
publishes.  It also takes a generation counter that has not wrapped, since a flight recognises
itself by its generation.
-/

namespace SuiId.FederationDocumentCache

open Lib Lib.Machine

variable {α ε : Type}

def Event.isForced : Event α ε → Bool
  | .lookupForKid .. => true
  | _ => false

def Event.readsNow : Event α ε → Option Instant
  | .lookup _ _ _ now => some now
  | .lookupForKid _ _ _ _ now => some now
  | _ => none

def Event.readsPublishedAt : Event α ε → Option Instant
  | .published _ _ publishedAt => some publishedAt
  | _ => none

/-- A caller does not see its clock go back. -/
def ClockForward (e e' : Event α ε) : Prop :=
  e.id = e'.id → ∀ now publishedAt, e.readsNow = some now →
    e'.readsPublishedAt = some publishedAt → now ≤ publishedAt

section Steps

variable (hasKid : α → String → Bool) (x : Taken (Cache α ε) (Event α ε) (Answer α ε))
  (provider : ProviderId)

/-- A caller whose reading is `now` becomes the leader of a flight. -/
def LeadsAt (now : Instant) : Prop :=
  ∃ liveKey generation, x.event.asks = some (provider, liveKey, now) ∧
    x.pre.calls x.event.id = none ∧
    (step hasKid x.pre x.event).1.Leads x.event.id provider generation

def ForcedAt (now : Instant) : Prop := LeadsAt hasKid x provider now ∧ x.event.isForced = true

/-- The flight in force has failed at this time. -/
def FailsAt (publishedAt : Instant) : Prop :=
  ∃ id kid generation error currentKey, x.event = .published id currentKey publishedAt ∧
    x.pre.calls id = some (.publishing provider kid generation (.error error)) ∧
    (x.pre.slots provider).inFlight generation = true

/-- The flight in force has succeeded. -/
def Succeeds : Prop :=
  ∃ id kid generation value currentKey publishedAt,
    x.event = .published id currentKey publishedAt ∧
    x.pre.calls id = some (.publishing provider kid generation (.ok value)) ∧
    (x.pre.slots provider).inFlight generation = true

end Steps

/-! ## What a step does to a flight -/

namespace Slot

variable {slot : Slot α} {now : Instant}

/-- A call that finds no cooldown has read the clock at its end or later. -/
theorem le_of_not_coolingDown {deadline : Instant} (h : slot.coolingDown now = false)
    (hcooldown : slot.cooldownUntil = some deadline) : deadline ≤ now := by
  rw [coolingDown, hcooldown, Option.any_some, decide_eq_false_iff_not] at h
  exact not_lt.mp h

theorem le_of_not_forcedBudgetSpent {dispatched : Instant}
    (h : slot.forcedBudgetSpent now = false)
    (hlast : slot.lastForcedDispatch = some dispatched) :
    dispatched + forcedRefreshWindow ≤ now := by
  rw [forcedBudgetSpent, hlast, Option.any_some, decide_eq_false_iff_not] at h
  have hwindow : forcedRefreshWindow ≤ now - dispatched := not_lt.mp h
  have hlt : dispatched < now := Nat.lt_of_sub_pos (lt_of_lt_of_le (by decide) hwindow)
  rw [add_comm]
  exact Nat.add_le_of_le_sub hlt.le hwindow

end Slot

/-! ## What a step does to the flights of a provider -/

section Effects

variable {hasKid : α → String → Bool} {w w' : Cache α ε} {e : Event α ε} {provider : ProviderId}

/-- The effect of a step on the slot of a provider and on the leaders of its flights. -/
inductive FlightStep (w : Cache α ε) (e : Event α ε) (provider : ProviderId) (w' : Cache α ε) :
    Prop where
  | stays : (w.slots provider).SameFlight (w'.slots provider) →
      (∀ id generation, w'.Leads id provider generation → w.Leads id provider generation) →
      FlightStep w e provider w'
  | leads {key now} :
      e.asks = some (provider, some key, now) → w.calls e.id = none →
      (w.slots provider).Led e.id key now e.isForced (w'.slots provider) →
      (∀ id generation, w'.Leads id provider generation →
        w.Leads id provider generation ∨
          id = e.id ∧ generation = (w.slots provider).flightGeneration + 1) →
      FlightStep w e provider w'
  | publishes {kid generation result currentKey publishedAt} :
      e = .published e.id currentKey publishedAt →
      w.calls e.id = some (.publishing provider kid generation result) →
      (w.slots provider).inFlight generation = true →
      w'.slots provider =
        (w.slots provider).publish generation result currentKey publishedAt →
      (∀ id generation', w'.Leads id provider generation' →
        w.Leads id provider generation' ∧ id ≠ e.id) →
      FlightStep w e provider w'

variable {id : CallId} {generation : UInt64} {kid : Option String} {liveKey : Option CacheKey}
  {r : Slot α × Decision α ε} {n : Nat}

/-- A call has no flight before it begins. -/
theorem not_leads_of_none (h : w.calls id = none) :
    ¬ w.Leads id provider generation := by
  rintro ⟨call, hcall, -⟩
  cases hcall.symm.trans h

/-- Only the call of the event may have another flight afterwards. -/
theorem leads_of_step (hid : id ≠ e.id) (h : (step hasKid w e).1.Leads id provider generation) :
    w.Leads id provider generation := by
  obtain ⟨call, hcall, hflight⟩ := h
  rw [step_calls hasKid w e (Ne.symm hid)] at hcall
  exact ⟨call, hcall, hflight⟩

/-- Where the call of the event leads no other flight than before, no call does. -/
theorem leads_of_own
    (hown : ∀ call, (step hasKid w e).1.calls e.id = some call → ∀ generation,
      call.flight = some (provider, generation) → w.Leads e.id provider generation)
    (id : CallId) (generation : UInt64)
    (h : (step hasKid w e).1.Leads id provider generation) : w.Leads id provider generation := by
  by_cases hid : id = e.id
  · subst hid
    obtain ⟨call, hcall, hflight⟩ := h
    exact hown call hcall generation hflight
  · exact leads_of_step hid h

/-- A call that begins stays out of flight or leads one of its own. -/
theorem flightStep_begin {now : Instant} (hask : e.asks = some (provider, liveKey, now))
    (hcall : w.calls e.id = none) (hstep : (step hasKid w e).1 = (w.begin e.id provider kid r).1)
    (hr : (w.slots provider).Begun e.id liveKey now e.isForced r) :
    FlightStep w e provider (step hasKid w e).1 := by
  have hslot : (step hasKid w e).1.slots provider = r.1 := by
    rw [hstep, Cache.begin_slots, Function.update_self]
  cases hr with
  | answers hsame | joins hsame =>
    refine .stays (hslot ▸ hsame) (leads_of_own fun call hown generation hflight => ?_)
    rw [hstep] at hown
    simp only [Cache.begin, Cache.setCall, Function.update_self, Option.some.injEq] at hown
    subst hown
    cases hflight
  | leads hkey hgeneration hled =>
    subst hkey
    refine .leads hask hcall (hslot ▸ hled) fun id generation h => ?_
    by_cases hid : id = e.id
    · subst hid
      obtain ⟨call, hown, hflight⟩ := h
      rw [hstep] at hown
      simp only [Cache.begin, Cache.setCall, Function.update_self, Option.some.injEq] at hown
      subst hown
      simp only [Call.flight, Option.some.injEq, Prod.mk.injEq, true_and] at hflight
      exact .inr ⟨rfl, hflight ▸ hgeneration⟩
    · exact .inl (leads_of_step hid h)

/-- A step that leaves the slots alone and gives its call no other flight. -/
theorem flightStep_of_slots (hslots : (step hasKid w e).1.slots provider = w.slots provider)
    (hown : ∀ call, (step hasKid w e).1.calls e.id = some call → ∀ generation,
      call.flight = some (provider, generation) → w.Leads e.id provider generation) :
    FlightStep w e provider (step hasKid w e).1 :=
  .stays (hslots ▸ ⟨rfl, rfl, rfl, rfl⟩) (leads_of_own hown)

theorem flightStep_ignored (h : (step hasKid w e).1 = w) :
    FlightStep w e provider (step hasKid w e).1 :=
  flightStep_of_slots (congrArg (fun w => w.slots provider) h)
    fun call hcall _ hflight => ⟨call, (congrArg (fun w => w.calls e.id) h).symm.trans hcall,
      hflight⟩

theorem flightStep_begin_other {provider' : ProviderId} (hp : provider ≠ provider')
    (hstep : (step hasKid w e).1 = (w.begin e.id provider' kid r).1) :
    FlightStep w e provider (step hasKid w e).1 := by
  refine flightStep_of_slots ?_ fun call hown generation hflight => ?_
  · rw [hstep, Cache.begin_slots, Function.update_of_ne hp]
  · rw [hstep] at hown
    obtain ⟨slot, result | rx | ⟨generation', currentEntry⟩⟩ := r
    all_goals
      simp only [Cache.begin, Cache.setCall, Function.update_self, Option.some.injEq] at hown
      subst hown
      simp only [Call.flight, Option.some.injEq, Prod.mk.injEq, reduceCtorEq] at hflight
    exact absurd hflight.1.symm hp

/-- A call that ends leads nothing. -/
theorem flightStep_ended (hslots : (step hasKid w e).1.slots provider = w.slots provider)
    (hend : (step hasKid w e).1.calls e.id = some .ended) :
    FlightStep w e provider (step hasKid w e).1 :=
  flightStep_of_slots hslots fun call hown _ hflight => by
    cases hend.symm.trans hown
    cases hflight

theorem flightStep (hasKid : α → String → Bool) (w : Cache α ε) (e : Event α ε)
    (provider : ProviderId) : FlightStep w e provider (step hasKid w e).1 := by
  cases e with
  | lookup id provider' liveKey now =>
    cases hcall : w.calls id with
    | some call => exact flightStep_ignored (by simp [step, hcall])
    | none =>
      have hstep : step hasKid w (.lookup id provider' liveKey now) =
          w.begin id provider' none ((w.slots provider').lookup id liveKey now) := by
        simp [step, hcall]
      by_cases hp : provider = provider'
      · subst hp
        exact flightStep_begin rfl hcall (congrArg Prod.fst hstep) (Slot.lookup_begun ..)
      · exact flightStep_begin_other hp (congrArg Prod.fst hstep)
  | lookupForKid id provider' kid liveKey now =>
    cases hcall : w.calls id with
    | some call => exact flightStep_ignored (by simp [step, hcall])
    | none =>
      have hstep : step hasKid w (.lookupForKid id provider' kid liveKey now) =
          w.begin id provider' (some kid) ((w.slots provider').lookupForKid id liveKey now) := by
        simp [step, hcall]
      by_cases hp : provider = provider'
      · subst hp
        exact flightStep_begin rfl hcall (congrArg Prod.fst hstep) (Slot.lookupForKid_begun ..)
      · exact flightStep_begin_other hp (congrArg Prod.fst hstep)
  | fetched id result =>
    by_cases hcall : ∃ provider' kid generation currentEntry,
        w.calls id = some (.fetching provider' kid generation currentEntry)
    · obtain ⟨provider', kid, generation, currentEntry, hcall⟩ := hcall
      refine flightStep_of_slots (by simp [step, hcall, Cache.setCall, Cache.setSignal])
        fun call hown generation' hflight => ?_
      simp only [step, hcall, Event.id, Cache.setCall, Function.update_self, Option.some.injEq]
        at hown
      subst hown
      exact ⟨_, hcall, hflight⟩
    · refine flightStep_ignored ?_
      dsimp only [step]
      split
      · next hfetching => exact absurd ⟨_, _, _, _, hfetching⟩ hcall
      · rfl
  | published id currentKey publishedAt =>
    by_cases hcall : ∃ provider' kid generation result,
        w.calls id = some (.publishing provider' kid generation result)
    · obtain ⟨provider', kid, generation, result, hcall⟩ := hcall
      have hslots : (step hasKid w (.published id currentKey publishedAt)).1.slots =
          Function.update w.slots provider'
            ((w.slots provider').publish generation result currentKey publishedAt) := by
        simp [step, hcall, Cache.finish, Cache.setCall, Cache.setSlot]
      have hend : (step hasKid w (.published id currentKey publishedAt)).1.calls id =
          some .ended := by
        simp [step, hcall, Cache.finish, Cache.setCall]
      by_cases hp : provider = provider'
      · subst hp
        cases hmine : (w.slots provider).inFlight generation with
        | false =>
          refine flightStep_ended ?_ hend
          rw [hslots, Function.update_self, Slot.publish_of_not_inFlight hmine]
        | true =>
          refine .publishes rfl hcall hmine (by rw [hslots, Function.update_self])
            fun id' generation' h => ?_
          have hne : id' ≠ id := by
            rintro rfl
            obtain ⟨call, hown, hflight⟩ := h
            cases hend.symm.trans hown
            cases hflight
          exact ⟨leads_of_step (e := .published id currentKey publishedAt) hne h, hne⟩
      · exact flightStep_ended (by rw [hslots, Function.update_of_ne hp]) hend
    · refine flightStep_ignored ?_
      dsimp only [step]
      split
      · next hpublishing => exact absurd ⟨_, _, _, _, hpublishing⟩ hcall
      · rfl
  | signalled id =>
    cases hcall : w.calls id with
    | none => exact flightStep_ignored (by simp [step, hcall])
    | some call =>
      cases call with
      | joined kid rx =>
        cases hsignal : w.signals rx with
        | pending => exact flightStep_ignored (by simp [step, hcall, hsignal])
        | sent | closed =>
          refine flightStep_ended ?_ ?_
          · simp [step, hcall, hsignal, Cache.finish, Cache.setCall]
          · simp [step, hcall, hsignal, Cache.finish, Cache.setCall, Event.id]
      | fetching | publishing | ended => exact flightStep_ignored (by simp [step, hcall])
  | dropped id =>
    cases hcall : w.calls id with
    | none => exact flightStep_ignored (by simp [step, hcall])
    | some call =>
      cases call with
      | fetching =>
        refine flightStep_ended ?_ ?_
        · simp [step, hcall, Cache.setCall, Cache.setSignal]
        · simp [step, hcall, Cache.setCall, Event.id]
      | joined =>
        refine flightStep_ended ?_ ?_
        · simp [step, hcall, Cache.setCall]
        · simp [step, hcall, Cache.setCall, Event.id]
      | publishing => exact flightStep_ignored (by simp [step, hcall])
      | ended => exact flightStep_ignored (by simp [step, hcall])

/-- What a leader has found. -/
theorem led_of_leadsAt {x : Taken (Cache α ε) (Event α ε) (Answer α ε)} {now : Instant}
    (h : LeadsAt hasKid x provider now) :
    ∃ key, x.event.asks = some (provider, some key, now) ∧
      (x.pre.slots provider).Led x.event.id key now x.event.isForced
        ((step hasKid x.pre x.event).1.slots provider) := by
  obtain ⟨liveKey, generation, hask, hcall, hleads⟩ := h
  cases flightStep hasKid x.pre x.event provider with
  | stays _ hstays => exact absurd (hstays _ _ hleads) (not_leads_of_none hcall)
  | leads hask' _ hled _ =>
    obtain ⟨rfl, rfl⟩ : liveKey = some _ ∧ now = _ := by simpa using hask.symm.trans hask'
    exact ⟨_, hask', hled⟩
  | publishes _ _ _ _ hends => exact absurd rfl (hends _ _ hleads).2

/-! ## One fetch at a time -/

/-- Every leader owns the mark of the slot, for this key. -/
def Sole (w : Cache α ε) (provider : ProviderId) (key : Option CacheKey) : Prop :=
  ∀ id generation, w.Leads id provider generation →
    ∃ k, key = some k ∧ (w.slots provider).phase = .inFlight id k generation

/-- The calls on this provider see this key. -/
def SeesKey (provider : ProviderId) (key : Option CacheKey) (e : Event α ε) : Prop :=
  ∀ liveKey now, e.asks = some (provider, liveKey, now) → liveKey = key

theorem sole_step {key : Option CacheKey} (w : Cache α ε) (e : Event α ε)
    (hw : Sole w provider key) (hkey : SeesKey provider key e) :
    Sole (step hasKid w e).1 provider key := by
  intro id generation h
  cases flightStep hasKid w e provider with
  | stays hsame hstays =>
    obtain ⟨k, hk, hphase⟩ := hw id generation (hstays id generation h)
    exact ⟨k, hk, hsame.phase.trans hphase⟩
  | @leads k now hask _ hled hleads =>
    have hk := hkey _ _ hask
    rcases hleads id generation h with hold | ⟨rfl, rfl⟩
    · -- The new leader would have joined this flight.
      obtain ⟨k', hk', hphase⟩ := hw id generation hold
      obtain rfl : k = k' := by simpa using hk.trans hk'
      have hjoin := hled.joinable
      rw [Slot.joinable, hphase] at hjoin
      simp at hjoin
    · exact ⟨k, hk.symm, hled.phase⟩
  | publishes _ hcall _ _ hends =>
    obtain ⟨hold, hne⟩ := hends id generation h
    obtain ⟨k, -, hphase⟩ := hw id generation hold
    obtain ⟨k', -, hphase'⟩ := hw e.id _ ⟨_, hcall, rfl⟩
    rw [hphase] at hphase'
    cases hphase'
    exact absurd rfl hne

/-! ## Sixty seconds between forced dispatches -/

/-- The forced dispatches so far are spaced, and the slot has the reading of the last one. -/
structure Spaced (hasKid : α → String → Bool) (provider : ProviderId)
    (past : List (Taken (Cache α ε) (Event α ε) (Answer α ε))) (w : Cache α ε) : Prop where
  spaced : past.Pairwise fun x y => ∀ now now', ForcedAt hasKid x provider now →
    ForcedAt hasKid y provider now' → now + forcedRefreshWindow ≤ now'
  last : ∀ x ∈ past, ∀ now, ForcedAt hasKid x provider now →
    ∃ dispatched, (w.slots provider).lastForcedDispatch = some dispatched ∧ now ≤ dispatched

theorem publish_keeps (slot : Slot α) (generation : UInt64) (result : Fetched α ε)
    (currentKey : Option CacheKey) (publishedAt : Instant) :
    (slot.publish generation result currentKey publishedAt).lastForcedDispatch =
        slot.lastForcedDispatch ∧
      (slot.publish generation result currentKey publishedAt).flightGeneration =
        slot.flightGeneration := by
  unfold Slot.publish
  split
  · cases result with
    | ok value => dsimp only; split <;> exact ⟨rfl, rfl⟩
    | error error => exact ⟨rfl, rfl⟩
  · exact ⟨rfl, rfl⟩

/-- The reading of the last forced dispatch never goes back. -/
theorem lastForcedDispatch_step (hasKid : α → String → Bool) (w : Cache α ε) (e : Event α ε)
    {dispatched : Instant}
    (h : (w.slots provider).lastForcedDispatch = some dispatched) :
    ∃ dispatched', ((step hasKid w e).1.slots provider).lastForcedDispatch = some dispatched' ∧
      dispatched ≤ dispatched' := by
  cases flightStep hasKid w e provider with
  | stays hsame _ => exact ⟨dispatched, hsame.lastForcedDispatch.trans h, le_refl _⟩
  | @leads key now _ _ hled _ =>
    rw [hled.lastForcedDispatch]
    cases hforced : e.isForced with
    | false => exact ⟨dispatched, h, le_refl _⟩
    | true =>
      have hwindow := Slot.le_of_not_forcedBudgetSpent (hled.budget hforced) h
      exact ⟨now, rfl, (Nat.le_add_right _ _).trans hwindow⟩
  | publishes _ _ _ hslot _ =>
    exact ⟨dispatched, by rw [hslot, (publish_keeps ..).1, h], le_refl _⟩

theorem spaced_step (past : List (Taken (Cache α ε) (Event α ε) (Answer α ε))) (w : Cache α ε)
    (e : Event α ε) (hw : Spaced hasKid provider past w) :
    Spaced hasKid provider (past ++ [⟨w, e, (step hasKid w e).2⟩]) (step hasKid w e).1 := by
  constructor
  · refine List.pairwise_append.mpr ⟨hw.spaced, List.pairwise_singleton .., ?_⟩
    intro x hx y hy now now' hnow hnow'
    obtain rfl := List.mem_singleton.mp hy
    obtain ⟨dispatched, hlast, hle⟩ := hw.last x hx now hnow
    obtain ⟨key, -, hled⟩ := led_of_leadsAt hnow'.1
    have hwindow := Slot.le_of_not_forcedBudgetSpent (hled.budget hnow'.2) hlast
    exact (Nat.add_le_add_right hle _).trans hwindow
  · intro x hx now hnow
    rcases List.mem_append.mp hx with hx | hx
    · obtain ⟨dispatched, hlast, hle⟩ := hw.last x hx now hnow
      obtain ⟨dispatched', hlast', hle'⟩ := lastForcedDispatch_step hasKid w e hlast
      exact ⟨dispatched', hlast', hle.trans hle'⟩
    · obtain rfl := List.mem_singleton.mp hx
      obtain ⟨key, -, hled⟩ := led_of_leadsAt hnow.1
      refine ⟨now, ?_, le_refl _⟩
      rw [hled.lastForcedDispatch, if_pos hnow.2]

/-! ## Thirty seconds after a failure -/

/-- A flight knows itself by its generation, as long as the counter has not wrapped. -/
structure Numbered (provider : ProviderId) (n : Nat) (w : Cache α ε) : Prop where
  counter : (w.slots provider).flightGeneration.toNat ≤ n
  bounded : ∀ id generation, w.Leads id provider generation →
    generation.toNat ≤ (w.slots provider).flightGeneration.toNat
  own : ∀ id generation rx key, w.Leads id provider generation →
    (w.slots provider).phase = .inFlight rx key generation → id = rx

theorem numbered_new : Numbered provider 0 (.new : Cache α ε) := by
  have hnone : ∀ id generation, ¬ (Cache.new : Cache α ε).Leads id provider generation :=
    fun _ _ => not_leads_of_none rfl
  exact ⟨le_refl _, fun _ _ h => absurd h (hnone _ _), fun _ _ _ _ h => absurd h (hnone _ _)⟩

theorem numbered_step (w : Cache α ε) (e : Event α ε) (hw : Numbered provider n w)
    (hn : n + 1 < 2 ^ 64) : Numbered provider (n + 1) (step hasKid w e).1 := by
  have hcounter := hw.counter
  cases flightStep hasKid w e provider with
  | stays hsame hstays =>
    refine ⟨?_, fun id generation h => ?_, fun id generation rx key h hphase => ?_⟩
    · rw [hsame.flightGeneration]
      omega
    · rw [hsame.flightGeneration]
      exact hw.bounded _ _ (hstays _ _ h)
    · exact hw.own _ _ _ _ (hstays _ _ h) (hsame.phase ▸ hphase)
  | leads _ _ hled hleads =>
    have hnext : ((w.slots provider).flightGeneration + 1).toNat =
        (w.slots provider).flightGeneration.toNat + 1 := by
      rw [UInt64.toNat_add, UInt64.toNat_one, Nat.mod_eq_of_lt (by omega)]
    refine ⟨?_, fun id generation h => ?_, fun id generation rx key h hphase => ?_⟩
    · rw [hled.flightGeneration, hnext]
      omega
    · rw [hled.flightGeneration, hnext]
      rcases hleads id generation h with hold | ⟨-, rfl⟩
      · exact (hw.bounded _ _ hold).trans (Nat.le_succ _)
      · exact hnext.le
    · rw [hled.phase] at hphase
      cases hphase
      rcases hleads id _ h with hold | ⟨hid, -⟩
      · -- An older flight has a smaller generation.
        have hle := hw.bounded _ _ hold
        rw [hnext] at hle
        omega
      · exact hid
  | @publishes kid generation result currentKey publishedAt _ _ hmine hslot hends =>
    refine ⟨?_, fun id generation' h => ?_, fun id generation' rx key h hphase => ?_⟩
    · rw [hslot, (publish_keeps ..).2]
      omega
    · rw [hslot, (publish_keeps ..).2]
      exact hw.bounded _ _ (hends _ _ h).1
    · rw [hslot, Slot.publish_phase, if_pos hmine] at hphase
      cases hphase

/-- Nobody has led with a reading before `deadline`, and nobody can. -/
structure Cooling (deadline : Instant) (provider : ProviderId)
    (since : List (Taken (Cache α ε) (Event α ε) (Answer α ε))) (w : Cache α ε) : Prop where
  cooldown : ∃ t, (w.slots provider).cooldownUntil = some t ∧ deadline ≤ t
  flight : ∀ rx key generation, (w.slots provider).phase = .inFlight rx key generation →
    ∃ y ∈ since, y.event.id = rx ∧ ∃ now, y.event.readsNow = some now ∧ deadline ≤ now

/-- Each failure is still cooling, or a flight has succeeded since. -/
structure Cooled (provider : ProviderId)
    (past : List (Taken (Cache α ε) (Event α ε) (Answer α ε))) (w : Cache α ε) : Prop where
  numbered : Numbered provider past.length w
  cooling : ∀ before x since failedAt, past = before ++ x :: since →
    FailsAt x provider failedAt →
    (∃ z ∈ since, Succeeds z provider) ∨ Cooling (failedAt + failureCooldown) provider since w

theorem readsNow_of_asks {e : Event α ε} {now : Instant}
    (h : e.asks = some (provider, liveKey, now)) : e.readsNow = some now := by
  cases e with
  | lookup id provider' liveKey' now' =>
    cases h
    rfl
  | lookupForKid id provider' kid liveKey' now' =>
    cases h
    rfl
  | fetched => cases h
  | published => cases h
  | signalled => cases h
  | dropped => cases h

/-- The slot after a failure. -/
theorem failsAt_slot {failedAt : Instant}
    (h : FailsAt ⟨w, e, (step hasKid w e).2⟩ provider failedAt) :
    ((step hasKid w e).1.slots provider).phase = .idle ∧
      ((step hasKid w e).1.slots provider).cooldownUntil = some (failedAt + failureCooldown) := by
  obtain ⟨id, kid, generation, error, currentKey, he, hcall, hmine⟩ := h
  dsimp only at he hcall hmine
  subst he
  simp [step, hcall, Cache.finish, Cache.setCall, Cache.setSlot, Slot.publish, hmine]

/-- The cooldown outlasts every step but a success. -/
theorem cooling_step (hasKid : α → String → Bool) {deadline : Instant}
    {since : List (Taken (Cache α ε) (Event α ε) (Answer α ε))}
    (hnumbered : Numbered provider n w) (hw : Cooling deadline provider since w)
    (hclock : ∀ y ∈ since, ClockForward y.event e) :
    Succeeds ⟨w, e, (step hasKid w e).2⟩ provider ∨
      Cooling deadline provider (since ++ [⟨w, e, (step hasKid w e).2⟩]) (step hasKid w e).1 := by
  obtain ⟨t, hcooldown, hle⟩ := hw.cooldown
  cases flightStep hasKid w e provider with
  | stays hsame _ =>
    refine .inr ⟨⟨t, hsame.cooldownUntil.trans hcooldown, hle⟩, fun rx key generation hphase => ?_⟩
    obtain ⟨y, hy, hrest⟩ := hw.flight rx key generation (hsame.phase ▸ hphase)
    exact ⟨y, List.mem_append_left _ hy, hrest⟩
  | @leads key now hask _ hled _ =>
    refine .inr ⟨⟨t, hled.cooldownUntil.trans hcooldown, hle⟩, fun rx key generation hphase => ?_⟩
    rw [hled.phase] at hphase
    cases hphase
    refine ⟨_, List.mem_append_right _ (List.mem_singleton_self _), rfl, now,
      readsNow_of_asks hask, ?_⟩
    exact hle.trans (Slot.le_of_not_coolingDown hled.coolingDown hcooldown)
  | @publishes kid generation result currentKey publishedAt he hcall hmine hslot _ =>
    cases result with
    | ok value =>
      exact .inl ⟨e.id, kid, generation, value, currentKey, publishedAt, he, hcall, hmine⟩
    | error error =>
      refine .inr ⟨⟨publishedAt + failureCooldown, ?_, ?_⟩, fun rx key generation' hphase => ?_⟩
      · rw [hslot]
        simp [Slot.publish, hmine]
      · -- The leader has read the clock when it led, which was not before the deadline.
        obtain ⟨rx, key, hphase⟩ := Slot.inFlight_eq_true.mp hmine
        obtain ⟨y, hy, hid, now, hnow, hdeadline⟩ := hw.flight rx key generation hphase
        have hrx : e.id = rx := hnumbered.own e.id generation rx key ⟨_, hcall, rfl⟩ hphase
        have hreads : e.readsPublishedAt = some publishedAt := by
          rw [he]
          rfl
        have hforward := hclock y hy (hid.trans hrx.symm) now publishedAt hnow hreads
        exact (hdeadline.trans hforward).trans (Nat.le_add_right _ _)
      · rw [hslot, Slot.publish_phase, if_pos hmine] at hphase
        cases hphase

theorem cooled_step {past : List (Taken (Cache α ε) (Event α ε) (Answer α ε))}
    (hw : Cooled provider past w) (hn : past.length + 1 < 2 ^ 64)
    (hclock : ∀ y ∈ past, ClockForward y.event e) :
    Cooled provider (past ++ [⟨w, e, (step hasKid w e).2⟩]) (step hasKid w e).1 := by
  constructor
  · rw [List.length_append, List.length_singleton]
    exact numbered_step w e hw.numbered hn
  · intro before x since failedAt hsplit hfails
    rcases List.eq_nil_or_concat since with rfl | ⟨since, y, rfl⟩
    · obtain ⟨rfl, hx⟩ := List.append_inj' hsplit rfl
      obtain rfl := (List.cons.inj hx).1
      obtain ⟨hidle, hcooldown⟩ := failsAt_slot hfails
      refine .inr ⟨⟨_, hcooldown, le_refl _⟩, fun rx key generation hphase => ?_⟩
      cases hidle.symm.trans hphase
    · rw [List.concat_eq_append, ← List.cons_append, ← List.append_assoc] at hsplit
      obtain ⟨rfl, hy⟩ := List.append_inj' hsplit rfl
      obtain rfl := (List.cons.inj hy).1
      rw [List.concat_eq_append]
      rcases hw.cooling before x since failedAt rfl hfails with ⟨z, hz, hsucceeds⟩ | hcooling
      · exact .inl ⟨z, List.mem_append_left _ hz, hsucceeds⟩
      · have hforward : ∀ y ∈ since, ClockForward y.event e := fun y hy =>
          hclock y (List.mem_append_right _ (List.mem_cons_of_mem _ hy))
        rcases cooling_step hasKid hw.numbered hcooling hforward with h | h
        · exact .inl ⟨_, List.mem_append_right _ (List.mem_singleton_self _), h⟩
        · exact .inr h

end Effects

/-- What a run may ask of the network. -/
structure NetworkBudget (hasKid : α → String → Bool) (events : List (Event α ε)) : Prop where
  /-- From a moment on at which no flight runs, and as long as the key stays the same. -/
  oneFetch : ∀ provider key past rest, events = past ++ rest →
    (∀ id generation, ¬ (run (step hasKid) .new past).Leads id provider generation) →
    (∀ e ∈ rest, SeesKey provider key e) →
    ∀ id id' kid kid' generation generation' entry entry',
      (run (step hasKid) .new events).calls id = some (.fetching provider kid generation entry) →
      (run (step hasKid) .new events).calls id' =
        some (.fetching provider kid' generation' entry') → id = id'
  forcedSpacing : ∀ provider,
    (trace (step hasKid) .new events).Pairwise fun x y => ∀ now now',
      ForcedAt hasKid x provider now → ForcedAt hasKid y provider now' →
      now + forcedRefreshWindow ≤ now'
  /-- Until a flight succeeds. -/
  cooldown : events.length < 2 ^ 64 →
    ∀ provider before x since y rest failedAt now,
      trace (step hasKid) .new events = before ++ x :: since ++ y :: rest →
      FailsAt x provider failedAt → LeadsAt hasKid y provider now →
      failedAt + failureCooldown ≤ now ∨ ∃ z ∈ since, Succeeds z provider

/-- The cache keeps its budget in every run whose callers do not see their clock go back. -/
theorem network_budget {hasKid : α → String → Bool} {events : List (Event α ε)}
    (hclock : events.Pairwise ClockForward) : NetworkBudget hasKid events := by
  refine ⟨?_, fun provider => ?_, ?_⟩
  · intro provider key past rest hsplit hquiet hkey id id' kid kid' g g' entry entry' h h'
    subst hsplit
    have hsole : Sole (run (step hasKid) .new (past ++ rest)) provider key := by
      rw [run_append]
      exact run_invariant sole_step (guarded_of_forall hkey) fun id g hl => absurd hl (hquiet id g)
    obtain ⟨k, -, hphase⟩ := hsole id g ⟨_, h, rfl⟩
    obtain ⟨k', -, hphase'⟩ := hsole id' g' ⟨_, h', rfl⟩
    rw [hphase] at hphase'
    cases hphase'
    rfl
  · have hspaced : Spaced hasKid provider (trace (step hasKid) .new events)
        (run (step hasKid) .new events) :=
      run_trace_history (fun past w e hw _ => spaced_step past w e hw) (guarded_true _ _)
        ⟨.nil, nofun⟩
    exact hspaced.spaced
  · intro hlength provider before x since y rest failedAt now hsplit hfails hleads
    -- The invariant holds of the steps before `y`, as far as their clocks are in order.
    have hhistory := trace_history
      (I := fun past w => (past.map (·.event)).Pairwise ClockForward → past.length < 2 ^ 64 →
        Cooled provider past w)
      (g := fun _ _ => True) ?_ (guarded_true _ events) ?_ hsplit
    · have hevents : (trace (step hasKid) .new events).map (·.event) = events :=
        map_event_trace _ _
      rw [hsplit] at hevents
      have hordered : ((before ++ x :: since).map (·.event)).Pairwise ClockForward := by
        rw [← hevents, List.map_append] at hclock
        exact (List.pairwise_append.mp hclock).1
      have hshort : (before ++ x :: since).length < 2 ^ 64 := by
        have hle := congrArg List.length hevents
        rw [List.length_map, List.length_append] at hle
        omega
      have hcooled := hhistory.1 hordered hshort
      rcases hcooled.cooling before x since failedAt rfl hfails with hsucceeds | hcooling
      · exact .inr hsucceeds
      · obtain ⟨t, hcooldown, hle⟩ := hcooling.cooldown
        obtain ⟨key, -, hled⟩ := led_of_leadsAt hleads
        exact .inl (hle.trans (Slot.le_of_not_coolingDown hled.coolingDown hcooldown))
    · intro past w e hw _ hordered hshort
      rw [List.map_append, List.pairwise_append] at hordered
      rw [List.length_append, List.length_singleton] at hshort
      refine cooled_step (hw hordered.1 (by omega)) hshort fun y hy => ?_
      exact hordered.2.2 _ (List.mem_map_of_mem hy) e (List.mem_singleton_self _)
    · intro _ _
      exact ⟨numbered_new, fun before x since _ h => by simp at h⟩

/-! ## A stale reading -/

private def budgetKey : CacheKey := ⟨7, 1, 0⟩

private def secs (n : Nat) : Instant := n * 1000000000

private def noKid (_ : Nat) (_ : String) : Bool := false

/-- A flight fails in second 1; the next one is led when the cooldown is over and succeeds with a
document that is stale at once.  The third caller has read the clock in second 2, before it waited
for the lock. -/
private def staleRun : List (Event Nat String) :=
  [.lookup 1 7 (some budgetKey) 0, .fetched 1 (.error "unreachable"),
    .published 1 (some budgetKey) (secs 1), .lookup 2 7 (some budgetKey) (secs 31),
    .fetched 2 (.ok (⟨budgetKey, 5, some 0, 0⟩, .useAndExpire)),
    .published 2 (some budgetKey) (secs 32), .lookup 3 7 (some budgetKey) (secs 2)]

private theorem staleRun_forward : staleRun.Pairwise ClockForward := by
  simp [staleRun, ClockForward, Event.id, Event.readsNow, Event.readsPublishedAt, secs]

theorem network_budget_stale : NetworkBudget noKid staleRun :=
  network_budget staleRun_forward

/-- The success has cleared the cooldown, so the third caller leads although its reading is from
within the thirty seconds. -/
theorem led_in_cooldown :
    staleRun.Pairwise ClockForward ∧
      ∃ before x since y failedAt now,
        trace (step noKid) .new staleRun = before ++ x :: since ++ [y] ∧
          FailsAt x 7 failedAt ∧ LeadsAt noKid y 7 now ∧ now < failedAt + failureCooldown := by
  refine ⟨staleRun_forward, (trace (step noKid) .new staleRun).take 2,
    ⟨run (step noKid) .new (staleRun.take 2), .published 1 (some budgetKey) (secs 1), _⟩,
    ((trace (step noKid) .new staleRun).drop 3).take 3,
    ⟨run (step noKid) .new (staleRun.take 6), .lookup 3 7 (some budgetKey) (secs 2), _⟩,
    secs 1, secs 2, rfl, ?_, ?_, by decide⟩
  · exact ⟨1, none, 1, "unreachable", some budgetKey, rfl, rfl, rfl⟩
  · exact ⟨some budgetKey, 3, rfl, rfl, _, rfl, rfl⟩

end SuiId.FederationDocumentCache
