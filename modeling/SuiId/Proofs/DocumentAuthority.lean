import SuiId.Core.CacheFreshness
import SuiId.Proofs.StuckFlights

/-!
# What the document cache serves and keeps

Three rules of the federation document cache, over every interleaving of its calls.

* A document that is served without a flight has the key that is current and is fresh for the time
  it has been resident.
* `entry`, `stored_at` and `cooldown_until` change only where the flight in force publishes, or
  where an entry is dropped whose key is not current.
* A document of a `no-store` response is for one operation.  The fetch says so in its outcome, but
  `run_flight` publishes whatever the outcome is, so the cache keeps such an entry and hands it to
  the next fetch.

The first two hold in every run.  The third holds where no flight in force publishes a `no-store`
result of the current key: by `Built.evict_iff` the outcome and the directives of an entry say the
same, and an entry in a slot is one that has been published.
-/

namespace SuiId.FederationDocumentCache

open Lib Lib.Machine Lib.Result CacheFreshness

/-! ## The results of a fetch -/

section Results

variable {τ ε ε' : Type} {parseDate : String → Option DateTime}

theorem outcomeFor_eq_evict {directives : CacheDirectives} {l : Option Nat} :
    outcomeFor directives l = .useOnceThenEvict ↔ directives.noStore = true := by
  unfold outcomeFor
  split
  · next h => exact ⟨fun _ => h, fun _ => rfl⟩
  · next h =>
    refine ⟨fun hout => ?_, fun hno => absurd hno h⟩
    split at hout <;> cases hout

variable {kind : CacheKind} {trustedNow : DateTime} {outcome : CacheOutcome}

/-- A 200 is to be evicted exactly where its directives say `no-store`. -/
theorem storeFresh_evict {key : CacheKey} {headers : ResponseHeaders} {body : Bytes}
    {validateBody : Bytes → Except ε' τ} {entry : CacheFreshness.RetainedEntry τ}
    (h : storeFresh parseDate key headers kind body validateBody trustedNow =
      .ok (entry, outcome)) :
    outcome = .useOnceThenEvict ↔ entry.document.directives.noStore = true := by
  simp only [storeFresh, bind_eq_ok, mapError_eq_ok, pure_eq_ok, Prod.mk.injEq] at h
  obtain ⟨directives, -, age, -, date, -, etag, -, -, -, document, -, rfl, rfl⟩ := h
  exact outcomeFor_eq_evict

/-- So is a 304, also where the clock has gone back. -/
theorem apply304_evict {old : CacheFreshness.RetainedEntry τ} {key : CacheKey}
    {returnedEtag : Option String} {headers : RevalidationHeaders}
    {entry : CacheFreshness.RetainedEntry τ}
    (h : apply304 parseDate old key returnedEtag headers kind trustedNow = .ok (entry, outcome)) :
    outcome = .useOnceThenEvict ↔ entry.document.directives.noStore = true := by
  simp only [apply304, bind_eq_ok, mapError_eq_ok, pure_eq_ok, Prod.mk.injEq] at h
  obtain ⟨-, -, -, -, retainedEtag, -, -, -, directives, -, age, -, date, -, rfl, rfl⟩ := h
  rw [← outcomeFor_eq_evict (l := lifetime directives kind)]
  split
  · next hexpired =>
    simp only [Bool.and_eq_true, Bool.or_eq_true, decide_eq_true_eq] at hexpired
    refine ⟨nofun, fun h => ?_⟩
    rcases hexpired.2 with h' | h' <;> cases h.symm.trans h'
  · exact Iff.rfl

end Results

/-! ## The rules -/

section Rules

variable {τ ε : Type}

/-- The result of a fetch comes from `store_fresh` or from `apply_304`, or is an error. -/
inductive Built (parseDate : String → Option DateTime) : Fetched (Representation τ) ε → Prop where
  | stored {ε' : Type} {key : CacheKey} {headers : ResponseHeaders} {kind : CacheKind}
      {body : Bytes} {validateBody : Bytes → Except ε' τ} {trustedNow : DateTime}
      {entry : CacheFreshness.RetainedEntry τ} {outcome : CacheOutcome} :
      storeFresh parseDate key headers kind body validateBody trustedNow = .ok (entry, outcome) →
      Built parseDate (.ok (entry, outcome))
  | revalidated {old : CacheFreshness.RetainedEntry τ} {key : CacheKey}
      {returnedEtag : Option String} {headers : RevalidationHeaders} {kind : CacheKind}
      {trustedNow : DateTime} {entry : CacheFreshness.RetainedEntry τ} {outcome : CacheOutcome} :
      apply304 parseDate old key returnedEtag headers kind trustedNow = .ok (entry, outcome) →
      Built parseDate (.ok (entry, outcome))
  | failed {error : ε} : Built parseDate (.error error)

theorem Built.evict_iff {parseDate : String → Option DateTime}
    {entry : CacheFreshness.RetainedEntry τ} {outcome : CacheOutcome}
    (h : Built parseDate (.ok (entry, outcome) : Fetched (Representation τ) ε)) :
    outcome = .useOnceThenEvict ↔ entry.document.directives.noStore = true := by
  cases h with
  | stored h => exact storeFresh_evict h
  | revalidated h => exact apply304_evict h

def Event.BuiltBy (parseDate : String → Option DateTime) : Event (Representation τ) ε → Prop
  | .fetched _ result => Built parseDate result
  | _ => True

/-- The provider of a call that begins, its live key and its reading of the clock. -/
def Event.asks {α : Type} : Event α ε → Option (ProviderId × Option CacheKey × Instant)
  | .lookup _ provider liveKey now => some (provider, liveKey, now)
  | .lookupForKid _ provider _ liveKey now => some (provider, liveKey, now)
  | _ => none

/-- The flight in force on this slot publishes with this event. -/
def Cache.OwnerPublishes {α : Type} (w : Cache α ε) (provider : ProviderId) (e : Event α ε) :
    Prop :=
  ∃ id kid generation result currentKey publishedAt,
    e = .published id currentKey publishedAt ∧
      w.calls id = some (.publishing provider kid generation result) ∧
      (w.slots provider).inFlight generation = true

/-- The three fields of a slot that say what is served. -/
structure Slot.SameDocument {α : Type} (slot slot' : Slot α) : Prop where
  entry : slot'.entry = slot.entry
  storedAt : slot'.storedAt = slot.storedAt
  cooldownUntil : slot'.cooldownUntil = slot.cooldownUntil

/-- An entry whose key is not the live key is dropped. -/
structure Slot.Drops {α : Type} (slot : Slot α) (liveKey : Option CacheKey) (slot' : Slot α) :
    Prop where
  stale : ∃ entry, slot.entry = some entry ∧ liveKey ≠ some entry.key
  entry : slot'.entry = none
  storedAt : slot'.storedAt = none
  cooldownUntil : slot'.cooldownUntil = slot.cooldownUntil

/-- A document that is served without a flight has the live key and is fresh. -/
def ServedFresh {α : Type} (x : Taken (Cache α ε) (Event α ε) (Answer α ε)) : Prop :=
  ∀ provider liveKey now entry outcome,
    x.event.asks = some (provider, liveKey, now) → x.out = .returned (.ok (entry, outcome)) →
    liveKey = some entry.key ∧ (x.pre.slots provider).entry = some entry ∧
      ∃ storedAt, (x.pre.slots provider).storedAt = some storedAt ∧
        entry.isFreshAfter (now - storedAt) = true

/-- Who may change what a slot serves. -/
def SlotGuarded {α : Type} (hasKid : α → String → Bool)
    (x : Taken (Cache α ε) (Event α ε) (Answer α ε)) : Prop :=
  ∀ provider,
    (x.pre.slots provider).SameDocument ((step hasKid x.pre x.event).1.slots provider) ∨
      x.pre.OwnerPublishes provider x.event ∨
      ∃ liveKey now, x.event.asks = some (provider, liveKey, now) ∧
        (x.pre.slots provider).Drops liveKey ((step hasKid x.pre x.event).1.slots provider)

/-- The entry is in no slot and in the hands of no fetch. -/
def Cache.Forgets {α : Type} (w : Cache α ε) (entry : RetainedEntry α) : Prop :=
  (∀ provider, (w.slots provider).entry ≠ some entry) ∧
    ∀ id provider kid generation, w.calls id ≠ some (.fetching provider kid generation (some entry))

/-- The rules of the cache along a run. -/
structure Authoritative {α : Type} (hasKid : α → String → Bool) (events : List (Event α ε)) :
    Prop where
  served : ∀ x ∈ trace (step hasKid) .new events, ServedFresh x
  guarded : ∀ x ∈ trace (step hasKid) .new events, SlotGuarded hasKid x
  evicted : ∀ id entry, .fetched id (.ok (entry, .useOnceThenEvict)) ∈ events →
    ∀ past, past <+: events → (run (step hasKid) .new past).Forgets entry

/-- No flight in force publishes a `no-store` result whose key is current. -/
def noStoreDiscarded {α : Type} (w : Cache α ε) : Event α ε → Bool
  | .published id currentKey _ =>
    match w.calls id with
    | some (.publishing provider _ generation (.ok (entry, .useOnceThenEvict))) =>
      !((w.slots provider).inFlight generation && currentKey = some entry.key)
    | _ => true
  | _ => true

end Rules

/-! ## What is served -/

namespace Slot

variable {α ε : Type} {slot : Slot α} {id : CallId} {liveKey : Option CacheKey} {now : Instant}
  {entry : RetainedEntry α}

/-- What is left after the drop is an entry of the live key, in a slot that has not changed. -/
theorem dropStale_entry (h : (slot.dropStale liveKey).entry = some entry) :
    slot.dropStale liveKey = slot ∧ liveKey = some entry.key := by
  unfold dropStale at h ⊢
  split
  · next hne =>
    rw [if_pos hne] at h
    cases h
  · next heq =>
    rw [if_neg heq] at h
    refine ⟨rfl, ?_⟩
    rw [← not_not.mp heq, h]
    rfl

theorem dropStale_cases (liveKey : Option CacheKey)
    (hpaired : slot.entry = none → slot.storedAt = none) :
    slot.SameDocument (slot.dropStale liveKey) ∨ slot.Drops liveKey (slot.dropStale liveKey) := by
  unfold dropStale
  split
  · next hne =>
    cases hentry : slot.entry with
    | none => exact .inl ⟨hentry.symm, (hpaired hentry).symm, rfl⟩
    | some entry =>
      refine .inr ⟨⟨entry, hentry, fun hkey => hne ?_⟩, rfl, rfl, rfl⟩
      rw [hentry, hkey]
      rfl
  · exact .inl ⟨rfl, rfl, rfl⟩

theorem freshEntry_eq_some (h : slot.freshEntry now = some entry) :
    slot.entry = some entry ∧ ∃ storedAt, slot.storedAt = some storedAt ∧
      entry.isFreshAfter (now - storedAt) = true := by
  unfold freshEntry at h
  split at h
  · next entry' storedAt hentry hstored =>
    split at h
    · next hfresh =>
      cases h
      exact ⟨hentry, storedAt, hstored, hfresh⟩
    · cases h
  · cases h

theorem lookup_document (slot : Slot α) (id : CallId) (liveKey : Option CacheKey)
    (now : Instant) : (slot.dropStale liveKey).SameDocument
      (slot.lookup id liveKey now : Slot α × Decision α ε).1 := by
  unfold lookup
  cases liveKey with
  | none => exact ⟨rfl, rfl, rfl⟩
  | some key =>
    dsimp only
    repeat' split
    all_goals exact ⟨rfl, rfl, rfl⟩

theorem lookupForKid_document (slot : Slot α) (id : CallId) (liveKey : Option CacheKey)
    (now : Instant) : (slot.dropStale liveKey).SameDocument
      (slot.lookupForKid id liveKey now : Slot α × Decision α ε).1 := by
  unfold lookupForKid
  cases liveKey with
  | none => exact ⟨rfl, rfl, rfl⟩
  | some key =>
    dsimp only
    repeat' split
    all_goals exact ⟨rfl, rfl, rfl⟩

variable {outcome : CacheOutcome}

theorem lookup_serves
    (h : (slot.lookup id liveKey now : Slot α × Decision α ε).2 =
      .answer (.ok (entry, outcome))) :
    liveKey = some entry.key ∧ slot.entry = some entry ∧
      ∃ storedAt, slot.storedAt = some storedAt ∧ entry.isFreshAfter (now - storedAt) = true := by
  unfold lookup at h
  cases liveKey with
  | none => cases h
  | some key =>
    dsimp only at h
    split at h
    · next entry' hfresh =>
      cases h
      obtain ⟨hentry, hstored⟩ := freshEntry_eq_some hfresh
      obtain ⟨hsame, hkey⟩ := dropStale_entry hentry
      rw [hsame] at hentry hstored
      exact ⟨hkey, hentry, hstored⟩
    · split at h
      · cases h
      · split at h <;> cases h

theorem lookupForKid_serves_none :
    (slot.lookupForKid id liveKey now : Slot α × Decision α ε).2 ≠
      .answer (.ok (entry, outcome)) := by
  unfold lookupForKid
  cases liveKey with
  | none => nofun
  | some key =>
    dsimp only
    repeat' split
    all_goals nofun

variable {generation : UInt64} {result : Fetched α ε} {currentKey : Option CacheKey}
  {publishedAt : Instant}

theorem lead_hands {key : CacheKey}
    (h : (slot.lead id key : Slot α × Decision α ε).2 = .lead generation (some entry)) :
    slot.entry = some entry := by
  simp only [lead, Decision.lead.injEq] at h
  exact h.2

/-- A leader is handed the entry of the slot. -/
theorem lookup_hands
    (h : (slot.lookup id liveKey now : Slot α × Decision α ε).2 =
      .lead generation (some entry)) : slot.entry = some entry := by
  unfold lookup at h
  cases liveKey with
  | none => cases h
  | some key =>
    dsimp only at h
    split at h
    · cases h
    · split at h
      · cases h
      · split at h
        · cases h
        · have hentry := lead_hands h
          exact (dropStale_entry hentry).1 ▸ hentry

theorem lookupForKid_hands
    (h : (slot.lookupForKid id liveKey now : Slot α × Decision α ε).2 =
      .lead generation (some entry)) : slot.entry = some entry := by
  unfold lookupForKid at h
  cases liveKey with
  | none => cases h
  | some key =>
    dsimp only at h
    split at h
    · cases h
    · split at h
      · cases h
      · split at h
        · cases h
        · have hentry := lead_hands h
          change (slot.dropStale (some key)).entry = some entry at hentry
          exact (dropStale_entry hentry).1 ▸ hentry

theorem publish_of_not_inFlight (h : slot.inFlight generation = false) :
    slot.publish generation result currentKey publishedAt = slot := by
  simp [publish, h]

/-- A published entry is that of a result whose key is current, or it was there. -/
theorem publish_entry
    (h : (slot.publish generation result currentKey publishedAt).entry = some entry) :
    slot.entry = some entry ∨ slot.inFlight generation = true ∧ currentKey = some entry.key ∧
      ∃ outcome, result = .ok (entry, outcome) := by
  unfold publish at h
  split at h
  · next hmine =>
    cases result with
    | error error => exact .inl h
    | ok value =>
      obtain ⟨entry', outcome⟩ := value
      dsimp only at h
      split at h
      · next hkey =>
        cases h
        exact .inr ⟨hmine, hkey, outcome, rfl⟩
      · exact .inl h
  · exact .inl h

theorem publish_paired (hpaired : slot.entry = none → slot.storedAt = none)
    (h : (slot.publish generation result currentKey publishedAt).entry = none) :
    (slot.publish generation result currentKey publishedAt).storedAt = none := by
  unfold publish at h ⊢
  by_cases hmine : slot.inFlight generation = true
  · rw [if_pos hmine] at h ⊢
    cases result with
    | error error => exact hpaired h
    | ok value =>
      dsimp only at h ⊢
      by_cases hkey : currentKey = some value.1.key
      · rw [if_pos hkey] at h
        cases h
      · rw [if_neg hkey] at h ⊢
        exact hpaired h
  · rw [if_neg hmine] at h ⊢
    exact hpaired h

end Slot

/-! ## Along a run -/

section Generic

variable {α ε : Type} {hasKid : α → String → Bool} {w : Cache α ε}

/-- A slot without an entry has no time at which one was stored. -/
def Paired (w : Cache α ε) : Prop :=
  ∀ provider, (w.slots provider).entry = none → (w.slots provider).storedAt = none

theorem paired_step (w : Cache α ε) (e : Event α ε) (hw : Paired w) :
    Paired (step hasKid w e).1 := by
  intro provider
  have hdrop : ∀ {liveKey : Option CacheKey} {slot : Slot α},
      ((w.slots provider).dropStale liveKey).SameDocument slot →
      slot.entry = none → slot.storedAt = none := by
    intro liveKey slot hsame hnone
    rw [hsame.entry] at hnone
    rw [hsame.storedAt]
    rcases (w.slots provider).dropStale_cases liveKey (hw provider) with h | h
    · rw [h.storedAt]
      rw [h.entry] at hnone
      exact hw provider hnone
    · exact h.storedAt
  have hslot := step_slot hasKid w e provider
  generalize (step hasKid w e).1.slots provider = slot' at hslot
  cases hslot with
  | same => exact hw provider
  | lookup => exact hdrop (Slot.lookup_document ..)
  | lookupForKid => exact hdrop (Slot.lookupForKid_document ..)
  | published => exact Slot.publish_paired (hw provider)

/-- Only the flight in force and the drop of a stale entry change what a slot serves. -/
theorem slotGuarded_of_paired (e : Event α ε) (hw : Paired w) :
    SlotGuarded hasKid ⟨w, e, (step hasKid w e).2⟩ := by
  intro provider
  have hasks : ∀ {liveKey : Option CacheKey} {now : Instant} {slot : Slot α},
      e.asks = some (provider, liveKey, now) →
      ((w.slots provider).dropStale liveKey).SameDocument slot →
      (w.slots provider).SameDocument slot ∨ w.OwnerPublishes provider e ∨
        ∃ liveKey now, e.asks = some (provider, liveKey, now) ∧
          (w.slots provider).Drops liveKey slot := by
    intro liveKey now slot hask hsame
    rcases (w.slots provider).dropStale_cases liveKey (hw provider) with h | h
    · exact .inl ⟨hsame.entry.trans h.entry, hsame.storedAt.trans h.storedAt,
        hsame.cooldownUntil.trans h.cooldownUntil⟩
    · exact .inr (.inr ⟨liveKey, now, hask, h.stale, hsame.entry.trans h.entry,
        hsame.storedAt.trans h.storedAt, hsame.cooldownUntil.trans h.cooldownUntil⟩)
  have hslot := step_slot hasKid w e provider
  dsimp only
  generalize (step hasKid w e).1.slots provider = slot' at hslot ⊢
  cases hslot with
  | same => exact .inl ⟨rfl, rfl, rfl⟩
  | lookup => exact hasks rfl (Slot.lookup_document ..)
  | lookupForKid => exact hasks rfl (Slot.lookupForKid_document ..)
  | @published id kid generation result currentKey publishedAt hcall =>
    cases hmine : (w.slots provider).inFlight generation with
    | true =>
      exact .inr (.inl ⟨id, kid, generation, result, currentKey, publishedAt, rfl, hcall, hmine⟩)
    | false =>
      rw [Slot.publish_of_not_inFlight hmine]
      exact .inl ⟨rfl, rfl, rfl⟩

theorem begin_answer {id : CallId} {provider : ProviderId} {kid : Option String}
    {r : Slot α × Decision α ε} {result : Except (LookupError ε) (RetainedEntry α × CacheOutcome)}
    (h : (w.begin id provider kid r).2 = .returned result) : r.2 = .answer result := by
  obtain ⟨slot, result' | rx | ⟨generation, currentEntry⟩⟩ := r
  · cases h
    rfl
  · cases h
  · cases h

theorem servedFresh_step (e : Event α ε) : ServedFresh ⟨w, e, (step hasKid w e).2⟩ := by
  intro provider liveKey now entry outcome hask hout
  cases e with
  | lookup id provider' liveKey' now' =>
    cases hask
    dsimp only [step] at hout
    split at hout
    · cases hout
    · exact Slot.lookup_serves (begin_answer hout)
  | lookupForKid id provider' kid liveKey' now' =>
    dsimp only [step] at hout
    split at hout
    · cases hout
    · exact absurd (begin_answer hout) Slot.lookupForKid_serves_none
  | fetched => cases hask
  | published => cases hask
  | signalled => cases hask
  | dropped => cases hask

end Generic

section NoStore

variable {τ ε : Type} {parseDate : String → Option DateTime}
  {hasKid : Representation τ → String → Bool} {w : Cache (Representation τ) ε}

/-- No `no-store` entry, where there is one. -/
def Storable (entry : Option (CacheFreshness.RetainedEntry τ)) : Prop :=
  ∀ e, entry = some e → e.document.directives.noStore = false

/-- What a call carries: an entry that may be kept, or the result of a fetch. -/
def Call.Kept (parseDate : String → Option DateTime) : Call (Representation τ) ε → Prop
  | .fetching _ _ _ currentEntry => Storable currentEntry
  | .publishing _ _ _ result => Built parseDate result
  | .joined .. => True
  | .ended => True

/-- Neither a slot nor a fetch holds a `no-store` entry. -/
structure Kept (parseDate : String → Option DateTime) (w : Cache (Representation τ) ε) :
    Prop where
  slots : ∀ provider, Storable (w.slots provider).entry
  calls : ∀ id call, w.calls id = some call → call.Kept parseDate

theorem kept_new : Kept parseDate (.new : Cache (Representation τ) ε) :=
  ⟨fun _ _ h => (nomatch h), fun _ _ h => (nomatch h)⟩

theorem Kept.setCall {id : CallId} {call : Call (Representation τ) ε} (hw : Kept parseDate w)
    (hcall : call.Kept parseDate) : Kept parseDate (w.setCall id call) := by
  refine ⟨hw.slots, fun id' call' h => ?_⟩
  by_cases hid : id' = id
  · subst hid
    simp only [Cache.setCall, Function.update_self, Option.some.injEq] at h
    exact h ▸ hcall
  · simp only [Cache.setCall, Function.update_of_ne hid] at h
    exact hw.calls id' call' h

variable {provider : ProviderId}

theorem Kept.setSlot {slot : Slot (Representation τ)} (hw : Kept parseDate w)
    (hslot : Storable slot.entry) :
    Kept parseDate (w.setSlot provider slot) := by
  refine ⟨fun provider' => ?_, hw.calls⟩
  by_cases hp : provider' = provider
  · subst hp
    simpa only [Cache.setSlot, Function.update_self] using hslot
  · simpa only [Cache.setSlot, Function.update_of_ne hp] using hw.slots provider'

theorem Kept.begin {id : CallId} {kid : Option String}
    {r : Slot (Representation τ) × Decision (Representation τ) ε} (hw : Kept parseDate w)
    (hslot : Storable r.1.entry)
    (hlead : ∀ generation entry, r.2 = .lead generation (some entry) →
      (w.slots provider).entry = some entry) :
    Kept parseDate (w.begin id provider kid r).1 := by
  obtain ⟨slot, result | rx | ⟨generation, currentEntry⟩⟩ := r
  · exact (hw.setSlot hslot).setCall trivial
  · exact (hw.setSlot hslot).setCall trivial
  · refine (hw.setSlot hslot).setCall fun entry hentry => ?_
    exact hw.slots provider entry (hlead generation entry (by rw [hentry]))

/-- A drop leaves no other entry. -/
theorem Storable.dropStale {liveKey : Option CacheKey} {slot slot' : Slot (Representation τ)}
    (h : Storable slot.entry) (hsame : (slot.dropStale liveKey).SameDocument slot') :
    Storable slot'.entry := by
  intro entry hentry
  rw [hsame.entry] at hentry
  rw [(Slot.dropStale_entry hentry).1] at hentry
  exact h entry hentry

theorem kept_step (w : Cache (Representation τ) ε) (e : Event (Representation τ) ε)
    (hw : Kept parseDate w) (hg : e.BuiltBy parseDate ∧ noStoreDiscarded w e = true) :
    Kept parseDate (step hasKid w e).1 := by
  obtain ⟨hbuilt, hg⟩ := hg
  cases e with
  | lookup id provider liveKey now =>
    dsimp only [step]
    split
    · exact hw
    · exact hw.begin ((hw.slots provider).dropStale (Slot.lookup_document ..))
        fun _ _ => Slot.lookup_hands
  | lookupForKid id provider kid liveKey now =>
    dsimp only [step]
    split
    · exact hw
    · exact hw.begin ((hw.slots provider).dropStale (Slot.lookupForKid_document ..))
        fun _ _ => Slot.lookupForKid_hands
  | fetched id result =>
    dsimp only [step]
    split
    · exact Kept.setCall (w := w.setSignal id _) ⟨hw.slots, hw.calls⟩ hbuilt
    · exact hw
  | published id currentKey publishedAt =>
    dsimp only [step]
    split
    · next provider kid generation result hcall =>
      refine (hw.setSlot fun entry hentry => ?_).setCall trivial
      rcases Slot.publish_entry hentry with hold | ⟨hmine, hkey, outcome, rfl⟩
      · exact hw.slots provider entry hold
      · -- The result is published, so the guard says that it is no `no-store` result.
        have hresult : Built parseDate (.ok (entry, outcome)) := hw.calls id _ hcall
        by_contra hno
        have hevict := hresult.evict_iff.mpr (by simpa using hno)
        subst hevict
        simp [noStoreDiscarded, hcall, hmine, hkey] at hg
    · exact hw
  | signalled id =>
    dsimp only [step]
    split
    · split
      · exact hw
      · exact hw.setCall trivial
      · exact hw.setCall trivial
    · exact hw
  | dropped id =>
    dsimp only [step]
    split
    · exact Kept.setCall (w := w.setSignal id _) ⟨hw.slots, hw.calls⟩ trivial
    · exact hw.setCall trivial
    · exact hw

/-- A `no-store` entry is nowhere. -/
theorem Kept.forgets {entry : CacheFreshness.RetainedEntry τ} (hw : Kept parseDate w)
    (hno : entry.document.directives.noStore = true) : w.Forgets entry := by
  refine ⟨fun provider hentry => ?_, fun id provider kid generation hcall => ?_⟩
  · cases hno.symm.trans (hw.slots provider entry hentry)
  · have hkept : Storable (some entry) := hw.calls id _ hcall
    cases hno.symm.trans (hkept entry rfl)

/-- In a run whose flights in force publish no `no-store` result of the current key, what is served
without a flight is current and fresh, only the flight in force and the drop of a stale entry
change what a slot serves, and no `no-store` document outlives its operation. -/
theorem documents_authoritative {events : List (Event (Representation τ) ε)}
    (hbuilt : ∀ e ∈ events, e.BuiltBy parseDate)
    (hg : Guarded (step hasKid) (fun w e => noStoreDiscarded w e = true) .new events) :
    Authoritative hasKid events := by
  have hpaired : ∀ {x}, x ∈ trace (step hasKid) .new events → Paired x.pre ∧ True ∧
      x.out = (step hasKid x.pre x.event).2 :=
    fun hx => trace_invariant (fun w e hw _ => paired_step w e hw) (guarded_true _ _)
      (fun _ _ => rfl) hx
  refine ⟨fun x hx => ?_, fun x hx => ?_, fun id entry hmem past hpast => ?_⟩
  · obtain ⟨pre, e, out⟩ := x
    have hout : out = (step hasKid pre e).2 := (hpaired hx).2.2
    rw [hout]
    exact servedFresh_step e
  · obtain ⟨pre, e, out⟩ := x
    exact slotGuarded_of_paired e (hpaired hx).1
  · obtain ⟨rest, rfl⟩ := hpast
    have hboth := (guarded_of_forall hbuilt).and hg
    have hkept : Kept parseDate (run (step hasKid) .new past) :=
      run_invariant kept_step (guarded_append.mp hboth).1 kept_new
    have hresult : Built parseDate (.ok (entry, .useOnceThenEvict)) := hbuilt _ hmem
    exact hkept.forgets (hresult.evict_iff.mp rfl)

end NoStore

/-! ## Two runs -/

private def noDate (_ : String) : Option DateTime := none

private def holdsKid (_ : Representation Nat) (_ : String) : Bool := false

private def key (version : UInt64) : CacheKey := ⟨7, version, 0⟩

/-- What `store_fresh` makes of a 200 with `no-store`. -/
private def secret (version : UInt64) : CacheFreshness.RetainedEntry Nat :=
  ⟨key version, ⟨1, none, ⟨true, false, false, none, none⟩, 0⟩, none, 0⟩

/-- What it makes of one with `max-age=60`. -/
private def plain : CacheFreshness.RetainedEntry Nat :=
  ⟨key 2, ⟨1, none, ⟨false, false, false, some (fromSecs 60), none⟩, 0⟩,
    some (fromSecs 60), 0⟩

private theorem built_secret (version : UInt64) :
    Built noDate (.ok (secret version, .useOnceThenEvict) : Fetched _ String) := by
  refine .stored (?_ : storeFresh noDate (key version) ⟨["no-store"], [], [], [], []⟩ .jwks []
    (fun _ => (.ok 1 : Except String Nat)) 0 = .ok (secret version, .useOnceThenEvict))
  rfl

private theorem built_plain : Built noDate (.ok (plain, .retain) : Fetched _ String) := by
  refine .stored (?_ : storeFresh noDate (key 2) ⟨["max-age=60"], [], [], [], []⟩ .jwks []
    (fun _ => (.ok 1 : Except String Nat)) 0 = .ok (plain, .retain))
  decide +kernel

/-- A flight that another one has superseded ends with a `no-store` result; the other one ends with
a document that may be kept, and a third caller is served. -/
private def discardedRun : List (Event (Representation Nat) String) :=
  [.lookup 1 7 (some (key 1)) 0, .lookup 2 7 (some (key 2)) 1,
    .fetched 1 (.ok (secret 1, .useOnceThenEvict)), .published 1 (some (key 2)) 2,
    .fetched 2 (.ok (plain, .retain)), .published 2 (some (key 2)) 3,
    .lookup 3 7 (some (key 2)) 4]

/-- The flight in force ends with a `no-store` result, and a second caller leads. -/
private def keptRun : List (Event (Representation Nat) String) :=
  [.lookup 1 7 (some (key 1)) 0, .fetched 1 (.ok (secret 1, .useOnceThenEvict)),
    .published 1 (some (key 1)) 1, .lookup 2 7 (some (key 1)) 2]

theorem documents_authoritative_discarded :
    Guarded (step holdsKid) (fun w e => noStoreDiscarded w e = true) .new discardedRun ∧
      Authoritative holdsKid discardedRun := by
  have hg : Guarded (step holdsKid) (fun w e => noStoreDiscarded w e = true) .new
      discardedRun := by
    decide +kernel
  refine ⟨hg, documents_authoritative (fun e he => ?_ : ∀ e ∈ discardedRun, e.BuiltBy noDate) hg⟩
  revert e
  simp [discardedRun, Event.BuiltBy, built_secret, built_plain]

/-- The cache keeps the `no-store` entry and hands it to the fetch of the second caller. -/
theorem no_store_document_kept :
    (∀ e ∈ keptRun, e.BuiltBy noDate) ∧
      ((run (step holdsKid) .new keptRun).slots 7).entry = some (secret 1) ∧
      (run (step holdsKid) .new keptRun).calls 2 =
        some (.fetching 7 none 2 (some (secret 1))) ∧
      ¬ Authoritative holdsKid keptRun := by
  have hslot : ((run (step holdsKid) .new keptRun).slots 7).entry = some (secret 1) := rfl
  refine ⟨by simp [keptRun, Event.BuiltBy, built_secret], hslot, rfl, fun h => ?_⟩
  exact (h.evicted 1 (secret 1) (by simp [keptRun]) keptRun (List.prefix_refl _)).1 7 hslot

end SuiId.FederationDocumentCache
