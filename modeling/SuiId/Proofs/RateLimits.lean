import Mathlib.Algebra.Order.Group.Int
import SuiId.Core.RateLimit

/-!
# What the rate limiter admits

The entry of one pair behaves as a fixed window of its own (`Lib.FixedWindow`): the other calls
leave it alone, and the pruning drops it only where its next call would begin a new window anyway.
So the bounds of the library hold for each pair, and no pair sees another.

A denial rounds the time that is left down to whole seconds, so a caller that waits as long as it
is told is denied again, unless a whole number of seconds was left, or a second at most.
-/

namespace SuiId.RateLimit

open Lib Lib.Machine Lib.FixedWindow

variable {κ : Type} [DecidableEq κ]

/-- A call of the pair that is admitted. -/
def admits (key : κ) (x : Taken (State κ) (Call κ) Decision) : Bool :=
  decide (x.event.key = key) && x.out.allowed

/-- A call that begins a window of the pair. -/
def Begins (limiter : Limiter) (key : κ) (x : Taken (State κ) (Call κ) Decision) : Prop :=
  x.event.key = key ∧ Expired limiter.window (x.pre.window key) x.event.now

/-- A call that is denied, and the next call of the same pair, as many seconds later as it was
told. -/
def Retries (limiter : Limiter) (calls : List (Call κ))
    (x y : Taken (State κ) (Call κ) Decision) : Prop :=
  ∃ before mid rest, trace (step limiter) ∅ calls = before ++ x :: (mid ++ y :: rest) ∧
    (∀ z ∈ mid, z.event.key ≠ x.event.key) ∧ y.event.key = x.event.key ∧
    x.out.allowed = false ∧ y.event.now = x.event.now + seconds x.out.retryAfterSecs

/-- What holds of a run of the limiter. -/
structure RateLimited (limiter : Limiter) (calls : List (Call κ)) : Prop where
  burst : ∀ key t, ((trace (step limiter) ∅ calls).countP fun x =>
    admits key x && decide (t ≤ x.event.now ∧ x.event.now < t + limiter.window) : Int) ≤
      2 * limiter.perWindow
  /-- From a call on, until a window of the pair begins. -/
  perStart : ∀ key before x mid rest,
    trace (step limiter) ∅ calls = before ++ x :: (mid ++ rest) →
    (∀ y ∈ mid, ¬ Begins limiter key y) →
      ((x :: mid).countP (admits key) : Int) ≤ limiter.perWindow
  alone : ∀ key,
    ((trace (step limiter) ∅ calls).filter fun x => decide (x.event.key = key)).map (·.out) =
      (trace (step limiter) ∅ (calls.filter fun c => decide (c.key = key))).map (·.out)
  retry : ∀ x y, Retries limiter calls x y → y.out.allowed = true

/-- What is left of the window of a call is a second at most or a whole number of seconds. -/
def WholeWait (limiter : Limiter) (x : Taken (State κ) (Call κ) Decision) : Prop :=
  let window := current limiter.window (x.pre.window x.event.key) x.event.now
  let left := window.startedAt + limiter.window - x.event.now
  left ≤ seconds 1 ∨ seconds 1 ∣ left

/-! ## One pair -/

/-- What `check` does for one pair alone. -/
def soloStep (limiter : Limiter) (window : Option Window) (now : DateTime) :
    Option Window × Decision :=
  let (entry, decision) := limiter.decide (current limiter.window window now) now
  (some entry, decision)

section Entries

variable {limiter : Limiter} {state : State κ} {key : κ} {now : DateTime}

theorem soloStep_eq (limiter : Limiter) (window : Option Window) (now : DateTime) :
    (soloStep limiter window now).1 =
        (FixedWindow.step limiter.perWindow limiter.window window now).1 ∧
      (soloStep limiter window now).2.allowed =
        (FixedWindow.step limiter.perWindow limiter.window window now).2 := by
  simp only [soloStep, Limiter.decide, FixedWindow.step]
  by_cases hfull : limiter.perWindow ≤ (current limiter.window window now).count
  · rw [if_pos hfull, if_neg (not_lt.mpr hfull)]
    exact ⟨rfl, rfl⟩
  · rw [if_neg hfull, if_pos (not_le.mp hfull)]
    exact ⟨rfl, rfl⟩

theorem renew_getD (window : Option Window) (now : DateTime) :
    limiter.renew (window.getD ⟨now, 0⟩) now = current limiter.window window now := by
  cases window with
  | none => exact ite_self _
  | some w => rfl

/-- The pruning drops a window only where the next call would begin another. -/
theorem prune_window (hwindow : 0 ≤ limiter.window) (state : State κ) (key : κ)
    (now : DateTime) :
    (limiter.prune state now).window key = state.window key ∨
      ((limiter.prune state now).window key = none ∧
        Expired limiter.window (state.window key) now) := by
  unfold Limiter.prune
  split
  · cases hget : state.get? key with
    | none =>
      left
      simp [State.window, Table.get?_delete, hget]
    | some e =>
      by_cases hold : e.window.startedAt < now - limiter.window * 4
      · right
        rw [State.window, State.window, Table.get?_delete, hget,
          Option.filter_some_neg (by simp only [hold]; decide)]
        refine ⟨rfl, ?_⟩
        rintro w ⟨rfl⟩
        have hwidth : limiter.window ≤ limiter.window * 4 := by omega
        exact hwidth.trans (le_sub_comm.mp hold.le)
      · left
        rw [State.window, State.window, Table.get?_delete, hget,
          Option.filter_some_pos (by simp only [hold]; decide)]
  · exact .inl rfl

theorem agree_prune (hwindow : 0 ≤ limiter.window) :
    Agree limiter.window now ((limiter.prune state now).window key) (state.window key) := by
  rcases prune_window hwindow state key now with h | ⟨hnone, hexpired⟩
  · exact .inl h
  · refine .inr ⟨?_, hexpired⟩
    rw [hnone]
    nofun

variable {call : Call κ} {calls : List (Call κ)}

/-- A call of the pair: the entry is that of the pair alone, and so is the decision. -/
theorem step_own {window : Option Window} (hwindow : 0 ≤ limiter.window)
    (h : Agree limiter.window call.now (state.window call.key) window) :
    (step limiter state call).1.window call.key = (soloStep limiter window call.now).1 ∧
      (step limiter state call).2 = (soloStep limiter window call.now).2 := by
  have hagree := (agree_prune hwindow).trans h
  have hentry : limiter.renew ((((limiter.prune state call.now).get? call.key).map
      (·.window)).getD ⟨call.now, 0⟩) call.now = current limiter.window window call.now :=
    (renew_getD _ _).trans hagree.current_eq
  simp only [step, Limiter.check, soloStep, hentry]
  refine ⟨?_, trivial⟩
  rw [State.window, Table.get?_upsert, if_pos rfl]
  rfl

/-- A call of another pair prunes at most. -/
theorem window_other (hkey : call.key ≠ key) :
    (step limiter state call).1.window key = (limiter.prune state call.now).window key := by
  simp only [step, Limiter.check, State.window]
  rw [Table.get?_upsert, if_neg hkey]

theorem step_other (hwindow : 0 ≤ limiter.window) (hkey : call.key ≠ key) :
    Agree limiter.window call.now ((step limiter state call).1.window key) (state.window key) := by
  rw [window_other hkey]
  exact agree_prune hwindow

/-- The calls of a pair get the answers that they get alone. -/
theorem trace_own (hwindow : 0 ≤ limiter.window)
    (hsorted : calls.Pairwise fun c c' => c.now ≤ c'.now) {window : Option Window}
    (hlater : ∀ c ∈ calls, now ≤ c.now) (h : Agree limiter.window now (state.window key) window) :
    ((trace (step limiter) state calls).filter fun x => decide (x.event.key = key)).map
        (fun x => (x.event.now, x.out)) =
      (trace (soloStep limiter) window ((calls.filter fun c => decide (c.key = key)).map
        (·.now))).map (fun x => (x.event, x.out)) := by
  induction calls generalizing state window now with
  | nil => rfl
  | cons call calls ih =>
    rw [List.pairwise_cons] at hsorted
    have hagree := h.mono (hlater call List.mem_cons_self)
    by_cases hkey : call.key = key
    · subst hkey
      obtain ⟨hentry, hanswer⟩ := step_own hwindow hagree
      rw [trace_cons, List.filter_cons_of_pos (by simp), List.filter_cons_of_pos (by simp),
        List.map_cons, List.map_cons, trace_cons, List.map_cons, hanswer]
      rw [ih hsorted.2 hsorted.1 (.inl hentry)]
    · rw [trace_cons, List.filter_cons_of_neg (by simpa using hkey),
        List.filter_cons_of_neg (by simpa using hkey)]
      exact ih hsorted.2 hsorted.1 ((step_other hwindow hkey).trans hagree)

theorem trace_own_start (hwindow : 0 ≤ limiter.window)
    (hsorted : calls.Pairwise fun c c' => c.now ≤ c'.now) (key : κ) :
    ((trace (step limiter) ∅ calls).filter fun x => decide (x.event.key = key)).map
        (fun x => (x.event.now, x.out)) =
      (trace (soloStep limiter) none ((calls.filter fun c => decide (c.key = key)).map
        (·.now))).map (fun x => (x.event, x.out)) := by
  cases calls with
  | nil => rfl
  | cons call calls =>
    have hlater : ∀ c ∈ call :: calls, call.now ≤ c.now := fun c hc => by
      rcases List.mem_cons.mp hc with rfl | hc
      · exact le_refl _
      · exact (List.pairwise_cons.mp hsorted).1 c hc
    exact trace_own hwindow hsorted hlater (.refl _)

/-- Calls of other pairs leave the entry of a pair alone. -/
theorem run_others (hwindow : 0 ≤ limiter.window) {last : DateTime}
    (hlast : ∀ c ∈ calls, c.now ≤ last) (hothers : ∀ c ∈ calls, c.key ≠ key) :
    Agree limiter.window last ((run (step limiter) state calls).window key)
      (state.window key) := by
  induction calls generalizing state with
  | nil => exact .refl _
  | cons call calls ih =>
    rw [List.forall_mem_cons] at hlast hothers
    exact (ih hlast.2 hothers.2).trans ((step_other hwindow hothers.1).mono hlast.1)

/-! ## The bounds -/

theorem map_trace_solo (limiter : Limiter) (window : Option Window) (times : List DateTime) :
    (trace (soloStep limiter) window times).map (fun x => (x.event, x.out.allowed)) =
      (trace (FixedWindow.step limiter.perWindow limiter.window) window times).map
        (fun x => (x.event, x.out)) := by
  induction times generalizing window with
  | nil => rfl
  | cons now times ih =>
    obtain ⟨hnext, hanswer⟩ := soloStep_eq limiter window now
    rw [trace_cons, trace_cons, List.map_cons, List.map_cons, ih, hnext, hanswer]

theorem burst_le (hper : 1 ≤ limiter.perWindow) (hwindow : 0 ≤ limiter.window)
    (hsorted : calls.Pairwise fun c c' => c.now ≤ c'.now) (key : κ) (t : DateTime) :
    ((trace (step limiter) ∅ calls).countP fun x =>
      admits key x && decide (t ≤ x.event.now ∧ x.event.now < t + limiter.window) : Int) ≤
        2 * limiter.perWindow := by
  set times := (calls.filter fun c => decide (c.key = key)).map (·.now)
  have hown := trace_own_start hwindow hsorted key
  have hordered : times.Pairwise (· ≤ ·) :=
    List.pairwise_map.mpr (hsorted.filter _)
  have hbound : (admittedIn t (t + limiter.window) (trace (FixedWindow.step limiter.perWindow
      limiter.window) none times) : Int) ≤ 2 * limiter.perWindow :=
    admittedIn_le hper hordered t
  -- Both count the same list of times and answers.
  have hcount : (trace (step limiter) ∅ calls).countP (fun x =>
      admits key x && decide (t ≤ x.event.now ∧ x.event.now < t + limiter.window)) =
        admittedIn t (t + limiter.window)
          (trace (FixedWindow.step limiter.perWindow limiter.window) none times) := by
    have hfw := congrArg (List.countP fun y : DateTime × Bool =>
      y.2 && decide (t ≤ y.1 ∧ y.1 < t + limiter.window)) (map_trace_solo limiter none times)
    have hsolo := congrArg (List.countP fun y : DateTime × Decision =>
      y.2.allowed && decide (t ≤ y.1 ∧ y.1 < t + limiter.window)) hown
    rw [List.countP_map, List.countP_map] at hfw hsolo
    rw [List.countP_filter] at hsolo
    rw [admittedIn]
    refine Eq.trans ?_ (hsolo.trans hfw)
    refine List.countP_congr fun x _ => ?_
    simp only [admits, Function.comp_apply, Bool.and_eq_true]
    tauto
  rw [hcount]
  exact hbound

/-- The count of the entry of a pair. -/
def Within (limiter : Limiter) (key : κ) (state : State κ) : Prop :=
  ∀ w, state.window key = some w → 0 ≤ w.count ∧ w.count ≤ limiter.perWindow

/-- How many calls the window of a pair still admits. -/
def room (limiter : Limiter) (key : κ) (state : State κ) : Int :=
  match state.window key with
  | some w => limiter.perWindow - w.count
  | none => 0

theorem room_congr {state' : State κ} (h : state'.window key = state.window key) :
    room limiter key state' = room limiter key state := by
  rw [room, room, h]

theorem room_some {w : Window} (h : state.window key = some w) :
    room limiter key state = limiter.perWindow - w.count := by
  rw [room, h]

theorem room_none (h : state.window key = none) : room limiter key state = 0 := by
  rw [room, h]

theorem Within.room_le (h : Within limiter key state) :
    0 ≤ room limiter key state ∧ room limiter key state ≤ limiter.perWindow ∨
      room limiter key state = 0 := by
  unfold room
  split
  · next w hw =>
    obtain ⟨hnonneg, hle⟩ := h w hw
    omega
  · exact .inr rfl

/-- The entry of a pair after one of its calls. -/
theorem soloStep_cases (limiter : Limiter) (window : Option Window) (now : DateTime) :
    ((current limiter.window window now).count < limiter.perWindow ∧
      (soloStep limiter window now).2.allowed = true ∧
      (soloStep limiter window now).1 =
        some ⟨(current limiter.window window now).startedAt,
          (current limiter.window window now).count + 1⟩) ∨
    (limiter.perWindow ≤ (current limiter.window window now).count ∧
      (soloStep limiter window now).2 = ⟨false, 0, max (numSeconds
        ((current limiter.window window now).startedAt + limiter.window - now)) 1⟩ ∧
      (soloStep limiter window now).1 = some (current limiter.window window now)) := by
  simp only [soloStep, Limiter.decide]
  by_cases hfull : limiter.perWindow ≤ (current limiter.window window now).count
  · right
    rw [if_pos hfull]
    exact ⟨hfull, rfl, rfl⟩
  · left
    rw [if_neg hfull]
    exact ⟨not_le.mp hfull, rfl, rfl⟩

theorem current_within (hper : 1 ≤ limiter.perWindow) (h : Within limiter key state)
    (now : DateTime) : 0 ≤ (current limiter.window (state.window key) now).count ∧
      (current limiter.window (state.window key) now).count ≤ limiter.perWindow := by
  rcases current_cases limiter.window (state.window key) now with ⟨-, hnew⟩ | hold
  · rw [hnew]
    exact ⟨le_refl _, zero_le_one.trans hper⟩
  · exact h _ hold

theorem within_step (hper : 1 ≤ limiter.perWindow) (hwindow : 0 ≤ limiter.window) (call : Call κ)
    (h : Within limiter key state) : Within limiter key (step limiter state call).1 := by
  intro w hw
  by_cases hkey : call.key = key
  · subst hkey
    obtain ⟨hentry, -⟩ := step_own hwindow (.refl (state.window call.key))
    obtain ⟨hnonneg, hle⟩ := current_within hper h call.now
    rw [hentry] at hw
    rcases soloStep_cases limiter (state.window call.key) call.now with
      ⟨hbelow, -, hafter⟩ | ⟨-, -, hafter⟩
    all_goals
      rw [hafter] at hw
      obtain rfl := Option.some.inj hw
    · exact ⟨by dsimp only; omega, hbelow⟩
    · exact ⟨hnonneg, hle⟩
  · rw [window_other hkey] at hw
    rcases prune_window hwindow state key call.now with hsame | ⟨hnone, -⟩
    · exact h w (hsame.symm.trans hw)
    · rw [hnone] at hw
      cases hw

/-- A call of the pair is admitted where its window, as it was at that instant, had room. -/
private theorem countP_own_le (hwindow : 0 ≤ limiter.window)
    (hrest : ((trace (step limiter) (step limiter state call).1 calls).countP
      (admits call.key) : Int) ≤ room limiter call.key (step limiter state call).1) :
    ((trace (step limiter) state (call :: calls)).countP (admits call.key) : Int) ≤
      limiter.perWindow - (current limiter.window (state.window call.key) call.now).count := by
  obtain ⟨hentry, hanswer⟩ := step_own hwindow (.refl (state.window call.key))
  rw [trace_cons]
  rcases soloStep_cases limiter (state.window call.key) call.now with
    ⟨-, hadmitted, hafter⟩ | ⟨-, hdenied, hafter⟩
  · rw [room_some (hentry.trans hafter)] at hrest
    rw [List.countP_cons_of_pos (by simp [admits, hanswer, hadmitted])]
    push_cast
    dsimp only at hrest
    omega
  · rw [room_some (hentry.trans hafter)] at hrest
    rwa [List.countP_cons_of_neg (by simp [admits, hanswer, hdenied])]

/-- As long as no window of the pair begins, no more calls are admitted than there is room for. -/
theorem admitted_le_room (hper : 1 ≤ limiter.perWindow) (hwindow : 0 ≤ limiter.window)
    (h : Within limiter key state)
    (hquiet : ∀ x ∈ trace (step limiter) state calls, ¬ Begins limiter key x) :
    ((trace (step limiter) state calls).countP (admits key) : Int) ≤ room limiter key state := by
  induction calls generalizing state with
  | nil =>
    rcases h.room_le with hroom | hroom
    · exact hroom.1
    · exact hroom.ge
  | cons call calls ih =>
    rw [trace_cons, List.forall_mem_cons] at hquiet
    have hrest := ih (within_step hper hwindow call h) hquiet.2
    by_cases hkey : call.key = key
    · subst hkey
      -- The call begins no window, so it is counted in the one that is open.
      have hopen : state.window call.key =
          some (current limiter.window (state.window call.key) call.now) :=
        (current_cases limiter.window (state.window call.key) call.now).resolve_left
          fun hnew => hquiet.1 ⟨rfl, hnew.1⟩
      rw [room_some hopen]
      exact countP_own_le hwindow hrest
    · rw [trace_cons, List.countP_cons_of_neg (by simp [admits, hkey])]
      refine hrest.trans ?_
      rcases prune_window hwindow state key call.now with hsame | ⟨hnone, -⟩
      · exact (room_congr ((window_other hkey).trans hsame)).le
      · rw [room_none ((window_other hkey).trans hnone)]
        rcases h.room_le with hroom | hroom
        · exact hroom.1
        · exact hroom.ge

/-- A call and those after it, until a window of the pair begins. -/
theorem perStart_le (hper : 1 ≤ limiter.perWindow) (hwindow : 0 ≤ limiter.window)
    (h : Within limiter key state)
    (hquiet : ∀ x ∈ trace (step limiter) (step limiter state call).1 calls,
      ¬ Begins limiter key x) :
    ((trace (step limiter) state (call :: calls)).countP (admits key) : Int) ≤
      limiter.perWindow := by
  have hpost := within_step hper hwindow call h
  have hrest := admitted_le_room hper hwindow hpost hquiet
  by_cases hkey : call.key = key
  · subst hkey
    obtain ⟨hnonneg, -⟩ := current_within hper h call.now
    exact (countP_own_le hwindow hrest).trans (Int.sub_le_self _ hnonneg)
  · rw [trace_cons, List.countP_cons_of_neg (by simp [admits, hkey])]
    rcases hpost.room_le with hroom | hroom <;> omega

/-! ## The hint -/

/-- The wait that a denial names is long enough where it was not rounded down. -/
theorem le_seconds_iff {left : Int} (hleft : 0 < left) :
    left ≤ seconds (max (numSeconds left) 1) ↔ left ≤ seconds 1 ∨ seconds 1 ∣ left := by
  have hdiv : numSeconds left = left / 1000000000 := Int.tdiv_eq_ediv_of_nonneg hleft.le
  rw [hdiv]
  simp only [seconds, one_mul]
  omega

/-- The next call of the pair after a denial: what it is told to wait for is over, or not. -/
theorem retry_allowed_iff (hper : 1 ≤ limiter.perWindow) (hwindow : 0 < limiter.window)
    {call' : Call κ} {x : Taken (State κ) (Call κ) Decision} (hcall : x.event = call)
    (hout : x.out = (step limiter x.pre call).2) (hdenied : x.out.allowed = false)
    (hkey : call'.key = call.key) (hothers : ∀ c ∈ calls, c.key ≠ call.key)
    (hlast : ∀ c ∈ calls, c.now ≤ call'.now)
    (hnow : call'.now = call.now + seconds x.out.retryAfterSecs) :
    (step limiter (run (step limiter) (step limiter x.pre call).1 calls) call').2.allowed = true ↔
      WholeWait limiter x := by
  obtain ⟨hentry, hanswer⟩ := step_own hwindow.le (.refl (x.pre.window call.key))
  have hlt := sub_current_lt hwindow (x.pre.window call.key) call.now
  unfold WholeWait
  rw [hcall]
  rcases soloStep_cases limiter (x.pre.window call.key) call.now with
    ⟨-, hadmitted, -⟩ | ⟨hfull, hanswer', hafter⟩
  · rw [hout, hanswer, hadmitted] at hdenied
    cases hdenied
  · rw [hafter] at hentry
    rw [hout, hanswer, hanswer'] at hnow
    generalize current limiter.window (x.pre.window call.key) call.now = w at *
    -- The entry is still that of the denial, or over.
    have hagree : Agree limiter.window call'.now
        ((run (step limiter) (step limiter x.pre call).1 calls).window call'.key) (some w) := by
      rw [hkey, ← hentry]
      exact run_others hwindow.le hlast hothers
    rw [(step_own hwindow.le hagree).2, ← le_seconds_iff (by omega)]
    dsimp only at hnow
    rcases soloStep_cases limiter (some w) call'.now with
      ⟨hbelow, hallowed, -⟩ | ⟨hstill, hdenied', -⟩
    · rw [hallowed]
      refine iff_of_true rfl ?_
      by_contra hleft
      have hopen : ¬ limiter.window ≤ call'.now - w.startedAt := by
        rw [hnow]
        omega
      rw [current_eq_some hopen] at hbelow
      exact absurd hfull (not_le.mpr hbelow)
    · rw [hdenied']
      refine iff_of_false Bool.false_ne_true fun hleft => ?_
      have hover : limiter.window ≤ call'.now - w.startedAt := by
        rw [hnow]
        omega
      rw [current_of_expired (by rintro y ⟨rfl⟩; exact hover)] at hstill
      exact absurd hstill (not_le.mpr (Int.lt_of_lt_of_le Int.zero_lt_one hper))

end Entries

/-- The limiter does what it is for in exactly the runs in which no caller retries after a wait
that was rounded down. -/
theorem rate_limited_iff {limiter : Limiter} {calls : List (Call κ)}
    (hper : 1 ≤ limiter.perWindow) (hwindow : 1 ≤ limiter.windowSecs)
    (hsorted : calls.Pairwise fun c c' => c.now ≤ c'.now) :
    RateLimited limiter calls ↔
      ∀ x y, Retries limiter calls x y → WholeWait limiter x := by
  have hwidth : 0 < limiter.window := by
    rw [Limiter.window, seconds]
    omega
  have hretry : ∀ x y, Retries limiter calls x y →
      (y.out.allowed = true ↔ WholeWait limiter x) := by
    rintro x y ⟨before, mid, rest, hsplit, hothers, hkey, hdenied, hnow⟩
    obtain ⟨es₁, es₂, rfl, rfl, hpre, hout, hafter⟩ := trace_eq_append_cons hsplit
    obtain ⟨es₃, es₄, rfl, rfl, hpre', hout', rfl⟩ := trace_eq_append_cons hafter.symm
    have hlast : ∀ c ∈ es₃, c.now ≤ y.event.now := by
      intro c hc
      have hrest := (List.pairwise_cons.mp (List.pairwise_append.mp hsorted).2.1).2
      exact (List.pairwise_append.mp hrest).2.2 c hc y.event List.mem_cons_self
    rw [hout', hpre']
    refine retry_allowed_iff hper hwidth rfl hout hdenied hkey (fun c hc => ?_) hlast hnow
    have hevents : (trace (step limiter) (step limiter x.pre x.event).1 es₃).map (·.event) = es₃ :=
      map_event_trace _ _
    obtain ⟨z, hz, rfl⟩ := List.mem_map.mp (hevents.symm ▸ hc)
    exact hothers z hz
  constructor
  · intro h x y hxy
    exact (hretry x y hxy).mp (h.retry x y hxy)
  · intro h
    refine ⟨fun key t => burst_le hper hwidth.le hsorted key t, ?_, fun key => ?_,
      fun x y hxy => (hretry x y hxy).mpr (h x y hxy)⟩
    · intro key before x mid rest hsplit hquiet
      obtain ⟨es₁, es₂, rfl, rfl, hpre, hout, hafter⟩ := trace_eq_append_cons hsplit
      obtain ⟨es₃, es₄, rfl, rfl, rfl⟩ := trace_eq_append hafter.symm
      have hwithin : Within limiter key x.pre := by
        rw [hpre]
        exact run_invariant (g := fun _ _ => True)
          (fun state call h _ => within_step hper hwidth.le call h) (guarded_true _ _)
          fun w hw => by cases hw
      have hx : x :: trace (step limiter) (step limiter x.pre x.event).1 es₃ =
          trace (step limiter) x.pre (x.event :: es₃) := by
        rw [trace_cons, ← hout]
      rw [hx]
      exact perStart_le hper hwidth.le hwithin hquiet
    · -- Alone, the calls of the pair are the whole run.
      have hown := trace_own_start hwidth.le hsorted key
      have halone := trace_own_start hwidth.le (hsorted.filter fun c => decide (c.key = key)) key
      have hall : (trace (step limiter) ∅ (calls.filter fun c => decide (c.key = key))).filter
          (fun x => decide (x.event.key = key)) =
            trace (step limiter) ∅ (calls.filter fun c => decide (c.key = key)) := by
        refine List.filter_eq_self.mpr fun x hx => ?_
        have hmem := List.mem_map_of_mem (f := (·.event)) hx
        rw [map_event_trace] at hmem
        exact (List.mem_filter.mp hmem).2
      simp only [hall, List.filter_filter, Bool.and_self] at halone
      have houts := congrArg (List.map Prod.snd) (hown.trans halone.symm)
      rw [List.map_map, List.map_map] at houts
      exact houts

/-! ## A wait that is rounded down -/

private def onePerMinute : Limiter := ⟨1, 60⟩

private def caller : String × Nat := ("login", 7)

/-- The denial comes half a second into the window and says 59 seconds. -/
private def roundedRun : List (Call (String × Nat)) :=
  [⟨caller, 0⟩, ⟨caller, 500000000⟩, ⟨caller, 59500000000⟩]

theorem rate_limited_iff_roundedRun :
    RateLimited onePerMinute roundedRun ↔
      ∀ x y, Retries onePerMinute roundedRun x y → WholeWait onePerMinute x :=
  rate_limited_iff (by decide) (by decide) (by simp [roundedRun])

/-- The caller waits for 59 seconds as it is told, and is denied again. -/
theorem denied_again : ¬ RateLimited onePerMinute roundedRun := by
  intro h
  let first := step onePerMinute ∅ ⟨caller, 0⟩
  let second := step onePerMinute first.1 ⟨caller, 500000000⟩
  let third := step onePerMinute second.1 ⟨caller, 59500000000⟩
  have hretries : Retries onePerMinute roundedRun ⟨first.1, ⟨caller, 500000000⟩, second.2⟩
      ⟨second.1, ⟨caller, 59500000000⟩, third.2⟩ := by
    refine ⟨[⟨∅, ⟨caller, 0⟩, first.2⟩], [], [], rfl, nofun, rfl, ?_, ?_⟩ <;> decide +kernel
  have hallowed := h.retry _ _ hretries
  have hdenied : third.2.allowed = false := by decide +kernel
  rw [hdenied] at hallowed
  cases hallowed

end SuiId.RateLimit
