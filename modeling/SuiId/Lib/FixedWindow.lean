import Mathlib.Algebra.Order.Group.Defs
import Mathlib.Algebra.Order.Sub.Basic
import SuiId.Lib.Machine

/-!
# Fixed windows

A counter that admits at most `limit` calls in a window of a given width.  The first call begins a
window, and so does the first call that comes `width` or more after the beginning of the last one.

Windows are where the calls put them, so an interval of one width meets at most two of them, and
`countP_interval_le` is the bound for it: twice the limit.
-/

namespace Lib.FixedWindow

open Lib.Machine

variable {α : Type}

/-- A window and the calls counted in it. -/
structure Window (α : Type) where
  startedAt : α
  count : Int

section Counter

variable [AddCommGroup α] [LinearOrder α]

/-- There is no window that a call could be counted in. -/
def Expired (width : α) (w : Option (Window α)) (now : α) : Prop :=
  ∀ x, w = some x → width ≤ now - x.startedAt

/-- The window of a call. -/
def current (width : α) (w : Option (Window α)) (now : α) : Window α :=
  match w with
  | some x => if width ≤ now - x.startedAt then ⟨now, 0⟩ else x
  | none => ⟨now, 0⟩

/-- A call: the window after it, and whether it is admitted. -/
def step (limit : Int) (width : α) (w : Option (Window α)) (now : α) : Option (Window α) × Bool :=
  let x := current width w now
  if x.count < limit then (some { x with count := x.count + 1 }, true) else (some x, false)

/-- Two states that no call from `now` on tells apart. -/
def Agree (width : α) (now : α) (w w' : Option (Window α)) : Prop :=
  w = w' ∨ (Expired width w now ∧ Expired width w' now)

variable {width now : α} {w w' w'' : Option (Window α)} {limit : Int}

theorem current_of_expired (h : Expired width w now) : current width w now = ⟨now, 0⟩ := by
  cases w with
  | none => rfl
  | some x => exact if_pos (h x rfl)

theorem current_eq_some {x : Window α} (h : ¬ width ≤ now - x.startedAt) :
    current width (some x) now = x := if_neg h

/-- The window of a call is a new one, or the one that is open. -/
theorem current_cases (width : α) (w : Option (Window α)) (now : α) :
    (Expired width w now ∧ current width w now = ⟨now, 0⟩) ∨ w = some (current width w now) := by
  cases w with
  | none => exact .inl ⟨nofun, rfl⟩
  | some x =>
    by_cases hexpired : width ≤ now - x.startedAt
    · refine .inl ⟨?_, if_pos hexpired⟩
      rintro y ⟨rfl⟩
      exact hexpired
    · exact .inr (congrArg some (current_eq_some hexpired).symm)

/-- A call comes before its window is over. -/
theorem sub_current_lt (hwidth : 0 < width) (w : Option (Window α)) (now : α) :
    now - (current width w now).startedAt < width := by
  rcases w with _ | x
  · exact (sub_self now).trans_lt hwidth
  · by_cases hexpired : width ≤ now - x.startedAt
    · have hnew : current width (some x) now = ⟨now, 0⟩ := if_pos hexpired
      rw [hnew, sub_self]
      exact hwidth
    · rw [current_eq_some hexpired]
      exact not_le.mp hexpired

theorem Agree.refl (w : Option (Window α)) : Agree width now w w := .inl rfl

theorem Expired.mono [IsOrderedAddMonoid α] {later : α} (h : Expired width w now)
    (hle : now ≤ later) : Expired width w later :=
  fun x hx => (h x hx).trans (sub_le_sub_right hle _)

theorem Agree.mono [IsOrderedAddMonoid α] {later : α} (h : Agree width now w w')
    (hle : now ≤ later) : Agree width later w w' :=
  h.imp_right fun h => ⟨h.1.mono hle, h.2.mono hle⟩

theorem Agree.current_eq (h : Agree width now w w') :
    current width w now = current width w' now := by
  rcases h with rfl | ⟨h, h'⟩
  · rfl
  · rw [current_of_expired h, current_of_expired h']

theorem Agree.trans (h : Agree width now w w') (h' : Agree width now w' w'') :
    Agree width now w w'' := by
  rcases h with rfl | ⟨h, hmid⟩
  · exact h'
  · rcases h' with rfl | ⟨-, h'⟩
    · exact .inr ⟨h, hmid⟩
    · exact .inr ⟨h, h'⟩

end Counter

/-! ## The bound -/

section Bound

variable [LinearOrder α]

/-- The calls admitted from `t` on. -/
def admittedFrom (t : α) (past : List (Taken (Option (Window α)) α Bool)) : Nat :=
  past.countP fun x => x.out && decide (t ≤ x.event)

/-- The calls admitted in the interval from `t` up to `u`. -/
def admittedIn (t u : α) (past : List (Taken (Option (Window α)) α Bool)) : Nat :=
  past.countP fun x => x.out && decide (t ≤ x.event ∧ x.event < u)

theorem admittedFrom_append (t : α) (past : List (Taken (Option (Window α)) α Bool))
    (x : Taken (Option (Window α)) α Bool) :
    admittedFrom t (past ++ [x]) =
      admittedFrom t past + if x.out = true ∧ t ≤ x.event then 1 else 0 := by
  simp [admittedFrom, List.countP_append, List.countP_singleton]

theorem admittedIn_append (t u : α) (past : List (Taken (Option (Window α)) α Bool))
    (x : Taken (Option (Window α)) α Bool) :
    admittedIn t u (past ++ [x]) =
      admittedIn t u past + if x.out = true ∧ t ≤ x.event ∧ x.event < u then 1 else 0 := by
  simp [admittedIn, List.countP_append, List.countP_singleton]

theorem admittedIn_le_admittedFrom (t u : α)
    (past : List (Taken (Option (Window α)) α Bool)) :
    admittedIn t u past ≤ admittedFrom t past := by
  refine List.countP_mono_left fun x _ hx => ?_
  simp only [Bool.and_eq_true, decide_eq_true_eq] at hx ⊢
  exact ⟨hx.1, hx.2.1⟩

theorem admittedFrom_eq_zero {t : α} {past : List (Taken (Option (Window α)) α Bool)}
    (h : ∀ x ∈ past, x.event < t) : admittedFrom t past = 0 := by
  refine List.countP_eq_zero.mpr fun x hx hadmitted => ?_
  simp only [Bool.and_eq_true, decide_eq_true_eq] at hadmitted
  exact absurd hadmitted.2 (not_le.mpr (h x hx))

end Bound

section Counted

variable [AddCommGroup α] [LinearOrder α] [IsOrderedAddMonoid α]

/-- What the last window says about the calls admitted so far. -/
structure Counted (limit : Int) (width : α) (past : List (Taken (Option (Window α)) α Bool))
    (w : Option (Window α)) : Prop where
  bound : ∀ t, (admittedIn t (t + width) past : Int) ≤ 2 * limit
  fresh : w = none → past = []
  within : ∀ x, w = some x → 0 ≤ x.count ∧ x.count ≤ limit
  /-- After the beginning of the window, only its own calls. -/
  own : ∀ x, w = some x → ∀ t, x.startedAt < t → (admittedFrom t past : Int) ≤ x.count
  /-- Less than one width before it, those and the calls of one window before. -/
  before : ∀ x, w = some x → ∀ t, x.startedAt - width < t →
    (admittedFrom t past : Int) ≤ limit + x.count

variable {limit : Int} {width : α} {past : List (Taken (Option (Window α)) α Bool)}
  {w : Option (Window α)} {now : α}

/-- What the current window of a call says, before the call is counted. -/
theorem Counted.current (hw : Counted limit width past w)
    (hpast : ∀ x ∈ past, x.event ≤ now) (hlimit : 1 ≤ limit) :
    Counted limit width past (some (FixedWindow.current width w now)) := by
  cases w with
  | none =>
    obtain rfl := hw.fresh rfl
    have hcurrent : FixedWindow.current width none now = ⟨now, 0⟩ := rfl
    rw [hcurrent]
    refine ⟨hw.bound, nofun, ?_, ?_, ?_⟩
    all_goals rintro x ⟨rfl⟩
    · exact ⟨le_refl _, zero_le_one.trans hlimit⟩
    · intro t _
      simp [admittedFrom]
    · intro t _
      simp [admittedFrom]
      omega
  | some x =>
    by_cases hexpired : width ≤ now - x.startedAt
    · have hcurrent : FixedWindow.current width (some x) now = ⟨now, 0⟩ := if_pos hexpired
      rw [hcurrent]
      obtain ⟨-, hcount⟩ := hw.within x rfl
      refine ⟨hw.bound, nofun, ?_, ?_, ?_⟩
      all_goals rintro y ⟨rfl⟩
      · exact ⟨le_refl _, zero_le_one.trans hlimit⟩
      · intro t ht
        rw [admittedFrom_eq_zero fun y hy => lt_of_le_of_lt (hpast y hy) ht]
        exact le_refl _
      · -- The window before is the last one, and it began a width ago or more.
        intro t ht
        have hstart : x.startedAt < t := by
          refine lt_of_le_of_lt ?_ ht
          exact le_sub_comm.mp hexpired
        have hown := hw.own x rfl t hstart
        dsimp only
        omega
    · rw [current_eq_some hexpired]
      exact hw

/-- A window begins at a call. -/
def Begun (past : List (Taken (Option (Window α)) α Bool)) (w : Option (Window α)) : Prop :=
  ∀ x, w = some x → ∃ y ∈ past, y.event = x.startedAt

theorem counted_step (hw : Counted limit width past w) (hbegun : Begun past w)
    (hpast : ∀ x ∈ past, x.event ≤ now) (hlimit : 1 ≤ limit) :
    Counted limit width (past ++ [⟨w, now, (step limit width w now).2⟩])
        (step limit width w now).1 ∧
      Begun (past ++ [⟨w, now, (step limit width w now).2⟩]) (step limit width w now).1 := by
  have hx : Counted limit width past (some (current width w now)) := hw.current hpast hlimit
  have hstarted : (current width w now).startedAt = now ∨
      ∃ y ∈ past, y.event = (current width w now).startedAt := by
    rcases current_cases width w now with ⟨-, h⟩ | h
    · exact .inl (congrArg _ h)
    · exact .inr (hbegun _ h)
  have hle : (current width w now).startedAt ≤ now := by
    rcases hstarted with h | ⟨y, hy, h⟩
    · exact h.le
    · exact h ▸ hpast y hy
  have hnext : ∀ answer, ∃ y ∈ past ++ [⟨w, now, answer⟩],
      y.event = (current width w now).startedAt := by
    intro answer
    rcases hstarted with h | ⟨y, hy, h⟩
    · exact ⟨_, List.mem_append_right _ (List.mem_singleton_self _), h.symm⟩
    · exact ⟨y, List.mem_append_left _ hy, h⟩
  unfold step
  generalize current width w now = x at hx hle hnext ⊢
  obtain ⟨hnonneg, -⟩ := hx.within x rfl
  dsimp only
  split
  · next hbelow =>
    refine ⟨⟨fun t => ?_, nofun, ?_, ?_, ?_⟩, ?_⟩
    · rw [admittedIn_append]
      split
      · next hin =>
        -- The interval reaches back less than one width before the window.
        have hbefore := hx.before x rfl t
          ((sub_le_sub_right hle width).trans_lt (sub_lt_iff_lt_add.mpr hin.2.2))
        have hfrom := admittedIn_le_admittedFrom t (t + width) past
        push_cast
        omega
      · have hbound := hx.bound t
        push_cast
        omega
    all_goals rintro y ⟨rfl⟩
    · dsimp only
      omega
    · intro t ht
      have hown := hx.own x rfl t ht
      rw [admittedFrom_append]
      push_cast
      split <;> omega
    · intro t ht
      have hbefore := hx.before x rfl t ht
      rw [admittedFrom_append]
      push_cast
      split <;> omega
    · exact hnext true
  · have hsame : ∀ t, admittedFrom t (past ++ [⟨w, now, false⟩]) = admittedFrom t past := by
      intro t
      rw [admittedFrom_append, if_neg (by simp), Nat.add_zero]
    refine ⟨⟨fun t => ?_, nofun, hx.within, ?_, ?_⟩, ?_⟩
    · rw [admittedIn_append, if_neg (by simp), Nat.add_zero]
      exact hx.bound t
    all_goals rintro y ⟨rfl⟩
    · intro t ht
      rw [hsame]
      exact hx.own x rfl t ht
    · intro t ht
      rw [hsame]
      exact hx.before x rfl t ht
    · exact hnext false

/-- At most twice the limit in an interval of one width, for calls in the order of their times. -/
theorem admittedIn_le (hlimit : 1 ≤ limit) {times : List α} (hsorted : times.Pairwise (· ≤ ·))
    (t : α) :
    (admittedIn t (t + width) (trace (step limit width) none times) : Int) ≤ 2 * limit := by
  have hrun : (((trace (step limit width) none times).map (·.event)).Pairwise (· ≤ ·) →
      Counted limit width (trace (step limit width) none times)
          (run (step limit width) none times) ∧
        Begun (trace (step limit width) none times) (run (step limit width) none times)) := by
    refine run_trace_history (g := fun _ _ => True)
      (I := fun past w => (past.map (·.event)).Pairwise (· ≤ ·) →
        Counted limit width past w ∧ Begun past w)
      (fun past w now hw _ hordered => ?_) (guarded_true _ _) fun _ => ⟨⟨?_, ?_, ?_, ?_, ?_⟩, ?_⟩
    · rw [List.map_append, List.pairwise_append] at hordered
      obtain ⟨hcounted, hbegun⟩ := hw hordered.1
      refine counted_step hcounted hbegun (fun x hx => ?_) hlimit
      exact hordered.2.2 _ (List.mem_map_of_mem hx) now (List.mem_singleton_self _)
    · intro t
      simp [admittedIn]
      omega
    · exact fun _ => rfl
    all_goals exact fun _ h => by cases h
  rw [map_event_trace] at hrun
  exact (hrun hsorted).1.bound t

end Counted

end Lib.FixedWindow

/-! ## Sliding windows

A limiter admits a stamp when fewer than `n` of the stamps admitted before it are younger than
`width`.  It looks back from the stamp it admits; `Throttled.window` says what follows for every
window of that width, wherever it ends.  The stamps need not come in order.
-/

namespace Lib

variable {α : Type} [AddCommGroup α] [LinearOrder α] [IsOrderedAddMonoid α]

/-- Each stamp was admitted with fewer than `n` earlier ones in the window that it ends. -/
inductive Throttled (n : Nat) (width : α) : List α → Prop where
  | nil : Throttled n width []
  | snoc (stamps : List α) (stamp : α) (h : Throttled n width stamps)
      (hbelow : stamps.countP (fun s => stamp - width < s) < n) :
      Throttled n width (stamps ++ [stamp])

/-- No window has more than `n` of the stamps. -/
theorem Throttled.window {n : Nat} {width : α} {stamps : List α} (h : Throttled n width stamps)
    (last : α) : stamps.countP (fun s => last - width < s ∧ s ≤ last) ≤ n := by
  induction h with
  | nil => exact Nat.zero_le _
  | snoc stamps stamp h hbelow ih =>
    rw [List.countP_append, List.countP_singleton]
    by_cases hin : last - width < stamp ∧ stamp ≤ last
    · -- A window that has the new stamp looks back no further than the limiter did.
      have hearlier : stamps.countP (fun s => last - width < s ∧ s ≤ last) ≤
          stamps.countP (fun s => stamp - width < s) := by
        refine List.countP_mono_left fun s _ hs => ?_
        rw [decide_eq_true_eq] at hs ⊢
        exact lt_of_le_of_lt (sub_le_sub_right hin.2 width) hs.1
      rw [if_pos (decide_eq_true hin)]
      omega
    · rw [if_neg (by rw [decide_eq_true_eq]; exact hin)]
      omega

end Lib
