import Mathlib.Data.List.Basic

/-!
# Machines that answer every event

A machine is a total function `step : σ → ε → σ × ω`: whatever the state, an
event produces a next state and an answer (a refused command answers with its
error and leaves the state alone).  A run is a list of events, so a theorem
about every list is a theorem about every order in which concurrent callers
can take their steps.

* `run` is the state after a run and `trace` the list of its steps;
* `Guarded g` says that each step was taken in a state meeting `g`;
* `run_invariant` lifts a step lemma to whole runs, and `trace_invariant` to
  the state in which each step is taken; `trace_history` is the same for an
  invariant that speaks about the steps before;
* `countP_trace_le_one` is the rule for "at most once": the event leads into a
  closed set of states from which it cannot happen again.
-/

namespace Lib.Machine

variable {σ ε ω : Type}

/-- One step of a run: the state it was taken in, the event and the answer. -/
structure Taken (σ ε ω : Type) where
  pre : σ
  event : ε
  out : ω

section Run

variable (step : σ → ε → σ × ω)

/-- The state after a run. -/
def run : σ → List ε → σ
  | s, [] => s
  | s, e :: es => run (step s e).1 es

/-- The steps of a run, in order. -/
def trace : σ → List ε → List (Taken σ ε ω)
  | _, [] => []
  | s, e :: es => ⟨s, e, (step s e).2⟩ :: trace (step s e).1 es

/-- Every step of the run is taken in a state that meets the guard. -/
def Guarded (g : σ → ε → Prop) : σ → List ε → Prop
  | _, [] => True
  | s, e :: es => g s e ∧ Guarded g (step s e).1 es

end Run

variable {step : σ → ε → σ × ω}

@[simp] theorem run_nil (s : σ) : run step s [] = s := rfl

@[simp] theorem run_cons (s : σ) (e : ε) (es : List ε) :
    run step s (e :: es) = run step (step s e).1 es := rfl

@[simp] theorem trace_nil (s : σ) : trace step s [] = [] := rfl

@[simp] theorem trace_cons (s : σ) (e : ε) (es : List ε) :
    trace step s (e :: es) = ⟨s, e, (step s e).2⟩ :: trace step (step s e).1 es := rfl

variable {g g' : σ → ε → Prop} {s : σ} {es : List ε} {past rest : List (Taken σ ε ω)}
  {x : Taken σ ε ω} {I : σ → Prop}

@[simp] theorem guarded_nil (s : σ) : Guarded step g s [] := trivial

@[simp] theorem guarded_cons {e : ε} :
    Guarded step g s (e :: es) ↔ g s e ∧ Guarded step g (step s e).1 es := Iff.rfl

/-- A decidable guard can be checked along a run. -/
instance decidableGuarded {g : σ → ε → Prop} [∀ s e, Decidable (g s e)] :
    ∀ (s : σ) (es : List ε), Decidable (Guarded step g s es)
  | _, [] => inferInstanceAs (Decidable True)
  | s, e :: es =>
    have : Decidable (Guarded step g (step s e).1 es) := decidableGuarded _ es
    inferInstanceAs (Decidable (g s e ∧ Guarded step g (step s e).1 es))

theorem run_append (s : σ) (es es' : List ε) :
    run step s (es ++ es') = run step (run step s es) es' := by
  induction es generalizing s with
  | nil => rfl
  | cons e es ih => exact ih _

theorem trace_append (s : σ) (es es' : List ε) :
    trace step s (es ++ es') = trace step s es ++ trace step (run step s es) es' := by
  induction es generalizing s with
  | nil => rfl
  | cons e es ih => simp [ih]

/-- The events of a run are those of its steps. -/
theorem map_event_trace (s : σ) (es : List ε) : (trace step s es).map (·.event) = es := by
  induction es generalizing s with
  | nil => rfl
  | cons e es ih => simp [ih]

/-- The last step of a run. -/
theorem mem_trace_last (s : σ) (es : List ε) (e : ε) :
    ⟨run step s es, e, (step (run step s es) e).2⟩ ∈ trace step s (es ++ [e]) := by
  rw [trace_append]
  exact List.mem_append_right _ (List.mem_singleton_self _)

/-- A run that is cut in two. -/
theorem trace_eq_append (h : trace step s es = past ++ rest) :
    ∃ es₁ es₂, es = es₁ ++ es₂ ∧ past = trace step s es₁ ∧
      rest = trace step (run step s es₁) es₂ := by
  induction past generalizing s es with
  | nil => exact ⟨[], es, rfl, rfl, h.symm⟩
  | cons x past ih =>
    cases es with
    | nil => cases h
    | cons e es =>
      obtain ⟨rfl, htail⟩ := List.cons.inj h
      obtain ⟨es₁, es₂, rfl, rfl, hrest⟩ := ih htail
      exact ⟨e :: es₁, es₂, rfl, rfl, hrest⟩

/-- Where a step of a run stands: after the events before it, and before those after it. -/
theorem trace_eq_append_cons (h : trace step s es = past ++ x :: rest) :
    ∃ es₁ es₂, es = es₁ ++ x.event :: es₂ ∧ past = trace step s es₁ ∧ x.pre = run step s es₁ ∧
      x.out = (step x.pre x.event).2 ∧ rest = trace step (step x.pre x.event).1 es₂ := by
  obtain ⟨es₁, es₂, rfl, rfl, hrest⟩ := trace_eq_append h
  cases es₂ with
  | nil => cases hrest
  | cons e es₂ =>
    obtain ⟨rfl, rfl⟩ := List.cons.inj hrest
    exact ⟨es₁, es₂, rfl, rfl, rfl, rfl, rfl⟩

theorem guarded_append {es' : List ε} :
    Guarded step g s (es ++ es') ↔
      Guarded step g s es ∧ Guarded step g (run step s es) es' := by
  induction es generalizing s with
  | nil => simp
  | cons e es ih => simp [ih, and_assoc]

theorem Guarded.mono (hg : ∀ s e, g s e → g' s e) (h : Guarded step g s es) :
    Guarded step g' s es := by
  induction es generalizing s with
  | nil => trivial
  | cons e es ih => exact ⟨hg _ _ h.1, ih h.2⟩

theorem guarded_congr (hg : ∀ s e, g s e ↔ g' s e) :
    Guarded step g s es ↔ Guarded step g' s es :=
  ⟨.mono fun s e => (hg s e).mp, .mono fun s e => (hg s e).mpr⟩

theorem Guarded.and (h : Guarded step g s es) (h' : Guarded step g' s es) :
    Guarded step (fun s e => g s e ∧ g' s e) s es := by
  induction es generalizing s with
  | nil => trivial
  | cons e es ih => exact ⟨⟨h.1, h'.1⟩, ih h.2 h'.2⟩

/-- A property kept by every guarded step holds after every guarded run. -/
theorem run_invariant (hstep : ∀ s e, I s → g s e → I (step s e).1) (hg : Guarded step g s es)
    (hs : I s) : I (run step s es) := by
  induction es generalizing s with
  | nil => exact hs
  | cons e es ih => exact ih hg.2 (hstep s e hs hg.1)

/-- What an invariant gives about each step holds along every run. -/
theorem guarded_of_invariant (hstep : ∀ s e, I s → I (step s e).1) (hg : ∀ s e, I s → g s e)
    (hs : I s) (es : List ε) : Guarded step g s es := by
  induction es generalizing s with
  | nil => trivial
  | cons e es ih => exact ⟨hg s e hs, ih (hstep s e hs)⟩

/-- The invariant also holds in the state in which each step is taken. -/
theorem trace_invariant (hstep : ∀ s e, I s → g s e → I (step s e).1) (hg : Guarded step g s es)
    (hs : I s) (hx : x ∈ trace step s es) :
    I x.pre ∧ g x.pre x.event ∧ x.out = (step x.pre x.event).2 := by
  induction es generalizing s with
  | nil => cases hx
  | cons e es ih =>
    rcases List.mem_cons.mp hx with rfl | hx
    · exact ⟨hs, hg.1, rfl⟩
    · exact ih hg.2 (hstep s e hs hg.1) hx

/-- From a step into a closed set of states on, every step is taken in it. -/
theorem trace_after {D : σ → Prop} (hstep : ∀ s e, I s → g s e → I (step s e).1)
    (hclosed : ∀ s e, I s → g s e → D s → D (step s e).1) (hg : Guarded step g s es) (hs : I s)
    (hx : trace step s es = past ++ x :: rest) (hd : D (step x.pre x.event).1) {y : Taken σ ε ω}
    (hy : y ∈ rest) :
    (I y.pre ∧ D y.pre) ∧ g y.pre y.event ∧ y.out = (step y.pre y.event).2 := by
  have hboth : ∀ s e, I s ∧ D s → g s e → I (step s e).1 ∧ D (step s e).1 :=
    fun s e h hge => ⟨hstep s e h.1 hge, hclosed s e h.1 hge h.2⟩
  obtain ⟨es₁, es₂, rfl, -, hpre, -, rfl⟩ := trace_eq_append_cons hx
  obtain ⟨hpast, hstarts, hrest⟩ := guarded_append.mp hg
  rw [← hpre] at hstarts hrest
  have hI : I x.pre := hpre ▸ run_invariant hstep hpast hs
  exact trace_invariant hboth hrest ⟨hstep _ _ hI hstarts, hd⟩ hy

/-- An invariant may speak about the steps taken so far. -/
theorem run_trace_history {I : List (Taken σ ε ω) → σ → Prop}
    (hstep : ∀ past s e, I past s → g s e → I (past ++ [⟨s, e, (step s e).2⟩]) (step s e).1)
    (hg : Guarded step g s es) (hs : I [] s) :
    I (trace step s es) (run step s es) := by
  have hgen : ∀ {past : List (Taken σ ε ω)} {s : σ} {es : List ε},
      Guarded step g s es → I past s → I (past ++ trace step s es) (run step s es) := by
    intro past s es
    induction es generalizing past s with
    | nil =>
      intro _ hs
      rw [trace_nil, List.append_nil]
      exact hs
    | cons e es ih =>
      intro hg hs
      rw [trace_cons, List.append_cons]
      exact ih hg.2 (hstep past s e hs hg.1)
  exact hgen hg hs

/-- It may speak about the events alone. -/
theorem run_history {I : List ε → σ → Prop}
    (hstep : ∀ past s e, I past s → g s e → I (past ++ [e]) (step s e).1)
    (hg : Guarded step g s es) (hs : I [] s) : I es (run step s es) := by
  have hevents := run_trace_history (I := fun past s => I (past.map (·.event)) s)
    (fun past s e hI hge => by
      rw [List.map_append]
      exact hstep _ s e hI hge) hg hs
  rwa [map_event_trace] at hevents

/-- It holds where each step is taken, of the steps before it. -/
theorem trace_history {I : List (Taken σ ε ω) → σ → Prop}
    (hstep : ∀ past s e, I past s → g s e → I (past ++ [⟨s, e, (step s e).2⟩]) (step s e).1)
    (hg : Guarded step g s es) (hs : I [] s) (hx : trace step s es = past ++ x :: rest) :
    I past x.pre ∧ g x.pre x.event ∧ x.out = (step x.pre x.event).2 := by
  obtain ⟨es₁, es₂, rfl, rfl, hpre, hout, -⟩ := trace_eq_append_cons hx
  obtain ⟨hpast, hrest⟩ := guarded_append.mp hg
  rw [hpre] at hout ⊢
  exact ⟨run_trace_history hstep hpast hs, hrest.1, hout⟩

/-- A guard on events alone holds along a run when it holds of its events. -/
theorem guarded_of_forall {g : ε → Prop} (h : ∀ e ∈ es, g e) :
    Guarded step (fun _ e => g e) s es := by
  induction es generalizing s with
  | nil => trivial
  | cons e es ih =>
    exact ⟨h e List.mem_cons_self, ih fun e' he' => h e' (List.mem_cons_of_mem e he')⟩

theorem guarded_true (s : σ) (es : List ε) : Guarded step (fun _ _ => True) s es := by
  induction es generalizing s with
  | nil => trivial
  | cons e es ih => exact ⟨trivial, ih _⟩

/-- A step that leads into a closed set of states, from which it cannot be
taken, is taken at most once. -/
theorem countP_trace_le_one {D : σ → Prop} {P : Taken σ ε ω → Bool}
    (hstep : ∀ s e, I s → g s e → I (step s e).1)
    (henter : ∀ s e, I s → g s e → P ⟨s, e, (step s e).2⟩ = true → D (step s e).1)
    (hclosed : ∀ s e, I s → g s e → D s → D (step s e).1)
    (hdone : ∀ s e, I s → g s e → D s → P ⟨s, e, (step s e).2⟩ = false) (hg : Guarded step g s es)
    (hs : I s) :
    (trace step s es).countP P ≤ 1 := by
  have hzero : ∀ {s : σ} {es : List ε}, Guarded step g s es → I s → D s →
      (trace step s es).countP P = 0 := by
    intro s es
    induction es generalizing s with
    | nil => intros; rfl
    | cons e es ih =>
      intro hg hs hd
      rw [trace_cons, List.countP_cons_of_neg (by simp [hdone s e hs hg.1 hd])]
      exact ih hg.2 (hstep s e hs hg.1) (hclosed s e hs hg.1 hd)
  induction es generalizing s with
  | nil => simp
  | cons e es ih =>
    rw [trace_cons]
    cases hp : P ⟨s, e, (step s e).2⟩ with
    | false =>
      rw [List.countP_cons_of_neg (by simp [hp])]
      exact ih hg.2 (hstep s e hs hg.1)
    | true =>
      have hrest := hzero hg.2 (hstep s e hs hg.1) (henter s e hs hg.1 hp)
      rw [List.countP_cons_of_pos hp]
      omega

end Lib.Machine
