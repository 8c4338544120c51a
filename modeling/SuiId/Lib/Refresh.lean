import Mathlib.Data.List.Basic

/-!
# Values refreshed by read and store

A cached copy of a value is refreshed by tasks that read the value first and store what they have
read later.  The value may change in between, and tasks may overlap.

The copy is sure to become current when it is current already, or when a task is on its way that
has still to read, or that holds the current value.  `Refreshed` says so.  It survives

* a change of the value, while some task has still to read (`Refreshed.changed`);
* the start of a task (`Refreshed.append`) and its reading (`Refreshed.set`);
* the end of a task that others make up for (`Refreshed.store_set`, `Refreshed.eraseIdx`).

When no task is left, the copy is the value (`Refreshed.settled`).
-/

namespace Lib

/-- A task, as one cached value sees it. -/
inductive Pending (α : Type) where
  | reads
  | holds (value : α)
  | unrelated
deriving DecidableEq

namespace Pending

variable {α : Type} [DecidableEq α]

/-- The task, left alone, makes the copy current. -/
def settles (current : α) : Pending α → Bool
  | .reads => true
  | .holds value => value = current
  | .unrelated => false

@[simp] theorem settles_reads (current : α) : settles current .reads = true := rfl

@[simp] theorem settles_holds {current value : α} :
    settles current (.holds value) = true ↔ value = current := decide_eq_true_iff

@[simp] theorem settles_unrelated (current : α) : settles current .unrelated = false := rfl

end Pending

section Refreshed

variable {α ρ : Type} [DecidableEq α]

/-- Some task makes the copy current. -/
def settledBy (view : ρ → Pending α) (current : α) (tasks : List ρ) : Bool :=
  tasks.any fun r => (view r).settles current

/-- The copy is current, or some task makes it so. -/
def Refreshed (view : ρ → Pending α) (current cached : α) (tasks : List ρ) : Prop :=
  cached = current ∨ settledBy view current tasks = true

variable {view : ρ → Pending α} {current cached : α} {tasks : List ρ}

theorem settledBy_iff :
    settledBy view current tasks = true ↔ ∃ r ∈ tasks, (view r).settles current = true :=
  List.any_eq_true

theorem Refreshed.append (h : Refreshed view current cached tasks) (more : List ρ) :
    Refreshed view current cached (tasks ++ more) :=
  h.imp_right fun h => by rw [settledBy, List.any_append, Bool.or_eq_true]; exact .inl h

/-- A task that has still to read makes up for any change. -/
theorem Refreshed.changed {r : ρ} (hr : r ∈ tasks) (hreads : view r = .reads) (current : α) :
    Refreshed view current cached tasks :=
  .inr (settledBy_iff.mpr ⟨r, hr, by rw [hreads, Pending.settles_reads]⟩)

theorem Refreshed.settled (h : Refreshed view current cached []) : cached = current :=
  h.resolve_right Bool.false_ne_true

/-- A task goes on, no worse than before. -/
theorem Refreshed.set {i : Nat} {r r' : ρ} (h : Refreshed view current cached tasks)
    (hr : tasks[i]? = some r)
    (hsettles : (view r).settles current = true → (view r').settles current = true) :
    Refreshed view current cached (tasks.set i r') := by
  refine h.imp_right fun h => ?_
  obtain ⟨x, hx, hsx⟩ := settledBy_iff.mp h
  obtain ⟨j, hj⟩ := List.mem_iff_getElem?.mp hx
  have hi : i < tasks.length := (List.getElem?_eq_some_iff.mp hr).1
  by_cases hij : i = j
  · subst hij
    obtain rfl := Option.some.inj (hr.symm.trans hj)
    exact settledBy_iff.mpr ⟨r', List.mem_set hi r', hsettles hsx⟩
  · refine settledBy_iff.mpr ⟨x, List.mem_iff_getElem?.mpr ⟨j, ?_⟩, hsx⟩
    rw [List.getElem?_set_ne hij, hj]

/-- A task ends that would not have made the copy current. -/
theorem Refreshed.eraseIdx {i : Nat} {r : ρ} (h : Refreshed view current cached tasks)
    (hr : tasks[i]? = some r) (hsettles : (view r).settles current = false) :
    Refreshed view current cached (tasks.eraseIdx i) := by
  refine h.imp_right fun h => ?_
  obtain ⟨x, hx, hsx⟩ := settledBy_iff.mp h
  obtain ⟨j, hj⟩ := List.mem_iff_getElem?.mp hx
  have hij : j ≠ i := by
    rintro rfl
    obtain rfl := Option.some.inj (hr.symm.trans hj)
    exact absurd (hsx.symm.trans hsettles) nofun
  exact settledBy_iff.mpr ⟨x, List.mem_eraseIdx_iff_getElem?.mpr ⟨j, hij, hj⟩, hsx⟩

/-- A task stores, before it goes on, what is current or what another task makes up for. -/
theorem Refreshed.store_set {i : Nat} {value : α} (r' : ρ)
    (h : value = current ∨ settledBy view current (tasks.eraseIdx i) = true) :
    Refreshed view current value (tasks.set i r') := by
  refine h.imp_right fun h => ?_
  obtain ⟨x, hx, hsx⟩ := settledBy_iff.mp h
  obtain ⟨j, hij, hj⟩ := List.mem_eraseIdx_iff_getElem?.mp hx
  refine settledBy_iff.mpr ⟨x, List.mem_iff_getElem?.mpr ⟨j, ?_⟩, hsx⟩
  rw [List.getElem?_set_ne (Ne.symm hij), hj]

end Refreshed

end Lib
