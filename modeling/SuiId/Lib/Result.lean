import Mathlib.Logic.Basic
import Mathlib.Data.List.Forall2

/-!
# Fallible steps

Sequencing in `Except` with two checks, `ensure` and `require`, and the
lemmas that turn "this sequence returned `ok`" into the list of what each of
its steps returned.  `inOrder` runs steps that commit one by one: it stops at the
first that fails, and what the steps before it did stays.
-/

namespace Lib.Result

variable {ε α β : Type}

/-- Go on only when `c` holds. -/
def ensure (c : Bool) (e : ε) : Except ε Unit :=
  if c then .ok () else .error e

/-- Go on only when the value is there. -/
def require (x : Option α) (e : ε) : Except ε α :=
  match x with
  | some a => .ok a
  | none => .error e

variable {x : Except ε α} {b : β} {a : α} {l : List α}
variable {f : α → Except ε β} {e : ε} {u : Unit} {bs : List β}

theorem bind_eq_ok :
    x >>= f = .ok b ↔ ∃ a, x = .ok a ∧ f a = .ok b := by
  rcases x with e | a
  · constructor
    · intro h
      cases h
    · rintro ⟨a, ha, -⟩
      cases ha
  · refine ⟨fun h => ⟨a, rfl, h⟩, ?_⟩
    rintro ⟨a', ha', h⟩
    cases ha'
    exact h

theorem pure_eq_ok {b : α} : (pure a : Except ε α) = .ok b ↔ a = b :=
  ⟨fun h => Except.ok.inj h, fun h => h ▸ rfl⟩

theorem map_eq_ok {f : α → β} :
    x.map f = .ok b ↔ ∃ a, x = .ok a ∧ f a = b := by
  cases x with
  | error e => simp [Except.map]
  | ok a => simp [Except.map]

theorem mapError_eq_ok {ε' : Type} {f : ε → ε'} :
    x.mapError f = .ok a ↔ x = .ok a := by
  cases x with
  | error e =>
    constructor
    · intro h
      cases h
    · intro h
      cases h
  | ok b =>
    constructor
    · intro h
      exact congrArg Except.ok (Except.ok.inj h)
    · intro h
      exact congrArg Except.ok (Except.ok.inj h)

theorem ensure_eq_ok {c : Bool} : ensure c e = .ok u ↔ c = true := by
  cases c with
  | false => simp [ensure]
  | true => simp [ensure]

theorem require_eq_ok {x : Option α} : require x e = .ok a ↔ x = some a := by
  cases x with
  | none => simp [require]
  | some b => simp [require]

/-- A list of steps returns the list of what each returned. -/
theorem mapM_eq_ok :
    l.mapM f = .ok bs ↔ List.Forall₂ (fun a b => f a = .ok b) l bs := by
  induction l generalizing bs with
  | nil =>
    rw [List.mapM_nil, pure_eq_ok, List.forall₂_nil_left_iff, eq_comm]
  | cons a l ih =>
    rw [List.mapM_cons, List.forall₂_cons_left_iff]
    simp only [bind_eq_ok, pure_eq_ok, ih]
    constructor
    · rintro ⟨b, hb, bs, hbs, rfl⟩
      exact ⟨b, bs, hb, hbs, rfl⟩
    · rintro ⟨b, bs, hb, hbs, rfl⟩
      exact ⟨b, hb, bs, hbs, rfl⟩

/-- A check of a list passes each element. -/
theorem forM_eq_ok {f : α → Except ε Unit} (h : l.forM f = .ok u) :
    ∀ a ∈ l, f a = .ok () := by
  induction l with
  | nil =>
    intro a ha
    cases ha
  | cons b l ih =>
    have hcons : (f b >>= fun _ => l.forM f) = .ok u := h
    obtain ⟨⟨⟩, hb, hrest⟩ := bind_eq_ok.mp hcons
    intro a ha
    rcases List.mem_cons.mp ha with rfl | ha
    · exact hb
    · exact ih hrest a ha

/-- Each of what was returned was returned for an element. -/
theorem exists_of_mem_right {R : α → β → Prop} (h : List.Forall₂ R l bs) (hb : b ∈ bs) :
    ∃ a ∈ l, R a b := by
  induction h with
  | nil => cases hb
  | cons hrel _ ih =>
    rcases List.mem_cons.mp hb with rfl | hb
    · exact ⟨_, List.mem_cons_self, hrel⟩
    · obtain ⟨a, ha, hrel⟩ := ih hb
      exact ⟨a, List.mem_cons_of_mem _ ha, hrel⟩

/-! ## Steps that commit one by one -/

section InOrder

variable {π σ : Type}

/-- Each step in order, up to the first that fails. -/
def inOrder (step : π → σ → Except ε Unit × σ) : List π → σ → Except ε Unit × σ
  | [], s => (.ok (), s)
  | p :: ps, s =>
    match step p s with
    | (.ok (), s) => inOrder step ps s
    | (.error e, s) => (.error e, s)

variable {step : π → σ → Except ε Unit × σ}
variable {ps : List π} {s t : σ}

/-- A run that fails completed the steps before one, and that one failed. -/
theorem inOrder_error {e : ε} (h : inOrder step ps s = (.error e, t)) :
    ∃ before p after s', ps = before ++ p :: after ∧ inOrder step before s = (.ok (), s') ∧
      step p s' = (.error e, t) := by
  induction ps generalizing s with
  | nil => cases h
  | cons p ps ih =>
    rcases hp : step p s with ⟨e' | ⟨⟩, s'⟩
    · have ht : ((.error e', s') : Except ε Unit × σ) = (.error e, t) := by
        simpa only [inOrder, hp] using h
      exact ⟨[], p, ps, s, rfl, rfl, hp.trans ht⟩
    · have hrest : inOrder step ps s' = (.error e, t) := by
        simpa only [inOrder, hp] using h
      obtain ⟨before, q, after, s'', rfl, hbefore, hq⟩ := ih hrest
      refine ⟨p :: before, q, after, s'', rfl, ?_, hq⟩
      rw [inOrder, hp]
      exact hbefore

/-- What each step adds to the steps that are done holds of a run that ends. -/
theorem inOrder_ok {R : List π → σ → Prop}
    (hstep : ∀ {before p s s'}, R before s → step p s = (.ok (), s') → R (before ++ [p]) s')
    {before : List π} (h : inOrder step ps s = (.ok (), t)) (hs : R before s) :
    R (before ++ ps) t := by
  induction ps generalizing before s with
  | nil =>
    cases h
    rw [List.append_nil]
    exact hs
  | cons p ps ih =>
    rcases hp : step p s with ⟨e | ⟨⟩, s'⟩
    · simp only [inOrder, hp, Prod.mk.injEq, reduceCtorEq, false_and] at h
    · simp only [inOrder, hp] at h
      have ht := ih h (hstep hs hp)
      rwa [List.append_assoc] at ht

end InOrder

end Lib.Result
