import Mathlib.Data.List.Forall2
import Mathlib.Data.List.Induction

/-!
# Hash chains with an unhashed prefix

A list of rows, oldest first.  Rows from before the chain began have a blank hash;
every later row has a hash that is right for it (`sound`) and the hash of the row
before it as its link.

* `linked_append` cuts a chain at any point;
* `Linked.agree` says that the newest hash fixes the chain: two chains of one length
  with the same newest hash agree in every row that is hashed in either.
-/

namespace Lib.Chain

/-- What a chain reads of its rows. -/
structure Reading (ρ η : Type) where
  hash : ρ → η
  prev : ρ → η
  /-- The hash of a row from before the chain. -/
  blank : η
  /-- The hash is the one of the row. -/
  sound : ρ → Prop

variable {ρ η β : Type} (c : Reading ρ η)

/-- The rows continue a chain: `link` is the hash before them, `hashed` whether a hashed
row came before. -/
def Linked : (link : η) → (hashed : Prop) → List ρ → Prop
  | _, _, [] => True
  | link, hashed, r :: rs =>
    (c.hash r = c.blank ∧ ¬ hashed ∧ Linked c.blank False rs) ∨
      (c.hash r ≠ c.blank ∧ c.prev r = link ∧ c.sound r ∧ Linked (c.hash r) True rs)

/-- The newest hash. -/
def tip : (link : η) → List ρ → η
  | link, [] => link
  | _, r :: rs => tip (c.hash r) rs

/-- There is a hashed row among these. -/
def Hashed (rs : List ρ) : Prop := ∃ r ∈ rs, c.hash r ≠ c.blank

variable {c}
variable {link : η} {hashed : Prop} {rs : List ρ}

@[simp] theorem linked_nil : Linked c link hashed [] := trivial

@[simp] theorem tip_nil (link : η) : tip c link [] = link := rfl

@[simp] theorem tip_cons (link : η) (r : ρ) (rs : List ρ) :
    tip c link (r :: rs) = tip c (c.hash r) rs := rfl

theorem tip_append (link : η) (rs rs' : List ρ) :
    tip c link (rs ++ rs') = tip c (tip c link rs) rs' := by
  induction rs generalizing link with
  | nil => rfl
  | cons r rs ih => exact ih (c.hash r)

theorem tip_eq_getLast? (link : η) (rs : List ρ) :
    tip c link rs = (rs.getLast?.map c.hash).getD link := by
  induction rs using List.reverseRecOn with
  | nil => rfl
  | append_singleton rs r _ => simp [tip_append]

@[simp] theorem hashed_nil : ¬ Hashed c [] := by
  rintro ⟨r, hr, -⟩
  cases hr

theorem hashed_cons {r : ρ} :
    Hashed c (r :: rs) ↔ c.hash r ≠ c.blank ∨ Hashed c rs := by
  simp [Hashed]

/-- A chain is a chain up to any row, and from there on. -/
theorem linked_append {rs' : List ρ} :
    Linked c link hashed (rs ++ rs') ↔
      Linked c link hashed rs ∧ Linked c (tip c link rs) (hashed ∨ Hashed c rs) rs' := by
  induction rs generalizing link hashed with
  | nil => simp
  | cons r rs ih =>
    by_cases hblank : c.hash r = c.blank
    · simp only [List.cons_append, Linked, hblank, ne_eq, not_true_eq_false, false_and, or_false,
        true_and, ih, tip_cons, hashed_cons, false_or]
      constructor
      · rintro ⟨hnot, hrs, hrs'⟩
        exact ⟨⟨hnot, hrs⟩, by simpa [hnot] using hrs'⟩
      · rintro ⟨⟨hnot, hrs⟩, hrs'⟩
        exact ⟨hnot, hrs, by simpa [hnot] using hrs'⟩
    · simp only [List.cons_append, Linked, hblank, ne_eq, not_false_eq_true, false_and, false_or,
        true_and, ih, tip_cons, hashed_cons, true_or, or_true, and_assoc]

/-- One more row. -/
theorem linked_snoc {r : ρ} :
    Linked c link hashed (rs ++ [r]) ↔ Linked c link hashed rs ∧
      ((c.hash r = c.blank ∧ ¬ (hashed ∨ Hashed c rs)) ∨
        (c.hash r ≠ c.blank ∧ c.prev r = tip c link rs ∧ c.sound r)) := by
  rw [linked_append]
  simp [Linked]

/-- A chain whose newest hash is blank has not begun. -/
theorem Linked.not_hashed (h : Linked c c.blank False rs) (htip : tip c c.blank rs = c.blank) :
    ¬ Hashed c rs := by
  induction rs using List.reverseRecOn with
  | nil => exact hashed_nil
  | append_singleton rs r ih =>
    rw [tip_append, tip_cons, tip_nil] at htip
    obtain ⟨hrs, hr | hr⟩ := linked_snoc.mp h
    · rintro ⟨x, hx, hne⟩
      rcases List.mem_append.mp hx with hx | hx
      · exact hr.2 (.inr ⟨x, hx, hne⟩)
      · rw [List.mem_singleton.mp hx] at hne
        exact hne htip
    · exact absurd htip hr.1

section Agree

variable {ok : η → Prop}

/-- What holds of the blank hash and of every sound one holds of the links. -/
theorem Linked.tip_ok (hblank : ok c.blank) (hsound : ∀ r, c.sound r → ok (c.hash r))
    {rs : List ρ} (h : Linked c c.blank False rs) : ok (tip c c.blank rs) := by
  induction rs using List.reverseRecOn with
  | nil => exact hblank
  | append_singleton rs r ih =>
    rw [tip_append, tip_cons, tip_nil]
    obtain ⟨-, hr | hr⟩ := linked_snoc.mp h
    · rw [hr.1]
      exact hblank
    · exact hsound r hr.2.2

/-- Two rows agree where the chain reads them. -/
def Agree (c : Reading ρ η) (body : ρ → β) (r r' : ρ) : Prop :=
  c.hash r ≠ c.blank ∨ c.hash r' ≠ c.blank →
    c.prev r = c.prev r' ∧ c.hash r = c.hash r' ∧ body r = body r'

/-- Rows from before the chain agree. -/
theorem agree_of_not_hashed {body : ρ → β} {rs rs' : List ρ} (hlength : rs.length = rs'.length)
    (hrs : ¬ Hashed c rs) (hrs' : ¬ Hashed c rs') : List.Forall₂ (Agree c body) rs rs' := by
  induction rs generalizing rs' with
  | nil =>
    cases rs' with
    | nil => exact .nil
    | cons r' rs' => cases hlength
  | cons r rs ih =>
    cases rs' with
    | nil => cases hlength
    | cons r' rs' =>
      rw [hashed_cons, not_or] at hrs hrs'
      refine .cons ?_ (ih (Nat.succ.inj hlength) hrs.2 hrs'.2)
      rintro (h | h)
      · exact absurd h hrs.1
      · exact absurd h hrs'.1

/-- Two chains of one length with the same newest hash agree, when a hash fixes the
link and the body of its row. -/
theorem Linked.agree {body : ρ → β} (hblank : ok c.blank)
    (hsound : ∀ r, c.sound r → ok (c.hash r)) {rs rs' : List ρ}
    (hfixes : ∀ r ∈ rs, ∀ r' ∈ rs', c.sound r → c.sound r' → ok (c.prev r) → ok (c.prev r') →
      c.hash r = c.hash r' → c.prev r = c.prev r' ∧ body r = body r')
    (hlength : rs.length = rs'.length) (h : Linked c c.blank False rs)
    (h' : Linked c c.blank False rs') (htip : tip c c.blank rs = tip c c.blank rs') :
    List.Forall₂ (Agree c body) rs rs' := by
  induction rs using List.reverseRecOn generalizing rs' with
  | nil =>
    cases rs' with
    | nil => exact .nil
    | cons r' rs' => cases hlength
  | append_singleton rs r ih =>
    cases rs' using List.reverseRecOn with
    | nil => simp at hlength
    | append_singleton rs' r' =>
      have hlength' : rs.length = rs'.length := by simpa using hlength
      by_cases hhash : c.hash r = c.blank
      · -- nothing has been hashed on either side
        have hnone := h.not_hashed (by rw [tip_append, tip_cons, tip_nil, hhash])
        have hnone' := h'.not_hashed (by
          rw [← htip, tip_append, tip_cons, tip_nil, hhash])
        exact agree_of_not_hashed hlength hnone hnone'
      · rw [tip_append, tip_append, tip_cons, tip_cons, tip_nil, tip_nil] at htip
        obtain ⟨hrs, hr⟩ := linked_snoc.mp h
        obtain ⟨hrs', hr'⟩ := linked_snoc.mp h'
        obtain ⟨-, hprev, hr⟩ := hr.resolve_left fun hr => hhash hr.1
        obtain ⟨-, hprev', hr'⟩ := hr'.resolve_left fun hr' => hhash (htip.trans hr'.1)
        obtain ⟨hlink, hbody⟩ := hfixes r (by simp) r' (by simp) hr hr'
          (by rw [hprev]; exact hrs.tip_ok hblank hsound)
          (by rw [hprev']; exact hrs'.tip_ok hblank hsound) htip
        have hrest : List.Forall₂ (Agree c body) rs rs' := by
          apply ih _ hlength' hrs hrs'
          · rw [← hprev, ← hprev', hlink]
          · intro x hx x' hx'
            exact hfixes x (List.mem_append_left _ hx) x' (List.mem_append_left _ hx')
        exact List.rel_append hrest (.cons (fun _ => ⟨hlink, htip, hbody⟩) .nil)

end Agree

end Lib.Chain
