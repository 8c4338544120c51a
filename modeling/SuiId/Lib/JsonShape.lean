import Mathlib.Data.List.Perm.Basic
import SuiId.Lib.Json

/-!
# Parts of a JSON document

`Part part v` is that `part` stands somewhere in the document `v`.  A document is `Unambiguous`
when no object in it repeats a name.

`collectFirst` is the reading that lets the first of two equal names win, where `collect` lets the
last one win.  They agree on an unambiguous document (`collectFirst_eq_collect`).  There `collect`
also drops nothing: the map of an object is a permutation of its members (`collectMembers_perm`).
-/

namespace Lib.Json

/-! ## Induction -/

/-- What holds of a container when it holds of what it contains holds of every document. -/
theorem induct {P : Json → Prop} (null : P .null) (bool : ∀ b, P (.bool b))
    (number : ∀ n, P (.number n)) (string : ∀ s, P (.string s))
    (array : ∀ items, (∀ v ∈ items, P v) → P (.array items))
    (object : ∀ members, (∀ m ∈ members, P m.2) → P (.object members)) (v : Json) : P v :=
  @Json.rec P (fun items => ∀ v ∈ items, P v) (fun members => ∀ m ∈ members, P m.2)
    (fun m => P m.2) null bool number string array object
    (fun _ hv => absurd hv List.not_mem_nil)
    (fun _ _ hv hrest => List.forall_mem_cons.mpr ⟨hv, hrest⟩)
    (fun _ hm => absurd hm List.not_mem_nil)
    (fun _ _ hm hrest => List.forall_mem_cons.mpr ⟨hm, hrest⟩)
    (fun _ _ hv => hv) v

variable {v part : Json} {items : List Json} {members : List (String × Json)}

/-! ## Parts -/

/-- A document is part of another. -/
inductive Part (part : Json) : Json → Prop where
  | refl : Part part part
  | item {items : List Json} {v : Json} (hv : v ∈ items) (inside : Part part v) :
      Part part (.array items)
  | member {members : List (String × Json)} {m : String × Json} (hm : m ∈ members)
      (inside : Part part m.2) : Part part (.object members)

theorem forall_part_array {Q : Json → Prop} :
    (∀ part, Part part (.array items) → Q part) ↔
      Q (.array items) ∧ ∀ v ∈ items, ∀ part, Part part v → Q part := by
  constructor
  · intro h
    exact ⟨h _ .refl, fun v hv part hpart => h part (.item hv hpart)⟩
  · rintro ⟨hself, hitems⟩ part hpart
    cases hpart with
    | refl => exact hself
    | item hv inside => exact hitems _ hv part inside

theorem forall_part_object {Q : Json → Prop} :
    (∀ part, Part part (.object members) → Q part) ↔
      Q (.object members) ∧ ∀ m ∈ members, ∀ part, Part part m.2 → Q part := by
  constructor
  · intro h
    exact ⟨h _ .refl, fun m hm part hpart => h part (.member hm hpart)⟩
  · rintro ⟨hself, hmembers⟩ part hpart
    cases hpart with
    | refl => exact hself
    | member hm inside => exact hmembers _ hm part inside

/-- A scalar has no other part than itself. -/
theorem Part.eq_of_scalar (harray : ∀ items, v ≠ .array items)
    (hobject : ∀ members, v ≠ .object members) (h : Part part v) : part = v := by
  cases h with
  | refl => rfl
  | item => exact absurd rfl (harray _)
  | member => exact absurd rfl (hobject _)

/-- No object of the document repeats a name. -/
def Unambiguous (v : Json) : Prop :=
  ∀ members, Part (.object members) v → (names members).Nodup

theorem unambiguous_array : Unambiguous (.array items) ↔ ∀ v ∈ items, Unambiguous v := by
  constructor
  · intro h v hv members hpart
    exact h members (.item hv hpart)
  · intro h members hpart
    cases hpart with
    | item hv inside => exact h _ hv members inside

theorem unambiguous_object :
    Unambiguous (.object members) ↔
      (names members).Nodup ∧ ∀ m ∈ members, Unambiguous m.2 := by
  constructor
  · intro h
    exact ⟨h members .refl, fun m hm members' hpart => h members' (.member hm hpart)⟩
  · rintro ⟨hnodup, hmembers⟩ members' hpart
    cases hpart with
    | refl => exact hnodup
    | member hm inside => exact hmembers _ hm members' inside

/-! ## The map of an object without repeats -/

private theorem insertMember_perm {name : String} {w : Json} {map : List (String × Json)}
    (h : name ∉ names map) : (insertMember name w map).Perm ((name, w) :: map) := by
  induction map with
  | nil => exact List.Perm.refl _
  | cons m rest ih =>
    obtain ⟨first, w'⟩ := m
    rw [names, List.map_cons, List.mem_cons, not_or] at h
    unfold insertMember
    rw [if_neg h.1]
    split
    · exact List.Perm.refl _
    · exact ((ih h.2).cons _).trans (List.Perm.swap _ _ _)

/-- An object whose names are all different is a map with the same members. -/
theorem collectMembers_perm (hnodup : (names members).Nodup) :
    (collectMembers members []).Perm (members.map fun m => (m.1, collect m.2)) := by
  have hall (members map : List (String × Json)) (hnodup : (names members).Nodup)
      (hfresh : ∀ name ∈ names members, name ∉ names map) :
      (collectMembers members map).Perm ((members.map fun m => (m.1, collect m.2)) ++ map) := by
    induction members generalizing map with
    | nil =>
      rw [collectMembers]
      exact List.Perm.refl _
    | cons m rest ih =>
      obtain ⟨name, w⟩ := m
      rw [names, List.map_cons, List.nodup_cons] at hnodup
      rw [names, List.map_cons, List.forall_mem_cons] at hfresh
      have hinsert := insertMember_perm (w := collect w) hfresh.1
      have hrest : ∀ name' ∈ names rest, name' ∉ names (insertMember name (collect w) map) := by
        intro name' hname' hmem
        rcases List.mem_cons.mp ((hinsert.map _).mem_iff.mp hmem) with rfl | hmem
        · exact hnodup.1 hname'
        · exact hfresh.2 name' hname' hmem
      rw [collectMembers]
      refine (ih _ hnodup.2 hrest).trans ?_
      rw [List.map_cons, List.cons_append]
      exact (hinsert.append_left _).trans List.perm_middle
  have hperm := hall members [] hnodup fun _ _ => List.not_mem_nil
  rwa [List.append_nil] at hperm

theorem collectItems_eq_map (items : List Json) : collectItems items = items.map collect := by
  induction items with
  | nil => rw [collectItems, List.map_nil]
  | cons v rest ih => rw [collectItems, ih, List.map_cons]

/-! ## The first of two equal names -/

mutual

/-- The document with its objects as maps, in which the first of two equal names wins. -/
def collectFirst : Json → Json
  | .null => .null
  | .bool b => .bool b
  | .number n => .number n
  | .string s => .string s
  | .array items => .array (collectFirstItems items)
  | .object members => .object (collectFirstMembers members [])

def collectFirstItems : List Json → List Json
  | [] => []
  | v :: rest => collectFirst v :: collectFirstItems rest

def collectFirstMembers : List (String × Json) → List (String × Json) → List (String × Json)
  | [], map => map
  | (name, v) :: rest, map =>
    collectFirstMembers rest
      (if (lookup name map).isSome then map else insertMember name (collectFirst v) map)

end

private theorem collectFirstMembers_eq {map : List (String × Json)}
    (hnodup : (names members).Nodup) (hfresh : ∀ name ∈ names members, lookup name map = none)
    (hvalues : ∀ m ∈ members, collectFirst m.2 = collect m.2) :
    collectFirstMembers members map = collectMembers members map := by
  induction members generalizing map with
  | nil => rw [collectFirstMembers, collectMembers]
  | cons m rest ih =>
    obtain ⟨name, w⟩ := m
    rw [names, List.map_cons, List.nodup_cons] at hnodup
    rw [names, List.map_cons, List.forall_mem_cons] at hfresh
    rw [List.forall_mem_cons] at hvalues
    have hnew : ¬(lookup name map).isSome = true := by
      rw [hfresh.1]
      exact Bool.false_ne_true
    rw [collectFirstMembers, collectMembers, if_neg hnew, hvalues.1]
    refine ih hnodup.2 (fun name' hname' => ?_) hvalues.2
    have hne : name ≠ name' := fun hsame => hnodup.1 (hsame ▸ hname')
    rw [lookup_insertMember, if_neg hne]
    exact hfresh.2 name' hname'

/-- Both readings of an unambiguous document are the same. -/
theorem collectFirst_eq_collect (h : Unambiguous v) : collectFirst v = collect v := by
  induction v using induct with
  | null | bool | number | string => rw [collectFirst, collect]
  | array items ih =>
    rw [unambiguous_array] at h
    have hitems : ∀ items : List Json, (∀ v ∈ items, collectFirst v = collect v) →
        collectFirstItems items = collectItems items := by
      intro items hall
      induction items with
      | nil => rw [collectFirstItems, collectItems]
      | cons v rest ih =>
        rw [List.forall_mem_cons] at hall
        rw [collectFirstItems, collectItems, hall.1, ih hall.2]
    rw [collectFirst, collect, hitems items fun v hv => ih v hv (h v hv)]
  | object members ih =>
    rw [unambiguous_object] at h
    rw [collectFirst, collect]
    congr 1
    exact collectFirstMembers_eq h.1 (fun _ _ => rfl) fun m hm => ih m hm (h.2 m hm)

end Lib.Json
