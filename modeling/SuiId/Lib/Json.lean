import Mathlib.Algebra.Group.Int.Defs
import Mathlib.Algebra.Group.Nat.Defs
import Mathlib.Data.List.Nodup

/-!
# JSON

A document as its text gives it: the members of an object stand in their order, and a name may
stand there twice.  `collect` is the reading that keeps an object as a map: sorted by name, and
the last of two equal names wins.

`get?_collect` says that the two readings agree on an object whose names are all different.
`record` is the reading of a record type, which skips names that are not its fields.
-/

namespace Lib

/-! ## Documents -/

/-- A number that is an integer of 64 bits, or the bits of a float. -/
inductive Json.Number where
  | posInt (n : UInt64)
  | negInt (n : Int64)
  | float (bits : UInt64)
deriving DecidableEq

/-- A document. -/
inductive Json where
  | null
  | bool (b : Bool)
  | number (n : Json.Number)
  | string (s : String)
  | array (items : List Json)
  | object (members : List (String × Json))

namespace Json

/-- The names of an object, in their order. -/
def names (members : List (String × Json)) : List String := members.map (·.1)

/-- The first member of that name. -/
def lookup (name : String) (members : List (String × Json)) : Option Json :=
  (members.find? fun m => m.1 == name).map (·.2)

/-- A member of an object. -/
def get? (v : Json) (name : String) : Option Json :=
  match v with
  | .object members => lookup name members
  | _ => none

/-- The text of a string. -/
def asStr? : Json → Option String
  | .string s => some s
  | _ => none

/-- The items of an array. -/
def asArray? : Json → Option (List Json)
  | .array items => some items
  | _ => none

/-- The document is an object. -/
def isObject : Json → Bool
  | .object _ => true
  | _ => false

variable {v : Json} {name : String} {members : List (String × Json)}
variable {s : String} {items : List Json} {w : Json} {fields : List (String × Option Json)}

theorem asStr?_eq_some : v.asStr? = some s ↔ v = .string s := by
  cases v <;> simp [asStr?]

theorem asArray?_eq_some :
    v.asArray? = some items ↔ v = .array items := by
  cases v <;> simp [asArray?]

theorem isObject_of_get? (h : v.get? name = some w) :
    v.isObject = true := by
  cases v with
  | object members => rfl
  | null => cases h
  | bool b => cases h
  | number n => cases h
  | string s => cases h
  | array items => cases h

theorem isObject_iff : v.isObject = true ↔ ∃ members, v = .object members := by
  cases v <;> simp [isObject]

/-! ## Maps -/

/-- Put a member into a map that is sorted by name. -/
def insertMember (name : String) (v : Json) : List (String × Json) → List (String × Json)
  | [] => [(name, v)]
  | (name', v') :: rest =>
    if name = name' then (name, v) :: rest
    else if name < name' then (name, v) :: (name', v') :: rest
    else (name', v') :: insertMember name v rest

mutual

/-- The document with its objects as maps. -/
def collect : Json → Json
  | .null => .null
  | .bool b => .bool b
  | .number n => .number n
  | .string s => .string s
  | .array items => .array (collectItems items)
  | .object members => .object (collectMembers members [])

def collectItems : List Json → List Json
  | [] => []
  | v :: rest => collect v :: collectItems rest

def collectMembers : List (String × Json) → List (String × Json) → List (String × Json)
  | [], map => map
  | (name, v) :: rest, map => collectMembers rest (insertMember name (collect v) map)

end

@[simp] theorem isObject_collect (v : Json) : v.collect.isObject = v.isObject := by
  cases v <;> rw [collect] <;> rfl

theorem lookup_insertMember (name name' : String) (v : Json) (map : List (String × Json)) :
    lookup name' (insertMember name v map) =
      if name = name' then some v else lookup name' map := by
  induction map with
  | nil =>
    by_cases h : name = name' <;> simp [insertMember, lookup, h]
  | cons m rest ih =>
    obtain ⟨first, v'⟩ := m
    unfold insertMember
    by_cases hsame : name = first
    · subst hsame
      by_cases h : name = name' <;> simp [lookup, h]
    · rw [if_neg hsame]
      by_cases hlt : name < first
      · rw [if_pos hlt]
        by_cases h : name = name' <;> simp [lookup, h]
      · rw [if_neg hlt]
        by_cases h : first = name'
        · subst h
          rw [if_neg hsame]
          simp [lookup]
        · have hskip : ∀ l, lookup name' ((first, v') :: l) = lookup name' l := by
            intro l
            simp [lookup, h]
          rw [hskip, hskip, ih]

theorem lookup_collectMembers_of_notMem (h : name ∉ names members) (map : List (String × Json)) :
    lookup name (collectMembers members map) = lookup name map := by
  induction members generalizing map with
  | nil => rw [collectMembers]
  | cons m rest ih =>
    obtain ⟨first, v⟩ := m
    simp only [names, List.map_cons, List.mem_cons, not_or] at h
    rw [collectMembers, ih h.2, lookup_insertMember, if_neg (Ne.symm h.1)]

theorem lookup_collectMembers_eq_none {map : List (String × Json)} :
    lookup name (collectMembers members map) = none ↔
      name ∉ names members ∧ lookup name map = none := by
  induction members generalizing map with
  | nil => simp [collectMembers, names]
  | cons m rest ih =>
    obtain ⟨first, v⟩ := m
    rw [collectMembers, ih, lookup_insertMember]
    by_cases hsame : first = name
    · simp [hsame, names]
    · simp [hsame, Ne.symm hsame, names]

theorem lookup_collectMembers_of_mem (hnodup : (names members).Nodup) (h : (name, v) ∈ members)
    (map : List (String × Json)) :
    lookup name (collectMembers members map) = some (collect v) := by
  induction members generalizing map with
  | nil => cases h
  | cons m rest ih =>
    obtain ⟨first, v'⟩ := m
    rw [names, List.map_cons, List.nodup_cons] at hnodup
    rw [collectMembers]
    rcases List.mem_cons.mp h with heq | hrest
    · cases heq
      rw [lookup_collectMembers_of_notMem hnodup.1, lookup_insertMember, if_pos rfl]
    · exact ih hnodup.2 hrest _

/-- A map has the names of its object, whether they are all different or not. -/
theorem get?_collect_eq_none :
    (collect (.object members)).get? name = none ↔ name ∉ names members := by
  rw [collect]
  exact lookup_collectMembers_eq_none.trans (and_iff_left rfl)

/-- The map of an object whose names are all different holds its members and no others. -/
theorem get?_collect (hnodup : (names members).Nodup) :
    (collect (.object members)).get? name = some w ↔ ∃ v, (name, v) ∈ members ∧ collect v = w := by
  rw [collect]
  show lookup name (collectMembers members []) = some w ↔ _
  by_cases hmem : name ∈ names members
  · obtain ⟨⟨name', v⟩, hv, rfl⟩ := List.mem_map.mp hmem
    rw [lookup_collectMembers_of_mem hnodup hv]
    constructor
    · intro h
      exact ⟨v, hv, Option.some.inj h⟩
    · rintro ⟨v', hv', rfl⟩
      have hsame : v' = v := by
        have hpair := List.inj_on_of_nodup_map hnodup hv' hv rfl
        exact congrArg Prod.snd hpair
      rw [hsame]
  · rw [lookup_collectMembers_of_notMem hmem]
    refine iff_of_false (fun h => by cases h) ?_
    rintro ⟨v, hv, -⟩
    exact hmem (List.mem_map.mpr ⟨_, hv, rfl⟩)

/-! ## Scalars -/

theorem collect_eq_string : collect v = .string s ↔ v = .string s := by
  cases v <;> simp [collect]

theorem collect_eq_number {n : Number} : collect v = .number n ↔ v = .number n := by
  cases v <;> simp [collect]

theorem collectItems_strings {texts : List String} :
    collectItems items = texts.map .string ↔ items = texts.map .string := by
  induction items generalizing texts with
  | nil =>
    rw [collectItems]
  | cons v rest ih =>
    rw [collectItems]
    cases texts with
    | nil => simp
    | cons s texts => simp [collect_eq_string, ih]

/-! ## Records -/

/-- The fields of a record.  A field that is there twice is refused; an array has the fields in
their order. -/
def record (fields : List String) : Json → Option (String → Option Json)
  | .object members =>
    if ((names members).filter fun name => fields.contains name).Nodup then
      some fun name => lookup name members
    else none
  | .array items =>
    if items.length = fields.length then some fun name => lookup name (fields.zip items) else none
  | _ => none

/-- A field that may be missing or `null`. -/
def optional {α : Type} (read : Json → Option α) : Option Json → Option (Option α)
  | none => some none
  | some .null => some none
  | some v => (read v).map some

/-- The value of a boolean. -/
def asBool? : Json → Option Bool
  | .bool b => some b
  | _ => none

/-- The texts of an array of strings. -/
def asStrings? (v : Json) : Option (List String) := v.asArray?.bind fun items => items.mapM asStr?

/-- A signed integer of 64 bits. -/
def asInt? : Json → Option Int
  | .number (.posInt n) => if n.toNat < 2 ^ 63 then some n.toNat else none
  | .number (.negInt n) => some n.toInt
  | _ => none

/-- The number of an integer. -/
def ofInt (n : Int) : Json :=
  if 0 ≤ n then .number (.posInt (UInt64.ofNat n.toNat)) else .number (.negInt (Int64.ofInt n))

theorem record_of_nodup {fields : List String} (h : (names members).Nodup) :
    (object members).record fields = some fun name => lookup name members := by
  rw [record, if_pos (h.sublist List.filter_sublist)]

/-- The members of an object whose fields may be missing. -/
def present (fields : List (String × Option Json)) : List (String × Json) :=
  fields.filterMap fun field => field.2.map fun v => (field.1, v)

theorem present_append (fields fields' : List (String × Option Json)) :
    present (fields ++ fields') = present fields ++ present fields' := List.filterMap_append

theorem names_present (fields : List (String × Option Json)) :
    (names (present fields)).Sublist (fields.map (·.1)) := by
  induction fields with
  | nil => exact List.Sublist.refl _
  | cons field rest ih =>
    obtain ⟨name, _ | v⟩ := field
    · exact ih.cons name
    · exact ih.cons_cons name

theorem lookup_present_of_notMem (h : name ∉ fields.map (·.1)) :
    lookup name (present fields) = none := by
  rw [lookup, Option.map_eq_none_iff, List.find?_eq_none]
  intro member hmember hname
  have hnames := (names_present fields).subset (List.mem_map_of_mem hmember)
  rw [beq_iff_eq.mp hname] at hnames
  exact h hnames

theorem lookup_present {v : Option Json} (hnodup : (fields.map (·.1)).Nodup)
    (h : (name, v) ∈ fields) :
    lookup name (present fields) = v := by
  induction fields with
  | nil => cases h
  | cons field rest ih =>
    rw [List.map_cons, List.nodup_cons] at hnodup
    rcases List.mem_cons.mp h with rfl | h
    · cases v with
      | none =>
        show lookup name (present rest) = none
        exact lookup_present_of_notMem hnodup.1
      | some v => simp [present, lookup]
    · have hne : field.1 ≠ name := fun hsame =>
        hnodup.1 (hsame ▸ List.mem_map_of_mem (f := Prod.fst) h)
      have hskip : lookup name (present (field :: rest)) = lookup name (present rest) := by
        obtain ⟨name', _ | v'⟩ := field
        · rfl
        · simp [present, lookup, hne]
      rw [hskip, ih hnodup.2 h]

theorem asInt?_ofInt {n : Int} (hmin : -2 ^ 63 ≤ n) (hmax : n < 2 ^ 63) :
    (ofInt n).asInt? = some n := by
  by_cases hnonneg : 0 ≤ n
  · have hsmall : n.toNat < 2 ^ 64 := by omega
    have hback : (UInt64.ofNat n.toNat).toNat = n.toNat := by
      rw [UInt64.toNat_ofNat', Nat.mod_eq_of_lt hsmall]
    rw [ofInt, if_pos hnonneg, asInt?, hback, if_pos (by omega), Int.toNat_of_nonneg hnonneg]
  · rw [ofInt, if_neg hnonneg, asInt?, Int64.toInt_ofInt_of_le hmin hmax]

theorem asStrings?_strings (texts : List String) :
    (array (texts.map .string)).asStrings? = some texts := by
  rw [asStrings?, asArray?, Option.bind_some]
  induction texts with
  | nil => rfl
  | cons s texts ih =>
    rw [List.map_cons, List.mapM_cons, ih]
    rfl

end Json

end Lib
