import Mathlib.Data.List.Nodup
import Mathlib.Data.List.Forall2

/-!
# Keyed tables

A `Table key` is a finite list of rows in which no two rows share their
primary key.  The four operations are the ones a relational statement needs:

* `get?` reads the row of a key;
* `update p f` is `UPDATE … SET f WHERE p`;
* `delete p` is `DELETE … WHERE p`;
* `insert?` is `INSERT`, refused when the key is taken.

`Table.forRows` is the read-then-rewrite loop: it visits every row read at the
start and rewrites the row of the same key with a computed value, stopping at
the first error.  Each operation has one lemma in terms of membership and one
in terms of `get?`; nothing below needs to unfold them.
-/

namespace Lib

/-- A list of rows with pairwise different primary keys. -/
structure Table {κ ρ : Type} (key : ρ → κ) where
  rows : List ρ
  nodup : (rows.map key).Nodup

namespace Table

variable {κ ρ β ε : Type} {key : ρ → κ}

instance : Membership ρ (Table key) := ⟨fun t r => r ∈ t.rows⟩

instance : EmptyCollection (Table key) := ⟨⟨[], by simp⟩⟩

variable {t : Table key} {r r' : ρ} {p : ρ → Bool}

theorem mem_iff : r ∈ t ↔ r ∈ t.rows := Iff.rfl

@[simp] theorem not_mem_empty (r : ρ) : ¬ r ∈ (∅ : Table key) := List.not_mem_nil

/-- Rows are determined by their key. -/
theorem eq_of_key_eq (hr : r ∈ t) (hr' : r' ∈ t) (hkey : key r = key r') : r = r' :=
  List.inj_on_of_nodup_map t.nodup hr hr' hkey

/-! ## Reading -/

section Get

variable [DecidableEq κ]

/-- The row with key `k`. -/
def get? (t : Table key) (k : κ) : Option ρ :=
  t.rows.find? fun r => key r = k

theorem get?_eq_some {t : Table key} {k : κ} {r : ρ} :
    t.get? k = some r ↔ r ∈ t ∧ key r = k := by
  constructor
  · intro h
    exact ⟨List.mem_of_find?_eq_some h, by simpa using List.find?_some h⟩
  · rintro ⟨hmem, hkey⟩
    cases hfind : t.get? k with
    | none =>
      have hnone := List.find?_eq_none.mp hfind r hmem
      simp [hkey] at hnone
    | some r' =>
      have hmem' : r' ∈ t := List.mem_of_find?_eq_some hfind
      have hkey' : key r' = k := by simpa using List.find?_some hfind
      rw [eq_of_key_eq hmem' hmem (hkey'.trans hkey.symm)]

theorem get?_eq_none {t : Table key} {k : κ} :
    t.get? k = none ↔ ∀ r ∈ t, key r ≠ k := by
  simp [get?, mem_iff]

theorem get?_key {t : Table key} {r : ρ} (hr : r ∈ t) : t.get? (key r) = some r :=
  get?_eq_some.mpr ⟨hr, rfl⟩

end Get

/-! ## Selecting -/

/-- `SELECT … WHERE p`, first row only. -/
def find? (t : Table key) (p : ρ → Bool) : Option ρ := t.rows.find? p

theorem mem_of_find? (h : t.find? p = some r) :
    r ∈ t ∧ p r = true :=
  ⟨List.mem_of_find?_eq_some h, List.find?_some h⟩

theorem find?_eq_none :
    t.find? p = none ↔ ∀ r ∈ t, p r = false := by
  simp [find?, mem_iff]

/-- `SELECT COUNT(*) … WHERE p`. -/
def count (t : Table key) (p : ρ → Bool) : Nat := t.rows.countP p

theorem count_pos_iff :
    0 < t.count p ↔ ∃ r ∈ t, p r = true :=
  List.countP_pos_iff

theorem count_eq_zero_iff :
    t.count p = 0 ↔ ∀ r ∈ t, p r = false := by
  simp [count, List.countP_eq_zero, mem_iff]

theorem rows_nodup (t : Table key) : t.rows.Nodup := t.nodup.of_map

/-- At most one row matches exactly when any two matching rows are the same. -/
theorem count_le_one_iff :
    t.count p ≤ 1 ↔ ∀ r ∈ t, ∀ r' ∈ t, p r = true → p r' = true → r = r' := by
  have hnodup : (t.rows.filter p).Nodup := t.rows_nodup.filter p
  rw [count, List.countP_eq_length_filter]
  constructor
  · intro hle r hr r' hr' hp hp'
    have hmem : r ∈ t.rows.filter p := List.mem_filter.mpr ⟨hr, hp⟩
    have hmem' : r' ∈ t.rows.filter p := List.mem_filter.mpr ⟨hr', hp'⟩
    match hrows : t.rows.filter p with
    | [] => simp [hrows] at hmem
    | [x] =>
      rw [hrows, List.mem_singleton] at hmem hmem'
      rw [hmem, hmem']
    | x :: y :: rest => simp [hrows] at hle
  · intro hall
    match hrows : t.rows.filter p with
    | [] => simp
    | [x] => simp
    | x :: y :: rest =>
      have hx := List.mem_filter.mp (hrows ▸ List.mem_cons_self : x ∈ t.rows.filter p)
      have hy := List.mem_filter.mp
        (hrows ▸ List.mem_cons_of_mem x List.mem_cons_self : y ∈ t.rows.filter p)
      have hxy := hall x hx.1 y hy.1 hx.2 hy.2
      rw [hrows, hxy] at hnodup
      simp at hnodup

/-! ## Updating -/

/-- `UPDATE … SET f WHERE p`.  The primary key is not among the set columns. -/
def update (t : Table key) (p : ρ → Bool) (f : ρ → ρ)
    (hkey : ∀ r, key (f r) = key r := by intros; rfl) : Table key where
  rows := t.rows.map fun r => if p r then f r else r
  nodup := by
    have hmap : (t.rows.map fun r => if p r then f r else r).map key = t.rows.map key := by
      rw [List.map_map]
      refine List.map_congr_left fun r _ => ?_
      simp only [Function.comp_apply]
      split
      · exact hkey r
      · rfl
    rw [hmap]
    exact t.nodup

theorem mem_update {f : ρ → ρ} {hkey} :
    r' ∈ t.update p f hkey ↔ ∃ r ∈ t, r' = if p r then f r else r := by
  simp only [update, mem_iff, List.mem_map, eq_comm]

variable {k : κ}

theorem get?_update [DecidableEq κ] {f : ρ → ρ} {hkey} :
    (t.update p f hkey).get? k = (t.get? k).map fun r => if p r then f r else r := by
  have hkeep : ∀ r, key (if p r then f r else r) = key r := by
    intro r
    split
    · exact hkey r
    · rfl
  cases hget : t.get? k with
  | none =>
    rw [Option.map_none, get?_eq_none]
    intro r' hr'
    obtain ⟨r, hr, rfl⟩ := mem_update.mp hr'
    rw [hkeep]
    exact get?_eq_none.mp hget r hr
  | some r =>
    obtain ⟨hr, hk⟩ := get?_eq_some.mp hget
    rw [Option.map_some, get?_eq_some]
    exact ⟨mem_update.mpr ⟨r, hr, rfl⟩, (hkeep r).trans hk⟩

/-- What an update does not write stays, row by row. -/
theorem map_update {α : Type} {g : ρ → α} {f : ρ → ρ} {hkey} (hf : ∀ r, g (f r) = g r) :
    (t.update p f hkey).rows.map g = t.rows.map g := by
  simp only [update, List.map_map]
  refine List.map_congr_left fun r _ => ?_
  simp only [Function.comp_apply]
  split
  · exact hf r
  · rfl

/-- Two updates of the same rows are one. -/
theorem update_update {f g : ρ → ρ} {hf : ∀ r, key (f r) = key r} {hg : ∀ r, key (g r) = key r}
    (hp : ∀ r, p (f r) = p r) :
    (t.update p f hf).update p g hg =
      t.update p (fun r => g (f r)) (fun r => (hg (f r)).trans (hf r)) := by
  have hrow (r : ρ) : (if p (if p r then f r else r) then g (if p r then f r else r)
      else if p r then f r else r) = if p r then g (f r) else r := by
    by_cases h : p r = true
    · simp [h, hp]
    · simp [h]
  simp only [update, List.map_map]
  congr 1
  exact List.map_congr_left fun r _ => hrow r

/-- `t'` is `t` with the row `r` replaced by `r'`. -/
structure Replaced [DecidableEq κ] (t t' : Table key) (r r' : ρ) : Prop where
  before : t.get? (key r) = some r
  after : t'.get? (key r) = some r'
  others : ∀ k, k ≠ key r → t'.get? k = t.get? k

/-- An update of one key replaces the row of that key. -/
theorem replaced_update [DecidableEq κ] {f : ρ → ρ} {hkey} (hr : t.get? (key r) = some r)
    (hp : p r = true) (honly : ∀ x, p x = true → key x = key r) :
    Replaced t (t.update p f hkey) r (f r) where
  before := hr
  after := by rw [get?_update, hr, Option.map_some, if_pos hp]
  others := by
    intro k hne
    rw [get?_update]
    cases hget : t.get? k with
    | none => rfl
    | some x =>
      have hnot : ¬ p x = true := fun hpx =>
        hne ((get?_eq_some.mp hget).2.symm.trans (honly x hpx))
      rw [Option.map_some, if_neg hnot]

/-- A row after a replacement is the new one or was there before. -/
theorem Replaced.mem [DecidableEq κ] {t' : Table key} {x : ρ} (h : Replaced t t' r r')
    (hx : x ∈ t') : x = r' ∨ (x ∈ t ∧ key x ≠ key r) := by
  by_cases hkey : key x = key r
  · have hget := get?_key hx
    rw [hkey, h.after] at hget
    exact .inl (Option.some.inj hget).symm
  · have hget := get?_key hx
    rw [h.others _ hkey] at hget
    exact .inr ⟨(get?_eq_some.mp hget).1, hkey⟩

/-! ## Deleting -/

/-- `DELETE … WHERE p`. -/
def delete (t : Table key) (p : ρ → Bool) : Table key where
  rows := t.rows.filter fun r => !p r
  nodup := (t.nodup).sublist (List.Sublist.map key List.filter_sublist)

theorem mem_delete :
    r ∈ t.delete p ↔ r ∈ t ∧ p r = false := by
  simp [delete, mem_iff]

theorem get?_delete [DecidableEq κ] :
    (t.delete p).get? k = (t.get? k).filter fun r => !p r := by
  cases hget : t.get? k with
  | none =>
    rw [Option.filter_none, get?_eq_none]
    intro r hr
    exact get?_eq_none.mp hget r (mem_delete.mp hr).1
  | some r =>
    obtain ⟨hr, hk⟩ := get?_eq_some.mp hget
    cases hp : p r with
    | false =>
      rw [Option.filter_some_pos (by simp [hp]), get?_eq_some]
      exact ⟨mem_delete.mpr ⟨hr, hp⟩, hk⟩
    | true =>
      rw [Option.filter_some_neg (by simp [hp]), get?_eq_none]
      intro r' hr' hk'
      obtain ⟨hmem, hp'⟩ := mem_delete.mp hr'
      rw [eq_of_key_eq hmem hr (hk'.trans hk.symm), hp] at hp'
      cases hp'

/-! ## Inserting -/

section Insert

variable [DecidableEq κ]

/-- `INSERT`, refused when the primary key is taken. -/
def insert? (t : Table key) (r : ρ) : Option (Table key) :=
  if h : key r ∈ t.rows.map key then none
  else some ⟨t.rows ++ [r], by
    rw [List.map_append, List.map_singleton, List.nodup_append]
    refine ⟨t.nodup, List.nodup_singleton _, ?_⟩
    intro a ha b hb hab
    rw [List.mem_singleton] at hb
    exact h (hb ▸ hab ▸ ha)⟩

variable {t' : Table key}

theorem insert?_eq_some {t : Table key} {r : ρ} :
    t.insert? r = some t' ↔ (∀ r' ∈ t, key r' ≠ key r) ∧ t'.rows = t.rows ++ [r] := by
  unfold insert?
  split
  · rename_i hmem
    obtain ⟨r', hr', hk⟩ := List.mem_map.mp hmem
    simp only [reduceCtorEq, false_iff, not_and]
    intro hfresh
    exact absurd hk (hfresh r' hr')
  · rename_i hmem
    constructor
    · intro h
      cases h
      exact ⟨fun r' hr' hk => hmem (List.mem_map.mpr ⟨r', hr', hk⟩), rfl⟩
    · rintro ⟨-, hrows⟩
      cases t'
      simpa using hrows.symm

theorem exists_insert? {t : Table key} {r : ρ} (h : ∀ r' ∈ t, key r' ≠ key r) :
    ∃ t', t.insert? r = some t' := by
  unfold insert?
  split
  · rename_i hmem
    obtain ⟨r', hr', hk⟩ := List.mem_map.mp hmem
    exact absurd hk (h r' hr')
  · exact ⟨_, rfl⟩

variable {x : ρ}

theorem mem_of_insert? {t : Table key} {r : ρ} (h : t.insert? r = some t') :
    x ∈ t' ↔ x ∈ t ∨ x = r := by
  rw [mem_iff, (insert?_eq_some.mp h).2]
  simp [mem_iff]

theorem get?_of_insert? {t : Table key} {r : ρ} {k : κ} (h : t.insert? r = some t') :
    t'.get? k = if key r = k then some r else t.get? k := by
  split
  · rename_i hk
    exact get?_eq_some.mpr ⟨(mem_of_insert? h).mpr (.inr rfl), hk⟩
  · rename_i hk
    cases hget : t.get? k with
    | none =>
      rw [get?_eq_none]
      intro x hx
      rcases (mem_of_insert? h).mp hx with hx | rfl
      · exact get?_eq_none.mp hget x hx
      · exact hk
    | some x =>
      obtain ⟨hx, hkx⟩ := get?_eq_some.mp hget
      exact get?_eq_some.mpr ⟨(mem_of_insert? h).mpr (.inl hx), hkx⟩

/-- `INSERT … ON CONFLICT DO UPDATE` of every column. -/
def upsert (t : Table key) (r : ρ) : Table key where
  rows := (t.delete fun x => key x = key r).rows ++ [r]
  nodup := by
    rw [List.map_append, List.map_singleton, List.nodup_append]
    refine ⟨(t.delete _).nodup, List.nodup_singleton _, ?_⟩
    intro a ha b hb hab
    rw [List.mem_singleton] at hb
    obtain ⟨x, hx, rfl⟩ := List.mem_map.mp ha
    have hp := (mem_delete.mp hx).2
    simp [hab, hb] at hp

theorem mem_upsert {t : Table key} {r : ρ} :
    x ∈ t.upsert r ↔ (x ∈ t ∧ key x ≠ key r) ∨ x = r := by
  simp [upsert, mem_iff, delete]

theorem get?_upsert {t : Table key} {r : ρ} {k : κ} :
    (t.upsert r).get? k = if key r = k then some r else t.get? k := by
  by_cases hk : key r = k
  · rw [if_pos hk]
    exact get?_eq_some.mpr ⟨mem_upsert.mpr (.inr rfl), hk⟩
  · rw [if_neg hk]
    cases hget : t.get? k with
    | none =>
      rw [get?_eq_none]
      intro x hx
      rcases mem_upsert.mp hx with ⟨hx, -⟩ | rfl
      · exact get?_eq_none.mp hget x hx
      · exact hk
    | some x =>
      obtain ⟨hx, hkx⟩ := get?_eq_some.mp hget
      have hne : key x ≠ key r := fun h => hk (h.symm.trans hkx)
      exact get?_eq_some.mpr ⟨mem_upsert.mpr (.inl ⟨hx, hne⟩), hkx⟩

end Insert

/-! ## Rows that stay -/

section Kept

variable {α : Type} {f : ρ → α}

/-- Every row is still there, with the same value of `f`. -/
def Kept (f : ρ → α) (t t' : Table key) : Prop :=
  ∀ r ∈ t, ∃ r' ∈ t', key r' = key r ∧ f r' = f r

theorem Kept.refl (f : ρ → α) (t : Table key) : Kept f t t := fun r hr => ⟨r, hr, rfl, rfl⟩

variable {t' : Table key}

theorem Kept.trans {t t'' : Table key} (h : Kept f t t') (h' : Kept f t' t'') :
    Kept f t t'' := by
  intro r hr
  obtain ⟨r', hr', hkey, hf⟩ := h r hr
  obtain ⟨r'', hr'', hkey', hf'⟩ := h' r' hr'
  exact ⟨r'', hr'', hkey'.trans hkey, hf'.trans hf⟩

theorem kept_update {t : Table key} {p : ρ → Bool} {g : ρ → ρ} {hkey : ∀ r, key (g r) = key r}
    (hg : ∀ r, p r = true → f (g r) = f r) : Kept f t (t.update p g hkey) := by
  intro r hr
  refine ⟨_, mem_update.mpr ⟨r, hr, rfl⟩, ?_⟩
  split
  · rename_i hp
    exact ⟨hkey r, hg r hp⟩
  · exact ⟨rfl, rfl⟩

theorem kept_insert? [DecidableEq κ] {t : Table key} {r : ρ} (h : t.insert? r = some t') :
    Kept f t t' :=
  fun x hx => ⟨x, (mem_of_insert? h).mpr (.inl hx), rfl, rfl⟩

theorem Kept.get? [DecidableEq κ] {t : Table key} (h : Kept f t t') {k : κ} {r : ρ}
    (hr : t.get? k = some r) : ∃ r', t'.get? k = some r' ∧ f r' = f r := by
  obtain ⟨hmem, hk⟩ := get?_eq_some.mp hr
  obtain ⟨r', hmem', hkey, hf⟩ := h r hmem
  exact ⟨r', get?_eq_some.mpr ⟨hmem', hkey.trans hk⟩, hf⟩

end Kept

/-! ## Rewriting every row -/

section ForRows

variable [DecidableEq κ]

/-- One pass over the rows read at the start: `compute` the new value of each
and `UPDATE` the row of the same key with it. -/
def forRows (t : Table key) (compute : ρ → Except ε β) (set : β → ρ → ρ)
    (hkey : ∀ b r, key (set b r) = key r := by intros; rfl) : Except ε (Table key) :=
  t.rows.foldlM (fun acc r => do
    let b ← compute r
    pure (acc.update (fun x => key x = key r) (set b) (hkey b))) t

/-- What a visited row has become. -/
def Rewritten (compute : ρ → Except ε β) (set : β → ρ → ρ) (r r' : ρ) : Prop :=
  ∃ b, compute r = .ok b ∧ r' = set b r

private theorem map_update_of_ne {l : List ρ} {k : κ} {f : ρ → ρ} (h : ∀ x ∈ l, key x ≠ k) :
    (l.map fun x => if decide (key x = k) then f x else x) = l := by
  refine (List.map_congr_left fun x hx => ?_).trans (List.map_id l)
  simp [h x hx]

-- The pass has produced `done'` and is about to visit `r`.
private theorem rows_update_visited {acc : Table key} {done' todo : List ρ} {r : ρ} {f : ρ → ρ}
    {hf : ∀ x, key (f x) = key x} (hacc : acc.rows = done' ++ r :: todo) :
    (acc.update (fun x => key x = key r) f hf).rows = (done' ++ [f r]) ++ todo := by
  have hnodup := acc.nodup
  rw [hacc, List.map_append, List.map_cons, List.nodup_append] at hnodup
  obtain ⟨-, htail, hdisj⟩ := hnodup
  have hdone : ∀ x ∈ done', key x ≠ key r := fun x hx =>
    hdisj _ (List.mem_map_of_mem hx) _ List.mem_cons_self
  have htodo : ∀ x ∈ todo, key x ≠ key r := fun x hx hk =>
    (List.nodup_cons.mp htail).1 (hk ▸ List.mem_map_of_mem hx)
  simp only [update, hacc, List.map_append, List.map_cons, map_update_of_ne hdone,
    map_update_of_ne htodo, decide_true, if_true, List.append_assoc, List.singleton_append]

variable {compute : ρ → Except ε β} {set : β → ρ → ρ} {t' : Table key}
variable {hkey : ∀ b r, key (set b r) = key r}

private theorem forRows_aux (todo : List ρ) :
    ∀ {done done' : List ρ} {acc t' : Table key},
      List.Forall₂ (Rewritten compute set) done done' → acc.rows = done' ++ todo →
      (todo.foldlM (fun acc r => do
        let b ← compute r
        pure (acc.update (fun x => key x = key r) (set b) (hkey b))) acc) = .ok t' →
      List.Forall₂ (Rewritten compute set) (done ++ todo) t'.rows := by
  induction todo with
  | nil =>
    intro done done' acc t' hdone hacc h
    cases h
    simpa [hacc] using hdone
  | cons r todo ih =>
    intro done done' acc t' hdone hacc h
    rw [List.foldlM_cons] at h
    cases hb : compute r with
    | error e =>
      rw [hb] at h
      cases h
    | ok b =>
      rw [hb] at h
      rw [← List.singleton_append, ← List.append_assoc]
      refine ih (List.rel_append hdone (.cons ⟨b, hb, rfl⟩ .nil)) (rows_update_visited hacc) h

/-- A completed pass rewrote every row, in place. -/
theorem forall₂_of_forRows {t : Table key} (h : t.forRows compute set hkey = .ok t') :
    List.Forall₂ (Rewritten compute set) t.rows t'.rows :=
  forRows_aux t.rows .nil rfl h

/-- Every row after the pass is some row before it, rewritten. -/
theorem mem_of_forRows {t : Table key} (h : t.forRows compute set hkey = .ok t') {r' : ρ}
    (hr' : r' ∈ t') :
    ∃ r ∈ t, Rewritten compute set r r' := by
  obtain ⟨i, hi, rfl⟩ := List.mem_iff_getElem.mp hr'
  have hforall := forall₂_of_forRows h
  have hi' : i < t.rows.length := hforall.length_eq ▸ hi
  exact ⟨t.rows[i], List.getElem_mem hi', hforall.get hi' hi⟩

/-- The pass completes when it can compute the new value of every row. -/
theorem exists_forRows {t : Table key} (h : ∀ r ∈ t, ∃ b, compute r = .ok b) :
    ∃ t', t.forRows compute set hkey = .ok t' := by
  have hfold : ∀ (todo : List ρ) (acc : Table key), (∀ r ∈ todo, ∃ b, compute r = .ok b) →
      ∃ t', todo.foldlM (fun acc r => do
        let b ← compute r
        pure (acc.update (fun x => key x = key r) (set b) (hkey b))) acc = .ok t' := by
    intro todo
    induction todo with
    | nil =>
      intro acc _
      exact ⟨acc, rfl⟩
    | cons r todo ih =>
      intro acc hall
      obtain ⟨b, hb⟩ := hall r List.mem_cons_self
      rw [List.foldlM_cons, hb]
      exact ih _ fun x hx => hall x (List.mem_cons_of_mem r hx)
  exact hfold t.rows t h

/-- What is read off row by row is related as the rows are. -/
theorem forall₂_flatMap_of_forRows {γ : Type} {R : γ → γ → Prop} {t : Table key}
    (h : t.forRows compute set hkey = .ok t') {g : ρ → List γ}
    (hg : ∀ r b, compute r = .ok b → List.Forall₂ R (g r) (g (set b r))) :
    List.Forall₂ R (t.rows.flatMap g) (t'.rows.flatMap g) := by
  have hrows : ∀ {l l' : List ρ}, List.Forall₂ (Rewritten compute set) l l' →
      List.Forall₂ R (l.flatMap g) (l'.flatMap g) := by
    intro l l' hl
    induction hl with
    | nil => exact .nil
    | cons hr _ ih =>
      obtain ⟨b, hb, rfl⟩ := hr
      exact List.rel_append (hg _ b hb) ih
  exact hrows (forall₂_of_forRows h)

/-- An update that overwrites what the pass has set hides the pass. -/
theorem update_of_forRows {t : Table key} (h : t.forRows compute set hkey = .ok t') {f : ρ → ρ}
    {hf : ∀ r, key (f r) = key r} (hset : ∀ r b, compute r = .ok b → f (set b r) = f r) :
    t'.update (fun _ => true) f hf = t.update (fun _ => true) f hf := by
  have hrows : ∀ {l l' : List ρ}, List.Forall₂ (Rewritten compute set) l l' →
      l'.map f = l.map f := by
    intro l l' hl
    induction hl with
    | nil => rfl
    | cons hr _ ih =>
      obtain ⟨b, hb, rfl⟩ := hr
      rw [List.map_cons, List.map_cons, ih, hset _ b hb]
  have heq := hrows (forall₂_of_forRows h)
  simp only [update, if_true, heq]

/-- The pass could compute the new value of every row before it. -/
theorem computed_of_forRows {t : Table key} {hkey : ∀ b r, key (set b r) = key r}
    (h : t.forRows compute set hkey = .ok t') {r : ρ} (hr : r ∈ t) :
    ∃ b, compute r = .ok b ∧ set b r ∈ t' := by
  obtain ⟨i, hi, rfl⟩ := List.mem_iff_getElem.mp hr
  have hforall := forall₂_of_forRows h
  have hi' : i < t'.rows.length := hforall.length_eq ▸ hi
  obtain ⟨b, hb, hset⟩ := hforall.get hi hi'
  refine ⟨b, hb, ?_⟩
  have hmem : t'.rows[i] ∈ t'.rows := List.getElem_mem hi'
  exact hset ▸ hmem

end ForRows

end Table

end Lib
