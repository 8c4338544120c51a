import SuiId.Core.Setup
import SuiId.Proofs.KeyRotation

/-!
# Setup happens once, and one signing key is in use from then on

S10 looks at the flag in the transaction that sets it, so a second call fails there, whatever its
early check has read.  It inserts a key unless one is active.  The rotation retires the active key
in the transaction that inserts its successor, the deletion refuses an active key, and the re-seal
rewrites the private keys only.  So there is never more than one active key, and after the setup
there is one.
-/

namespace SuiId.Setup

open Lib Lib.Machine Lib.Result

/-- A step that creates an administrator. -/
def createsAdmin (x : Taken World Event Answer) : Bool :=
  x.out matches .setup (.ok _)

/-- A step of the two doors. -/
def Event.isSetup : Event → Bool
  | .begin .. | .complete _ => true
  | _ => false

/-- What holds of a run on a new instance. -/
structure SetupOnce (P : Primitives) (db : Database) (events : List Event) : Prop where
  once : (trace (step P) (.new db) events).countP createsAdmin ≤ 1
  losing : ∀ x ∈ trace (step P) (.new db) events, x.event.isSetup = true →
    createsAdmin x = false →
      (step P x.pre x.event).1.db.users = x.pre.db.users ∧
      (step P x.pre x.event).1.db.credentials = x.pre.db.credentials ∧
      (step P x.pre x.event).1.db.signingKeys = x.pre.db.signingKeys ∧
      (step P x.pre x.event).1.db.initialized = x.pre.db.initialized
  oneKey : ∀ past rest, events = past ++ rest →
    (∃ x ∈ trace (step P) (.new db) past, createsAdmin x = true) →
      ∃! k, k ∈ (run (step P) (.new db) past).db.signingKeys ∧ k.isActive = true

/-! ## The active keys -/

/-- Never more than one active key, and one once the flag is set. -/
structure KeyInUse (db : Database) : Prop where
  sole : ∀ k ∈ db.signingKeys, ∀ k' ∈ db.signingKeys, k.isActive = true → k'.isActive = true →
    k = k'
  some : db.initialized = true → ∃ k ∈ db.signingKeys, k.isActive = true

section Commands

variable {P : Primitives} {db db' : Database}
variable {u : Unit} {admin : UserId} {reason : Option String}

theorem completeInitialSetup_inUse {c : Command} (hdb : KeyInUse db)
    (h : completeInitialSetup P db c.user c.cred c.signingKey c.authorizedBy c.now = .ok (u, db')) :
    KeyInUse db' ∧ db.initialized = false ∧ db'.initialized = true := by
  obtain ⟨event, db₁, log, hbody, rfl⟩ := classA_eq_ok h
  simp only [bind_eq_ok, ensure_eq_ok, pure_eq_ok, Prod.mk.injEq, Bool.not_eq_true'] at hbody
  obtain ⟨-, hflag, db₂, hcreate, -, -, db₃, hkey, -, -, rfl⟩ := hbody
  obtain ⟨users, rfl⟩ := Users.create_ok hcreate
  refine ⟨?_, hflag, rfl⟩
  unfold bootstrapSigningKey at hkey
  split at hkey
  · next hactive =>
    cases hkey
    obtain ⟨k, hfind⟩ := Option.isSome_iff_exists.mp hactive
    exact ⟨hdb.sole, fun _ => ⟨k, Table.mem_of_find? hfind⟩⟩
  · next hnone =>
    -- No key is active, so the new one is the only one.
    have hretired : ∀ k ∈ db.signingKeys, k.isActive = false :=
      Table.find?_eq_none.mp (Option.not_isSome_iff_eq_none.mp hnone)
    simp only [bind_eq_ok, require_eq_ok, pure_eq_ok] at hkey
    obtain ⟨signingKeys, hinsert, rfl⟩ := hkey
    have hmem := fun {k} => Table.mem_of_insert? (x := k) hinsert
    refine ⟨fun k hk k' hk' hactive hactive' => ?_, fun _ => ⟨_, hmem.mpr (.inr rfl), rfl⟩⟩
    rcases hmem.mp hk with hk | rfl
    · rw [hretired k hk] at hactive
      cases hactive
    · rcases hmem.mp hk' with hk' | rfl
      · rw [hretired k' hk'] at hactive'
        cases hactive'
      · rfl

theorem rotateSigningKey_inUse {session : SessionId} {newId : Nat} {algorithm : String}
    {privateKeySealed publicKey : Bytes} {now : DateTime}
    (h : rotateSigningKey db admin session newId algorithm privateKeySealed publicKey reason now =
      .ok (u, db')) : KeyInUse db' ∧ db'.initialized = db.initialized := by
  obtain ⟨-, db₁, log, hrotate, rfl⟩ := rotateSigningKey_ok h
  simp only [SigningKeys.rotateAtomic, bind_eq_ok, require_eq_ok, pure_eq_ok] at hrotate
  obtain ⟨signingKeys, hinsert, rfl⟩ := hrotate
  have hmem := fun {k} => Table.mem_of_insert? (x := k) hinsert
  have hretired : ∀ k ∈ db.signingKeys.update (fun k => k.isActive)
      (fun k => { k with isActive := false, rotatedAt := some now }), k.isActive = false := by
    intro k hk
    obtain ⟨k₀, -, rfl⟩ := Table.mem_update.mp hk
    cases hactive : k₀.isActive with
    | true => rfl
    | false => simp [hactive]
  have hnew : ∀ k ∈ signingKeys, k.isActive = true →
      k = ⟨newId, algorithm, privateKeySealed, publicKey, true, now, none⟩ := by
    intro k hk hactive
    rcases hmem.mp hk with hk | hk
    · rw [hretired k hk] at hactive
      cases hactive
    · exact hk
  refine ⟨⟨fun k hk k' hk' hactive hactive' => ?_, fun _ => ⟨_, hmem.mpr (.inr rfl), rfl⟩⟩, rfl⟩
  rw [hnew k hk hactive, hnew k' hk' hactive']

theorem deleteSigningKey_inUse {target : Nat} (hdb : KeyInUse db)
    (h : deleteSigningKey db admin target reason = .ok (u, db')) :
    KeyInUse db' ∧ db'.initialized = db.initialized := by
  obtain ⟨event, db₁, log, hbody, rfl⟩ := classA_eq_ok h
  simp only [SigningKeys.delete, bind_eq_ok, require_eq_ok, ensure_eq_ok, pure_eq_ok,
    Prod.mk.injEq, Bool.not_eq_true'] at hbody
  obtain ⟨db₂, ⟨target', hget, -, hretired, rfl⟩, -, -, rfl⟩ := hbody
  obtain ⟨htarget, hid⟩ := Table.get?_eq_some.mp hget
  refine ⟨⟨fun k hk k' hk' => ?_, fun hflag => ?_⟩, rfl⟩
  · exact hdb.sole k (Table.mem_delete.mp hk).1 k' (Table.mem_delete.mp hk').1
  · obtain ⟨k, hk, hactive⟩ := hdb.some hflag
    refine ⟨k, Table.mem_delete.mpr ⟨hk, beq_eq_false_iff_ne.mpr fun hsame => ?_⟩, hactive⟩
    obtain rfl := Table.eq_of_key_eq hk htarget (hsame.trans hid.symm)
    rw [hretired] at hactive
    cases hactive

theorem resealMasterKey_inUse {oldKey newKey : MasterKey} {nonces : ResealNonces}
    {report : RotationReport} (hdb : KeyInUse db)
    (h : resealMasterKey P oldKey newKey nonces db = .ok (report, db')) :
    KeyInUse db' ∧ db'.initialized = db.initialized := by
  obtain ⟨signingKeys, _, _, _, _, _, log, hkeys, -, -, -, -, -, rfl⟩ := resealMasterKey_ok h
  -- A key that is sealed again keeps its identifier and its flag.
  have hfrom : ∀ k ∈ signingKeys,
      ∃ k₀ ∈ db.signingKeys, k.id = k₀.id ∧ k.isActive = k₀.isActive := by
    intro k hk
    obtain ⟨k₀, hk₀, sealed, -, rfl⟩ := Table.mem_of_forRows hkeys hk
    exact ⟨k₀, hk₀, rfl, rfl⟩
  refine ⟨⟨fun k hk k' hk' hactive hactive' => ?_, fun hflag => ?_⟩, rfl⟩
  · obtain ⟨k₀, hk₀, hid, hsame⟩ := hfrom k hk
    obtain ⟨k₀', hk₀', hid', hsame'⟩ := hfrom k' hk'
    have hkey := hdb.sole k₀ hk₀ k₀' hk₀' (hsame ▸ hactive) (hsame' ▸ hactive')
    exact Table.eq_of_key_eq hk hk' (hid.trans ((congrArg _ hkey).trans hid'.symm))
  · obtain ⟨k, hk, hactive⟩ := hdb.some hflag
    obtain ⟨sealed, -, hmem⟩ := Table.computed_of_forRows hkeys hk
    exact ⟨_, hmem, hactive⟩

end Commands

/-! ## The steps -/

section Steps

variable {P : Primitives} {w : World}

/-- What a step does: nothing to the database, a setup that wins, or a command on the keys. -/
theorem step_cases (P : Primitives) (w : World) (e : Event) :
    ((step P w e).1.db = w.db ∧ createsAdmin ⟨w, e, (step P w e).2⟩ = false) ∨
    (createsAdmin ⟨w, e, (step P w e).2⟩ = true ∧ ∃ c : Command,
      completeInitialSetup P w.db c.user c.cred c.signingKey c.authorizedBy c.now =
        .ok ((), (step P w e).1.db)) ∨
    (createsAdmin ⟨w, e, (step P w e).2⟩ = false ∧ e.isSetup = false ∧
      (KeyInUse w.db → KeyInUse (step P w e).1.db ∧
        (step P w e).1.db.initialized = w.db.initialized)) := by
  cases e with
  | begin call key door admin draws now =>
    left
    dsimp only [step]
    split
    · exact ⟨rfl, rfl⟩
    · split <;> exact ⟨rfl, rfl⟩
  | complete call =>
    dsimp only [step]
    split
    · next c hcall =>
      split
      · exact .inl ⟨rfl, rfl⟩
      · next u db hcommit => exact .inr (.inl ⟨rfl, c, hcommit⟩)
    · exact .inl ⟨rfl, rfl⟩
  | rotateSigningKey admin session newId algorithm privateKeySealed publicKey reason now =>
    dsimp only [step]
    split
    · exact .inl ⟨rfl, rfl⟩
    · next u db hcommit =>
      exact .inr (.inr ⟨rfl, rfl, fun _ => rotateSigningKey_inUse hcommit⟩)
  | deleteSigningKey admin target reason =>
    dsimp only [step]
    split
    · exact .inl ⟨rfl, rfl⟩
    · next u db hcommit =>
      exact .inr (.inr ⟨rfl, rfl, fun hdb => deleteSigningKey_inUse hdb hcommit⟩)
  | resealMasterKey oldKey newKey nonces =>
    dsimp only [step]
    split
    · exact .inl ⟨rfl, rfl⟩
    · next report db hcommit =>
      exact .inr (.inr ⟨rfl, rfl, fun hdb => resealMasterKey_inUse hdb hcommit⟩)

/-- A step keeps the keys in use and the flag, and a setup that wins sets it. -/
theorem inUse_step (e : Event) (hw : KeyInUse w.db) :
    KeyInUse (step P w e).1.db ∧
      (w.db.initialized = true → (step P w e).1.db.initialized = true) ∧
      (createsAdmin ⟨w, e, (step P w e).2⟩ = true →
        w.db.initialized = false ∧ (step P w e).1.db.initialized = true) := by
  rcases step_cases P w e with ⟨hdb, hquiet⟩ | ⟨-, c, hcommit⟩ | ⟨hquiet, -, hkeys⟩
  · rw [hdb, hquiet]
    exact ⟨hw, id, fun h => by cases h⟩
  · obtain ⟨hnext, hbefore, hafter⟩ := completeInitialSetup_inUse hw hcommit
    exact ⟨hnext, fun _ => hafter, fun _ => ⟨hbefore, hafter⟩⟩
  · obtain ⟨hnext, hflag⟩ := hkeys hw
    rw [hquiet]
    exact ⟨hnext, fun h => hflag.trans h, fun h => by cases h⟩

end Steps

theorem keyInUse_new (db : Database) : KeyInUse (World.new db).db :=
  ⟨fun k hk => (by cases hk), fun h => by cases h⟩

/-- Setup happens at most once, and from then on one key is in use. -/
theorem setup_once (P : Primitives) (db : Database) (events : List Event) :
    SetupOnce P db events := by
  have hg : ∀ events, Guarded (step P) (fun _ _ => True) (.new db) events := guarded_true _
  have hstep : ∀ w e, KeyInUse w.db → True → KeyInUse (step P w e).1.db :=
    fun w e hw _ => (inUse_step e hw).1
  constructor
  · refine countP_trace_le_one (I := fun w => KeyInUse w.db)
      (D := fun w => w.db.initialized = true) hstep (fun w e hw _ hcreates => ?_)
      (fun w e hw _ hflag => ?_) (fun w e hw _ hflag => ?_) (hg events) (keyInUse_new db)
    · exact ((inUse_step e hw).2.2 hcreates).2
    · exact (inUse_step e hw).2.1 hflag
    · rw [Bool.eq_false_iff]
      intro hcreates
      rw [((inUse_step e hw).2.2 hcreates).1] at hflag
      cases hflag
  · intro x hx hsetup hquiet
    obtain ⟨hx, -, hout⟩ := trace_invariant hstep (hg events) (keyInUse_new db) hx
    obtain ⟨pre, e, answer⟩ := x
    dsimp only at hsetup hout hquiet ⊢
    subst hout
    rcases step_cases P pre e with ⟨hdb, -⟩ | ⟨hcreates, -⟩ | ⟨-, hother, -⟩
    · rw [hdb]
      exact ⟨rfl, rfl, rfl, rfl⟩
    · rw [hquiet] at hcreates
      cases hcreates
    · rw [hsetup] at hother
      cases hother
  · rintro past rest - ⟨x, hx, hcreates⟩
    have hrun : KeyInUse (run (step P) (.new db) past).db ∧
        ((∃ x ∈ trace (step P) (.new db) past, createsAdmin x = true) →
          (run (step P) (.new db) past).db.initialized = true) := by
      refine run_trace_history (g := fun _ _ => True)
        (I := fun past w => KeyInUse w.db ∧
          ((∃ x ∈ past, createsAdmin x = true) → w.db.initialized = true))
        (fun past w e hw _ => ?_) (hg past) ⟨keyInUse_new db, by simp⟩
      -- A winning step sets the flag, and every later step leaves it set.
      obtain ⟨hnext, hkept, hset⟩ := inUse_step (P := P) e hw.1
      refine ⟨hnext, ?_⟩
      rintro ⟨y, hy, hcreates⟩
      rcases List.mem_append.mp hy with hy | hy
      · exact hkept (hw.2 ⟨y, hy, hcreates⟩)
      · rw [List.mem_singleton.mp hy] at hcreates
        exact (hset hcreates).2
    obtain ⟨k, hk, hactive⟩ := hrun.1.some (hrun.2 ⟨x, hx, hcreates⟩)
    exact ⟨k, ⟨hk, hactive⟩, fun k' ⟨hk', hactive'⟩ => hrun.1.sole k' hk' k hk hactive' hactive⟩

/-- Two calls pass the early check, and the second one loses in its transaction. -/
example :
    let draws : Draws := ⟨1, .ok "hash", 1, [1], [2], .constant 0⟩
    let events : List Event :=
      [.begin 1 (.constant 1) .headless ⟨"a", "twelve chars", none, none⟩ draws 0,
      .begin 2 (.constant 1) (.web "t" "t") ⟨"b", "twelve chars", none, none⟩ draws 0,
      .complete 2, .complete 1]
    (trace (step .transparent) (.new .empty) events).map createsAdmin =
      [false, false, true, false] := by
  decide +kernel

end SuiId.Setup
