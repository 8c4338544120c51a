import Mathlib.Data.List.Pairwise
import SuiId.Core.EmailColumns
import SuiId.Proofs.AccountEffects

/-!
# One normal form of an address

Both writers fill `email_normalized` with `normalize_email` (`writeEmail_normal`), and the unique
index keeps the column free of repetitions (`writeEmail_unique`), so the two columns agree along a
run if they do at its start.  There they hold what migration 0020 has computed in SQL, so they
agree exactly if SQLite and Rust give every address the same normal form
(`email_normal_form_iff`).
-/

namespace SuiId

open Lib Lib.Result

namespace Users

variable {P : Primitives} {db db' : Database}

/-! ## The writers -/

/-- The column holds the normal form of the address. -/
def Normal (P : Primitives) (t : Table UserRow.id) : Prop :=
  ∀ u ∈ t, u.emailNormalized = u.email.map (normalizeEmail P)

private theorem normal_insert {t t' : Table UserRow.id} {u : UserRow} (ht : Normal P t)
    (hinsert : t.insert? u = some t') (hu : u.emailNormalized = u.email.map (normalizeEmail P)) :
    Normal P t' := by
  intro x hx
  rcases (Table.mem_of_insert? hinsert).mp hx with hx | rfl
  · exact ht x hx
  · exact hu

theorem create_normal {user : UserRow} (h : create P db user = .ok db')
    (hnormal : Normal P db.users) : Normal P db'.users := by
  simp only [create, bind_eq_ok, ensure_eq_ok, require_eq_ok, pure_eq_ok] at h
  obtain ⟨-, -, users, hinsert, rfl⟩ := h
  exact normal_insert hnormal hinsert rfl

theorem upsertLdapShadow_normal {data : LdapShadowData} {id : UserId}
    (h : upsertLdapShadow P db data id = .ok db') (hnormal : Normal P db.users) :
    Normal P db'.users := by
  unfold upsertLdapShadow at h
  dsimp only at h
  split at h
  · simp only [bind_eq_ok, ensure_eq_ok] at h
    obtain ⟨-, -, h⟩ := h
    split at h
    · simp only [bind_eq_ok, ensure_eq_ok, pure_eq_ok] at h
      obtain ⟨-, -, rfl⟩ := h
      intro x hx
      simp only [Table.mem_update] at hx
      obtain ⟨u, hu, rfl⟩ := hx
      split
      · rfl
      · exact hnormal u hu
    · cases h
      exact hnormal
  · simp only [bind_eq_ok, ensure_eq_ok, require_eq_ok, pure_eq_ok] at h
    obtain ⟨-, -, users, hinsert, rfl⟩ := h
    exact normal_insert hnormal hinsert rfl

/-- The shared upsert is the one on the caller's transaction, with the id it answers. -/
theorem upsertLdapShadow_of_upsertShadow {data : LdapShadowData} {expectedId : Option UserId}
    {newId id : UserId} (h : upsertShadow P db data expectedId newId = .ok (id, db')) :
    upsertLdapShadow P db data id = .ok db' := by
  unfold upsertShadow at h
  unfold upsertLdapShadow
  dsimp only at h ⊢
  generalize db.users.find? (fun u =>
    u.source == .ldap && u.externalStableId == some data.externalStableId) = found at h ⊢
  cases found with
  | some u =>
    simp only [bind_eq_ok, ensure_eq_ok] at h
    obtain ⟨-, -, h⟩ := h
    by_cases hchanged : (u.displayName != data.displayName || u.email != data.email) = true
    · rw [if_pos hchanged] at h
      simp only [bind_eq_ok, ensure_eq_ok, pure_eq_ok, Prod.mk.injEq] at h
      obtain ⟨-, hunique, rfl, rfl⟩ := h
      simp only [bind_eq_ok, ensure_eq_ok, if_pos hchanged, pure_eq_ok]
      exact ⟨(), beq_self_eq_true _, (), hunique, trivial⟩
    · rw [if_neg hchanged] at h
      cases h
      simp only [bind_eq_ok, ensure_eq_ok, if_neg hchanged, pure_eq_ok]
      exact ⟨(), beq_self_eq_true _, trivial⟩
  | none =>
    simp only [bind_eq_ok, ensure_eq_ok, require_eq_ok, pure_eq_ok, Prod.mk.injEq] at h ⊢
    obtain ⟨-, hunique, users, hinsert, rfl, rfl⟩ := h
    exact ⟨(), hunique, users, hinsert, rfl⟩

/-- A write keeps the columns in agreement, and the normal forms apart. -/
theorem writeEmail_keeps (db : Database) (w : EmailWrite)
    (h : Normal P db.users ∧ EmailsUnique db.users) :
    Normal P (writeEmail P db w).1.users ∧ EmailsUnique (writeEmail P db w).1.users := by
  cases w with
  | create user =>
    cases hwrite : create P db user with
    | error e => simpa only [writeEmail, hwrite] using h
    | ok db' =>
      obtain ⟨-, users, hgrows, -, rfl⟩ := create_kept hwrite
      simp only [writeEmail, hwrite]
      exact ⟨create_normal hwrite h.1, hgrows.emails h.2⟩
  | upsertShadow data expectedId newId =>
    cases hwrite : upsertShadow P db data expectedId newId with
    | error e => simpa only [writeEmail, hwrite, Except.map] using h
    | ok written =>
      have hshadow : upsertLdapShadow P db data written.1 = .ok written.2 :=
        upsertLdapShadow_of_upsertShadow hwrite
      obtain ⟨users, hgrows, hdb⟩ := upsertLdapShadow_kept hshadow
      simp only [writeEmail, hwrite, Except.map]
      refine ⟨upsertLdapShadow_normal hshadow h.1, ?_⟩
      show EmailsUnique written.2.users
      rw [hdb]
      exact hgrows.emails h.2

/-! ## The migration -/

variable {t : Table UserV19.id} {t' : Table fun u : UserV20 => u.id}

private theorem migrate0020_ok (h : migrate0020 t = .ok t') :
    t'.rows = t.rows.map UserV19.backfill ∧ (t'.rows.filterMap (·.emailNormalized)).Nodup := by
  simp only [migrate0020, bind_eq_ok, ensure_eq_ok, decide_eq_true_eq, pure_eq_ok] at h
  obtain ⟨-, hunique, -, -, rfl⟩ := h
  exact ⟨rfl, hunique⟩

@[simp] private theorem current_email (v : UserV19) : v.backfill.current.email = v.email := rfl

@[simp] private theorem current_emailNormalized (v : UserV19) :
    v.backfill.current.emailNormalized =
      v.email.map fun email => sqliteLower (sqliteTrim email) := rfl

/-- The rows after the migrations are those of version 19 with the column that SQL has filled. -/
private theorem mem_currentUsers (h : migrate0020 t = .ok t') {u : UserRow} :
    u ∈ currentUsers t' ↔ ∃ v ∈ t, v.backfill.current = u := by
  show u ∈ t'.rows.map UserV20.current ↔ _
  rw [(migrate0020_ok h).1, List.map_map, List.mem_map]
  rfl

/-- The unique index of the migration. -/
private theorem currentUsers_unique (h : migrate0020 t = .ok t') :
    EmailsUnique (currentUsers t') := by
  have hpairs := List.pairwise_filterMap.mp (migrate0020_ok h).2
  have hsymm : Std.Symm fun (v v' : UserV20) =>
      ∀ e, v.emailNormalized = some e → ∀ e', v'.emailNormalized = some e' → e ≠ e' := by
    constructor
    intro v v' hne e he e' he'
    exact (hne e' he' e he).symm
  intro u hu u' hu' email hemail hemail'
  obtain ⟨v, hv, rfl⟩ := List.mem_map.mp hu
  obtain ⟨v', hv', rfl⟩ := List.mem_map.mp hu'
  by_cases hsame : v = v'
  · rw [hsame]
  · have hne := hpairs.forall hv hv' hsame email hemail email hemail'
    exact absurd rfl hne

/-- The columns agree after the migrations exactly if SQL and Rust agree on every address. -/
private theorem currentUsers_normal_iff (h : migrate0020 t = .ok t') :
    Normal P (currentUsers t') ↔
      ∀ v ∈ t, ∀ email, v.email = some email →
        sqliteLower (sqliteTrim email) = normalizeEmail P email := by
  constructor
  · intro hnormal v hv email hemail
    have hcolumns := hnormal v.backfill.current ((mem_currentUsers h).mpr ⟨v, hv, rfl⟩)
    rw [current_emailNormalized, current_email, hemail, Option.map_some, Option.map_some,
      Option.some_inj] at hcolumns
    exact hcolumns
  · intro hsame u hu
    obtain ⟨v, hv, rfl⟩ := (mem_currentUsers h).mp hu
    rw [current_emailNormalized, current_email]
    cases hemail : v.email with
    | none => rw [Option.map_none, Option.map_none]
    | some email => rw [Option.map_some, Option.map_some, hsame v hv email hemail]

/-! ## Every run -/

/-- Each row's column is the normal form of its address, absent with it; every spelling of an
address finds its user; and no two users have addresses with one normal form. -/
structure OneNormalForm (P : Primitives) (db : Database) : Prop where
  column : ∀ u ∈ db.users, u.emailNormalized = u.email.map (normalizeEmail P)
  found : ∀ u ∈ db.users, ∀ email spelling, u.email = some email →
    normalizeEmail P spelling = normalizeEmail P email → findByEmail P db spelling = some u
  distinct : ∀ u ∈ db.users, ∀ u' ∈ db.users, ∀ email email', u.email = some email →
    u'.email = some email' → normalizeEmail P email = normalizeEmail P email' → u = u'

theorem oneNormalForm_of_normal (hnormal : Normal P db.users) (hunique : EmailsUnique db.users) :
    OneNormalForm P db := by
  have hcolumn {u : UserRow} (hu : u ∈ db.users) {email : String} (hemail : u.email = some email) :
      u.emailNormalized = some (normalizeEmail P email) := by
    rw [hnormal u hu, hemail, Option.map_some]
  have hsame {u u' : UserRow} (hu : u ∈ db.users) (hu' : u' ∈ db.users) {normalized : String}
      (h : u.emailNormalized = some normalized) (h' : u'.emailNormalized = some normalized) :
      u = u' :=
    Table.eq_of_key_eq hu hu' (hunique u hu u' hu' normalized h h')
  constructor
  · exact hnormal
  · intro u hu email spelling hemail hspelling
    have hu' := hcolumn hu hemail
    rw [findByEmail, hspelling, findByEmailNormalized]
    cases hfind : db.users.find? fun x => x.emailNormalized == some (normalizeEmail P email) with
    | none =>
      have hno := Table.find?_eq_none.mp hfind u hu
      rw [hu'] at hno
      simp at hno
    | some x =>
      obtain ⟨hx, hfound⟩ := Table.mem_of_find? hfind
      rw [hsame hx hu (beq_iff_eq.mp hfound) hu']
  · intro u hu u' hu' email email' hemail hemail' hequated
    have hfirst := hcolumn hu hemail
    rw [hequated] at hfirst
    exact hsame hu hu' hfirst (hcolumn hu' hemail')

/-- After migration 0020, whatever is written: the columns agree along every run exactly if SQLite
and Rust give each address of version 19 one normal form. -/
theorem email_normal_form_iff (P : Primitives) {t : Table UserV19.id}
    {t' : Table fun u : UserV20 => u.id} (hmigrated : migrate0020 t = .ok t') {db : Database}
    (hdb : db.users = currentUsers t') :
    (∀ writes, OneNormalForm P (Machine.run (writeEmail P) db writes)) ↔
      ∀ v ∈ t, ∀ email, v.email = some email →
        sqliteLower (sqliteTrim email) = normalizeEmail P email := by
  rw [← currentUsers_normal_iff hmigrated, ← hdb]
  constructor
  · intro h
    exact (h []).column
  · intro hnormal writes
    have hstart : Normal P db.users ∧ EmailsUnique db.users :=
      ⟨hnormal, hdb ▸ currentUsers_unique hmigrated⟩
    have hrun := Machine.run_invariant (fun db w h _ => writeEmail_keeps db w h)
      (Machine.guarded_true db writes) hstart
    exact oneNormalForm_of_normal hrun.1 hrun.2

/-! ## Two addresses -/

/-- Lower case as Unicode has it, for texts of Latin letters. -/
def latinLowercase (s : String) : String :=
  String.ofList (s.toList.map fun c =>
    if c.isUpper || (0xc0 ≤ c.toNat && c.toNat ≤ 0xde && c.toNat != 0xd7) then
      Char.ofNat (c.toNat + 0x20)
    else c)

def latinPrimitives : Primitives := { Primitives.transparent with toLowercase := latinLowercase }

/-- An installation of version 19 with one user. -/
def usersV19 (email : String) : Table UserV19.id :=
  ⟨[{ id := 1, username := "zoe", displayName := none, isAdmin := true, isDisabled := false
      isDeleted := false, userUuid := "6f9619ff-8b86-4d01-b42d-00c04fc964ff"
      failedLoginCount := 0, lockedUntil := none, email := some email }], List.nodup_singleton _⟩

/-- The table that migration 0020 makes of it. -/
def usersV20 (email : String) : Table fun u : UserV20 => u.id :=
  ⟨(usersV19 email).rows.map UserV19.backfill, List.nodup_singleton _⟩

private theorem migrate0020_usersV19 (email : String) :
    migrate0020 (usersV19 email) = .ok (usersV20 email) := by
  have hemails : ((usersV19 email).rows.map UserV19.backfill).filterMap (·.emailNormalized) =
    [sqliteLower (sqliteTrim email)] := rfl
  have huuids : (((usersV19 email).rows.map UserV19.backfill).map (·.userUuid)).filter (· != "") =
    ["6f9619ff-8b86-4d01-b42d-00c04fc964ff"] := rfl
  simp only [migrate0020, bind_eq_ok, ensure_eq_ok, decide_eq_true_eq, pure_eq_ok, hemails, huuids]
  exact ⟨(), List.nodup_singleton _, (), List.nodup_singleton _, rfl⟩

theorem email_normal_form_of_ascii :
    migrate0020 (usersV19 " Zoe@Example.org") = .ok (usersV20 " Zoe@Example.org") ∧
      ∀ writes, OneNormalForm latinPrimitives (Machine.run (writeEmail latinPrimitives)
        { Database.empty with users := currentUsers (usersV20 " Zoe@Example.org") } writes) := by
  have hmigrated := migrate0020_usersV19 " Zoe@Example.org"
  refine ⟨hmigrated, (email_normal_form_iff latinPrimitives hmigrated rfl).mpr ?_⟩
  intro v hv email hemail
  rw [List.mem_singleton.mp hv, Option.some.injEq] at hemail
  rw [← hemail]
  decide +kernel

/-- A user of the current version. -/
def localUser (id : UserId) (username email : String) : UserRow where
  id := id
  username := username
  displayName := none
  email := some email
  emailNormalized := none
  emailVerifiedAt := none
  role := .user
  isDisabled := false
  isDeleted := false
  lastLoginAt := none
  failedLoginCount := 0
  lockedUntil := none
  mfaFailureCount := 0
  source := .localDb
  externalStableId := none

/-- A user whose address has a capital outside ASCII cannot be found under it, and the address can
be taken once more. -/
theorem accented_address_has_two_forms :
    migrate0020 (usersV19 "Zo\u00cb@example.org") = .ok (usersV20 "Zo\u00cb@example.org") ∧
      let db := { Database.empty with users := currentUsers (usersV20 "Zo\u00cb@example.org") }
      let writes := [.create (localUser 2 "zoe2" "zo\u00eb@example.org")]
      ¬ OneNormalForm latinPrimitives (Machine.run (writeEmail latinPrimitives) db []) ∧
        findByEmail latinPrimitives db "Zo\u00cb@example.org" = none ∧
        (Machine.run (writeEmail latinPrimitives) db writes).users.rows.map (fun u =>
          u.email.map (normalizeEmail latinPrimitives)) =
            [some "zo\u00eb@example.org", some "zo\u00eb@example.org"] := by
  have hlost : findByEmail latinPrimitives { Database.empty with
      users := currentUsers (usersV20 "Zo\u00cb@example.org") } "Zo\u00cb@example.org" = none := by
    decide +kernel
  refine ⟨migrate0020_usersV19 _, ?_, hlost, by decide +kernel⟩
  intro h
  have hfound := h.found _ (List.mem_singleton_self _) _ "Zo\u00cb@example.org" rfl rfl
  rw [Machine.run_nil, hlost] at hfound
  cases hfound

end Users

end SuiId
