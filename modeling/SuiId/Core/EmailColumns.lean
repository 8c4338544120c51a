import SuiId.Core.Accounts

/-!
# The two e-mail columns

Migration 0020 fills `email_normalized` in SQL for the rows that are there; `create_within_tx` and
`upsert_shadow` fill it in Rust.  What the later migrations give a row of version 20 is
`UserV20.current`: 0022 copies the table, 0027, 0030, 0034 and 0040 add columns with defaults.
-/

namespace SuiId

open Lib Lib.Result

/-! ## Migration 0020 -/

/-- SQLite's `trim(X)`: spaces only. -/
def sqliteTrim (s : String) : String :=
  String.ofList ((s.toList.dropWhile (· == ' ')).rdropWhile (· == ' '))

/-- SQLite's `lower(X)`: ASCII letters only. -/
def sqliteLower (s : String) : String := String.ofList (s.toList.map Char.toLower)

/-- A row of `users` at schema version 19, without its language and its time stamps. -/
structure UserV19 where
  id : UserId
  username : String
  displayName : Option String
  isAdmin : Bool
  isDisabled : Bool
  isDeleted : Bool
  userUuid : String
  failedLoginCount : Int
  lockedUntil : Option DateTime
  email : Option String
deriving DecidableEq

/-- A row after migration 20. -/
structure UserV20 extends UserV19 where
  emailNormalized : Option String
  emailVerifiedAt : Option DateTime
deriving DecidableEq

/-- `UPDATE users SET email_normalized = lower(trim(email)) WHERE email IS NOT NULL`. -/
def UserV19.backfill (u : UserV19) : UserV20 :=
  { u with
    emailNormalized := u.email.map fun email => sqliteLower (sqliteTrim email)
    emailVerifiedAt := none }

/-- Migration 0020.  Its unique indexes leave out absent addresses and empty handles. -/
def migrate0020 (users : Table UserV19.id) : StoreResult (Table fun u : UserV20 => u.id) := do
  let rows := users.rows.map UserV19.backfill
  ensure (rows.filterMap (·.emailNormalized)).Nodup .db
  ensure ((rows.map (·.userUuid)).filter (· != "")).Nodup .db
  pure { rows, nodup := by rw [List.map_map]; exact users.nodup }

/-- The row after the migrations behind 0020. -/
def UserV20.current (u : UserV20) : UserRow where
  id := u.id
  username := u.username
  displayName := u.displayName
  email := u.email
  emailNormalized := u.emailNormalized
  emailVerifiedAt := u.emailVerifiedAt
  role := if u.isAdmin then .admin else .user
  isDisabled := u.isDisabled
  isDeleted := u.isDeleted
  lastLoginAt := none
  failedLoginCount := u.failedLoginCount
  lockedUntil := u.lockedUntil
  mfaFailureCount := 0
  source := .localDb
  externalStableId := none

/-- The rows as the program reads them. -/
def currentUsers (users : Table fun u : UserV20 => u.id) : Table UserRow.id where
  rows := users.rows.map UserV20.current
  nodup := by rw [List.map_map]; exact users.nodup

/-! ## The writers -/

namespace Users

variable (P : Primitives)

private theorem shadowWrite_id (data : LdapShadowData) (emailNormalized : Option String)
    (u : UserRow) :
    { u with displayName := data.displayName, email := data.email, emailNormalized }.id = u.id :=
  rfl

/-- `upsert_shadow`.  Only the raw upsert has no id to expect; a new row then gets a new one. -/
def upsertShadow (db : Database) (data : LdapShadowData) (expectedId : Option UserId)
    (newId : UserId) : StoreResult (UserId × Database) :=
  let emailNormalized := data.email.map (normalizeEmail P)
  match db.users.find? fun u =>
      u.source == .ldap && u.externalStableId == some data.externalStableId with
  | some u => do
    ensure (!expectedId.any fun expected => expected != u.id) .notFound
    if u.displayName != data.displayName || u.email != data.email then
      let u' := { u with displayName := data.displayName, email := data.email, emailNormalized }
      ensure (uniqueColumns db u') .db
      pure (u.id, { db with
        users := db.users.update (fun x => x.id == u.id)
          (fun x => { x with
            displayName := data.displayName, email := data.email, emailNormalized })
          (shadowWrite_id data emailNormalized) })
    else pure (u.id, db)
  | none => do
    let id := expectedId.getD newId
    let u : UserRow :=
      { id, username := data.username, displayName := data.displayName, email := data.email
        emailNormalized, emailVerifiedAt := none, role := .user, isDisabled := false
        isDeleted := false, lastLoginAt := none, failedLoginCount := 0, lockedUntil := none
        mfaFailureCount := 0, source := .ldap, externalStableId := some data.externalStableId }
    ensure (uniqueColumns db u) .db
    let users ← require (db.users.insert? u) .db
    pure (id, { db with users })

/-- `find_by_email`. -/
def findByEmail (db : Database) (email : String) : Option UserRow :=
  findByEmailNormalized db (normalizeEmail P email)

/-- What writes an address of a user. -/
inductive EmailWrite where
  | create (user : UserRow)
  | upsertShadow (data : LdapShadowData) (expectedId : Option UserId) (newId : UserId)

/-- A write that fails is rolled back. -/
def writeEmail (db : Database) (w : EmailWrite) : Database × StoreResult Unit :=
  let written : StoreResult Database := match w with
    | .create user => create P db user
    | .upsertShadow data expectedId newId =>
      (upsertShadow P db data expectedId newId).map Prod.snd
  match written with
  | .ok db' => (db', .ok ())
  | .error e => (db, .error e)

end Users

end SuiId
