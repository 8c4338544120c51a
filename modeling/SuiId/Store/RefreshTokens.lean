import SuiId.Store.Registry

/-!
# Refresh tokens

The repository `refresh_tokens.rs` and the two commands that insert into it:
`rotateRefreshToken` (T04), which revokes the presented row and inserts the
prepared successor or, on reuse, revokes the whole family, and
`insertInitialRefreshToken` (T09), which roots a new family.

`findAny` is two separate reads in the source, first by hash and then, over
the rows whose hash is still missing, by decrypting; they are two functions
here, so that other transactions can run between them.  `backfillTokenHashes`
is likewise a read followed by one write per row read.
-/

namespace SuiId.RefreshTokens

open Lib Lib.Result

/-- The associated data of `token_enc`. -/
def aad : Bytes := utf8 "sui-id/refresh_token/v1"

/-! ## Reads -/

/-- The fast path of `find_any`: the row with the presented token's hash. -/
def findAnyByHash (P : Primitives) (db : Database) (token : Bytes) : Option RefreshTokenRow :=
  db.refreshTokens.find? fun r => r.tokenHash == some (P.sha256 token)

/-- Does the sealed value open to this plaintext? -/
def opensTo (P : Primitives) (key : MasterKey) (enc token : Bytes) : Bool :=
  match openBytes P key enc aad with
  | .ok opened => opened == token
  | .error _ => false

/-- The fallback of `find_any`: decrypt the rows that have no hash yet. -/
def findAnyByScan (P : Primitives) (key : MasterKey) (db : Database) (token : Bytes) :
    Option RefreshTokenRow :=
  db.refreshTokens.find? fun r => r.tokenHash.isNone && opensTo P key r.tokenEnc token

/-- `find_any`. -/
def findAny (P : Primitives) (key : MasterKey) (db : Database) (token : Bytes) :
    Option RefreshTokenRow :=
  (findAnyByHash P db token).or (findAnyByScan P key db token)

/-- Neither revoked nor expired. -/
def live (now : DateTime) (r : RefreshTokenRow) : Bool :=
  r.revokedAt.isNone && decide (now < r.expiresAt)

/-- `find_active`: the same two reads over the live rows. -/
def findActive (P : Primitives) (key : MasterKey) (db : Database) (now : DateTime)
    (token : Bytes) : Option RefreshTokenRow :=
  (db.refreshTokens.find? fun r => r.tokenHash == some (P.sha256 token) && live now r).or
    (db.refreshTokens.find? fun r =>
      r.tokenHash.isNone && live now r && opensTo P key r.tokenEnc token)

/-! ## Revocation and purge -/

/-- `UPDATE refresh_tokens SET revoked_at = now WHERE p AND revoked_at IS NULL`. -/
def revokeWhere (db : Database) (p : RefreshTokenRow → Bool) (now : DateTime) : Database :=
  { db with
    refreshTokens := db.refreshTokens.update (fun r => p r && r.revokedAt.isNone)
      fun r => { r with revokedAt := some now } }

/-- `revoke`. -/
def revoke (db : Database) (id : RefreshTokenId) (now : DateTime) : Database :=
  revokeWhere db (fun r => r.id == id) now

/-- `revoke_all_for_user`. -/
def revokeAllForUser (db : Database) (user : UserId) (now : DateTime) : Database :=
  revokeWhere db (fun r => r.userId == user) now

/-- `revoke_all_for_client_within_tx`. -/
def revokeAllForClient (db : Database) (client : ClientId) (now : DateTime) : Database :=
  revokeWhere db (fun r => r.clientId == client) now

/-- `revoke_family`. -/
def revokeFamily (db : Database) (family : FamilyId) (now : DateTime) : Database :=
  revokeWhere db (fun r => r.familyId == family) now

/-- `purge_expired`. -/
def purgeExpired (db : Database) (now : DateTime) : Database :=
  { db with refreshTokens := db.refreshTokens.delete fun r => r.expiresAt < now }

/-! ## Rotation -/

/-- `RotationLookup`. -/
inductive RotationLookup where
  | rotatedHere (row : RefreshTokenRow)
  | reuseDetected (row : RefreshTokenRow) (familyRevoked : Nat)
  | expired (row : RefreshTokenRow)
  | unknown

/-- `begin_rotation_within_tx`: the guarded revoke, and on reuse the revoke of
the family. -/
def beginRotation (db : Database) (tokenHash : Bytes) (expectedClient : ClientId)
    (now : DateTime) : StoreResult (RotationLookup × Database) :=
  match db.refreshTokens.find? fun r => r.tokenHash == some tokenHash with
  | none => pure (.unknown, db)
  | some row => do
    ensure (row.clientId == expectedClient) .conflict
    if row.expiresAt ≤ now && row.revokedAt.isNone then
      pure (.expired row, db)
    else
      let affected := db.refreshTokens.count fun r => r.id == row.id && r.revokedAt.isNone
      let db := revoke db row.id now
      if affected == 1 then
        pure (.rotatedHere row, db)
      else
        let familyRevoked :=
          db.refreshTokens.count fun r => r.familyId == row.familyId && r.revokedAt.isNone
        pure (.reuseDetected row familyRevoked, revokeFamily db row.familyId now)

/-- A row ready to insert and the plaintext handed to the client. -/
structure PreparedRefreshToken where
  row : RefreshTokenRow
  rawToken : Bytes

/-- `prepare_refresh_token`: hash and seal the generated token. -/
def prepareRefreshToken (P : Primitives) (key : MasterKey) (nonce : Nonce) (rawToken : Bytes)
    (row : RefreshTokenRow) : StoreResult PreparedRefreshToken := do
  let sealed ← sealBytes P key nonce rawToken aad
  pure ⟨{ row with tokenEnc := sealed, tokenHash := some (P.sha256 rawToken) }, rawToken⟩

/-- `insert_prepared_within_tx`.  The table refers to `users` and `clients`,
and its hashes are unique. -/
def insertPrepared (db : Database) (prepared : PreparedRefreshToken) : StoreResult Database := do
  let row := prepared.row
  ensure (db.users.get? row.userId).isSome .db
  ensure (db.clients.get? row.clientId).isSome .db
  ensure (db.refreshTokens.find? fun r => r.tokenHash.isSome && r.tokenHash == row.tokenHash).isNone
    .db
  let refreshTokens ← require (db.refreshTokens.insert? row) .db
  pure { db with refreshTokens }

/-- `T04Outcome`. -/
inductive T04Outcome where
  | rotated (successor : RefreshTokenRow) (rawToken : Bytes)
  | theftDetected (familyRevoked : Nat)

/-- T04: rotation, closed on reuse. -/
def rotateRefreshToken (db : Database) (presentedHash : Bytes) (expectedClient : ClientId)
    (now : DateTime) (prepared : PreparedRefreshToken) : StoreResult (T04Outcome × Database) :=
  classA none do
    let (rotation, db) ← beginRotation db presentedHash expectedClient now
    match rotation with
    | .rotatedHere row => do
      let db ← insertPrepared db prepared
      pure (.rotated prepared.row prepared.rawToken,
        ⟨"auth.refresh.rotated", some (toString row.userId), .ok,
          [("family_id", toString row.familyId)], []⟩, db)
    | .reuseDetected row familyRevoked =>
      pure (.theftDetected familyRevoked,
        ⟨"auth.refresh.theft_detected", some (toString row.userId), .ok,
          [("family_id", toString row.familyId),
            ("family_revoked_count", toString familyRevoked)], []⟩, db)
    | .expired _ => .error .notFound
    | .unknown => .error .notFound

/-- T09: initial issuance, under the protocol runner. -/
def insertInitialRefreshToken (db : Database) (prepared : PreparedRefreshToken) :
    StoreResult Database :=
  insertPrepared db prepared

/-! ## Maintenance -/

/-- `reseal_all`: every sealed token again, under the new key. -/
def resealAll (P : Primitives) (oldKey newKey : MasterKey) (nonce : RefreshTokenId → Nonce)
    (db : Database) : StoreResult Database := do
  let refreshTokens ← db.refreshTokens.forRows
    (fun r => do
      let plain ← openBytes P oldKey r.tokenEnc aad
      sealBytes P newKey (nonce r.id) plain aad)
    (fun resealed r => { r with tokenEnc := resealed })
  pure { db with refreshTokens }

/-- The rows `backfill_token_hashes` reads at its start. -/
def backfillRead (db : Database) : List (RefreshTokenId × Bytes) :=
  (db.refreshTokens.rows.filter fun r => r.tokenHash.isNone).map fun r => (r.id, r.tokenEnc)

/-- `std::str::from_utf8`. -/
def isUtf8 (bytes : Bytes) : Bool := (ByteArray.mk bytes.toArray).validateUTF8

/-- One turn of the loop of `backfill_token_hashes`.  A row that does not
decrypt, is not text, or whose hash another row has is skipped. -/
def backfillWrite (P : Primitives) (key : MasterKey) (db : Database)
    (entry : RefreshTokenId × Bytes) : Database :=
  match openBytes P key entry.2 aad with
  | .error _ => db
  | .ok plain =>
    let hash := P.sha256 plain
    if isUtf8 plain &&
        (db.refreshTokens.find? fun r => r.id != entry.1 && r.tokenHash == some hash).isNone then
      { db with
        refreshTokens := db.refreshTokens.update
          (fun r => r.id == entry.1 && r.tokenHash.isNone)
          fun r => { r with tokenHash := some hash } }
    else db

/-! ## What a committed transaction did -/

variable {db : Database} {prepared : PreparedRefreshToken}
variable {now : DateTime} {row : RefreshTokenRow} {db' : Database}

/-- A row that a sweep leaves unrevoked is one the sweep does not select. -/
theorem live_of_revokeWhere {p : RefreshTokenRow → Bool} {r : RefreshTokenRow}
    (hr : r ∈ (revokeWhere db p now).refreshTokens) (hlive : r.revokedAt = none) :
    r ∈ db.refreshTokens ∧ p r = false := by
  simp only [revokeWhere] at hr
  obtain ⟨old, hold, rfl⟩ := Table.mem_update.mp hr
  by_cases hp : (p old && old.revokedAt.isNone) = true
  · rw [if_pos hp] at hlive
    cases hlive
  · rw [if_neg hp] at hlive ⊢
    refine ⟨hold, ?_⟩
    simpa [hlive] using hp

theorem backfillWrite_eq (P : Primitives) (key : MasterKey) (db : Database)
    (entry : RefreshTokenId × Bytes) :
    ∃ refreshTokens, backfillWrite P key db entry = { db with refreshTokens } := by
  unfold backfillWrite
  split
  · exact ⟨db.refreshTokens, rfl⟩
  · dsimp only
    split
    · exact ⟨_, rfl⟩
    · exact ⟨db.refreshTokens, rfl⟩

theorem prepareRefreshToken_ok {P : Primitives} {key : MasterKey} {nonce : Nonce}
    {rawToken : Bytes} (h : prepareRefreshToken P key nonce rawToken row = .ok prepared) :
    ∃ sealed, prepared =
      ⟨{ row with tokenEnc := sealed, tokenHash := some (P.sha256 rawToken) }, rawToken⟩ := by
  simp only [prepareRefreshToken, bind_eq_ok, pure_eq_ok] at h
  obtain ⟨sealed, -, rfl⟩ := h
  exact ⟨sealed, rfl⟩

theorem insertPrepared_ok (h : insertPrepared db prepared = .ok db') :
    ∃ refreshTokens, db.refreshTokens.insert? prepared.row = some refreshTokens ∧
      db' = { db with refreshTokens } := by
  simp only [insertPrepared, bind_eq_ok, ensure_eq_ok, require_eq_ok, pure_eq_ok] at h
  obtain ⟨-, -, -, -, -, -, refreshTokens, hinsert, rfl⟩ := h
  exact ⟨refreshTokens, hinsert, rfl⟩

/-- A row that is not revoked is the one row its guarded revoke affects. -/
theorem revoke_affects_iff (hrow : row ∈ db.refreshTokens) :
    (db.refreshTokens.count fun r => r.id == row.id && r.revokedAt.isNone) = 1 ↔
      row.revokedAt = none := by
  have hle : (db.refreshTokens.count fun r => r.id == row.id && r.revokedAt.isNone) ≤ 1 := by
    rw [Table.count_le_one_iff]
    intro r hr r' hr' hp hp'
    simp only [Bool.and_eq_true, beq_iff_eq] at hp hp'
    exact Table.eq_of_key_eq hr hr' (hp.1.trans hp'.1.symm)
  constructor
  · intro hone
    obtain ⟨r, hr, hp⟩ := Table.count_pos_iff.mp (by rw [hone]; exact Nat.one_pos)
    simp only [Bool.and_eq_true, beq_iff_eq, Option.isNone_iff_eq_none] at hp
    rw [← Table.eq_of_key_eq hr hrow hp.1]
    exact hp.2
  · intro hnone
    have hpos : 0 < db.refreshTokens.count fun r => r.id == row.id && r.revokedAt.isNone :=
      Table.count_pos_iff.mpr ⟨row, hrow, by simp [hnone]⟩
    omega

/-- T04 commits in two ways: it rotates an unrevoked row, or it finds the row
revoked and revokes its family. -/
theorem rotateRefreshToken_ok {presentedHash : Bytes} {expectedClient : ClientId}
    {outcome : T04Outcome}
    (h : rotateRefreshToken db presentedHash expectedClient now prepared = .ok (outcome, db')) :
    ∃ row ∈ db.refreshTokens, row.tokenHash = some presentedHash ∧
      ((row.revokedAt = none ∧ outcome = .rotated prepared.row prepared.rawToken ∧
          ∃ refreshTokens log,
            (revoke db row.id now).refreshTokens.insert? prepared.row = some refreshTokens ∧
            db' = { db with refreshTokens, auditLog := log }) ∨
        (row.revokedAt ≠ none ∧ (∃ n, outcome = .theftDetected n) ∧
          ∃ log, db' = { revokeFamily (revoke db row.id now) row.familyId now with
            auditLog := log })) := by
  obtain ⟨event, db₁, log, hbody, rfl⟩ := classA_eq_ok h
  simp only [bind_eq_ok] at hbody
  obtain ⟨⟨rotation, db₂⟩, hbegin, hrest⟩ := hbody
  unfold beginRotation at hbegin
  split at hbegin
  · cases hbegin
    cases hrest
  · rename_i row hfind
    obtain ⟨hmem, hhash⟩ := Table.mem_of_find? hfind
    refine ⟨row, hmem, by simpa using hhash, ?_⟩
    simp only [bind_eq_ok, ensure_eq_ok] at hbegin
    obtain ⟨-, -, hbegin⟩ := hbegin
    split at hbegin
    · cases hbegin
      cases hrest
    · split at hbegin
      · rename_i hone
        cases hbegin
        simp only [bind_eq_ok, pure_eq_ok, Prod.mk.injEq] at hrest
        obtain ⟨db₃, hinsert, rfl, -, rfl⟩ := hrest
        obtain ⟨refreshTokens, htokens, rfl⟩ := insertPrepared_ok hinsert
        exact .inl ⟨(revoke_affects_iff hmem).mp (by simpa using hone), rfl, refreshTokens, log,
          htokens, rfl⟩
      · rename_i hone
        cases hbegin
        simp only [pure_eq_ok, Prod.mk.injEq] at hrest
        obtain ⟨rfl, -, rfl⟩ := hrest
        refine .inr ⟨fun hnone => hone ?_, ⟨_, rfl⟩, log, rfl⟩
        simpa using (revoke_affects_iff hmem).mpr hnone

end SuiId.RefreshTokens
