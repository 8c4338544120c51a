import SuiId.Store.RefreshTokens

/-!
# The deny-list of access tokens

`revoked_access_tokens.rs`, and the two reads of `refresh_tokens::find_active` one by one, since
other transactions can run between them.

* `insert_ok` and `mem_purgeExpired` say what is left of a list;
* `isRowOf` says whose row a row is: `active_of_findByHash` and its siblings say that `find_active`
  finds the live row of the presented token and nothing else.
-/

namespace SuiId

open Lib Lib.Result

/-- `RevokedAccessTokenRow`. -/
structure RevokedAccessTokenRow where
  jti : String
  revokedAt : DateTime
  exp : DateTime
  revokedByUser : Option UserId
  revokedByClient : Option ClientId
deriving DecidableEq

/-- The table `revoked_access_tokens`. -/
abbrev DenyList := Table RevokedAccessTokenRow.jti

namespace RevokedAccessTokens

/-- `insert`, with `ON CONFLICT(jti) DO NOTHING`.  The row refers to a user and to a client. -/
def insert (list : DenyList) (db : Database) (row : RevokedAccessTokenRow) :
    StoreResult DenyList :=
  match list.insert? row with
  | none => pure list
  | some list' => do
    ensure (row.revokedByUser.all fun user => (db.users.get? user).isSome) .db
    ensure (row.revokedByClient.all fun client => (db.clients.get? client).isSome) .db
    pure list'

/-- `is_revoked`. -/
def isRevoked (list : DenyList) (jti : String) : Bool := (list.get? jti).isSome

/-- `purge_expired`. -/
def purgeExpired (list : DenyList) (now : DateTime) : DenyList := list.delete fun r => r.exp < now

variable {list list' : DenyList}

theorem isRevoked_iff {jti : String} : isRevoked list jti = true ↔ ∃ r ∈ list, r.jti = jti := by
  rw [isRevoked, Option.isSome_iff_exists]
  constructor
  · rintro ⟨r, hr⟩
    exact ⟨r, Table.get?_eq_some.mp hr⟩
  · rintro ⟨r, hr⟩
    exact ⟨r, Table.get?_eq_some.mpr hr⟩

theorem mem_purgeExpired {now : DateTime} {r : RevokedAccessTokenRow} :
    r ∈ purgeExpired list now ↔ r ∈ list ∧ now ≤ r.exp := by
  rw [purgeExpired, Table.mem_delete]
  simp

/-- An insert keeps the rows, and leaves one of the row's `jti`. -/
theorem insert_ok {db : Database} {row : RevokedAccessTokenRow}
    (h : insert list db row = .ok list') :
    (∀ r ∈ list, r ∈ list') ∧ ((∃ r ∈ list, r.jti = row.jti ∧ list' = list) ∨ row ∈ list') := by
  unfold insert at h
  split at h
  · rename_i htaken
    cases h
    refine ⟨fun r hr => hr, .inl ?_⟩
    by_contra hnone
    have hfresh : ∀ r ∈ list, r.jti ≠ row.jti := fun r hr hjti => hnone ⟨r, hr, hjti, rfl⟩
    obtain ⟨t, ht⟩ := Table.exists_insert? hfresh
    rw [htaken] at ht
    cases ht
  · rename_i inserted hinsert
    simp only [bind_eq_ok, ensure_eq_ok, pure_eq_ok] at h
    obtain ⟨-, -, -, -, rfl⟩ := h
    exact ⟨fun r hr => (Table.mem_of_insert? hinsert).mpr (.inl hr),
      .inr ((Table.mem_of_insert? hinsert).mpr (.inr rfl))⟩

/-- The insert of a `jti` that is there changes nothing. -/
theorem insert_of_isRevoked {db : Database} {row : RevokedAccessTokenRow}
    (h : isRevoked list row.jti = true) : insert list db row = .ok list := by
  obtain ⟨r, hr, hjti⟩ := isRevoked_iff.mp h
  unfold insert
  split
  · rfl
  · rename_i inserted hinsert
    exact absurd hjti ((Table.insert?_eq_some.mp hinsert).1 r hr)

end RevokedAccessTokens

namespace RefreshTokens

variable (P : Primitives) (key : MasterKey) (db : Database) (now : DateTime) (token : Bytes)

/-- The fast path of `find_active`. -/
def findActiveByHash : Option RefreshTokenRow :=
  db.refreshTokens.find? fun r => r.tokenHash == some (P.sha256 token) && live now r

/-- The fallback of `find_active`, with the time of the fast path. -/
def findActiveByScan : Option RefreshTokenRow :=
  db.refreshTokens.find? fun r =>
    r.tokenHash.isNone && live now r && opensTo P key r.tokenEnc token

theorem findActive_eq : findActive P key db now token =
    (findActiveByHash P db now token).or (findActiveByScan P key db now token) := rfl

/-- Is the row stored for this token? -/
def isRowOf (r : RefreshTokenRow) : Bool :=
  r.tokenHash == some (P.sha256 token) ||
    (r.tokenHash.isNone && opensTo P key r.tokenEnc token)

variable {P key db now token} {r : RefreshTokenRow}

theorem live_iff : live now r = true ↔ r.revokedAt = none ∧ now < r.expiresAt := by
  simp [live]

theorem active_of_findByHash (h : findActiveByHash P db now token = some r) :
    r ∈ db.refreshTokens ∧ isRowOf P key token r = true ∧ live now r = true := by
  obtain ⟨hmem, hp⟩ := Table.mem_of_find? h
  rw [Bool.and_eq_true] at hp
  refine ⟨hmem, ?_, hp.2⟩
  rw [isRowOf, hp.1, Bool.true_or]

theorem active_of_findByScan (h : findActiveByScan P key db now token = some r) :
    r ∈ db.refreshTokens ∧ isRowOf P key token r = true ∧ live now r = true := by
  obtain ⟨hmem, hp⟩ := Table.mem_of_find? h
  rw [Bool.and_eq_true, Bool.and_eq_true] at hp
  refine ⟨hmem, ?_, hp.1.2⟩
  rw [isRowOf, hp.1.1, hp.2]
  simp

theorem active_of_findActive (h : findActive P key db now token = some r) :
    r ∈ db.refreshTokens ∧ isRowOf P key token r = true ∧ live now r = true := by
  rw [findActive_eq, Option.or_eq_some_iff] at h
  rcases h with h | ⟨-, h⟩
  · exact active_of_findByHash h
  · exact active_of_findByScan h

/-- The fast path passes over a row with the token's hash only when it is not live. -/
theorem not_live_of_findByHash (h : findActiveByHash P db now token = none)
    (hr : r ∈ db.refreshTokens) (hhash : r.tokenHash = some (P.sha256 token)) :
    live now r = false := by
  have hp := Table.find?_eq_none.mp h r hr
  simpa [hhash] using hp

theorem not_live_of_findByScan (h : findActiveByScan P key db now token = none)
    (hr : r ∈ db.refreshTokens) (hnone : r.tokenHash = none)
    (hopens : opensTo P key r.tokenEnc token = true) : live now r = false := by
  have hp := Table.find?_eq_none.mp h r hr
  simpa [hnone, hopens] using hp

/-- T04 rotates the row it finds under the presented hash, when that is the client's and live. -/
theorem rotateRefreshToken_rotated {db' : Database} {presentedHash : Bytes}
    {expectedClient : ClientId} {prepared : PreparedRefreshToken} {successor : RefreshTokenRow}
    {rawToken : Bytes}
    (h : rotateRefreshToken db presentedHash expectedClient now prepared =
      .ok (.rotated successor rawToken, db')) :
    ∃ row, (db.refreshTokens.find? fun r => r.tokenHash == some presentedHash) = some row ∧
      row.clientId = expectedClient ∧ live now row = true ∧ successor = prepared.row ∧
      rawToken = prepared.rawToken ∧ ∃ refreshTokens log,
        (revoke db row.id now).refreshTokens.insert? successor = some refreshTokens ∧
        db' = { db with refreshTokens, auditLog := log } := by
  obtain ⟨event, db₁, log, hbody, rfl⟩ := classA_eq_ok h
  simp only [bind_eq_ok] at hbody
  obtain ⟨⟨rotation, db₂⟩, hbegin, hrest⟩ := hbody
  unfold beginRotation at hbegin
  split at hbegin
  · cases hbegin
    cases hrest
  · rename_i row hfind
    have hmem : row ∈ db.refreshTokens := (Table.mem_of_find? hfind).1
    simp only [bind_eq_ok, ensure_eq_ok] at hbegin
    obtain ⟨-, hclient, hbegin⟩ := hbegin
    split at hbegin
    · cases hbegin
      cases hrest
    · rename_i hnotExpired
      split at hbegin
      · rename_i hone
        cases hbegin
        simp only [bind_eq_ok, pure_eq_ok, Prod.mk.injEq, T04Outcome.rotated.injEq] at hrest
        obtain ⟨db₃, hinsert, ⟨rfl, rfl⟩, -, rfl⟩ := hrest
        obtain ⟨refreshTokens, htokens, rfl⟩ := insertPrepared_ok hinsert
        have hunrevoked : row.revokedAt = none := (revoke_affects_iff hmem).mp (by simpa using hone)
        have hunexpired : now < row.expiresAt := by
          rw [hunrevoked] at hnotExpired
          simpa using hnotExpired
        exact ⟨row, hfind, by simpa using hclient, live_iff.mpr ⟨hunrevoked, hunexpired⟩, rfl, rfl,
          refreshTokens, log, htokens, rfl⟩
      · cases hbegin
        cases hrest

end RefreshTokens

end SuiId
