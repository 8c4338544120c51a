import SuiId.Store.Recovery

/-!
# The table of reset and recovery links

No command deletes a row of `password_reset_tokens`, and every transaction writes it in one of
four ways:

* `issue`: `request_reset` inserts a link;
* `reissue`: U37 revokes what is outstanding of the account and inserts a link;
* `supersede`: U02, U04 and U09 revoke what is outstanding of the account;
* `complete`: U10 consumes an eligible link and revokes the others of the account.

"Outstanding" is judged by the clock value that the command is given.
-/

namespace SuiId

open Lib Lib.Result

/-- The row of a reset token. -/
def Database.resetTokenOf (db : Database) (id : ResetTokenId) : Option PasswordResetTokenRow :=
  db.passwordResetTokens.get? id

section Tables

private theorem revoked_id (now : DateTime) (t : PasswordResetTokenRow) :
    { t with revokedAt := some now }.id = t.id := rfl

private theorem consumed_id (consumedAt : DateTime) (t : PasswordResetTokenRow) :
    { t with consumedAt := some consumedAt }.id = t.id := rfl

variable (tokens : Table PasswordResetTokenRow.id)

/-- `revoke_outstanding_for_user_within_tx` on the table. -/
def supersede (user : UserId) (keep : Option ResetTokenId) (now : DateTime) :
    Table PasswordResetTokenRow.id :=
  tokens.update
    (fun t => t.userId == user && t.consumedAt.isNone && t.revokedAt.isNone &&
      now < t.expiresAt && keep != some t.id)
    (fun t => { t with revokedAt := some now }) (revoked_id now)

/-- `mark_consumed_within_tx` on the table. -/
def consumeLink (id : ResetTokenId) (consumedAt : DateTime) : Table PasswordResetTokenRow.id :=
  tokens.update (fun t => t.id == id && PasswordResetTokens.outstanding t consumedAt)
    (fun t => { t with consumedAt := some consumedAt }) (consumed_id consumedAt)

end Tables

/-- What a command does to the reset tokens. -/
inductive LinkWrite where
  | issue (row : PasswordResetTokenRow)
  | reissue (row : PasswordResetTokenRow) (now : DateTime)
  | supersede (user : UserId) (now : DateTime)
  | complete (token : ResetTokenId) (user : UserId) (consumedAt : DateTime)

namespace LinkWrite

/-- The clock value of the write. -/
def time : LinkWrite → DateTime
  | issue row => row.issuedAt
  | reissue _ now => now
  | supersede _ now => now
  | complete _ _ consumedAt => consumedAt

/-- The account whose outstanding links the write takes away. -/
def superseded : LinkWrite → Option UserId
  | issue _ => none
  | reissue row _ => some row.userId
  | supersede user _ => some user
  | complete _ user _ => some user

/-- The link that the write consumes. -/
def completed : LinkWrite → Option ResetTokenId
  | complete token _ _ => some token
  | _ => none

/-- The link that the write inserts. -/
def inserted : LinkWrite → Option PasswordResetTokenRow
  | issue row => some row
  | reissue row _ => some row
  | _ => none

/-- The table before the write and after it. -/
def Writes (write : LinkWrite) (tokens tokens' : Table PasswordResetTokenRow.id) : Prop :=
  match write with
  | issue row => tokens.insert? row = some tokens'
  | reissue row now => (SuiId.supersede tokens row.userId none now).insert? row = some tokens'
  | supersede user now => tokens' = SuiId.supersede tokens user none now
  | complete token user consumedAt =>
    (∃ t, tokens.get? token = some t ∧ PasswordResetTokens.outstanding t consumedAt = true) ∧
      tokens' = SuiId.supersede (consumeLink tokens token consumedAt) user (some token) consumedAt

end LinkWrite

/-! ## One row -/

/-- What no write changes, and what no write takes back. -/
structure LinkKept (t t' : PasswordResetTokenRow) : Prop where
  id : t'.id = t.id
  userId : t'.userId = t.userId
  expiresAt : t'.expiresAt = t.expiresAt
  consumed : t.consumedAt.isSome = true → t'.consumedAt.isSome = true
  revoked : t.revokedAt.isSome = true → t'.revokedAt.isSome = true

theorem LinkKept.refl (t : PasswordResetTokenRow) :
    LinkKept t t := ⟨rfl, rfl, rfl, fun h => h, fun h => h⟩

variable {t' : PasswordResetTokenRow}

theorem LinkKept.trans {t t'' : PasswordResetTokenRow} (h : LinkKept t t') (h' : LinkKept t' t'') :
    LinkKept t t'' where
  id := h'.id.trans h.id
  userId := h'.userId.trans h.userId
  expiresAt := h'.expiresAt.trans h.expiresAt
  consumed hc := h'.consumed (h.consumed hc)
  revoked hr := h'.revoked (h.revoked hr)

/-- The link is used, revoked or, at that time, expired. -/
def LinkSpent (t : PasswordResetTokenRow) (now : DateTime) : Prop :=
  t.consumedAt.isSome = true ∨ t.revokedAt.isSome = true ∨ t.expiresAt ≤ now

theorem linkSpent_iff {t : PasswordResetTokenRow} {now : DateTime} :
    LinkSpent t now ↔ PasswordResetTokens.outstanding t now = false := by
  rw [← Bool.not_eq_true, PasswordResetTokens.outstanding]
  simp only [LinkSpent, Bool.and_eq_true, Option.isNone_iff_eq_none, Option.isSome_iff_ne_none,
    decide_eq_true_eq, Int.not_lt, not_and]
  constructor
  · rintro (hconsumed | hrevoked | hexpired) ⟨hc, hr⟩
    · exact absurd hc hconsumed
    · exact absurd hr hrevoked
    · exact hexpired
  · intro h
    by_cases hc : t.consumedAt = none
    · by_cases hr : t.revokedAt = none
      · exact .inr (.inr (h ⟨hc, hr⟩))
      · exact .inr (.inl hr)
    · exact .inl hc

theorem LinkSpent.kept {t : PasswordResetTokenRow} {now now' : DateTime} (h : LinkSpent t now)
    (hkept : LinkKept t t') (hle : now ≤ now') : LinkSpent t' now' := by
  rcases h with hconsumed | hrevoked | hexpired
  · exact .inl (hkept.consumed hconsumed)
  · exact .inr (.inl (hkept.revoked hrevoked))
  · refine .inr (.inr ?_)
    rw [hkept.expiresAt]
    exact Int.le_trans hexpired hle

section Rows

variable {tokens : Table PasswordResetTokenRow.id} {id : ResetTokenId} {t : PasswordResetTokenRow}

/-- An outstanding link of the account is revoked; every other one is left alone. -/
theorem supersede_get? (user : UserId) (keep : Option ResetTokenId) (now : DateTime)
    (h : tokens.get? id = some t) :
    ∃ t', (supersede tokens user keep now).get? id = some t' ∧ LinkKept t t' ∧
      (t.userId = user → keep ≠ some id → LinkSpent t' now) := by
  have hid : t.id = id := (Table.get?_eq_some.mp h).2
  rw [supersede, Table.get?_update, h, Option.map_some]
  refine ⟨_, rfl, ?_, fun huser hkeep => ?_⟩
  · split
    · exact ⟨rfl, rfl, rfl, fun hc => hc, fun _ => rfl⟩
    · exact .refl t
  · split
    · exact .inr (.inl rfl)
    · rename_i hspared
      rw [linkSpent_iff, PasswordResetTokens.outstanding, ← Bool.not_eq_true]
      intro houtstanding
      simp only [Bool.and_eq_true, decide_eq_true_eq] at houtstanding
      refine hspared ?_
      simp [huser, houtstanding, hid, hkeep]

theorem consumeLink_get? (token : ResetTokenId) (consumedAt : DateTime)
    (h : tokens.get? id = some t) :
    ∃ t', (consumeLink tokens token consumedAt).get? id = some t' ∧ LinkKept t t' ∧
      (token = id → PasswordResetTokens.outstanding t consumedAt = true →
        t'.consumedAt.isSome = true) := by
  have hid : t.id = id := (Table.get?_eq_some.mp h).2
  rw [consumeLink, Table.get?_update, h, Option.map_some]
  refine ⟨_, rfl, ?_, fun htoken houtstanding => ?_⟩
  · split
    · exact ⟨rfl, rfl, rfl, fun _ => rfl, fun hr => hr⟩
    · exact .refl t
  · rw [if_pos (by simp [hid, htoken, houtstanding])]
    rfl

variable {tokens' : Table PasswordResetTokenRow.id}

theorem insert?_get? {row : PasswordResetTokenRow} (hinsert : tokens.insert? row = some tokens')
    (h : tokens.get? id = some t) :
    tokens'.get? id = some t := by
  rw [Table.get?_of_insert? hinsert, if_neg, h]
  rintro rfl
  exact (Table.insert?_eq_some.mp hinsert).1 t (Table.get?_eq_some.mp h).1
    (Table.get?_eq_some.mp h).2

variable {write : LinkWrite}

/-- No write takes a row away, and one that supersedes the links of an account leaves none of
them outstanding but the one it consumes, which it consumes. -/
theorem LinkWrite.Writes.row (hwrites : write.Writes tokens tokens') (h : tokens.get? id = some t) :
    ∃ t', tokens'.get? id = some t' ∧ LinkKept t t' ∧
      (write.superseded = some t.userId → LinkSpent t' write.time) ∧
      (write.completed = some id → t'.consumedAt.isSome = true) := by
  cases write with
  | issue row => exact ⟨t, insert?_get? hwrites h, .refl t, nofun, nofun⟩
  | reissue row now =>
    obtain ⟨t', hget, hkept, hspent⟩ := supersede_get? row.userId none now h
    refine ⟨t', insert?_get? hwrites hget, hkept, fun huser => ?_, nofun⟩
    exact hspent (Option.some.inj huser).symm nofun
  | supersede user now =>
    obtain ⟨t', hget, hkept, hspent⟩ := supersede_get? user none now h
    subst hwrites
    exact ⟨t', hget, hkept, fun huser => hspent (Option.some.inj huser).symm nofun, nofun⟩
  | complete token user consumedAt =>
    obtain ⟨⟨t₀, hget₀, houtstanding⟩, rfl⟩ := hwrites
    obtain ⟨t₁, hget₁, hkept₁, hconsumed⟩ := consumeLink_get? token consumedAt h
    obtain ⟨t₂, hget₂, hkept₂, hspent⟩ := supersede_get? user (some token) consumedAt hget₁
    have hcompleted : token = id → t₂.consumedAt.isSome = true := by
      rintro rfl
      rw [h] at hget₀
      cases hget₀
      exact hkept₂.consumed (hconsumed rfl houtstanding)
    refine ⟨t₂, hget₂, hkept₁.trans hkept₂, fun huser => ?_, fun hid => ?_⟩
    · by_cases hid : token = id
      · exact .inl (hcompleted hid)
      · refine hspent ?_ fun hsame => hid (Option.some.inj hsame)
        rw [hkept₁.userId]
        exact (Option.some.inj huser).symm
    · exact hcompleted (Option.some.inj hid)

/-- Only an insertion changes how many rows have a property that is not about their use. -/
theorem LinkWrite.Writes.count (hwrites : write.Writes tokens tokens')
    {p : PasswordResetTokenRow → Bool} (hconsumed : ∀ t consumedAt, p { t with consumedAt } = p t)
    (hrevoked : ∀ t revokedAt, p { t with revokedAt } = p t) :
    tokens'.count p = tokens.count p + (if write.inserted.any p then 1 else 0) := by
  have hmap : ∀ {t t' : Table PasswordResetTokenRow.id}, t'.rows.map p = t.rows.map p →
      t'.count p = t.count p := by
    intro t t' h
    have hcount := congrArg (List.countP id) h
    rwa [List.countP_map, List.countP_map] at hcount
  have hsupersede : ∀ {t : Table PasswordResetTokenRow.id} {user keep now},
      (SuiId.supersede t user keep now).count p = t.count p :=
    hmap (Table.map_update fun t => hrevoked t _)
  have hinsert : ∀ {t t' : Table PasswordResetTokenRow.id} {row}, t.insert? row = some t' →
      t'.count p = t.count p + (if p row then 1 else 0) := by
    intro t t' row h
    rw [Table.count, (Table.insert?_eq_some.mp h).2, List.countP_append, List.countP_singleton]
    rfl
  cases write with
  | issue row => exact hinsert hwrites
  | reissue row now => rw [hinsert hwrites, hsupersede, LinkWrite.inserted, Option.any_some]
  | supersede user now =>
    cases hwrites
    exact hsupersede
  | complete token user consumedAt =>
    obtain ⟨-, rfl⟩ := hwrites
    rw [hsupersede, consumeLink, hmap (Table.map_update fun t => hconsumed t _)]
    rfl

end Rows

/-! ## Commands -/

namespace PasswordResetTokens

theorem insertWith_writes {db db' : Database} {row : PasswordResetTokenRow} {provisioning : Bool}
    (h : insertWith db row provisioning = .ok db') :
    db.passwordResetTokens.insert? { row with provisioning } = some db'.passwordResetTokens := by
  simp only [insertWith, bind_eq_ok, ensure_eq_ok, require_eq_ok, pure_eq_ok] at h
  obtain ⟨-, -, -, -, -, -, -, -, tokens, hinsert, rfl⟩ := h
  exact hinsert

end PasswordResetTokens

section Commands

variable {db db' : Database}
variable {admin target : UserId} {session : SessionId} {now expiresAt : DateTime}
  {tokenId : ResetTokenId} {tokenHash : Bytes} {grant : RecoveryLinkGrant}
variable {reason : Option String} {u : Unit} {user : UserId} {credential : CredentialRow}
  {rfc3339 : DateTime → String}

/-- U02. -/
theorem disableUser_writes (h : disableUser db admin session target reason now = .ok (u, db')) :
    (LinkWrite.supersede target now).Writes db.passwordResetTokens db'.passwordResetTokens := by
  obtain ⟨db₁, log, hset, rfl⟩ := disableUser_ok h
  obtain ⟨-, rfl⟩ := Users.updateWhere_ok hset
  rfl

/-- U04. -/
theorem deleteUser_writes (h : deleteUser db admin session target reason now = .ok (u, db')) :
    (LinkWrite.supersede target now).Writes db.passwordResetTokens db'.passwordResetTokens := by
  obtain ⟨db₁, log, hset, rfl⟩ := deleteUser_ok h
  obtain ⟨-, rfl⟩ := Users.updateWhere_ok hset
  rfl

/-- U09. -/
theorem changePasswordSelf_writes {keepCurrentSession : Option SessionId} {revokeOthers : Bool}
    {swept : Nat × Nat}
    (h : changePasswordSelf db user credential keepCurrentSession revokeOthers now =
      .ok (swept, db')) :
    (LinkWrite.supersede user now).Writes db.passwordResetTokens db'.passwordResetTokens := by
  obtain ⟨event, db₁, log, hbody, rfl⟩ := classA_eq_ok h
  simp only [Users.clearPasswordLockout, bind_eq_ok, ensure_eq_ok, require_eq_ok, pure_eq_ok,
    Prod.mk.injEq] at hbody
  obtain ⟨-, -, ⟨lockout, db₂⟩, ⟨u, -, -, rfl⟩, -, -, rfl⟩ := hbody
  split
  · split
    · rfl
    · rfl
  · rfl

/-- U10, for an account that is active and local. -/
theorem consumeAndResetPassword_writes {token : ResetTokenId} {consumedAt : DateTime}
    {hibpWarned : Bool} {lockout : Users.PasswordLockoutCleared}
    (h : consumeAndResetPassword db user token credential consumedAt hibpWarned =
      .ok (lockout, db')) :
    (LinkWrite.complete token user consumedAt).Writes db.passwordResetTokens
        db'.passwordResetTokens ∧
      Users.isActiveLocal db user = .ok true := by
  obtain ⟨event, db₁, log, hbody, rfl⟩ := classA_eq_ok h
  simp only [markResetTokenConsumed, Users.clearPasswordLockout, bind_eq_ok, ensure_eq_ok,
    require_eq_ok, pure_eq_ok, Prod.mk.injEq, Option.any_eq_true] at hbody
  obtain ⟨db₂, ⟨-, ⟨t, hget, heligible⟩, rfl⟩, activeLocal, hactive, -, rfl, -, -, -, -,
    ⟨lockout', db₃⟩, ⟨u, -, -, rfl⟩, -, -, rfl⟩ := hbody
  exact ⟨⟨⟨t, hget, heligible⟩, rfl⟩, hactive⟩

theorem revokeAndInsertRecoveryToken_writes {via : ResetTokenOrigin} {issuedBy : Option UserId}
    {provisioning : Bool}
    (h : revokeAndInsertRecoveryToken db tokenId target tokenHash via issuedBy provisioning
      expiresAt now = .ok (grant, db')) :
    (LinkWrite.reissue
      { id := tokenId, userId := target, tokenHash, issuedAt := now, expiresAt, consumedAt := none
        requesterIp := none, issuedVia := via, issuedBy, revokedAt := none,
        provisioning } now).Writes
      db.passwordResetTokens db'.passwordResetTokens := by
  simp only [revokeAndInsertRecoveryToken, bind_eq_ok, pure_eq_ok, Prod.mk.injEq] at h
  obtain ⟨db₁, hinsert, -, rfl⟩ := h
  exact PasswordResetTokens.insertWith_writes hinsert

/-- What U37 has read about its target, and the link that it inserts. -/
structure LinkIssued (db db' : Database) (row : PasswordResetTokenRow) (now : DateTime)
    (issued : Bool → Nat) : Prop where
  target : ∃ t, Users.recoveryTarget db row.userId = .ok t ∧ row.provisioning = isProvisioning t
  belowCeiling : issued row.provisioning < linkCeiling row.provisioning
  writes : (LinkWrite.reissue row now).Writes db.passwordResetTokens db'.passwordResetTokens
  issuedAt : row.issuedAt = now

private theorem checkRecoveryTarget_reads {adminIssuer : Option UserId} {t : Users.RecoveryTarget}
    (h : checkRecoveryTarget db target adminIssuer = .ok t) :
    Users.recoveryTarget db target = .ok t := by
  simp only [checkRecoveryTarget, bind_eq_ok, pure_eq_ok, mapError_eq_ok] at h
  obtain ⟨t', hread, -, -, -, -, -, -, -, -, rfl⟩ := h
  exact hread

/-- U37 on the web. -/
theorem issueRecoveryLinkAsAdmin_issued {reason : String}
    (h : issueRecoveryLinkAsAdmin rfc3339 db admin session target tokenId tokenHash reason expiresAt
      now = .ok (grant, db')) :
    ∃ row : PasswordResetTokenRow, row.userId = target ∧ row.issuedVia = .web ∧
      row.issuedBy = some admin ∧
      LinkIssued db db' row now
        (PasswordResetTokens.countIssuedBy db admin (now - seconds 3600)) := by
  obtain ⟨event, db₁, log, hbody, rfl⟩ := classA_eq_ok h
  simp only [bind_eq_ok, ensure_eq_ok, pure_eq_ok, Prod.mk.injEq] at hbody
  obtain ⟨reason', -, stepUp, -, -, -, t, htarget, -, hceiling, ⟨grant', db₂⟩, hinsert, -, -,
    rfl⟩ :=
    hbody
  have hwrites := revokeAndInsertRecoveryToken_writes hinsert
  refine ⟨_, rfl, rfl, rfl, ⟨t, checkRecoveryTarget_reads htarget, rfl⟩, ?_, hwrites, rfl⟩
  simpa using hceiling

/-- U37 on the command line. -/
theorem issueRecoveryLinkAsOperator_issued {reason : String}
    (h : issueRecoveryLinkAsOperator rfc3339 db target tokenId tokenHash reason expiresAt now =
      .ok (grant, db')) :
    ∃ row : PasswordResetTokenRow, row.userId = target ∧ row.issuedVia = .cli ∧
      row.issuedBy = none ∧
      LinkIssued db db' row now
        (PasswordResetTokens.countIssuedViaCli db (now - seconds 3600)) := by
  obtain ⟨event, db₁, log, hbody, rfl⟩ := classA_eq_ok h
  simp only [bind_eq_ok, ensure_eq_ok, pure_eq_ok, Prod.mk.injEq] at hbody
  obtain ⟨reason', -, t, htarget, -, hceiling, ⟨grant', db₂⟩, hinsert, -, -, rfl⟩ := hbody
  have hwrites := revokeAndInsertRecoveryToken_writes hinsert
  refine ⟨_, rfl, rfl, rfl, ⟨t, checkRecoveryTarget_reads htarget, rfl⟩, ?_, hwrites, rfl⟩
  simpa using hceiling

end Commands

end SuiId
