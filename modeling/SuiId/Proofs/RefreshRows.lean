import SuiId.Core.Revocation
import SuiId.Proofs.RefreshFamilies

/-!
# Rows of refresh tokens

What one event of the token endpoint makes of the rows of `refresh_tokens`, when it is neither a
write of the backfill nor a change of the master key: a row stays as it is or is revoked, a root
starts a new family, and T04 adds a successor to the family of a live row (`RowOrigin`).

* `FamilyDead`, no live row at the current time, is stable, since T04 rotates live rows only.
* `FamilyOnly`, no unrevoked row but one, is stable while T04 does not rotate that one.
-/

namespace SuiId

open Lib Lib.Result

variable {P : Primitives} {ctx : IssuanceContext}

/-- A write of `backfill_token_hashes`, or a change of the master key. -/
def Event.isMaintenance : Event → Bool
  | .backfillWrite _ => true
  | .command (.resealAll ..) => true
  | _ => false

/-- The live row that T04 finds under the presented hash. -/
def rotatable (P : Primitives) (w : World) : Event → Option RefreshTokenRow
  | .refreshRotate call draw =>
    match w.calls call with
    | some (.refreshSigned req _ _) =>
      (w.db.refreshTokens.find? fun r => r.tokenHash == some (P.sha256 req.refreshToken)).filter
        fun r => r.clientId == req.clientId && RefreshTokens.live draw.now r
    | _ => none
  | _ => none

/-- The row, or the row revoked. -/
def SameRow (r r' : RefreshTokenRow) : Prop :=
  r' = r ∨ (r.revokedAt = none ∧ ∃ t, r' = { r with revokedAt := some t })

/-- Where a row comes from. -/
inductive RowOrigin (P : Primitives) (w : World) (e : Event) (r' : RefreshTokenRow) : Prop where
  | kept (r : RefreshTokenRow) (hr : r ∈ w.db.refreshTokens) (hsame : SameRow r r')
  | root (hnew : ∀ i ∈ w.issued, i.binding.id ≠ r'.id ∧ i.binding.familyId ≠ r'.familyId)
  | successor (old : RefreshTokenRow) (hold : rotatable P w e = some old)
      (hfamily : r'.familyId = old.familyId) (hnew : ∀ i ∈ w.issued, i.binding.id ≠ r'.id)

variable {db db' : Database} {now : DateTime} {r' r row : RefreshTokenRow}

theorem sameRow_of_revokeWhere {p : RefreshTokenRow → Bool}
    (hr' : r' ∈ (RefreshTokens.revokeWhere db p now).refreshTokens) :
    ∃ r ∈ db.refreshTokens, SameRow r r' := by
  simp only [RefreshTokens.revokeWhere] at hr'
  obtain ⟨r, hr, rfl⟩ := Table.mem_update.mp hr'
  refine ⟨r, hr, ?_⟩
  by_cases hp : (p r && r.revokedAt.isNone) = true
  · rw [if_pos hp]
    rw [Bool.and_eq_true, Option.isNone_iff_eq_none] at hp
    exact .inr ⟨hp.2, now, rfl⟩
  · rw [if_neg hp]
    exact .inl rfl

theorem SameRow.trans {r'' : RefreshTokenRow} (h : SameRow r r') (h' : SameRow r' r'') :
    SameRow r r'' := by
  rcases h with rfl | ⟨hlive, t, rfl⟩
  · exact h'
  · rcases h' with rfl | ⟨hlive', -⟩
    · exact .inr ⟨hlive, t, rfl⟩
    · cases hlive'

/-- No command but the change of the master key writes anything else to a row. -/
theorem Effect.sameRow {command : Command} (h : Effect P db command db')
    (hplain : (Event.command command).isMaintenance = false) (hr' : r' ∈ db'.refreshTokens) :
    ∃ r ∈ db.refreshTokens, SameRow r r' := by
  cases h with
  | resealAll hrows => cases hplain
  | purgeExpired => exact ⟨r', (Table.mem_delete.mp hr').1, .inl rfl⟩
  | revokeConsent => exact ⟨r', (Table.mem_delete.mp hr').1, .inl rfl⟩
  | purgeCodes | enableUser | grantConsent | enableClient | issuePendingMfa =>
    exact ⟨r', hr', .inl rfl⟩
  | _ => exact sameRow_of_revokeWhere hr'

variable {draw : TokenDraw} {now' : DateTime} {f : FamilyId}

private theorem origin_of_root {w : World} {e : Event}
    {prepared : RefreshTokens.PreparedRefreshToken} (hid : row.id = draw.id)
    (hfamily : row.familyId = draw.id) (hfresh : freshDraw P w draw)
    (hprepare : prepareDrawn P draw row = .ok prepared)
    (hinsert : RefreshTokens.insertPrepared w.db prepared = .ok db')
    (hr' : r' ∈ db'.refreshTokens) : RowOrigin P w e r' := by
  obtain ⟨sealed, rfl⟩ := prepareDrawn_ok hprepare
  obtain ⟨t', htable, rfl⟩ := RefreshTokens.insertPrepared_ok hinsert
  rcases (Table.mem_of_insert? htable).mp hr' with hr' | rfl
  · exact .kept r' hr' (.inl rfl)
  · refine .root fun i hi => ?_
    show i.binding.id ≠ row.id ∧ i.binding.familyId ≠ row.familyId
    rw [hid, hfamily]
    exact ⟨(hfresh.1 i hi).1, (hfresh.1 i hi).2.1⟩

/-- T04 rotates a live row, and its successor is of the row's family. -/
theorem rotatable_of_rotated {w : World} (hd : Described P w) {call : CallId}
    {req : RefreshExchangeRequest} {successor : RefreshTokenRow} {jwt : JwtPair}
    {rawToken : Bytes} (hcall : w.calls call = some (.refreshSigned req row jwt))
    (hrotate : rotateWith P w.db ctx draw req row = .ok (.rotated successor rawToken, db')) :
    ∃ old, rotatable P w (.refreshRotate call draw) = some old ∧
      successor.familyId = old.familyId ∧ successor.id = draw.id ∧ ∃ t' log,
        (RefreshTokens.revoke w.db old.id draw.now).refreshTokens.insert? successor = some t' ∧
        db' = { w.db with refreshTokens := t', auditLog := log } := by
  obtain ⟨prepared, hprepare, hrotate⟩ := rotateWith_ok hrotate
  obtain ⟨sealed, rfl⟩ := prepareDrawn_ok hprepare
  obtain ⟨old, hfind, hclient, hlive, rfl, -, t', log, hinsert, rfl⟩ :=
    RefreshTokens.rotateRefreshToken_rotated hrotate
  obtain ⟨hold, hhash⟩ := Table.mem_of_find? hfind
  have hbinding : old.binding = row.binding :=
    hd.binding_of_call hcall rfl hold (by simpa using hhash)
  refine ⟨old, ?_, (congrArg Binding.familyId hbinding).symm, rfl, t', log, hinsert, rfl⟩
  simp only [rotatable, hcall, hfind]
  rw [Option.filter_some_pos]
  simp [hclient, hlive]

/-- Where the rows after an event come from. -/
theorem worldStep_rows {w : World} (hd : Described P w) {e : Event} (hfresh : Fresh P w e)
    (hplain : e.isMaintenance = false) (hr' : r' ∈ (worldStep P ctx w e).1.db.refreshTokens) :
    RowOrigin P w e r' := by
  generalize hdb : (worldStep P ctx w e).1.db = db' at hr'
  generalize hissued : (worldStep P ctx w e).1.issued = issued'
  have hstep : DbStep P ctx w e db' issued' := hdb ▸ hissued ▸ worldStep_db w e
  cases hstep with
  | same => exact .kept r' hr' (.inl rfl)
  | consumed hcall =>
    obtain ⟨authCodes, -, heq⟩ := consumeCode_eq P w.db _ _
    rw [heq] at hr'
    exact .kept r' hr' (.inl rfl)
  | issued hcall hissue =>
    obtain ⟨-, prepared, hprepare, hinsert⟩ := issueFor_ok hissue
    exact origin_of_root rfl rfl hfresh hprepare hinsert hr'
  | rooted hprepare hinsert => exact origin_of_root rfl rfl hfresh hprepare hinsert hr'
  | @rotated call draw req row successor jwt rawToken db' hcall hrotate =>
    obtain ⟨old, hold, hfamily, hid, t', log, hinsert, rfl⟩ := rotatable_of_rotated hd hcall hrotate
    rcases (Table.mem_of_insert? hinsert).mp hr' with hr' | rfl
    · obtain ⟨r, hr, hsame⟩ := sameRow_of_revokeWhere hr'
      exact .kept r hr hsame
    · exact .successor old hold hfamily fun i hi => hid ▸ (hfresh.1 i hi).1
  | @theft call draw req row jwt n db' hcall hrotate =>
    obtain ⟨prepared, hprepare, hrotate⟩ := rotateWith_ok hrotate
    obtain ⟨old, hold, hhash, ⟨-, hout, -⟩ | ⟨-, -, log, rfl⟩⟩ :=
      RefreshTokens.rotateRefreshToken_ok hrotate
    · cases hout
    · obtain ⟨r₁, hr₁, hsame₁⟩ := sameRow_of_revokeWhere hr'
      obtain ⟨r, hr, hsame⟩ := sameRow_of_revokeWhere hr₁
      exact .kept r hr (hsame.trans hsame₁)
  | pendingRead =>
    obtain ⟨loginPendingMfa, -, heq⟩ := readPending_eq w.db _ _
    rw [heq] at hr'
    exact .kept r' hr' (.inl rfl)
  | finished hcall =>
    obtain ⟨loginPendingMfa, userTotp, users, sessions, log, -, -, -, heq⟩ :=
      finishPending_eq w.db _ _ _ _ _ _
    rw [heq] at hr'
    exact .kept r' hr' (.inl rfl)
  | codeInserted hinsert =>
    obtain ⟨authCodes, -, rfl⟩ := AuthCodes.insert_ok hinsert
    exact .kept r' hr' (.inl rfl)
  | backfilled hentry => cases hplain
  | resolved =>
    obtain ⟨sessions, log, -, heq⟩ := resolve_eq w.db _ _
    rw [heq] at hr'
    exact .kept r' hr' (.inl rfl)
  | committed hperform =>
    obtain ⟨r, hr, hsame⟩ := (perform_effect hperform).sameRow hplain hr'
    exact .kept r hr hsame

/-! ## Families -/

/-- No row of the family is live at this time. -/
def FamilyDead (db : Database) (f : FamilyId) (now : DateTime) : Prop :=
  ∀ r ∈ db.refreshTokens, r.familyId = f → RefreshTokens.live now r = false

/-- No row of the family but this one is unrevoked. -/
def FamilyOnly (db : Database) (f : FamilyId) (id : RefreshTokenId) : Prop :=
  ∀ r ∈ db.refreshTokens, r.familyId = f → r.revokedAt = none → r.id = id

/-- A row that is live at some time was live before it. -/
theorem live_earlier (hle : now ≤ now') (hlive : RefreshTokens.live now' r = true) :
    RefreshTokens.live now r = true := by
  rw [RefreshTokens.live_iff] at hlive ⊢
  exact ⟨hlive.1, lt_of_le_of_lt hle hlive.2⟩

theorem FamilyDead.later (h : FamilyDead db f now) (hle : now ≤ now') : FamilyDead db f now' := by
  intro r hr hfamily
  rw [Bool.eq_false_iff]
  intro hlive
  have hearlier := h r hr hfamily
  rw [live_earlier hle hlive] at hearlier
  cases hearlier

/-- An unrevoked row is the row that it was. -/
theorem SameRow.live (h : SameRow r r') (hlive : r'.revokedAt = none) :
    r' = r := by
  rcases h with rfl | ⟨-, t, rfl⟩
  · rfl
  · cases hlive

theorem SameRow.id_eq (h : SameRow r r') : r'.id = r.id := by
  rcases h with rfl | ⟨-, t, rfl⟩
  · rfl
  · rfl

theorem rotatable_live {w : World} {e : Event} (h : rotatable P w e = some row) :
    row ∈ w.db.refreshTokens ∧ ∃ call draw, e = .refreshRotate call draw ∧
      RefreshTokens.live draw.now row = true := by
  unfold rotatable at h
  split at h
  · rename_i call draw
    split at h
    · obtain ⟨hfind, hp⟩ := Option.filter_eq_some_iff.mp h
      rw [Bool.and_eq_true] at hp
      exact ⟨(Table.mem_of_find? hfind).1, call, draw, rfl, hp.2⟩
    · cases h
  · cases h

section Step

variable {w : World} (hd : Described P w) {e : Event} (hfresh : Fresh P w e)
  (hplain : e.isMaintenance = false)

include hd hfresh hplain

/-- A row of an issued token was there before. -/
theorem row_of_issued {i : Issued} (hi : i ∈ w.issued) {r' : RefreshTokenRow}
    (hr' : r' ∈ (worldStep P ctx w e).1.db.refreshTokens) (hid : r'.id = i.binding.id) :
    ∃ r ∈ w.db.refreshTokens, SameRow r r' := by
  cases worldStep_rows hd hfresh hplain hr' with
  | kept r hr hsame => exact ⟨r, hr, hsame⟩
  | root hnew => exact absurd hid.symm (hnew i hi).1
  | successor old hold hfamily hnew => exact absurd hid.symm (hnew i hi)

theorem dead_step {f : FamilyId} (hknown : KnownFamily w f) {now : DateTime}
    (hdead : FamilyDead w.db f now)
    (htime : ∀ call draw, e = .refreshRotate call draw → now ≤ draw.now) :
    FamilyDead (worldStep P ctx w e).1.db f now := by
  intro r' hr' hfamily
  rw [Bool.eq_false_iff]
  intro hlive
  have hunrevoked := (RefreshTokens.live_iff.mp hlive).1
  cases worldStep_rows hd hfresh hplain hr' with
  | kept r hr hsame =>
    obtain rfl := hsame.live hunrevoked
    rw [hdead r' hr hfamily] at hlive
    cases hlive
  | root hnew =>
    obtain ⟨i, hi, hif⟩ := hknown
    exact (hnew i hi).2 (hif.trans hfamily.symm)
  | successor old hold hsame =>
    obtain ⟨hmem, call, draw, he, holdLive⟩ := rotatable_live hold
    have hdeadOld := hdead old hmem (hsame.symm.trans hfamily)
    rw [live_earlier (htime call draw he) holdLive] at hdeadOld
    cases hdeadOld

theorem only_step {f : FamilyId} (hknown : KnownFamily w f) {id : RefreshTokenId}
    (honly : FamilyOnly w.db f id) (hother : ∀ row, rotatable P w e = some row → row.id ≠ id) :
    FamilyOnly (worldStep P ctx w e).1.db f id := by
  intro r' hr' hfamily hunrevoked
  cases worldStep_rows hd hfresh hplain hr' with
  | kept r hr hsame =>
    obtain rfl := hsame.live hunrevoked
    exact honly r' hr hfamily hunrevoked
  | root hnew =>
    obtain ⟨i, hi, hif⟩ := hknown
    exact absurd (hif.trans hfamily.symm) (hnew i hi).2
  | successor old hold hsame =>
    obtain ⟨hmem, call, draw, -, holdLive⟩ := rotatable_live hold
    have hid := honly old hmem (hsame.symm.trans hfamily) (RefreshTokens.live_iff.mp holdLive).1
    exact absurd hid (hother old hold)

end Step

/-- A revoke of the one unrevoked row leaves the family dead. -/
theorem dead_of_revoke {id : RefreshTokenId} (honly : FamilyOnly db f id) (now now' : DateTime) :
    FamilyDead (RefreshTokens.revoke db id now) f now' := by
  intro r hr hfamily
  rw [Bool.eq_false_iff]
  intro hlive
  have hunrevoked := (RefreshTokens.live_iff.mp hlive).1
  obtain ⟨hmem, hother⟩ := RefreshTokens.live_of_revokeWhere hr hunrevoked
  rw [honly r hmem hfamily hunrevoked, beq_self_eq_true] at hother
  cases hother

/-- A row that is stored for a token is found under the token's hash. -/
theorem hashOf_of_isRowOf {key : MasterKey} {token : Bytes}
    (h : RefreshTokens.isRowOf P key token r = true) : HashOf P r (P.sha256 token) := by
  rw [RefreshTokens.isRowOf, Bool.or_eq_true, Bool.and_eq_true, Option.isNone_iff_eq_none] at h
  rcases h with h | ⟨hnone, hopens⟩
  · exact .inl (by simpa using h)
  · unfold RefreshTokens.opensTo at hopens
    split at hopens
    · rename_i opened hopen
      have hopened : opened = token := by simpa using hopens
      exact .inr ⟨hnone, key, opened, hopen, by rw [hopened]⟩
    · cases hopens

/-- No event touches the signing keys. -/
theorem worldStep_signingKeys (w : World) (e : Event) :
    (worldStep P ctx w e).1.db.signingKeys = w.db.signingKeys := by
  have hframe : (∃ command, e = .command command ∧
        Effect P w.db command (worldStep P ctx w e).1.db) ∨
      Frame w e (worldStep P ctx w e).1.db := worldStep_frame w e
  rcases hframe with ⟨command, rfl, heffect⟩ | hframe
  · generalize (worldStep P ctx w (.command command)).1.db = db' at heffect
    cases heffect <;> rfl
  · exact hframe.signingKeys

end SuiId
