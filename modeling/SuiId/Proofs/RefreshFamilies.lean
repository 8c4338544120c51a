import SuiId.Proofs.TokenHistory

/-!
# Refresh-token families

Rotation keeps a family to one unrevoked row, and reuse closes it for good.

* `FamilyClosed` is stable: a successor is inserted only after T04 revoked an
  unrevoked row with the same family, and a root has a new family.
* `OneLive` is stable for the same two reasons.
* A presented token is rotated at most once: afterwards its row is revoked, and
  no later row has its hash.
-/

namespace SuiId

open Lib Lib.Result

variable {P : Primitives} {ctx : IssuanceContext}

/-! ## Closed families -/

/-- No row of the family is unrevoked. -/
def FamilyClosed (db : Database) (f : FamilyId) : Prop :=
  ∀ r ∈ db.refreshTokens, r.familyId = f → r.revokedAt ≠ none

/-- Some token of the family has been issued. -/
def KnownFamily (w : World) (f : FamilyId) : Prop := ∃ e ∈ w.issued, e.binding.familyId = f

variable {issued : List Issued} {r r' : RefreshTokenRow} {db : Database} {t : RefreshTokenTable}
  {a : Answer}

/-- A kept row that is unrevoked was unrevoked. -/
theorem Kept.live (h : Kept P issued r r') (hlive : r'.revokedAt = none) : r.revokedAt = none := by
  cases hr : r.revokedAt with
  | none => rfl
  | some t =>
    rw [h.revoked t hr] at hlive
    cases hlive

section Change

variable {w : World} {e : Event} {t' : RefreshTokenTable} {issued' : List Issued}

theorem Described.known_of_mem (hd : Described P w) {r : RefreshTokenRow}
    (hr : r ∈ w.db.refreshTokens) : KnownFamily w r.familyId := by
  obtain ⟨e, he, hb, -⟩ := hd.row r hr
  exact ⟨e, he, by rw [hb]; rfl⟩

/-- An unrevoked row after the event continues the family of an unrevoked row
before it, or starts a new family. -/
theorem TokenChange.live_origin (h : TokenChange P w e t' issued') {r' : RefreshTokenRow}
    (hr' : r' ∈ t') (hlive : r'.revokedAt = none) :
    (∃ r ∈ w.db.refreshTokens, r.familyId = r'.familyId ∧ r.userId = r'.userId ∧
        r.clientId = r'.clientId ∧ r.revokedAt = none) ∨
      (rootGrant w e = some (r'.userId, r'.clientId) ∧
        ∀ e ∈ w.issued, e.binding.familyId ≠ r'.familyId) := by
  have hkeep : ∀ r, Kept P w.issued r r' → r.familyId = r'.familyId ∧ r.userId = r'.userId ∧
      r.clientId = r'.clientId ∧ r.revokedAt = none := by
    intro r hkept
    refine ⟨(congrArg Binding.familyId hkept.binding).symm,
      (congrArg Binding.userId hkept.binding).symm,
      (congrArg Binding.clientId hkept.binding).symm, hkept.live hlive⟩
  cases h with
  | quiet hevolves =>
    obtain ⟨r, hr, hkept⟩ := hevolves r' hr'
    exact .inl ⟨r, hr, hkeep r hkept⟩
  | rooted hgrant hroot _ _ hnew _ hinsert =>
    rcases (Table.mem_of_insert? hinsert).mp hr' with hr' | rfl
    · exact .inl ⟨r', hr', rfl, rfl, rfl, hlive⟩
    · refine .inr ⟨hgrant, fun e he => ?_⟩
      rw [hroot]
      exact (hnew e he).2.1
  | @rotated old successor hash now t' hold holdLive hbinding _ _ hnew _ hinsert =>
    rcases (Table.mem_of_insert? hinsert).mp hr' with hr' | rfl
    · obtain ⟨r, hr, hkept⟩ := evolves_revokeWhere w.issued w.db _ _ r' hr'
      exact .inl ⟨r, hr, hkeep r hkept⟩
    · exact .inl ⟨old, hold, (congrArg Binding.familyId hbinding).symm,
        (congrArg Binding.userId hbinding).symm, (congrArg Binding.clientId hbinding).symm,
        holdLive⟩

theorem TokenChange.closed (h : TokenChange P w e t' issued') {f : FamilyId}
    (hknown : KnownFamily w f) (hclosed : FamilyClosed w.db f) :
    ∀ r' ∈ t', r'.familyId = f → r'.revokedAt ≠ none := by
  intro r' hr' hfam hlive
  rcases h.live_origin hr' hlive with ⟨r, hr, hsame, -, -, hrlive⟩ | ⟨-, hnew⟩
  · exact hclosed r hr (hsame.trans hfam) hrlive
  · obtain ⟨e, he, hef⟩ := hknown
    exact hnew e he (hef.trans hfam.symm)

end Change

variable {f : FamilyId} {token : Bytes}

/-- A closed family stays closed. -/
theorem closed_step (hP : P.Lawful) {w : World} (hd : Described P w) {e : Event}
    (hfresh : Fresh P w e) (hknown : KnownFamily w f) (hclosed : FamilyClosed w.db f) :
    FamilyClosed (worldStep P ctx w e).1.db f :=
  (worldStep_tokens hP hd hfresh).closed hknown hclosed

theorem known_step (hP : P.Lawful) {w : World} (hd : Described P w) {e : Event}
    (hfresh : Fresh P w e) (hknown : KnownFamily w f) :
    KnownFamily (worldStep P ctx w e).1 f := by
  obtain ⟨e', he', hf⟩ := hknown
  have hchange : TokenChange P w e (worldStep P ctx w e).1.db.refreshTokens
      (worldStep P ctx w e).1.issued := worldStep_tokens hP hd hfresh
  exact ⟨e', hchange.mem_issued he', hf⟩

/-- A family that is closed at some point of a run is closed from then on. -/
theorem closed_run (hP : P.Lawful) {w : World} (hd : Described P w) {es : List Event}
    (hfresh : Machine.Guarded (worldStep P ctx) (Fresh P) w es) (hknown : KnownFamily w f)
    (hclosed : FamilyClosed w.db f) :
    FamilyClosed (Machine.run (worldStep P ctx) w es).db f := by
  have hstep : ∀ w e, (Described P w ∧ KnownFamily w f ∧ FamilyClosed w.db f) → Fresh P w e →
      Described P (worldStep P ctx w e).1 ∧ KnownFamily (worldStep P ctx w e).1 f ∧
        FamilyClosed (worldStep P ctx w e).1.db f := by
    rintro w e ⟨hd, hknown, hclosed⟩ hfresh
    exact ⟨described_step hP hd hfresh, known_step hP hd hfresh hknown,
      closed_step hP hd hfresh hknown hclosed⟩
  exact (Machine.run_invariant hstep hfresh ⟨hd, hknown, hclosed⟩).2.2

/-! ## At most one unrevoked row -/

/-- How many rows of the family are unrevoked. -/
def liveCount (db : Database) (f : FamilyId) : Nat :=
  db.refreshTokens.count fun r => r.familyId == f && r.revokedAt.isNone

/-- Two unrevoked rows of one family are the same row. -/
def OneLive (t : RefreshTokenTable) : Prop :=
  ∀ r ∈ t, ∀ r' ∈ t, r.familyId = r'.familyId → r.revokedAt = none → r'.revokedAt = none → r = r'

theorem liveCount_le_one_iff :
    (∀ f, liveCount db f ≤ 1) ↔ OneLive db.refreshTokens := by
  constructor
  · intro h r hr r' hr' hfam hlive hlive'
    refine Table.count_le_one_iff.mp (h r.familyId) r hr r' hr' ?_ ?_
    · simp [hlive]
    · simp [hlive', hfam]
  · intro h f
    refine Table.count_le_one_iff.mpr fun r hr r' hr' hp hp' => ?_
    simp only [Bool.and_eq_true, beq_iff_eq, Option.isNone_iff_eq_none] at hp hp'
    exact h r hr r' hr' (hp.1.trans hp'.1.symm) hp.2 hp'.2

/-- Rows that come from the rows of a `OneLive` table are `OneLive`. -/
theorem Evolves.oneLive {t' : RefreshTokenTable} (h : Evolves P issued t t') (hone : OneLive t) :
    OneLive t' := by
  intro r₁ hr₁ r₂ hr₂ hfam hlive₁ hlive₂
  obtain ⟨s₁, hs₁, hkept₁⟩ := h r₁ hr₁
  obtain ⟨s₂, hs₂, hkept₂⟩ := h r₂ hr₂
  have hsfam : s₁.familyId = s₂.familyId := by
    rw [← RefreshTokenRow.family_of_binding hkept₁.binding, hfam,
      RefreshTokenRow.family_of_binding hkept₂.binding]
  have hs : s₁ = s₂ := hone s₁ hs₁ s₂ hs₂ hsfam (hkept₁.live hlive₁) (hkept₂.live hlive₂)
  refine Table.eq_of_key_eq hr₁ hr₂ ?_
  rw [RefreshTokenRow.id_of_binding hkept₁.binding, hs,
    RefreshTokenRow.id_of_binding hkept₂.binding]

/-- A row may join a `OneLive` table when its family has no unrevoked row. -/
theorem OneLive.insert {t' : RefreshTokenTable} {row : RefreshTokenRow} (hone : OneLive t)
    (hclosed : ∀ r ∈ t, r.familyId = row.familyId → r.revokedAt ≠ none)
    (hinsert : t.insert? row = some t') : OneLive t' := by
  intro r₁ hr₁ r₂ hr₂ hfam hlive₁ hlive₂
  rcases (Table.mem_of_insert? hinsert).mp hr₁ with hr₁ | rfl
  · rcases (Table.mem_of_insert? hinsert).mp hr₂ with hr₂ | rfl
    · exact hone r₁ hr₁ r₂ hr₂ hfam hlive₁ hlive₂
    · exact absurd hlive₁ (hclosed r₁ hr₁ hfam)
  · rcases (Table.mem_of_insert? hinsert).mp hr₂ with hr₂ | rfl
    · exact absurd hlive₂ (hclosed r₂ hr₂ hfam.symm)
    · rfl

/-- Revoking the unrevoked row of a family closes the family. -/
theorem closed_of_revoke {old : RefreshTokenRow} (hone : OneLive db.refreshTokens)
    (hold : old ∈ db.refreshTokens) (holdLive : old.revokedAt = none) (now : DateTime) :
    FamilyClosed (RefreshTokens.revoke db old.id now) old.familyId := by
  intro r hr hfam hlive
  obtain ⟨hr, hother⟩ := RefreshTokens.live_of_revokeWhere hr hlive
  rw [hone r hr old hold hfam hlive holdLive, beq_self_eq_true] at hother
  cases hother

theorem TokenChange.oneLive {w : World} {e : Event} {t' : RefreshTokenTable}
    {issued' : List Issued} (h : TokenChange P w e t' issued') (hd : Described P w)
    (hone : OneLive w.db.refreshTokens) : OneLive t' := by
  cases h with
  | quiet hevolves => exact hevolves.oneLive hone
  | rooted hgrant hroot hlive hhash hnew hunseen hinsert =>
    refine hone.insert (fun r hr hfam => ?_) hinsert
    obtain ⟨e, he, hef⟩ := hd.known_of_mem hr
    exact absurd ((hef.trans hfam).trans hroot) (hnew e he).2.1
  | @rotated old successor hash now t' hold holdLive hbinding hlive hhash hnew hunseen hinsert =>
    have hrevoke : Evolves P w.issued w.db.refreshTokens
        (RefreshTokens.revoke w.db old.id now).refreshTokens :=
      evolves_revokeWhere w.issued w.db _ now
    refine (hrevoke.oneLive hone).insert (fun r hr hfam => ?_) hinsert
    have hsame : successor.familyId = old.familyId := congrArg Binding.familyId hbinding
    exact closed_of_revoke hone hold holdLive now r hr (hfam.trans hsame)

/-! ## Whole runs -/

/-- No event changes or removes the revocation of a row that stays. -/
theorem revocation_kept (hP : P.Lawful) {w : World} (hd : Described P w) {e : Event}
    (hfresh : Fresh P w e) {t : DateTime} (hr : r ∈ w.db.refreshTokens)
    (hrevoked : r.revokedAt = some t) (hr' : r' ∈ (worldStep P ctx w e).1.db.refreshTokens)
    (hid : r'.id = r.id) :
    r'.revokedAt = some t := by
  rcases (worldStep_tokens hP hd hfresh).mem hr' with ⟨s, hs, hkept⟩ | ⟨hash, -, -, hnew, -⟩
  · have hsr : s = r := by
      refine Table.eq_of_key_eq hs hr ?_
      rw [← RefreshTokenRow.id_of_binding hkept.binding, hid]
    rw [hsr] at hkept
    exact hkept.revoked t hrevoked
  · obtain ⟨e', he', hb, -⟩ := hd.row r hr
    have hne := (hnew e' he').1
    rw [hb] at hne
    exact absurd hid.symm hne

/-- In every state of every run: each family has at most one unrevoked row and
one grant; and no event changes a revocation. -/
theorem families_throughout (hP : P.Lawful) {w : World} (hd : Described P w)
    (hone : ∀ f, liveCount w.db f ≤ 1) {es : List Event}
    (hfresh : Machine.Guarded (worldStep P ctx) (Fresh P) w es) :
    (∀ before after, es = before ++ after →
        let db := (Machine.run (worldStep P ctx) w before).db
        (∀ f, liveCount db f ≤ 1) ∧
          ∀ r ∈ db.refreshTokens, ∀ r' ∈ db.refreshTokens, r.familyId = r'.familyId →
            r.userId = r'.userId ∧ r.clientId = r'.clientId ∧ r.scope = r'.scope ∧
              r.authMethods = r'.authMethods) ∧
      ∀ x ∈ Machine.trace (worldStep P ctx) w es, ∀ r ∈ x.pre.db.refreshTokens, ∀ t,
        r.revokedAt = some t →
          ∀ r' ∈ (worldStep P ctx x.pre x.event).1.db.refreshTokens, r'.id = r.id →
            r'.revokedAt = some t := by
  have hstep : ∀ w e, (Described P w ∧ OneLive w.db.refreshTokens) → Fresh P w e →
      Described P (worldStep P ctx w e).1 ∧
        OneLive (worldStep P ctx w e).1.db.refreshTokens := by
    rintro w e ⟨hd, hone⟩ hfresh
    exact ⟨described_step hP hd hfresh, (worldStep_tokens hP hd hfresh).oneLive hd hone⟩
  have hstart := (⟨hd, liveCount_le_one_iff.mp hone⟩ :
    Described P w ∧ OneLive w.db.refreshTokens)
  refine ⟨?_, fun x hx r hr t hrevoked r' hr' hid => ?_⟩
  · rintro before after rfl
    have hinv := Machine.run_invariant hstep (Machine.guarded_append.mp hfresh).1 hstart
    refine ⟨liveCount_le_one_iff.mpr hinv.2, fun r hr r' hr' hfam => ?_⟩
    obtain ⟨e, he, hb, -⟩ := hinv.1.row r hr
    obtain ⟨e', he', hb', -⟩ := hinv.1.row r' hr'
    have hgrant := hinv.1.family e he e' he' (by rw [hb, hb']; exact hfam)
    rw [hb, hb'] at hgrant
    exact hgrant
  · obtain ⟨⟨hd', -⟩, hfresh', -⟩ := Machine.trace_invariant hstep hfresh hstart hx
    exact revocation_kept hP hd' hfresh' hr hrevoked hr' hid

/-! ## One rotation for each token -/

/-- The token a T04 step is run for. -/
def presentedToken (w : World) : Event → Option Bytes
  | .refreshRotate call _ =>
    match w.calls call with
    | some (.refreshSigned req _ _) => some req.refreshToken
    | _ => none
  | _ => none

def Answer.isRotated : Answer → Bool
  | .rotation (.ok (.rotated _ _)) _ => true
  | _ => false

def Answer.isTheft : Answer → Bool
  | .rotation (.ok (.theftDetected _)) _ => true
  | _ => false

/-- The step is a T04 for this token that returned `Rotated`. -/
def rotates (token : Bytes) (x : Machine.Taken World Event Answer) : Bool :=
  presentedToken x.pre x.event == some token && x.out.isRotated

theorem isRotated_iff :
    a.isRotated = true ↔ ∃ s raw result, a = .rotation (.ok (.rotated s raw)) result := by
  unfold Answer.isRotated
  split
  · simp
  · rename_i hnot
    simp only [Bool.false_eq_true, false_iff]
    rintro ⟨s, raw, result, rfl⟩
    exact hnot s raw result rfl

theorem isTheft_iff :
    a.isTheft = true ↔ ∃ n result, a = .rotation (.ok (.theftDetected n)) result := by
  unfold Answer.isTheft
  split
  · simp
  · rename_i hnot
    simp only [Bool.false_eq_true, false_iff]
    rintro ⟨n, result, rfl⟩
    exact hnot n result rfl

/-- A rotation found an unrevoked row under the presented token, and left it
revoked. -/
theorem rotated_spends {w : World} {e : Event} (htoken : presentedToken w e = some token)
    (hrotated : (worldStep P ctx w e).2.isRotated = true) :
    ∃ old ∈ w.db.refreshTokens, old.tokenHash = some (P.sha256 token) ∧ old.revokedAt = none ∧
      ∃ successor now t', (worldStep P ctx w e).1.db.refreshTokens = t' ∧
        (∃ draw, successor.id = draw.id ∧ ∃ call, e = .refreshRotate call draw) ∧
        (RefreshTokens.revoke w.db old.id now).refreshTokens.insert? successor = some t' := by
  obtain ⟨_, _, _, hanswer⟩ := isRotated_iff.mp hrotated
  obtain ⟨call, draw, req, row, jwt, rfl, hcall, hstep⟩ := worldStep_rotation hanswer
  have hreq : req.refreshToken = token := by simpa [presentedToken, hcall] using htoken
  subst hreq
  rw [hstep] at hrotated ⊢
  unfold rotateStep at hrotated ⊢
  split at hrotated
  · rename_i successor rawToken db' hrotate
    obtain ⟨prepared, hprepare, hcommit⟩ := rotateWith_ok hrotate
    obtain ⟨sealed, rfl⟩ := prepareDrawn_ok hprepare
    obtain ⟨old, hold, hhash, ⟨hlive, hout, t', log, hinsert, rfl⟩ | ⟨-, ⟨n, hout⟩, -⟩⟩ :=
      RefreshTokens.rotateRefreshToken_ok hcommit
    · cases hout
      exact ⟨old, hold, hhash, hlive, _, draw.now, t', rfl, ⟨draw, rfl, call, rfl⟩, hinsert⟩
    · cases hout
  · cases hrotated
  · cases hrotated

/-- The token set `exchange_refresh` returns. -/
def Answer.refreshed : Answer → Option TokenSet
  | .rotation _ (.ok tokens) => some tokens
  | _ => none

/-- A token set comes from an unrevoked row that T04 found under the presented
token, and is for that row's user. -/
theorem refreshed_spends {w : World} (hd : Described P w) {e : Event} {tokens : TokenSet}
    (h : (worldStep P ctx w e).2.refreshed = some tokens) :
    ∃ call draw req row jwt, e = .refreshRotate call draw ∧
      w.calls call = some (.refreshSigned req row jwt) ∧ tokens.userId = some row.userId ∧
      ∃ old ∈ w.db.refreshTokens, old.revokedAt = none ∧
        old.tokenHash = some (P.sha256 req.refreshToken) ∧ old.binding = row.binding := by
  have hrotation : ∃ outcome, (worldStep P ctx w e).2 = .rotation outcome (.ok tokens) := by
    unfold Answer.refreshed at h
    split at h
    · rename_i outcome tokens' hanswer
      cases h
      exact ⟨outcome, hanswer⟩
    · cases h
  obtain ⟨outcome, hanswer⟩ := hrotation
  obtain ⟨call, draw, req, row, jwt, rfl, hcall, hstep⟩ := worldStep_rotation hanswer
  have htoken : presentedToken w (.refreshRotate call draw) = some req.refreshToken := by
    simp [presentedToken, hcall]
  have hrefresh : refreshAnswer row jwt outcome = .ok tokens := by
    rw [hstep] at hanswer
    unfold rotateStep at hanswer
    split at hanswer
    all_goals
      rw [Answer.rotation.injEq] at hanswer
      obtain ⟨rfl, hrefresh⟩ := hanswer
      exact hrefresh
  obtain ⟨huser, successor, rawToken, rfl⟩ := refreshAnswer_ok hrefresh
  have hrotated : (worldStep P ctx w (.refreshRotate call draw)).2.isRotated = true := by
    rw [hanswer]
    rfl
  obtain ⟨old, hold, hhash, hlive, -⟩ := rotated_spends htoken hrotated
  exact ⟨call, draw, req, row, jwt, rfl, hcall, huser, old, hold, hlive, hhash,
    hd.binding_of_call hcall rfl hold hhash⟩

/-- The token has been rotated: its row, if it still exists, is revoked. -/
def Spent (P : Primitives) (token : Bytes) (w : World) : Prop :=
  ∃ e ∈ w.issued, e.hash = P.sha256 token ∧
    ∀ r ∈ w.db.refreshTokens, r.id = e.binding.id → r.revokedAt ≠ none

theorem spent_step (hP : P.Lawful) {w : World} (hd : Described P w) {e : Event}
    (hfresh : Fresh P w e) (hspent : Spent P token w) :
    Spent P token (worldStep P ctx w e).1 := by
  obtain ⟨e', he', hhash, hrows⟩ := hspent
  have hchange : TokenChange P w e (worldStep P ctx w e).1.db.refreshTokens
      (worldStep P ctx w e).1.issued := worldStep_tokens hP hd hfresh
  refine ⟨e', hchange.mem_issued he', hhash, fun r' hr' hid hlive => ?_⟩
  rcases hchange.mem hr' with ⟨r, hr, hkept⟩ | ⟨hash, -, -, hnew, -⟩
  · refine hrows r hr ?_ (hkept.live hlive)
    rw [← RefreshTokenRow.id_of_binding hkept.binding, hid]
  · exact (hnew e' he').1 hid.symm

theorem spent_of_rotated (hP : P.Lawful) {w : World} (hd : Described P w) {e : Event}
    (hfresh : Fresh P w e) (htoken : presentedToken w e = some token)
    (hrotated : (worldStep P ctx w e).2.isRotated = true) :
    Spent P token (worldStep P ctx w e).1 := by
  have hchange : TokenChange P w e (worldStep P ctx w e).1.db.refreshTokens
      (worldStep P ctx w e).1.issued := worldStep_tokens hP hd hfresh
  obtain ⟨old, hold, hhash, hlive, successor, now, t', htable, ⟨draw, hdraw, call, rfl⟩,
    hinsert⟩ := rotated_spends htoken hrotated
  obtain ⟨e', he', hb, hehash⟩ := hd.row old hold
  refine ⟨e', hchange.mem_issued he', hehash _ (.inl hhash), fun r' hr' hid hlive' => ?_⟩
  rw [htable] at hr'
  have heid : e'.binding.id = old.id := by
    rw [hb]
    rfl
  rcases (Table.mem_of_insert? hinsert).mp hr' with hr' | rfl
  · obtain ⟨-, hother⟩ := RefreshTokens.live_of_revokeWhere hr' hlive'
    rw [hid, heid, beq_self_eq_true] at hother
    cases hother
  · exact (hfresh.1 e' he').1 (hid.symm.trans hdraw)

theorem not_rotated_of_spent {w : World} (hd : Described P w) {e : Event}
    (hspent : Spent P token w) (htoken : presentedToken w e = some token) :
    (worldStep P ctx w e).2.isRotated = false := by
  rw [← Bool.not_eq_true]
  intro hrotated
  obtain ⟨old, hold, hhash, hlive, -⟩ := rotated_spends htoken hrotated
  obtain ⟨e', he', hehash, hrows⟩ := hspent
  obtain ⟨e'', he'', hb, hehash'⟩ := hd.row old hold
  have hsame : e' = e'' := hd.hash_inj e' he' e'' he'' (by rw [hehash, hehash' _ (.inl hhash)])
  refine hrows old hold ?_ hlive
  rw [hsame, hb]
  rfl

/-! ## Reuse closes the family -/

theorem closed_of_revokeFamily (db : Database) (f : FamilyId) (now : DateTime) :
    FamilyClosed (RefreshTokens.revokeFamily db f now) f := by
  intro r hr hfam hlive
  obtain ⟨-, hother⟩ := RefreshTokens.live_of_revokeWhere hr hlive
  rw [hfam, beq_self_eq_true] at hother
  cases hother

/-- A detected reuse leaves no unrevoked row in the family of the presented
token. -/
theorem theft_closes {w : World} (hd : Described P w) {e : Event}
    (htheft : (worldStep P ctx w e).2.isTheft = true) :
    ∃ token, presentedToken w e = some token ∧ ∃ row ∈ w.db.refreshTokens,
      row.tokenHash = some (P.sha256 token) ∧ KnownFamily w row.familyId ∧
      FamilyClosed (worldStep P ctx w e).1.db row.familyId := by
  obtain ⟨_, _, hanswer⟩ := isTheft_iff.mp htheft
  obtain ⟨call, draw, req, row, jwt, rfl, hcall, hstep⟩ := worldStep_rotation hanswer
  refine ⟨req.refreshToken, by simp [presentedToken, hcall], ?_⟩
  rw [hstep] at htheft ⊢
  unfold rotateStep at htheft ⊢
  split at htheft
  · cases htheft
  · rename_i n db' hrotate
    obtain ⟨prepared, -, hcommit⟩ := rotateWith_ok hrotate
    obtain ⟨old, hold, hhash, ⟨-, hout, -⟩ | ⟨-, -, log, rfl⟩⟩ :=
      RefreshTokens.rotateRefreshToken_ok hcommit
    · cases hout
    · refine ⟨old, hold, hhash, hd.known_of_mem hold, ?_⟩
      exact closed_of_revokeFamily (RefreshTokens.revoke w.db old.id draw.now) old.familyId draw.now
  · cases htheft

/-- In every run, each presented token is rotated at most once, and a family in
which reuse was detected never has an unrevoked row again. -/
theorem rotation_throughout (hP : P.Lawful) {w : World} (hd : Described P w) {es : List Event}
    (hfresh : Machine.Guarded (worldStep P ctx) (Fresh P) w es) :
    (∀ token, (Machine.trace (worldStep P ctx) w es).countP (rotates token) ≤ 1) ∧
      ∀ before e after, es = before ++ e :: after →
        let pre := Machine.run (worldStep P ctx) w before
        (worldStep P ctx pre e).2.isTheft = true →
          ∃ token, presentedToken pre e = some token ∧ ∃ row ∈ pre.db.refreshTokens,
            row.tokenHash = some (P.sha256 token) ∧ ∀ mid rest, after = mid ++ rest →
              FamilyClosed (Machine.run (worldStep P ctx) (worldStep P ctx pre e).1 mid).db
                row.familyId := by
  have hstep : ∀ w e, Described P w → Fresh P w e → Described P (worldStep P ctx w e).1 :=
    fun w e hd hfresh => described_step hP hd hfresh
  constructor
  · intro token
    refine Machine.countP_trace_le_one (D := Spent P token) hstep ?_ ?_ ?_ hfresh hd
    · intro w e hd hfresh hrotates
      rw [rotates, Bool.and_eq_true, beq_iff_eq] at hrotates
      exact spent_of_rotated hP hd hfresh hrotates.1 hrotates.2
    · intro w e hd hfresh hspent
      exact spent_step hP hd hfresh hspent
    · intro w e hd hfresh hspent
      by_cases htoken : presentedToken w e = some token
      · simp [rotates, not_rotated_of_spent hd hspent htoken]
      · simp [rotates, htoken]
  · rintro before e after rfl pre htheft
    obtain ⟨hbefore, hfreshE, hafter⟩ := Machine.guarded_append.mp hfresh
    have hpre : Described P pre := Machine.run_invariant hstep hbefore hd
    obtain ⟨token, htoken, row, hrow, hhash, hknown, hclosed⟩ := theft_closes hpre htheft
    refine ⟨token, htoken, row, hrow, hhash, ?_⟩
    rintro mid rest rfl
    exact closed_run hP (hstep pre e hpre hfreshE) (Machine.guarded_append.mp hafter).1
      (known_step hP hpre hfreshE hknown) hclosed

/-! ## A run with a legacy row -/

def sampleKey : MasterKey := MasterKey.constant 7

/-- A value sealed under `sampleKey` with the running cipher. -/
def sampleSealed (plaintext aad : Bytes) : Bytes :=
  (Nonce.constant 1).bytes ++ (sampleKey.bytes ++ aad ++ plaintext)

/-- A public client. -/
def sampleClient : ClientRow :=
  { id := 5, name := "app", confidential := false, secretHash := none, allowedScopes := ""
    isDisabled := false, isDeleted := false, tokenEndpointAuthMethod := none, grantTypes := none }

def sampleSigningKey : SigningKeyRow :=
  { id := 3, algorithm := "EdDSA"
    privateKeyEnc := sampleSealed (List.replicate 32 9) SigningKeys.aad
    publicKey := [], isActive := true, createdAt := 0, rotatedAt := none }

/-- The root of family 100, from before hashes were stored. -/
def legacyToken : RefreshTokenRow :=
  { id := 100, tokenEnc := sampleSealed [1] RefreshTokens.aad, tokenHash := none, userId := 1
    clientId := 5, scope := "openid", expiresAt := seconds 1000, revokedAt := none, createdAt := 0
    authMethods := [.pwd], familyId := 100 }

/-- User 1, administrator 2 with a session, the client and a signing key. -/
def sampleDb : Database :=
  { Database.empty with
    users := ⟨[plainUser 1 "alice" .user, plainUser 2 "root" .admin], by decide⟩
    sessions := ⟨[plainSession 10 2], by decide⟩
    clients := ⟨[sampleClient], by decide⟩
    signingKeys := ⟨[sampleSigningKey], by decide⟩ }

/-- The sample database with the legacy token. -/
def legacyWorld : World :=
  { db := { sampleDb with refreshTokens := ⟨[legacyToken], by decide⟩ }
    calls := fun _ => none
    backfill := []
    issued := [⟨legacyToken.binding, [1]⟩]
    presented := []
    codes := [] }

def sampleContext : IssuanceContext := ⟨"https://id.example", TokenLifetimes.default⟩

/-- The machine of the samples. -/
abbrev sampleStep : World → Event → World × Answer :=
  worldStep Primitives.transparent sampleContext

/-- The steps of one `exchange_refresh` up to T04. -/
def refreshPrelude (call : CallId) (token : Bytes) : List Event :=
  [.refreshBegin call ⟨token, 5, none, .body⟩, .refreshFindByHash call, .refreshPermit call,
    .refreshSign call ⟨0, sampleKey, "a", "b"⟩]

/-- What a T04 or T09 draws in the samples. -/
def sampleDraw (id : RefreshTokenId) (token : Bytes) : TokenDraw :=
  ⟨5, sampleKey, id, token, Nonce.constant 2⟩

/-- The backfill gives the legacy row its hash; then two calls present the same
token and both read the row before either of them rotates. -/
def doublePresentation : List Event :=
  ([.backfillRead, .backfillWrite sampleKey] : List Event) ++
    refreshPrelude 0 [1] ++ refreshPrelude 1 [1] ++
    ([.refreshRotate 0 (sampleDraw 101 [2]), .refreshRotate 1 (sampleDraw 102 [3])] : List Event)

theorem legacyWorld_described : Described Primitives.transparent legacyWorld where
  row r hr := by
    have hrow : r = legacyToken := List.mem_singleton.mp hr
    subst hrow
    refine ⟨⟨legacyToken.binding, [1]⟩, List.mem_singleton.mpr rfl, rfl, fun h hh => ?_⟩
    rcases hh with hh | ⟨-, key, plain, hopen, rfl⟩
    · cases hh
    · have hopen' : openBytes Primitives.transparent sampleKey legacyToken.tokenEnc
          RefreshTokens.aad = .ok [1] := by decide
      exact Primitives.transparent_lawful.open_unique hopen' hopen
  call c x req r hcall _ := by cases hcall
  backfill entry hentry := by cases hentry
  id_inj e he e' he' _ := by rw [List.mem_singleton.mp he, List.mem_singleton.mp he']
  hash_inj e he e' he' _ := by rw [List.mem_singleton.mp he, List.mem_singleton.mp he']
  family e he e' he' _ := by
    rw [List.mem_singleton.mp he, List.mem_singleton.mp he']
    exact ⟨rfl, rfl, rfl, rfl⟩

private theorem doublePresentation_fresh :
    Machine.Guarded (worldStep Primitives.transparent sampleContext) (Fresh Primitives.transparent)
      legacyWorld doublePresentation := by
  decide +kernel

/-- One of the two calls rotates the token; the other detects the reuse. -/
theorem rotation_doublePresentation :
    ((Machine.trace (worldStep Primitives.transparent sampleContext) legacyWorld
      doublePresentation).map fun x => (x.out.isRotated, x.out.isTheft)).drop 10 =
        [(true, false), (false, true)] ∧
      (Machine.trace (worldStep Primitives.transparent sampleContext) legacyWorld
        doublePresentation).countP (rotates [1]) ≤ 1 :=
  ⟨by decide +kernel, (rotation_throughout Primitives.transparent_lawful legacyWorld_described
    doublePresentation_fresh).1 [1]⟩

/-- The family of the token had one unrevoked row, and has at most one at the
end. -/
theorem families_doublePresentation :
    liveCount legacyWorld.db 100 = 1 ∧
      liveCount (Machine.run (worldStep Primitives.transparent sampleContext) legacyWorld
        doublePresentation).db 100 ≤ 1 := by
  have hone : ∀ f, liveCount legacyWorld.db f ≤ 1 := by
    rw [liveCount_le_one_iff]
    intro r hr r' hr' _ _ _
    rw [List.mem_singleton.mp hr, List.mem_singleton.mp hr']
  refine ⟨by decide, ?_⟩
  exact ((families_throughout Primitives.transparent_lawful legacyWorld_described hone
    doublePresentation_fresh).1 doublePresentation [] (by simp)).1 100

end SuiId
