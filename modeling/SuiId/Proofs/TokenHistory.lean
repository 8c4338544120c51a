import SuiId.Proofs.Steps

/-!
# The history of refresh tokens

Every row of `refresh_tokens` is described by one entry of the history: the
entry has the row's binding, and its hash is the only one the row can be found
under, now or after a backfill or a change of the master key.  This ties the
row a call read earlier to the row T04 finds: both are found under the hash of
the presented token, so both have the binding of the same entry.

`TokenChange` lists what one event can do to the table: no row is inserted and
revoked rows stay revoked (`quiet`), a root of a new family is inserted
(`rooted`), or an unrevoked row is revoked and a successor with its binding is
inserted (`rotated`).
-/

namespace SuiId

open Lib Lib.Result

variable {P : Primitives} {ctx : IssuanceContext}

abbrev RefreshTokenTable := Table RefreshTokenRow.id

/-! ## Rows over time -/

/-- The token behind the row hashes to `h`. -/
def HashOf (P : Primitives) (r : RefreshTokenRow) (h : Bytes) : Prop :=
  r.tokenHash = some h ∨
    (r.tokenHash = none ∧ ∃ key plain,
      openBytes P key r.tokenEnc RefreshTokens.aad = .ok plain ∧ P.sha256 plain = h)

/-- `r'` is what an event has made of `r`. -/
structure Kept (P : Primitives) (issued : List Issued) (r r' : RefreshTokenRow) : Prop where
  binding : r'.binding = r.binding
  revoked : ∀ t, r.revokedAt = some t → r'.revokedAt = some t
  hash : ∀ h, HashOf P r' h → HashOf P r h ∨ ∃ e ∈ issued, e.binding.id = r.id ∧ e.hash = h

variable {r r' : RefreshTokenRow}

theorem RefreshTokenRow.id_of_binding (h : r'.binding = r.binding) :
    r'.id = r.id := congrArg Binding.id h

theorem RefreshTokenRow.family_of_binding (h : r'.binding = r.binding) :
    r'.familyId = r.familyId := congrArg Binding.familyId h

theorem Kept.refl (issued : List Issued) (r : RefreshTokenRow) : Kept P issued r r where
  binding := rfl
  revoked _ h := h
  hash _ h := .inl h

theorem Kept.trans {issued : List Issued} {r'' : RefreshTokenRow} (h : Kept P issued r r')
    (h' : Kept P issued r' r'') : Kept P issued r r'' where
  binding := h'.binding.trans h.binding
  revoked t ht := h'.revoked t (h.revoked t ht)
  hash x hx := by
    rcases h'.hash x hx with hx | ⟨e, he, hid, rfl⟩
    · exact h.hash x hx
    · exact .inr ⟨e, he, hid.trans (RefreshTokenRow.id_of_binding h.binding), rfl⟩

/-- Revoking keeps everything else. -/
theorem Kept.revoke (issued : List Issued) (hlive : r.revokedAt = none) (now : DateTime) :
    Kept P issued r { r with revokedAt := some now } where
  binding := rfl
  revoked t ht := by
    rw [hlive] at ht
    cases ht
  hash _ h := .inl h

/-- Every row afterwards comes from a row before. -/
def Evolves (P : Primitives) (issued : List Issued) (t t' : RefreshTokenTable) : Prop :=
  ∀ r' ∈ t', ∃ r ∈ t, Kept P issued r r'

theorem Evolves.refl (issued : List Issued) (t : RefreshTokenTable) : Evolves P issued t t :=
  fun r hr => ⟨r, hr, .refl issued r⟩

variable {t : RefreshTokenTable} {oldKey newKey : MasterKey} {db db' : Database} {x : Call}
  {req : RefreshExchangeRequest} {row : RefreshTokenRow}

theorem Evolves.trans {issued : List Issued} {t' t'' : RefreshTokenTable}
    (h : Evolves P issued t t') (h' : Evolves P issued t' t'') : Evolves P issued t t'' := by
  intro r'' hr''
  obtain ⟨r', hr', hkept'⟩ := h' r'' hr''
  obtain ⟨r, hr, hkept⟩ := h r' hr'
  exact ⟨r, hr, hkept.trans hkept'⟩

theorem evolves_delete (issued : List Issued) (t : RefreshTokenTable)
    (p : RefreshTokenRow → Bool) : Evolves P issued t (t.delete p) := by
  intro r' hr'
  exact ⟨r', (Table.mem_delete.mp hr').1, .refl issued r'⟩

theorem evolves_revokeWhere (issued : List Issued) (db : Database) (p : RefreshTokenRow → Bool)
    (now : DateTime) :
    Evolves P issued db.refreshTokens (RefreshTokens.revokeWhere db p now).refreshTokens := by
  intro r' hr'
  simp only [RefreshTokens.revokeWhere] at hr'
  obtain ⟨r, hr, rfl⟩ := Table.mem_update.mp hr'
  refine ⟨r, hr, ?_⟩
  split
  · rename_i hp
    simp only [Bool.and_eq_true, Option.isNone_iff_eq_none] at hp
    exact .revoke issued hp.2 now
  · exact .refl issued r

/-- A row whose token is sealed again is found under the same hash. -/
theorem hashOf_resealed (hP : P.Lawful) {nonce : Nonce} {plain resealed h : Bytes}
    (hopen : openBytes P oldKey r.tokenEnc RefreshTokens.aad = .ok plain)
    (hseal : sealBytes P newKey nonce plain RefreshTokens.aad = .ok resealed)
    (hhash : HashOf P { r with tokenEnc := resealed } h) : HashOf P r h := by
  rcases hhash with hhash | ⟨hnone, key, plain', hopen', rfl⟩
  · exact .inl hhash
  · have hplain : plain = plain' := hP.open_unique (hP.open_seal hseal) hopen'
    subst hplain
    exact .inr ⟨hnone, oldKey, plain, hopen, rfl⟩

theorem evolves_resealAll (hP : P.Lawful) (issued : List Issued) {t' : RefreshTokenTable}
    {nonce : RefreshTokenId → Nonce}
    (h : t.forRows
      (fun r => do
        let plain ← openBytes P oldKey r.tokenEnc RefreshTokens.aad
        sealBytes P newKey (nonce r.id) plain RefreshTokens.aad)
      (fun resealed r => { r with tokenEnc := resealed }) = .ok t') :
    Evolves P issued t t' := by
  intro r' hr'
  obtain ⟨r, hr, resealed, hcompute, rfl⟩ := Table.mem_of_forRows h hr'
  obtain ⟨plain, hopen, hseal⟩ := bind_eq_ok.mp hcompute
  refine ⟨r, hr, rfl, fun t ht => ht, fun x hx => .inl ?_⟩
  exact hashOf_resealed hP hopen hseal hx

theorem evolves_backfillWrite {issued : List Issued} (db : Database) (key : MasterKey)
    {entry : RefreshTokenId × Bytes}
    (hentry : ∃ e ∈ issued, e.binding.id = entry.1 ∧ ∀ key plain,
      openBytes P key entry.2 RefreshTokens.aad = .ok plain → e.hash = P.sha256 plain) :
    Evolves P issued db.refreshTokens
      (RefreshTokens.backfillWrite P key db entry).refreshTokens := by
  unfold RefreshTokens.backfillWrite
  split
  · exact .refl issued _
  · rename_i plain hopen
    dsimp only
    split
    · intro r' hr'
      dsimp only at hr'
      obtain ⟨r, hr, rfl⟩ := Table.mem_update.mp hr'
      refine ⟨r, hr, ?_⟩
      split
      · rename_i hp
        simp only [Bool.and_eq_true, beq_iff_eq] at hp
        obtain ⟨e, he, hid, hhash⟩ := hentry
        refine ⟨rfl, fun t ht => ht, fun x hx => .inr ⟨e, he, hid.trans hp.1.symm, ?_⟩⟩
        rcases hx with hx | ⟨hnone, -⟩
        · rw [hhash key plain hopen]
          exact Option.some.inj hx
        · cases hnone
      · exact .refl issued r
    · exact .refl issued _

/-- No command inserts a refresh token. -/
theorem Effect.evolves (hP : P.Lawful) (issued : List Issued) {command : Command}
    (h : Effect P db command db') :
    Evolves P issued db.refreshTokens db'.refreshTokens := by
  cases h with
  | resealAll hrows => exact evolves_resealAll hP issued hrows
  | purgeExpired => exact evolves_delete issued _ _
  | revokeConsent => exact evolves_delete issued _ _
  | purgeCodes => exact .refl issued _
  | enableUser => exact .refl issued _
  | grantConsent => exact .refl issued _
  | enableClient => exact .refl issued _
  | issuePendingMfa hinsert => exact .refl issued _
  | _ => exact evolves_revokeWhere issued db _ _

/-! ## The invariant -/

/-- The preliminary row an `exchange_refresh` carries, and its request. -/
def Call.preliminary : Call → Option (RefreshExchangeRequest × RefreshTokenRow)
  | .refreshFound req _ row => some (req, row)
  | .refreshPermitted req row _ => some (req, row)
  | .refreshSigned req row _ => some (req, row)
  | _ => none

/-- Two bindings that differ in their row and family only. -/
def Binding.SameGrant (b b' : Binding) : Prop :=
  b.userId = b'.userId ∧ b.clientId = b'.clientId ∧ b.scope = b'.scope ∧
    b.authMethods = b'.authMethods

/-- The history describes everything that refers to a refresh token. -/
structure Described (P : Primitives) (w : World) : Prop where
  /-- Each row has the binding and the hash of an entry. -/
  row : ∀ r ∈ w.db.refreshTokens,
    ∃ e ∈ w.issued, e.binding = r.binding ∧ ∀ h, HashOf P r h → e.hash = h
  /-- So has the row a call carries; it was found under the presented token. -/
  call : ∀ c x req r, w.calls c = some x → x.preliminary = some (req, r) →
    ∃ e ∈ w.issued, e.binding = r.binding ∧ e.hash = P.sha256 req.refreshToken
  /-- So have the rows of a running backfill. -/
  backfill : ∀ entry ∈ w.backfill, ∃ e ∈ w.issued, e.binding.id = entry.1 ∧
    ∀ key plain, openBytes P key entry.2 RefreshTokens.aad = .ok plain →
      e.hash = P.sha256 plain
  id_inj : ∀ e ∈ w.issued, ∀ e' ∈ w.issued, e.binding.id = e'.binding.id → e = e'
  hash_inj : ∀ e ∈ w.issued, ∀ e' ∈ w.issued, e.hash = e'.hash → e = e'
  /-- A family belongs to one grant. -/
  family : ∀ e ∈ w.issued, ∀ e' ∈ w.issued, e.binding.familyId = e'.binding.familyId →
    e.binding.SameGrant e'.binding

/-- A row that is not in the history. -/
def NewEntry (issued : List Issued) (binding : Binding) (hash : Bytes) : Prop :=
  ∀ e ∈ issued, e.binding.id ≠ binding.id ∧ e.binding.familyId ≠ binding.id ∧ e.hash ≠ hash

/-- What one event does to the table and its history. -/
inductive TokenChange (P : Primitives) (w : World) (e : Event) :
    RefreshTokenTable → List Issued → Prop where
  | quiet {t' : RefreshTokenTable} (hevolves : Evolves P w.issued w.db.refreshTokens t') :
      TokenChange P w e t' w.issued
  | rooted {row : RefreshTokenRow} {hash : Bytes} {t' : RefreshTokenTable}
      (hgrant : rootGrant w e = some (row.userId, row.clientId))
      (hroot : row.familyId = row.id) (hlive : row.revokedAt = none)
      (hhash : row.tokenHash = some hash) (hnew : NewEntry w.issued row.binding hash)
      (hunseen : hash ∉ w.presented)
      (hinsert : w.db.refreshTokens.insert? row = some t') :
      TokenChange P w e t' (w.issued ++ [⟨row.binding, hash⟩])
  | rotated {old successor : RefreshTokenRow} {hash : Bytes} {now : DateTime}
      {t' : RefreshTokenTable} (hold : old ∈ w.db.refreshTokens) (holdLive : old.revokedAt = none)
      (hbinding : successor.binding = { old.binding with id := successor.id })
      (hlive : successor.revokedAt = none) (hhash : successor.tokenHash = some hash)
      (hnew : NewEntry w.issued successor.binding hash) (hunseen : hash ∉ w.presented)
      (hinsert : (RefreshTokens.revoke w.db old.id now).refreshTokens.insert? successor =
        some t') :
      TokenChange P w e t' (w.issued ++ [⟨successor.binding, hash⟩])

/-- The row T04 finds has the binding of the row the call carries. -/
theorem Described.binding_of_call {w : World} (hd : Described P w) {c : CallId}
    {old : RefreshTokenRow} (hcall : w.calls c = some x) (hx : x.preliminary = some (req, r))
    (hold : old ∈ w.db.refreshTokens) (hhash : old.tokenHash = some (P.sha256 req.refreshToken)) :
    old.binding = r.binding := by
  obtain ⟨e, he, hbinding, hehash⟩ := hd.call c x req r hcall hx
  obtain ⟨e', he', hbinding', hehash'⟩ := hd.row old hold
  have hee' : e' = e := by
    refine hd.hash_inj e' he' e he ?_
    rw [hehash, hehash' _ (.inl hhash)]
  rw [← hbinding', ← hbinding, hee']

private theorem rooted_of_prepared {w : World} {e : Event} {draw : TokenDraw}
    {prepared : RefreshTokens.PreparedRefreshToken}
    (hgrant : rootGrant w e = some (row.userId, row.clientId)) (hroot : row.familyId = row.id)
    (hid : row.id = draw.id) (hlive : row.revokedAt = none) (hfresh : freshDraw P w draw)
    (hprepare : prepareDrawn P draw row = .ok prepared)
    (hinsert : RefreshTokens.insertPrepared w.db prepared = .ok db') :
    TokenChange P w e db'.refreshTokens (w.issued ++ [⟨row.binding, P.sha256 draw.rawToken⟩]) := by
  obtain ⟨sealed, rfl⟩ := prepareDrawn_ok hprepare
  obtain ⟨t', htable, rfl⟩ := RefreshTokens.insertPrepared_ok hinsert
  have hnew : NewEntry w.issued row.binding (P.sha256 draw.rawToken) := by
    intro e he
    show e.binding.id ≠ row.id ∧ e.binding.familyId ≠ row.id ∧ e.hash ≠ P.sha256 draw.rawToken
    rw [hid]
    exact hfresh.1 e he
  exact @TokenChange.rooted P w e
    { row with tokenEnc := sealed, tokenHash := some (P.sha256 draw.rawToken) } _ _ hgrant hroot
    hlive rfl hnew hfresh.2 htable

/-- Every event makes one of the three changes. -/
theorem worldStep_tokens (hP : P.Lawful) {w : World} (hd : Described P w) {e : Event}
    (hfresh : Fresh P w e) :
    TokenChange P w e (worldStep P ctx w e).1.db.refreshTokens
      (worldStep P ctx w e).1.issued := by
  generalize hdb : (worldStep P ctx w e).1.db = db'
  generalize hissued : (worldStep P ctx w e).1.issued = issued'
  have hstep : DbStep P ctx w e db' issued' := hdb ▸ hissued ▸ worldStep_db w e
  cases hstep with
  | same => exact .quiet (.refl _ _)
  | consumed hcall =>
    obtain ⟨authCodes, -, heq⟩ := consumeCode_eq P w.db _ _
    rw [heq]
    exact .quiet (.refl _ _)
  | issued hcall hissue =>
    obtain ⟨-, prepared, hprepare, hinsert⟩ := issueFor_ok hissue
    refine rooted_of_prepared ?_ rfl rfl rfl hfresh hprepare hinsert
    simp only [rootGrant, hcall]
    rfl
  | rooted hprepare hinsert => exact rooted_of_prepared rfl rfl rfl rfl hfresh hprepare hinsert
  | @rotated call draw req row successor jwt rawToken db' hcall hrotate =>
    obtain ⟨prepared, hprepare, hrotate⟩ := rotateWith_ok hrotate
    obtain ⟨sealed, rfl⟩ := prepareDrawn_ok hprepare
    obtain ⟨old, hold, hhash, ⟨holdLive, hout, t', log, hinsert, rfl⟩ | ⟨-, ⟨n, hout⟩, -⟩⟩ :=
      RefreshTokens.rotateRefreshToken_ok hrotate
    · cases hout
      have hbinding : old.binding = row.binding := hd.binding_of_call hcall rfl hold hhash
      refine .rotated hold holdLive ?_ rfl rfl hfresh.1 hfresh.2 hinsert
      rw [hbinding]
      rfl
    · cases hout
  | @theft call draw req row jwt n db' hcall hrotate =>
    obtain ⟨prepared, hprepare, hrotate⟩ := rotateWith_ok hrotate
    obtain ⟨old, hold, hhash, ⟨-, hout, -⟩ | ⟨-, -, log, rfl⟩⟩ :=
      RefreshTokens.rotateRefreshToken_ok hrotate
    · cases hout
    · exact .quiet ((evolves_revokeWhere _ w.db _ _).trans (evolves_revokeWhere _ _ _ _))
  | pendingRead =>
    obtain ⟨loginPendingMfa, -, heq⟩ := readPending_eq w.db _ _
    rw [heq]
    exact .quiet (.refl _ _)
  | finished hcall =>
    obtain ⟨loginPendingMfa, userTotp, users, sessions, log, -, -, -, heq⟩ :=
      finishPending_eq w.db _ _ _ _ _ _
    rw [heq]
    exact .quiet (.refl _ _)
  | codeInserted hinsert =>
    obtain ⟨authCodes, -, rfl⟩ := AuthCodes.insert_ok hinsert
    exact .quiet (.refl _ _)
  | backfilled hentry => exact .quiet (evolves_backfillWrite w.db _ (hd.backfill _ hentry))
  | resolved =>
    obtain ⟨sessions, log, -, heq⟩ := resolve_eq w.db _ _
    rw [heq]
    exact .quiet (.refl _ _)
  | committed hperform => exact .quiet ((perform_effect hperform).evolves hP _)

/-! ## The invariant holds throughout -/

section Change

variable {w : World} {e : Event} {t' : RefreshTokenTable} {issued' : List Issued}

/-- A row after the event comes from a row before it, or is the new one. -/
theorem TokenChange.mem (h : TokenChange P w e t' issued') {r' : RefreshTokenRow} (hr' : r' ∈ t') :
    (∃ r ∈ w.db.refreshTokens, Kept P w.issued r r') ∨
      ∃ hash, r'.tokenHash = some hash ∧ r'.revokedAt = none ∧
        NewEntry w.issued r'.binding hash ∧ issued' = w.issued ++ [⟨r'.binding, hash⟩] := by
  cases h with
  | quiet hevolves => exact .inl (hevolves r' hr')
  | rooted hgrant hroot hlive hhash hnew hunseen hinsert =>
    rcases (Table.mem_of_insert? hinsert).mp hr' with hr' | rfl
    · exact .inl ⟨r', hr', .refl _ _⟩
    · exact .inr ⟨_, hhash, hlive, hnew, rfl⟩
  | rotated hold holdLive hbinding hlive hhash hnew hunseen hinsert =>
    rcases (Table.mem_of_insert? hinsert).mp hr' with hr' | rfl
    · exact .inl (evolves_revokeWhere w.issued w.db _ _ r' hr')
    · exact .inr ⟨_, hhash, hlive, hnew, rfl⟩

/-- The history grows by at most one new entry, which starts a family or
continues the family of a row. -/
theorem TokenChange.issued (h : TokenChange P w e t' issued') :
    issued' = w.issued ∨ ∃ binding hash, NewEntry w.issued binding hash ∧ hash ∉ w.presented ∧
      issued' = w.issued ++ [⟨binding, hash⟩] ∧
      (binding.familyId = binding.id ∨
        ∃ old ∈ w.db.refreshTokens, binding = { old.binding with id := binding.id }) := by
  cases h with
  | quiet hevolves => exact .inl rfl
  | rooted hgrant hroot hlive hhash hnew hunseen hinsert => 
    exact .inr ⟨_, _, hnew, hunseen, rfl, .inl hroot⟩
  | rotated hold holdLive hbinding hlive hhash hnew hunseen hinsert =>
    exact .inr ⟨_, _, hnew, hunseen, rfl, .inr ⟨_, hold, hbinding⟩⟩

theorem TokenChange.mem_issued (h : TokenChange P w e t' issued') {e : Issued} (he : e ∈ w.issued) :
    e ∈ issued' := by
  rcases h.issued with rfl | ⟨binding, hash, -, -, rfl, -⟩
  · exact he
  · exact List.mem_append_left _ he

/-- A relation on the history survives a new entry that has it with each of
the others. -/
private theorem forall_append_singleton {R : Issued → Issued → Prop} {issued : List Issued}
    {x : Issued} (hold : ∀ e ∈ issued, ∀ e' ∈ issued, R e e') (hself : R x x)
    (hnew : ∀ e ∈ issued, R e x ∧ R x e) :
    ∀ e ∈ issued ++ [x], ∀ e' ∈ issued ++ [x], R e e' := by
  intro e he e' he'
  rw [List.mem_append, List.mem_singleton] at he he'
  rcases he with he | rfl
  · rcases he' with he' | rfl
    · exact hold e he e' he'
    · exact (hnew e he).1
  · rcases he' with he' | rfl
    · exact (hnew e' he').2
    · exact hself

variable (hd : Described P w) (h : TokenChange P w e t' issued')

include hd h

theorem TokenChange.row_described {r' : RefreshTokenRow} (hr' : r' ∈ t') :
    ∃ e ∈ issued', e.binding = r'.binding ∧ ∀ x, HashOf P r' x → e.hash = x := by
  rcases h.mem hr' with ⟨r, hr, hkept⟩ | ⟨hash, hhash, -, -, rfl⟩
  · obtain ⟨e, he, hbinding, hehash⟩ := hd.row r hr
    refine ⟨e, h.mem_issued he, hbinding.trans hkept.binding.symm, fun x hx => ?_⟩
    rcases hkept.hash x hx with hx | ⟨e', he', hid, rfl⟩
    · exact hehash x hx
    · have hee' : e = e' := by
        refine hd.id_inj e he e' he' ?_
        rw [hid, hbinding]
        rfl
      rw [hee']
  · refine ⟨⟨r'.binding, hash⟩, List.mem_append_right _ List.mem_cons_self, rfl, fun x hx => ?_⟩
    rcases hx with hx | ⟨hnone, -⟩
    · rw [hhash] at hx
      exact Option.some.inj hx
    · rw [hhash] at hnone
      cases hnone

theorem TokenChange.id_inj :
    ∀ e ∈ issued', ∀ e' ∈ issued', e.binding.id = e'.binding.id → e = e' := by
  rcases h.issued with rfl | ⟨binding, hash, hnew, -, rfl, -⟩
  · exact hd.id_inj
  · refine forall_append_singleton hd.id_inj (fun _ => rfl) fun e he => ?_
    exact ⟨fun hid => absurd hid (hnew e he).1, fun hid => absurd hid.symm (hnew e he).1⟩

theorem TokenChange.hash_inj : ∀ e ∈ issued', ∀ e' ∈ issued', e.hash = e'.hash → e = e' := by
  rcases h.issued with rfl | ⟨binding, hash, hnew, -, rfl, -⟩
  · exact hd.hash_inj
  · refine forall_append_singleton hd.hash_inj (fun _ => rfl) fun e he => ?_
    exact ⟨fun hh => absurd hh (hnew e he).2.2, fun hh => absurd hh.symm (hnew e he).2.2⟩

theorem TokenChange.family :
    ∀ e ∈ issued', ∀ e' ∈ issued', e.binding.familyId = e'.binding.familyId →
      e.binding.SameGrant e'.binding := by
  rcases h.issued with rfl | ⟨binding, hash, hnew, -, rfl, horigin⟩
  · exact hd.family
  · refine forall_append_singleton hd.family (fun _ => ⟨rfl, rfl, rfl, rfl⟩) fun e he => ?_
    rcases horigin with hroot | ⟨old, hold, hbinding⟩
    · -- A root's family is its own identifier, which no earlier family has.
      constructor
      · intro hfam
        exact absurd (hfam.trans hroot) (hnew e he).2.1
      · intro hfam
        exact absurd (hfam.symm.trans hroot) (hnew e he).2.1
    · -- A successor has the grant of the entry that describes the old row.
      obtain ⟨e₀, he₀, hb₀, -⟩ := hd.row old hold
      have hgrant : ∀ e ∈ w.issued, e.binding.familyId = binding.familyId →
          e.binding.SameGrant binding := by
        intro e he hfam
        rw [hbinding, ← hb₀] at hfam ⊢
        exact hd.family e he e₀ he₀ hfam
      refine ⟨hgrant e he, fun hfam => ?_⟩
      obtain ⟨huser, hclient, hscope, hmethods⟩ := hgrant e he hfam.symm
      exact ⟨huser.symm, hclient.symm, hscope.symm, hmethods.symm⟩

end Change

/-- A row found by hash or by decryption is found under the token's hash. -/
theorem hashOf_of_found {token : Bytes}
    (h : RefreshTokens.findAnyByHash P db token = some row ∨
      ∃ key, RefreshTokens.findAnyByScan P key db token = some row) :
    row ∈ db.refreshTokens ∧ HashOf P row (P.sha256 token) := by
  rcases h with h | ⟨key, h⟩
  · obtain ⟨hmem, hp⟩ := Table.mem_of_find? h
    exact ⟨hmem, .inl (by simpa using hp)⟩
  · obtain ⟨hmem, hp⟩ := Table.mem_of_find? h
    simp only [Bool.and_eq_true, Option.isNone_iff_eq_none, RefreshTokens.opensTo] at hp
    obtain ⟨hnone, hopens⟩ := hp
    split at hopens
    · rename_i opened hopen
      have hopened : opened = token := by simpa using hopens
      exact ⟨hmem, .inr ⟨hnone, key, opened, hopen, by rw [hopened]⟩⟩
    · cases hopens

/-- A call's new preliminary row is one it just found, or the one it had. -/
theorem Progress.preliminary {w : World} {e : Event} (h : Progress P w e x)
    (hx : x.preliminary = some (req, r)) :
    (r ∈ w.db.refreshTokens ∧ HashOf P r (P.sha256 req.refreshToken)) ∨
      ∃ c y, w.calls c = some y ∧ y.preliminary = some (req, r) := by
  cases h with
  | refreshFoundByHash hcall hfind =>
    cases hx
    exact .inl (hashOf_of_found (.inl hfind))
  | refreshFoundByScan hcall hfind =>
    cases hx
    exact .inl (hashOf_of_found (.inr ⟨_, hfind⟩))
  | refreshPermitted hcall =>
    cases hx
    exact .inr ⟨_, _, hcall, rfl⟩
  | refreshSigned hcall =>
    cases hx
    exact .inr ⟨_, _, hcall, rfl⟩
  | _ => cases hx

/-- One event keeps the invariant. -/
theorem described_step (hP : P.Lawful) {w : World} (hd : Described P w) {e : Event}
    (hfresh : Fresh P w e) : Described P (worldStep P ctx w e).1 := by
  have hchange : TokenChange P w e (worldStep P ctx w e).1.db.refreshTokens
      (worldStep P ctx w e).1.issued := worldStep_tokens hP hd hfresh
  have hentry : ∀ r ∈ w.db.refreshTokens, ∀ h, HashOf P r h →
      ∃ e' ∈ w.issued, e'.binding = r.binding ∧ e'.hash = h := by
    intro r hr h hh
    obtain ⟨e', he', hb, hh'⟩ := hd.row r hr
    exact ⟨e', he', hb, hh' h hh⟩
  refine ⟨fun r hr => hchange.row_described hd hr, ?_, ?_, hchange.id_inj hd,
    hchange.hash_inj hd, hchange.family hd⟩
  · intro c x req r hcall hx
    have hold : ∃ e' ∈ w.issued, e'.binding = r.binding ∧ e'.hash = P.sha256 req.refreshToken := by
      rcases worldStep_calls hcall with hcall | hprogress
      · exact hd.call c x req r hcall hx
      · rcases hprogress.preliminary hx with ⟨hr, hh⟩ | ⟨c', y, hcall', hy⟩
        · exact hentry r hr _ hh
        · exact hd.call c' y req r hcall' hy
    obtain ⟨e', he', hrest⟩ := hold
    exact ⟨e', hchange.mem_issued he', hrest⟩
  · intro entry hmem
    have hold : ∃ e' ∈ w.issued, e'.binding.id = entry.1 ∧ ∀ key plain,
        openBytes P key entry.2 RefreshTokens.aad = .ok plain → e'.hash = P.sha256 plain := by
      rcases worldStep_backfill hmem with hmem | hmem
      · exact hd.backfill entry hmem
      · simp only [RefreshTokens.backfillRead, List.mem_map, List.mem_filter,
          Option.isNone_iff_eq_none] at hmem
        obtain ⟨r, ⟨hr, hnone⟩, rfl⟩ := hmem
        obtain ⟨e', he', hb, hh⟩ := hd.row r hr
        refine ⟨e', he', by rw [hb]; rfl, fun key plain hopen => ?_⟩
        exact hh _ (.inr ⟨hnone, key, plain, hopen, rfl⟩)
    obtain ⟨e', he', hrest⟩ := hold
    exact ⟨e', hchange.mem_issued he', hrest⟩

end SuiId
