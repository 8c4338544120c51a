import SuiId.Proofs.RefreshFamilies

/-!
# Looking refresh tokens up while their hashes are filled in

A row from before the column `token_hash` has no hash until `backfill_token_hashes` has
visited it.  `find_active` and `find_any` decrypt such rows, and find what they would find
in a table with all hashes (`findActive_masks`, `findAny_masks`).  T04 looks the row up by
hash alone, so `exchange_refresh` refuses the token of such a row.

`Masks db db'` says that `db'` is `db` with some of the hashes missing; the backfill keeps it.
-/

namespace SuiId.RefreshTokens

open Lib Lib.Result

variable {P : Primitives} {key : MasterKey} {db db' : Database} {token : Bytes}

/-! ## Tables with hashes missing -/

/-- Every token opens and has its hash, and `token_hash` is unique. -/
structure FullyHashed (P : Primitives) (key : MasterKey) (db : Database) : Prop where
  opens : ∀ r ∈ db.refreshTokens, ∃ plain, openBytes P key r.tokenEnc aad = .ok plain ∧
    r.tokenHash = some (P.sha256 plain)
  unique : ∀ r ∈ db.refreshTokens, ∀ r' ∈ db.refreshTokens, r.tokenHash = r'.tokenHash → r = r'

/-- No stored token has the digest of another text that is presented. -/
def NoCollision (P : Primitives) (key : MasterKey) (db : Database) (token : Bytes) : Prop :=
  ∀ r ∈ db.refreshTokens, ∀ plain, openBytes P key r.tokenEnc aad = .ok plain →
    P.sha256 plain = P.sha256 token → plain = token

/-- The columns that the repository returns. -/
def columns (r : RefreshTokenRow) : RefreshTokenRow := { r with tokenHash := none }

/-- The same row, perhaps without its hash. -/
def Masked (r r' : RefreshTokenRow) : Prop := r' = r ∨ r' = columns r

/-- The same database, perhaps with hashes missing. -/
structure Masks (db db' : Database) : Prop where
  rest : db' = { db with refreshTokens := db'.refreshTokens }
  back : ∀ r' ∈ db'.refreshTokens, ∃ r ∈ db.refreshTokens, Masked r r'
  forth : ∀ r ∈ db.refreshTokens, ∃ r' ∈ db'.refreshTokens, Masked r r'

/-- Set `token_hash` to NULL on some rows. -/
def unhash (db : Database) (p : RefreshTokenId → Bool) : Database :=
  { db with
    refreshTokens := db.refreshTokens.update (fun r => p r.id) fun r =>
      { r with tokenHash := none } }

/-- The first `n` turns of `backfill_token_hashes`. -/
def backfilled (P : Primitives) (key : MasterKey) (db : Database) (n : Nat) : Database :=
  ((backfillRead db).take n).foldl (backfillWrite P key) db

variable {r r' : RefreshTokenRow} {now : DateTime} {hash : Bytes} {client : ClientId}

theorem Masked.columns_eq (h : Masked r r') : columns r' = columns r := by
  rcases h with rfl | rfl
  · rfl
  · rfl

theorem Masked.tokenEnc (h : Masked r r') : r'.tokenEnc = r.tokenEnc := by
  rcases h with rfl | rfl
  · rfl
  · rfl

theorem Masked.id (h : Masked r r') : r'.id = r.id := by
  rcases h with rfl | rfl
  · rfl
  · rfl

theorem masks_unhash (db : Database) (p : RefreshTokenId → Bool) : Masks db (unhash db p) := by
  refine ⟨rfl, ?_, ?_⟩
  · intro r' hr'
    simp only [unhash, Table.mem_update] at hr'
    obtain ⟨r, hr, rfl⟩ := hr'
    refine ⟨r, hr, ?_⟩
    split
    · exact .inr rfl
    · exact .inl rfl
  · intro r hr
    refine ⟨if p r.id then columns r else r, ?_, ?_⟩
    · simp only [unhash, Table.mem_update]
      exact ⟨r, hr, rfl⟩
    · split
      · exact .inr rfl
      · exact .inl rfl

/-- A turn of the backfill writes the hash that was missing. -/
theorem masks_backfillWrite (hfull : FullyHashed P key db) (h : Masks db db')
    {r₀ : RefreshTokenRow} (hr₀ : r₀ ∈ db.refreshTokens) :
    Masks db (backfillWrite P key db' (r₀.id, r₀.tokenEnc)) := by
  obtain ⟨plain, hopen, hhash⟩ := hfull.opens r₀ hr₀
  unfold backfillWrite
  rw [hopen]
  dsimp only
  split
  · have hwritten : ∀ r ∈ db.refreshTokens, ∀ r', Masked r r' → Masked r
        (if (r'.id == r₀.id && r'.tokenHash.isNone) = true then
          { r' with tokenHash := some (P.sha256 plain) } else r') := by
      intro r hr r' hmasked
      split
      · rename_i hmissing
        simp only [Bool.and_eq_true, beq_iff_eq] at hmissing
        have hsame : r = r₀ := Table.eq_of_key_eq hr hr₀ (hmasked.id.symm.trans hmissing.1)
        left
        rw [hsame] at hmasked ⊢
        rcases hmasked with rfl | rfl
        · rw [← hhash]
        · rw [← hhash]
          rfl
      · exact hmasked
    refine ⟨?_, ?_, ?_⟩
    · rw [h.rest]
    · intro r' hr'
      rw [Table.mem_update] at hr'
      obtain ⟨r'', hr'', rfl⟩ := hr'
      obtain ⟨r, hr, hmasked⟩ := h.back r'' hr''
      exact ⟨r, hr, hwritten r hr r'' hmasked⟩
    · intro r hr
      obtain ⟨r', hr', hmasked⟩ := h.forth r hr
      refine ⟨_, ?_, hwritten r hr r' hmasked⟩
      rw [Table.mem_update]
      exact ⟨r', hr', rfl⟩
  · exact h

/-- However far the backfill has got, only hashes are missing. -/
theorem masks_backfilled (hfull : FullyHashed P key db) (h : Masks db db') (n : Nat) :
    Masks db (backfilled P key db' n) := by
  have hentries : ∀ entry ∈ (backfillRead db').take n,
      ∃ r ∈ db.refreshTokens, entry = (r.id, r.tokenEnc) := by
    intro entry hentry
    obtain ⟨r', hr', rfl⟩ := List.mem_map.mp (List.mem_of_mem_take hentry)
    obtain ⟨r, hr, hmasked⟩ := h.back r' (List.mem_of_mem_filter hr')
    exact ⟨r, hr, by rw [hmasked.id, hmasked.tokenEnc]⟩
  unfold backfilled
  generalize (backfillRead db').take n = entries at hentries
  induction entries generalizing db' with
  | nil => exact h
  | cons entry entries ih =>
    obtain ⟨r, hr, rfl⟩ := hentries entry List.mem_cons_self
    exact ih (masks_backfillWrite hfull h hr) fun entry hentry =>
      hentries entry (List.mem_cons_of_mem _ hentry)

/-! ## The two readers -/

/-- The hashes that are there belong to the tokens, and no token is stored twice. -/
structure Indexed (P : Primitives) (key : MasterKey) (db : Database) : Prop where
  opens : ∀ r ∈ db.refreshTokens, ∃ plain, openBytes P key r.tokenEnc aad = .ok plain ∧
    ∀ hash, r.tokenHash = some hash → hash = P.sha256 plain
  unique : ∀ r ∈ db.refreshTokens, ∀ r' ∈ db.refreshTokens, ∀ token,
    opensTo P key r.tokenEnc token = true → opensTo P key r'.tokenEnc token = true → r = r'

theorem opensTo_iff {enc : Bytes} :
    opensTo P key enc token = true ↔ openBytes P key enc aad = .ok token := by
  unfold opensTo
  cases openBytes P key enc aad with
  | ok opened => simp
  | error e => simp

theorem FullyHashed.indexed (hfull : FullyHashed P key db) (h : Masks db db') :
    Indexed P key db' := by
  constructor
  · intro r' hr'
    obtain ⟨r, hr, hmasked⟩ := h.back r' hr'
    obtain ⟨plain, hopen, hhash⟩ := hfull.opens r hr
    refine ⟨plain, by rw [hmasked.tokenEnc, hopen], ?_⟩
    intro hash hsome
    rcases hmasked with rfl | rfl
    · rw [hhash] at hsome
      exact (Option.some.inj hsome).symm
    · cases hsome
  · intro r₁' hr₁' r₂' hr₂' token hopens₁ hopens₂
    obtain ⟨r₁, hr₁, hmasked₁⟩ := h.back r₁' hr₁'
    obtain ⟨r₂, hr₂, hmasked₂⟩ := h.back r₂' hr₂'
    obtain ⟨plain₁, hopen₁, hhash₁⟩ := hfull.opens r₁ hr₁
    obtain ⟨plain₂, hopen₂, hhash₂⟩ := hfull.opens r₂ hr₂
    rw [opensTo_iff, hmasked₁.tokenEnc, hopen₁] at hopens₁
    rw [opensTo_iff, hmasked₂.tokenEnc, hopen₂] at hopens₂
    cases hopens₁
    cases hopens₂
    have hsame : r₁ = r₂ := hfull.unique r₁ hr₁ r₂ hr₂ (hhash₁.trans hhash₂.symm)
    apply Table.eq_of_key_eq hr₁' hr₂'
    rw [hmasked₁.id, hmasked₂.id, hsame]

theorem masks_refl (db : Database) : Masks db db :=
  ⟨rfl, fun r hr => ⟨r, hr, .inl rfl⟩, fun r hr => ⟨r, hr, .inl rfl⟩⟩

/-- A row with the hash of the token is the token's. -/
theorem Indexed.opensTo_of_hash (hindexed : Indexed P key db)
    (hcollision : NoCollision P key db token) (hr : r ∈ db.refreshTokens)
    (hhash : r.tokenHash = some (P.sha256 token)) : opensTo P key r.tokenEnc token = true := by
  obtain ⟨plain, hopen, hplain⟩ := hindexed.opens r hr
  rw [opensTo_iff, hopen, hcollision r hr plain hopen (hplain _ hhash).symm]

/-- And the token's row has its hash, or none. -/
theorem Indexed.hash_of_opensTo (hindexed : Indexed P key db) (hr : r ∈ db.refreshTokens)
    (hopens : opensTo P key r.tokenEnc token = true) :
    r.tokenHash = some (P.sha256 token) ∨ r.tokenHash = none := by
  obtain ⟨plain, hopen, hplain⟩ := hindexed.opens r hr
  rw [opensTo_iff, hopen] at hopens
  cases hopens
  cases hhash : r.tokenHash with
  | none => exact .inr rfl
  | some hash => exact .inl (by rw [hplain hash hhash])

/-- Reading by hash and then by decrypting finds the token's row, if `p` holds of it. -/
theorem Indexed.lookup (hindexed : Indexed P key db) (hcollision : NoCollision P key db token)
    (p : RefreshTokenRow → Bool) :
    ((db.refreshTokens.find? fun r => r.tokenHash == some (P.sha256 token) && p r).or
        (db.refreshTokens.find? fun r =>
          r.tokenHash.isNone && p r && opensTo P key r.tokenEnc token)) = some r ↔
      r ∈ db.refreshTokens ∧ opensTo P key r.tokenEnc token = true ∧ p r = true := by
  have hfound : ∀ {r}, ((db.refreshTokens.find? fun r =>
        r.tokenHash == some (P.sha256 token) && p r).or (db.refreshTokens.find? fun r =>
          r.tokenHash.isNone && p r && opensTo P key r.tokenEnc token)) = some r →
      r ∈ db.refreshTokens ∧ opensTo P key r.tokenEnc token = true ∧ p r = true := by
    intro r h
    rcases Option.or_eq_some_iff.mp h with h | ⟨-, h⟩
    · obtain ⟨hr, hp⟩ := Table.mem_of_find? h
      simp only [Bool.and_eq_true, beq_iff_eq] at hp
      exact ⟨hr, hindexed.opensTo_of_hash hcollision hr hp.1, hp.2⟩
    · obtain ⟨hr, hp⟩ := Table.mem_of_find? h
      simp only [Bool.and_eq_true] at hp
      exact ⟨hr, hp.2, hp.1.2⟩
  refine ⟨hfound, ?_⟩
  rintro ⟨hr, hopens, hp⟩
  cases hread : ((db.refreshTokens.find? fun r =>
      r.tokenHash == some (P.sha256 token) && p r).or (db.refreshTokens.find? fun r =>
        r.tokenHash.isNone && p r && opensTo P key r.tokenEnc token)) with
  | some r' =>
    obtain ⟨hr', hopens', -⟩ := hfound hread
    rw [hindexed.unique r' hr' r hr token hopens' hopens]
  | none =>
    obtain ⟨hhash, hscan⟩ := Option.or_eq_none_iff.mp hread
    rcases hindexed.hash_of_opensTo hr hopens with hsome | hnone
    · have hnot := Table.find?_eq_none.mp hhash r hr
      simp [hsome, hp] at hnot
    · have hnot := Table.find?_eq_none.mp hscan r hr
      simp [hnone, hp, hopens] at hnot

theorem Indexed.findActive_iff (hindexed : Indexed P key db)
    (hcollision : NoCollision P key db token) :
    findActive P key db now token = some r ↔
      r ∈ db.refreshTokens ∧ opensTo P key r.tokenEnc token = true ∧ live now r = true :=
  hindexed.lookup hcollision (live now)

theorem Indexed.findAny_iff (hindexed : Indexed P key db)
    (hcollision : NoCollision P key db token) :
    findAny P key db token = some r ↔
      r ∈ db.refreshTokens ∧ opensTo P key r.tokenEnc token = true := by
  have hlookup := hindexed.lookup (r := r) hcollision fun _ => true
  simpa only [Bool.and_true, and_true, findAny, findAnyByHash, findAnyByScan] using hlookup

theorem NoCollision.masks (hcollision : NoCollision P key db token) (h : Masks db db') :
    NoCollision P key db' token := by
  intro r' hr' plain hopen
  obtain ⟨r, hr, hmasked⟩ := h.back r' hr'
  rw [hmasked.tokenEnc] at hopen
  exact hcollision r hr plain hopen

/-- Missing hashes do not change what a reader finds. -/
theorem read_masks {p : RefreshTokenRow → Prop} {f : Database → Option RefreshTokenRow}
    (h : Masks db db') (hp : ∀ r r', Masked r r' → (p r' ↔ p r))
    (hread : ∀ r, f db = some r ↔ r ∈ db.refreshTokens ∧ p r)
    (hread' : ∀ r, f db' = some r ↔ r ∈ db'.refreshTokens ∧ p r) :
    (f db').map columns = (f db).map columns := by
  cases hfound : f db with
  | some r =>
    obtain ⟨hr, hpr⟩ := (hread r).mp hfound
    obtain ⟨r', hr', hmasked⟩ := h.forth r hr
    rw [(hread' r').mpr ⟨hr', (hp r r' hmasked).mpr hpr⟩, Option.map_some, Option.map_some,
      hmasked.columns_eq]
  | none =>
    cases hfound' : f db' with
    | none => rfl
    | some r' =>
      obtain ⟨hr', hpr'⟩ := (hread' r').mp hfound'
      obtain ⟨r, hr, hmasked⟩ := h.back r' hr'
      rw [(hread r).mpr ⟨hr, (hp r r' hmasked).mp hpr'⟩] at hfound
      cases hfound

theorem findAny_masks (hfull : FullyHashed P key db) (hcollision : NoCollision P key db token)
    (h : Masks db db') :
    (findAny P key db' token).map columns = (findAny P key db token).map columns := by
  refine read_masks (f := fun db => findAny P key db token) h ?_
    (fun r => (hfull.indexed (masks_refl db)).findAny_iff hcollision)
    (fun r => (hfull.indexed h).findAny_iff (hcollision.masks h))
  intro r r' hmasked
  rw [hmasked.tokenEnc]

theorem findActive_masks (hfull : FullyHashed P key db) (hcollision : NoCollision P key db token)
    (h : Masks db db') (now : DateTime) :
    (findActive P key db' now token).map columns =
      (findActive P key db now token).map columns := by
  refine read_masks (f := fun db => findActive P key db now token) h ?_
    (fun r => (hfull.indexed (masks_refl db)).findActive_iff hcollision)
    (fun r => (hfull.indexed h).findActive_iff (hcollision.masks h))
  intro r r' hmasked
  rcases hmasked with rfl | rfl
  · exact Iff.rfl
  · exact Iff.rfl

/-- The token's row is found by its hash, if it has one. -/
theorem Indexed.find_hash (hindexed : Indexed P key db) (hcollision : NoCollision P key db token)
    (hr : r ∈ db.refreshTokens) (hopens : opensTo P key r.tokenEnc token = true) :
    (db.refreshTokens.find? fun x => x.tokenHash == some (P.sha256 token)) =
      if r.tokenHash = none then none else some r := by
  have hsame : ∀ {x}, (db.refreshTokens.find? fun x =>
      x.tokenHash == some (P.sha256 token)) = some x → x = r ∧ x.tokenHash ≠ none := by
    intro x hx
    obtain ⟨hmem, hhash⟩ := Table.mem_of_find? hx
    simp only [beq_iff_eq] at hhash
    have hopens' := hindexed.opensTo_of_hash hcollision hmem hhash
    refine ⟨hindexed.unique x hmem r hr _ hopens' hopens, ?_⟩
    rw [hhash]
    exact Option.some_ne_none _
  cases hfind : db.refreshTokens.find? fun x =>
      x.tokenHash == some (P.sha256 token) with
  | some x =>
    obtain ⟨rfl, hne⟩ := hsame hfind
    rw [if_neg hne]
  | none =>
    rcases hindexed.hash_of_opensTo hr hopens with hhash | hhash
    · have hnot := Table.find?_eq_none.mp hfind r hr
      simp [hhash] at hnot
    · rw [if_pos hhash]

/-! ## T04 -/

/-- What a row must be to be rotated. -/
structure Rotatable (db : Database) (client : ClientId) (now : DateTime)
    (prepared : PreparedRefreshToken) (r : RefreshTokenRow) : Prop where
  client : r.clientId = client
  unrevoked : r.revokedAt = none
  unexpired : now < r.expiresAt
  inserted : ∃ db', insertPrepared (revoke db r.id now) prepared = .ok db'
  recorded : ∃ attributes, buildAttributes [("family_id", toString r.familyId)] = .ok attributes

theorem beginRotation_rotatedHere_iff {db₁ : Database}
    (hfind : (db.refreshTokens.find? fun r => r.tokenHash == some hash) = some r) :
    beginRotation db hash client now = .ok (.rotatedHere r', db₁) ↔
      r.clientId = client ∧ r.revokedAt = none ∧ now < r.expiresAt ∧ r' = r ∧
        db₁ = revoke db r.id now := by
  have hr := (Table.mem_of_find? hfind).1
  simp only [beginRotation, hfind, bind_eq_ok, ensure_eq_ok, beq_iff_eq, exists_and_left]
  constructor
  · rintro ⟨hclient, -, hbegin⟩
    refine ⟨hclient, ?_⟩
    split at hbegin
    · cases hbegin
    · rename_i hexpired
      split at hbegin
      · rename_i hone
        cases hbegin
        have hnone := (revoke_affects_iff hr).mp (by simpa using hone)
        refine ⟨hnone, ?_, rfl, rfl⟩
        simpa [hnone] using hexpired
      · cases hbegin
  · rintro ⟨hclient, hnone, hexpires, rfl, rfl⟩
    refine ⟨hclient, (), ?_⟩
    have hone := (revoke_affects_iff hr).mpr hnone
    have hexpired : ¬ (decide (r'.expiresAt ≤ now) && r'.revokedAt.isNone) = true := by
      simp only [Bool.and_eq_true, decide_eq_true_eq]
      exact fun h => absurd h.1 (Int.not_le.mpr hexpires)
    rw [if_neg hexpired, hone]
    rfl

variable {prepared : PreparedRefreshToken}

/-- T04 rotates the row with the hash exactly when it can be rotated. -/
theorem rotateRefreshToken_rotated_iff
    (hfind : (db.refreshTokens.find? fun r => r.tokenHash == some hash) = some r) :
    (∃ s t db', rotateRefreshToken db hash client now prepared = .ok (.rotated s t, db')) ↔
      Rotatable db client now prepared r := by
  constructor
  · rintro ⟨s, t, db', h⟩
    simp only [rotateRefreshToken, classA, bind_eq_ok, pure_eq_ok, Prod.mk.injEq] at h
    obtain ⟨⟨value, event, db₁⟩, ⟨⟨rotation, db₂⟩, hbegin, hrest⟩, attributes, hattributes, -, -,
      rfl, -⟩ := h
    cases rotation with
    | rotatedHere row =>
      obtain ⟨hclient, hnone, hexpires, rfl, rfl⟩ := (beginRotation_rotatedHere_iff hfind).mp hbegin
      simp only [bind_eq_ok, pure_eq_ok, Prod.mk.injEq] at hrest
      obtain ⟨db₃, hinsert, -, rfl, rfl⟩ := hrest
      exact ⟨hclient, hnone, hexpires, ⟨db₃, hinsert⟩, attributes, hattributes⟩
    | reuseDetected row n =>
      simp only [pure_eq_ok, Prod.mk.injEq] at hrest
      cases hrest.1
    | expired row => cases hrest
    | unknown => cases hrest
  · rintro ⟨hclient, hnone, hexpires, ⟨db₃, hinsert⟩, attributes, hattributes⟩
    have hbegin := (beginRotation_rotatedHere_iff hfind).mpr
      ⟨hclient, hnone, hexpires, rfl, rfl⟩
    refine ⟨prepared.row, prepared.rawToken, { db₃ with
      auditLog := db₃.auditLog ++ [⟨none, "auth.refresh.rotated", some (toString r.userId), .ok,
        attributes⟩] }, ?_⟩
    simp only [rotateRefreshToken, classA, hbegin, hinsert, hattributes, checkRequired_nil, bind,
      Except.bind, pure, Except.pure]

/-- Without a row with the hash it refuses. -/
theorem rotateRefreshToken_unknown
    (hfind : (db.refreshTokens.find? fun r => r.tokenHash == some hash) = none) :
    rotateRefreshToken db hash client now prepared = .error .notFound := by
  simp only [rotateRefreshToken, classA, beginRotation, hfind, bind, Except.bind, pure,
    Except.pure]

end SuiId.RefreshTokens

/-! ## `exchange_refresh` -/

namespace SuiId

open Lib Lib.Result RefreshTokens

variable {P : Primitives} {ctx : IssuanceContext} {key : MasterKey} {db db' : Database}
  {req : RefreshExchangeRequest} {sign : SigningDraw} {draw : TokenDraw}

/-- What the request and the token's row must be to be exchanged: the client is let in and may
have the token, the pair and the successor can be made, and the row is live and its user there. -/
structure Exchangeable (P : Primitives) (ctx : IssuanceContext) (db : Database)
    (req : RefreshExchangeRequest) (sign : SigningDraw) (draw : TokenDraw)
    (r : RefreshTokenRow) : Prop where
  admitted : ∃ client jwt,
    checkClient P db req.clientId req.clientSecret req.clientSecretChannel = .ok client ∧
      refreshPolicy P req client r = .ok () ∧
      issueJwtPair P db ctx sign r.userId r.clientId r.scope none r.authMethods (readEmail db r) =
        .ok jwt
  prepared : ∃ prepared, prepareDrawn P draw (successorRow ctx draw r) = .ok prepared
  unrevoked : r.revokedAt = none
  unexpired : draw.now < r.expiresAt
  user : (db.users.get? r.userId).isSome = true
  recorded : ∃ attributes, buildAttributes [("family_id", toString r.familyId)] = .ok attributes

/-- The successor's identifier and token are new. -/
def FreshSuccessor (P : Primitives) (db : Database) (draw : TokenDraw) : Prop :=
  ∀ r ∈ db.refreshTokens, r.id ≠ draw.id ∧ r.tokenHash ≠ some (P.sha256 draw.rawToken)

/-- The readers of the two databases agree on the presented token. -/
structure Agrees (P : Primitives) (ctx : IssuanceContext) (key : MasterKey) (db db' : Database)
    (now : DateTime) (req : RefreshExchangeRequest) (sign : SigningDraw) (draw : TokenDraw) :
    Prop where
  active : (findActive P key db' now req.refreshToken).map columns =
    (findActive P key db now req.refreshToken).map columns
  any : (findAny P key db' req.refreshToken).map columns =
    (findAny P key db req.refreshToken).map columns
  exchange : (exchangeRefresh P ctx key db' req sign draw).1.toOption =
    (exchangeRefresh P ctx key db req sign draw).1.toOption

variable {r : RefreshTokenRow}
variable {row : RefreshTokenRow} {prepared : PreparedRefreshToken} {tokens : TokenSet}

/-- A new successor is inserted where its user and its client are. -/
theorem insertPrepared_iff {now : DateTime} (hfresh : FreshSuccessor P db draw)
    (hprepared : prepareDrawn P draw row = .ok prepared) (hid : row.id = draw.id) :
    (∃ db₁, insertPrepared (revoke db r.id now) prepared = .ok db₁) ↔
      (db.users.get? row.userId).isSome = true ∧ (db.clients.get? row.clientId).isSome = true := by
  obtain ⟨sealed, rfl⟩ := prepareRefreshToken_ok hprepared
  have hrevoked : ∀ x ∈ (revoke db r.id now).refreshTokens, ∃ y ∈ db.refreshTokens,
      x.id = y.id ∧ x.tokenHash = y.tokenHash := by
    intro x hx
    simp only [revoke, revokeWhere, Table.mem_update] at hx
    obtain ⟨y, hy, rfl⟩ := hx
    refine ⟨y, hy, ?_⟩
    split
    · exact ⟨rfl, rfl⟩
    · exact ⟨rfl, rfl⟩
  simp only [insertPrepared, bind_eq_ok, ensure_eq_ok, require_eq_ok, pure_eq_ok]
  constructor
  · rintro ⟨db₁, _, huser, _, hclient, -⟩
    exact ⟨huser, hclient⟩
  · rintro ⟨huser, hclient⟩
    have hunique : ((revoke db r.id now).refreshTokens.find? fun x => x.tokenHash.isSome &&
        x.tokenHash == some (P.sha256 draw.rawToken)) = none := by
      rw [Table.find?_eq_none]
      intro x hx
      obtain ⟨y, hy, -, hhash⟩ := hrevoked x hx
      simp [hhash, (hfresh y hy).2]
    have hkey : ∀ x ∈ (revoke db r.id now).refreshTokens, x.id ≠ row.id := by
      intro x hx
      obtain ⟨y, hy, hsame, -⟩ := hrevoked x hx
      rw [hsame, hid]
      exact (hfresh y hy).1
    obtain ⟨refreshTokens, hinsert⟩ := Table.exists_insert? (r := { row with
      tokenEnc := sealed, tokenHash := some (P.sha256 draw.rawToken) }) hkey
    exact ⟨_, (), huser, (), hclient, (), by rw [hunique]; rfl, refreshTokens, hinsert, rfl⟩

theorem admitRefresh_iff {jwt : JwtPair} :
    admitRefresh P ctx key db req sign = .ok (r, jwt) ↔
      ∃ client,
        checkClient P db req.clientId req.clientSecret req.clientSecretChannel = .ok client ∧
        findAny P key db req.refreshToken = some r ∧ refreshPolicy P req client r = .ok () ∧
        issueJwtPair P db ctx sign r.userId r.clientId r.scope none r.authMethods (readEmail db r) =
          .ok jwt := by
  simp only [admitRefresh, bind_eq_ok, require_eq_ok, pure_eq_ok, Prod.mk.injEq]
  constructor
  · rintro ⟨client, hclient, row, hrow, _, hpolicy, pair, hpair, rfl, rfl⟩
    exact ⟨client, hclient, hrow, hpolicy, hpair⟩
  · rintro ⟨client, hclient, hrow, hpolicy, hpair⟩
    exact ⟨client, hclient, r, hrow, (), hpolicy, jwt, hpair, rfl, rfl⟩

private theorem refreshAnswer_error (r : RefreshTokenRow) (jwt : JwtPair) (e : StoreError) :
    ∃ error, refreshAnswer r jwt (.error e) = .error error := by
  cases e <;> exact ⟨_, rfl⟩

/-- An exchange is accepted when its row is admitted and rotated. -/
theorem exchangeRefresh_ok_iff :
    (exchangeRefresh P ctx key db req sign draw).1 = .ok tokens ↔
      ∃ r jwt s raw db₁, admitRefresh P ctx key db req sign = .ok (r, jwt) ∧
        rotateWith P db ctx draw req r = .ok (.rotated s raw, db₁) ∧
        tokens = ⟨jwt.accessToken, jwt.idToken, raw, jwt.accessExpiresIn, some r.userId⟩ := by
  unfold exchangeRefresh
  cases hadmit : admitRefresh P ctx key db req sign with
  | error e => simp
  | ok admitted =>
    obtain ⟨r, jwt⟩ := admitted
    dsimp only
    cases hrotate : rotateWith P db ctx draw req r with
    | error e =>
      obtain ⟨error, hrefused⟩ := refreshAnswer_error r jwt e
      simp [hrefused, hrotate]
    | ok result =>
      obtain ⟨outcome, db₁⟩ := result
      cases outcome with
      | rotated s raw =>
        simp [refreshAnswer, hrotate, eq_comm]
      | theftDetected n => simp [refreshAnswer, hrotate]

/-- T04 hands out the token that was drawn. -/
theorem rotated_raw {s : RefreshTokenRow} {hash raw : Bytes} {client : ClientId} {now : DateTime}
    {db₁ : Database} (hprepared : prepareDrawn P draw row = .ok prepared)
    (h : rotateRefreshToken db hash client now prepared = .ok (.rotated s raw, db₁)) :
    raw = draw.rawToken := by
  obtain ⟨sealed, rfl⟩ := prepareDrawn_ok hprepared
  obtain ⟨row, -, -, ⟨-, houtcome, -⟩ | ⟨-, ⟨n, houtcome⟩, -⟩⟩ := rotateRefreshToken_ok h
  · cases houtcome
    rfl
  · cases houtcome

/-- A token whose row has its hash is exchanged exactly when it is exchangeable. -/
theorem exchangeRefresh_hashed_iff (hindexed : Indexed P key db)
    (hcollision : NoCollision P key db req.refreshToken) (hfresh : FreshSuccessor P db draw)
    (hr : r ∈ db.refreshTokens) (hopens : opensTo P key r.tokenEnc req.refreshToken = true)
    (hhash : r.tokenHash ≠ none) :
    (exchangeRefresh P ctx key db req sign draw).1 = .ok tokens ↔
      Exchangeable P ctx db req sign draw r ∧ ∃ jwt,
        issueJwtPair P db ctx sign r.userId r.clientId r.scope none r.authMethods
          (readEmail db r) = .ok jwt ∧
        tokens = ⟨jwt.accessToken, jwt.idToken, draw.rawToken, jwt.accessExpiresIn,
          some r.userId⟩ := by
  have hfind := hindexed.find_hash hcollision hr hopens
  rw [if_neg hhash] at hfind
  have hany := (hindexed.findAny_iff hcollision).mpr ⟨hr, hopens⟩
  rw [exchangeRefresh_ok_iff]
  constructor
  · rintro ⟨r', jwt, s, raw, db₁, hadmit, hrotate, rfl⟩
    obtain ⟨client, hclient, hany', hpolicy, hjwt⟩ := admitRefresh_iff.mp hadmit
    obtain rfl : r = r' := Option.some.inj (hany.symm.trans hany')
    obtain ⟨prepared, hprepared, hcommit⟩ := rotateWith_ok hrotate
    have hrotatable := (rotateRefreshToken_rotated_iff hfind).mp ⟨s, raw, db₁, hcommit⟩
    have huser := (insertPrepared_iff hfresh hprepared rfl).mp hrotatable.inserted
    have hraw : raw = draw.rawToken := rotated_raw hprepared hcommit
    refine ⟨⟨⟨client, jwt, hclient, hpolicy, hjwt⟩, ⟨prepared, hprepared⟩, hrotatable.unrevoked,
      hrotatable.unexpired, huser.1, hrotatable.recorded⟩, jwt, hjwt, ?_⟩
    rw [hraw]
  · rintro ⟨hexchangeable, jwt, hjwt, rfl⟩
    obtain ⟨client, jwt', hclient, hpolicy, hjwt'⟩ := hexchangeable.admitted
    obtain ⟨prepared, hprepared⟩ := hexchangeable.prepared
    have hown : r.clientId = req.clientId := by
      simp only [refreshPolicy, bind_eq_ok, ensure_eq_ok, beq_iff_eq] at hpolicy
      obtain ⟨-, hown, -⟩ := hpolicy
      exact hown
    have hregistered : (db.clients.get? r.clientId).isSome = true := by
      obtain ⟨hmem, hid, -⟩ := checkClient_ok hclient
      rw [hown, ← hid, Table.get?_key hmem]
      rfl
    have hinserted : ∃ db₁, insertPrepared (revoke db r.id draw.now) prepared = .ok db₁ :=
      (insertPrepared_iff hfresh hprepared rfl).mpr ⟨hexchangeable.user, hregistered⟩
    obtain ⟨s, raw, db₁, hcommit⟩ := (rotateRefreshToken_rotated_iff hfind).mpr
      ⟨hown, hexchangeable.unrevoked, hexchangeable.unexpired, hinserted, hexchangeable.recorded⟩
    have hraw : raw = draw.rawToken := rotated_raw hprepared hcommit
    refine ⟨r, jwt, s, raw, db₁, admitRefresh_iff.mpr ⟨client, hclient, hany, hpolicy, hjwt⟩,
      bind_eq_ok.mpr ⟨prepared, hprepared, hcommit⟩, ?_⟩
    rw [hraw]

/-- A token whose row has no hash is not exchanged. -/
theorem exchangeRefresh_unhashed (hindexed : Indexed P key db)
    (hcollision : NoCollision P key db req.refreshToken) (hr : r ∈ db.refreshTokens)
    (hopens : opensTo P key r.tokenEnc req.refreshToken = true) (hhash : r.tokenHash = none)
    (tokens : TokenSet) :
    (exchangeRefresh P ctx key db req sign draw).1 ≠ .ok tokens := by
  have hfind := hindexed.find_hash hcollision hr hopens
  rw [if_pos hhash] at hfind
  rw [ne_eq, exchangeRefresh_ok_iff]
  rintro ⟨r', jwt, s, raw, db₁, -, hrotate, -⟩
  obtain ⟨prepared, -, hcommit⟩ := rotateWith_ok hrotate
  rw [rotateRefreshToken_unknown hfind] at hcommit
  cases hcommit

/-! ## The readers together -/

theorem toOption_eq_of_ok_iff {α ε : Type} {x y : Except ε α} (h : ∀ a, x = .ok a ↔ y = .ok a) :
    x.toOption = y.toOption := by
  cases x with
  | ok a => rw [(h a).mp rfl]
  | error e =>
    cases y with
    | ok a => cases (h a).mpr rfl
    | error e' => rfl

theorem exchangeable_masks (h : Masks db db') {r' : RefreshTokenRow} (hmasked : Masked r r') :
    Exchangeable P ctx db' req sign draw r' ↔ Exchangeable P ctx db req sign draw r := by
  rw [h.rest]
  rcases hmasked with rfl | rfl
  · exact ⟨fun h => ⟨h.admitted, h.prepared, h.unrevoked, h.unexpired, h.user, h.recorded⟩,
      fun h => ⟨h.admitted, h.prepared, h.unrevoked, h.unexpired, h.user, h.recorded⟩⟩
  · exact ⟨fun h => ⟨h.admitted, h.prepared, h.unrevoked, h.unexpired, h.user, h.recorded⟩,
      fun h => ⟨h.admitted, h.prepared, h.unrevoked, h.unexpired, h.user, h.recorded⟩⟩

theorem FreshSuccessor.masks (hfresh : FreshSuccessor P db draw) (h : Masks db db') :
    FreshSuccessor P db' draw := by
  intro r' hr'
  obtain ⟨r, hr, hmasked⟩ := h.back r' hr'
  refine ⟨by rw [hmasked.id]; exact (hfresh r hr).1, ?_⟩
  rcases hmasked with rfl | rfl
  · exact (hfresh r' hr).2
  · exact (Option.some_ne_none _).symm

/-- An exchange of a token without a row is refused. -/
theorem exchangeRefresh_of_missing (hnone : findAny P key db req.refreshToken = none)
    (tokens : TokenSet) : (exchangeRefresh P ctx key db req sign draw).1 ≠ .ok tokens := by
  rw [ne_eq, exchangeRefresh_ok_iff]
  rintro ⟨r, jwt, s, raw, db₁, hadmit, -⟩
  obtain ⟨client, -, hany, -⟩ := admitRefresh_iff.mp hadmit
  rw [hnone] at hany
  cases hany

/-- Exchanges agree unless the token's row has lost its hash and is exchangeable. -/
theorem exchange_masks_iff (hfull : FullyHashed P key db)
    (hcollision : NoCollision P key db req.refreshToken) (hfresh : FreshSuccessor P db draw)
    (h : Masks db db') :
    (exchangeRefresh P ctx key db' req sign draw).1.toOption =
        (exchangeRefresh P ctx key db req sign draw).1.toOption ↔
      ¬ ∃ r ∈ db'.refreshTokens, r.tokenHash = none ∧
        opensTo P key r.tokenEnc req.refreshToken = true ∧
        Exchangeable P ctx db' req sign draw r := by
  have hindexed := hfull.indexed (masks_refl db)
  have hindexed' := hfull.indexed h
  have hcollision' := hcollision.masks h
  cases hany : findAny P key db req.refreshToken with
  | none =>
    have hany' : findAny P key db' req.refreshToken = none := by
      have hmap := findAny_masks hfull hcollision h
      rw [hany, Option.map_none, Option.map_eq_none_iff] at hmap
      exact hmap
    refine iff_of_true (toOption_eq_of_ok_iff fun tokens => iff_of_false ?_ ?_) ?_
    · exact exchangeRefresh_of_missing hany' tokens
    · exact exchangeRefresh_of_missing hany tokens
    · rintro ⟨r, hr, -, hopens, -⟩
      rw [(hindexed'.findAny_iff hcollision').mpr ⟨hr, hopens⟩] at hany'
      cases hany'
  | some r =>
    obtain ⟨hr, hopens⟩ := (hindexed.findAny_iff hcollision).mp hany
    obtain ⟨plain, -, hhash⟩ := hfull.opens r hr
    have hhashed : r.tokenHash ≠ none := by
      rw [hhash]
      exact Option.some_ne_none _
    obtain ⟨r', hr', hmasked⟩ := h.forth r hr
    have hopens' : opensTo P key r'.tokenEnc req.refreshToken = true := by
      rw [hmasked.tokenEnc]
      exact hopens
    have hholder : ∀ x ∈ db'.refreshTokens, opensTo P key x.tokenEnc req.refreshToken = true →
        x = r' := by
      intro x hx hx'
      exact hindexed'.unique x hx r' hr' _ hx' hopens'
    rcases hmasked with rfl | rfl
    · refine iff_of_true (toOption_eq_of_ok_iff fun tokens => ?_) ?_
      · rw [exchangeRefresh_hashed_iff hindexed hcollision hfresh hr hopens hhashed,
          exchangeRefresh_hashed_iff hindexed' hcollision' (hfresh.masks h) hr' hopens hhashed,
          exchangeable_masks h (.inl rfl)]
        rw [h.rest]
        exact Iff.rfl
      · rintro ⟨x, hx, hmissing, hx', -⟩
        rw [hholder x hx hx'] at hmissing
        exact hhashed hmissing
    · -- The exchange that has lost the hash is refused, so the other must be too.
      have hrefused : (exchangeRefresh P ctx key db' req sign draw).1.toOption = none := by
        cases hresult : (exchangeRefresh P ctx key db' req sign draw).1 with
        | error e => rfl
        | ok tokens =>
          exact absurd hresult
            (exchangeRefresh_unhashed hindexed' hcollision' hr' hopens' rfl tokens)
      rw [hrefused]
      constructor
      · rintro heq ⟨x, hx, -, hx', hexchangeable⟩
        rw [hholder x hx hx', exchangeable_masks h (.inr rfl)] at hexchangeable
        obtain ⟨client, jwt, -, -, hjwt⟩ := hexchangeable.admitted
        rw [(exchangeRefresh_hashed_iff hindexed hcollision hfresh hr hopens hhashed).mpr
          ⟨hexchangeable, jwt, hjwt, rfl⟩] at heq
        cases heq
      · intro hnot
        cases hresult : (exchangeRefresh P ctx key db req sign draw).1 with
        | error e => rfl
        | ok tokens =>
          have hexchangeable :=
            ((exchangeRefresh_hashed_iff hindexed hcollision hfresh hr hopens hhashed).mp
              hresult).1
          exact absurd ⟨columns r, hr', rfl, hopens',
            (exchangeable_masks h (.inr rfl)).mpr hexchangeable⟩ hnot

/-- Over a fully hashed table that has lost some hashes, and wherever the backfill stands: the
three readers answer as over the full table, unless the row of the presented token has no hash
and the exchange would be accepted. -/
theorem lookup_agrees_iff (hfull : FullyHashed P key db)
    (hcollision : NoCollision P key db req.refreshToken) (hfresh : FreshSuccessor P db draw)
    (p : RefreshTokenId → Bool) (n : Nat) (now : DateTime) :
    Agrees P ctx key db (backfilled P key (unhash db p) n) now req sign draw ↔
      ¬ ∃ r ∈ (backfilled P key (unhash db p) n).refreshTokens, r.tokenHash = none ∧
        opensTo P key r.tokenEnc req.refreshToken = true ∧
        Exchangeable P ctx (backfilled P key (unhash db p) n) req sign draw r := by
  have hmasks := masks_backfilled hfull (masks_unhash db p) n
  rw [← exchange_masks_iff hfull hcollision hfresh hmasks]
  constructor
  · intro h
    exact h.exchange
  · intro h
    exact ⟨findActive_masks hfull hcollision hmasks now, findAny_masks hfull hcollision hmasks, h⟩

/-! ## A token from before the hashes -/

/-- The legacy token with its hash. -/
def hashedDb : Database :=
  { sampleDb with refreshTokens := ⟨[{ legacyToken with tokenHash := some [1] }], by decide⟩ }

def hashedRequest : RefreshExchangeRequest := ⟨[1], 5, none, .body⟩

private theorem hashedDb_row (hr : r ∈ hashedDb.refreshTokens) :
    r = { legacyToken with tokenHash := some [1] } := List.mem_singleton.mp hr

private theorem hashedDb_fullyHashed :
    FullyHashed Primitives.transparent sampleKey hashedDb where
  opens r hr := by
    rw [hashedDb_row hr]
    exact ⟨[1], by decide +kernel, rfl⟩
  unique r hr r' hr' _ := by rw [hashedDb_row hr, hashedDb_row hr']

private theorem hashedDb_noCollision :
    NoCollision Primitives.transparent sampleKey hashedDb hashedRequest.refreshToken := by
  intro r _ plain _ hhash
  exact hhash

private theorem hashedDb_fresh :
    FreshSuccessor Primitives.transparent hashedDb (sampleDraw 101 [2]) := by
  intro r hr
  rw [hashedDb_row hr]
  decide +kernel

/-- After the backfill the readers agree. -/
theorem lookup_agrees_backfilled :
    Agrees Primitives.transparent sampleContext sampleKey hashedDb
      (backfilled Primitives.transparent sampleKey (unhash hashedDb fun _ => true) 1) 5
      hashedRequest ⟨0, sampleKey, "a", "b"⟩ (sampleDraw 101 [2]) := by
  rw [lookup_agrees_iff hashedDb_fullyHashed hashedDb_noCollision hashedDb_fresh]
  rintro ⟨r, hr, hnone, -⟩
  have hhashed : ∀ r ∈ (backfilled Primitives.transparent sampleKey
      (unhash hashedDb fun _ => true) 1).refreshTokens.rows, r.tokenHash ≠ none := by
    decide +kernel
  exact hhashed r hr hnone

/-- Before it, the token is live and its exchange refused. -/
theorem unhashed_token_refused :
    ¬ Agrees Primitives.transparent sampleContext sampleKey hashedDb
      (backfilled Primitives.transparent sampleKey (unhash hashedDb fun _ => true) 0) 5
      hashedRequest ⟨0, sampleKey, "a", "b"⟩ (sampleDraw 101 [2]) := by
  intro h
  have hexchange := h.exchange
  revert hexchange
  decide +kernel

end SuiId
