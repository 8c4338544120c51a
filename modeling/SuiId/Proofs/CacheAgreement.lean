import SuiId.Core.Caches
import SuiId.Lib.Refresh
import SuiId.Store.Federation

/-!
# The caches against the database

Each cache is a value refreshed by read and store (`Lib.Refreshed`): the origins of the registered
redirect URIs, and the published keys.  Two things go wrong.

* Initial setup inserts the first key and dynamic registration inserts a client, and neither
  rebuilds a cache.
* A rebuild that has read before a change, and stores after the rebuild of that change, puts the
  old list back.

In a run without them, every quiet state has both caches current, and verification with the cache
is verification with the database.
-/

namespace SuiId

open Lib Lib.Result Lib.Machine

variable {P : Primitives} {J : JwtPackages}

/-! ## The two views of a rebuild -/

namespace Rebuild

def originsView : Rebuild → Pending (Finset String)
  | .origins _ => .reads
  | .originsRead _ list => .holds list
  | .keys _ => .unrelated
  | .keysRead _ => .unrelated

/-- The rebuild of the startup comes to the keys after the origins. -/
def keysView : Rebuild → Pending (List CachedSigningKey)
  | .origins startup => if startup then .reads else .unrelated
  | .originsRead startup _ => if startup then .reads else .unrelated
  | .keys _ => .reads
  | .keysRead list => .holds list

end Rebuild

def OriginsRefreshed (P : Primitives) (w : CacheWorld) : Prop :=
  Refreshed Rebuild.originsView (registeredOrigins P w.db) w.caches.redirectOrigins w.inProgress

def KeysRefreshed (w : CacheWorld) : Prop :=
  Refreshed Rebuild.keysView (publishedKeys w.db) w.caches.jwks w.inProgress

/-- Some rebuild has still to read the origins. -/
def CacheWorld.willReadOrigins (w : CacheWorld) : Bool :=
  w.inProgress.any fun r => r.originsView = .reads

def CacheWorld.willReadKeys (w : CacheWorld) : Bool :=
  w.inProgress.any fun r => r.keysView = .reads

/-- The two conditions of a run.

An operation that rebuilds nothing is refused, or adds nothing to a list, or some rebuild has still
to read that list.  And a rebuild stores the list as it is now, or some other rebuild will. -/
def keepsCurrent (P : Primitives) (w : CacheWorld) : CacheEvent → Bool
  | .commit (.completeInitialSetup user cred signingKey authorizedBy now) =>
    !(completeInitialSetup P w.db user cred signingKey authorizedBy now).isOk ||
      (w.db.signingKeys.find? (·.isActive)).isSome || w.willReadKeys
  | .commit (.registerClientDynamically tokenHash row now) =>
    !(registerClientDynamically w.db w.registrationTokens tokenHash row now).isOk ||
      row.isDeleted ||
      (row.redirectUris.filterMap (originFromUri P)).all (· ∈ registeredOrigins P w.db) ||
      w.willReadOrigins
  | .commit _ => true
  | .next i =>
    match w.inProgress[i]? with
    | some (.originsRead _ list) =>
      list = registeredOrigins P w.db ||
        settledBy Rebuild.originsView (registeredOrigins P w.db) (w.inProgress.eraseIdx i)
    | some (.keysRead list) =>
      list = publishedKeys w.db ||
        settledBy Rebuild.keysView (publishedKeys w.db) (w.inProgress.eraseIdx i)
    | _ => true
  | .fails _ => true

/-- The caches say what the database says. -/
structure CachesAgree (P : Primitives) (J : JwtPackages) (db : Database) (caches : Caches) :
    Prop where
  accessToken : ∀ now token,
    verifyAccessTokenCached J caches now token = verifyAccessToken J db now token
  idToken : ∀ now token acceptExpired,
    verifyIdTokenCached J caches now token acceptExpired =
      verifyIdToken J db now token acceptExpired
  origins : ∀ origin, origin ∈ caches.redirectOrigins ↔
    ∃ client ∈ db.clients, client.isDeleted = false ∧
      ∃ uri ∈ client.redirectUris, originFromUri P uri = some origin

/-! ## What is read -/

variable {db db' : Database}

theorem mem_registeredOrigins {origin : String} :
    origin ∈ registeredOrigins P db ↔
      ∃ client ∈ db.clients, client.isDeleted = false ∧
        ∃ uri ∈ client.redirectUris, originFromUri P uri = some origin := by
  simp only [registeredOrigins, List.mem_toFinset, List.mem_flatMap, List.mem_filter,
    List.mem_filterMap, Bool.not_eq_true', Table.mem_iff]
  constructor
  · rintro ⟨client, ⟨hmem, hlive⟩, uri, huri, horigin⟩
    exact ⟨client, hmem, hlive, uri, huri, horigin⟩
  · rintro ⟨client, hmem, hlive, uri, huri, horigin⟩
    exact ⟨client, ⟨hmem, hlive⟩, uri, huri, horigin⟩

/-- What a rebuild of the keys reads depends on the table alone. -/
theorem publishedKeys_congr (h : db'.signingKeys = db.signingKeys) :
    publishedKeys db' = publishedKeys db := by
  rw [publishedKeys, SigningKeys.listPublished, h]
  rfl

theorem registeredOrigins_congr (h : db'.clients = db.clients) :
    registeredOrigins P db' = registeredOrigins P db := by
  rw [registeredOrigins, h]
  rfl

/-! ## What a commit leaves as it was -/

variable {u : Unit}

theorem completeInitialSetup_tables {user : UserRow} {cred : CredentialRow}
    {signingKey : InitialSigningKeyMaterial} {authorizedBy : SetupAuthorizedBy} {now : DateTime}
    (h : completeInitialSetup P db user cred signingKey authorizedBy now = .ok (u, db')) :
    db'.clients = db.clients ∧
      ((db.signingKeys.find? (·.isActive)).isSome = true → db'.signingKeys = db.signingKeys) := by
  obtain ⟨event, db₁, log, hbody, rfl⟩ := classA_eq_ok h
  simp only [bind_eq_ok, ensure_eq_ok, pure_eq_ok, Prod.mk.injEq] at hbody
  obtain ⟨-, -, db₂, hcreate, -, -, db₃, hkey, -, -, rfl⟩ := hbody
  obtain ⟨users, rfl⟩ := Users.create_ok hcreate
  unfold bootstrapSigningKey at hkey
  split at hkey
  · cases hkey
    exact ⟨rfl, fun _ => rfl⟩
  · next hnone =>
    simp only [bind_eq_ok, require_eq_ok, pure_eq_ok] at hkey
    obtain ⟨signingKeys, -, rfl⟩ := hkey
    exact ⟨rfl, fun hactive => absurd hactive hnone⟩

theorem deleteSigningKey_clients {admin : UserId} {target : Nat} {reason : Option String}
    (h : deleteSigningKey db admin target reason = .ok (u, db')) :
    db'.clients = db.clients := by
  obtain ⟨event, db₁, log, hbody, rfl⟩ := classA_eq_ok h
  simp only [SigningKeys.delete, bind_eq_ok, require_eq_ok, ensure_eq_ok, pure_eq_ok,
    Prod.mk.injEq] at hbody
  obtain ⟨db₂, ⟨-, -, -, -, rfl⟩, -, -, rfl⟩ := hbody
  rfl

/-- The tables that a commit leaves as they were: the keys when it rebuilds the origins, the
clients when it rebuilds the keys. -/
inductive CommitLeaves (P : Primitives) (db : Database) (tokens : RegistrationTokens)
    (db' : Database) : CacheOperation → Prop where
  | client {operation : CacheOperation} : operation.rebuild = some (.origins false) →
      db'.signingKeys = db.signingKeys → CommitLeaves P db tokens db' operation
  | key {operation : CacheOperation} : operation.rebuild = some (.keys false) →
      db'.clients = db.clients → CommitLeaves P db tokens db' operation
  | setup {user cred signingKey authorizedBy now} {u : Unit} :
      completeInitialSetup P db user cred signingKey authorizedBy now = .ok (u, db') →
      CommitLeaves P db tokens db' (.completeInitialSetup user cred signingKey authorizedBy now)
  | registration {tokenHash row now} {tokens' : RegistrationTokens} :
      registerClientDynamically db tokens tokenHash row now = .ok (tokens', db') →
      CommitLeaves P db tokens db' (.registerClientDynamically tokenHash row now)

theorem commitLeaves_of_perform {operation : CacheOperation} {tokens tokens' : RegistrationTokens}
    (h : operation.perform P db tokens = .ok (tokens', db')) :
    CommitLeaves P db tokens db' operation := by
  cases operation with
  | createClient actor spec id secretHash =>
    simp only [CacheOperation.perform, adminCreateClient, map_eq_ok, mapError_eq_ok, bind_eq_ok,
      Prod.mk.injEq] at h
    obtain ⟨_, ⟨-, -, -, -, -, -, ⟨u, db₁⟩, hcreate, rfl⟩, -, rfl⟩ := h
    obtain ⟨clients, log, -, rfl⟩ := createClient_ok hcreate
    exact .client rfl rfl
  | updateClientBasic actor target name redirectUris =>
    simp only [CacheOperation.perform, adminUpdateClientBasic, map_eq_ok, mapError_eq_ok,
      bind_eq_ok,
      Prod.mk.injEq] at h
    obtain ⟨_, ⟨-, -, ⟨u, db₁⟩, hupdate, rfl⟩, -, rfl⟩ := h
    obtain ⟨log, rfl⟩ := updateClientBasic_ok hupdate
    exact .client rfl rfl
  | setClientDisabled actor target disabled reason now =>
    simp only [CacheOperation.perform, map_eq_ok, Prod.mk.injEq] at h
    obtain ⟨_, hset, -, rfl⟩ := h
    unfold SuiId.setClientDisabled at hset
    split at hset
    · simp only [map_eq_ok, mapError_eq_ok] at hset
      obtain ⟨⟨u, db₁⟩, hdisable, rfl⟩ := hset
      obtain ⟨log, rfl⟩ := disableClient_ok hdisable
      exact .client rfl rfl
    · simp only [map_eq_ok, mapError_eq_ok] at hset
      obtain ⟨⟨u, db₁⟩, henable, rfl⟩ := hset
      obtain ⟨log, rfl⟩ := enableClient_ok henable
      exact .client rfl rfl
  | deleteClient actor target reason now =>
    simp only [CacheOperation.perform, map_eq_ok, mapError_eq_ok, Prod.mk.injEq] at h
    obtain ⟨⟨u, db₁⟩, hdelete, -, rfl⟩ := h
    obtain ⟨-, log, rfl⟩ := deleteClient_ok hdelete
    exact .client rfl rfl
  | rotateSigningKey actor session newId privateKeySealed publicKey reason now =>
    simp only [CacheOperation.perform, map_eq_ok, mapError_eq_ok, Prod.mk.injEq] at h
    obtain ⟨⟨u, db₁⟩, hrotate, -, rfl⟩ := h
    obtain ⟨-, db₂, log, hatomic, rfl⟩ := rotateSigningKey_ok hrotate
    obtain ⟨signingKeys, rfl⟩ := SigningKeys.rotateAtomic_ok hatomic
    exact .key rfl rfl
  | deleteSigningKey actor target reason =>
    simp only [CacheOperation.perform, map_eq_ok, mapError_eq_ok, Prod.mk.injEq] at h
    obtain ⟨⟨u, db₁⟩, hdelete, -, rfl⟩ := h
    exact .key rfl (deleteSigningKey_clients hdelete)
  | completeInitialSetup user cred signingKey authorizedBy now =>
    simp only [CacheOperation.perform, map_eq_ok, mapError_eq_ok, Prod.mk.injEq] at h
    obtain ⟨⟨u, db₁⟩, hsetup, -, rfl⟩ := h
    exact .setup hsetup
  | registerClientDynamically tokenHash row now =>
    simp only [CacheOperation.perform, mapError_eq_ok] at h
    exact .registration h

/-- A client whose origins are known adds none. -/
theorem registeredOrigins_insert {row : ClientRow}
    (hinsert : db.clients.insert? row = some db'.clients)
    (hknown : row.isDeleted = true ∨
      ∀ origin ∈ row.redirectUris.filterMap (originFromUri P), origin ∈ registeredOrigins P db) :
    registeredOrigins P db' = registeredOrigins P db := by
  ext origin
  rw [mem_registeredOrigins, mem_registeredOrigins]
  constructor
  · rintro ⟨client, hmem, hlive, uri, huri, horigin⟩
    rcases Table.mem_of_insert? hinsert |>.mp hmem with hmem | rfl
    · exact ⟨client, hmem, hlive, uri, huri, horigin⟩
    · rcases hknown with hdeleted | hknown
      · exact absurd (hlive.symm.trans hdeleted) nofun
      · exact mem_registeredOrigins.mp
          (hknown origin (List.mem_filterMap.mpr ⟨uri, huri, horigin⟩))
  · rintro ⟨client, hmem, rest⟩
    exact ⟨client, Table.mem_of_insert? hinsert |>.mpr (.inl hmem), rest⟩

/-! ## Steps -/

section Steps

variable {w : CacheWorld}

private theorem isOk_of_eq {α ε : Type} {x : Except ε α} {a : α} (h : x = .ok a) :
    (!x.isOk) = false := by
  rw [h]
  rfl

variable {operation : CacheOperation} {tokens : RegistrationTokens} {i : Nat} {r : Rebuild}

theorem keysRefreshed_commit {db : Database} (h : KeysRefreshed w)
    (hg : keepsCurrent P w (.commit operation) = true)
    (hcommit : operation.perform P w.db w.registrationTokens = .ok (tokens, db)) :
    Refreshed Rebuild.keysView (publishedKeys db) w.caches.jwks
      (w.inProgress ++ operation.rebuild.toList) := by
  have hkept : db.signingKeys = w.db.signingKeys →
      Refreshed Rebuild.keysView (publishedKeys db) w.caches.jwks
        (w.inProgress ++ operation.rebuild.toList) := by
    intro hkeys
    rw [publishedKeys_congr hkeys]
    exact h.append _
  cases commitLeaves_of_perform hcommit with
  | client _ hkeys => exact hkept hkeys
  | key hrebuild _ =>
    refine .changed (r := .keys false) ?_ rfl _
    rw [hrebuild]
    exact List.mem_append_right _ (List.mem_singleton_self _)
  | setup hsetup =>
    simp only [keepsCurrent, isOk_of_eq hsetup, Bool.false_or, Bool.or_eq_true] at hg
    rcases hg with hactive | hreads
    · exact hkept ((completeInitialSetup_tables hsetup).2 hactive)
    · obtain ⟨r, hr, hview⟩ := List.any_eq_true.mp hreads
      exact .changed (List.mem_append_left _ hr) (of_decide_eq_true hview) _
  | registration hregister =>
    obtain ⟨clients, log, -, rfl⟩ := registerClientDynamically_ok hregister
    exact hkept rfl

theorem originsRefreshed_commit {db : Database} (h : OriginsRefreshed P w)
    (hg : keepsCurrent P w (.commit operation) = true)
    (hcommit : operation.perform P w.db w.registrationTokens = .ok (tokens, db)) :
    Refreshed Rebuild.originsView (registeredOrigins P db) w.caches.redirectOrigins
      (w.inProgress ++ operation.rebuild.toList) := by
  have hkept : registeredOrigins P db = registeredOrigins P w.db →
      Refreshed Rebuild.originsView (registeredOrigins P db) w.caches.redirectOrigins
        (w.inProgress ++ operation.rebuild.toList) := by
    intro horigins
    rw [horigins]
    exact h.append _
  cases commitLeaves_of_perform hcommit with
  | client hrebuild _ =>
    refine .changed (r := .origins false) ?_ rfl _
    rw [hrebuild]
    exact List.mem_append_right _ (List.mem_singleton_self _)
  | key _ hclients => exact hkept (registeredOrigins_congr hclients)
  | setup hsetup => exact hkept (registeredOrigins_congr (completeInitialSetup_tables hsetup).1)
  | registration hregister =>
    simp only [keepsCurrent, isOk_of_eq hregister, Bool.false_or, Bool.or_eq_true] at hg
    obtain ⟨clients, log, hinsert, rfl⟩ := registerClientDynamically_ok hregister
    rcases hg with (hdeleted | hknown) | hreads
    · exact hkept (registeredOrigins_insert hinsert (.inl hdeleted))
    · refine hkept (registeredOrigins_insert hinsert (.inr fun origin horigin => ?_))
      exact of_decide_eq_true (List.all_eq_true.mp hknown origin horigin)
    · obtain ⟨r, hr, hview⟩ := List.any_eq_true.mp hreads
      exact .changed (List.mem_append_left _ hr) (of_decide_eq_true hview) _

theorem keysRefreshed_next (h : KeysRefreshed w) (hg : keepsCurrent P w (.next i) = true)
    (hr : w.inProgress[i]? = some r) :
    Refreshed Rebuild.keysView (publishedKeys w.db) (r.advance P w.db w.caches).2.jwks
      (replaceAt w.inProgress i (r.advance P w.db w.caches).1) := by
  cases r with
  | origins startup => exact Refreshed.set h hr id
  | originsRead startup list =>
    cases startup with
    | true => exact Refreshed.set h hr id
    | false => exact Refreshed.eraseIdx h hr rfl
  | keys startup => exact Refreshed.set h hr fun _ => Pending.settles_holds.mpr rfl
  | keysRead list =>
    simp only [keepsCurrent, hr, Bool.or_eq_true, decide_eq_true_eq] at hg
    exact hg

theorem originsRefreshed_next (h : OriginsRefreshed P w) (hg : keepsCurrent P w (.next i) = true)
    (hr : w.inProgress[i]? = some r) :
    Refreshed Rebuild.originsView (registeredOrigins P w.db)
      (r.advance P w.db w.caches).2.redirectOrigins
      (replaceAt w.inProgress i (r.advance P w.db w.caches).1) := by
  cases r with
  | origins startup => exact Refreshed.set h hr fun _ => Pending.settles_holds.mpr rfl
  | originsRead startup list =>
    simp only [keepsCurrent, hr, Bool.or_eq_true, decide_eq_true_eq] at hg
    cases startup with
    | true => exact Refreshed.store_set (.keys true) hg
    | false => exact hg
  | keys startup => exact Refreshed.set h hr id
  | keysRead list => exact Refreshed.eraseIdx h hr rfl

/-- What a run keeps, as long as no rebuild fails. -/
def CachesRefreshed (P : Primitives) (w : CacheWorld) : Prop :=
  w.failed = false → KeysRefreshed w ∧ OriginsRefreshed P w

theorem cachesRefreshed_start (db : Database) (tokens : RegistrationTokens) :
    CachesRefreshed P (.start db tokens) := by
  intro _
  have hmem : Rebuild.origins true ∈ (CacheWorld.start db tokens).inProgress :=
    List.mem_singleton_self _
  exact ⟨.changed hmem rfl _, .changed hmem rfl _⟩

theorem cachesRefreshed_step (w : CacheWorld) (e : CacheEvent) (h : CachesRefreshed P w)
    (hg : keepsCurrent P w e = true) : CachesRefreshed P (cacheStep P w e).1 := by
  cases e with
  | commit operation =>
    dsimp only [cacheStep]
    split
    · exact h
    · next tokens db hcommit =>
      intro hok
      obtain ⟨hkeys, horigins⟩ := h hok
      exact ⟨keysRefreshed_commit hkeys hg hcommit, originsRefreshed_commit horigins hg hcommit⟩
  | next i =>
    dsimp only [cacheStep]
    split
    · exact h
    · next r hr =>
      intro hok
      obtain ⟨hkeys, horigins⟩ := h hok
      exact ⟨keysRefreshed_next hkeys hg hr, originsRefreshed_next horigins hg hr⟩
  | fails i =>
    dsimp only [cacheStep]
    split
    · exact h
    · exact fun hok => absurd hok nofun

end Steps

theorem cachesAgree_of_refreshed {w : CacheWorld} (hkeys : KeysRefreshed w)
    (horigins : OriginsRefreshed P w) (hquiet : w.inProgress = []) :
    CachesAgree P J w.db w.caches := by
  rw [KeysRefreshed, hquiet] at hkeys
  rw [OriginsRefreshed, hquiet] at horigins
  constructor
  · intro now token
    rw [verifyAccessTokenCached, hkeys.settled]
    rfl
  · intro now token acceptExpired
    rw [verifyIdTokenCached, hkeys.settled]
    rfl
  · intro origin
    rw [horigins.settled, mem_registeredOrigins]

/-- In a run whose steps meet the condition, every quiet state without a failed rebuild has caches
that agree with the database. -/
theorem caches_agree (J : JwtPackages) {db : Database} {tokens : RegistrationTokens}
    {events : List CacheEvent}
    (hg : Guarded (cacheStep P) (fun w e => keepsCurrent P w e = true) (.start db tokens) events)
    (hquiet : (run (cacheStep P) (.start db tokens) events).inProgress = [])
    (hok : (run (cacheStep P) (.start db tokens) events).failed = false) :
    CachesAgree P J (run (cacheStep P) (.start db tokens) events).db
      (run (cacheStep P) (.start db tokens) events).caches := by
  have hrun : CachesRefreshed P (run (cacheStep P) (.start db tokens) events) :=
    run_invariant cachesRefreshed_step hg (cachesRefreshed_start db tokens)
  exact cachesAgree_of_refreshed (hrun hok).1 (hrun hok).2 hquiet

/-! ## Runs -/

private def callbackUri : String := "https://app.example/cb"

/-- One URL is enough here. -/
private def oneUrl : Primitives :=
  { Primitives.transparent with
    parseUrl := fun uri =>
      if uri == callbackUri then
        some
          { scheme := "https", username := "", password := none
            host := some (.domain "app.example"), port := none, path := "/cb", query := none
            fragment := none, origin := .tuple "https" "app.example" 443, asStr := uri }
      else none }

/-- Texts stand for their own decoding, and every signature of 64 bytes is good. -/
private def plainJwt : JwtPackages where
  decodeBase64Url text := some (utf8 text)
  parseHeader bytes := if bytes == utf8 "header" then some ⟨"EdDSA", "7"⟩ else none
  isVerifyingKey _ := true
  verifySignature _ _ _ := true
  parseAccessTokenClaims bytes :=
    if bytes == utf8 "claims" then some ⟨"", "1", "3", 0, 900, "openid", "j"⟩ else none
  parseIdTokenClaims _ := none

private def signedToken : String :=
  "header.claims." ++ String.ofList (List.replicate 64 's')

private def firstAdmin : UserRow :=
  { id := 1, username := "admin", displayName := none, email := none, emailNormalized := none
    emailVerifiedAt := none, role := .admin, isDisabled := false, isDeleted := false
    lastLoginAt := none, failedLoginCount := 0, lockedUntil := none, mfaFailureCount := 0
    source := .localDb, externalStableId := none }

private def setup : CacheEvent :=
  .commit (.completeInitialSetup firstAdmin ⟨1, "phc", 0⟩ ⟨7, "EdDSA", [], List.replicate 32 0⟩
    .setupToken 0)

private def createApp : CacheEvent :=
  .commit (.createClient 1 ⟨"app", [callbackUri], true, "openid", []⟩ 3 "phc")

private def deleteApp : CacheEvent := .commit (.deleteClient 1 3 none 0)

/-- The row of a client that has registered itself: disabled until an administrator enables it. -/
private def registerApp : CacheEvent :=
  .commit (.registerClientDynamically "hash"
    { id := 3, name := "app", confidential := true, secretHash := some "phc"
      allowedScopes := "openid", isDisabled := true, isDeleted := false
      tokenEndpointAuthMethod := some .clientSecretBasic
      grantTypes := some ["authorization_code"], redirectUris := [callbackUri]
      consentPolicy := .firstTime } 0)

private def oneToken : RegistrationTokens := ⟨[⟨1, "hash", 1, 0, none, none⟩], by decide⟩

/-- `Caches::build`, from its first read to its last store. -/
private def build : List CacheEvent := [.next 0, .next 0, .next 0, .next 0]

/-- Setup comes before the build has read the keys, and two rebuilds overlap but store in the order
in which they have read. -/
private def orderlyRun : List CacheEvent :=
  [.next 0, setup, .next 0, .next 0, .next 0, createApp, .next 0, deleteApp, .next 0, .next 0,
    .next 0]

theorem caches_agree_orderly :
    Guarded (cacheStep oneUrl) (fun w e => keepsCurrent oneUrl w e = true) (.start .empty ∅)
        orderlyRun ∧
      CachesAgree oneUrl plainJwt (run (cacheStep oneUrl) (.start .empty ∅) orderlyRun).db
        (run (cacheStep oneUrl) (.start .empty ∅) orderlyRun).caches :=
  have hg : Guarded (cacheStep oneUrl) (fun w e => keepsCurrent oneUrl w e = true)
      (.start .empty ∅) orderlyRun := by decide +kernel
  ⟨hg, caches_agree plainJwt hg (by decide +kernel) (by decide +kernel)⟩

/-- After setup the database knows the first key and the cache does not. -/
private def setupRun : List CacheEvent := build ++ [setup]

/-- The origin of a client that has registered itself is not in the cache. -/
private def registrationRun : List CacheEvent := build ++ [registerApp]

/-- The rebuild of the creation stores last, and puts back the origin of a deleted client. -/
private def overlapRun : List CacheEvent :=
  build ++ [createApp, .next 0, deleteApp, .next 1, .next 1, .next 0]

theorem caches_disagree :
    (∃ w, w = run (cacheStep oneUrl) (.start .empty ∅) setupRun ∧
      w.inProgress = [] ∧ w.failed = false ∧ ¬ CachesAgree oneUrl plainJwt w.db w.caches) ∧
    (∃ w, w = run (cacheStep oneUrl) (.start .empty oneToken) registrationRun ∧
      w.inProgress = [] ∧ w.failed = false ∧ ¬ CachesAgree oneUrl plainJwt w.db w.caches) ∧
    ∃ w, w = run (cacheStep oneUrl) (.start .empty ∅) overlapRun ∧
      w.inProgress = [] ∧ w.failed = false ∧ ¬ CachesAgree oneUrl plainJwt w.db w.caches := by
  refine ⟨⟨_, rfl, by decide +kernel, by decide +kernel, fun h => ?_⟩,
    ⟨_, rfl, by decide +kernel, by decide +kernel, fun h => ?_⟩,
    ⟨_, rfl, by decide +kernel, by decide +kernel, fun h => ?_⟩⟩
  · exact absurd (h.accessToken 0 signedToken) (by decide +kernel)
  · have hmem := (h.origins "https://app.example").mpr
      (mem_registeredOrigins.mp (by decide +kernel))
    exact absurd hmem (by decide +kernel)
  · have hmem :=
      mem_registeredOrigins.mpr ((h.origins "https://app.example").mp (by decide +kernel))
    exact absurd hmem (by decide +kernel)

end SuiId
