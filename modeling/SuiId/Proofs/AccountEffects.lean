import SuiId.Core.FederatedCallback
import SuiId.Proofs.Lockout

/-!
# What a transaction does to accounts, links and continuations

Only F04 adds a row to `federation_link`, and no transaction changes whose a link is.  Only F02 adds
a row to `federation_mfa_pending`, for the user and the provider of its request.  No transaction
removes an account or gives two accounts one normalised e-mail.  `Settles` says this of a
transaction that is neither F02 nor F04.

Credentials are never deleted, and the sign-ins L01, L02, L03, L04 and F03 set `last_login_at` in
the transaction that inserts the session (`LifeStep`).  F04 inserts a session and sets nothing.
-/

namespace SuiId

open Lib Lib.Result Lib.Machine

/-! ## Accounts -/

namespace Users

/-- No two rows share a normalised e-mail. -/
def EmailsUnique (t : Table UserRow.id) : Prop :=
  ∀ u ∈ t, ∀ u' ∈ t, ∀ email, u.emailNormalized = some email → u'.emailNormalized = some email →
    u.id = u'.id

/-- No account goes, and no normalised e-mail comes twice. -/
structure Grows (t t' : Table UserRow.id) : Prop where
  ids : ∀ id, (t.get? id).isSome = true → (t'.get? id).isSome = true
  emails : EmailsUnique t → EmailsUnique t'

theorem Grows.refl (t : Table UserRow.id) : Grows t t := ⟨fun _ h => h, fun h => h⟩

variable {t t' t'' : Table UserRow.id} {id : UserId} {p : UserRow → Bool} {f : UserRow → UserRow}
  {u : UserRow} {now : DateTime}

theorem Grows.trans (h : Grows t t') (h' : Grows t' t'') :
    Grows t t'' :=
  ⟨fun id hid => h'.ids id (h.ids id hid), fun hunique => h'.emails (h.emails hunique)⟩

private theorem isSome_get?_iff {t : Table UserRow.id} :
    (t.get? id).isSome = true ↔ ∃ u ∈ t, u.id = id := by
  rw [Option.isSome_iff_exists]
  exact exists_congr fun u => Table.get?_eq_some

variable {hkey : ∀ u, (f u).id = u.id} {users : Table UserRow.id} {count : Int}

/-- An update that leaves the e-mail alone. -/
theorem grows_update (hf : ∀ u, (f u).emailNormalized = u.emailNormalized) :
    Grows t (t.update p f hkey) := by
  have hback : ∀ u' ∈ t.update p f hkey, ∃ u ∈ t, u.id = u'.id ∧
      u.emailNormalized = u'.emailNormalized := by
    intro u' hu'
    obtain ⟨u, hu, rfl⟩ := Table.mem_update.mp hu'
    refine ⟨u, hu, ?_⟩
    split
    · exact ⟨(hkey u).symm, (hf u).symm⟩
    · exact ⟨rfl, rfl⟩
  constructor
  · intro id hid
    rw [Table.get?_update, Option.isSome_map]
    exact hid
  · intro hunique u₁ hu₁ u₂ hu₂ email h₁ h₂
    obtain ⟨v₁, hv₁, hid₁, hemail₁⟩ := hback u₁ hu₁
    obtain ⟨v₂, hv₂, hid₂, hemail₂⟩ := hback u₂ hu₂
    have hid := hunique v₁ hv₁ v₂ hv₂ email (hemail₁.trans h₁) (hemail₂.trans h₂)
    exact (hid₁.symm.trans hid).trans hid₂

/-- The e-mail of a row that passes the constraint is taken by no other row. -/
private theorem emailNormalized_ne {db : Database} {x : UserRow} {email : String}
    (h : uniqueColumns db u = true) (hx : x ∈ db.users) (hemail : u.emailNormalized = some email)
    (hsame : x.emailNormalized = some email) : x.id = u.id := by
  have hall := List.all_eq_true.mp h x (Table.mem_iff.mp hx)
  simp only [Bool.or_eq_true, beq_iff_eq, Bool.and_eq_true] at hall
  rcases hall with hid | hcolumns
  · exact hid
  · rw [hemail, hsame] at hcolumns
    simp at hcolumns

theorem grows_insert {db : Database} (hunique : uniqueColumns db u = true)
    (h : db.users.insert? u = some users) :
    Grows db.users users := by
  constructor
  · intro id hid
    obtain ⟨x, hx, rfl⟩ := isSome_get?_iff.mp hid
    exact isSome_get?_iff.mpr ⟨x, (Table.mem_of_insert? h).mpr (.inl hx), rfl⟩
  · intro hemails u₁ hu₁ u₂ hu₂ email h₁ h₂
    rcases (Table.mem_of_insert? h).mp hu₁ with hold₁ | rfl
    · rcases (Table.mem_of_insert? h).mp hu₂ with hold₂ | rfl
      · exact hemails u₁ hold₁ u₂ hold₂ email h₁ h₂
      · exact emailNormalized_ne hunique hold₁ h₂ h₁
    · rcases (Table.mem_of_insert? h).mp hu₂ with hold₂ | rfl
      · exact (emailNormalized_ne hunique hold₂ h₁ h₂).symm
      · rfl

/-- An update of one row that passes the constraint. -/
theorem grows_updateRow {db : Database} (hu : u ∈ db.users)
    (hunique : uniqueColumns db (f u) = true) :
    Grows db.users (db.users.update (fun x => x.id == u.id) f hkey) := by
  have hback : ∀ u' ∈ db.users.update (fun x => x.id == u.id) f hkey,
      u' = f u ∨ u' ∈ db.users := by
    intro u' hu'
    obtain ⟨x, hx, rfl⟩ := Table.mem_update.mp hu'
    split
    · rename_i hid
      exact .inl (congrArg f (Table.eq_of_key_eq hx hu (beq_iff_eq.mp hid)))
    · exact .inr hx
  constructor
  · intro id hid
    rw [Table.get?_update, Option.isSome_map]
    exact hid
  · intro hemails u₁ hu₁ u₂ hu₂ email h₁ h₂
    rcases hback u₁ hu₁ with rfl | hold₁
    · rcases hback u₂ hu₂ with rfl | hold₂
      · rfl
      · exact (emailNormalized_ne hunique hold₂ h₁ h₂).symm
    · rcases hback u₂ hu₂ with rfl | hold₂
      · exact emailNormalized_ne hunique hold₁ h₂ h₁
      · exact hemails u₁ hold₁ u₂ hold₂ email h₁ h₂

/-! ### Logins that stay on record -/

/-- The account has a `last_login_at`. -/
def HasSignedIn (t : Table UserRow.id) (id : UserId) : Prop :=
  ∃ u ∈ t, u.id = id ∧ u.lastLoginAt ≠ none

/-- No account loses its `last_login_at`. -/
def LoginsKept (t t' : Table UserRow.id) : Prop := ∀ id, HasSignedIn t id → HasSignedIn t' id

theorem LoginsKept.refl (t : Table UserRow.id) : LoginsKept t t := fun _ h => h

theorem LoginsKept.trans (h : LoginsKept t t') (h' : LoginsKept t' t'') :
    LoginsKept t t'' := fun id hid => h' id (h id hid)

theorem loginsKept_update (hf : ∀ u, u.lastLoginAt ≠ none → (f u).lastLoginAt ≠ none) :
    LoginsKept t (t.update p f hkey) := by
  rintro id ⟨u, hu, hid, hlogin⟩
  refine ⟨_, Table.mem_update.mpr ⟨u, hu, rfl⟩, ?_⟩
  split
  · exact ⟨(hkey u).trans hid, hf u hlogin⟩
  · exact ⟨hid, hlogin⟩

theorem loginsKept_insert (h : t.insert? u = some t') :
    LoginsKept t t' := by
  rintro id ⟨x, hx, hid, hlogin⟩
  exact ⟨x, (Table.mem_of_insert? h).mpr (.inl hx), hid, hlogin⟩

/-- A row that is updated to have one has one. -/
theorem hasSignedIn_update (hu : u ∈ t) (hp : p u = true) (hf : (f u).lastLoginAt ≠ none) :
    HasSignedIn (t.update p f hkey) u.id :=
  ⟨f u, Table.mem_update.mpr ⟨u, hu, by rw [if_pos hp]⟩, hkey u, hf⟩

/-! ### What the commands write -/

/-- No account goes, no normalised e-mail comes twice, and no `last_login_at` is lost. -/
structure Kept (t t' : Table UserRow.id) : Prop extends Grows t t' where
  logins : LoginsKept t t'

theorem Kept.refl (t : Table UserRow.id) : Kept t t := ⟨.refl t, .refl t⟩

theorem Kept.trans (h : Kept t t') (h' : Kept t' t'') :
    Kept t t'' :=
  ⟨h.toGrows.trans h'.toGrows, h.logins.trans h'.logins⟩

theorem kept_update (hemail : ∀ u, (f u).emailNormalized = u.emailNormalized)
    (hlogin : ∀ u, u.lastLoginAt ≠ none → (f u).lastLoginAt ≠ none) : Kept t (t.update p f hkey) :=
  ⟨grows_update hemail, loginsKept_update hlogin⟩

theorem kept_insert {db : Database} (hunique : uniqueColumns db u = true)
    (h : db.users.insert? u = some users) :
    Kept db.users users :=
  ⟨grows_insert hunique h, loginsKept_insert h⟩

/-- An account is created under an identifier that is not taken. -/
theorem create_kept {P : Primitives} {db db' : Database} {user : UserRow}
    (h : create P db user = .ok db') :
    db.users.get? user.id = none ∧
      ∃ users, Kept db.users users ∧ (users.get? user.id).isSome = true ∧
        db' = { db with users } := by
  simp only [create, bind_eq_ok, ensure_eq_ok, require_eq_ok, pure_eq_ok] at h
  obtain ⟨-, hunique, users, hinsert, rfl⟩ := h
  refine ⟨Table.get?_eq_none.mpr (Table.insert?_eq_some.mp hinsert).1, users,
    kept_insert hunique hinsert, ?_, rfl⟩
  exact isSome_get?_iff.mpr ⟨_, (Table.mem_of_insert? hinsert).mpr (.inr rfl), rfl⟩

theorem updateWhere_kept {db db' : Database} (h : updateWhere db id p f hkey = .ok db')
    (hemail : ∀ u, (f u).emailNormalized = u.emailNormalized)
    (hlogin : ∀ u, u.lastLoginAt ≠ none → (f u).lastLoginAt ≠ none) :
    ∃ users, Kept db.users users ∧ db' = { db with users } := by
  obtain ⟨-, rfl⟩ := updateWhere_ok h
  exact ⟨_, kept_update hemail hlogin, rfl⟩

theorem upsertLdapShadow_kept {P : Primitives} {db db' : Database} {data : LdapShadowData}
    (h : upsertLdapShadow P db data id = .ok db') :
    ∃ users, Kept db.users users ∧ db' = { db with users } := by
  unfold upsertLdapShadow at h
  dsimp only at h
  split at h
  · rename_i u hfind
    obtain ⟨hu, -⟩ := Table.mem_of_find? hfind
    simp only [bind_eq_ok, ensure_eq_ok, beq_iff_eq] at h
    obtain ⟨-, rfl, h⟩ := h
    split at h
    · simp only [bind_eq_ok, ensure_eq_ok, pure_eq_ok] at h
      obtain ⟨-, hunique, rfl⟩ := h
      refine ⟨_, ⟨?_, ?_⟩, rfl⟩
      · exact grows_updateRow hu hunique
      · exact loginsKept_update fun _ hlogin => hlogin
    · cases h
      exact ⟨db.users, .refl _, rfl⟩
  · simp only [bind_eq_ok, ensure_eq_ok, require_eq_ok, pure_eq_ok] at h
    obtain ⟨-, hunique, users, hinsert, rfl⟩ := h
    exact ⟨users, kept_insert hunique hinsert, rfl⟩

/-- A recorded login is on the account's row. -/
theorem recordPasswordLogin_kept {db db' : Database} (h : recordPasswordLogin db id now = .ok db') :
    ∃ users, Kept db.users users ∧ HasSignedIn users id ∧ db' = { db with users } := by
  simp only [recordPasswordLogin, bind_eq_ok, require_eq_ok, ensure_eq_ok, pure_eq_ok] at h
  obtain ⟨u, hget, -, -, rfl⟩ := h
  obtain ⟨hu, rfl⟩ := Table.get?_eq_some.mp hget
  refine ⟨_, ?_, ?_, rfl⟩
  · exact kept_update (fun _ => rfl) fun _ _ => Option.some_ne_none now
  · exact hasSignedIn_update hu (beq_self_eq_true u.id) (Option.some_ne_none now)

theorem recordSecondFactorLogin_kept {db db' : Database}
    (h : recordSecondFactorLogin db id now = .ok db') :
    ∃ users, Kept db.users users ∧ HasSignedIn users id ∧ db' = { db with users } := by
  simp only [recordSecondFactorLogin, bind_eq_ok, pure_eq_ok] at h
  obtain ⟨db₁, hlogin, rfl⟩ := h
  obtain ⟨users, hkept, hsigned, rfl⟩ := recordPasswordLogin_kept hlogin
  have hreset : Kept users (users.update (fun u => u.id == id)
      fun u => { u with mfaFailureCount := 0 }) := kept_update (fun _ => rfl) fun _ hlogin => hlogin
  exact ⟨_, hkept.trans hreset, hreset.logins id hsigned, rfl⟩

theorem recordFederatedLogin_kept {db db' : Database}
    (h : recordFederatedLogin db id now = .ok db') :
    ∃ users, Kept db.users users ∧ HasSignedIn users id ∧ db' = { db with users } := by
  obtain ⟨hany, rfl⟩ := updateWhere_ok h
  obtain ⟨u, hget, hactive⟩ := (Option.any_eq_true _ _).mp hany
  obtain ⟨hu, rfl⟩ := Table.get?_eq_some.mp hget
  refine ⟨_, ?_, ?_, rfl⟩
  · exact kept_update (fun _ => rfl) fun _ _ => Option.some_ne_none now
  · exact hasSignedIn_update hu (by simp [hactive]) (Option.some_ne_none now)

theorem recordLoginFailure_kept {db db' : Database} {lockUntil : Option DateTime}
    (h : recordLoginFailure db id lockUntil = .ok (count, db')) :
    ∃ users, Kept db.users users ∧ db' = { db with users } := by
  simp only [recordLoginFailure, bind_eq_ok, require_eq_ok, pure_eq_ok, Prod.mk.injEq] at h
  obtain ⟨u, -, -, rfl⟩ := h
  refine ⟨_, ?_, rfl⟩
  exact kept_update (fun _ => rfl) fun _ hlogin => hlogin

theorem incrementMfaFailure_kept {db db' : Database}
    (h : incrementMfaFailure db id = .ok (count, db')) :
    ∃ users, Kept db.users users ∧ db' = { db with users } := by
  simp only [incrementMfaFailure, bind_eq_ok, require_eq_ok, pure_eq_ok, Prod.mk.injEq] at h
  obtain ⟨u, -, -, rfl⟩ := h
  refine ⟨_, ?_, rfl⟩
  exact kept_update (fun _ => rfl) fun _ hlogin => hlogin

theorem clearPasswordLockout_kept {db db' : Database} {lockout : PasswordLockoutCleared}
    (h : clearPasswordLockout db id now = .ok (lockout, db')) :
    ∃ users, Kept db.users users ∧ db' = { db with users } := by
  simp only [clearPasswordLockout, bind_eq_ok, require_eq_ok, pure_eq_ok, Prod.mk.injEq] at h
  obtain ⟨u, -, -, rfl⟩ := h
  refine ⟨_, ?_, rfl⟩
  exact kept_update (fun _ => rfl) fun _ hlogin => hlogin

end Users

/-! ## Links and continuations -/

/-- Whose the link is, and what it links. -/
def FederationLinkRow.identity (l : FederationLinkRow) : UserId × ProviderId × String :=
  (l.userId, l.providerId, l.upstreamSub)

def linkIdentities (db : Database) : List (UserId × ProviderId × String) :=
  db.federationLink.rows.map FederationLinkRow.identity

/-- Whom a continuation is for. -/
def FederationMfaPendingRow.subject (r : FederationMfaPendingRow) : UserId × ProviderId :=
  (r.userId, r.providerId)

/-- Every continuation is for one of before, or for `subject`. -/
def ContinuesFor (subject : Option (UserId × ProviderId))
    (t t' : Table FederationMfaPendingRow.id) :
    Prop :=
  ∀ r' ∈ t', (∃ r ∈ t, r.subject = r'.subject) ∨ subject = some r'.subject

/-- Accounts and their e-mails stay, the links are the ones of before, and so are the
continuations up to `subject`. -/
structure Settles (subject : Option (UserId × ProviderId)) (db db' : Database) : Prop where
  users : Users.Grows db.users db'.users
  links : linkIdentities db' = linkIdentities db
  pendings : ContinuesFor subject db.federationMfaPending db'.federationMfaPending

/-! ## What a command leaves on record -/

def HasCredential (db : Database) (user : UserId) : Prop :=
  (db.credentials.get? user).isSome = true

/-- Logins and credentials stay, and a session is created for an account that then has a
`last_login_at`, or for one of `unrecorded`. -/
structure LifeStep (unrecorded : UserId → Prop) (db db' : Database) : Prop where
  logins : Users.LoginsKept db.users db'.users
  credentials : ∀ user, HasCredential db user → HasCredential db' user
  sessions : ∀ user, CreatesSession db.sessions db'.sessions user →
    Users.HasSignedIn db'.users user ∨ unrecorded user

section Effects

variable {P : Primitives} {key : MasterKey} {rfc3339 : DateTime → String} {db db' : Database}
  {subject : Option (UserId × ProviderId)} {unrecorded : UserId → Prop}

theorem ContinuesFor.refl (t : Table FederationMfaPendingRow.id) : ContinuesFor subject t t :=
  fun r hr => .inl ⟨r, hr, rfl⟩

/-- Continuations of before whose subject stays. -/
theorem ContinuesFor.replaced {t t' : Table FederationMfaPendingRow.id}
    {r r' : FederationMfaPendingRow} (h : Table.Replaced t t' r r')
    (hsubject : r'.subject = r.subject ∨ subject = some r'.subject) :
    ContinuesFor subject t t' := by
  intro x hx
  rcases h.mem hx with rfl | ⟨hold, -⟩
  · rcases hsubject with hsame | hnew
    · exact .inl ⟨r, (Table.get?_eq_some.mp h.before).1, hsame.symm⟩
    · exact .inr hnew
  · exact .inl ⟨x, hold, rfl⟩

/-- A transaction that writes accounts but neither links nor continuations. -/
theorem Settles.of_users (husers : Users.Grows db.users db'.users)
    (hlinks : db'.federationLink = db.federationLink)
    (hpendings : db'.federationMfaPending = db.federationMfaPending) : Settles subject db db' where
  users := husers
  links := by rw [linkIdentities, hlinks, linkIdentities]
  pendings := by
    rw [hpendings]
    exact .refl _

theorem Settles.refl (db : Database) : Settles subject db db := .of_users (.refl _) rfl rfl

variable {user : UserId} {provider : ProviderId} {now : DateTime} {session : SessionRow}
  {evicted : Nat}

theorem touchLastSeen_identities (h : FederationLink.touchLastSeen db user provider now = .ok db') :
    ∃ federationLink : Table FederationLinkRow.key,
      federationLink.rows.map FederationLinkRow.identity = linkIdentities db ∧
        db' = { db with federationLink } := by
  simp only [FederationLink.touchLastSeen, bind_eq_ok, ensure_eq_ok, pure_eq_ok] at h
  obtain ⟨-, -, rfl⟩ := h
  refine ⟨_, ?_, rfl⟩
  exact Table.map_update fun _ => rfl

variable {row : FederationLinkRow} {db₁ db₂ : Database} {log : List AuditLogRow}
  {shadow : Users.LdapShadowData} {attempt : AttemptId} {maxLockoutSecs : Int} {target : UserId}
  {tokenId : ResetTokenId} {tokenHash : Bytes} {reason : String} {expiresAt : DateTime}
  {grant : RecoveryLinkGrant}

/-- The upsert of a user who is linked to the provider. -/
theorem upsert_identities (hlinked : FederationLink.isLinked db row.userId row.providerId = true)
    (h : FederationLink.upsert db row = .ok db') :
    ∃ federationLink : Table FederationLinkRow.key,
      federationLink.rows.map FederationLinkRow.identity = linkIdentities db ∧
        db' = { db with federationLink } := by
  simp only [FederationLink.upsert, hlinked, if_true, pure_eq_ok] at h
  subst h
  refine ⟨_, ?_, rfl⟩
  exact Table.map_update fun _ => rfl

/-- A link is inserted for a subject that is not linked. -/
theorem insert_identities (h : FederationLink.insert db row = .ok db') :
    ∃ federationLink : Table FederationLinkRow.key,
      federationLink.rows.map FederationLinkRow.identity = linkIdentities db ++ [row.identity] ∧
        (∀ t ∈ linkIdentities db, t.2 ≠ row.identity.2) ∧ db' = { db with federationLink } := by
  simp only [FederationLink.insert, bind_eq_ok, ensure_eq_ok, require_eq_ok, pure_eq_ok] at h
  obtain ⟨-, -, -, -, -, hunique, federationLink, hinsert, rfl⟩ := h
  refine ⟨federationLink, ?_, ?_, rfl⟩
  · rw [(Table.insert?_eq_some.mp hinsert).2, List.map_append, List.map_singleton]
    rfl
  · intro t ht heq
    obtain ⟨l, hl, rfl⟩ := List.mem_map.mp ht
    have hrow := List.all_eq_true.mp hunique l hl
    simp only [FederationLinkRow.identity, Prod.mk.injEq] at heq
    simp [heq.1, heq.2] at hrow

/-- Sessions whose owners are those of before are none new. -/
theorem not_createsSession_of_owners {t t' : Table SessionRow.id}
    (h : t'.rows.map Sessions.owner = t.rows.map Sessions.owner) : ¬ CreatesSession t t' user := by
  rintro ⟨s, hs, -, hnew⟩
  have howner : Sessions.owner s ∈ t.rows.map Sessions.owner := by
    rw [← h]
    exact List.mem_map_of_mem hs
  obtain ⟨s₀, hs₀, heq⟩ := List.mem_map.mp howner
  exact hnew s₀ hs₀ (congrArg Prod.fst heq)

private theorem revokeWhere_owners (db : Database) (p : SessionRow → Bool) (now : DateTime) :
    (Sessions.revokeWhere db p now).sessions.rows.map Sessions.owner =
      db.sessions.rows.map Sessions.owner := by
  simp only [Sessions.revokeWhere]
  exact Sessions.owners_update fun _ => rfl

/-- A command that opens no session. -/
theorem LifeStep.quiet (hlogins : Users.LoginsKept db.users db'.users)
    (hcredentials : db'.credentials = db.credentials)
    (hsessions : db'.sessions.rows.map Sessions.owner = db.sessions.rows.map Sessions.owner) :
    LifeStep unrecorded db db' where
  logins := hlogins
  credentials user h := by rw [HasCredential, hcredentials]; exact h
  sessions _ hcreates := absurd hcreates (not_createsSession_of_owners hsessions)

/-- A command that writes a credential. -/
theorem LifeStep.credential {credential : CredentialRow}
    (hlogins : Users.LoginsKept db.users db'.users)
    (hcredentials : db'.credentials = db.credentials.upsert credential)
    (hsessions : db'.sessions.rows.map Sessions.owner = db.sessions.rows.map Sessions.owner) :
    LifeStep unrecorded db db' where
  logins := hlogins
  credentials user h := by
    rw [HasCredential, hcredentials, Table.get?_upsert]
    split
    · rfl
    · exact h
  sessions _ hcreates := absurd hcreates (not_createsSession_of_owners hsessions)

/-- A sign-in that sets `last_login_at` and then opens the session. -/
theorem LifeStep.signIn
    (hopened : Sessions.Added db₁.sessions db₂.sessions session ∧
      ∃ sessions, db₂ = { db₁ with sessions }) (hlogins : Users.LoginsKept db.users db₁.users)
    (hsigned : Users.HasSignedIn db₁.users session.userId)
    (hcredentials : db₁.credentials = db.credentials) (hsessions : db₁.sessions = db.sessions) :
    LifeStep unrecorded db { db₂ with auditLog := log } := by
  obtain ⟨hadded, sessions, rfl⟩ := hopened
  refine ⟨hlogins, fun user h => ?_, fun user hcreates => ?_⟩
  · show (db₁.credentials.get? user).isSome = true
    rw [hcredentials]
    exact h
  · rw [hsessions] at hadded
    rw [createsSession_added hadded] at hcreates
    exact .inl (hcreates ▸ hsigned)

/-! ## Neither F02 nor F04 -/

theorem Settles.mono (h : Settles none db db') : Settles subject db db' where
  users := h.users
  links := h.links
  pendings r hr :=
    (h.pendings r hr).imp_right fun hnone => absurd hnone (Option.some_ne_none _).symm

theorem LifeStep.mono (h : LifeStep (fun _ => False) db db') : LifeStep unrecorded db db' where
  logins := h.logins
  credentials := h.credentials
  sessions user hcreates := (h.sessions user hcreates).imp_right False.elim

/-- Links and continuations stay, and the account of a new session has a `last_login_at`. -/
structure UserEffect (db db' : Database) : Prop extends
  Settles none db db', LifeStep (fun _ => False) db db'

/-- An effect that leaves the recovery links alone. -/
structure AccountEffect (db db' : Database) : Prop extends UserEffect db db' where
  resetTokens : db'.passwordResetTokens = db.passwordResetTokens

theorem UserEffect.settles (h : UserEffect db db') : Settles subject db db' := h.toSettles.mono

theorem AccountEffect.life (h : AccountEffect db db') :
    LifeStep unrecorded db db' ∧ db'.passwordResetTokens = db.passwordResetTokens :=
  ⟨h.toLifeStep.mono, h.resetTokens⟩

/-- A command that opens no session. -/
theorem UserEffect.quiet (husers : Users.Kept db.users db'.users)
    (hlinks : db'.federationLink = db.federationLink)
    (hpendings : db'.federationMfaPending = db.federationMfaPending)
    (hcredentials : db'.credentials = db.credentials)
    (hsessions : db'.sessions.rows.map Sessions.owner = db.sessions.rows.map Sessions.owner) :
    UserEffect db db' :=
  ⟨.of_users husers.toGrows hlinks hpendings, .quiet husers.logins hcredentials hsessions⟩

/-- A command that writes a credential. -/
theorem UserEffect.credential {credential : CredentialRow} (husers : Users.Kept db.users db'.users)
    (hlinks : db'.federationLink = db.federationLink)
    (hpendings : db'.federationMfaPending = db.federationMfaPending)
    (hcredentials : db'.credentials = db.credentials.upsert credential)
    (hsessions : db'.sessions.rows.map Sessions.owner = db.sessions.rows.map Sessions.owner) :
    UserEffect db db' :=
  ⟨.of_users husers.toGrows hlinks hpendings, .credential husers.logins hcredentials hsessions⟩

/-- A sign-in that sets `last_login_at` and then opens the session. -/
theorem AccountEffect.signIn
    (hopened : Sessions.Added db₁.sessions db₂.sessions session ∧
      ∃ sessions, db₂ = { db₁ with sessions }) (husers : Users.Kept db.users db₁.users)
    (hsigned : Users.HasSignedIn db₁.users session.userId)
    (hlinks : db₁.federationLink = db.federationLink)
    (hpendings : db₁.federationMfaPending = db.federationMfaPending)
    (hcredentials : db₁.credentials = db.credentials) (hsessions : db₁.sessions = db.sessions)
    (htokens : db₁.passwordResetTokens = db.passwordResetTokens) :
    AccountEffect db { db₂ with auditLog := log } := by
  have hlife : LifeStep (fun _ => False) db { db₂ with auditLog := log } :=
    .signIn hopened husers.logins hsigned hcredentials hsessions
  obtain ⟨-, sessions, rfl⟩ := hopened
  exact ⟨⟨.of_users husers.toGrows hlinks hpendings, hlife⟩, htokens⟩

/-! ### Sign-ins -/

theorem signInWithPassword_effect (h : signInWithPassword db session = .ok (evicted, db')) :
    AccountEffect db db' := by
  obtain ⟨event, db₁, log, hbody, rfl⟩ := classA_eq_ok h
  simp only [bind_eq_ok, pure_eq_ok, Prod.mk.injEq] at hbody
  obtain ⟨db₂, hlogin, db₃, hinsert, -, -, rfl⟩ := hbody
  obtain ⟨users, hkept, hsigned, rfl⟩ := Users.recordPasswordLogin_kept hlogin
  exact .signIn (openedSession_plain hinsert) hkept hsigned rfl rfl rfl rfl rfl

theorem completeSecondFactor_effect {pendingId : PendingMfaId} {session' : SessionRow}
    {proof : SecondFactorProof}
    (h : completeSecondFactor db pendingId session proof = .ok (session', db')) :
    AccountEffect db db' := by
  obtain ⟨event, db₁, log, hbody, rfl⟩ := classA_eq_ok h
  simp only [bind_eq_ok, pure_eq_ok, Prod.mk.injEq] at hbody
  obtain ⟨db₂, hconsume, db₃, happly, db₄, hlogin, db₅, hinsert, -, -, rfl⟩ := hbody
  obtain ⟨-, loginPendingMfa, -, rfl⟩ := LoginPendingMfa.consume_ok hconsume
  obtain ⟨userTotp, rfl⟩ := SecondFactorProof.apply_ok happly
  obtain ⟨users, hkept, hsigned, rfl⟩ := Users.recordSecondFactorLogin_kept hlogin
  exact .signIn (openedSession_eq hinsert) hkept hsigned rfl rfl rfl rfl rfl

theorem signInFromDirectory_effect {sourceSlug : String}
    (h : signInFromDirectory P db shadow sourceSlug session = .ok (evicted, db')) :
    AccountEffect db db' := by
  obtain ⟨event, db₁, log, hbody, rfl⟩ := classA_eq_ok h
  simp only [bind_eq_ok, pure_eq_ok, Prod.mk.injEq] at hbody
  obtain ⟨db₂, hshadow, db₃, hlogin, db₄, hinsert, -, -, rfl⟩ := hbody
  obtain ⟨users, hkept, rfl⟩ := Users.upsertLdapShadow_kept hshadow
  obtain ⟨users', hkept', hsigned, rfl⟩ := Users.recordPasswordLogin_kept hlogin
  exact .signIn (openedSession_plain hinsert) (hkept.trans hkept') hsigned rfl rfl rfl rfl rfl

theorem signInFederated_effect {providerSlug : String}
    (h : signInFederated db attempt provider providerSlug session = .ok (evicted, db')) :
    AccountEffect db db' := by
  obtain ⟨event, db₁, log, hbody, rfl⟩ := classA_eq_ok h
  simp only [bind_eq_ok, ensure_eq_ok, pure_eq_ok, Prod.mk.injEq] at hbody
  obtain ⟨db₂, hcomplete, -, -, -, -, db₃, hlogin, db₄, hinsert, -, -, rfl⟩ := hbody
  obtain ⟨r, t, -, -, -, rfl⟩ := FederationLoginAttempt.complete_ok hcomplete
  obtain ⟨users, hkept, hsigned, rfl⟩ := Users.recordFederatedLogin_kept hlogin
  exact .signIn (openedSession_plain hinsert) hkept hsigned rfl rfl rfl rfl rfl

theorem countFailure_subject (r : FederationMfaPendingRow) :
    r.countFailure.subject = r.subject := by
  unfold FederationMfaPendingRow.countFailure
  split
  · split
    · rfl
    · rfl
  · rfl

theorem completeFederatedMfa_effect {pendingId : FederationMfaPendingId} {proof : Option F03Proof}
    {sessionId : SessionId} {outcome : F03Outcome}
    (h : completeFederatedMfa P key db pendingId proof sessionId now = .ok (outcome, db')) :
    AccountEffect db db' := by
  obtain ⟨row, -, -, heffect⟩ := completeFederatedMfa_ok h
  cases heffect with
  | invalidated reason t hrow hdb =>
    subst hdb
    exact ⟨⟨⟨.refl _, rfl, .replaced hrow (.inl rfl)⟩, .quiet (.refl _) rfl rfl⟩, rfl⟩
  | rejected reason t ceremonies hcount hrow hdb | exhausted reason t ceremonies hcount hrow hdb =>
    subst hdb
    exact ⟨⟨⟨.refl _, rfl, .replaced hrow (.inl (countFailure_subject row))⟩,
      .quiet (.refl _) rfl rfl⟩, rfl⟩
  | promoted method evicted t hcount hrow hsession hdb =>
    obtain ⟨row', method', db₁, -, -, -, hkept, hpromote⟩ := completeFederatedMfa_promoted h
    simp only [promote, bind_eq_ok, pure_eq_ok, Prod.mk.injEq] at hpromote
    obtain ⟨db₂, htouch, db₃, hlogin, db₄, hinsert, -, heq⟩ := hpromote
    obtain ⟨links, hlinks, rfl⟩ := touchLastSeen_identities htouch
    obtain ⟨users, husers, hsigned, rfl⟩ := Users.recordFederatedLogin_kept hlogin
    have husers' : Users.Kept db.users users := by
      rw [← hkept.users]
      exact husers
    have hlife : LifeStep (fun _ => False) db db' := by
      rw [← heq]
      exact .signIn (openedSession_eq hinsert) husers'.logins hsigned hkept.credentials
        hkept.sessions
    obtain ⟨-, sessions, hopened⟩ := openedSession_eq hinsert
    rw [hopened] at heq
    obtain ⟨_, _, _, _, _, _, hdb⟩ := hdb
    have hpendings : db'.federationMfaPending = t := by rw [hdb]
    have htokens : db'.passwordResetTokens = db.passwordResetTokens := by rw [hdb]
    refine ⟨⟨⟨?_, ?_, ?_⟩, hlife⟩, htokens⟩
    · rw [← heq]
      exact husers'.toGrows
    · rw [← heq]
      show links.rows.map FederationLinkRow.identity = _
      rw [hlinks, linkIdentities, hkept.links, linkIdentities]
    · rw [hpendings]
      exact .replaced hrow (.inl rfl)

/-- F04 creates an account and its link, both new, and a session, and sets no `last_login_at`. -/
theorem provisionFederatedUser_effect {user : UserRow} {link : FederationLinkRow}
    (h : provisionFederatedUser P db attempt provider user link session = .ok (evicted, db')) :
    (db.users.get? user.id = none ∧ (db'.users.get? user.id).isSome = true ∧
      Users.Grows db.users db'.users ∧ linkIdentities db' = linkIdentities db ++ [link.identity] ∧
      (∀ t ∈ linkIdentities db, t.2 ≠ link.identity.2) ∧
      db'.federationMfaPending = db.federationMfaPending) ∧
    LifeStep (fun id => session.userId = id) db db' ∧
      CreatesSession db.sessions db'.sessions session.userId ∧
      db'.passwordResetTokens = db.passwordResetTokens := by
  obtain ⟨event, db₁, log, hbody, rfl⟩ := classA_eq_ok h
  simp only [bind_eq_ok, pure_eq_ok, Prod.mk.injEq] at hbody
  obtain ⟨db₂, hcomplete, db₃, hcreate, db₄, hlink, db₅, hinsert, -, -, rfl⟩ := hbody
  obtain ⟨r, t, -, -, -, rfl⟩ := FederationLoginAttempt.complete_ok hcomplete
  obtain ⟨hfresh, users, hkept, hpresent, rfl⟩ := Users.create_kept hcreate
  obtain ⟨links, hlinks, hunlinked, rfl⟩ := insert_identities hlink
  obtain ⟨hadded, sessions, heq⟩ := @openedSession_plain _ _ _ session.userId session.createdAt
    hinsert
  have hcreates (id : UserId) : CreatesSession _ _ id ↔ session.userId = id :=
    createsSession_added hadded
  rw [heq] at hcreates ⊢
  exact ⟨⟨hfresh, hpresent, hkept.toGrows, hlinks, hunlinked, rfl⟩,
    ⟨hkept.logins, fun _ hheld => hheld, fun id hnew => .inr ((hcreates id).mp hnew)⟩,
    (hcreates session.userId).mpr rfl, rfl⟩

theorem signInFromDirectoryMfaRequired_effect {pending row : LoginPendingMfaRow}
    (h : signInFromDirectoryMfaRequired P db shadow pending = .ok (row, db')) :
    AccountEffect db db' := by
  obtain ⟨event, db₁, log, hbody, rfl⟩ := classA_eq_ok h
  simp only [bind_eq_ok, pure_eq_ok, Prod.mk.injEq] at hbody
  obtain ⟨db₂, hshadow, db₃, hinsert, -, -, rfl⟩ := hbody
  obtain ⟨users, hkept, rfl⟩ := Users.upsertLdapShadow_kept hshadow
  obtain ⟨loginPendingMfa, -, rfl⟩ := LoginPendingMfa.insert_ok hinsert
  exact ⟨.quiet hkept rfl rfl rfl rfl, rfl⟩

theorem setLockedUntil_kept (db : Database) (user : UserId) (until_ : DateTime) :
    Users.Kept db.users (setLockedUntil db user until_).users := by
  simp only [setLockedUntil]
  exact Users.kept_update (fun _ => rfl) fun _ hlogin => hlogin

theorem recordLoginFailure_effect {count : Int}
    (h : recordLoginFailure db user maxLockoutSecs now = .ok (count, db')) :
    AccountEffect db db' := by
  obtain ⟨event, db₁, log, hbody, rfl⟩ := classA_eq_ok h
  simp only [bind_eq_ok] at hbody
  obtain ⟨⟨count', db₂⟩, hcount, hbody⟩ := hbody
  obtain ⟨users, hkept, rfl⟩ := Users.recordLoginFailure_kept hcount
  split at hbody
  · cases hbody
    exact ⟨.quiet (hkept.trans (setLockedUntil_kept { db with users } user _)) rfl rfl rfl rfl, rfl⟩
  · cases hbody
    exact ⟨.quiet hkept rfl rfl rfl rfl, rfl⟩

theorem recordSecondFactorFailure_effect {outcome : SecondFactorFailureOutcome}
    (h : recordSecondFactorFailure db user maxLockoutSecs now = .ok (outcome, db')) :
    AccountEffect db db' := by
  obtain ⟨event, db₁, log, hbody, rfl⟩ := classA_eq_ok h
  simp only [bind_eq_ok] at hbody
  obtain ⟨⟨count, db₂⟩, hcount, hbody⟩ := hbody
  obtain ⟨users, hkept, rfl⟩ := Users.incrementMfaFailure_kept hcount
  split at hbody
  · cases hbody
    exact ⟨.quiet (hkept.trans (setLockedUntil_kept { db with users } user _)) rfl rfl rfl rfl, rfl⟩
  · cases hbody
    exact ⟨.quiet hkept rfl rfl rfl rfl, rfl⟩

theorem changePasswordSelf_effect {credential : CredentialRow}
    {keepCurrentSession : Option SessionId} {revokeOthers : Bool} {swept : Nat × Nat}
    (h : changePasswordSelf db user credential keepCurrentSession revokeOthers now =
      .ok (swept, db')) : UserEffect db db' := by
  obtain ⟨event, db₁, log, hbody, rfl⟩ := classA_eq_ok h
  simp only [bind_eq_ok, ensure_eq_ok, pure_eq_ok, Prod.mk.injEq] at hbody
  obtain ⟨-, -, ⟨lockout, db₂⟩, hcleared, -, -, rfl⟩ := hbody
  obtain ⟨users, hkept, rfl⟩ := Users.clearPasswordLockout_kept hcleared
  split
  · split
    · exact .credential hkept rfl rfl rfl (revokeWhere_owners { db with users } _ now)
    · exact .credential hkept rfl rfl rfl (revokeWhere_owners { db with users } _ now)
  · exact .credential hkept rfl rfl rfl rfl

/-! ### Commands -/

theorem completeInitialSetup_effect {user : UserRow} {cred : CredentialRow}
    {signingKey : InitialSigningKeyMaterial} {authorizedBy : SetupAuthorizedBy} {value : Unit}
    (h : completeInitialSetup P db user cred signingKey authorizedBy now = .ok (value, db')) :
    AccountEffect db db' := by
  obtain ⟨event, db₁, log, hbody, rfl⟩ := classA_eq_ok h
  simp only [bind_eq_ok, ensure_eq_ok, pure_eq_ok, Prod.mk.injEq] at hbody
  obtain ⟨-, -, db₂, hcreate, -, -, db₃, hkey, -, -, rfl⟩ := hbody
  obtain ⟨-, users, hkept, -, rfl⟩ := Users.create_kept hcreate
  unfold bootstrapSigningKey at hkey
  split at hkey
  · cases hkey
    exact ⟨.credential hkept rfl rfl rfl rfl, rfl⟩
  · simp only [bind_eq_ok, require_eq_ok, pure_eq_ok] at hkey
    obtain ⟨signingKeys, -, rfl⟩ := hkey
    exact ⟨.credential hkept rfl rfl rfl rfl, rfl⟩

/-- What U37 on the web has checked about its target. -/
theorem issueRecoveryLinkAsAdmin_ok {admin : UserId} {session : SessionId}
    (h : issueRecoveryLinkAsAdmin rfc3339 db admin session target tokenId tokenHash reason expiresAt
      now = .ok (grant, db')) :
    (∃ u, db.users.get? target = some u ∧
        (u.role = .admin → ¬ HasCredential db target ∧ u.lastLoginAt = none)) ∧
      ∃ passwordResetTokens log, db' = { db with passwordResetTokens, auditLog := log } := by
  obtain ⟨event, db₁, log, hbody, rfl⟩ := classA_eq_ok h
  simp only [bind_eq_ok, ensure_eq_ok, pure_eq_ok, Prod.mk.injEq] at hbody
  obtain ⟨reason', -, stepUp, -, -, -, t, htarget, -, -, ⟨grant', db₂⟩, hinsert, -, -, rfl⟩ := hbody
  obtain ⟨tokens, rfl⟩ := revokeAndInsertRecoveryToken_ok hinsert
  refine ⟨?_, tokens, log, rfl⟩
  simp only [checkRecoveryTarget, checkRecoveryIssuer, bind_eq_ok, ensure_eq_ok, mapError_eq_ok]
    at htarget
  obtain ⟨t', hread, -, ⟨-, -, hlive⟩, -⟩ := htarget
  simp only [Users.recoveryTarget, bind_eq_ok, require_eq_ok, pure_eq_ok] at hread
  obtain ⟨u, hget, rfl⟩ := hread
  refine ⟨u, hget, fun hadmin => ?_⟩
  simp only [hadmin, Role.isAdmin, Bool.true_and, Bool.not_not, Bool.and_eq_true,
    Option.isNone_iff_eq_none] at hlive
  refine ⟨?_, hlive.2⟩
  rw [HasCredential, hlive.1]
  exact Bool.false_ne_true

theorem issueRecoveryLinkAsOperator_ok
    (h : issueRecoveryLinkAsOperator rfc3339 db target tokenId tokenHash reason expiresAt now =
      .ok (grant, db')) :
    ∃ passwordResetTokens log, db' = { db with passwordResetTokens, auditLog := log } := by
  obtain ⟨event, db₁, log, hbody, rfl⟩ := classA_eq_ok h
  simp only [bind_eq_ok, ensure_eq_ok, pure_eq_ok, Prod.mk.injEq] at hbody
  obtain ⟨reason', -, t, -, -, -, ⟨grant', db₂⟩, hinsert, -, -, rfl⟩ := hbody
  obtain ⟨tokens, rfl⟩ := revokeAndInsertRecoveryToken_ok hinsert
  exact ⟨tokens, log, rfl⟩

/-- A command that is no sign-in. -/
theorem accountCommand_effect {command : AccountCommand}
    (hcommand : ∀ transaction, command ≠ .signIn transaction)
    (h : command.perform P key rfc3339 db = .ok db') : UserEffect db db' := by
  cases command with
  | signIn transaction => exact absurd rfl (hcommand transaction)
  | completeInitialSetup user cred signingKey authorizedBy now =>
    obtain ⟨⟨value, db₁⟩, hcommit, rfl⟩ := map_eq_ok.mp h
    exact (completeInitialSetup_effect hcommit).toUserEffect
  | createUser admin user =>
    obtain ⟨⟨value, db₁⟩, hcommit, rfl⟩ := map_eq_ok.mp h
    obtain ⟨db₂, log, hcreate, rfl⟩ := createUser_ok hcommit
    obtain ⟨-, users, hkept, -, rfl⟩ := Users.create_kept hcreate
    exact .quiet hkept rfl rfl rfl rfl
  | changeUserRole admin target newRole =>
    obtain ⟨⟨value, db₁⟩, hcommit, rfl⟩ := map_eq_ok.mp h
    obtain ⟨-, db₂, log, -, -, hset, rfl⟩ := changeUserRole_ok hcommit
    obtain ⟨users, hkept, rfl⟩ := Users.updateWhere_kept hset (fun _ => rfl) fun _ hlogin => hlogin
    exact .quiet hkept rfl rfl rfl rfl
  | disableUser admin session target reason now =>
    obtain ⟨⟨value, db₁⟩, hcommit, rfl⟩ := map_eq_ok.mp h
    obtain ⟨db₂, log, hset, rfl⟩ := disableUser_ok hcommit
    obtain ⟨users, hkept, rfl⟩ := Users.updateWhere_kept hset (fun _ => rfl) fun _ hlogin => hlogin
    exact .quiet hkept rfl rfl rfl (revokeWhere_owners { db with users } _ now)
  | enableUser admin session target now =>
    obtain ⟨⟨value, db₁⟩, hcommit, rfl⟩ := map_eq_ok.mp h
    obtain ⟨db₂, log, hset, rfl⟩ := enableUser_ok hcommit
    obtain ⟨users, hkept, rfl⟩ := Users.updateWhere_kept hset (fun _ => rfl) fun _ hlogin => hlogin
    exact .quiet hkept rfl rfl rfl rfl
  | deleteUser admin session target reason now =>
    obtain ⟨⟨value, db₁⟩, hcommit, rfl⟩ := map_eq_ok.mp h
    obtain ⟨db₂, log, hset, rfl⟩ := deleteUser_ok hcommit
    obtain ⟨users, hkept, rfl⟩ := Users.updateWhere_kept hset (fun _ => rfl) fun _ hlogin => hlogin
    exact .quiet hkept rfl rfl rfl (revokeWhere_owners { db with users } _ now)
  | requestReset email requesterIp tokenId bytes now =>
    simp only [AccountCommand.perform, requestReset] at h
    split at h
    · cases h
      exact .quiet (.refl _) rfl rfl rfl rfl
    · obtain ⟨tokens, rfl⟩ := PasswordResetTokens.insertWith_ok h
      exact .quiet (.refl _) rfl rfl rfl rfl
  | consumeAndResetPassword user token credential consumedAt hibpWarned =>
    obtain ⟨⟨value, db₁⟩, hcommit, rfl⟩ := map_eq_ok.mp h
    obtain ⟨tokens, log, keepLock, rfl⟩ := consumeAndResetPassword_ok hcommit
    have hkept : Users.Kept db.users (db.users.update (fun u => u.id == user) fun u =>
        { u with
          failedLoginCount := 0
          lockedUntil := if keepLock then u.lockedUntil else none }) :=
      Users.kept_update (fun _ => rfl) fun _ hlogin => hlogin
    exact .credential hkept rfl rfl rfl (revokeWhere_owners db _ consumedAt)
  | changePasswordSelf user credential keepCurrentSession revokeOthers now =>
    obtain ⟨⟨value, db₁⟩, hcommit, rfl⟩ := map_eq_ok.mp h
    exact changePasswordSelf_effect hcommit
  | issueRecoveryLinkAsAdmin admin session target tokenId tokenHash reason expiresAt now =>
    obtain ⟨⟨value, db₁⟩, hcommit, rfl⟩ := map_eq_ok.mp h
    obtain ⟨-, tokens, log, rfl⟩ := issueRecoveryLinkAsAdmin_ok hcommit
    exact .quiet (.refl _) rfl rfl rfl rfl
  | issueRecoveryLinkAsOperator target tokenId tokenHash reason expiresAt now =>
    obtain ⟨⟨value, db₁⟩, hcommit, rfl⟩ := map_eq_ok.mp h
    obtain ⟨tokens, log, rfl⟩ := issueRecoveryLinkAsOperator_ok hcommit
    exact .quiet (.refl _) rfl rfl rfl rfl

theorem issueFederatedMfaPending_settles {req : MfaPendingRequest}
    {value : FederationMfaPendingId × DateTime}
    (h : issueFederatedMfaPending P key db req = .ok (value, db')) :
    Settles (some (req.userId, req.providerId)) db db' := by
  obtain ⟨-, attempts, t, ceremonies, -, -, -, heffect, rfl⟩ := issueFederatedMfaPending_ok h
  refine ⟨.refl _, rfl, ?_⟩
  have hinserted : ∀ {t₀ : Table FederationMfaPendingRow.id} {sealed : Bytes},
      t₀.insert? (FederationMfaPending.newRow req sealed) = some t →
      ContinuesFor (some (req.userId, req.providerId)) t₀ t := by
    intro t₀ sealed hinsert r hr
    rcases (Table.mem_of_insert? hinsert).mp hr with hold | rfl
    · exact .inl ⟨r, hold, rfl⟩
    · exact .inr rfl
  cases heffect with
  | exhausted existing hmem huser hstatus hsame =>
    rw [hsame]
    exact .refl _
  | restarted existing sealed huser hstatus hrow =>
    refine .replaced hrow (.inr ?_)
    simp only [FederationMfaPendingRow.subject, FederationMfaPendingRow.refreshed, hstatus,
      dif_pos, huser]
  | replaced existing sealed t₁ hstatus hrow hunique hinsert =>
    intro r hr
    rcases hinserted hinsert r hr with ⟨r₁, hr₁, hsame⟩ | hnew
    · have hclosed : ContinuesFor none db.federationMfaPending t₁ := .replaced hrow (.inl rfl)
      rcases hclosed r₁ hr₁ with ⟨r₀, hr₀, hsame₀⟩ | hnone
      · exact .inl ⟨r₀, hr₀, hsame₀.trans hsame⟩
      · cases hnone
    · exact .inr hnew
  | opened sealed hunique hinsert => exact hinserted hinsert

end Effects

end SuiId
