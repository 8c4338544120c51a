import SuiId.Core.Directory

/-!
# The login cascade

`try_login_with_cascade` from the name to the answer: a row whose source is a
directory goes to `directory_sign_in`, any other row to `login_with_mfa`, and a name
without a row to the user sources in turn.  `rebind_directory_user` asks the same
sources before a factor is added.

A call keeps the binds it made as entries and the entry it was verified as.  Both are
history that no code reads.
-/

namespace SuiId

open Lib Lib.Result

/-! ## Asking the sources -/

/-- What a loop over the sources came to, and the binds on the way. -/
structure SourcesAsked (α : Type) where
  verdict : α
  binds : List BindAttempt

/-- The loop goes on with the next source. -/
def SourcesAsked.after {α : Type} (asked : SourcesAsked α) (binds : List BindAttempt) :
    SourcesAsked α :=
  { asked with binds := binds ++ asked.binds }

/-- `cascade_sources`: the first record, with the source and the entry it is of. -/
def cascadeSources (username password : String) :
    List LdapUserSource → SourcesAsked (Option (ExternalUserRecord × LdapUserSource × SearchEntry))
  | [] => ⟨none, []⟩
  | source :: rest =>
    let answer := source.authenticate username password
    match answer with
    | .authenticated record entry => ⟨some (record, source, entry), answer.binds source⟩
    | _ => (cascadeSources username password rest).after (answer.binds source)

theorem cascadeSources_cons (username password : String) (source : LdapUserSource)
    (rest : List LdapUserSource) :
    cascadeSources username password (source :: rest) =
      let answer := source.authenticate username password
      match answer with
      | .authenticated record entry => ⟨some (record, source, entry), answer.binds source⟩
      | _ => (cascadeSources username password rest).after (answer.binds source) :=
  (rfl)

/-- What the sources say about a stored stable id. -/
inductive DirectoryVerdict where
  | matched (record : ExternalUserRecord) (source : LdapUserSource) (entry : SearchEntry)
  /-- A source authenticated another identity. -/
  | otherIdentity
  /-- No source authenticated; did one answer? -/
  | unmatched (answered : Bool)

/-- The loop of `directory_sign_in`. -/
def askSources (P : Primitives) (stableId password : String) :
    (answered : Bool) → List LdapUserSource → SourcesAsked DirectoryVerdict
  | answered, [] => ⟨.unmatched answered, []⟩
  | answered, source :: rest =>
    let answer := source.authenticateStableId P stableId password
    match answer with
    | .authenticated record entry =>
      if record.stableId == stableId then ⟨.matched record source entry, answer.binds source⟩
      else ⟨.otherIdentity, answer.binds source⟩
    | .refused _ => (askSources P stableId password true rest).after (answer.binds source)
    | .failed .. => (askSources P stableId password answered rest).after (answer.binds source)

theorem askSources_cons (P : Primitives) (stableId password : String) (answered : Bool)
    (source : LdapUserSource) (rest : List LdapUserSource) :
    askSources P stableId password answered (source :: rest) =
      let answer := source.authenticateStableId P stableId password
      match answer with
      | .authenticated record entry =>
        if record.stableId == stableId then ⟨.matched record source entry, answer.binds source⟩
        else ⟨.otherIdentity, answer.binds source⟩
      | .refused _ => (askSources P stableId password true rest).after (answer.binds source)
      | .failed .. => (askSources P stableId password answered rest).after
          (answer.binds source) :=
  (rfl)

/-- The loop of `rebind_directory_user`. -/
def rebindSources (P : Primitives) (stableId password : String) :
    (answered : Bool) → List LdapUserSource → Option Bool
  | answered, [] => if answered then some false else none
  | answered, source :: rest =>
    match source.authenticateStableId P stableId password with
    | .authenticated record _ =>
      if record.stableId == stableId then some true
      else rebindSources P stableId password true rest
    | .refused _ => rebindSources P stableId password true rest
    | .failed .. => rebindSources P stableId password answered rest

theorem rebindSources_cons (P : Primitives) (stableId password : String) (answered : Bool)
    (source : LdapUserSource) (rest : List LdapUserSource) :
    rebindSources P stableId password answered (source :: rest) =
      match source.authenticateStableId P stableId password with
      | .authenticated record _ =>
        if record.stableId == stableId then some true
        else rebindSources P stableId password true rest
      | .refused _ => rebindSources P stableId password true rest
      | .failed .. => rebindSources P stableId password answered rest :=
  (rfl)

/-- `rebind_directory_user`; no answer when no source could check the password. -/
def rebindDirectoryUser (P : Primitives) (db : Database) (sources : List LdapUserSource)
    (user : UserId) (password : String) : Option Bool := do
  let row ← db.users.get? user
  let stableId ← row.externalStableId
  if password.isEmpty then some false
  else rebindSources P stableId password false sources

/-! ## A call -/

/-- A submitted name and password, with the sources as they answer and what the call
reads from the clock and the random generator, access by access. -/
structure LoginAttempt where
  sources : List LdapUserSource
  username : String
  password : String
  audience : SessionAudience
  draws : Nat → FlowDraw
  /-- The text of a new UUID. -/
  uuid : String

/-- When the call began. -/
def LoginAttempt.now (attempt : LoginAttempt) : DateTime := (attempt.draws 0).now

/-- What a call leaves and answers. -/
structure LoginResult where
  db : Database
  out : FlowAnswer
  binds : List BindAttempt
  /-- The entry whose record was signed in. -/
  verified : Option (LdapUserSource × SearchEntry)

/-- `resolve_shadow_username`. -/
def resolveShadowUsername (db : Database) (uuid proposed : String) : String :=
  let free := fun name => (Users.findByUsername db name).isNone
  if free proposed then proposed
  else
    match ((List.range' 2 999).map fun n => proposed ++ toString n).find? free with
    | some candidate => candidate
    | none => proposed ++ "-" ++ uuid

section Call

variable (P : Primitives) (key : MasterKey) (maxLockoutSecs : Int)

/-- A call on its own, for at most so many accesses. -/
def FlowCall.run : Nat → (Nat → FlowDraw) → Database → FlowCall → FlowResult
  | 0, _, db, call => .goOn db call
  | n + 1, draws, db, call =>
    let result := call.advance P key maxLockoutSecs db (draws 0)
    match result.next with
    | none => result
    | some next => FlowCall.run n (fun i => draws (i + 1)) result.db next

variable (db : Database) (attempt : LoginAttempt)

/-- `login_with_mfa`. -/
def loginWithMfa : FlowResult :=
  FlowCall.run P key maxLockoutSecs 5 attempt.draws db
    (.submitted attempt.username attempt.password attempt.audience)

/-- The row a record is written to. -/
def ExternalUserRecord.shadow (record : ExternalUserRecord) (username : String) :
    Users.LdapShadowData :=
  { username, displayName := record.displayName, email := record.email
    externalStableId := record.stableId }

/-- `directory_session`, after the lock was read. -/
def directorySession (knownUser : Option UserId) (username : String)
    (record : ExternalUserRecord) : FlowResult :=
  FlowCall.run P key maxLockoutSecs 4 (fun i => attempt.draws (i + 1)) db
    (.directoryVerified (record.shadow username) record.sourceSlug knownUser attempt.audience)

/-- A call that is refused. -/
def LoginResult.refused (binds : List BindAttempt) (error : CoreError) : LoginResult :=
  ⟨db, .refused error, binds, none⟩

/-- A call that a source has verified. -/
def LoginResult.of (result : FlowResult) (binds : List BindAttempt) (source : LdapUserSource)
    (entry : SearchEntry) : LoginResult :=
  ⟨result.db, result.out, binds, some (source, entry)⟩

/-- What `directory_sign_in` does with the answers. -/
def concludeDirectory (user : UserRow) (asked : SourcesAsked DirectoryVerdict) : LoginResult :=
  match asked.verdict with
  | .matched record source entry =>
    .of (directorySession P key maxLockoutSecs db attempt (some user.id) user.username record)
      asked.binds source entry
  | .otherIdentity => .refused db asked.binds .invalidCredentials
  | .unmatched false =>
    .refused db asked.binds
      (.badRequest "no user source could authenticate a returning directory user")
  | .unmatched true =>
    match recordLoginFailure db user.id maxLockoutSecs (attempt.draws 1).now with
    | .ok (_, db) => .refused db asked.binds .invalidCredentials
    | .error e => .refused db asked.binds (.store e)

/-- `directory_sign_in`. -/
def directorySignIn (user : UserRow) : LoginResult :=
  if user.isDisabled || user.isDeleted || Users.lockedAt user attempt.now ||
      db.federationLink.rows.any (·.userId == user.id) then
    .refused db [] .invalidCredentials
  else
    match user.externalStableId with
    | none => .refused db [] .invalidCredentials
    | some stableId =>
      concludeDirectory P key maxLockoutSecs db attempt user
        (askSources P stableId attempt.password false attempt.sources)

/-- The cascade for a name without a row. -/
def cascade : LoginResult :=
  let asked := cascadeSources attempt.username attempt.password attempt.sources
  match asked.verdict with
  | some (record, source, entry) =>
    .of (directorySession P key maxLockoutSecs db attempt none
      (resolveShadowUsername db attempt.uuid record.displayUsername) record)
      asked.binds source entry
  | none => .refused db asked.binds .invalidCredentials

/-- The local path, and then the cascade if the name has no row. -/
def localThenCascade (known : Bool) : LoginResult :=
  let result := loginWithMfa P key maxLockoutSecs db attempt
  match result.out with
  | .refused .invalidCredentials =>
    if known || attempt.sources.isEmpty then .refused result.db [] .invalidCredentials
    else cascade P key maxLockoutSecs result.db attempt
  | out => ⟨result.db, out, [], none⟩

/-- `try_login_with_cascade`. -/
def tryLoginWithCascade : LoginResult :=
  match Users.findByUsername db attempt.username with
  | some user =>
    if user.source == .ldap then directorySignIn P key maxLockoutSecs db attempt user
    else localThenCascade P key maxLockoutSecs db attempt true
  | none => localThenCascade P key maxLockoutSecs db attempt false

end Call

/-! ## Runs -/

/-- A sign-in, or another write. -/
inductive LoginEvent where
  | login (attempt : LoginAttempt)
  /-- Any write of the rest of the program. -/
  | elsewhere (db : Database)

section Runs

variable (P : Primitives) (key : MasterKey) (maxLockoutSecs : Int)

/-- One call, or one write of another part of the program. -/
def loginStep (db : Database) : LoginEvent → Database × Option LoginResult
  | .login attempt =>
    let result := tryLoginWithCascade P key maxLockoutSecs db attempt
    (result.db, some result)
  | .elsewhere db => (db, none)

/-- The calls of a run, each with the database it found. -/
abbrev loginTrace : Database → List LoginEvent →
    List (Machine.Taken Database LoginEvent (Option LoginResult)) :=
  Machine.trace (loginStep P key maxLockoutSecs)

end Runs

/-! ## A directory to run on -/

/-- The names and passwords of the entries. -/
def samplePasswords : String → Option String
  | "cn=svc,o=x" => some "s"
  | "cn=ann,o=x" => some "pw"
  | _ => none

/-- Ann, whose stable id is 7. -/
def sampleEntry : SearchEntry := ⟨"cn=ann,o=x", [("id", ["7"])]⟩

/-- A directory with Ann in it, found under both spellings of her name. -/
def sampleServer : LdapServer where
  connect := .ok ()
  simpleBind dn password :=
    .ok ⟨if samplePasswords dn = some password ∨ password = "" then 0 else 49, ""⟩
  search _ _ filter _ :=
    if filter ∈ ["(u=ann)", "(u=Ann)", "(&(id=7)(u=*))"] then .ok ([sampleEntry], ⟨0, ""⟩)
    else .ok ([], ⟨0, ""⟩)

/-- That directory as a source. -/
def sampleSource : LdapUserSource where
  cfg :=
    { slug := "x", url := "ldaps://x", bindDn := "cn=svc,o=x", bindPassword := "s"
      userSearchBase := "o=x", userSearchFilter := "(u=\x7busername\x7d)"
      stableIdAttribute := "id", displayNameAttribute := none, emailAttribute := none }
  server := sampleServer

/-- The row of Ann. -/
def annRow : UserRow :=
  { plainUser 8 "ann" .user with source := .ldap, externalStableId := some "7" }

/-- Only Ann. -/
def annDb : Database := { Database.empty with users := ⟨[annRow], by decide⟩ }

/-- A call at second `at_` with that source. -/
def LoginAttempt.sample (username password : String) (at_ : Int) : LoginAttempt where
  sources := [sampleSource]
  username := username
  password := password
  audience := .any
  draws _ := .sample (seconds at_)
  uuid := "u"

end SuiId
