import SuiId.Core.Cascade

/-!
# Passwords of directory entries

A directory says whether a password is right with the result of a simple bind.  It
takes a bind without a password for an unauthenticated one and answers with success
(RFC 4513).  A sign-in through a directory therefore needs the password of the entry
exactly as far as the submitted text is not empty; `rebind_directory_user`, which
refuses that text itself, needs it always.
-/

namespace SuiId

open Lib Lib.Result

/-- A directory with these passwords: a bind as an entry succeeds with the password of
the entry and with none, and every entry has a name. -/
structure LdapServer.Follows (server : LdapServer) (passwords : String → Option String) :
    Prop where
  bind_iff : ∀ {dn given : String} {result : LdapResult}, dn ≠ "" →
    server.simpleBind dn given = .ok result →
      (result.rc = 0 ↔ passwords dn = some given ∨ given = "")
  entry_named : ∀ {base : String} {scope : LdapScope} {filter : String} {attrs : List String}
    {entries : List SearchEntry} {result : LdapResult},
    server.search base scope filter attrs = .ok (entries, result) → ∀ entry ∈ entries, entry.dn ≠ ""

namespace LdapUserSource

/-- A search found the entry, and a bind as it succeeded. -/
structure Verified (source : LdapUserSource) (entry : SearchEntry) (password : String) : Prop where
  found : ∃ base scope filter, source.firstEntry base scope filter = .ok (some entry)
  bound : source.userBind entry.dn password = .ok true

variable {P : Primitives} {source : LdapUserSource} {entry : SearchEntry}

/-- The entry of a search is one the server returned. -/
theorem firstEntry_mem {base : String} {scope : LdapScope} {filter : String}
    (h : source.firstEntry base scope filter = .ok (some entry)) :
    ∃ entries result, source.server.search base scope filter source.attributes =
      .ok (entries, result) ∧ entry ∈ entries := by
  simp only [firstEntry, bind_eq_ok, mapError_eq_ok] at h
  obtain ⟨⟨entries, result⟩, hsearch, h⟩ := h
  dsimp only at h
  split at h
  · cases h
  · simp only [bind_eq_ok, ensure_eq_ok, pure_eq_ok] at h
    obtain ⟨-, -, hhead⟩ := h
    exact ⟨entries, result, hsearch, List.mem_of_head? hhead⟩

theorem Verified.password_or_empty {password : String} (h : source.Verified entry password)
    {passwords : String → Option String} (hserver : source.server.Follows passwords) :
    passwords entry.dn = some password ∨ password = "" := by
  obtain ⟨base, scope, filter, hfirst⟩ := h.found
  obtain ⟨entries, result, hsearch, hmem⟩ := firstEntry_mem hfirst
  have hdn : entry.dn ≠ "" := hserver.entry_named hsearch entry hmem
  have hbound := h.bound
  simp only [userBind, bind_eq_ok, mapError_eq_ok, pure_eq_ok, beq_iff_eq] at hbound
  obtain ⟨answer, hbind, hrc⟩ := hbound
  exact (hserver.bind_iff hdn hbind).mp hrc

theorem bindEntry_authenticated {record record' : ExternalUserRecord} {entry' : SearchEntry}
    {password : String}
    (h : source.bindEntry entry record password = .authenticated record' entry') :
    entry' = entry ∧ record' = record ∧ source.userBind entry.dn password = .ok true := by
  unfold bindEntry at h
  split at h
  · rename_i hbind
    cases h
    exact ⟨rfl, rfl, hbind⟩
  · cases h
  · cases h

variable {username stableId : String}

theorem findByUsername_found (h : source.findByUsername username = .ok (some entry)) :
    ∃ base scope filter, source.firstEntry base scope filter = .ok (some entry) := by
  simp only [findByUsername, bind_eq_ok] at h
  obtain ⟨-, -, hfirst⟩ := h
  exact ⟨_, _, _, hfirst⟩

theorem findByStableId_found (h : source.findByStableId P stableId = .ok (some entry)) :
    ∃ base scope filter, source.firstEntry base scope filter = .ok (some entry) := by
  simp only [findByStableId, bind_eq_ok] at h
  obtain ⟨-, -, byAttribute, hattribute, h⟩ := h
  cases byAttribute with
  | some found =>
    cases h
    unfold findByAttribute at hattribute
    split at hattribute
    · cases hattribute
    · exact ⟨_, _, _, hattribute⟩
  | none =>
    dsimp only at h
    split at h
    · exact ⟨_, _, _, h⟩
    · split at h
      · simp only [bind_eq_ok] at h
        obtain ⟨-, -, h⟩ := h
        cases h
      · cases h

theorem authenticate_verified {password : String} {record : ExternalUserRecord}
    (h : source.authenticate username password = .authenticated record entry) :
    source.Verified entry password := by
  unfold authenticate at h
  split at h
  · cases h
  · cases h
  · rename_i found hfound
    obtain ⟨rfl, -, hbind⟩ := bindEntry_authenticated h
    exact ⟨findByUsername_found hfound, hbind⟩

theorem authenticateStableId_verified {password : String} {record : ExternalUserRecord}
    (h : source.authenticateStableId P stableId password = .authenticated record entry) :
    source.Verified entry password := by
  unfold authenticateStableId at h
  split at h
  · cases h
  · split at h
    · cases h
    · cases h
  · rename_i found hfound
    obtain ⟨rfl, -, hbind⟩ := bindEntry_authenticated h
    exact ⟨findByStableId_found hfound, hbind⟩

end LdapUserSource

/-! ## The loops -/

section Loops

variable {P : Primitives} {source : LdapUserSource} {entry : SearchEntry}
  {record : ExternalUserRecord} {password : String}
variable {sources : List LdapUserSource}

theorem cascadeSources_verified {username : String}
    (h : (cascadeSources username password sources).verdict = some (record, source, entry)) :
    source ∈ sources ∧ source.Verified entry password := by
  induction sources with
  | nil => cases h
  | cons first rest ih =>
    simp only [cascadeSources_cons] at h
    split at h
    · rename_i found hfound hanswer
      cases h
      exact ⟨List.mem_cons_self, LdapUserSource.authenticate_verified hanswer⟩
    · exact ⟨List.mem_cons_of_mem _ (ih h).1, (ih h).2⟩

variable {stableId : String} {answered : Bool}

theorem askSources_verified
    (h : (askSources P stableId password answered sources).verdict =
      .matched record source entry) :
    source ∈ sources ∧ source.Verified entry password := by
  induction sources generalizing answered with
  | nil => cases h
  | cons first rest ih =>
    simp only [askSources_cons] at h
    split at h
    · rename_i found hfound hanswer
      split at h
      · cases h
        exact ⟨List.mem_cons_self, LdapUserSource.authenticateStableId_verified hanswer⟩
      · cases h
    · exact ⟨List.mem_cons_of_mem _ (ih h).1, (ih h).2⟩
    · exact ⟨List.mem_cons_of_mem _ (ih h).1, (ih h).2⟩

theorem rebindSources_verified
    (h : rebindSources P stableId password answered sources = some true) :
    ∃ source ∈ sources, ∃ entry, source.Verified entry password := by
  induction sources generalizing answered with
  | nil => cases answered with
    | false => cases h
    | true => cases h
  | cons first rest ih =>
    have hrest : ∀ {answered : Bool}, rebindSources P stableId password answered rest = some true →
        ∃ source ∈ first :: rest, ∃ entry, source.Verified entry password := by
      intro answered h
      obtain ⟨source, hmem, hverified⟩ := ih h
      exact ⟨source, List.mem_cons_of_mem _ hmem, hverified⟩
    simp only [rebindSources_cons] at h
    split at h
    · rename_i found hfound hanswer
      split at h
      · exact ⟨first, List.mem_cons_self, _,
          LdapUserSource.authenticateStableId_verified hanswer⟩
      · exact hrest h
    · exact hrest h
    · exact hrest h

/-- The factor-addition path needs the password of an entry, whatever was typed. -/
theorem rebindDirectoryUser_password {db : Database} {user : UserId}
    {passwords : LdapUserSource → String → Option String}
    (hsources : ∀ source ∈ sources, source.server.Follows (passwords source))
    (h : rebindDirectoryUser P db sources user password = some true) :
    ∃ source ∈ sources, ∃ entry : SearchEntry, passwords source entry.dn = some password := by
  simp only [rebindDirectoryUser, Option.bind_eq_bind, Option.bind_eq_some_iff] at h
  obtain ⟨row, -, stableId, -, h⟩ := h
  split at h
  · cases h
  · rename_i hempty
    obtain ⟨source, hmem, entry, hverified⟩ := rebindSources_verified h
    refine ⟨source, hmem, entry, ?_⟩
    apply (hverified.password_or_empty (hsources source hmem)).resolve_right
    intro hpassword
    simp [hpassword] at hempty

end Loops

/-! ## The cascade -/

/-- The answer is a session or asks for a second factor. -/
def FlowAnswer.granted : FlowAnswer → Bool
  | .signedIn _ | .mfaRequired _ => true
  | _ => false

section Cascade

variable {P : Primitives} {key : MasterKey} {maxLockoutSecs : Int} {db : Database}
  {attempt : LoginAttempt} {source : LdapUserSource} {entry : SearchEntry}

theorem cascade_verified
    (h : (cascade P key maxLockoutSecs db attempt).verified = some (source, entry)) :
    source ∈ attempt.sources ∧ source.Verified entry attempt.password := by
  simp only [cascade] at h
  split at h
  · rename_i record found foundEntry hverdict
    cases h
    exact cascadeSources_verified hverdict
  · cases h

theorem localThenCascade_verified {known : Bool}
    (h : (localThenCascade P key maxLockoutSecs db attempt known).verified =
      some (source, entry)) :
    source ∈ attempt.sources ∧ source.Verified entry attempt.password := by
  simp only [localThenCascade] at h
  split at h
  · split at h
    · cases h
    · exact cascade_verified h
  · cases h

variable {user : UserRow}

theorem concludeDirectory_verified {stableId : String}
    (h : (concludeDirectory P key maxLockoutSecs db attempt user
      (askSources P stableId attempt.password false attempt.sources)).verified =
        some (source, entry)) :
    source ∈ attempt.sources ∧ source.Verified entry attempt.password := by
  simp only [concludeDirectory] at h
  split at h
  · rename_i record found foundEntry hverdict
    cases h
    exact askSources_verified hverdict
  · cases h
  · cases h
  · split at h
    · cases h
    · cases h

theorem directorySignIn_verified
    (h : (directorySignIn P key maxLockoutSecs db attempt user).verified = some (source, entry)) :
    source ∈ attempt.sources ∧ source.Verified entry attempt.password := by
  unfold directorySignIn at h
  split at h
  · cases h
  · split at h
    · cases h
    · exact concludeDirectory_verified h

/-- Who is signed in from a directory was found there, and a bind as that entry
succeeded with what was typed. -/
theorem tryLoginWithCascade_verified
    (h : (tryLoginWithCascade P key maxLockoutSecs db attempt).verified = some (source, entry)) :
    source ∈ attempt.sources ∧ source.Verified entry attempt.password := by
  unfold tryLoginWithCascade at h
  split at h
  · split at h
    · exact directorySignIn_verified h
    · exact localThenCascade_verified h
  · exact localThenCascade_verified h

end Cascade

/-- Whoever the call signs in from a directory, or asks for a second factor, is an entry
whose password was typed. -/
def RealPassword (P : Primitives) (key : MasterKey) (maxLockoutSecs : Int) (db : Database)
    (attempt : LoginAttempt) (passwords : LdapUserSource → String → Option String) : Prop :=
  let result := tryLoginWithCascade P key maxLockoutSecs db attempt
  ∀ source entry, result.verified = some (source, entry) → result.out.granted = true →
    passwords source entry.dn = some attempt.password

theorem sampleServer_follows : sampleServer.Follows samplePasswords where
  bind_iff := by
    intro dn given result _ h
    cases h
    by_cases hok : samplePasswords dn = some given ∨ given = ""
    · simp [hok]
    · simp [hok]
  entry_named := by
    intro base scope filter attrs entries result h entry hmem
    have hentries : entries = [sampleEntry] ∨ entries = [] := by
      simp only [sampleServer] at h
      split at h
      · cases h
        exact .inl rfl
      · cases h
        exact .inr rfl
    rcases hentries with rfl | rfl
    · rw [List.mem_singleton.mp hmem]
      decide
    · cases hmem

/-- A call in the sample directory that is granted without a password. -/
private theorem emptyPassword_granted :
    let result := tryLoginWithCascade .transparent (.constant 7) 3600 Database.empty
      (.sample "ann" "" 0)
    result.out.granted = true ∧ result.verified.map (·.2) = some sampleEntry := by
  decide +kernel

private theorem sampleSources_follow :
    ∀ source ∈ (LoginAttempt.sample "ann" "" 0).sources,
      source.server.Follows samplePasswords := by
  intro source hmem
  rw [List.mem_singleton.mp hmem]
  exact sampleServer_follows

private theorem emptyPassword_not_real :
    ¬ RealPassword .transparent (.constant 7) 3600 Database.empty (.sample "ann" "" 0)
      fun _ => samplePasswords := by
  intro hreal
  obtain ⟨hgranted, hverified⟩ := emptyPassword_granted
  obtain ⟨⟨source, entry⟩, hsome, hentry⟩ := Option.map_eq_some_iff.mp hverified
  have hpassword : samplePasswords entry.dn = some "" := hreal source entry hsome hgranted
  have hreally : samplePasswords sampleEntry.dn = some "pw" := rfl
  rw [show entry = sampleEntry from hentry, hreally] at hpassword
  exact absurd (Option.some.inj hpassword) (by decide)

/-- Whoever signs in from a directory typed the password of the entry, for exactly the
passwords that are not empty. -/
theorem directory_password_iff (password : String) :
    (∀ (P : Primitives) (key : MasterKey) (maxLockoutSecs : Int) (db : Database)
      (attempt : LoginAttempt) (passwords : LdapUserSource → String → Option String),
      attempt.password = password →
      (∀ source ∈ attempt.sources, source.server.Follows (passwords source)) →
      RealPassword P key maxLockoutSecs db attempt passwords) ↔ password ≠ "" := by
  constructor
  · rintro hall rfl
    exact emptyPassword_not_real (hall _ _ _ _ _ _ rfl sampleSources_follow)
  · rintro hpassword P key maxLockoutSecs db attempt passwords rfl hsources source entry hverified -
    obtain ⟨hmem, hbound⟩ := tryLoginWithCascade_verified hverified
    exact (hbound.password_or_empty (hsources source hmem)).resolve_right hpassword

/-- A call without a password signs Ann in, whose password is another. -/
theorem emptyPassword_signs_in :
    (∀ source ∈ (LoginAttempt.sample "ann" "" 0).sources,
      source.server.Follows samplePasswords) ∧
    ¬ RealPassword .transparent (.constant 7) 3600 Database.empty (.sample "ann" "" 0)
      fun _ => samplePasswords :=
  ⟨sampleSources_follow, emptyPassword_not_real⟩

end SuiId
