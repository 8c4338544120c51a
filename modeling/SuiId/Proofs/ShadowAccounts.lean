import SuiId.Proofs.DirectoryPasswords
import SuiId.Proofs.LoginSteps

/-!
# Shadow accounts and their entries

A shadow row stores the stable id of a directory entry and nothing about the source
that reported it.  Whoever signs in to the row is an entry with that id, at any of the
sources:

* `tryLoginWithCascade_grants` is the step: the entry that was bound as has the id of
  the row that is signed in to;
* no sign-in changes the id of a row, so all of them went to entries with one id.

They are sign-ins of one entry when no two entries share an id (`StableIdsApart`).
-/

namespace SuiId

open Lib Lib.Result

/-- The user of a session or of a pending second factor. -/
def FlowAnswer.grantee : FlowAnswer → Option UserId
  | .signedIn session => some session.userId
  | .mfaRequired pending => some pending.userId
  | _ => none

namespace FlowCall

/-- The stable id that a directory sign-in is for. -/
def directoryId : FlowCall → Option String
  | .directoryVerified shadow .. => some shadow.externalStableId
  | .verified (.directory shadow _) _ | .withoutTotp (.directory shadow _) _
  | .withFactor (.directory shadow _) _ | .withoutFactor (.directory shadow _) _ =>
    some shadow.externalStableId
  | _ => none

/-- The user that a sign-in with a local password is for. -/
def passwordUser : FlowCall → Option UserId
  | .accountRead user .. => some user.id
  | .passwordWrong user => some user
  | .verified (.password _) user | .withoutTotp (.password _) user
  | .withFactor (.password _) user | .withoutFactor (.password _) user => some user
  | _ => none

end FlowCall

/-! ## The calls end -/

/-- How many accesses a sign-in with a password still makes at most; other calls have
none here. -/
def FlowCall.accesses : FlowCall → Nat
  | .submitted .. => 5
  | .accountRead .. | .directoryVerified .. => 4
  | .verified (.federation _) _ | .withoutTotp (.federation _) _ => 0
  | .withFactor (.federation _) _ | .withoutFactor (.federation _) _ => 0
  | .verified .. => 3
  | .withoutTotp .. => 2
  | .withFactor .. | .withoutFactor .. | .passwordWrong _ => 1
  | _ => 0

section Ends

variable {P : Primitives} {key : MasterKey} {maxLockoutSecs : Int} {db : Database}
variable {call : FlowCall}

theorem FlowCall.isLogin_of_accesses (h : 0 < call.accesses) :
    call.isLogin = true := by
  cases call with
  | verified first | withoutTotp first | withFactor first | withoutFactor first =>
    cases first with
    | federation signIn => cases h
    | _ => rfl
  | submitted | accountRead | passwordWrong | directoryVerified => rfl
  | _ => cases h

/-- Each access leaves fewer. -/
theorem FlowCall.advance_accesses {draw : FlowDraw} {next : FlowCall} (hcall : 0 < call.accesses)
    (hnext : (call.advance P key maxLockoutSecs db draw).next = some next) :
    0 < next.accesses ∧ next.accesses < call.accesses := by
  have hlogin := FlowCall.isLogin_of_accesses hcall
  have hadvances := @advance_advances P key maxLockoutSecs db draw call
  generalize call.advance P key maxLockoutSecs db draw = result at hadvances hnext
  cases hadvances with
  | committed hcommitted =>
    cases hcommitted with
    | promoted => cases hlogin
    | _ => cases hnext
  | goesOn hother => cases hother.symm.trans hlogin
  | accountFound | passwordRefused | passwordRight | shadowFound | shadowNew =>
    cases hnext
    simp [FlowCall.accesses]
  | @totpFound first | @totpMissing first | @passkeyFound first | @passkeyMissing first =>
    cases hnext
    cases first with
    | federation signIn => cases hlogin
    | _ => simp [FlowCall.accesses]
  | ends | loginCounted | factorCounted => cases hnext
  | _ => cases hlogin

/-- A call with enough accesses comes to its end. -/
theorem FlowCall.run_ends {n : Nat} {draws : Nat → FlowDraw} (hcall : 0 < call.accesses)
    (hn : call.accesses ≤ n) :
    (FlowCall.run P key maxLockoutSecs n draws db call).next = none := by
  induction n generalizing draws db call with
  | zero => omega
  | succ n ih =>
    simp only [FlowCall.run]
    split
    · assumption
    next next hnext =>
      have hless := FlowCall.advance_accesses hcall hnext
      exact ih hless.1 (by omega)

theorem loginWithMfa_ends (attempt : LoginAttempt) :
    (loginWithMfa P key maxLockoutSecs db attempt).next = none :=
  FlowCall.run_ends (by simp [FlowCall.accesses]) (by simp [FlowCall.accesses])

theorem directorySession_ends (attempt : LoginAttempt) (knownUser : Option UserId)
    (username : String) (record : ExternalUserRecord) :
    (directorySession P key maxLockoutSecs db attempt knownUser username record).next = none :=
  FlowCall.run_ends (by simp [FlowCall.accesses]) (by simp [FlowCall.accesses])

end Ends

/-! ## The accesses of a call -/

section Advance

variable {P : Primitives} {key : MasterKey} {maxLockoutSecs : Int} {db : Database}

/-- What holds of an access and its result: no row changes its identity, the call goes
on as `carries` says, and a grant is for a user with `granted`. -/
structure SignsInTo (db : Database) (carries : FlowCall → Prop)
    (granted : Database → UserId → Prop) (result : FlowResult) : Prop where
  kept : Table.Kept Users.identity db.users result.db.users
  next : ∀ call, result.next = some call → carries call
  grants : ∀ user, result.out.grantee = some user → granted result.db user

variable {carries : FlowCall → Prop} {granted : Database → UserId → Prop}
variable {result : FlowResult} {draw : FlowDraw}

theorem SignsInTo.of_end (hkept : Table.Kept Users.identity db.users result.db.users)
    (hnext : result.next = none)
    (hgrants : ∀ user, result.out.grantee = some user → granted result.db user) :
    SignsInTo db carries granted result where
  kept := hkept
  next := by
    intro call hcall
    rw [hnext] at hcall
    cases hcall
  grants := hgrants

theorem SignsInTo.of_no_grant (hkept : Table.Kept Users.identity db.users result.db.users)
    (hnext : result.next = none) (hout : result.out.grantee = none) :
    SignsInTo db carries granted result := by
  apply SignsInTo.of_end hkept hnext
  intro user hgrant
  rw [hout] at hgrant
  cases hgrant

theorem SignsInTo.ends {out : FlowAnswer} (hout : out.effective = false) :
    SignsInTo db carries granted (FlowResult.done db out) :=
  .of_no_grant (Table.Kept.refl _ _) rfl (by cases out <;> first | rfl | cases hout)

variable {call : FlowCall}

theorem SignsInTo.goOn (h : carries call) :
    SignsInTo db carries granted (FlowResult.goOn db call) where
  kept := Table.Kept.refl _ _
  next := by
    intro call' hcall
    cases hcall
    exact h
  grants := by
    intro user hgrant
    cases hgrant

/-- Every access of a call of this kind is so, and so is the whole call. -/
theorem SignsInTo.run
    (hadvance : ∀ {db draw call}, carries call →
      SignsInTo db carries granted (call.advance P key maxLockoutSecs db draw)) {n : Nat}
    {draws : Nat → FlowDraw} (hcall : carries call) :
    SignsInTo db carries granted (FlowCall.run P key maxLockoutSecs n draws db call) := by
  induction n generalizing draws db call with
  | zero => exact .goOn hcall
  | succ n ih =>
    have hfirst := @hadvance db (draws 0) call hcall
    simp only [FlowCall.run]
    split
    · exact hfirst
    · rename_i next hnext
      have hrest := @ih (call.advance P key maxLockoutSecs db (draws 0)).db next
        (fun i => draws (i + 1)) (hfirst.next next hnext)
      exact ⟨hfirst.kept.trans hrest.kept, hrest.next, hrest.grants⟩

/-- The row of the user has the directory identity. -/
def IsShadowOf (stableId : String) (db : Database) (user : UserId) : Prop :=
  ∃ u, db.users.get? user = some u ∧ Users.identity u = (.ldap, some stableId)

/-- An access of a directory sign-in. -/
theorem advance_directory {stableId : String} (h : call.directoryId = some stableId) :
    SignsInTo db (fun c => c.directoryId = some stableId) (IsShadowOf stableId)
      (call.advance P key maxLockoutSecs db draw) := by
  have hlogin : call.isLogin = true := by
    cases call with
    | verified first | withoutTotp first | withFactor first | withoutFactor first =>
      cases first with
      | directory => rfl
      | _ => cases h
    | directoryVerified => rfl
    | _ => cases h
  have hadvances := @advance_advances P key maxLockoutSecs db draw call
  generalize call.advance P key maxLockoutSecs db draw = result at hadvances
  cases hadvances with
  | committed hcommitted =>
    cases hcommitted with
    | directory hcommit =>
      cases h
      obtain ⟨hkept, u, hget, hidentity⟩ := signInFromDirectory_identity hcommit
      refine .of_end hkept rfl fun user hgrant => ?_
      cases hgrant
      exact ⟨u, hget, hidentity⟩
    | directoryPending hcommit =>
      cases h
      obtain ⟨hkept, u, hget, hidentity⟩ := signInFromDirectoryMfaRequired_identity hcommit
      refine .of_end hkept rfl fun user hgrant => ?_
      cases hgrant
      exact ⟨u, hget, hidentity⟩
    | _ => cases h
  | ends hout => exact .ends hout
  | shadowFound | shadowNew => exact .goOn h
  | @totpFound first | @totpMissing first | @passkeyFound first | @passkeyMissing first =>
    cases first with
    | directory => exact .goOn h
    | _ => cases h
  | goesOn hother => cases hother.symm.trans hlogin
  | factorCounted hother => cases hother.symm.trans hlogin
  | _ => cases h

/-- An access of a sign-in with a local password, after the row was read. -/
theorem advance_password {user : UserId} (h : call.passwordUser = some user) :
    SignsInTo db (fun c => c.passwordUser = some user) (fun _ u => u = user)
      (call.advance P key maxLockoutSecs db draw) := by
  have hlogin : call.isLogin = true := by
    cases call with
    | verified first | withoutTotp first | withFactor first | withoutFactor first =>
      cases first with
      | password => rfl
      | _ => cases h
    | accountRead | passwordWrong => rfl
    | _ => cases h
  have hadvances := @advance_advances P key maxLockoutSecs db draw call
  generalize call.advance P key maxLockoutSecs db draw = result at hadvances
  cases hadvances with
  | committed hcommitted =>
    cases hcommitted with
    | password hcommit =>
      cases h
      refine .of_end (signInWithPassword_identity hcommit) rfl fun u hgrant => ?_
      cases hgrant
      rfl
    | passwordPending hinsert =>
      cases h
      obtain ⟨loginPendingMfa, -, rfl⟩ := LoginPendingMfa.insert_ok hinsert
      refine .of_end (Table.Kept.refl _ _) rfl fun u hgrant => ?_
      cases hgrant
      rfl
    | _ => cases h
  | ends hout => exact .ends hout
  | passwordRefused | passwordRight => exact .goOn h
  | @totpFound first | @totpMissing first | @passkeyFound first | @passkeyMissing first =>
    cases first with
    | password => exact .goOn h
    | _ => cases h
  | loginCounted hcommit => exact .of_no_grant (recordLoginFailure_identity hcommit) rfl rfl
  | goesOn hother => cases hother.symm.trans hlogin
  | factorCounted hother => cases hother.symm.trans hlogin
  | _ => cases h

end Advance

/-! ## The ids of the records -/

section Records

variable {P : Primitives} {source : LdapUserSource} {entry : SearchEntry}
  {record : ExternalUserRecord} {password : String}

/-- An entry has the id of its record. -/
theorem names_record (displayUsername : String) :
    source.names P entry (source.record entry displayUsername).stableId = true := by
  unfold LdapUserSource.names
  rw [Bool.or_eq_true, beq_iff_eq]
  exact .inl rfl

theorem names_recordOf (stableId : String) :
    source.names P entry (source.recordOf P entry stableId).stableId = true := by
  simp only [LdapUserSource.recordOf]
  split
  · assumption
  · exact names_record entry.dn

variable {username stableId : String} {sources : List LdapUserSource}

theorem authenticate_names
    (h : source.authenticate username password = .authenticated record entry) :
    source.names P entry record.stableId = true := by
  unfold LdapUserSource.authenticate at h
  split at h
  · cases h
  · cases h
  · obtain ⟨rfl, rfl, -⟩ := LdapUserSource.bindEntry_authenticated h
    exact names_record username

theorem authenticateStableId_names
    (h : source.authenticateStableId P stableId password = .authenticated record entry) :
    source.names P entry record.stableId = true := by
  unfold LdapUserSource.authenticateStableId at h
  split at h
  · cases h
  · split at h
    · cases h
    · cases h
  · obtain ⟨rfl, rfl, -⟩ := LdapUserSource.bindEntry_authenticated h
    exact names_recordOf stableId

theorem cascadeSources_names
    (h : (cascadeSources username password sources).verdict = some (record, source, entry)) :
    source.names P entry record.stableId = true := by
  induction sources with
  | nil => cases h
  | cons first rest ih =>
    simp only [cascadeSources_cons] at h
    split at h
    · rename_i hanswer
      cases h
      exact authenticate_names hanswer
    · exact ih h

theorem askSources_names {answered : Bool}
    (h : (askSources P stableId password answered sources).verdict =
      .matched record source entry) :
    source.names P entry record.stableId = true := by
  induction sources generalizing answered with
  | nil => cases h
  | cons first rest ih =>
    simp only [askSources_cons] at h
    split at h
    · rename_i hanswer
      split at h
      · cases h
        exact authenticateStableId_names hanswer
      · cases h
    · exact ih h
    · exact ih h

end Records

/-! ## A call -/

/-- What a call leaves: every row with its identity, and a session or a pending factor
of a shadow row only for an entry with the id of the row. -/
structure GrantsByEntry (P : Primitives) (db : Database) (result : LoginResult) : Prop where
  kept : Table.Kept Users.identity db.users result.db.users
  grants : ∀ user, result.out.grantee = some user → ∃ u, result.db.users.get? user = some u ∧
    (u.source = .ldap → ∃ source entry stableId, result.verified = some (source, entry) ∧
      u.externalStableId = some stableId ∧ source.names P entry stableId = true)

section Call

variable {P : Primitives} {key : MasterKey} {maxLockoutSecs : Int} {db : Database}
  {attempt : LoginAttempt}
variable {result : LoginResult} {db' : Database} {user : UserRow}

theorem GrantsByEntry.of_no_grant (hkept : Table.Kept Users.identity db.users result.db.users)
    (hout : result.out.grantee = none) : GrantsByEntry P db result where
  kept := hkept
  grants := by
    intro user hgrant
    rw [hout] at hgrant
    cases hgrant

theorem GrantsByEntry.after (hkept : Table.Kept Users.identity db.users db'.users)
    (h : GrantsByEntry P db' result) :
    GrantsByEntry P db result :=
  ⟨hkept.trans h.kept, h.grants⟩

theorem GrantsByEntry.refused (binds : List BindAttempt) (error : CoreError)
    (hkept : Table.Kept Users.identity db.users db'.users) :
    GrantsByEntry P db (LoginResult.refused db' binds error) :=
  .of_no_grant hkept rfl

/-- `directory_session` signs in to the row of the id of the record. -/
theorem directorySession_grants {knownUser : Option UserId} {username : String}
    {record : ExternalUserRecord} {binds : List BindAttempt} {source : LdapUserSource}
    {entry : SearchEntry} (hnames : source.names P entry record.stableId = true) :
    GrantsByEntry P db (.of (directorySession P key maxLockoutSecs db attempt knownUser username
      record) binds source entry) := by
  have hsignsIn : SignsInTo db (fun c => c.directoryId = some record.stableId)
      (IsShadowOf record.stableId)
      (directorySession P key maxLockoutSecs db attempt knownUser username record) :=
    SignsInTo.run (fun hcall => advance_directory hcall) rfl
  refine ⟨hsignsIn.kept, ?_⟩
  intro user hgrant
  obtain ⟨u, hget, hidentity⟩ := hsignsIn.grants user hgrant
  exact ⟨u, hget, fun _ =>
    ⟨source, entry, record.stableId, rfl, (Prod.mk.inj hidentity).2, hnames⟩⟩

theorem concludeDirectory_grants {stableId : String} {binds : Bool} :
    GrantsByEntry P db (concludeDirectory P key maxLockoutSecs db attempt user
      (askSources P stableId attempt.password binds attempt.sources)) := by
  unfold concludeDirectory
  split
  · rename_i hverdict
    exact directorySession_grants (askSources_names hverdict)
  · exact .refused _ _ (Table.Kept.refl _ _)
  · exact .refused _ _ (Table.Kept.refl _ _)
  · split
    · rename_i hcommit
      exact .refused _ _ (recordLoginFailure_identity hcommit)
    · exact .refused _ _ (Table.Kept.refl _ _)

theorem directorySignIn_grants :
    GrantsByEntry P db (directorySignIn P key maxLockoutSecs db attempt user) := by
  unfold directorySignIn
  split
  · exact .refused _ _ (Table.Kept.refl _ _)
  · split
    · exact .refused _ _ (Table.Kept.refl _ _)
    · exact concludeDirectory_grants

/-- The local path signs in to the row of the name. -/
theorem loginWithMfa_grants (P : Primitives) (key : MasterKey) (maxLockoutSecs : Int)
    (db : Database) (attempt : LoginAttempt) :
    Table.Kept Users.identity db.users (loginWithMfa P key maxLockoutSecs db attempt).db.users ∧
      ∀ user, (loginWithMfa P key maxLockoutSecs db attempt).out.grantee = some user →
        ∃ u, Users.findByUsername db attempt.username = some u ∧ user = u.id := by
  unfold loginWithMfa
  rw [FlowCall.run]
  simp only [FlowCall.advance, readAccount]
  cases hfind : Users.findByUsername db attempt.username with
  | none =>
    refine ⟨Table.Kept.refl _ _, ?_⟩
    intro user hgrant
    cases hgrant
  | some u =>
    by_cases hrefused :
        (u.isDisabled || u.isDeleted || Users.lockedAt u (attempt.draws 0).now) = true
    · simp only [hrefused, if_true]
      refine ⟨Table.Kept.refl _ _, ?_⟩
      intro user hgrant
      cases hgrant
    · simp only [hrefused]
      have hsignsIn : SignsInTo db (fun c => c.passwordUser = some u.id) (fun _ x => x = u.id)
          (FlowCall.run P key maxLockoutSecs 4 (fun i => attempt.draws (i + 1)) db
            (.accountRead u attempt.password attempt.audience)) :=
        SignsInTo.run (fun hcall => advance_password hcall) rfl
      exact ⟨hsignsIn.kept, fun user hgrant => ⟨u, rfl, hsignsIn.grants user hgrant⟩⟩

/-- The local path grants nothing on a shadow row, and the cascade what a source says. -/
theorem localThenCascade_grants {known : Bool}
    (hlocal : ∀ u, Users.findByUsername db attempt.username = some u → u.source ≠ .ldap) :
    GrantsByEntry P db (localThenCascade P key maxLockoutSecs db attempt known) := by
  obtain ⟨hkept, hgrants⟩ := loginWithMfa_grants P key maxLockoutSecs db attempt
  simp only [localThenCascade]
  split
  · split
    · exact .refused _ _ hkept
    · simp only [cascade]
      split
      · rename_i hverdict
        exact .after hkept (directorySession_grants (cascadeSources_names hverdict))
      · exact .refused _ _ hkept
  · refine ⟨hkept, ?_⟩
    intro user hgrant
    obtain ⟨row, hfind, rfl⟩ := hgrants user hgrant
    have hrow : db.users.get? row.id = some row := Table.get?_key (Table.mem_of_find? hfind).1
    obtain ⟨u, hget, hsame⟩ := hkept.get? hrow
    refine ⟨u, hget, fun hldap => ?_⟩
    exact absurd ((Prod.mk.inj hsame).1.symm.trans hldap) (hlocal row hfind)

theorem tryLoginWithCascade_grants :
    GrantsByEntry P db (tryLoginWithCascade P key maxLockoutSecs db attempt) := by
  unfold tryLoginWithCascade
  split
  · rename_i user hfind
    split
    · exact directorySignIn_grants
    · rename_i hsource
      apply localThenCascade_grants
      intro u hu hldap
      rw [hfind] at hu
      cases hu
      exact hsource (beq_iff_eq.mpr hldap)
  · rename_i hfind
    apply localThenCascade_grants
    intro u hu
    rw [hfind] at hu
    cases hu

end Call

/-! ## Runs -/

/-- The run has a call in which the source returns the entry. -/
def Offered (events : List LoginEvent) (source : LdapUserSource) (entry : SearchEntry) : Prop :=
  ∃ attempt, .login attempt ∈ events ∧ source ∈ attempt.sources ∧
    ∃ base scope filter, source.firstEntry base scope filter = .ok (some entry)

/-- Entries that an id names both are one entry of one source. -/
def StableIdsApart (P : Primitives) (events : List LoginEvent) : Prop :=
  ∀ source entry source' entry' stableId, Offered events source entry →
    Offered events source' entry' → source.names P entry stableId = true →
    source'.names P entry' stableId = true →
      source.cfg.slug = source'.cfg.slug ∧ entry.dn = entry'.dn

/-- The rest of the program leaves the identities of the rows alone. -/
def LoginEvent.KeepsIdentities (db : Database) : LoginEvent → Prop
  | .login _ => True
  | .elsewhere db' => Table.Kept Users.identity db.users db'.users

section Runs

variable {P : Primitives} {key : MasterKey} {maxLockoutSecs : Int}

/-- The steps so far that granted a shadow row did so for an entry with its id. -/
def GrantsNamed (P : Primitives) (events : List LoginEvent)
    (past : List (Machine.Taken Database LoginEvent (Option LoginResult))) (db : Database) : Prop :=
  ∀ taken ∈ past, ∀ result user, taken.out = some result → result.out.grantee = some user →
    ∃ u, db.users.get? user = some u ∧
      (u.source = .ldap → ∃ source entry stableId, result.verified = some (source, entry) ∧
        Offered events source entry ∧ u.externalStableId = some stableId ∧
        source.names P entry stableId = true)

variable {events : List LoginEvent}
  {past : List (Machine.Taken Database LoginEvent (Option LoginResult))}

/-- Rows that keep their identities keep what was granted. -/
theorem GrantsNamed.kept {db db' : Database} (h : GrantsNamed P events past db)
    (hkept : Table.Kept Users.identity db.users db'.users) :
    GrantsNamed P events past db' := by
  intro taken htaken result user hout hgrant
  obtain ⟨u, hget, hldap⟩ := h taken htaken result user hout hgrant
  obtain ⟨u', hget', hsame⟩ := hkept.get? hget
  obtain ⟨hsource, hid⟩ := Prod.mk.inj hsame
  refine ⟨u', hget', ?_⟩
  rw [hsource, hid]
  exact hldap

/-- One more step. -/
theorem GrantsNamed.step {db : Database} {event : LoginEvent} (h : GrantsNamed P events past db)
    (hmem : event ∈ events) (hkeeps : event.KeepsIdentities db) :
    GrantsNamed P events
      (past ++ [⟨db, event, (loginStep P key maxLockoutSecs db event).2⟩])
      (loginStep P key maxLockoutSecs db event).1 := by
  cases event with
  | login attempt =>
    have hcall : GrantsByEntry P db (tryLoginWithCascade P key maxLockoutSecs db attempt) :=
      tryLoginWithCascade_grants
    intro taken htaken result user hout hgrant
    rcases List.mem_append.mp htaken with hpast | hlast
    · exact h.kept hcall.kept taken hpast result user hout hgrant
    · cases List.mem_singleton.mp hlast
      cases hout
      obtain ⟨u, hget, hldap⟩ := hcall.grants user hgrant
      refine ⟨u, hget, fun hsource => ?_⟩
      obtain ⟨source, entry, stableId, hverified, hid, hnames⟩ := hldap hsource
      obtain ⟨hsources, hfound⟩ := tryLoginWithCascade_verified hverified
      exact ⟨source, entry, stableId, hverified, ⟨attempt, hmem, hsources, hfound.found⟩, hid,
        hnames⟩
  | elsewhere db' =>
    intro taken htaken result user hout hgrant
    rcases List.mem_append.mp htaken with hpast | hlast
    · exact h.kept hkeeps taken hpast result user hout hgrant
    · cases List.mem_singleton.mp hlast
      cases hout

end Runs

/-- In every run of sign-ins in which no two entries share a stable id, all sessions and
pending factors of one shadow row come from one entry of one source. -/
theorem shadow_account_one_entry {P : Primitives} {key : MasterKey} {maxLockoutSecs : Int}
    {db : Database} {events : List LoginEvent}
    (hkeeps : Machine.Guarded (loginStep P key maxLockoutSecs) LoginEvent.KeepsIdentities db events)
    (hapart : StableIdsApart P events)
    {user : UserId} {u : UserRow}
    (hget : (Machine.run (loginStep P key maxLockoutSecs) db events).users.get? user = some u)
    (hldap : u.source = .ldap) :
    ∃ slug dn, ∀ taken ∈ loginTrace P key maxLockoutSecs db events, ∀ result,
      taken.out = some result → result.out.grantee = some user →
        ∃ source entry, result.verified = some (source, entry) ∧ source.cfg.slug = slug ∧
          entry.dn = dn := by
  have hmem : Machine.Guarded (loginStep P key maxLockoutSecs) (fun _ e => e ∈ events) db events :=
    Machine.guarded_of_forall fun _ he => he
  have hnamed : GrantsNamed P events (loginTrace P key maxLockoutSecs db events)
      (Machine.run (loginStep P key maxLockoutSecs) db events) := by
    apply Machine.run_trace_history (I := GrantsNamed P events) ?_ (hmem.and hkeeps)
    · intro taken htaken
      cases htaken
    · intro past db event hpast hguard
      exact hpast.step hguard.1 hguard.2
  have hgrant : ∀ taken ∈ loginTrace P key maxLockoutSecs db events, ∀ result,
      taken.out = some result → result.out.grantee = some user →
        ∃ source entry stableId, result.verified = some (source, entry) ∧
          Offered events source entry ∧ u.externalStableId = some stableId ∧
          source.names P entry stableId = true := by
    intro taken htaken result hout hgrantee
    obtain ⟨u', hget', hentry⟩ := hnamed taken htaken result user hout hgrantee
    cases hget.symm.trans hget'
    exact hentry hldap
  -- the first grant, if there is one, says which entry it is
  by_cases hsome : ∃ taken ∈ loginTrace P key maxLockoutSecs db events, ∃ result,
      taken.out = some result ∧ result.out.grantee = some user
  · obtain ⟨taken, htaken, result, hout, hgrantee⟩ := hsome
    obtain ⟨source, entry, stableId, -, hoffered, hid, hnames⟩ :=
      hgrant taken htaken result hout hgrantee
    refine ⟨source.cfg.slug, entry.dn, ?_⟩
    intro taken' htaken' result' hout' hgrantee'
    obtain ⟨source', entry', stableId', hverified', hoffered', hid', hnames'⟩ :=
      hgrant taken' htaken' result' hout' hgrantee'
    cases Option.some.inj (hid.symm.trans hid')
    obtain ⟨hslug, hdn⟩ := hapart _ _ _ _ _ hoffered' hoffered hnames' hnames
    exact ⟨source', entry', hverified', hslug, hdn⟩
  · refine ⟨"", "", ?_⟩
    intro taken htaken result hout hgrantee
    exact absurd ⟨taken, htaken, result, hout, hgrantee⟩ hsome

/-! ## Two directories -/

/-- Bob's entry in another directory. -/
def bobEntry (id : String) : SearchEntry := ⟨"cn=bob,o=y", [("id", [id])]⟩

def bobSource (id : String) : LdapUserSource where
  cfg := { sampleSource.cfg with slug := "y", userSearchBase := "o=y" }
  server :=
    { connect := .ok ()
      simpleBind := fun dn password =>
        .ok ⟨if dn = "cn=svc,o=x" ∨ (dn = "cn=bob,o=y" ∧ password = "bp") then 0 else 49, ""⟩
      search := fun _ _ filter _ =>
        .ok (if filter = "(u=bob)" then [bobEntry id] else [], ⟨0, ""⟩) }

variable {base filter id : String} {scope : LdapScope}

/-- Each directory finds its one entry only. -/
private theorem sampleSource_entry {entry : SearchEntry}
    (h : sampleSource.firstEntry base scope filter = .ok (some entry)) :
    entry = sampleEntry := by
  obtain ⟨entries, result, hsearch, hmem⟩ := LdapUserSource.firstEntry_mem h
  simp only [sampleSource, sampleServer] at hsearch
  split at hsearch
  · cases hsearch
    exact List.mem_singleton.mp hmem
  · cases hsearch
    cases hmem

private theorem bobSource_entry {entry : SearchEntry}
    (h : (bobSource id).firstEntry base scope filter = .ok (some entry)) :
    entry = bobEntry id := by
  obtain ⟨entries, result, hsearch, hmem⟩ := LdapUserSource.firstEntry_mem h
  simp only [bobSource] at hsearch
  cases hsearch
  split at hmem
  · exact List.mem_singleton.mp hmem
  · cases hmem

/-- An id that is no DN is named by itself only. -/
private theorem eq_of_names {source : LdapUserSource} {entry : SearchEntry} {stableId : String}
    (hid : (source.record entry entry.dn).stableId = id)
    (hplain : LdapFilter.normalizedRdns .transparent id = none)
    (h : source.names .transparent entry stableId = true) : stableId = id := by
  rw [LdapUserSource.names, hid, LdapFilter.sameDn, hplain, Bool.or_false, beq_iff_eq] at h
  exact h.symm

/-- Ann signs in for the first time, then Bob, and then Ann again. -/
def annBobAnn : List LoginEvent :=
  let sources := [sampleSource, bobSource "8"]
  [.login { LoginAttempt.sample "ann" "pw" 0 with sources },
    .login { LoginAttempt.sample "bob" "bp" 1 with
      sources
      draws := fun _ => { FlowDraw.sample (seconds 1) with sessionId := 41, userId := 61 } },
    .login { LoginAttempt.sample "ann" "pw" 2 with
      sources
      draws := fun _ => { FlowDraw.sample (seconds 2) with sessionId := 42, userId := 62 } }]

private theorem annBobAnn_apart : StableIdsApart .transparent annBobAnn := by
  have hnamed : ∀ {source : LdapUserSource} {entry : SearchEntry} {stableId : String},
      Offered annBobAnn source entry → source.names .transparent entry stableId = true →
        source = sampleSource ∧ entry = sampleEntry ∧ stableId = "7" ∨
          source = bobSource "8" ∧ entry = bobEntry "8" ∧ stableId = "8" := by
    rintro source entry stableId ⟨attempt, hmem, hsource, base, scope, filter, hfirst⟩ hnames
    have hsources : source = sampleSource ∨ source = bobSource "8" := by
      simp only [annBobAnn, List.mem_cons, List.not_mem_nil, or_false,
        LoginEvent.login.injEq] at hmem
      rcases hmem with rfl | rfl | rfl <;> simpa using hsource
    rcases hsources with rfl | rfl
    · obtain rfl := sampleSource_entry hfirst
      exact .inl ⟨rfl, rfl, eq_of_names rfl (by decide +kernel) hnames⟩
    · obtain rfl := bobSource_entry hfirst
      exact .inr ⟨rfl, rfl, eq_of_names rfl (by decide +kernel) hnames⟩
  intro source entry source' entry' stableId hoffered hoffered' hnames hnames'
  rcases hnamed hoffered hnames with ⟨rfl, rfl, rfl⟩ | ⟨rfl, rfl, rfl⟩
  · rcases hnamed hoffered' hnames' with ⟨rfl, rfl, -⟩ | ⟨-, -, hid⟩
    · exact ⟨rfl, rfl⟩
    · exact absurd hid (by decide)
  · rcases hnamed hoffered' hnames' with ⟨-, -, hid⟩ | ⟨rfl, rfl, -⟩
    · exact absurd hid (by decide)
    · exact ⟨rfl, rfl⟩

/-- The row Ann gets. -/
private def annShadow : UserRow :=
  { plainUser 60 "ann" .user with
    source := .ldap, externalStableId := some "7", lastLoginAt := some (seconds 2) }

/-- Both sessions of Ann's row come from her entry, and Bob's is of a row of his own. -/
theorem shadow_account_one_entry_ofTwo :
    (loginTrace .transparent (.constant 7) 3600 Database.empty annBobAnn).map (fun taken =>
        taken.out.map fun result => (result.out.grantee, result.verified.map (·.2.dn))) =
      [some (some 60, some "cn=ann,o=x"), some (some 61, some "cn=bob,o=y"),
        some (some 60, some "cn=ann,o=x")] ∧
      ∃ slug dn, ∀ taken ∈ loginTrace .transparent (.constant 7) 3600 Database.empty annBobAnn,
        ∀ result, taken.out = some result → result.out.grantee = some 60 →
          ∃ source entry, result.verified = some (source, entry) ∧ source.cfg.slug = slug ∧
            entry.dn = dn := by
  have hkeeps : Machine.Guarded (loginStep .transparent (.constant 7) 3600)
      LoginEvent.KeepsIdentities Database.empty annBobAnn := ⟨trivial, trivial, trivial, trivial⟩
  have hrow : (Machine.run (loginStep .transparent (.constant 7) 3600) Database.empty
      annBobAnn).users.get? 60 = some annShadow := by decide +kernel
  exact ⟨by decide +kernel, shadow_account_one_entry hkeeps annBobAnn_apart hrow rfl⟩

/-- Ann signs in for the first time, and then Bob, whose entry has the same id. -/
def annThenBob : List LoginEvent :=
  let sources := [sampleSource, bobSource "7"]
  [.login { LoginAttempt.sample "ann" "pw" 0 with sources },
    .login { LoginAttempt.sample "bob" "bp" 1 with
      sources
      draws := fun _ => { FlowDraw.sample (seconds 1) with sessionId := 41, userId := 61 } }]

private theorem annThenBob_grants :
    ((loginTrace .transparent (.constant 7) 3600 Database.empty annThenBob).map fun taken =>
      taken.out.map fun result => (result.out.grantee, result.verified.map (·.2.dn))) =
    [some (some 60, some "cn=ann,o=x"), some (some 60, some "cn=bob,o=y")] := by
  decide +kernel

/-- Bob gets a session of Ann's account. -/
theorem shadow_account_shared :
    ¬ ∃ slug dn, ∀ taken ∈ loginTrace .transparent (.constant 7) 3600 Database.empty annThenBob,
      ∀ result, taken.out = some result → result.out.grantee = some 60 →
        ∃ source entry, result.verified = some (source, entry) ∧ source.cfg.slug = slug ∧
          entry.dn = dn := by
  rintro ⟨slug, dn, hone⟩
  have hdn : ∀ dn', some (some 60, some dn') ∈
      ((loginTrace .transparent (.constant 7) 3600 Database.empty annThenBob).map fun taken =>
        taken.out.map fun result => (result.out.grantee, result.verified.map (·.2.dn))) →
      dn' = dn := by
    intro dn' hmem
    obtain ⟨taken, htaken, hout⟩ := List.mem_map.mp hmem
    obtain ⟨result, hresult, hpair⟩ := Option.map_eq_some_iff.mp hout
    obtain ⟨hgrantee, hverified⟩ := Prod.mk.inj hpair
    obtain ⟨source, entry, hentry, -, rfl⟩ := hone taken htaken result hresult hgrantee
    rw [hentry] at hverified
    exact (Option.some.inj hverified).symm
  rw [annThenBob_grants] at hdn
  have hann := hdn "cn=ann,o=x" List.mem_cons_self
  have hbob := hdn "cn=bob,o=y" (List.mem_cons_of_mem _ List.mem_cons_self)
  exact absurd (hann.trans hbob.symm) (by decide)

end SuiId
