import SuiId.Core.Cascade
import SuiId.Store.Locks

/-!
# The lock on a directory account

A directory finds one entry under several names, and a shadow row stands for the
entry under one of them.  The lock and the count are on the path of that name:

* a call with the name of the row binds as the entry only while the row is not locked,
  and a bind that is rejected is counted there by U22;
* a call with any other name of the entry goes through the cascade, which reads neither.

`OwnName` excludes the second kind, and sources that share an entry: the loop over
the sources counts once however many of them reject.
-/

namespace SuiId

open Lib Lib.Result

/-! ## What a call is held to -/

/-- The row stands for the entry. -/
def LdapUserSource.shadows (P : Primitives) (source : LdapUserSource) (entry : SearchEntry)
    (u : UserRow) : Bool :=
  u.source == .ldap && u.externalStableId.any (source.names P entry)

/-- A bind as the entry of this row. -/
def BindAttempt.shadows (P : Primitives) (bind : BindAttempt) (u : UserRow) : Bool :=
  bind.source.shadows P bind.entry u

/-- How many binds as the entry of the row the sources rejected. -/
def LoginResult.rejections (P : Primitives) (result : LoginResult) (u : UserRow) : Nat :=
  result.binds.countP fun bind => bind.outcome == .rejected && bind.shadows P u

/-- No bind as the entry of a locked row, and every rejected one is counted. -/
structure LockCovers (P : Primitives) (db : Database) (attempt : LoginAttempt)
    (result : LoginResult) : Prop where
  unlocked : ∀ bind ∈ result.binds, ∀ u ∈ db.users, bind.shadows P u = true →
    ∀ t, attempt.now ≤ t → Users.lockedAt u t = false
  counted : ∀ u ∈ db.users, 0 < result.rejections P u →
    ∃ u', result.db.users.get? u.id = some u' ∧
      u'.failedLoginCount = u.failedLoginCount + result.rejections P u

/-- Does the source find an entry with the id? -/
def LdapUserSource.finds (P : Primitives) (stableId : String) (source : LdapUserSource) : Bool :=
  match source.findByStableId P stableId with
  | .ok (some _) => true
  | _ => false

/-- The failure count is a number of its column. -/
def UserRow.CountFits (u : UserRow) : Prop := 0 ≤ u.failedLoginCount ∧ u.failedLoginCount < 2 ^ 63

/-- A name without a row finds no entry of another row.  The entry of a row is found
by one source, and is of no other row. -/
def OwnName (P : Primitives) (db : Database) (attempt : LoginAttempt) : Prop :=
  match Users.findByUsername db attempt.username with
  | none => ∀ source ∈ attempt.sources, ∀ entry,
      source.findByUsername attempt.username = .ok (some entry) →
        ∀ u ∈ db.users, source.shadows P entry u = false
  | some user => ∀ stableId, user.source = .ldap → user.externalStableId = some stableId →
      user.CountFits ∧ attempt.sources.countP (LdapUserSource.finds P stableId) ≤ 1 ∧
        ∀ source ∈ attempt.sources, ∀ entry, source.findByStableId P stableId = .ok (some entry) →
          ∀ u ∈ db.users, source.shadows P entry u = true → u = user

/-- The condition on the calls of a run. -/
def LoginEvent.OwnName (P : Primitives) (db : Database) : LoginEvent → Prop
  | .login attempt => SuiId.OwnName P db attempt
  | .elsewhere _ => True

/-! ## The binds of a source -/

section Binds

variable {P : Primitives} {source : LdapUserSource} {password : String}
variable {bind : BindAttempt}

/-- An answer binds as one entry at most. -/
theorem bindEntry_binds {entry : SearchEntry} {record : ExternalUserRecord}
    (h : bind ∈ (source.bindEntry entry record password).binds source) :
    bind.source = source ∧ bind.entry = entry := by
  unfold LdapUserSource.bindEntry at h
  split at h
  · rw [List.mem_singleton.mp h]
    exact ⟨rfl, rfl⟩
  · rw [List.mem_singleton.mp h]
    exact ⟨rfl, rfl⟩
  · rw [List.mem_singleton.mp h]
    exact ⟨rfl, rfl⟩

theorem authenticate_binds {username : String}
    (h : bind ∈ (source.authenticate username password).binds source) :
    bind.source = source ∧ source.findByUsername username = .ok (some bind.entry) := by
  unfold LdapUserSource.authenticate at h
  split at h
  · cases h
  · cases h
  · rename_i entry hfound
    obtain ⟨hsource, hentry⟩ := bindEntry_binds h
    rw [hentry]
    exact ⟨hsource, hfound⟩

variable {stableId : String}

theorem authenticateStableId_binds
    (h : bind ∈ (source.authenticateStableId P stableId password).binds source) :
    bind.source = source ∧ source.findByStableId P stableId = .ok (some bind.entry) := by
  unfold LdapUserSource.authenticateStableId at h
  split at h
  · cases h
  · split at h
    · cases h
    · cases h
  · rename_i entry hfound
    obtain ⟨hsource, hentry⟩ := bindEntry_binds h
    rw [hentry]
    exact ⟨hsource, hfound⟩

/-- A source that finds nothing answers without a bind, and nobody is
authenticated. -/
theorem authenticateStableId_misses (h : source.finds P stableId = false) (password : String) :
    source.authenticateStableId P stableId password = .refused none ∨
      ∃ e, source.authenticateStableId P stableId password = .failed e none := by
  unfold LdapUserSource.finds at h
  unfold LdapUserSource.authenticateStableId
  split
  · exact .inr ⟨_, rfl⟩
  · split
    · exact .inr ⟨_, rfl⟩
    · exact .inl rfl
  · rename_i entry hfound
    rw [hfound] at h
    cases h

/-- The binds of one answer: none, or one. -/
theorem SourceAnswer.length_binds_le (answer : SourceAnswer) :
    (answer.binds source).length ≤ 1 := by
  cases answer with
  | authenticated record entry => exact Nat.le_refl 1
  | refused entry | failed error entry =>
    cases entry with
    | none => exact Nat.zero_le 1
    | some entry => exact Nat.le_refl 1

end Binds

/-! ## The binds of the loops -/

section Loops

variable {P : Primitives} {password : String}
variable {sources : List LdapUserSource} {bind : BindAttempt}

theorem cascadeSources_binds {username : String}
    (h : bind ∈ (cascadeSources username password sources).binds) :
    bind.source ∈ sources ∧ bind.source.findByUsername username = .ok (some bind.entry) := by
  induction sources with
  | nil => cases h
  | cons source rest ih =>
    have hfirst : bind ∈ (source.authenticate username password).binds source →
        bind.source ∈ source :: rest ∧
          bind.source.findByUsername username = .ok (some bind.entry) := by
      intro hbind
      obtain ⟨hsource, hfound⟩ := authenticate_binds hbind
      rw [hsource]
      exact ⟨List.mem_cons_self, hfound⟩
    simp only [cascadeSources_cons] at h
    split at h
    · exact hfirst h
    · rcases List.mem_append.mp h with h | h
      · exact hfirst h
      · exact ⟨List.mem_cons_of_mem _ (ih h).1, (ih h).2⟩

variable {stableId : String} {answered : Bool}

theorem askSources_binds (h : bind ∈ (askSources P stableId password answered sources).binds) :
    bind.source ∈ sources ∧ bind.source.findByStableId P stableId = .ok (some bind.entry) := by
  induction sources generalizing answered with
  | nil => cases h
  | cons source rest ih =>
    have hfirst : bind ∈ (source.authenticateStableId P stableId password).binds source →
        bind.source ∈ source :: rest ∧
          bind.source.findByStableId P stableId = .ok (some bind.entry) := by
      intro hbind
      obtain ⟨hsource, hfound⟩ := authenticateStableId_binds hbind
      rw [hsource]
      exact ⟨List.mem_cons_self, hfound⟩
    have hrest : ∀ {answered : Bool},
        bind ∈ (askSources P stableId password answered rest).binds →
          bind.source ∈ source :: rest ∧
            bind.source.findByStableId P stableId = .ok (some bind.entry) := by
      intro answered hbind
      exact ⟨List.mem_cons_of_mem _ (ih hbind).1, (ih hbind).2⟩
    simp only [askSources_cons] at h
    split at h
    · split at h
      · exact hfirst h
      · exact hfirst h
    · rcases List.mem_append.mp h with h | h
      · exact hfirst h
      · exact hrest h
    · rcases List.mem_append.mp h with h | h
      · exact hfirst h
      · exact hrest h

/-- Sources that find nothing leave the loop without a bind. -/
theorem askSources_missed {stableId : String} {answered : Bool} {sources : List LdapUserSource}
    (h : sources.countP (LdapUserSource.finds P stableId) = 0) :
    (askSources P stableId password answered sources).binds = [] ∧
      ∃ answered', (askSources P stableId password answered sources).verdict =
        .unmatched answered' ∧ (answered = true → answered' = true) := by
  induction sources generalizing answered with
  | nil => exact ⟨rfl, answered, rfl, id⟩
  | cons source rest ih =>
    have hsource : source.finds P stableId = false := by
      rw [List.countP_eq_zero] at h
      simpa using h source List.mem_cons_self
    have hrest : rest.countP (LdapUserSource.finds P stableId) = 0 := by
      rw [List.countP_cons_of_neg (by simp [hsource])] at h
      exact h
    rcases authenticateStableId_misses hsource password with hmiss | ⟨e, hmiss⟩
    · obtain ⟨hbinds, answered', hverdict, hkept⟩ := @ih true hrest
      simp only [askSources_cons, hmiss]
      exact ⟨by simpa [SourcesAsked.after, SourceAnswer.binds] using hbinds, answered', hverdict,
        fun _ => hkept rfl⟩
    · obtain ⟨hbinds, answered', hverdict, hkept⟩ := @ih answered hrest
      simp only [askSources_cons, hmiss]
      exact ⟨by simpa [SourcesAsked.after, SourceAnswer.binds] using hbinds, answered', hverdict,
        hkept⟩

/-- When one source at most finds the entry, a rejected bind is the only one, and the
loop ends with an answer. -/
theorem askSources_rejected (hone : sources.countP (LdapUserSource.finds P stableId) ≤ 1)
    (hmem : bind ∈ (askSources P stableId password answered sources).binds)
    (hrejected : bind.outcome = .rejected) :
    (askSources P stableId password answered sources).verdict = .unmatched true ∧
      (askSources P stableId password answered sources).binds.length = 1 := by
  induction sources generalizing answered with
  | nil => cases hmem
  | cons source rest ih =>
    cases hfinds : source.finds P stableId with
    | true =>
      have hrest : rest.countP (LdapUserSource.finds P stableId) = 0 := by
        rw [List.countP_cons_of_pos hfinds] at hone
        omega
      cases hanswer : source.authenticateStableId P stableId password with
      | authenticated record entry =>
        have haccepted : bind = ⟨source, entry, .accepted⟩ := by
          simp only [askSources_cons, hanswer] at hmem
          split at hmem
          · exact List.mem_singleton.mp hmem
          · exact List.mem_singleton.mp hmem
        rw [haccepted] at hrejected
        cases hrejected
      | refused entry =>
        obtain ⟨hbinds, answered', hverdict, hkept⟩ :=
          @askSources_missed P password stableId true rest hrest
        simp only [askSources_cons, hanswer, SourcesAsked.after, hbinds, List.append_nil] at hmem ⊢
        have hpos : 0 < ((SourceAnswer.refused entry).binds source).length :=
          List.length_pos_of_mem hmem
        have hle := @SourceAnswer.length_binds_le source (.refused entry)
        rw [hverdict, hkept rfl]
        exact ⟨rfl, by omega⟩
      | failed error entry =>
        obtain ⟨hbinds, -⟩ := @askSources_missed P password stableId answered rest hrest
        simp only [askSources_cons, hanswer, SourcesAsked.after, hbinds, List.append_nil,
          SourceAnswer.binds, List.mem_map] at hmem
        obtain ⟨entry, -, rfl⟩ := hmem
        cases hrejected
    | false =>
      have hrest : rest.countP (LdapUserSource.finds P stableId) ≤ 1 := by
        rw [List.countP_cons_of_neg (by simp [hfinds])] at hone
        exact hone
      rcases authenticateStableId_misses hfinds password with hmiss | ⟨e, hmiss⟩
      · simp only [askSources_cons, hmiss, SourcesAsked.after, SourceAnswer.binds,
          Option.toList_none,
          List.map_nil, List.nil_append] at hmem ⊢
        exact ih hrest hmem
      · simp only [askSources_cons, hmiss, SourcesAsked.after, SourceAnswer.binds,
          Option.toList_none,
          List.map_nil, List.nil_append] at hmem ⊢
        exact ih hrest hmem

end Loops

/-! ## A call -/

section Call

variable {P : Primitives} {key : MasterKey} {maxLockoutSecs : Int} {db : Database}
  {attempt : LoginAttempt}
variable {result : LoginResult} {asked : SourcesAsked DirectoryVerdict}

/-- A call without a bind as the entry of a row has nothing to answer for. -/
theorem LockCovers.of_foreign
    (h : ∀ bind ∈ result.binds, ∀ u ∈ db.users, bind.shadows P u = false) :
    LockCovers P db attempt result where
  unlocked := by
    intro bind hbind u hu hshadows
    rw [h bind hbind u hu] at hshadows
    cases hshadows
  counted := by
    intro u hu hrejections
    obtain ⟨bind, hbind, hrejected⟩ := List.countP_pos_iff.mp hrejections
    rw [h bind hbind u hu, Bool.and_false] at hrejected
    cases hrejected

theorem LockCovers.of_no_bind (h : result.binds = []) :
    LockCovers P db attempt result := by
  apply LockCovers.of_foreign
  intro bind hbind
  rw [h] at hbind
  cases hbind

/-- The binds of the local path are those of the cascade. -/
theorem localThenCascade_binds {known : Bool} {bind : BindAttempt}
    (h : bind ∈ (localThenCascade P key maxLockoutSecs db attempt known).binds) :
    known = false ∧ bind ∈ (cascadeSources attempt.username attempt.password
      attempt.sources).binds := by
  simp only [localThenCascade] at h
  split at h
  · split at h
    · cases h
    · rename_i hknown
      simp only [Bool.or_eq_true, not_or, Bool.not_eq_true] at hknown
      simp only [cascade] at h
      split at h
      · exact ⟨hknown.1, h⟩
      · exact ⟨hknown.1, h⟩
  · cases h

variable {user : UserRow}

theorem concludeDirectory_binds :
    (concludeDirectory P key maxLockoutSecs db attempt user asked).binds = asked.binds := by
  unfold concludeDirectory
  split
  · rfl
  · rfl
  · rfl
  · split
    · rfl
    · rfl

/-- An answer that authenticates nobody is counted on the row. -/
theorem concludeDirectory_counted (hmax : 0 ≤ maxLockoutSecs)
    (hget : db.users.get? user.id = some user) (hfits : user.CountFits)
    (hverdict : asked.verdict = .unmatched true) :
    ∃ u', (concludeDirectory P key maxLockoutSecs db attempt user asked).db.users.get? user.id =
      some u' ∧ u'.failedLoginCount = user.failedLoginCount + 1 := by
  obtain ⟨count, db', hcommit⟩ :=
    recordLoginFailure_commits hmax (lockOf_eq_some.mpr ⟨user, hget, rfl⟩) hfits
      (attempt.draws 1).now
  obtain ⟨u', hu', hcount⟩ := recordLoginFailure_count hcommit hget
  simp only [concludeDirectory, hverdict, hcommit]
  exact ⟨u', hu', hcount⟩

/-- A lock that has passed stays passed. -/
theorem lockedAt_later {u : UserRow} {now t : DateTime} (h : Users.lockedAt u now = false)
    (ht : now ≤ t) : Users.lockedAt u t = false := by
  unfold Users.lockedAt at h ⊢
  cases hlock : u.lockedUntil with
  | none => rfl
  | some until_ =>
    simp only [hlock, Option.any_some, decide_eq_false_iff_not, Int.not_lt] at h ⊢
    exact Int.le_trans h ht

/-- The path of the row's own name. -/
theorem directorySignIn_covers (hmax : 0 ≤ maxLockoutSecs)
    (hget : db.users.get? user.id = some user)
    (hown : ∀ stableId, user.externalStableId = some stableId →
      user.CountFits ∧ attempt.sources.countP (LdapUserSource.finds P stableId) ≤ 1 ∧
        ∀ source ∈ attempt.sources, ∀ entry, source.findByStableId P stableId = .ok (some entry) →
          ∀ u ∈ db.users, source.shadows P entry u = true → u = user) :
    LockCovers P db attempt (directorySignIn P key maxLockoutSecs db attempt user) := by
  unfold directorySignIn
  split
  · exact .of_no_bind rfl
  · rename_i hrefused
    split
    · exact .of_no_bind rfl
    · rename_i stableId hid
      obtain ⟨hfits, hone, hshadow⟩ := hown stableId hid
      have hmine : ∀ bind ∈ (askSources P stableId attempt.password false attempt.sources).binds,
          ∀ u ∈ db.users, bind.shadows P u = true → u = user := by
        intro bind hbind u hu hshadows
        obtain ⟨hsource, hfound⟩ := askSources_binds hbind
        exact hshadow bind.source hsource bind.entry hfound u hu hshadows
      have hunlocked : Users.lockedAt user attempt.now = false := by
        simp only [Bool.or_eq_true, not_or, Bool.not_eq_true] at hrefused
        exact hrefused.1.2
      refine ⟨?_, ?_⟩
      · intro bind hbind u hu hshadows t ht
        rw [concludeDirectory_binds] at hbind
        rw [hmine bind hbind u hu hshadows]
        exact lockedAt_later hunlocked ht
      · intro u hu hrejections
        have hle : (concludeDirectory P key maxLockoutSecs db attempt user
            (askSources P stableId attempt.password false attempt.sources)).rejections P u ≤
            (askSources P stableId attempt.password false attempt.sources).binds.length := by
          rw [LoginResult.rejections, concludeDirectory_binds]
          exact List.countP_le_length
        obtain ⟨bind, hbind, hrejected⟩ := List.countP_pos_iff.mp hrejections
        rw [concludeDirectory_binds] at hbind
        simp only [Bool.and_eq_true, beq_iff_eq] at hrejected
        obtain rfl := hmine bind hbind u hu hrejected.2
        obtain ⟨hverdict, hlength⟩ := askSources_rejected hone hbind hrejected.1
        have hrejections' : (concludeDirectory P key maxLockoutSecs db attempt u
            (askSources P stableId attempt.password false attempt.sources)).rejections P u = 1 := by
          omega
        rw [hrejections']
        exact concludeDirectory_counted hmax hget hfits hverdict

/-- A call under a name of its own is covered. -/
theorem tryLoginWithCascade_covers (hmax : 0 ≤ maxLockoutSecs) (hown : OwnName P db attempt) :
    LockCovers P db attempt (tryLoginWithCascade P key maxLockoutSecs db attempt) := by
  unfold OwnName at hown
  unfold tryLoginWithCascade
  split
  · rename_i user hfind
    rw [hfind] at hown
    have hget : db.users.get? user.id = some user := Table.get?_key (Table.mem_of_find? hfind).1
    split
    · rename_i hldap
      exact directorySignIn_covers hmax hget fun stableId hid =>
        hown stableId (beq_iff_eq.mp hldap) hid
    · apply LockCovers.of_foreign
      intro bind hbind
      cases (localThenCascade_binds hbind).1
  · rename_i hfind
    rw [hfind] at hown
    apply LockCovers.of_foreign
    intro bind hbind u hu
    obtain ⟨hsource, hfound⟩ := cascadeSources_binds (localThenCascade_binds hbind).2
    exact hown bind.source hsource bind.entry hfound u hu

end Call

/-! ## Runs -/

/-- In every run of calls under names of their own, with any writes of the rest of the
program between them, no call binds as the entry of a locked row, and each rejected bind
as the entry of a row is counted there. -/
theorem lock_covers_entries {P : Primitives} {key : MasterKey} {maxLockoutSecs : Int}
    (hmax : 0 ≤ maxLockoutSecs) {db : Database} {events : List LoginEvent}
    (hown : Machine.Guarded (loginStep P key maxLockoutSecs) (LoginEvent.OwnName P) db events)
    {taken : Machine.Taken Database LoginEvent (Option LoginResult)}
    (htaken : taken ∈ loginTrace P key maxLockoutSecs db events) {attempt : LoginAttempt}
    {result : LoginResult} (hevent : taken.event = .login attempt)
    (hout : taken.out = some result) : LockCovers P taken.pre attempt result := by
  obtain ⟨-, hguard, hstep⟩ :=
    Machine.trace_invariant (I := fun _ => True) (fun _ _ _ _ => trivial) hown trivial htaken
  rw [hevent] at hguard hstep
  rw [hout] at hstep
  cases hstep
  exact tryLoginWithCascade_covers hmax hguard

/-- Ann's name is her own. -/
private theorem annRow_ownName (password : String) (at_ : Int) :
    OwnName .transparent annDb (.sample "ann" password at_) := by
  have hfind : Users.findByUsername annDb (LoginAttempt.sample "ann" password at_).username =
      some annRow := by
    show Users.findByUsername annDb "ann" = some annRow
    decide +kernel
  unfold OwnName
  rw [hfind]
  intro stableId _ _
  refine ⟨⟨by decide, by decide⟩, List.countP_le_length, ?_⟩
  intro source _ entry _ u hu _
  exact List.mem_singleton.mp hu

/-- A wrong password for Ann is rejected and counted. -/
theorem lock_covers_entries_wrongPassword :
    (tryLoginWithCascade .transparent (.constant 7) 3600 annDb
      (.sample "ann" "no" 0)).rejections .transparent annRow = 1 ∧
    LockCovers .transparent annDb (.sample "ann" "no" 0)
      (tryLoginWithCascade .transparent (.constant 7) 3600 annDb (.sample "ann" "no" 0)) := by
  have hguarded : Machine.Guarded (loginStep .transparent (.constant 7) 3600)
      (LoginEvent.OwnName .transparent) annDb [.login (.sample "ann" "no" 0)] :=
    ⟨annRow_ownName "no" 0, trivial⟩
  refine ⟨by decide +kernel, ?_⟩
  exact lock_covers_entries (by decide) hguarded (List.mem_singleton_self _) rfl rfl

/-- Three wrong passwords for Ann, and a fourth under the other spelling. -/
def guessesAtAnn : List LoginEvent :=
  [.login (.sample "ann" "no" 0), .login (.sample "ann" "no" 0), .login (.sample "ann" "no" 0),
    .login (.sample "Ann" "no" 1)]

/-- The database after the first three. -/
def annLockedDb : Database :=
  Machine.run (loginStep .transparent (.constant 7) 3600) annDb (guessesAtAnn.take 3)

/-- The row is locked by then, and the bind under the other spelling is as its entry. -/
private theorem annLockedDb_bound :
    (annLockedDb.users.rows.any fun u =>
      Users.lockedAt u (seconds 1) &&
        (tryLoginWithCascade .transparent (.constant 7) 3600 annLockedDb
          (.sample "Ann" "no" 1)).binds.any (·.shadows .transparent u)) = true := by
  decide +kernel

/-- The fourth guess reaches the directory although the row is locked. -/
theorem other_spelling_uncovered :
    ∃ taken ∈ loginTrace .transparent (.constant 7) 3600 annDb guessesAtAnn,
      ∃ attempt result, taken.event = .login attempt ∧ taken.out = some result ∧
        ¬ LockCovers .transparent taken.pre attempt result := by
  refine ⟨⟨annLockedDb, .login (.sample "Ann" "no" 1), some
    (tryLoginWithCascade .transparent (.constant 7) 3600 annLockedDb (.sample "Ann" "no" 1))⟩,
    ?_, _, _, rfl, rfl, ?_⟩
  · exact List.mem_cons_of_mem _ (List.mem_cons_of_mem _ (List.mem_cons_of_mem _
      (List.mem_singleton_self _)))
  · intro hcovers
    obtain ⟨u, hu, hlocked⟩ := List.any_eq_true.mp annLockedDb_bound
    rw [Bool.and_eq_true, List.any_eq_true] at hlocked
    obtain ⟨hlocked, bind, hbind, hshadows⟩ := hlocked
    have hunlocked := hcovers.unlocked bind hbind u hu hshadows (seconds 1) (Int.le_refl _)
    rw [hlocked] at hunlocked
    cases hunlocked

end SuiId
