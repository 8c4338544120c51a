import Mathlib.Algebra.Order.Group.Int
import SuiId.Lib.FixedWindow
import SuiId.Proofs.RecoveryCapture
import SuiId.Store.ResetTokens

/-!
# The throttle of recovery links

U37 counts, in its transaction, the links of the same issuer and kind that are younger than an
hour, and refuses at the ceiling.  A row is never deleted and keeps its issuer, its kind and the
time it was issued at, so the rows of the table are at least the links issued in the run
(`OnTable`), and what U37 looks back on bounds every window (`Throttled.window`).

A link is a provisioning link only if the account has no row in the table.  Its insertion ends
that, so an account gets one at most.
-/

namespace SuiId

open Lib Lib.Result

/-! ## Issued links -/

/-- Who issues a link with U37. -/
inductive LinkIssuer where
  | administrator (admin : UserId)
  | operator
deriving DecidableEq

structure IssuedLink where
  issuer : LinkIssuer
  user : UserId
  provisioning : Bool
  time : DateTime

/-- The kind of a link that is issued for the account now. -/
def provisioningNow (db : Database) (target : UserId) : Bool :=
  match Users.recoveryTarget db target with
  | .ok t => isProvisioning t
  | .error _ => false

/-- The link that a command asks for. -/
def AccountCommand.requested (db : Database) : AccountCommand → Option IssuedLink
  | .issueRecoveryLinkAsAdmin admin _ target _ _ _ _ now =>
    some ⟨.administrator admin, target, provisioningNow db target, now⟩
  | .issueRecoveryLinkAsOperator target _ _ _ _ now =>
    some ⟨.operator, target, provisioningNow db target, now⟩
  | _ => none

/-- The link that a step has issued. -/
def issuing (x : AccountTaken) : Option IssuedLink :=
  match x.out with
  | .ok () => x.event.requested x.pre
  | .error _ => none

/-- The links of an issuer and a kind. -/
def IssuedLink.isOf (issuer : LinkIssuer) (provisioning : Bool) (l : IssuedLink) : Bool :=
  l.issuer == issuer && l.provisioning == provisioning

/-- When the links of an issuer and a kind were issued, in the order of the run. -/
def issuedTimes (issuer : LinkIssuer) (provisioning : Bool) (steps : List AccountTaken) :
    List DateTime :=
  ((steps.filterMap issuing).filter (·.isOf issuer provisioning)).map (·.time)

/-- The row is a link of that issuer and kind. -/
def issuedRow (issuer : LinkIssuer) (provisioning : Bool) (t : PasswordResetTokenRow) : Bool :=
  (match issuer with
    | .administrator admin => t.issuedBy == some admin && t.issuedVia == .web
    | .operator => t.issuedVia == .cli) && t.provisioning == provisioning

/-! ## What a command writes -/

section Commands

variable {P : Primitives} {key : MasterKey} {rfc3339 : DateTime → String} {db db' : Database}

/-- U37 for a link of that issuer, kind and time. -/
def U37Issued (db db' : Database) (l : IssuedLink) : Prop :=
  ∃ row : PasswordResetTokenRow, row.userId = l.user ∧
    issuedRow l.issuer l.provisioning row = true ∧ row.issuedAt = l.time ∧
    (LinkWrite.reissue row l.time).Writes db.passwordResetTokens db'.passwordResetTokens ∧
    (db.passwordResetTokens.count fun t =>
      issuedRow l.issuer l.provisioning t && decide (l.time - seconds 3600 < t.issuedAt)) <
        linkCeiling l.provisioning

/-- A command issues the link it asks for, or it asks for none. -/
inductive CommandLinks (db db' : Database) : Option IssuedLink → Prop where
  | issued (l : IssuedLink) (h : U37Issued db db' l) : CommandLinks db db' (some l)
  | same (h : db'.passwordResetTokens = db.passwordResetTokens) : CommandLinks db db' none
  | other (write : LinkWrite)
      (hwrites : write.Writes db.passwordResetTokens db'.passwordResetTokens) :
      CommandLinks db db' none

private theorem provisioningNow_of_reads {target : UserId} {t : Users.RecoveryTarget}
    (h : Users.recoveryTarget db target = .ok t) :
    provisioningNow db target = isProvisioning t := by
  rw [provisioningNow, h]

theorem command_links {command : AccountCommand} (h : command.perform P key rfc3339 db = .ok db') :
    CommandLinks db db' (command.requested db) := by
  cases command with
  | signIn transaction =>
    obtain ⟨⟨returned, db₁⟩, hperform, rfl⟩ := map_eq_ok.mp h
    exact .same (transaction_life hperform).2
  | completeInitialSetup user cred signingKey authorizedBy now =>
    obtain ⟨⟨value, db₁⟩, hcommit, rfl⟩ := map_eq_ok.mp h
    exact .same (completeInitialSetup_effect hcommit).resetTokens
  | createUser admin user =>
    obtain ⟨⟨value, db₁⟩, hcommit, rfl⟩ := map_eq_ok.mp h
    obtain ⟨db₂, log, hcreate, rfl⟩ := createUser_ok hcommit
    obtain ⟨-, users, -, -, rfl⟩ := Users.create_kept hcreate
    exact .same rfl
  | changeUserRole admin target newRole =>
    obtain ⟨⟨value, db₁⟩, hcommit, rfl⟩ := map_eq_ok.mp h
    obtain ⟨-, db₂, log, -, -, hset, rfl⟩ := changeUserRole_ok hcommit
    obtain ⟨-, rfl⟩ := Users.updateWhere_ok hset
    exact .same rfl
  | enableUser admin session target now =>
    obtain ⟨⟨value, db₁⟩, hcommit, rfl⟩ := map_eq_ok.mp h
    obtain ⟨db₂, log, hset, rfl⟩ := enableUser_ok hcommit
    obtain ⟨-, rfl⟩ := Users.updateWhere_ok hset
    exact .same rfl
  | disableUser admin session target reason now =>
    obtain ⟨⟨value, db₁⟩, hcommit, rfl⟩ := map_eq_ok.mp h
    exact .other (.supersede target now) (disableUser_writes hcommit)
  | deleteUser admin session target reason now =>
    obtain ⟨⟨value, db₁⟩, hcommit, rfl⟩ := map_eq_ok.mp h
    exact .other (.supersede target now) (deleteUser_writes hcommit)
  | requestReset email requesterIp tokenId bytes now =>
    simp only [AccountCommand.perform, requestReset] at h
    split at h
    · cases h
      exact .same rfl
    · exact .other (.issue _) (PasswordResetTokens.insertWith_writes h)
  | consumeAndResetPassword user token credential consumedAt hibpWarned =>
    obtain ⟨⟨value, db₁⟩, hcommit, rfl⟩ := map_eq_ok.mp h
    exact .other (.complete token user consumedAt)
      (consumeAndResetPassword_writes hcommit).1
  | changePasswordSelf user credential keepCurrentSession revokeOthers now =>
    obtain ⟨⟨value, db₁⟩, hcommit, rfl⟩ := map_eq_ok.mp h
    exact .other (.supersede user now) (changePasswordSelf_writes hcommit)
  | issueRecoveryLinkAsAdmin admin session target tokenId tokenHash reason expiresAt now =>
    obtain ⟨⟨value, db₁⟩, hcommit, rfl⟩ := map_eq_ok.mp h
    obtain ⟨row, rfl, hvia, hby, ⟨t, hreads, hkind⟩, hceiling, hwrites, htime⟩ :=
      issueRecoveryLinkAsAdmin_issued hcommit
    rw [← provisioningNow_of_reads hreads] at hkind
    rw [hkind] at hceiling
    refine .issued _ ⟨row, rfl, ?_, htime, hwrites, ?_⟩
    · simp [issuedRow, hvia, hby, hkind]
    · refine lt_of_le_of_lt (Nat.le_of_eq ?_) hceiling
      simp only [PasswordResetTokens.countIssuedBy, issuedRow]
      congr 1
      funext t
      grind
  | issueRecoveryLinkAsOperator target tokenId tokenHash reason expiresAt now =>
    obtain ⟨⟨value, db₁⟩, hcommit, rfl⟩ := map_eq_ok.mp h
    obtain ⟨row, rfl, hvia, hby, ⟨t, hreads, hkind⟩, hceiling, hwrites, htime⟩ :=
      issueRecoveryLinkAsOperator_issued hcommit
    rw [← provisioningNow_of_reads hreads] at hkind
    rw [hkind] at hceiling
    refine .issued _ ⟨row, rfl, ?_, htime, hwrites, ?_⟩
    · simp [issuedRow, hvia, hkind]
    · refine lt_of_le_of_lt (Nat.le_of_eq ?_) hceiling
      simp only [PasswordResetTokens.countIssuedViaCli, issuedRow]
      congr 1
      funext t
      grind

end Commands

/-! ## A provisioning link -/

/-- What makes the next link of an account a provisioning one. -/
theorem provisioningNow_iff {db : Database} {user : UserId} :
    provisioningNow db user = true ↔
      ∃ u, db.users.get? user = some u ∧ u.source = .localDb ∧ u.role ≠ .admin ∧
        u.lastLoginAt = none ∧ ¬ HasCredential db user ∧
        ∀ t ∈ db.passwordResetTokens, t.userId ≠ user := by
  rw [provisioningNow]
  cases hget : db.users.get? user with
  | none => simp [Users.recoveryTarget, hget, require, bind, Except.bind]
  | some u =>
    have hrole : u.role.isAdmin = false ↔ u.role ≠ .admin := by cases u.role <;> simp [Role.isAdmin]
    have hlinks : (db.passwordResetTokens.find? fun t => t.userId == user).isSome = false ↔
        ∀ t ∈ db.passwordResetTokens, t.userId ≠ user := by
      rw [Option.isSome_eq_false_iff, Option.isNone_iff_eq_none, Table.find?_eq_none]
      simp only [beq_eq_false_iff_ne]
    simp only [Users.recoveryTarget, hget, require, bind, Except.bind, pure, Except.pure,
      isProvisioning, Bool.and_eq_true, beq_iff_eq, Bool.not_eq_true', hrole, hlinks,
      Option.isNone_iff_eq_none, Option.some.injEq, HasCredential, exists_eq_left']
    constructor
    · rintro ⟨⟨⟨hsource, hnotAdmin⟩, hcredential, hlogin⟩, hnone⟩
      exact ⟨hsource, hnotAdmin, hlogin, by simp [hcredential], hnone⟩
    · rintro ⟨hsource, hnotAdmin, hlogin, hcredential, hnone⟩
      exact ⟨⟨⟨hsource, hnotAdmin⟩, by simpa using hcredential, hlogin⟩, hnone⟩

/-- The kind of an issued link is the one that its account has when it is issued. -/
theorem issuing_kind {x : AccountTaken} {l : IssuedLink} (h : issuing x = some l) :
    x.out = .ok () ∧ x.event.requested x.pre = some l ∧
      l.provisioning = provisioningNow x.pre l.user := by
  unfold issuing at h
  split at h
  · rename_i hout
    refine ⟨hout, h, ?_⟩
    unfold AccountCommand.requested at h
    split at h
    · cases h
      rfl
    · cases h
      rfl
    · cases h
  · cases h

/-! ## Over a run -/

section Run

variable (P : Primitives) (key : MasterKey) (rfc3339 : DateTime → String)
variable {x : AccountTaken} {user : UserId}
variable {issuer : LinkIssuer} {provisioning : Bool} {l : IssuedLink}

theorem issuedTimes_snoc {past : List AccountTaken} :
    issuedTimes issuer provisioning (past ++ [x]) = issuedTimes issuer provisioning past ++
      (((issuing x).filter (·.isOf issuer provisioning)).map (·.time)).toList := by
  simp only [issuedTimes, List.filterMap_append, List.filter_append, List.map_append]
  congr 1
  cases hissuing : issuing x with
  | none => simp [hissuing]
  | some l =>
    rw [List.filterMap_cons_some hissuing, List.filterMap_nil, Option.filter_some]
    cases hof : l.isOf issuer provisioning <;> simp [hof]

/-- The links issued so far are among the rows, and each was let through by the throttle. -/
structure LinksThrottled (past : List AccountTaken) (db : Database) : Prop where
  onTable : ∀ issuer provisioning (q : DateTime → Bool),
    (issuedTimes issuer provisioning past).countP q ≤
      db.passwordResetTokens.count fun t => issuedRow issuer provisioning t && q t.issuedAt
  throttled : ∀ issuer provisioning,
    Throttled (linkCeiling provisioning) (seconds 3600) (issuedTimes issuer provisioning past)

variable {P key rfc3339} {past : List AccountTaken} {db : Database} {command : AccountCommand}

/-- A write leaves the rows of an issuer, and adds its own. -/
private theorem count_writes {db' : Database} {write : LinkWrite} {q : DateTime → Bool}
    (hwrites : write.Writes db.passwordResetTokens db'.passwordResetTokens) :
    (db'.passwordResetTokens.count fun t => issuedRow issuer provisioning t && q t.issuedAt) =
      (db.passwordResetTokens.count fun t => issuedRow issuer provisioning t && q t.issuedAt) +
        (if write.inserted.any fun t => issuedRow issuer provisioning t && q t.issuedAt
          then 1 else 0) :=
  hwrites.count (fun _ _ => rfl) fun _ _ => rfl

/-- A step that issues no link. -/
private theorem LinksThrottled.quiet {db' : Database} (h : LinksThrottled past db)
    (hx : issuing x = none)
    (hrows : ∀ issuer provisioning (q : DateTime → Bool),
      (db.passwordResetTokens.count fun t => issuedRow issuer provisioning t && q t.issuedAt) ≤
        db'.passwordResetTokens.count fun t => issuedRow issuer provisioning t && q t.issuedAt) :
    LinksThrottled (past ++ [x]) db' := by
  have htimes : ∀ issuer provisioning,
      issuedTimes issuer provisioning (past ++ [x]) = issuedTimes issuer provisioning past := by
    intro issuer provisioning
    rw [issuedTimes_snoc, hx, Option.filter_none, Option.map_none, Option.toList_none,
      List.append_nil]
  refine ⟨fun issuer provisioning q => ?_, fun issuer provisioning => ?_⟩
  · rw [htimes]
    exact Nat.le_trans (h.onTable issuer provisioning q) (hrows issuer provisioning q)
  · rw [htimes]
    exact h.throttled issuer provisioning

/-- A step that issues a link. -/
private theorem LinksThrottled.issue {db' : Database} (h : LinksThrottled past db)
    (hx : issuing x = some l) (hl : U37Issued db db' l) :
    LinksThrottled (past ++ [x]) db' := by
  obtain ⟨row, -, hrow, htime, hwrites, hceiling⟩ := hl
  refine ⟨fun issuer provisioning q => ?_, fun issuer provisioning => ?_⟩
  · rw [issuedTimes_snoc, hx, Option.filter_some, List.countP_append, count_writes hwrites,
      LinkWrite.inserted, Option.any_some, htime]
    have hbefore := h.onTable issuer provisioning q
    split
    · rename_i hof
      simp only [IssuedLink.isOf, Bool.and_eq_true, beq_iff_eq] at hof
      obtain ⟨rfl, rfl⟩ := hof
      rw [Option.map_some, Option.toList_some, List.countP_singleton, hrow, Bool.true_and]
      omega
    · rw [Option.map_none, Option.toList_none, List.countP_nil]
      omega
  · rw [issuedTimes_snoc, hx, Option.filter_some]
    split
    · rename_i hof
      simp only [IssuedLink.isOf, Bool.and_eq_true, beq_iff_eq] at hof
      obtain ⟨rfl, rfl⟩ := hof
      exact .snoc _ _ (h.throttled _ _) (lt_of_le_of_lt (h.onTable _ _ _) hceiling)
    · rw [Option.map_none, Option.toList_none, List.append_nil]
      exact h.throttled issuer provisioning

theorem linksThrottled_step (h : LinksThrottled past db) :
    LinksThrottled (past ++ [⟨db, command, (accountStep P key rfc3339 db command).2⟩])
      (accountStep P key rfc3339 db command).1 := by
  rcases accountStep_cases P key rfc3339 db command with ⟨db', hperform, heq⟩ | ⟨e, heq⟩
  · rw [heq]
    have hlinks := command_links hperform
    generalize hx : command.requested db = requested at hlinks
    cases hlinks with
    | issued l hl => exact h.issue hx hl
    | same hsame =>
      refine h.quiet hx fun issuer provisioning q => ?_
      rw [hsame]
    | other write hwrites =>
      refine h.quiet hx fun issuer provisioning q => ?_
      rw [count_writes hwrites]
      exact Nat.le_add_right _ _
  · rw [heq]
    exact h.quiet rfl fun _ _ _ => Nat.le_refl _

theorem hasCredential_step (h : HasCredential db user) :
    HasCredential (accountStep P key rfc3339 db command).1 user :=
  (accountStep_life db command).credentials user h

/-- The account has had a link of some kind. -/
def HasLink (db : Database) (user : UserId) : Prop := ∃ t ∈ db.passwordResetTokens, t.userId = user

theorem hasLink_step (h : HasLink db user) :
    HasLink (accountStep P key rfc3339 db command).1 user := by
  obtain ⟨t, ht, huser⟩ := h
  have hkept : ∀ {db' : Database} {write : LinkWrite},
      write.Writes db.passwordResetTokens db'.passwordResetTokens → HasLink db' user := by
    intro db' write hwrites
    obtain ⟨t', hget, hkept, -⟩ := hwrites.row (Table.get?_key ht)
    exact ⟨t', (Table.get?_eq_some.mp hget).1, hkept.userId.trans huser⟩
  rcases accountStep_cases P key rfc3339 db command with ⟨db', hperform, heq⟩ | ⟨e, heq⟩
  · rw [heq]
    have hlinks := command_links hperform
    generalize command.requested db = requested at hlinks
    cases hlinks with
    | issued l hl =>
      obtain ⟨row, -, -, -, hwrites, -⟩ := hl
      exact hkept hwrites
    | same hsame =>
      refine ⟨t, ?_, huser⟩
      dsimp only
      rw [hsame]
      exact ht
    | other write hwrites => exact hkept hwrites
  · rw [heq]
    exact ⟨t, ht, huser⟩

/-- An issued link is one of its account. -/
theorem hasLink_of_issuing
    (h : issuing ⟨db, command, (accountStep P key rfc3339 db command).2⟩ = some l) :
    HasLink (accountStep P key rfc3339 db command).1 l.user := by
  obtain ⟨hout, hrequested, -⟩ := issuing_kind h
  rcases accountStep_cases P key rfc3339 db command with ⟨db', hperform, heq⟩ | ⟨e, heq⟩
  · have hlinks := command_links hperform
    rw [show command.requested db = some l from hrequested] at hlinks
    cases hlinks with
    | issued l hl =>
      obtain ⟨row, huser, -, -, hwrites, -⟩ := hl
      rw [heq]
      exact ⟨row, (Table.mem_of_insert? hwrites).mpr (.inr rfl), huser⟩
  · rw [heq] at hout
    cases hout

/-- The step issues a provisioning link to the account. -/
def provisionsLink (user : UserId) (x : AccountTaken) : Bool :=
  (issuing x).any fun l => l.user == user && l.provisioning

theorem provisionsLink_iff :
    provisionsLink user x = true ↔
      ∃ l, issuing x = some l ∧ l.user = user ∧ l.provisioning = true := by
  simp [provisionsLink, Option.any_eq_true]

end Run

/-- The account has no credential now, and had none at any step before. -/
def NeverCredential (past : List AccountTaken) (db : Database) (user : UserId) : Prop :=
  ¬ HasCredential db user ∧ ∀ y ∈ past, ¬ HasCredential y.pre user

/-- In every run, each window of an hour has at most five ordinary and fifty provisioning links of
each administrator and of the command line; an account gets one provisioning link at most, while it
is local, no administrator and has never had a credential; and a refused command changes nothing. -/
theorem recovery_links_throttled (P : Primitives) (key : MasterKey) (rfc3339 : DateTime → String)
    (db : Database) (commands : List AccountCommand) :
    let steps := Machine.trace (accountStep P key rfc3339) db commands
    (∀ issuer provisioning last, (steps.filterMap issuing).countP (fun l =>
        l.isOf issuer provisioning && decide (last - seconds 3600 < l.time ∧ l.time ≤ last)) ≤
          linkCeiling provisioning) ∧
      (∀ user, steps.countP (provisionsLink user) ≤ 1) ∧
      (∀ past x rest, steps = past ++ x :: rest → ∀ user, provisionsLink user x = true →
        (∃ u, x.pre.users.get? user = some u ∧ u.source = .localDb ∧ u.role ≠ .admin) ∧
          NeverCredential past x.pre user) ∧
      ∀ x ∈ steps, ∀ e, x.out = .error e → (accountStep P key rfc3339 x.pre x.event).1 = x.pre := by
  intro steps
  have htrue : Machine.Guarded (accountStep P key rfc3339) (fun _ _ => True) db commands :=
    Machine.guarded_true db commands
  have hempty : LinksThrottled [] db :=
    ⟨fun _ _ _ => Nat.zero_le _, fun _ _ => .nil⟩
  refine ⟨fun issuer provisioning last => ?_, fun user => ?_, ?_, ?_⟩
  · have hfinal : LinksThrottled steps (Machine.run (accountStep P key rfc3339) db commands) :=
      Machine.run_trace_history (fun _ _ _ h _ => linksThrottled_step h) htrue hempty
    have hwindow := (hfinal.throttled issuer provisioning).window last
    rw [issuedTimes, List.countP_map, List.countP_filter] at hwindow
    refine Nat.le_trans (Nat.le_of_eq (List.countP_congr fun l _ => ?_)) hwindow
    rw [Bool.and_comm]
    rfl
  · refine Machine.countP_trace_le_one (I := fun _ => True) (D := fun db => HasLink db user)
      (fun _ _ _ _ => trivial) ?_ (fun _ _ _ _ h => hasLink_step h) ?_ htrue trivial
    · intro db command _ _ hprovisions
      obtain ⟨l, hissuing, rfl, -⟩ := provisionsLink_iff.mp hprovisions
      exact hasLink_of_issuing hissuing
    · intro db command _ _ hlink
      rw [← Bool.not_eq_true]
      intro hprovisions
      obtain ⟨l, hissuing, rfl, hkind⟩ := provisionsLink_iff.mp hprovisions
      obtain ⟨-, -, hnow⟩ := issuing_kind hissuing
      obtain ⟨u, -, -, -, -, -, hnone⟩ := provisioningNow_iff.mp (hnow.symm.trans hkind)
      obtain ⟨t, ht, huser⟩ := hlink
      exact hnone t ht huser
  · intro past x rest hsplit user hprovisions
    obtain ⟨l, hissuing, rfl, hkind⟩ := provisionsLink_iff.mp hprovisions
    obtain ⟨-, -, hnow⟩ := issuing_kind hissuing
    obtain ⟨u, hget, hlocal, hrole, -, hcredential, -⟩ :=
      provisioningNow_iff.mp (hnow.symm.trans hkind)
    refine ⟨⟨u, hget, hlocal, hrole⟩, hcredential, fun y hy hbefore => hcredential ?_⟩
    -- A credential that was there before the step is there at the step.
    have hhistory := Machine.trace_history (I := fun past db => ∀ y ∈ past, ∀ user,
        HasCredential y.pre user → HasCredential db user) ?_ htrue (fun _ hy => by cases hy) hsplit
    · exact hhistory.1 y hy l.user hbefore
    · intro past db command h _ y hy user hbefore
      rcases List.mem_append.mp hy with hy | hy
      · exact hasCredential_step (h y hy user hbefore)
      · rw [List.mem_singleton] at hy
        subst hy
        exact hasCredential_step hbefore
  · intro x hx e hout
    obtain ⟨-, -, hstep⟩ := Machine.trace_invariant (I := fun _ => True) (fun _ _ _ _ => trivial)
      htrue trivial hx
    rcases accountStep_cases P key rfc3339 x.pre x.event with ⟨db', -, heq⟩ | ⟨e', heq⟩
    · rw [hstep, heq] at hout
      cases hout
    · rw [heq]

end SuiId
