import SuiId.Core.Administration
import SuiId.Proofs.LastAdmin

/-!
# Authority at commit

The `CurrentAdmin` extractor reads the session and the account once, before the command's
transaction.  The gated commands read the session and the account's flags again, none reads the
role.  So a command acts for an account that was an active administrator when its request was
admitted, and still is one at the commit unless an administrator took that away in between.
-/

namespace SuiId

open Lib Lib.Result Lib.Machine

/-! ## What a command leaves of an account's authority -/

def isAdmin (db : Database) (user : UserId) : Bool :=
  (db.users.get? user).any fun u => u.role.isAdmin

def isActive (db : Database) (user : UserId) : Bool := (db.users.get? user).any Users.active

theorem admits_iff {db : Database} {user : UserId} :
    admits db user = true ↔ isAdmin db user = true ∧ isActive db user = true := by
  unfold admits isAdmin isActive
  cases db.users.get? user with
  | none => simp
  | some u => simp [Users.active, Bool.and_assoc]

/-- U05 takes the role from the account. -/
def AdminCommand.demotes (user : UserId) : AdminCommand → Bool
  | .changeUserRole target newRole => target == user && !newRole.isAdmin
  | _ => false

/-- U02 or U04 for the account. -/
def AdminCommand.deactivates (user : UserId) : AdminCommand → Bool
  | .disableUser target _ => target == user
  | .deleteUser target _ => target == user
  | _ => false

section Effect

variable {P : Primitives} {rfc3339 : DateTime → String} {db db' : Database} {actor : UserId}
  {session : SessionId} {now : DateTime} {command : AdminCommand}

/-- The session is the account's, live and unexpired, and the account is active. -/
structure ActsNow (db : Database) (session : SessionId) (actor : UserId) (now : DateTime) :
    Prop where
  live : ∃ s, db.sessions.get? session = some s ∧ s.userId = actor ∧ s.revokedAt = none ∧
    now < s.expiresAt
  active : isActive db actor = true

/-- What a committed command says about authority, before it and after it. -/
structure CommandEffect (db : Database) (actor : UserId) (session : SessionId) (now : DateTime)
    (command : AdminCommand) (db' : Database) : Prop where
  admin : ∀ user, command.demotes user = false → isAdmin db user = true → isAdmin db' user = true
  active : ∀ user, command.deactivates user = false → isActive db user = true →
    isActive db' user = true
  acts : command.gated = true → ActsNow db session actor now

variable {target : UserId}
variable {p q : UserRow → Bool} {f : UserRow → UserRow} {k : UserId} {reason : Option String}

private theorem any_updateWhere {hf : ∀ u, (f u).id = u.id}
    (h : Users.updateWhere db target p f hf = .ok db')
    (hq : ∀ u, target = k → q u = true → q (f u) = true) (hk : (db.users.get? k).any q = true) :
    (db'.users.get? k).any q = true := by
  obtain ⟨-, rfl⟩ := Users.updateWhere_ok h
  obtain ⟨u, hget, hu⟩ := (Option.any_eq_true _ _).mp hk
  show ((db.users.update _ f hf).get? k).any q = true
  rw [Table.get?_update, hget]
  simp only [Option.map_some, Option.any_some]
  split
  · rename_i hp
    simp only [Bool.and_eq_true, beq_iff_eq] at hp
    exact hq u (hp.1.symm.trans (Table.get?_eq_some.mp hget).2) hu
  · exact hu

private theorem any_insert {t t' : Table UserRow.id} {u : UserRow} (h : t.insert? u = some t')
    (hq : (t.get? k).any q = true) :
    (t'.get? k).any q = true := by
  obtain ⟨r, hget, hr⟩ := (Option.any_eq_true _ _).mp hq
  obtain ⟨r', hget', heq⟩ := (Table.kept_insert? (f := id) h).get? hget
  rw [hget', Option.any_some, show r' = r from heq]
  exact hr

theorem actsNow_of_stepUp {stepUp : SessionStepUpEvidence}
    (h : sessionStepUpEvidence db session actor now = .ok stepUp) :
    ActsNow db session actor now := by
  have hlive : Sessions.requireLiveSession db session actor now = .ok () := by
    unfold sessionStepUpEvidence at h
    split at h
    · cases h
    · cases h
    · assumption
  unfold Sessions.requireLiveSession at hlive
  split at hlive
  · rename_i s userActive hget
    simp only [ensure_eq_ok, Bool.and_eq_true, beq_iff_eq, decide_eq_true_eq,
      Option.isNone_iff_eq_none] at hlive
    obtain ⟨⟨⟨rfl, hrevoked⟩, hexpires⟩, hactive⟩ := hlive
    simp only [Sessions.getWithUserActive, Option.bind_eq_bind, Option.bind_eq_some_iff] at hget
    obtain ⟨s', hs', u, hu, hpair⟩ := hget
    cases hpair
    refine ⟨⟨s, hs', rfl, hrevoked, hexpires⟩, ?_⟩
    rw [isActive, hu]
    exact hactive
  · cases hlive

/-- A command that writes no account. -/
theorem CommandEffect.of_users (husers : db'.users = db.users)
    (hacts : ActsNow db session actor now) :
    CommandEffect db actor session now command db' where
  admin user _ h := by
    unfold isAdmin at h ⊢
    rw [husers]
    exact h
  active user _ h := by
    unfold isActive at h ⊢
    rw [husers]
    exact h
  acts _ := hacts

theorem adminCreateUser_effect {spec : CreateUserSpec}
    (h : adminCreateUser P db actor spec = .ok db') :
    CommandEffect db actor session now (.createUser spec) db' := by
  cases adminCreateUser_change h with
  | created hinsert =>
    exact ⟨fun _ _ => any_insert hinsert, fun _ _ => any_insert hinsert,
      fun hgated => by cases hgated⟩

theorem changeUserRole_effect {newRole : Role} {value : Unit}
    (h : changeUserRole db actor target newRole = .ok (value, db')) :
    CommandEffect db actor session now (.changeUserRole target newRole) db' := by
  obtain ⟨oldRole, db₁, log, -, -, hset, rfl⟩ := changeUserRole_ok h
  have hadmin : ∀ user, (AdminCommand.changeUserRole target newRole).demotes user = false →
      isAdmin db user = true → isAdmin db₁ user = true := by
    intro user hkeeps
    refine any_updateWhere hset fun u htarget _ => ?_
    simpa [AdminCommand.demotes, htarget] using hkeeps
  have hactive : ∀ user, isActive db user = true → isActive db₁ user = true :=
    fun user => any_updateWhere hset fun u _ hactive => hactive
  exact ⟨hadmin, fun user _ => hactive user, fun hgated => by cases hgated⟩

/-- U02 and U03, without the refusal of the own account. -/
theorem setUserDisabled_ok {disabled : Bool}
    (h : setUserDisabled db actor session target disabled reason now = .ok db') :
    ∃ db₁, ActsNow db session actor now ∧ Users.setDisabled db target disabled = .ok db₁ ∧
      db'.users = db₁.users := by
  unfold setUserDisabled at h
  split at h
  · cases h
  · cases disabled with
    | true =>
      simp only [if_true] at h
      split at h
      · rename_i hdisable
        cases h
        obtain ⟨event, db₂, log, hbody, rfl⟩ := classA_eq_ok hdisable
        simp only [bind_eq_ok, pure_eq_ok, Prod.mk.injEq] at hbody
        obtain ⟨stepUp, hstepUp, db₁, hset, -, -, rfl⟩ := hbody
        exact ⟨db₁, actsNow_of_stepUp hstepUp, hset, rfl⟩
      · cases h
    | false =>
      simp only [Bool.false_eq_true, if_false] at h
      split at h
      · rename_i henable
        cases h
        obtain ⟨event, db₂, log, hbody, rfl⟩ := classA_eq_ok henable
        simp only [bind_eq_ok, pure_eq_ok, Prod.mk.injEq] at hbody
        obtain ⟨stepUp, hstepUp, db₁, hset, -, -, rfl⟩ := hbody
        exact ⟨db₁, actsNow_of_stepUp hstepUp, hset, rfl⟩
      · cases h

theorem adminDeleteUser_ok (h : adminDeleteUser db actor session target reason now = .ok db') :
    ∃ db₁, ActsNow db session actor now ∧ Users.softDelete db target = .ok db₁ ∧
      db'.users = db₁.users := by
  unfold adminDeleteUser at h
  split at h
  · cases h
  · split at h
    · rename_i hdelete
      cases h
      obtain ⟨event, db₂, log, hbody, rfl⟩ := classA_eq_ok hdelete
      simp only [bind_eq_ok, pure_eq_ok, Prod.mk.injEq] at hbody
      obtain ⟨stepUp, hstepUp, db₁, hset, -, -, rfl⟩ := hbody
      exact ⟨db₁, actsNow_of_stepUp hstepUp, hset, rfl⟩
    · cases h

/-- A gated command that changes flags of the target's account. -/
theorem CommandEffect.of_update {hf : ∀ u, (f u).id = u.id} {db₁ : Database}
    (hacts : ActsNow db session actor now) (h : Users.updateWhere db target p f hf = .ok db₁)
    (husers : db'.users = db₁.users) (hrole : ∀ u, (f u).role = u.role)
    (hactive : ∀ u user, target = user → command.deactivates user = false →
      Users.active u = true → Users.active (f u) = true) :
    CommandEffect db actor session now command db' where
  admin user _ hadmin := by
    rw [isAdmin, husers]
    exact any_updateWhere h (fun u _ hu => by rw [hrole]; exact hu) hadmin
  active user hkeeps hbefore := by
    rw [isActive, husers]
    exact any_updateWhere h (fun u htarget => hactive u user htarget hkeeps) hbefore
  acts _ := hacts

theorem command_effect (h : command.perform P rfc3339 db actor session now = .ok db') :
    CommandEffect db actor session now command db' := by
  cases command with
  | createUser spec => exact adminCreateUser_effect h
  | changeUserRole target newRole =>
    obtain ⟨⟨value, db₁⟩, hcommit, rfl⟩ := map_eq_ok.mp (mapError_eq_ok.mp h)
    exact changeUserRole_effect hcommit
  | disableUser target reason =>
    obtain ⟨db₁, hacts, hset, husers⟩ := setUserDisabled_ok h
    exact .of_update hacts hset husers (fun _ => rfl) fun u user htarget hkeeps _ =>
      absurd hkeeps (by simp [AdminCommand.deactivates, htarget])
  | enableUser target =>
    obtain ⟨db₁, hacts, hset, husers⟩ := setUserDisabled_ok h
    refine .of_update hacts hset husers (fun _ => rfl) fun u user _ _ hactive => ?_
    simp only [Users.active, Bool.and_eq_true] at hactive ⊢
    exact ⟨rfl, hactive.2⟩
  | deleteUser target reason =>
    obtain ⟨db₁, hacts, hset, husers⟩ := adminDeleteUser_ok h
    exact .of_update hacts hset husers (fun _ => rfl) fun u user htarget hkeeps _ =>
      absurd hkeeps (by simp [AdminCommand.deactivates, htarget])
  | adminResetMfa target reason =>
    obtain ⟨⟨value, db₁⟩, hcommit, rfl⟩ := map_eq_ok.mp (mapError_eq_ok.mp h)
    obtain ⟨event, db₂, log, hbody, rfl⟩ := classA_eq_ok hcommit
    simp only [removeMfa, bind_eq_ok, pure_eq_ok, Prod.mk.injEq] at hbody
    obtain ⟨stepUp, hstepUp, ⟨removed, db₃⟩, ⟨role, -, -, rfl⟩, -, -, rfl⟩ := hbody
    exact .of_users rfl (actsNow_of_stepUp hstepUp)
  | issueRecoveryLinkAsAdmin target tokenId tokenHash reason =>
    obtain ⟨⟨grant, db₁⟩, hcommit, rfl⟩ := map_eq_ok.mp (mapError_eq_ok.mp h)
    obtain ⟨event, db₂, log, hbody, rfl⟩ := classA_eq_ok hcommit
    simp only [bind_eq_ok, ensure_eq_ok, pure_eq_ok, Prod.mk.injEq] at hbody
    obtain ⟨reason', -, stepUp, hstepUp, -, -, t, -, -, -, ⟨grant', db₃⟩, hinsert, -, -, rfl⟩ :=
      hbody
    obtain ⟨tokens, rfl⟩ := revokeAndInsertRecoveryToken_ok hinsert
    exact .of_users rfl (actsNow_of_stepUp hstepUp)
  | rotateSigningKey newId privateKeySealed publicKey reason =>
    obtain ⟨⟨value, db₁⟩, hcommit, rfl⟩ := map_eq_ok.mp (mapError_eq_ok.mp h)
    obtain ⟨⟨stepUp, hstepUp⟩, db₂, log, hrotate, rfl⟩ := rotateSigningKey_ok hcommit
    obtain ⟨signingKeys, rfl⟩ := SigningKeys.rotateAtomic_ok hrotate
    exact .of_users rfl (actsNow_of_stepUp hstepUp)

end Effect

/-! ## One step -/

def AdminAnswer.demotes (user : UserId) : AdminAnswer → Bool
  | .committed _ _ command => command.demotes user
  | _ => false

def AdminAnswer.deactivates (user : UserId) : AdminAnswer → Bool
  | .committed _ _ command => command.deactivates user
  | _ => false

section Step

variable (P : Primitives) (rfc3339 : DateTime → String)

/-- What one step of a request does. -/
inductive AdminAdvance (db : Database) (call : AdminCall) (now : DateTime) :
    Database × Option AdminPhase × AdminAnswer → Prop where
  | resolved (user : UserId) (db' : Database) (hphase : call.phase = .resolve)
      (hresolve : (resolve db now call.session).1 = .ok user) (husers : db'.users = db.users) :
      AdminAdvance db call now (db', some (.touch user), .working)
  | touched (user : UserId) (db' : Database) (hphase : call.phase = .touch user)
      (husers : db'.users = db.users) : AdminAdvance db call now (db', some (.read user), .working)
  | admitted (user : UserId) (hphase : call.phase = .read user) (hadmits : admits db user = true) :
      AdminAdvance db call now (db, some (.handler user), .working)
  | handled (actor : UserId) (db' : Database) (hphase : call.phase = .handler actor)
      (husers : db'.users = db.users) :
      AdminAdvance db call now (db', some (.command actor), .working)
  | committed (actor : UserId) (db' : Database) (hphase : call.phase = .command actor)
      (hperform : call.command.perform P rfc3339 db actor call.session now = .ok db') :
      AdminAdvance db call now (db', none, .committed actor call.session call.command)
  | refused (db' : Database) (error : CoreError) (husers : db'.users = db.users) :
      AdminAdvance db call now (db', none, .refused error)

variable {P rfc3339} {db : Database} {now : DateTime}

private theorem handle_users (session : SessionId) (command : AdminCommand) :
    (command.handle db session now).1.users = db.users := by
  have hresolve := resolve_users db now session
  unfold AdminCommand.handle
  split
  · rfl
  · rfl
  · split
    · rename_i heq
      rw [heq] at hresolve
      rw [touchLastUsed_users]
      exact hresolve
    · rename_i heq
      rw [heq] at hresolve
      exact hresolve

theorem AdminCall.advance_effect (call : AdminCall) :
    AdminAdvance P rfc3339 db call now (call.advance P rfc3339 db now) := by
  have hresolve := resolve_users db now call.session
  unfold AdminCall.advance
  split
  · rename_i hphase
    split
    · rename_i user db' heq
      rw [heq] at hresolve
      exact .resolved user db' hphase (by rw [heq]) hresolve
    · rename_i e db' heq
      rw [heq] at hresolve
      exact .refused db' e hresolve
  · rename_i user hphase
    exact .touched user _ hphase (touchLastUsed_users db now call.session)
  · rename_i user hphase
    split
    · rename_i hadmits
      exact .admitted user hphase hadmits
    · exact .refused db _ rfl
  · rename_i actor hphase
    have husers := @handle_users db now call.session call.command
    split
    · rename_i db' heq
      rw [heq] at husers
      exact .handled actor db' hphase husers
    · rename_i db' e heq
      rw [heq] at husers
      exact .refused db' e husers
  · rename_i actor hphase
    split
    · rename_i db' hperform
      exact .committed actor db' hphase hperform
    · exact .refused db _ rfl

/-- What one step leaves of the authority of every account. -/
theorem AdminAdvance.authority {call : AdminCall}
    {result : Database × Option AdminPhase × AdminAnswer}
    (h : AdminAdvance P rfc3339 db call now result) (user : UserId) :
    (result.2.2.demotes user = false → isAdmin db user = true → isAdmin result.1 user = true) ∧
      (result.2.2.deactivates user = false → isActive db user = true →
        isActive result.1 user = true) := by
  have hsame : ∀ {db' : Database}, db'.users = db.users →
      (isAdmin db user = true → isAdmin db' user = true) ∧
        (isActive db user = true → isActive db' user = true) := by
    intro db' husers
    unfold isAdmin isActive
    rw [husers]
    exact ⟨id, id⟩
  cases h with
  | committed actor db' hphase hperform =>
    have heffect := command_effect hperform
    exact ⟨heffect.admin user, heffect.active user⟩
  | resolved user' db' hphase hresolve husers =>
    exact ⟨fun _ => (hsame husers).1, fun _ => (hsame husers).2⟩
  | touched user' db' hphase husers => exact ⟨fun _ => (hsame husers).1, fun _ => (hsame husers).2⟩
  | admitted user' hphase hadmits => exact ⟨fun _ => id, fun _ => id⟩
  | handled actor db' hphase husers =>
    exact ⟨fun _ => (hsame husers).1, fun _ => (hsame husers).2⟩
  | refused db' error husers => exact ⟨fun _ => (hsame husers).1, fun _ => (hsame husers).2⟩

/-- The same of a step of the world. -/
theorem administer_authority (w : AdminWorld) (e : AdminEvent) (user : UserId) :
    ((administer P rfc3339 w e).2.demotes user = false → isAdmin w.db user = true →
        isAdmin (administer P rfc3339 w e).1.db user = true) ∧
      ((administer P rfc3339 w e).2.deactivates user = false → isActive w.db user = true →
        isActive (administer P rfc3339 w e).1.db user = true) := by
  unfold administer
  split
  · split
    · exact ⟨fun _ => id, fun _ => id⟩
    · exact ⟨fun _ => id, fun _ => id⟩
  · split
    · exact ⟨fun _ => id, fun _ => id⟩
    · rename_i call hcall
      exact (@AdminCall.advance_effect P rfc3339 w.db _ call).authority user

end Step

/-! ## Runs -/

/-- The request resolved its session to the account. -/
def ResolvedIn (past : List AdminTaken) (id : AdminCallId) (session : SessionId) (user : UserId) :
    Prop :=
  ∃ y ∈ past, ∃ now, y.event = .next id now ∧ (resolve y.pre.db now session).1 = .ok user

/-- The step is the extractor's read of the account, for this request. -/
def ReadsAccount (y : AdminTaken) (id : AdminCallId) (session : SessionId) (command : AdminCommand)
    (user : UserId) : Prop :=
  (∃ now, y.event = .next id now) ∧ y.pre.calls id = some ⟨session, command, .read user⟩

/-- The request was admitted for `actor`, and what is left of that in `db`. -/
def AdmittedIn (past : List AdminTaken) (db : Database) (id : AdminCallId) (session : SessionId)
    (command : AdminCommand) (actor : UserId) : Prop :=
  ∃ before y after, past = before ++ y :: after ∧ ReadsAccount y id session command actor ∧
    ResolvedIn before id session actor ∧ admits y.pre.db actor = true ∧
    ((∀ z ∈ after, z.out.demotes actor = false) → isAdmin db actor = true) ∧
    ((∀ z ∈ after, z.out.deactivates actor = false) → isActive db actor = true)

/-- What the phase of a request says about its past. -/
def PhaseRecord (past : List AdminTaken) (db : Database) (id : AdminCallId) (session : SessionId)
    (command : AdminCommand) : AdminPhase → Prop
  | .resolve => True
  | .touch user => ResolvedIn past id session user
  | .read user => ResolvedIn past id session user
  | .handler actor => AdmittedIn past db id session command actor
  | .command actor => AdmittedIn past db id session command actor

def CallsOnRecord (past : List AdminTaken) (w : AdminWorld) : Prop :=
  ∀ id call, w.calls id = some call →
    PhaseRecord past w.db id call.session call.command call.phase

section Run

variable {P : Primitives} {rfc3339 : DateTime → String} {past : List AdminTaken} {w : AdminWorld}
  {e : AdminEvent} {id : AdminCallId} {session : SessionId} {command : AdminCommand}

theorem ResolvedIn.mono {user : UserId} {rest : List AdminTaken}
    (h : ResolvedIn past id session user) : ResolvedIn (past ++ rest) id session user := by
  obtain ⟨y, hy, hresolve⟩ := h
  exact ⟨y, List.mem_append_left rest hy, hresolve⟩

/-- A step of the run is on the record of every request that was admitted. -/
theorem AdmittedIn.step {actor : UserId} (h : AdmittedIn past w.db id session command actor) :
    AdmittedIn (past ++ [⟨w, e, (administer P rfc3339 w e).2⟩]) (administer P rfc3339 w e).1.db id
      session command actor := by
  obtain ⟨before, y, after, rfl, hreads, hresolved, hadmits, hadmin, hactive⟩ := h
  obtain ⟨hkeepsAdmin, hkeepsActive⟩ := @administer_authority P rfc3339 w e actor
  refine ⟨before, y, after ++ [_], List.append_assoc before (y :: after) _, hreads, hresolved,
    hadmits, ?_, ?_⟩
  · intro hnone
    exact hkeepsAdmin (hnone _ (List.mem_append_right after List.mem_cons_self))
      (hadmin fun z hz => hnone z (List.mem_append_left _ hz))
  · intro hnone
    exact hkeepsActive (hnone _ (List.mem_append_right after List.mem_cons_self))
      (hactive fun z hz => hnone z (List.mem_append_left _ hz))

theorem PhaseRecord.step {phase : AdminPhase}
    (h : PhaseRecord past w.db id session command phase) :
    PhaseRecord (past ++ [⟨w, e, (administer P rfc3339 w e).2⟩]) (administer P rfc3339 w e).1.db id
      session command phase := by
  cases phase with
  | resolve => trivial
  | touch user => exact ResolvedIn.mono h
  | read user => exact ResolvedIn.mono h
  | handler actor => exact AdmittedIn.step h
  | command actor => exact AdmittedIn.step h

/-- A request that is in flight after a step was there before, is new, or took this step. -/
theorem administer_call {call' : AdminCall}
    (h : (administer P rfc3339 w e).1.calls id = some call') :
    w.calls id = some call' ∨ (∃ session command, call' = ⟨session, command, .resolve⟩) ∨
      ∃ now call phase, e = .next id now ∧ w.calls id = some call ∧ call' = { call with phase } ∧
        (call.advance P rfc3339 w.db now).2.1 = some phase ∧
        (administer P rfc3339 w e).1.db = (call.advance P rfc3339 w.db now).1 := by
  cases e with
  | begin id' session command =>
    simp only [administer] at h
    split at h
    · dsimp only at h
      by_cases hid : id = id'
      · rw [hid, Function.update_self] at h
        exact .inr (.inl ⟨session, command, (Option.some.inj h).symm⟩)
      · rw [Function.update_of_ne hid] at h
        exact .inl h
    · exact .inl h
  | next id' now =>
    cases hcall : w.calls id' with
    | none =>
      simp only [administer, hcall] at h
      exact .inl h
    | some call =>
      simp only [administer, hcall] at h ⊢
      by_cases hid : id = id'
      · subst hid
        rw [Function.update_self, Option.map_eq_some_iff] at h
        obtain ⟨phase, hphase, rfl⟩ := h
        exact .inr (.inr ⟨now, call, phase, rfl, hcall, rfl, hphase, rfl⟩)
      · rw [Function.update_of_ne hid] at h
        exact .inl h

theorem callsOnRecord_step (h : CallsOnRecord past w) :
    CallsOnRecord (past ++ [⟨w, e, (administer P rfc3339 w e).2⟩])
      (administer P rfc3339 w e).1 := by
  intro id call' hcall'
  rcases administer_call hcall' with hold | ⟨session, command, rfl⟩ |
    ⟨now, call, phase, rfl, hcall, rfl, hphase, hdb⟩
  · exact (h id call' hold).step
  · trivial
  · have hrecord := h id call hcall
    have heffect := @AdminCall.advance_effect P rfc3339 w.db now call
    have hlast : ∀ y : AdminTaken, y ∈ past ++ [y] := fun y =>
      List.mem_append_right past List.mem_cons_self
    generalize call.advance P rfc3339 w.db now = result at heffect hphase hdb
    cases heffect with
    | resolved user db' hat hresolve husers =>
      cases hphase
      exact ⟨_, hlast _, now, rfl, hresolve⟩
    | touched user db' hat husers =>
      cases hphase
      rw [hat] at hrecord
      exact ResolvedIn.mono hrecord
    | admitted user hat hadmits =>
      cases hphase
      rw [hat] at hrecord
      obtain ⟨hadmin, hactive⟩ := admits_iff.mp hadmits
      refine ⟨past, _, [], rfl, ⟨⟨now, rfl⟩, ?_⟩, hrecord, hadmits, ?_, ?_⟩
      · rw [← hat]
        exact hcall
      · rw [hdb]
        exact fun _ => hadmin
      · rw [hdb]
        exact fun _ => hactive
    | handled actor db' hat husers =>
      cases hphase
      rw [hat] at hrecord
      exact AdmittedIn.step hrecord
    | committed actor db' hat hperform => cases hphase
    | refused db' error husers => cases hphase

/-- A commit is the last step of a request that was about to run its command. -/
theorem administer_committed {actor : UserId}
    (h : (administer P rfc3339 w e).2 = .committed actor session command) :
    ∃ id now db', e = .next id now ∧ w.calls id = some ⟨session, command, .command actor⟩ ∧
      command.perform P rfc3339 w.db actor session now = .ok db' := by
  cases e with
  | begin id session' command' =>
    simp only [administer] at h
    split at h
    · cases h
    · cases h
  | next id now =>
    cases hcall : w.calls id with
    | none =>
      simp only [administer, hcall] at h
      cases h
    | some call =>
      simp only [administer, hcall] at h
      have heffect := @AdminCall.advance_effect P rfc3339 w.db now call
      generalize call.advance P rfc3339 w.db now = result at heffect h
      cases heffect with
      | committed actor' db' hat hperform =>
        cases h
        exact ⟨id, now, db', rfl, by rw [hcall, ← hat], hperform⟩
      | resolved user db' hat hresolve husers => cases h
      | touched user db' hat husers => cases h
      | admitted user hat hadmits => cases h
      | handled actor' db' hat husers => cases h
      | refused db' error husers => cases h

/-- A command commits for an account that was an active administrator with a live session when its
request read it.  A gated command finds the session live and the account active once more.  The
account is still an active administrator at the commit when nobody took the role from it since, nor,
before a command that is not gated, disabled or deleted it. -/
theorem committed_for_admitted {db : Database} {events : List AdminEvent} {rest : List AdminTaken}
    {x : AdminTaken} {actor : UserId}
    (hx : trace (administer P rfc3339) (.start db) events = past ++ x :: rest)
    (hout : x.out = .committed actor session command) :
    ∃ id now, x.event = .next id now ∧
      (∃ before y after, past = before ++ y :: after ∧ ReadsAccount y id session command actor ∧
        ResolvedIn before id session actor ∧ admits y.pre.db actor = true ∧
        ((∀ z ∈ after, z.out.demotes actor = false) →
          (command.gated = false → ∀ z ∈ after, z.out.deactivates actor = false) →
          admits x.pre.db actor = true)) ∧
      (command.gated = true → ActsNow x.pre.db session actor now) := by
  have hstart : CallsOnRecord [] (AdminWorld.start db) := by
    intro id call hcall
    cases hcall
  obtain ⟨hrecord, -, hanswer⟩ :=
    trace_history (fun _ _ _ h _ => callsOnRecord_step h) (guarded_true _ events) hstart hx
  obtain ⟨id, now, db', hevent, hcall, hperform⟩ :=
    administer_committed (hanswer.symm.trans hout)
  have heffect := command_effect hperform
  obtain ⟨before, y, after, hpast, hreads, hresolved, hadmits, hadmin, hactive⟩ :=
    hrecord id _ hcall
  refine ⟨id, now, hevent, ⟨before, y, after, hpast, hreads, hresolved, hadmits, ?_⟩, heffect.acts⟩
  intro hdemotes hdeactivates
  refine admits_iff.mpr ⟨hadmin hdemotes, ?_⟩
  cases hgated : command.gated with
  | true => exact (heffect.acts hgated).active
  | false => exact hactive (hdeactivates hgated)

end Run

/-! ## A request that outlives the role -/

/-- Administrators 1 and 2, and account 3. -/
def accompliceDb : Database :=
  { Database.empty with
    users := ⟨[plainUser 1 "root" .admin, plainUser 2 "eve" .admin, plainUser 3 "mallory" .user],
      by decide⟩
    sessions := ⟨[plainSession 11 1, plainSession 12 2], by decide⟩ }

/-- The steps of a request, up to its command. -/
def admittedRequest (id : AdminCallId) (session : SessionId) (command : AdminCommand) :
    List AdminEvent :=
  [.begin id session command, .next id 0, .next id 0, .next id 0, .next id 0]

/-- Administrator 2 is about to promote account 3 when administrator 1 demotes 2. -/
def promotesAccomplice : List AdminEvent :=
  admittedRequest 0 12 (.changeUserRole 3 .admin) ++
    admittedRequest 1 11 (.changeUserRole 2 .user) ++ ([.next 1 0, .next 0 0] : List AdminEvent)

def adminTrace (events : List AdminEvent) : List AdminTaken :=
  trace (administer .transparent fun _ => "") (.start accompliceDb) events

private theorem promotesAccomplice_out :
    (adminTrace promotesAccomplice)[11].out = .committed 2 12 (.changeUserRole 3 .admin) := rfl

private theorem promotesAccomplice_demoted :
    admits (adminTrace promotesAccomplice)[11].pre.db 2 = false := by
  decide +kernel

theorem demoted_admin_promotes_accomplice :
    ¬ ∀ x ∈ adminTrace promotesAccomplice, ∀ actor session command,
      x.out = .committed actor session command → admits x.pre.db actor = true := by
  intro h
  have hadmits := h _ (List.getElem_mem _) 2 12 _ promotesAccomplice_out
  rw [promotesAccomplice_demoted] at hadmits
  cases hadmits

private theorem demotion_split :
    trace (administer .transparent fun _ => "") (.start accompliceDb) promotesAccomplice =
      (adminTrace promotesAccomplice).take 10 ++ (adminTrace promotesAccomplice)[10] ::
        [(adminTrace promotesAccomplice)[11]] := rfl

/-- The demotion itself is the work of an administrator. -/
theorem committed_for_admitted_demotion :
    ∃ id now, (adminTrace promotesAccomplice)[10].event = .next id now ∧
      ∃ before y after, (adminTrace promotesAccomplice).take 10 = before ++ y :: after ∧
        ReadsAccount y id 11 (.changeUserRole 2 .user) 1 ∧ ResolvedIn before id 11 1 ∧
        admits y.pre.db 1 = true := by
  obtain ⟨id, now, hevent, ⟨before, y, after, hpast, hreads, hresolved, hadmits, -⟩, -⟩ :=
    committed_for_admitted demotion_split (show _ = AdminAnswer.committed 1 11 _ from rfl)
  exact ⟨id, now, hevent, before, y, after, hpast, hreads, hresolved, hadmits⟩

end SuiId
