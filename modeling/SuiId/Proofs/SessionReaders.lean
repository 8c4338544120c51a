import SuiId.Proofs.CodeProvenance

/-!
# The two readers of a session

`session::resolve` stands in front of every page and `resolve_session` in front
of the authorization endpoint.  `Accepted` is the rule of the first.  The second
looks at the revocation and the expiry alone, and lets the last instant pass,
so the two agree on a session unless it is `Overlooked`.
-/

namespace SuiId

open Lib Lib.Result

/-! ## One read -/

section Readers

variable {db : Database} {now : DateTime} {id : SessionId} {user : UserId}

/-- The rule of `session::resolve` for a row. -/
structure Accepted (db : Database) (now : DateTime) (s : SessionRow) : Prop where
  revokedAt : s.revokedAt = none
  expiresAt : now < s.expiresAt
  userActive : Users.isActive db s.userId = true
  notIdle : pastIdleTimeout db s now = false

/-- A session only the authorization endpoint takes: not revoked and not past
its last instant, but at that instant, of a user who is not active, or idle for
too long. -/
def Overlooked (db : Database) (now : DateTime) (id : SessionId) : Prop :=
  ∃ s, db.sessions.get? id = some s ∧ s.revokedAt = none ∧ now ≤ s.expiresAt ∧
    (now = s.expiresAt ∨ Users.isActive db s.userId = false ∨ pastIdleTimeout db s now = true)

instance : Decidable (Overlooked db now id) :=
  inferInstanceAs (Decidable (∃ s ∈ db.sessions.get? id, s.revokedAt = none ∧ now ≤ s.expiresAt ∧
    (now = s.expiresAt ∨ Users.isActive db s.userId = false ∨ pastIdleTimeout db s now = true)))

/-- The two readers take the session for the same users. -/
def ReadersAgree (db : Database) (now : DateTime) (id : SessionId) : Prop :=
  ∀ user, (∃ session authMethods,
    resolveSession db now id = some (session, user, authMethods)) ↔
      (resolve db now id).1 = .ok user

variable {s : SessionRow} {session : SessionId} {authMethods : List AuthMethod}

private theorem getWithUserActive_eq_some {userActive : Bool} :
    Sessions.getWithUserActive db id = some (s, userActive) ↔
      db.sessions.get? id = some s ∧
        ∃ u, db.users.get? s.userId = some u ∧ userActive = Users.active u := by
  simp only [Sessions.getWithUserActive, Option.bind_eq_bind, Option.bind_eq_some_iff]
  constructor
  · rintro ⟨s', hs', u, hu, hpair⟩
    cases hpair
    exact ⟨hs', u, hu, rfl⟩
  · rintro ⟨hs, u, hu, rfl⟩
    exact ⟨s, hs, u, hu, rfl⟩

/-- `session::resolve` takes exactly the sessions its rule accepts. -/
theorem resolve_eq_ok_iff :
    (resolve db now id).1 = .ok user ↔
      ∃ s, db.sessions.get? id = some s ∧ s.userId = user ∧ Accepted db now s := by
  constructor
  · intro h
    unfold resolve at h
    split at h
    · cases h
    · rename_i s userActive hget
      obtain ⟨hs, u, hu, rfl⟩ := getWithUserActive_eq_some.mp hget
      split at h
      · cases h
      · rename_i hguard
        simp only [Bool.or_eq_true, not_or, Bool.not_eq_true, Option.isSome_eq_false_iff,
          Option.isNone_iff_eq_none, decide_eq_false_iff_not, Bool.not_eq_false'] at hguard
        split at h
        · split at h
          · cases h
          · cases h
        · rename_i hidle
          refine ⟨s, hs, Except.ok.inj h, ?_⟩
          have hactive : Users.isActive db s.userId = true := by
            rw [Users.isActive, hu]
            exact hguard.2
          exact ⟨hguard.1.1, Int.not_le.mp hguard.1.2, hactive, Bool.eq_false_iff.mpr hidle⟩
  · rintro ⟨s, hs, rfl, haccepted⟩
    obtain ⟨u, hu, hactive⟩ := (Option.any_eq_true _ _).mp haccepted.userActive
    have hget : Sessions.getWithUserActive db id = some (s, true) :=
      getWithUserActive_eq_some.mpr ⟨hs, u, hu, hactive.symm⟩
    have hguard : (s.revokedAt.isSome || decide (s.expiresAt ≤ now) || !true) = false := by
      simp only [haccepted.revokedAt, Option.isSome_none, Bool.false_or, Bool.not_true,
        Bool.or_false, decide_eq_false_iff_not]
      exact Int.not_le.mpr haccepted.expiresAt
    unfold resolve
    rw [hget]
    simp only [hguard, haccepted.notIdle, Bool.false_eq_true, if_false]

/-- `resolve_session` asks for less. -/
theorem resolveSession_eq_some_iff :
    resolveSession db now id = some (session, user, authMethods) ↔
      ∃ s, db.sessions.get? id = some s ∧ s.revokedAt = none ∧ now ≤ s.expiresAt ∧
        session = id ∧ user = s.userId ∧ authMethods = s.authMethods := by
  constructor
  · intro h
    unfold resolveSession at h
    split at h
    · cases h
    · rename_i s hs
      split at h
      · cases h
      · rename_i hguard
        cases h
        simp only [Bool.or_eq_true, not_or, Bool.not_eq_true, Option.isSome_eq_false_iff,
          Option.isNone_iff_eq_none, decide_eq_false_iff_not] at hguard
        have hid : s.id = id := (Table.get?_eq_some.mp hs).2
        exact ⟨s, hs, hguard.1, Int.not_lt.mp hguard.2, hid, rfl, rfl⟩
  · rintro ⟨s, hs, hrevoked, hexpires, rfl, rfl, rfl⟩
    have hid : s.id = session := (Table.get?_eq_some.mp hs).2
    have hnotexpired : ¬ s.expiresAt < now := Int.not_lt.mpr hexpires
    unfold resolveSession
    rw [hs]
    simp [hrevoked, hnotexpired, hid]

/-- What `session::resolve` takes, the authorization endpoint takes. -/
private theorem resolveSession_of_accepted (hs : db.sessions.get? id = some s)
    (haccepted : Accepted db now s) :
    resolveSession db now id = some (id, s.userId, s.authMethods) :=
  resolveSession_eq_some_iff.mpr
    ⟨s, hs, haccepted.revokedAt, Int.le_of_lt haccepted.expiresAt, rfl, rfl, rfl⟩

/-- What the authorization endpoint takes and does not overlook is accepted. -/
theorem accepted_of_resolveSession
    (hread : resolveSession db now id = some (session, user, authMethods))
    (hseen : ¬ Overlooked db now id) :
    session = id ∧ ∃ s, db.sessions.get? id = some s ∧ s.userId = user ∧ Accepted db now s := by
  obtain ⟨s, hs, hrevoked, hexpires, rfl, rfl, rfl⟩ := resolveSession_eq_some_iff.mp hread
  refine ⟨rfl, s, hs, rfl, ?_⟩
  have hleft : ¬ (now = s.expiresAt ∨ Users.isActive db s.userId = false ∨
      pastIdleTimeout db s now = true) := fun h => hseen ⟨s, hs, hrevoked, hexpires, h⟩
  simp only [not_or, Bool.not_eq_false, Bool.not_eq_true] at hleft
  exact ⟨hrevoked, Int.lt_iff_le_and_ne.mpr ⟨hexpires, hleft.1⟩, hleft.2.1, hleft.2.2⟩

/-- The readers agree on a session exactly when it is not overlooked. -/
theorem readersAgree_iff : ReadersAgree db now id ↔ ¬ Overlooked db now id := by
  constructor
  · rintro hagree ⟨s, hs, hrevoked, hexpires, hleft⟩
    have htaken : ∃ session authMethods,
        resolveSession db now id = some (session, s.userId, authMethods) :=
      ⟨id, s.authMethods,
        resolveSession_eq_some_iff.mpr ⟨s, hs, hrevoked, hexpires, rfl, rfl, rfl⟩⟩
    obtain ⟨s', hs', -, haccepted⟩ := resolve_eq_ok_iff.mp ((hagree s.userId).mp htaken)
    have hsame : s' = s := Option.some.inj (hs'.symm.trans hs)
    subst hsame
    rcases hleft with hinstant | hinactive | hidle
    · exact Int.ne_of_lt haccepted.expiresAt hinstant
    · exact Bool.false_ne_true (hinactive.symm.trans haccepted.userActive)
    · exact Bool.false_ne_true (haccepted.notIdle.symm.trans hidle)
  · intro hseen user
    constructor
    · rintro ⟨session, authMethods, hread⟩
      exact resolve_eq_ok_iff.mpr (accepted_of_resolveSession hread hseen).2
    · intro h
      obtain ⟨s, hs, rfl, haccepted⟩ := resolve_eq_ok_iff.mp h
      exact ⟨id, s.authMethods, resolveSession_of_accepted hs haccepted⟩

end Readers

/-! ## Codes -/

section Codes

variable (K : ConsentCodec)

/-- The request, session and time of a step that reads a session. -/
def sessionRead (w : AuthorizeWorld) : AuthorizeEvent → Option (RequestId × SessionId × DateTime)
  | .consentPost request submission now =>
    (submission.sessionCookie.bind K.parseId).map fun session => (request, session, now)
  | .next request draw =>
    match w.calls request with
    | some (.clientValid _ _ cookie) =>
      (cookie.bind K.parseId).map fun session => (request, session, draw.now)
    | _ => none
  | _ => none

/-- The authorization endpoint reads no session that only it would take. -/
def NoneOverlooked (w : AuthorizeWorld) : AuthorizeEvent → Prop
  | .next request draw =>
    ∀ read ∈ sessionRead K w (.next request draw), ¬ Overlooked w.db read.2.2 read.2.1
  | _ => True

instance (w : AuthorizeWorld) : ∀ e, Decidable (NoneOverlooked K w e)
  | .next request draw => inferInstanceAs (Decidable (∀ read ∈
      sessionRead K w (.next request draw), ¬ Overlooked w.db read.2.2 read.2.1))
  | .authorize .. => isTrue trivial
  | .consentPost .. => isTrue trivial
  | .grantConsent .. => isTrue trivial
  | .revokeConsent .. => isTrue trivial
  | .elsewhere _ => isTrue trivial

/-- The step reads, for a request, a session of the user that the rule accepts. -/
def AcceptedAt (y : AuthorizeTaken) (request : RequestId) (session : SessionId) (user : UserId) :
    Prop :=
  ∃ now s, sessionRead K y.pre y.event = some (request, session, now) ∧
    y.pre.db.sessions.get? session = some s ∧ s.userId = user ∧ Accepted y.pre.db now s

end Codes

/-- The session and the user a request has read. -/
def AuthorizeCall.reader : AuthorizeCall → Option (SessionId × UserId)
  | .clientValid .. => none
  | .signedIn _ session user _ => some (session, user)
  | .accepted _ session user _ => some (session, user)
  | .grantWanted _ session user _ => some (session, user)
  | .consentWanted .. => none
  | .answering _ session user => some (session, user)
  | .approving _ session user => some (session, user)
  | .attributed _ session user _ => some (session, user)
  | .granted _ session user _ => some (session, user)
  | .permitted _ session user _ => some (session, user)

variable {P : Primitives} {K : ConsentCodec} {key : MasterKey}

/-- Every request in flight has read its session in an earlier step, where the
rule accepted it. -/
def ReadersAccepted (K : ConsentCodec) (past : List AuthorizeTaken) (w : AuthorizeWorld) : Prop :=
  ∀ r call session user, w.calls r = some call → call.reader = some (session, user) →
    ∃ y ∈ past, AcceptedAt K y r session user

/-- A transition takes over what the request has read, or reads it. -/
private theorem reader_of_became {w : AuthorizeWorld} {e : AuthorizeEvent} {r : RequestId}
    {call : AuthorizeCall} {session : SessionId} {user : UserId}
    (hbecame : Became P K key w e r call) (hseen : NoneOverlooked K w e)
    (hreader : call.reader = some (session, user)) :
    (∃ call₀, w.calls r = some call₀ ∧ call₀.reader = some (session, user)) ∨
      ∀ out, AcceptedAt K ⟨w, e, out⟩ r session user := by
  cases hbecame with
  | clientValid hparse => cases hreader
  | @signedIn _ draw query clientId cookie read _ _ authMethods hcall hcookie hread =>
    cases hreader
    have hevent : sessionRead K w (.next r draw) = some (r, read, draw.now) := by
      simp [sessionRead, hcall, hcookie]
    obtain ⟨rfl, s, hs, huser, haccepted⟩ :=
      accepted_of_resolveSession hread (hseen _ hevent)
    exact .inr fun out => ⟨draw.now, s, hevent, hs, huser, haccepted⟩
  | accepted hcall | permittedByPolicy hcall | grantWanted hcall | permittedByGrant hcall
  | approving hcall | attributed hcall | granted hcall | permittedAgain hcall =>
    exact .inl ⟨_, hcall, hreader⟩
  | consentWantedByPolicy hcall => cases hreader
  | consentWanted hcall => cases hreader
  | @answering _ submission now _ _ hcookie hread =>
    cases hreader
    obtain ⟨s, hs, huser, haccepted⟩ := resolve_eq_ok_iff.mp hread
    have hevent : sessionRead K w (.consentPost r submission now) = some (r, session, now) := by
      simp [sessionRead, hcookie]
    exact .inr fun out => ⟨now, s, hevent, hs, huser, haccepted⟩

/-- A step keeps it. -/
private theorem readersAccepted_step (past : List AuthorizeTaken) (w : AuthorizeWorld)
    (e : AuthorizeEvent) (hpast : ReadersAccepted K past w) (hseen : NoneOverlooked K w e) :
    ReadersAccepted K (past ++ [⟨w, e, (authorizeStep P K key w e).2⟩])
      (authorizeStep P K key w e).1 := by
  have hbefore : ∀ r call session user, w.calls r = some call →
      call.reader = some (session, user) →
      ∃ y ∈ past ++ [⟨w, e, (authorizeStep P K key w e).2⟩], AcceptedAt K y r session user := by
    intro r call session user hcall hreader
    obtain ⟨y, hy, haccepted⟩ := hpast r call session user hcall hreader
    exact ⟨y, List.mem_append_left _ hy, haccepted⟩
  intro r call session user hcall hreader
  rcases became_of_step hcall with hcall | hbecame
  · exact hbefore r call session user hcall hreader
  · rcases reader_of_became hbecame hseen hreader with ⟨call₀, hcall₀, hreader₀⟩ | haccepted
    · exact hbefore r call₀ session user hcall₀ hreader₀
    · exact ⟨_, List.mem_append_right _ (List.mem_singleton.mpr rfl), haccepted _⟩

/-- The two readers agree on exactly the sessions that are not overlooked; and in
a run that overlooks none, every code comes from a request that has read a
session of the code's user which was neither revoked nor expired nor idle for
too long, and whose user was active. -/
theorem session_readers_agree_iff (P : Primitives) (K : ConsentCodec) (key : MasterKey) :
    (∀ db now id, ReadersAgree db now id ↔ ¬ Overlooked db now id) ∧
      ∀ db es, Machine.Guarded (authorizeStep P K key) (NoneOverlooked K)
        (AuthorizeWorld.start db) es →
      ∀ past x rest row, authorizeTrace P K key (AuthorizeWorld.start db) es = past ++ x :: rest →
        x.out = .issued row →
        ∃ request draw session, x.event = .next request draw ∧
          ∃ y ∈ past, AcceptedAt K y request session row.userId := by
  refine ⟨fun db now id => readersAgree_iff, ?_⟩
  intro db es hguarded past x rest row htrace hissued
  have hstart : ReadersAccepted K [] (AuthorizeWorld.start db) := by
    intro r call session user hcall
    cases hcall
  obtain ⟨hpast, -, hout⟩ :=
    Machine.trace_history readersAccepted_step hguarded hstart htrace
  rw [hout] at hissued
  obtain ⟨r, draw, params, session, user, authMethods, hevent, hcall, rfl⟩ :=
    issued_of_step hissued
  exact ⟨r, draw, session, hevent, hpast r _ session user hcall rfl⟩

section Witness

/-- One account with session 10, and an idle timeout of a minute. -/
def idleDb : Database :=
  { authorizeDb (plainUser 1 "alice" .user) .none with serverSettings := ⟨60, 0⟩ }

/-- An authorization request at `now`. -/
def codeTrace (now : DateTime) : List AuthorizeTaken :=
  authorizeTrace Primitives.transparent ConsentCodec.transparent (.constant 7) (.start idleDb)
    (codeRun now)

/-- The code it ends with. -/
def codeRow (now : DateTime) : AuthorizationCodeRow :=
  authorizationCode Primitives.transparent ⟨now, "code"⟩ 1 [.pwd] (codeQuery.params 5)

private theorem codeTrace_eq (now : DateTime) (h : codeTrace now ≠ []) :
    codeTrace now = (codeTrace now).dropLast ++ (codeTrace now).getLast h :: [] :=
  (List.dropLast_append_getLast h).symm

/-- Within the minute the readers agree, and the code comes from an accepted
read. -/
theorem session_readers_agree_iff_in_time :
    ReadersAgree idleDb (seconds 30) 10 ∧
      ∃ past x, codeTrace (seconds 30) = past ++ [x] ∧ x.out = .issued (codeRow (seconds 30)) ∧
        ∃ request draw session, x.event = .next request draw ∧
          ∃ y ∈ past, AcceptedAt ConsentCodec.transparent y request session 1 := by
  obtain ⟨hagree, hrun⟩ := session_readers_agree_iff Primitives.transparent
    ConsentCodec.transparent (.constant 7)
  have hsplit := codeTrace_eq (seconds 30) (List.cons_ne_nil _ _)
  constructor
  · exact (hagree _ _ _).mpr (by decide +kernel)
  · exact ⟨_, _, hsplit, rfl,
      hrun idleDb (codeRun (seconds 30)) (by decide +kernel) _ _ [] _ hsplit rfl⟩

/-- An hour later one reader refuses the session, and the other takes it for a
code. -/
theorem idle_session_gets_code :
    ¬ ReadersAgree idleDb (seconds 3600) 10 ∧
      (codeTrace (seconds 3600)).getLast?.map (·.out) =
        some (.issued (codeRow (seconds 3600))) := by
  constructor
  · intro hagree
    exact readersAgree_iff.mp hagree (by decide +kernel)
  · rfl

end Witness

end SuiId
