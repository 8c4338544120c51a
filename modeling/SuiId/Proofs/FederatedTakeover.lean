import SuiId.Proofs.AccountEffects
import SuiId.Proofs.LoginSteps

/-!
# No federated takeover

`resolve_verified_identity` is a read before two or three transactions.  What it read stays true:
a link is never deleted or re-pointed, so the upsert of a known user only refreshes a link that is
there, and F04 refuses a subject that has got a link since.  Every link was therefore created by an
F04 together with its account, and a federated session is for the account that the link of its
callback was created with.
-/

namespace SuiId

open Lib Lib.Result Lib.Machine

/-! ## What a call carries -/

def FirstFactor.federated : FirstFactor → Option FederatedSignIn
  | .federation signIn => some signIn
  | _ => none

namespace FlowCall

/-- The verified sign-in a call goes on with, for a user who was linked. -/
def federated : FlowCall → Option (FederatedSignIn × UserId)
  | .callbackResolved signIn user => some (signIn, user)
  | .callbackLinked signIn user => some (signIn, user)
  | .verified first user => first.federated.map fun signIn => (signIn, user)
  | .withoutTotp first user => first.federated.map fun signIn => (signIn, user)
  | .withFactor first user => first.federated.map fun signIn => (signIn, user)
  | .withoutFactor first user => first.federated.map fun signIn => (signIn, user)
  | .continuationIssued signIn user => some (signIn, user)
  | _ => none

/-- The verified sign-in of a user who is to be created. -/
def newcomer : FlowCall → Option FederatedSignIn
  | .provisioning signIn _ => some signIn
  | _ => none

/-- Whom F02 would issue a continuation for. -/
def continuesFor : FlowCall → Option (UserId × ProviderId)
  | .withFactor (.federation signIn) user => some (user, signIn.providerId)
  | _ => none

end FlowCall

/-! ## One step of a call -/

section Advance

variable {P : Primitives} {key : MasterKey} {maxLockoutSecs : Int} {db : Database} {draw : FlowDraw}

/-- The step of a call that creates no account: what it does, and what the call carries on. -/
structure FederatedStep (db : Database) (call : FlowCall) (result : FlowResult) : Prop where
  settles : Settles call.continuesFor db result.db
  next : ∀ call', result.next = some call' →
    call'.newcomer = none ∧ (call'.federated = none ∨ call'.federated = call.federated)

namespace FederatedStep

variable {call call' : FlowCall} {db' : Database}

theorem done (h : Settles call.continuesFor db db') (out : FlowAnswer) :
    FederatedStep db call (FlowResult.done db' out) where
  settles := h
  next _ hnext := by cases hnext

theorem refuse (error : CoreError) : FederatedStep db call (FlowResult.refuse db error) :=
  done (.refl db) _

theorem goOn (h : Settles call.continuesFor db db') (hnewcomer : call'.newcomer = none)
    (hfederated : call'.federated = none ∨ call'.federated = call.federated) :
    FederatedStep db call (FlowResult.goOn db' call') where
  settles := h
  next _ hnext := by
    cases hnext
    exact ⟨hnewcomer, hfederated⟩

/-- The call goes on with something else. -/
theorem other (h : Settles call.continuesFor db db') (hnewcomer : call'.newcomer = none)
    (hfederated : call'.federated = none) : FederatedStep db call (FlowResult.goOn db' call') :=
  goOn h hnewcomer (.inl hfederated)

end FederatedStep

private theorem bare_federated {call : FlowCall} (h : call.bare = true) :
    call.newcomer = none ∧ call.federated = none := by
  cases call with
  | callbackResolved | callbackLinked | provisioning | verified | withoutTotp | withFactor
  | withoutFactor | continuationIssued => cases h
  | _ => exact ⟨rfl, rfl⟩

private theorem readPending_settles {subject : Option (UserId × ProviderId)}
    {pending : PendingMfaId} {now : DateTime} {answer : CoreResult LoginPendingMfaRow}
    {db' : Database} (h : readPending db pending now = (answer, db')) : Settles subject db db' := by
  obtain ⟨loginPendingMfa, -, heq⟩ := readPending_eq db pending now
  rw [h] at heq
  cases heq
  exact .of_users (.refl _) rfl rfl

private theorem committed_step {call : FlowCall} {result : FlowResult}
    (h : Committed P key db draw call result) (hnewcomer : call.newcomer = none) :
    FederatedStep db call result := by
  cases h with
  | password hcommit => exact .done (signInWithPassword_effect hcommit).settles _
  | directory hcommit => exact .done (signInFromDirectory_effect hcommit).settles _
  | federation hcommit => exact .done (signInFederated_effect hcommit).settles _
  | provisioned _ => cases hnewcomer
  | directoryPending hcommit =>
    exact .done (signInFromDirectoryMfaRequired_effect hcommit).settles _
  | passwordPending hinsert | federationPending hinsert =>
    obtain ⟨loginPendingMfa, -, rfl⟩ := LoginPendingMfa.insert_ok hinsert
    refine .done ?_ _
    exact .of_users (.refl _) rfl rfl
  | code hcommit | assertion hcommit =>
    exact .done (completeSecondFactor_effect hcommit).settles _
  | promoted hcommit =>
    refine ⟨(completeFederatedMfa_effect hcommit).settles, fun call' hnext => ?_⟩
    cases hnext
    exact ⟨rfl, .inl rfl⟩
  | changed hcommit => exact .done (changePasswordSelf_effect hcommit).settles _

theorem advance_federated (call : FlowCall) (hnewcomer : call.newcomer = none)
    (hlinked : ∀ signIn user, call.federated = some (signIn, user) →
      FederationLink.isLinked db user signIn.providerId = true) :
    FederatedStep db call (call.advance P key maxLockoutSecs db draw) := by
  have hadvances := @advance_advances P key maxLockoutSecs db draw call
  generalize call.advance P key maxLockoutSecs db draw = result at hadvances
  cases hadvances with
  | committed hcommitted => exact committed_step hcommitted hnewcomer
  | ends _ => exact .done (.refl db) _
  | goesOn _ hbare => exact .other (.refl db) (bare_federated hbare).1 (bare_federated hbare).2
  | linked hupsert =>
    obtain ⟨links, hlinks, rfl⟩ := upsert_identities (hlinked _ _ rfl) hupsert
    exact .goOn ⟨.refl _, hlinks, .refl _⟩ rfl (.inr rfl)
  | active | totpFound | totpMissing _ | passkeyFound | passkeyMissing _ =>
    exact .goOn (.refl db) rfl (.inr rfl)
  | continued hissue => exact .goOn (issueFederatedMfaPending_settles hissue) rfl (.inr rfl)
  | attemptFailed hfailed =>
    obtain ⟨-, attempts, -, -, -, rfl⟩ := FederationLoginAttempt.updateWhere_ok hfailed
    refine .done ?_ _
    exact .of_users (.refl _) rfl rfl
  | loginCounted hcount => exact .done (recordLoginFailure_effect hcount).settles _
  | factorCounted _ hcount => exact .done (recordSecondFactorFailure_effect hcount).settles _
  | pendingFound hread => exact .other (readPending_settles hread) rfl rfl
  | pendingMissed hread => exact .done (readPending_settles hread) _
  | assertionVerified =>
    refine .other ?_ rfl rfl
    exact .of_users (.refl _) rfl rfl
  | fedRefused hcommit _ hnext _ =>
    refine ⟨(completeFederatedMfa_effect hcommit).settles, fun call' hcall' => ?_⟩
    rcases hnext with rfl | rfl
    · cases hcall'
    · cases hcall'
      exact ⟨rfl, .inl rfl⟩
  | genericDeleted =>
    refine .done ?_ _
    exact .of_users (.refl _) rfl rfl
  | _ => exact .other (.refl db) rfl rfl

/-- A first sign-in creates the account and its link, or leaves the callback failed. -/
theorem advance_provisioning (signIn : FederatedSignIn) (profile : FederatedProfile) :
    (∃ evicted db', provisionFederatedUser P db signIn.attemptId signIn.providerId
        (FederatedSignIn.newUser draw.userId profile) (signIn.link draw.userId)
        (externalSession draw.sessionId draw.userId signIn.now) = .ok (evicted, db') ∧
        FlowCall.advance P key maxLockoutSecs db draw (.provisioning signIn profile) =
          FlowResult.done db'
            (.signedIn (externalSession draw.sessionId draw.userId signIn.now))) ∨
      FlowCall.advance P key maxLockoutSecs db draw (.provisioning signIn profile) =
        FlowResult.goOn db (.callbackFailed signIn) := by
  simp only [FlowCall.advance, provision]
  split
  · rename_i evicted db' hcommit
    exact .inl ⟨evicted, db', hcommit, rfl⟩
  · exact .inr rfl

end Advance

/-! ## What links tell about the past -/

section History

variable (P : Primitives) (key : MasterKey) (maxLockoutSecs : Int) (rfc3339 : DateTime → String)

/-- A callback for this sign-in was resolved. -/
def ResolvedFor (past : List FederationTaken) (signIn : FederatedSignIn) : Prop :=
  ∃ y ∈ past, ∃ id callback, y.event = .resolve id callback ∧ callback.signIn = signIn

/-- The step is an F04 that created the account and its link. -/
def Provisions (y : FederationTaken) (t : UserId × ProviderId × String) : Prop :=
  ∃ id draw signIn profile session, y.event = .next id draw ∧
    y.pre.calls id = some (.provisioning signIn profile) ∧ y.out = .signedIn session ∧
    t = (session.userId, signIn.providerId, signIn.upstreamSub) ∧
    y.pre.db.users.get? t.1 = none ∧
    ((federationStep P key maxLockoutSecs rfc3339 y.pre y.event).1.db.users.get? t.1).isSome =
      true ∧
    t ∈ linkIdentities (federationStep P key maxLockoutSecs rfc3339 y.pre y.event).1.db

/-- The steps `past` led to the world `w`. -/
structure NoTakeover (past : List FederationTaken) (w : FlowWorld) : Prop where
  /-- Every link was created with its account. -/
  created : ∀ t ∈ linkIdentities w.db, ∃ y ∈ past, Provisions P key maxLockoutSecs rfc3339 y t
  /-- No link was re-pointed. -/
  kept : ∀ y ∈ past, ∀ t ∈ linkIdentities y.pre.db, t ∈ linkIdentities w.db
  /-- No subject of a provider belongs to two users. -/
  subjects : ((linkIdentities w.db).map Prod.snd).Nodup
  /-- No user has two links. -/
  users : ((linkIdentities w.db).map Prod.fst).Nodup
  emails : Users.EmailsUnique w.db.users

/-- What a call carries is linked and was resolved. -/
structure CallLinked (past : List FederationTaken) (db : Database) (call : FlowCall) : Prop where
  federated : ∀ signIn user, call.federated = some (signIn, user) →
    (signIn.link user).identity ∈ linkIdentities db ∧ ResolvedFor past signIn
  newcomer : ∀ signIn, call.newcomer = some signIn → ResolvedFor past signIn

/-- F02 was due for the user, in a call that went on with this sign-in. -/
def ContinuedFor (past : List FederationTaken) (signIn : FederatedSignIn) (user : UserId) : Prop :=
  ∃ y ∈ past, ∃ id draw, y.event = .next id draw ∧
    y.pre.calls id = some (.withFactor (.federation signIn) user)

/-- The continuation is of a resolved callback, for the user of its link. -/
def PendingLinked (past : List FederationTaken) (db : Database) (subject : UserId × ProviderId) :
    Prop :=
  ∃ signIn, ResolvedFor past signIn ∧ ContinuedFor past signIn subject.1 ∧
    signIn.providerId = subject.2 ∧ (signIn.link subject.1).identity ∈ linkIdentities db

structure TakeoverInvariant (past : List FederationTaken) (w : FlowWorld) : Prop where
  links : NoTakeover P key maxLockoutSecs rfc3339 past w
  owned : ∀ t ∈ linkIdentities w.db, (w.db.users.get? t.1).isSome = true
  calls : ∀ id call, w.calls id = some call → CallLinked past w.db call
  pendings : ∀ r ∈ w.db.federationMfaPending, PendingLinked past w.db r.subject

variable {P key maxLockoutSecs rfc3339} {past : List FederationTaken} {w w' : FlowWorld}
  {y : FederationTaken} {db db' : Database} {call call' : FlowCall}
variable {signIn : FederatedSignIn}

theorem ResolvedFor.mono (h : ResolvedFor past signIn) :
    ResolvedFor (past ++ [y]) signIn := by
  obtain ⟨x, hx, hresolved⟩ := h
  exact ⟨x, List.mem_append_left _ hx, hresolved⟩

theorem ContinuedFor.mono {user : UserId} (h : ContinuedFor past signIn user) :
    ContinuedFor (past ++ [y]) signIn user := by
  obtain ⟨x, hx, hcontinued⟩ := h
  exact ⟨x, List.mem_append_left _ hx, hcontinued⟩

theorem CallLinked.plain (hfederated : call.federated = none) (hnewcomer : call.newcomer = none) :
    CallLinked past db call where
  federated _ _ h := by
    rw [hfederated] at h
    cases h
  newcomer _ h := by
    rw [hnewcomer] at h
    cases h

theorem CallLinked.mono (h : CallLinked past db call)
    (hlinks : ∀ t ∈ linkIdentities db, t ∈ linkIdentities db') :
    CallLinked (past ++ [y]) db' call where
  federated signIn user hcarries :=
    ⟨hlinks _ (h.federated signIn user hcarries).1, (h.federated signIn user hcarries).2.mono⟩
  newcomer signIn hcarries := (h.newcomer signIn hcarries).mono

/-- What a call carries on. -/
theorem CallLinked.next (h : CallLinked past db call) (hnewcomer : call'.newcomer = none)
    (hfederated : call'.federated = none ∨ call'.federated = call.federated) :
    CallLinked past db call' := by
  rcases hfederated with hnone | hsame
  · exact .plain hnone hnewcomer
  · refine ⟨fun signIn user hcarries => h.federated signIn user (hsame.symm.trans hcarries),
      fun signIn hcarries => ?_⟩
    rw [hnewcomer] at hcarries
    cases hcarries

theorem PendingLinked.mono {subject : UserId × ProviderId} (h : PendingLinked past db subject)
    (hlinks : ∀ t ∈ linkIdentities db, t ∈ linkIdentities db') :
    PendingLinked (past ++ [y]) db' subject := by
  obtain ⟨signIn, hresolved, hcontinued, hprovider, hlink⟩ := h
  exact ⟨signIn, hresolved.mono, hcontinued.mono, hprovider, hlinks _ hlink⟩

/-- A step that creates no link. -/
theorem TakeoverInvariant.settled {subject : Option (UserId × ProviderId)}
    (h : TakeoverInvariant P key maxLockoutSecs rfc3339 past w) (hy : y.pre = w)
    (hsettles : Settles subject w.db w'.db)
    (hsubject : ∀ s, subject = some s → PendingLinked (past ++ [y]) w'.db s)
    (hcalls : ∀ id call, w'.calls id = some call → CallLinked (past ++ [y]) w'.db call) :
    TakeoverInvariant P key maxLockoutSecs rfc3339 (past ++ [y]) w' := by
  obtain ⟨⟨hcreated, hkept, hsubjects, hone, hemails⟩, howned, -, hpendings⟩ := h
  have hlinks : ∀ t ∈ linkIdentities w.db, t ∈ linkIdentities w'.db := by
    intro t ht
    rw [hsettles.links]
    exact ht
  refine ⟨⟨?_, ?_, ?_, ?_, hsettles.users.emails hemails⟩, ?_, hcalls, ?_⟩
  · intro t ht
    rw [hsettles.links] at ht
    obtain ⟨x, hx, hprovisions⟩ := hcreated t ht
    exact ⟨x, List.mem_append_left _ hx, hprovisions⟩
  · intro x hx t ht
    rcases List.mem_append.mp hx with hx | hx
    · exact hlinks t (hkept x hx t ht)
    · cases List.mem_singleton.mp hx
      exact hlinks t (hy ▸ ht)
  · rw [hsettles.links]
    exact hsubjects
  · rw [hsettles.links]
    exact hone
  · intro t ht
    rw [hsettles.links] at ht
    exact hsettles.users.ids t.1 (howned t ht)
  · intro r' hr'
    rcases hsettles.pendings r' hr' with ⟨r, hr, hsame⟩ | hnew
    · rw [← hsame]
      exact (hpendings r hr).mono hlinks
    · exact hsubject _ hnew

/-- An F04 that creates an account and its link. -/
theorem TakeoverInvariant.provisioned {t : UserId × ProviderId × String}
    (h : TakeoverInvariant P key maxLockoutSecs rfc3339 past w) (hy : y.pre = w)
    (hprovisions : Provisions P key maxLockoutSecs rfc3339 y t)
    (hgrows : Users.Grows w.db.users w'.db.users) (hfresh : w.db.users.get? t.1 = none)
    (hpresent : (w'.db.users.get? t.1).isSome = true)
    (hlinks : linkIdentities w'.db = linkIdentities w.db ++ [t])
    (hunlinked : ∀ t' ∈ linkIdentities w.db, t'.2 ≠ t.2)
    (hpending : w'.db.federationMfaPending = w.db.federationMfaPending)
    (hcalls : ∀ id call, w'.calls id = some call → CallLinked (past ++ [y]) w'.db call) :
    TakeoverInvariant P key maxLockoutSecs rfc3339 (past ++ [y]) w' := by
  obtain ⟨⟨hcreated, hkept, hsubjects, hone, hemails⟩, howned, -, hpendings⟩ := h
  have hmem : ∀ t' ∈ linkIdentities w.db, t' ∈ linkIdentities w'.db := by
    intro t' ht'
    rw [hlinks]
    exact List.mem_append_left _ ht'
  refine ⟨⟨?_, ?_, ?_, ?_, hgrows.emails hemails⟩, ?_, hcalls, ?_⟩
  · intro t' ht'
    rw [hlinks] at ht'
    rcases List.mem_append.mp ht' with hold | hnew
    · obtain ⟨x, hx, hold⟩ := hcreated t' hold
      exact ⟨x, List.mem_append_left _ hx, hold⟩
    · cases List.mem_singleton.mp hnew
      exact ⟨y, List.mem_append_right _ List.mem_cons_self, hprovisions⟩
  · intro x hx t' ht'
    rcases List.mem_append.mp hx with hx | hx
    · exact hmem t' (hkept x hx t' ht')
    · cases List.mem_singleton.mp hx
      exact hmem t' (hy ▸ ht')
  · rw [hlinks, List.map_append, List.nodup_append]
    refine ⟨hsubjects, List.nodup_singleton _, fun a ha b hb => ?_⟩
    obtain ⟨t', ht', rfl⟩ := List.mem_map.mp ha
    cases List.mem_singleton.mp hb
    exact hunlinked t' ht'
  · rw [hlinks, List.map_append, List.nodup_append]
    refine ⟨hone, List.nodup_singleton _, fun a ha b hb heq => ?_⟩
    obtain ⟨t', ht', rfl⟩ := List.mem_map.mp ha
    cases List.mem_singleton.mp hb
    -- the account of a link exists, and this one did not
    have hsome := howned t' ht'
    rw [heq, hfresh] at hsome
    cases hsome
  · intro t' ht'
    rw [hlinks] at ht'
    rcases List.mem_append.mp ht' with hold | hnew
    · exact hgrows.ids t'.1 (howned t' hold)
    · cases List.mem_singleton.mp hnew
      exact hpresent
  · intro r hr
    rw [hpending] at hr
    exact (hpendings r hr).mono hmem

end History

/-! ## One event -/

section Step

variable {P : Primitives} {key : MasterKey} {maxLockoutSecs : Int} {rfc3339 : DateTime → String}
  {past : List FederationTaken} {w : FlowWorld}
variable {request : FlowRequest}

/-- Another request carries nothing of a federated sign-in. -/
theorem FlowRequest.start_plain {call : FlowCall} (hrequest : request.needsResolution = false)
    (h : request.start = some call) :
    call.federated = none ∧ call.newcomer = none := by
  cases request with
  | callback signIn user => cases hrequest
  | provision signIn profile => cases hrequest
  | mfaChallenge cookies fedCsrf code =>
    simp only [FlowRequest.start] at h
    split at h
    · cases h
      exact ⟨rfl, rfl⟩
    · cases h
    · obtain ⟨id, -, rfl⟩ := Option.map_eq_some_iff.mp h
      exact ⟨rfl, rfl⟩
  | _ =>
    cases h
    exact ⟨rfl, rfl⟩

/-- A resolved callback goes on for the user of the link that was read. -/
theorem resolved_linked {db : Database} (callback : VerifiedCallback) {past : List FederationTaken}
    (hresolved : ResolvedFor past callback.signIn) :
    CallLinked past db (callback.resolved P db) := by
  unfold VerifiedCallback.resolved
  split
  · rename_i user hresolve
    refine ⟨fun signIn user' hcarries => ?_, fun signIn hcarries => by cases hcarries⟩
    cases hcarries
    refine ⟨?_, hresolved⟩
    unfold resolveVerifiedIdentity at hresolve
    split at hresolve
    · rename_i link hfind
      cases hresolve
      obtain ⟨hmem, hlink⟩ := Table.mem_of_find? hfind
      simp only [Bool.and_eq_true, beq_iff_eq] at hlink
      refine List.mem_map.mpr ⟨link, hmem, ?_⟩
      simp only [FederationLinkRow.identity, FederatedSignIn.link, hlink.1, hlink.2]
    · split at hresolve
      · cases hresolve
      · split at hresolve
        · cases hresolve
        · split at hresolve
          · cases hresolve
          · cases hresolve
  · refine ⟨fun signIn user hcarries => ?_, fun signIn hcarries => ?_⟩
    · cases hcarries
    · cases hcarries
      exact hresolved
  · exact .plain rfl rfl

private theorem isLinked_of_identity {db : Database} {signIn : FederatedSignIn} {user : UserId}
    (h : (signIn.link user).identity ∈ linkIdentities db) :
    FederationLink.isLinked db user signIn.providerId = true := by
  obtain ⟨l, hl, heq⟩ := List.mem_map.mp h
  simp only [FederationLinkRow.identity, FederatedSignIn.link, Prod.mk.injEq] at heq
  have hkey : l.key = (user, signIn.providerId) := by
    rw [FederationLinkRow.key, heq.1, heq.2.1]
  rw [FederationLink.isLinked, ← hkey, Table.get?_key (Table.mem_iff.mpr hl)]
  rfl

section Next

variable {id : FlowId} {draw : FlowDraw} {call : FlowCall} {y : FederationTaken}

private theorem federationStep_next (hcall : w.calls id = some call) :
    federationStep P key maxLockoutSecs rfc3339 w (.next id draw) =
      (w.after id call (call.advance P key maxLockoutSecs w.db draw),
        (call.advance P key maxLockoutSecs w.db draw).out) :=
  flowStep_next hcall

/-- The calls after an access: this one carries on, the others are as they were. -/
theorem callLinked_after {result : FlowResult}
    (h : TakeoverInvariant P key maxLockoutSecs rfc3339 past w) (hcall : w.calls id = some call)
    (hlinks : ∀ t ∈ linkIdentities w.db, t ∈ linkIdentities result.db)
    (hnext : ∀ call', result.next = some call' →
      call'.newcomer = none ∧ (call'.federated = none ∨ call'.federated = call.federated)) :
    ∀ id' call', (w.after id call result).calls id' = some call' →
      CallLinked (past ++ [y]) result.db call' := by
  intro id' call' hcall'
  simp only [FlowWorld.after] at hcall'
  by_cases hid : id' = id
  · rw [hid, Function.update_self] at hcall'
    obtain ⟨hnewcomer, hfederated⟩ := hnext call' hcall'
    exact ((h.calls id call hcall).mono hlinks).next hnewcomer hfederated
  · rw [Function.update_of_ne hid] at hcall'
    exact (h.calls id' call' hcall').mono hlinks

/-- An access of a call that creates no account. -/
theorem takeoverInvariant_advanced (h : TakeoverInvariant P key maxLockoutSecs rfc3339 past w)
    (hcall : w.calls id = some call) (hnewcomer : call.newcomer = none) (hy : y.pre = w)
    (hevent : y.event = .next id draw) :
    TakeoverInvariant P key maxLockoutSecs rfc3339 (past ++ [y])
      (w.after id call (call.advance P key maxLockoutSecs w.db draw)) := by
  have hlinked := h.calls id call hcall
  have hadvance := @advance_federated P key maxLockoutSecs w.db draw call hnewcomer
    fun signIn user hcarries => isLinked_of_identity (hlinked.federated signIn user hcarries).1
  refine h.settled hy hadvance.settles (fun s hs => ?_)
    (callLinked_after h hcall (fun t ht => hadvance.settles.links ▸ ht) hadvance.next)
  -- F02 issues for the user and the provider of a linked sign-in
  cases call with
  | withFactor first user =>
    cases first with
    | federation signIn =>
      cases hs
      obtain ⟨hlink, hresolved⟩ := hlinked.federated signIn user rfl
      refine ⟨signIn, hresolved.mono, ?_, rfl, hadvance.settles.links ▸ hlink⟩
      exact ⟨y, List.mem_append_right _ List.mem_cons_self, id, draw, hevent, hy ▸ hcall⟩
    | _ => cases hs
  | _ => cases hs

/-- The access of a call that is to create an account. -/
theorem takeoverInvariant_provisioning {signIn : FederatedSignIn} {profile : FederatedProfile}
    (h : TakeoverInvariant P key maxLockoutSecs rfc3339 past w)
    (hcall : w.calls id = some (.provisioning signIn profile)) :
    TakeoverInvariant P key maxLockoutSecs rfc3339
      (past ++ [⟨w, .next id draw,
        (federationStep P key maxLockoutSecs rfc3339 w (.next id draw)).2⟩])
      (federationStep P key maxLockoutSecs rfc3339 w (.next id draw)).1 := by
  have hstep := @federationStep_next P key maxLockoutSecs rfc3339 w id draw _ hcall
  rcases @advance_provisioning P key maxLockoutSecs w.db draw signIn profile with
    ⟨evicted, db', hcommit, hadvance⟩ | hadvance
  · rw [hadvance] at hstep
    obtain ⟨hfresh, hpresent, hgrows, hlinks, hunlinked, hpending⟩ :=
      (provisionFederatedUser_effect hcommit).1
    have hold : ∀ t ∈ linkIdentities w.db, t ∈ linkIdentities db' := by
      intro t ht
      rw [hlinks]
      exact List.mem_append_left _ ht
    have hprovisions : Provisions P key maxLockoutSecs rfc3339 ⟨w, .next id draw,
        (federationStep P key maxLockoutSecs rfc3339 w (.next id draw)).2⟩
        (signIn.link draw.userId).identity := by
      refine ⟨id, draw, signIn, profile, _, rfl, hcall, congrArg Prod.snd hstep, rfl, hfresh, ?_⟩
      rw [hstep]
      refine ⟨hpresent, ?_⟩
      show _ ∈ linkIdentities db'
      rw [hlinks]
      exact List.mem_append_right _ List.mem_cons_self
    refine h.provisioned rfl hprovisions ?_ hfresh ?_ ?_ hunlinked ?_ ?_
    · rw [hstep]
      exact hgrows
    · rw [hstep]
      exact hpresent
    · rw [hstep]
      exact hlinks
    · rw [hstep]
      exact hpending
    · rw [hstep]
      exact callLinked_after h hcall hold fun _ hnext => by cases hnext
  · rw [hadvance] at hstep
    have hsettles : Settles none w.db
        (federationStep P key maxLockoutSecs rfc3339 w (.next id draw)).1.db := by
      rw [hstep]
      exact .refl w.db
    refine h.settled rfl hsettles (fun s hs => by cases hs) ?_
    rw [hstep]
    refine callLinked_after h hcall (fun t ht => ht) fun call' hnext => ?_
    cases hnext
    exact ⟨rfl, .inl rfl⟩

end Next

/-- The calls when one has begun. -/
theorem callLinked_begun {id id' : FlowId} {call call' : FlowCall} {y : FederationTaken}
    (h : TakeoverInvariant P key maxLockoutSecs rfc3339 past w)
    (hnew : CallLinked (past ++ [y]) w.db call)
    (hcall : Function.update w.calls id (some call) id' = some call') :
    CallLinked (past ++ [y]) w.db call' := by
  by_cases hid : id' = id
  · rw [hid, Function.update_self] at hcall
    cases hcall
    exact hnew
  · rw [Function.update_of_ne hid] at hcall
    exact (h.calls id' call' hcall).mono fun _ ht => ht

theorem takeoverInvariant_begun {id : FlowId} {y : FederationTaken}
    (h : TakeoverInvariant P key maxLockoutSecs rfc3339 past w)
    (hrequest : request.needsResolution = false) (hy : y.pre = w) :
    TakeoverInvariant P key maxLockoutSecs rfc3339 (past ++ [y])
      (flowStep P key maxLockoutSecs w (.begin id request)).1 := by
  have hsettles : Settles none w.db (flowStep P key maxLockoutSecs w (.begin id request)).1.db := by
    simp only [flowStep]
    split
    · exact .refl w.db
    · exact .refl w.db
    · exact .refl w.db
  refine h.settled hy hsettles (fun s hs => by cases hs) fun id' call' hcall' => ?_
  simp only [flowStep] at hcall' ⊢
  split at hcall'
  · rename_i call hfree hstart
    obtain ⟨hfederated, hnewcomer⟩ := FlowRequest.start_plain hrequest hstart
    change CallLinked _ w.db call'
    exact callLinked_begun h (.plain hfederated hnewcomer) hcall'
  · exact (h.calls id' call' hcall').mono fun _ ht => ht
  · exact (h.calls id' call' hcall').mono fun _ ht => ht

theorem takeoverInvariant_step {e : FederationEvent}
    (h : TakeoverInvariant P key maxLockoutSecs rfc3339 past w) :
    TakeoverInvariant P key maxLockoutSecs rfc3339
      (past ++ [⟨w, e, (federationStep P key maxLockoutSecs rfc3339 w e).2⟩])
      (federationStep P key maxLockoutSecs rfc3339 w e).1 := by
  have hrefl : Settles none w.db w.db := .refl w.db
  have hsame : ∀ {y : FederationTaken}, y.pre = w →
      TakeoverInvariant P key maxLockoutSecs rfc3339 (past ++ [y]) w := fun hy =>
    h.settled hy hrefl (fun s hs => by cases hs)
      fun id call hcall => (h.calls id call hcall).mono fun _ ht => ht
  cases e with
  | resolve id callback =>
    cases hcall : w.calls id with
    | some call =>
      have hstep : federationStep P key maxLockoutSecs rfc3339 w (.resolve id callback) =
          (w, .ignored) := by
        simp only [federationStep, hcall]
      rw [hstep]
      exact hsame rfl
    | none =>
      have hstep : federationStep P key maxLockoutSecs rfc3339 w (.resolve id callback) =
          ({ w with calls := Function.update w.calls id (some (callback.resolved P w.db)) },
            .running) := by
        simp only [federationStep, hcall]
      rw [hstep]
      refine h.settled rfl hrefl (fun s hs => by cases hs) fun id' call' hcall' => ?_
      change CallLinked _ w.db call'
      exact callLinked_begun h (resolved_linked callback
        ⟨_, List.mem_append_right _ List.mem_cons_self, id, callback, rfl, rfl⟩) hcall'
  | begin id request =>
    cases hrequest : request.needsResolution with
    | true =>
      have hstep : federationStep P key maxLockoutSecs rfc3339 w (.begin id request) =
          (w, .ignored) := by
        simp only [federationStep, hrequest, if_true]
      rw [hstep]
      exact hsame rfl
    | false =>
      have hstep : federationStep P key maxLockoutSecs rfc3339 w (.begin id request) =
          flowStep P key maxLockoutSecs w (.begin id request) := by
        simp only [federationStep, hrequest, Bool.false_eq_true, if_false]
      rw [hstep]
      exact takeoverInvariant_begun h hrequest rfl
  | next id draw =>
    cases hcall : w.calls id with
    | none =>
      have hstep : federationStep P key maxLockoutSecs rfc3339 w (.next id draw) =
          (w, .ignored) := by
        simp only [federationStep, flowStep, hcall]
      rw [hstep]
      exact hsame rfl
    | some call =>
      cases hnewcomer : call.newcomer with
      | none =>
        rw [federationStep_next hcall]
        exact takeoverInvariant_advanced h hcall hnewcomer rfl rfl
      | some signIn =>
        cases call with
        | provisioning signIn' profile => exact takeoverInvariant_provisioning h hcall
        | _ => cases hnewcomer
  | account command =>
    by_cases hcommand : ∀ transaction, command ≠ .signIn transaction
    · have hstep : federationStep P key maxLockoutSecs rfc3339 w (.account command) =
          w.commit (command.perform P key rfc3339 w.db) := by
        cases command with
        | signIn transaction => exact absurd rfl (hcommand transaction)
        | _ => rfl
      rw [hstep]
      cases hok : command.perform P key rfc3339 w.db with
      | error error => exact hsame rfl
      | ok db' =>
        have hsettles : Settles none w.db db' := (accountCommand_effect hcommand hok).settles
        exact h.settled rfl hsettles (fun s hs => by cases hs)
          fun id call hcall => (h.calls id call hcall).mono fun t ht => hsettles.links ▸ ht
    · obtain ⟨transaction, htransaction⟩ := not_forall_not.mp hcommand
      rw [htransaction]
      exact hsame rfl
  | purgePendings now =>
    have hsettles : Settles none w.db (FederationMfaPending.purgeExpired w.db now) := by
      refine ⟨.refl _, rfl, fun r hr => .inl ⟨r, ?_, rfl⟩⟩
      exact (Table.mem_delete.mp hr).1
    exact h.settled rfl hsettles (fun s hs => by cases hs)
      fun id call hcall => (h.calls id call hcall).mono fun _ ht => ht
  | elsewhere db =>
    have hsettles : Settles none w.db (w.writeElsewhere db).db := .of_users (.refl _) rfl rfl
    exact h.settled rfl hsettles (fun s hs => by cases hs)
      fun id call hcall => (h.calls id call hcall).mono fun _ ht => ht

end Step

/-! ## Sessions -/

section Sessions

variable {P : Primitives} {key : MasterKey} {maxLockoutSecs : Int} {rfc3339 : DateTime → String}

/-- The next access of the call is L04, F03 or F04. -/
def FlowCall.opensFederated : FlowCall → Bool
  | .withoutFactor (.federation _) _ => true
  | .fedDecided _ _ _ => true
  | .provisioning _ _ => true
  | _ => false

/-- The step is L04, F03 or F04, and opened the session. -/
def FederationTaken.Opens (x : FederationTaken) (session : SessionRow) : Prop :=
  x.out = .signedIn session ∧
    ∃ id draw call, x.event = .next id draw ∧ x.pre.calls id = some call ∧
      call.opensFederated = true

/-- The callback whose session the step opened: the one of the call, or the one that F02
issued the continuation for. -/
inductive OpenedBy (past : List FederationTaken) (x : FederationTaken) (user : UserId) :
    FederatedSignIn → Prop where
  | direct {id draw signIn} (hevent : x.event = .next id draw)
      (hcall : x.pre.calls id = some (.withoutFactor (.federation signIn) user)) :
      OpenedBy past x user signIn
  | first {id draw signIn profile} (hevent : x.event = .next id draw)
      (hcall : x.pre.calls id = some (.provisioning signIn profile)) : OpenedBy past x user signIn
  | continued {id draw} {signIn : FederatedSignIn} {pending proof generic}
      {row : FederationMfaPendingRow} (hevent : x.event = .next id draw)
      (hcall : x.pre.calls id = some (.fedDecided pending proof generic))
      (hrow : x.pre.db.federationMfaPending.get? pending = some row) (huser : row.userId = user)
      (hprovider : row.providerId = signIn.providerId)
      (hcontinued : ContinuedFor past signIn user) :
      OpenedBy past x user signIn

variable {session : SessionRow}

/-- L04 opens a session for the user of the call. -/
theorem establishSession_federated {db : Database} {draw : FlowDraw} {user : UserId}
    {signIn : FederatedSignIn}
    (h : (establishSession P db draw user (.federation signIn)).out = .signedIn session) :
    session.userId = user := by
  simp only [establishSession] at h
  split at h
  · cases h
    rfl
  · cases h

/-- F03 opens a session for the user of the continuation. -/
theorem promoteFederated_signedIn {db : Database} {draw : FlowDraw}
    {pending : FederationMfaPendingId} {proof : Option F03Proof} {generic : Option PendingMfaId}
    (h : (promoteFederated P key db draw pending proof generic).out = .signedIn session) :
    ∃ row, db.federationMfaPending.get? pending = some row ∧ session.userId = row.userId := by
  unfold promoteFederated at h
  split at h
  · rename_i hcommit
    cases h
    obtain ⟨row, method, hrow, -, rfl⟩ := completeFederatedMfa_session hcommit
    exact ⟨row, hrow, rfl⟩
  · cases h
  · cases h
  · cases h
  · cases h
  · cases h
  · cases h

/-- Every federated session is of a resolved callback, for the user whose link has its subject. -/
theorem opened_linked {past : List FederationTaken} {x : FederationTaken}
    (h : TakeoverInvariant P key maxLockoutSecs rfc3339 past x.pre)
    (hout : x.out = (federationStep P key maxLockoutSecs rfc3339 x.pre x.event).2)
    (hopens : x.Opens session) :
    ∃ signIn, ResolvedFor past signIn ∧ OpenedBy past x session.userId signIn ∧
      (session.userId, signIn.providerId, signIn.upstreamSub) ∈
        linkIdentities (federationStep P key maxLockoutSecs rfc3339 x.pre x.event).1.db := by
  obtain ⟨hsigned, id, draw, call, hevent, hcall, hopened⟩ := hopens
  have hlinked := h.calls id call hcall
  have hstep := @federationStep_next P key maxLockoutSecs rfc3339 x.pre id draw call hcall
  rw [hevent, hstep, hsigned] at hout
  rw [hevent, hstep]
  have hkeeps : ∀ t ∈ linkIdentities x.pre.db, call.newcomer = none →
      t ∈ linkIdentities (call.advance P key maxLockoutSecs x.pre.db draw).db := by
    intro t ht hnewcomer
    have hadvance := @advance_federated P key maxLockoutSecs x.pre.db draw call hnewcomer
      fun signIn user hcarries => isLinked_of_identity (hlinked.federated signIn user hcarries).1
    rw [hadvance.settles.links]
    exact ht
  cases call with
  | withoutFactor first user =>
    cases first with
    | federation signIn =>
      obtain ⟨hlink, hresolved⟩ := hlinked.federated signIn user rfl
      have huser : session.userId = user := establishSession_federated hout.symm
      rw [huser]
      exact ⟨signIn, hresolved, .direct hevent hcall, hkeeps _ hlink rfl⟩
    | password credential => cases hopened
    | directory shadow sourceSlug => cases hopened
  | fedDecided pending proof generic =>
    obtain ⟨row, hrow, huser⟩ := promoteFederated_signedIn hout.symm
    obtain ⟨signIn, hresolved, hcontinued, hprovider, hlink⟩ :=
      h.pendings row (Table.get?_eq_some.mp hrow).1
    rw [huser]
    exact ⟨signIn, hresolved, .continued hevent hcall hrow rfl hprovider.symm hcontinued,
      hkeeps _ hlink rfl⟩
  | provisioning signIn profile =>
    rcases @advance_provisioning P key maxLockoutSecs x.pre.db draw signIn profile with
      ⟨evicted, db', hcommit, hadvance⟩ | hadvance
    · obtain ⟨⟨-, -, -, hlinks, -, -⟩, -⟩ := provisionFederatedUser_effect hcommit
      rw [hadvance] at hout ⊢
      cases hout
      refine ⟨signIn, hlinked.newcomer signIn rfl, .first hevent hcall, ?_⟩
      change _ ∈ linkIdentities db'
      rw [hlinks]
      exact List.mem_append_right _ List.mem_cons_self
    · rw [hadvance] at hout
      cases hout
  | _ => cases hopened

end Sessions

/-! ## Every run -/

section Runs

variable (P : Primitives) (key : MasterKey) (maxLockoutSecs : Int) (rfc3339 : DateTime → String)

/-- Nobody has signed in through a provider yet. -/
structure Unfederated (db : Database) : Prop where
  links : db.federationLink = ∅
  pendings : db.federationMfaPending = ∅
  emails : Users.EmailsUnique db.users

/-- The session is for the account that an F04 created for the verified subject of its callback. -/
def OwnSession (past : List FederationTaken) (x : FederationTaken) (session : SessionRow) : Prop :=
  ∃ signIn, ResolvedFor past signIn ∧ OpenedBy past x session.userId signIn ∧
    (session.userId, signIn.providerId, signIn.upstreamSub) ∈
      linkIdentities (federationStep P key maxLockoutSecs rfc3339 x.pre x.event).1.db ∧
    ∃ y ∈ past ++ [x], Provisions P key maxLockoutSecs rfc3339 y
      (session.userId, signIn.providerId, signIn.upstreamSub)

variable {P key maxLockoutSecs rfc3339}

theorem takeoverInvariant_start {db : Database} (h : Unfederated db)
    (origins : PendingMfaId → Option FirstFactor) :
    TakeoverInvariant P key maxLockoutSecs rfc3339 [] (.start db origins) := by
  have hlinks : linkIdentities (FlowWorld.start db origins).db = [] := by
    change linkIdentities db = []
    rw [linkIdentities, h.links]
    rfl
  refine ⟨⟨?_, ?_, ?_, ?_, h.emails⟩, ?_, ?_, ?_⟩
  · intro t ht
    rw [hlinks] at ht
    cases ht
  · intro y hy
    cases hy
  · rw [hlinks]
    exact List.nodup_nil
  · rw [hlinks]
    exact List.nodup_nil
  · intro t ht
    rw [hlinks] at ht
    cases ht
  · intro id call hcall
    cases hcall
  · intro r hr
    rw [show (FlowWorld.start db origins).db.federationMfaPending = ∅ from h.pendings] at hr
    cases hr

/-- No federated sign-in reaches an account that another identity, or a registration, made. -/
theorem no_federated_takeover {db : Database} (h : Unfederated db)
    (origins : PendingMfaId → Option FirstFactor) (events : List FederationEvent) :
    NoTakeover P key maxLockoutSecs rfc3339
        (trace (federationStep P key maxLockoutSecs rfc3339) (.start db origins) events)
        (run (federationStep P key maxLockoutSecs rfc3339) (.start db origins) events) ∧
      ∀ past x rest session,
        trace (federationStep P key maxLockoutSecs rfc3339) (.start db origins) events =
          past ++ x :: rest →
        x.Opens session → OwnSession P key maxLockoutSecs rfc3339 past x session := by
  have hstart := @takeoverInvariant_start P key maxLockoutSecs rfc3339 db h origins
  have hstep : ∀ past w (e : FederationEvent),
      TakeoverInvariant P key maxLockoutSecs rfc3339 past w → True →
      TakeoverInvariant P key maxLockoutSecs rfc3339
        (past ++ [⟨w, e, (federationStep P key maxLockoutSecs rfc3339 w e).2⟩])
        (federationStep P key maxLockoutSecs rfc3339 w e).1 :=
    fun past w e hinv _ => takeoverInvariant_step hinv
  refine ⟨(run_trace_history hstep (guarded_true _ events) hstart).links, ?_⟩
  intro past x rest session hx hopens
  obtain ⟨hinv, -, hout⟩ := trace_history hstep (guarded_true _ events) hstart hx
  obtain ⟨signIn, hresolved, hopened, hlink⟩ := opened_linked hinv hout hopens
  have hafter := @takeoverInvariant_step P key maxLockoutSecs rfc3339 past x.pre x.event hinv
  rw [← hout] at hafter
  exact ⟨signIn, hresolved, hopened, hlink, hafter.links.created _ hlink⟩

end Runs

/-! ## Two visits of one subject -/

private theorem exchangedAttempt_claimed :
    AttemptStatus.exchanging = .pending ↔ some (0 : DateTime) = none := by
  decide

/-- An attempt that provider 1 has answered. -/
def exchangedAttempt (id : AttemptId) : FederationLoginAttemptRow where
  id := id
  providerId := 1
  providerConfigVersion := 0
  providerActivationGeneration := 0
  stateSha256 := [UInt8.ofNat id]
  nonceSha256 := []
  browserBindingSha256 := []
  pkceVerifierSealed := []
  exactRedirectUri := ""
  nextPath := none
  createdAt := 0
  expiresAt := seconds 600
  status := .exchanging
  claimedAt := some 0
  check_claimed := exchangedAttempt_claimed

/-- Account 1 registered here; two attempts are exchanged. -/
def registeredDb : Database :=
  { linkedDb with
    users := ⟨[plainUser 1 "ada" .admin], by decide⟩
    userTotp := ∅
    federationLink := ∅
    federationLoginAttempt := ⟨[exchangedAttempt 3, exchangedAttempt 4], by decide⟩ }

/-- Subject `ada` of provider 1 comes back from the attempt. -/
def visit (attempt : AttemptId) : VerifiedCallback where
  signIn :=
    { attemptId := attempt, providerId := 1, providerSlug := "corp", providerConfigVersion := 0
      providerActivationGeneration := 0, nextPath := none, upstreamSub := "ada"
      upstreamEmail := some "ada@corp.example", now := seconds 1 }
  mode := .provisionOnFirstLogin
  username := "ada2"
  displayName := none

/-- The first visit provisions account 60, the second one signs it in. -/
def twoVisits : List FederationEvent :=
  ([.resolve 0 (visit 3), .next 0 (.sample (seconds 1)), .resolve 1 (visit 4)] :
      List FederationEvent) ++
    List.replicate 5 (.next 1 { FlowDraw.sample (seconds 2) with sessionId := 41 })

def visitTrace : List FederationTaken :=
  trace (federationStep .transparent (.constant 7) 0 fun _ => "")
    (.start registeredDb fun _ => none) twoVisits

private theorem registeredDb_unfederated : Unfederated registeredDb where
  links := rfl
  pendings := rfl
  emails := by
    intro u hu u' hu' email hemail hemail'
    cases List.mem_singleton.mp hu
    cases List.mem_singleton.mp hu'
    rfl

private theorem visitTrace_split :
    visitTrace = visitTrace.take 7 ++ (visitTrace.get ⟨7, by decide⟩) :: [] := rfl

private theorem visitTrace_opens :
    FederationTaken.Opens (visitTrace.get ⟨7, by decide⟩) (externalSession 41 60 (seconds 1)) :=
  ⟨rfl, 1, _, .withoutFactor (.federation (visit 4).signIn) 60, rfl, rfl, rfl⟩

theorem no_federated_takeover_twoVisits :
    Unfederated registeredDb ∧
      OwnSession .transparent (.constant 7) 0 (fun _ => "") (visitTrace.take 7)
        (visitTrace.get ⟨7, by decide⟩) (externalSession 41 60 (seconds 1)) :=
  ⟨registeredDb_unfederated,
    (no_federated_takeover registeredDb_unfederated (fun _ => none) twoVisits).2 _ _ _ _
      visitTrace_split visitTrace_opens⟩

end SuiId
