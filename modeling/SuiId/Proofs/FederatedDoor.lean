import SuiId.Proofs.LoginSteps
import SuiId.Proofs.Lockout

/-!
# The two doors of a federated sign-in

The callback of a user with a second factor issues two rows:
`federation_mfa_pending`, by F02, and the generic `login_pending_mfa`.  A code
with the federated cookie goes to F03, which reads the provider, the link, the
account and the row's budget again.  The generic row is kept for the passkey
path, and L02 completes it without any of these reads, for a code too.

`federated_continuation` follows every session that continues a federated
sign-in back to its door: a promotion of a row that is still redeemable, or a
request that presented the generic row and no federated cookie.  The second
door is the defect: `code_completes_generic_row` gets past an exhausted row.
-/

namespace SuiId

open Lib Lib.Result

/-! ## Statements -/

/-- The pending row that a request presents at the local door. -/
def FlowRequest.localDoor : FlowRequest → Option PendingMfaId
  | .mfaChallenge cookies _ _ => if cookies.fedPending.isNone then cookies.pending else none
  | .assertion pending => some pending
  | _ => none

/-- The next step completes a federated sign-in: by F03, or on the generic row
that the callback issued. -/
def FlowWorld.completesFederated (w : FlowWorld) (e : FlowEvent) : Prop :=
  (∃ id draw pending proof generic, e = .next id draw ∧
      w.calls id = some (.fedDecided pending proof generic)) ∨
    ∃ signIn, w.continued e = some (.federation signIn)

/-- F03 promotes a row: it is pending, within its budget and its time; the
provider is enabled and the link is there. -/
def Promoted (P : Primitives) (key : MasterKey) (x : FlowTaken) (session : SessionRow) : Prop :=
  ∃ id draw row proof generic, x.event = .next id draw ∧
    x.pre.calls id = some (.fedDecided row.id proof generic) ∧ session.userId = row.userId ∧
    Redeemable P key x.pre.db row proof draw.sessionId draw.now ∧
    FederationProvider.isEnabled x.pre.db row.providerId = .ok true ∧
    FederationLink.isLinked x.pre.db row.userId row.providerId = true

/-- L02 completes the generic row, for a request that presented it without a
federated cookie. -/
def ThroughLocalDoor (past : List FlowTaken) (x : FlowTaken) (session : SessionRow) : Prop :=
  ∃ id draw request r signIn, x.event = .next id draw ∧
    (∃ y ∈ past, y.event = .begin id request) ∧ request.localDoor = some r.id ∧
    r ∈ x.pre.db.loginPendingMfa ∧ r.userId = session.userId ∧ session.createdAt < r.expiresAt ∧
    x.pre.origins r.id = some (.federation signIn)

/-- The step is one of a call that presented, at the local door, the generic row of
a federated callback. -/
def AtLocalDoor (x : FlowTaken) : Prop :=
  ∃ id draw call pending signIn, x.event = .next id draw ∧ x.pre.calls id = some call ∧
    call.localPending = some pending ∧ x.pre.origins pending = some (.federation signIn)

/-- F03 is no step of the local door. -/
theorem Promoted.not_atLocalDoor {P : Primitives} {key : MasterKey} {x : FlowTaken}
    {session : SessionRow} (h : Promoted P key x session) : ¬ AtLocalDoor x := by
  rintro ⟨id, draw, call, pending, signIn, hevent, hcall, hlocal, -⟩
  obtain ⟨id', draw', row, proof, generic, hevent', hcall', -⟩ := h
  cases hevent.symm.trans hevent'
  cases hcall.symm.trans hcall'
  cases hlocal

/-! ## Where a call of the local door comes from -/

theorem FlowRequest.localDoor_of_start {request : FlowRequest} {call : FlowCall}
    {id : PendingMfaId} (hstart : request.start = some call) (hid : call.localPending = some id) :
    request.localDoor = some id := by
  cases request with
  | mfaChallenge cookies fedCsrf code =>
    simp only [FlowRequest.start] at hstart
    split at hstart
    · cases hstart
      cases hid
    · cases hstart
    · rename_i hfed
      obtain ⟨pending, hpending, rfl⟩ := Option.map_eq_some_iff.mp hstart
      simp only [FlowRequest.localDoor, hfed, Option.isNone_none, if_true, hpending]
      exact hid
  | assertion pending =>
    cases hstart
    exact hid
  | _ =>
    cases hstart
    cases hid

/-- A call of the local door began with a request that presented its row. -/
def LocalCallsBegun (past : List FlowTaken) (w : FlowWorld) : Prop :=
  ∀ id call pending, w.calls id = some call → call.localPending = some pending →
    ∃ request, (∃ y ∈ past, y.event = .begin id request) ∧ request.localDoor = some pending

section Runs

variable {P : Primitives} {key : MasterKey} {maxLockoutSecs : Int}

theorem localCallsBegun_step {past : List FlowTaken} {w : FlowWorld} {e : FlowEvent}
    (hinv : LocalCallsBegun past w) :
    LocalCallsBegun (past ++ [⟨w, e, (flowStep P key maxLockoutSecs w e).2⟩])
      (flowStep P key maxLockoutSecs w e).1 := by
  intro id call' pending hcall' hlocal
  have hearlier : ∀ {request}, (∃ y ∈ past, y.event = .begin id request) →
      ∃ y ∈ past ++ [⟨w, e, (flowStep P key maxLockoutSecs w e).2⟩],
        y.event = .begin id request := by
    rintro request ⟨y, hy, hbegin⟩
    exact ⟨y, List.mem_append_left _ hy, hbegin⟩
  rcases flowStep_calls hcall' with ⟨hold, -⟩ | ⟨request, hbegin, hstart⟩ |
    ⟨draw, call, -, hcall, hnext⟩
  · obtain ⟨request, hbegun, hdoor⟩ := hinv id call' pending hold hlocal
    exact ⟨request, hearlier hbegun, hdoor⟩
  · exact ⟨request, ⟨_, List.mem_append_right _ (List.mem_singleton_self _), hbegin⟩,
      FlowRequest.localDoor_of_start hstart hlocal⟩
  · obtain ⟨request, hbegun, hdoor⟩ :=
      hinv id call pending hcall ((advance_next hnext).localPending hlocal)
    exact ⟨request, hearlier hbegun, hdoor⟩

/-- A session that F03 answers with was promoted. -/
private theorem promoted_of_signedIn {x : FlowTaken} {session : SessionRow}
    {id : FlowId} {draw : FlowDraw} {pending : FederationMfaPendingId} {proof : Option F03Proof}
    {generic : Option PendingMfaId}
    (hout : x.out = (flowStep P key maxLockoutSecs x.pre x.event).2)
    (hsigned : x.out = .signedIn session) (hevent : x.event = .next id draw)
    (hcall : x.pre.calls id = some (.fedDecided pending proof generic)) :
    Promoted P key x session := by
  obtain ⟨id', draw', call', result, hevent', hcall', hcommitted, hanswer⟩ :=
    signedIn_committed hout hsigned
  cases hevent.symm.trans hevent'
  cases hcall.symm.trans hcall'
  cases hcommitted with
  | promoted h =>
    cases hanswer
    obtain ⟨row, rfl, huser, hredeemable, -⟩ := redeemable_of_promoted h
    obtain ⟨henabled, hlinked, -⟩ := authorityDrift_none hredeemable.authority
    exact ⟨id, draw, row, proof, generic, hevent, hcall, huser, hredeemable, henabled, hlinked⟩

/-- In every run, a session that completes a federated sign-in is a promotion, or
came through the local door. -/
theorem federated_continuation {db : Database} {origins : PendingMfaId → Option FirstFactor}
    {es : List FlowEvent} {past rest : List FlowTaken} {x : FlowTaken} {session : SessionRow}
    (hx : flowTrace P key maxLockoutSecs (.start db origins) es = past ++ x :: rest)
    (hsigned : x.out = .signedIn session) (hfed : x.pre.completesFederated x.event) :
    Promoted P key x session ∨ AtLocalDoor x ∧ ThroughLocalDoor past x session := by
  have hstart : LocalCallsBegun [] (.start db origins) := by
    intro id call pending hcall
    cases hcall
  obtain ⟨hbegun, -, hout⟩ := Machine.trace_history (fun _ _ _ hinv _ => localCallsBegun_step hinv)
    (Machine.guarded_true _ es) hstart hx
  rcases hfed with ⟨id, draw, pending, proof, generic, hevent, hcall⟩ | ⟨signIn, hcontinued⟩
  · exact .inl (promoted_of_signedIn hout hsigned hevent hcall)
  · obtain ⟨r, hr, huser, hexpires, horigin, id, draw, call, hevent, hcall, hlocal⟩ :=
      continued_row hout hsigned hcontinued
    obtain ⟨request, hbegin, hdoor⟩ := hbegun id call r.id hcall hlocal
    exact .inr ⟨⟨id, draw, call, r.id, signIn, hevent, hcall, hlocal, horigin⟩,
      id, draw, request, r, signIn, hevent, hbegin, hdoor, hr, huser, hexpires, horigin⟩

/-- In every run, a session that completes a federated sign-in is a promotion exactly
if its request did not present the generic row at the local door. -/
theorem federated_continuation_iff {db : Database}
    {origins : PendingMfaId → Option FirstFactor} {es : List FlowEvent}
    {past rest : List FlowTaken} {x : FlowTaken} {session : SessionRow}
    (hx : flowTrace P key maxLockoutSecs (.start db origins) es = past ++ x :: rest)
    (hsigned : x.out = .signedIn session) (hfed : x.pre.completesFederated x.event) :
    (Promoted P key x session ↔ ¬ AtLocalDoor x) ∧
      (AtLocalDoor x → ThroughLocalDoor past x session) := by
  rcases federated_continuation hx hsigned hfed with hpromoted | ⟨hdoor, hthrough⟩
  · have hnot := hpromoted.not_atLocalDoor
    exact ⟨iff_of_true hpromoted hnot, fun hdoor => absurd hdoor hnot⟩
  · exact ⟨iff_of_false (fun h => h.not_atLocalDoor hdoor) (not_not_intro hdoor), fun _ => hthrough⟩

end Runs

/-! ## Both doors -/

/-- User 7, linked to provider 1, has an authenticator and a passkey; the exchange
of attempt 3 is done. -/
def doorDb : Database :=
  { linkedDb with
    userTotp := sampleAuthenticators
    webauthnCredentials := ⟨[{ id := 9, userId := 7, credentialId := [9], passkeyEnc := []
                               nickname := "key", createdAt := 0, lastUsedAt := none }], by decide⟩
    federationLoginAttempt := ⟨[{ id := 3, providerId := 1, providerConfigVersion := 0
                                  providerActivationGeneration := 0, stateSha256 := []
                                  nonceSha256 := [], browserBindingSha256 := []
                                  pkceVerifierSealed := [], exactRedirectUri := ""
                                  nextPath := none, createdAt := 0, expiresAt := seconds 600
                                  status := .exchanging, claimedAt := some 0
                                  check_claimed := by decide }], by decide⟩ }

/-- The callback, up to its two rows: 70 of the federated door and 50 of the
local one. -/
def federatedCallback : List FlowEvent :=
  [.begin 0 (.callback
      { attemptId := 3, providerId := 1, providerSlug := "corp", providerConfigVersion := 0
        providerActivationGeneration := 0, nextPath := none, upstreamSub := "ada"
        upstreamEmail := none, now := seconds 1 } 7),
    .next 0 (.sample (seconds 1)), .next 0 (.sample (seconds 1)), .next 0 (.sample (seconds 1)),
    .next 0 (.sample (seconds 1)), .next 0 (.sample (seconds 1))]

/-- A code with the federated cookie. -/
def codeAtFederatedDoor : List FlowEvent :=
  federatedCallback ++
    ([.begin 1 (.mfaChallenge ⟨some (some 70), "b", some 50⟩ "c" "0"),
      .next 1 (.sample (seconds 2)), .next 1 (.sample (seconds 2)), .next 1 (.sample (seconds 2)),
      .next 1 (.sample (seconds 2)), .next 1 (.sample (seconds 2)),
      .next 1 (.sample (seconds 2))] : List FlowEvent)

/-- The steps of a run on `doorDb`. -/
abbrev doorTrace (es : List FlowEvent) : List FlowTaken :=
  flowTrace .transparent (.constant 7) 86400 (.start doorDb fun _ => none) es

private theorem codeAtFederatedDoor_length : 12 < (doorTrace codeAtFederatedDoor).length := by
  decide

private theorem codeAtFederatedDoor_call :
    (doorTrace codeAtFederatedDoor)[12].pre.calls 1 =
      some (.fedDecided 70 (some (.totp (-1))) (some 50)) := by
  rfl

private theorem codeAtFederatedDoor_split :
    doorTrace codeAtFederatedDoor = (doorTrace codeAtFederatedDoor).take 12 ++
      (doorTrace codeAtFederatedDoor)[12] :: (doorTrace codeAtFederatedDoor).drop 13 := by
  rw [← List.drop_eq_getElem_cons codeAtFederatedDoor_length, List.take_append_drop]

/-- A call of F03 presents no generic row. -/
private theorem codeAtFederatedDoor_door : ¬ AtLocalDoor ((doorTrace codeAtFederatedDoor)[12]) := by
  rintro ⟨id, draw, call, pending, signIn, hevent, hcall, hlocal, -⟩
  cases hevent
  cases codeAtFederatedDoor_call.symm.trans hcall
  cases hlocal

theorem federated_continuation_codeAtFederatedDoor :
    (doorTrace codeAtFederatedDoor)[12].out.session.isSome = true ∧
      ∀ session, (doorTrace codeAtFederatedDoor)[12].out.session = some session →
        Promoted .transparent (.constant 7) ((doorTrace codeAtFederatedDoor)[12]) session := by
  refine ⟨by decide +kernel, fun session hsession => ?_⟩
  exact (federated_continuation_iff codeAtFederatedDoor_split
    (FlowAnswer.session_eq_some.mp hsession) (.inl ⟨1, .sample (seconds 2), 70,
      some (.totp (-1)), some 50, rfl, codeAtFederatedDoor_call⟩)).1.mpr codeAtFederatedDoor_door

private theorem exhausted_keeps_nothing :
    MfaPendingStatus.exhausted = .pending ↔ (none : Option Bytes) ≠ none := by
  decide

/-- The federated row of user 7 is used up, and the upstream sign-in has begun again. -/
def exhaustedDb : Database :=
  { doorDb with
    federationMfaPending := ⟨[{ id := 69, providerId := 1, providerConfigVersion := 0
                                providerActivationGeneration := 0, userId := 7
                                continuationSealed := none, nextPath := none
                                browserBindingSha256 := [], csrfBindingSha256 := []
                                failureCount := 5, status := .exhausted, createdAt := 0
                                expiresAt := seconds 300, check_failureCount := by decide
                                check_continuation := exhausted_keeps_nothing }], by decide⟩ }

/-- The callback, and a right code with the generic cookie alone. -/
def codeAtLocalDoor : List FlowEvent :=
  federatedCallback ++
    ([.begin 1 (.mfaChallenge ⟨none, "", some 50⟩ "" "0"), .next 1 (.sample (seconds 2)),
      .next 1 (.sample (seconds 2)), .next 1 (.sample (seconds 2))] : List FlowEvent)

/-- The steps of that run. -/
abbrev exhaustedTrace : List FlowTaken :=
  flowTrace .transparent (.constant 7) 86400 (.start exhaustedDb fun _ => none) codeAtLocalDoor

private theorem exhaustedTrace_length : 9 < exhaustedTrace.length := by
  decide

private theorem exhaustedTrace_session : exhaustedTrace[9].out.session.isSome = true := by
  decide +kernel

private theorem exhaustedTrace_row :
    (exhaustedTrace[9].pre.calls 1).bind FlowCall.localPending = some 50 := by
  decide +kernel

/-- The federated row is exhausted, and a session of the federated sign-in begins
without it. -/
theorem code_completes_generic_row :
    ¬ ∀ x ∈ exhaustedTrace, ∀ session, x.out = .signedIn session →
      x.pre.completesFederated x.event → Promoted .transparent (.constant 7) x session := by
  intro h
  obtain ⟨session, hsession⟩ := Option.isSome_iff_exists.mp exhaustedTrace_session
  have hfed : exhaustedTrace[9].pre.completesFederated exhaustedTrace[9].event := .inr ⟨_, rfl⟩
  obtain ⟨id, draw, row, proof, generic, hevent, hcall, -⟩ :=
    h _ (List.getElem_mem exhaustedTrace_length) session (FlowAnswer.session_eq_some.mp hsession)
      hfed
  cases hevent
  have hrow := exhaustedTrace_row
  rw [hcall] at hrow
  cases hrow

end SuiId
