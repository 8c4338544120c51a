import SuiId.Proofs.Lockout
import SuiId.Proofs.LoginSteps
import SuiId.Store.Eviction

/-!
# The cap on concurrent sessions

Every sign-in evicts over the cap in the transaction that inserts its session, so
the cap holds right after each commit, and only sessions of that user go.  Which
ones is decided by `created_at`, and that is read from the clock before the
transaction.  A sign-in that commits late is older than those that overtook it:
when they fill the cap, it revokes the session it has just created.
`sessionCap_iff` says that this is the only way to fail.
-/

namespace SuiId

open Lib Lib.Result FlowResult

theorem lt_later {now : DateTime} {secs : Int} (h : 0 < secs) : now < now + seconds secs :=
  Int.lt_add_of_pos_right now (Int.mul_pos h (by decide))

section Commit

variable {P : Primitives} {key : MasterKey} {maxLockoutSecs : Int} {db db' : Database}
  {session : SessionRow}

/-- F03. -/
theorem completeFederatedMfa_opened {pendingId : FederationMfaPendingId} {proof : Option F03Proof}
    {sessionId : SessionId} {now : DateTime} {evicted : Nat} {method : String}
    (h : completeFederatedMfa P key db pendingId proof sessionId now =
      .ok (.promoted session evicted method, db')) :
    Sessions.Opened db db' session ∧ session.revokedAt = none ∧
      session.createdAt < session.expiresAt := by
  obtain ⟨row, promotion, db₁, -, -, -, hkept, hpromote⟩ := completeFederatedMfa_promoted h
  simp only [promote, FederationLink.touchLastSeen, bind_eq_ok, ensure_eq_ok, pure_eq_ok,
    Prod.mk.injEq, F03Outcome.promoted.injEq] at hpromote
  obtain ⟨d₁, ⟨-, -, rfl⟩, d₂, hlogin, d₃, hinsert, ⟨rfl, -, -⟩, rfl⟩ := hpromote
  obtain ⟨-, rfl⟩ := Users.updateWhere_ok hlogin
  exact ⟨(Sessions.opened_of_insert hinsert).of_eq hkept.sessions.symm hkept.settings.symm rfl,
    rfl, lt_later (by decide)⟩

/-- A step that answers with a session has inserted it and evicted over the cap; the
session is unrevoked and unexpired. -/
theorem Committed.opened {draw : FlowDraw} {call : FlowCall} {result : FlowResult}
    (h : Committed P key db draw call result) (hout : result.out = .signedIn session) :
    Sessions.Opened db result.db session ∧ session.revokedAt = none ∧
      session.createdAt < session.expiresAt := by
  cases h with
  | password h =>
    cases hout
    exact ⟨(signInWithPassword_inserted h).opened, rfl, lt_later (by decide)⟩
  | directory h =>
    cases hout
    exact ⟨(signInFromDirectory_inserted h).opened, rfl, lt_later (by decide)⟩
  | federation h =>
    cases hout
    exact ⟨(signInFederated_inserted h).opened, rfl, lt_later (by decide)⟩
  | provisioned h =>
    cases hout
    exact ⟨(provisionFederatedUser_inserted h).opened, rfl, lt_later (by decide)⟩
  | code h | assertion h =>
    cases hout
    obtain ⟨rfl, -⟩ := completeSecondFactor_ok h
    exact ⟨(completeSecondFactor_inserted h).opened, rfl, lt_later (by decide)⟩
  | promoted h =>
    cases hout
    exact completeFederatedMfa_opened h
  | directoryPending h => cases hout
  | passwordPending h => cases hout
  | federationPending h => cases hout
  | changed h => cases hout

end Commit

end SuiId
