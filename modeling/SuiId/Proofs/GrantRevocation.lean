import SuiId.Proofs.Delegation
import SuiId.Proofs.DisabledUsers

/-!
# Ending a delegation

Revoking a consent (U20), disabling a client (C05) and deleting it (C06) sweep
refresh tokens in their own transaction, but no authorization codes.  A code
that is outstanding at the commit, or that an exchange in flight has already
consumed, still leads to T09, which inserts a root without asking for the
consent or the client.  `code_survives_revokeConsent` is such a run.  When the
revocation finds no such code, everything outstanding at its commit is dead for
good, whatever is granted or enabled later.
-/

namespace SuiId

open Lib Lib.Result

variable {P : Primitives} {ctx : IssuanceContext}

/-- The pairs of a user and a client whose delegation the command ends. -/
def Command.covers (command : Command) (user : UserId) (client : ClientId) : Prop :=
  match command with
  | .revokeConsent user' client' => user = user' ∧ client = client'
  | .disableClient _ target _ _ => client = target
  | .deleteClient _ target _ _ => client = target
  | _ => False

def Command.deletesClient : Command → Bool
  | .deleteClient .. => true
  | _ => false

/-! ## The revoking step -/

/-- No covered token is left unrevoked. -/
theorem Effect.sweeps {db db' : Database} {command : Command} (h : Effect P db command db') :
    ∀ r ∈ db'.refreshTokens, command.covers r.userId r.clientId → r.revokedAt ≠ none := by
  cases h with
  | revokeConsent =>
    intro r hr hcovers
    obtain ⟨-, hkept⟩ := Table.mem_delete.mp hr
    simp [hcovers.1, hcovers.2] at hkept
  | disableClient | deleteClient =>
    intro r hr hcovers hlive
    obtain ⟨-, hother⟩ := RefreshTokens.live_of_revokeWhere hr hlive
    have hcovers : r.clientId = _ := hcovers
    rw [hcovers, beq_self_eq_true] at hother
    cases hother
  | _ =>
    intro r _ hcovers
    exact absurd hcovers id

/-- A client is deleted after its deletion. -/
theorem Effect.deletes {db db' : Database} {command : Command} (h : Effect P db command db')
    (hdeletes : command.deletesClient = true) {user : UserId} {client : ClientId}
    (hcovers : command.covers user client) : ClientDeleted db' client := by
  cases h with
  | @deleteClient admin target reason now log hclient =>
    have hcovers : client = target := hcovers
    intro c' hc' hid
    dsimp only at hc'
    obtain ⟨c, hc, rfl⟩ := Table.mem_update.mp hc'
    by_cases hp : (c.id == target) = true
    · rw [if_pos hp]
    · rw [if_neg hp] at hid
      exact absurd (beq_iff_eq.mpr (hid.trans hcovers)) hp
  | _ => cases hdeletes

/-! ## Whole runs -/

/-- In every run: when a revocation commits and finds no covered code in flight
or redeemable from `t` on, and no exchange reads an earlier clock afterwards,
nothing that is outstanding then ever yields tokens. -/
theorem delegation_ended_throughout (hP : P.Lawful) {w : World} (hd : Described P w)
    (hrec : Recorded P w) {es : List Event}
    (hfresh : Machine.Guarded (worldStep P ctx) (Fresh P) w es) :
    ∀ t before command after, es = before ++ .command command :: after →
      (∀ e ∈ after, e.NotBefore t) →
      let pre := Machine.run (worldStep P ctx) w before
      (worldStep P ctx pre (.command command)).2.accepted = true →
      NothingRedeemable P t pre command.covers command.deletesClient →
        AccessEnded P ctx command.covers pre (worldStep P ctx pre (.command command)).1 after := by
  rintro t before command after rfl htime pre haccepted hnothing
  obtain ⟨hbefore, -, hafter⟩ := Machine.guarded_append.mp hfresh
  obtain ⟨hdpre, hrecpre⟩ := known_throughout hP hd hrec hbefore
  exact accessEnded_of_command hP hdpre hrecpre haccepted (fun _ heffect => heffect.sweeps)
    (fun _ heffect hdeletes _ _ hcovers => heffect.deletes hdeletes hcovers) hnothing hafter htime

/-! ## Runs around a revoked consent -/

/-- User 1 has granted consent to client 5. -/
def withConsent (w : World) : World :=
  { w with db := { w.db with userConsent := ⟨[⟨1, 5, "openid", 0⟩], by decide⟩ } }

/-- The consent is revoked before the code is exchanged. -/
theorem code_survives_revokeConsent :
    (sampleStep (withConsent codeWorld) (.command (.revokeConsent 1 5))).2.accepted = true ∧
      ¬ AccessEnded Primitives.transparent sampleContext (Command.revokeConsent 1 5).covers
        (withConsent codeWorld)
        (sampleStep (withConsent codeWorld) (.command (.revokeConsent 1 5))).1
        (codePrelude 0 ++ [.codeIssue 0 (sampleDraw 100 [1])]) := by
  refine ⟨by decide +kernel, fun hended => ?_⟩
  have hany : ((Machine.trace sampleStep
      (sampleStep (withConsent codeWorld) (.command (.revokeConsent 1 5))).1
      (codePrelude 0 ++ [.codeIssue 0 (sampleDraw 100 [1])])).any fun x =>
        x.out.tokenSet.isSome && redeemed Primitives.transparent x.pre x.event ==
          some (1, 5, .code sampleCode.codeHash)) = true := by
    decide +kernel
  obtain ⟨x, hx, hyields⟩ := List.any_eq_true.mp hany
  rw [Bool.and_eq_true, beq_iff_eq, Option.isSome_iff_exists] at hyields
  obtain ⟨⟨tokens, htokens⟩, hredeemed⟩ := hyields
  apply hended.1 x hx tokens 1 5 _ htokens hredeemed ⟨rfl, rfl⟩
  exact .inl ⟨sampleCode, List.mem_singleton.mpr rfl, rfl⟩

/-- The consent is revoked and granted again, then the old token presented. -/
def revokedThenRefreshed : List Event :=
  ([.command (.grantConsent 1 5 "openid" 4)] : List Event) ++ refreshPrelude 0 [1] ++
    ([.refreshRotate 0 (sampleDraw 101 [2])] : List Event)

theorem withConsent_recorded : Recorded P (withConsent legacyWorld) where
  row r hr := by cases hr
  code c x req hcall _ := by cases hcall
  held c x req row hcall _ := by cases hcall
  grant c x grant hcall _ := by cases hcall
  token c x req hcall _ := by cases hcall

/-- The old token was live, and is worth nothing after the consent is revoked,
even when it is granted again. -/
theorem delegation_ended_revokeConsent :
    liveCount (withConsent legacyWorld).db 100 = 1 ∧
      AccessEnded Primitives.transparent sampleContext (Command.revokeConsent 1 5).covers
        (withConsent legacyWorld)
        (sampleStep (withConsent legacyWorld) (.command (.revokeConsent 1 5))).1
        revokedThenRefreshed := by
  have hfresh : Machine.Guarded sampleStep (Fresh Primitives.transparent)
      (withConsent legacyWorld) (.command (.revokeConsent 1 5) :: revokedThenRefreshed) := by
    decide +kernel
  have hnothing : NothingRedeemable Primitives.transparent 4 (withConsent legacyWorld)
      (Command.revokeConsent 1 5).covers false := by
    refine ⟨fun c x req row hcall _ => ?_, fun r hr => ?_⟩
    · cases hcall
    · cases hr
  have hdescribed : Described Primitives.transparent (withConsent legacyWorld) :=
    ⟨legacyWorld_described.row, legacyWorld_described.call, legacyWorld_described.backfill,
      legacyWorld_described.id_inj, legacyWorld_described.hash_inj, legacyWorld_described.family⟩
  refine ⟨by decide, ?_⟩
  exact delegation_ended_throughout Primitives.transparent_lawful hdescribed withConsent_recorded
    hfresh 4 [] (.revokeConsent 1 5) revokedThenRefreshed rfl (by decide) (by decide +kernel)
    hnothing

end SuiId
