import SuiId.Core.Accounts
import SuiId.Core.Login

/-!
# The federated callback

`resolve_verified_identity` reads the link of the verified subject and decides what the callback
does; the rest of the callback takes the steps of `FlowCall`, each on whatever the database has
become since.  Accounts are created, changed, disabled and deleted beside it.

`derive_username` and `resolve_shadow_username` only choose the name of a new account, which is
part of the callback here.
-/

namespace SuiId

open Lib Lib.Result

variable (P : Primitives) (key : MasterKey) (maxLockoutSecs : Int) (rfc3339 : DateTime → String)

/-! ## Resolution -/

/-- `find_by_sub`. -/
def FederationLink.findBySub (db : Database) (provider : ProviderId) (sub : String) :
    Option FederationLinkRow :=
  db.federationLink.find? fun l => l.providerId == provider && l.upstreamSub == sub

/-- `ProvisionMode`. -/
inductive ProvisionMode where
  | linkOnly
  | provisionOnFirstLogin
deriving DecidableEq, Repr

/-- `IdentityResolution`. -/
inductive IdentityResolution where
  | existingLink (user : UserId)
  | linkRequired
  | provisionEligible
  | deniedCollision
  | deniedUnverified
deriving DecidableEq, Repr

/-- `resolve_verified_identity`.  The e-mail of a sign-in is one that the provider has verified. -/
def resolveVerifiedIdentity (db : Database) (signIn : FederatedSignIn) (mode : ProvisionMode) :
    IdentityResolution :=
  match FederationLink.findBySub db signIn.providerId signIn.upstreamSub with
  | some link => .existingLink link.userId
  | none =>
    match mode with
    | .linkOnly => .linkRequired
    | .provisionOnFirstLogin =>
      match signIn.upstreamEmail with
      | none => .deniedUnverified
      | some email =>
        if (Users.findByEmailNormalized db (Users.normalizeEmail P email)).isSome then
          .deniedCollision
        else .provisionEligible

/-- A callback whose ID token has been validated. -/
structure VerifiedCallback where
  signIn : FederatedSignIn
  mode : ProvisionMode
  username : String
  displayName : Option String

/-- What the callback goes on to do. -/
def VerifiedCallback.resolved (db : Database) (callback : VerifiedCallback) : FlowCall :=
  match resolveVerifiedIdentity P db callback.signIn callback.mode with
  | .existingLink user => .callbackResolved callback.signIn user
  | .provisionEligible =>
    .provisioning callback.signIn
      ⟨callback.username, callback.displayName, callback.signIn.upstreamEmail⟩
  | _ => .callbackFailed callback.signIn

/-! ## Interleavings -/

/-- A request that only a resolution can start. -/
def FlowRequest.needsResolution : FlowRequest → Bool
  | .callback _ _ => true
  | .provision _ _ => true
  | _ => false

/-- A sign-in event, a command on accounts, or one on providers. -/
inductive FederationEvent where
  /-- `resolve_verified_identity` of a callback. -/
  | resolve (call : FlowId) (callback : VerifiedCallback)
  /-- Any other request. -/
  | begin (call : FlowId) (request : FlowRequest)
  | next (call : FlowId) (draw : FlowDraw)
  /-- A command that is no sign-in. -/
  | account (command : AccountCommand)
  | purgePendings (now : DateTime)
  /-- A write to other tables: attempts, providers, factors, sessions. -/
  | elsewhere (db : Database)

/-- A write of the rest of the program. -/
def FlowWorld.writeElsewhere (w : FlowWorld) (db : Database) : FlowWorld :=
  { w with
    db := { db with
      users := w.db.users
      federationLink := w.db.federationLink
      federationMfaPending := w.db.federationMfaPending } }

/-- One event. -/
def federationStep (w : FlowWorld) : FederationEvent → FlowWorld × FlowAnswer
  | .resolve id callback =>
    match w.calls id with
    | none =>
      ({ w with calls := Function.update w.calls id (some (callback.resolved P w.db)) }, .running)
    | some _ => (w, .ignored)
  | .begin id request =>
    if request.needsResolution then (w, .ignored)
    else flowStep P key maxLockoutSecs w (.begin id request)
  | .next id draw => flowStep P key maxLockoutSecs w (.next id draw)
  | .account command =>
    match command with
    | .signIn _ => (w, .ignored)
    | command => w.commit (command.perform P key rfc3339 w.db)
  | .purgePendings now =>
    ({ w with db := FederationMfaPending.purgeExpired w.db now }, .committed (.ok ()))
  | .elsewhere db => (w.writeElsewhere db, .committed (.ok ()))

/-- A step of a run. -/
abbrev FederationTaken := Machine.Taken FlowWorld FederationEvent FlowAnswer

end SuiId
