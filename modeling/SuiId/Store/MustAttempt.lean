import SuiId.Store.ClassA
import SuiId.Store.FederationMfa

/-!
# Events outside of a transaction

`emit_must_attempt` of `repos/audit.rs`, and the events of F03: they are appended after its
transaction has committed, and a failure to append them is only logged.

A descriptor says which attributes an event must carry, and whether it must have an actor and
a target.  `emit_must_attempt` checks the attributes.  It does not look at the actor and the
target, and an event whose attributes do not pass is dropped.
-/

namespace SuiId

/-- `ActorRequirement`. -/
inductive ActorRequirement where
  | required
  | optional
  | none
deriving DecidableEq, Repr

/-- `TargetRequirement`. -/
inductive TargetRequirement where
  | required
  | optional
  | none
deriving DecidableEq, Repr

/-- `MustAttemptDescriptor`. -/
structure MustAttemptDescriptor where
  name : String
  actor : ActorRequirement
  target : TargetRequirement
  attributes : List AttributeSpec

/-- `MustAttemptOutcome`. -/
inductive MustAttemptOutcome where
  | recorded
  | failed
deriving DecidableEq, Repr

section Emission

variable (P : Primitives) (C : AuditCodec)

/-- `emit_must_attempt`, with what the query for the newest hash and the append may fail with. -/
def emitMustAttempt (headFails appendFails : Option StoreError) (descriptor : MustAttemptDescriptor)
    (at_ : DateTime) (actor : Option UserId) (target : Option String) (result : String)
    (attributes : Except AuditBuildError AuditAttributes) (log : AuditLog) :
    MustAttemptOutcome × AuditLog :=
  match attributes with
  | .error _ => (.failed, log)
  | .ok attributes =>
    let missing := descriptor.attributes.find? fun spec =>
      spec.required && !attributes.entries.any fun e => e.1 == spec.name
    match missing, appendFails with
    | some _, _ => (.failed, log)
    | none, some _ => (.failed, log)
    | none, none =>
      (.recorded, Audit.append P C headFails log
        { at_, actor, action := descriptor.name, target, result, note := renderNote attributes })

end Emission

/-! ## F03 -/

/-- `MfaRejectionReason::as_str`. -/
def MfaRejectionReason.asStr : MfaRejectionReason → String
  | .totp => "totp"
  | .recovery => "recovery"
  | .webauthn => "webauthn"
  | .malformed => "malformed"
  | .methodMismatch => "method_mismatch"

/-- `InvalidatedReason::as_str`. -/
def InvalidatedReason.asStr : InvalidatedReason → String
  | .expired => "expired"
  | .providerChanged => "provider_changed"
  | .providerDisabled => "provider_disabled"
  | .linkChanged => "link_changed"
  | .userInactive => "user_inactive"
  | .factorChanged => "factor_changed"
  | .ceremonyInvalid => "ceremony_invalid"

/-- `AUDIT_MFA_REJECTED_DESCRIPTOR`. -/
def auditMfaRejectedDescriptor : MustAttemptDescriptor where
  name := "auth.federation.mfa_rejected"
  actor := .required
  target := .required
  attributes := [⟨"reason", true⟩]

/-- `AUDIT_MFA_EXHAUSTED_DESCRIPTOR`. -/
def auditMfaExhaustedDescriptor : MustAttemptDescriptor where
  name := "auth.federation.mfa_exhausted"
  actor := .required
  target := .required
  attributes := [⟨"attempt_limit", true⟩]

/-- `AUDIT_MFA_INVALIDATED_DESCRIPTOR`. -/
def auditMfaInvalidatedDescriptor : MustAttemptDescriptor where
  name := "auth.federation.mfa_invalidated"
  actor := .required
  target := .required
  attributes := [⟨"reason", true⟩]

/-- `AUDIT_MFA_SUCCESS_DESCRIPTOR`. -/
def auditMfaSuccessDescriptor : MustAttemptDescriptor where
  name := "auth.federation.mfa_success"
  actor := .required
  target := .required
  attributes := [⟨"method", false⟩, ⟨"evicted", false⟩]

/-- `emit_f03_event`.  The number of evicted sessions is an `i64`. -/
def emitF03Event (P : Primitives) (C : AuditCodec) (headFails appendFails : Option StoreError)
    (outcome : F03Outcome) (at_ : DateTime) (log : AuditLog) : AuditLog :=
  match outcome with
  | .promoted session evicted method =>
    let attributes := ((AuditAttributesBuilder.new.addAttribute "method" method).addAttribute
      "evicted" (toString (evicted % 2 ^ 63))).build
    (emitMustAttempt P C headFails appendFails auditMfaSuccessDescriptor at_ (some session.userId)
      (some (C.showUuid session.userId)) "ok" attributes log).2
  | .rejectedStillPending _ reason =>
    let attributes := (AuditAttributesBuilder.new.addAttribute "reason" reason.asStr).build
    (emitMustAttempt P C headFails appendFails auditMfaRejectedDescriptor at_ none none "denied"
      attributes log).2
  | .attemptsExhausted reason =>
    let attributes := (AuditAttributesBuilder.new.addAttribute "reason" reason.asStr).build
    (emitMustAttempt P C headFails appendFails auditMfaExhaustedDescriptor at_ none none "denied"
      attributes log).2
  | .invalidated reason =>
    let attributes := (AuditAttributesBuilder.new.addAttribute "reason" reason.asStr).build
    (emitMustAttempt P C headFails appendFails auditMfaInvalidatedDescriptor at_ none none "denied"
      attributes log).2

end SuiId
