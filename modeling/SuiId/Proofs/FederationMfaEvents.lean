import SuiId.Store.MustAttempt
import SuiId.Proofs.GuessBudget

/-!
# Which outcomes of F03 are recorded

`emit_must_attempt` appends an event whose attributes pass its descriptor, with the actor and
the target that it is given (`eventRecorded_emit_iff`).  F03 gives it those of the session
when it has promoted, and none otherwise, though all four descriptors require both.  It gives
an exhausted row the attribute of a rejected proof, which is not the one that its descriptor
requires, and so that event is dropped.
-/

namespace SuiId

open Lib Lib.Result

variable {P : Primitives} {C : AuditCodec}

/-! ## Recorded events -/

/-- The note is that of attributes with the name. -/
def NoteCarries (note : Option String) (name : String) : Prop :=
  ∃ attributes : AuditAttributes, note = renderNote attributes ∧
    ∃ value, (name, value) ∈ attributes.entries

/-- One row is appended, under the name of the descriptor and with what it requires. -/
structure EventRow (descriptor : MustAttemptDescriptor) (row : AuditColumns) : Prop where
  action : row.action = descriptor.name
  attributes : ∀ spec ∈ descriptor.attributes, spec.required = true →
    NoteCarries row.note spec.name
  actor : descriptor.actor = .required → row.actor.isSome = true
  target : descriptor.target = .required → row.target.isSome = true

def EventRecorded (descriptor : MustAttemptDescriptor) (log log' : AuditLog) : Prop :=
  ∃ row, log'.rows = log.rows ++ [row] ∧ EventRow descriptor row

section Emission

variable {descriptor : MustAttemptDescriptor} {now : DateTime} {actor : Option UserId}
  {target : Option String} {result : String} {log : AuditLog} {headFails : Option StoreError}

/-- An event that is not appended is not recorded. -/
theorem not_eventRecorded_self : ¬ EventRecorded descriptor log log := by
  rintro ⟨row, hrows, -⟩
  have hlength := congrArg List.length hrows
  rw [List.length_append, List.length_singleton] at hlength
  omega

/-- `emit_must_attempt` records what has the required attributes, the required actor and the
required target. -/
theorem eventRecorded_emit_iff {attributes : AuditAttributes} :
    EventRecorded descriptor log
        (emitMustAttempt P C headFails none descriptor now actor target result (.ok attributes)
          log).2 ↔
      (∀ spec ∈ descriptor.attributes, spec.required = true →
          ∃ value, (spec.name, value) ∈ attributes.entries) ∧
        (descriptor.actor = .required → actor.isSome = true) ∧
        (descriptor.target = .required → target.isSome = true) := by
  unfold emitMustAttempt
  simp only
  cases hmissing : descriptor.attributes.find? fun spec =>
      spec.required && !attributes.entries.any fun e => e.1 == spec.name with
  | some spec =>
    simp only
    refine iff_of_false not_eventRecorded_self ?_
    rintro ⟨hcarried, -⟩
    have hspec := List.find?_some hmissing
    obtain ⟨hrequired, habsent⟩ := (Bool.and_eq_true _ _).mp hspec
    obtain ⟨value, hentry⟩ := hcarried spec (List.mem_of_find?_eq_some hmissing) hrequired
    have hany : (attributes.entries.any fun e => e.1 == spec.name) = true :=
      List.any_eq_true.mpr ⟨_, hentry, by simp⟩
    rw [hany] at habsent
    cases habsent
  | none =>
    simp only
    have hcarried : ∀ spec ∈ descriptor.attributes, spec.required = true →
        ∃ value, (spec.name, value) ∈ attributes.entries := by
      intro spec hspec hrequired
      have hfound := List.find?_eq_none.mp hmissing spec hspec
      rw [hrequired, Bool.true_and, Bool.not_eq_true, Bool.not_eq_false'] at hfound
      obtain ⟨e, he, hname⟩ := List.any_eq_true.mp hfound
      rw [beq_iff_eq] at hname
      exact ⟨e.2, hname ▸ he⟩
    constructor
    · rintro ⟨row, hrows, hrow⟩
      have hsame := List.append_cancel_left hrows
      obtain rfl := (List.cons.inj hsame).1
      refine ⟨hcarried, fun hrequired => ?_, hrow.target⟩
      have hactor := hrow.actor hrequired
      rwa [Audit.newColumns, Option.isSome_map] at hactor
    · rintro ⟨-, hactor, htarget⟩
      refine ⟨_, rfl, rfl, ?_, fun hrequired => ?_, htarget⟩
      · intro spec hspec hrequired
        exact ⟨attributes, rfl, hcarried spec hspec hrequired⟩
      · rw [Audit.newColumns, Option.isSome_map]
        exact hactor hrequired

end Emission

/-! ## Attributes -/

theorem build_attribute (name : String) {value : String}
    (hshort : value.utf8ByteSize ≤ maxAttributeValueBytes) :
    ∃ attributes, (AuditAttributesBuilder.new.addAttribute name value).build = .ok attributes ∧
      attributes.entries = [(name, value)] := by
  simp [AuditAttributesBuilder.addAttribute, AuditAttributesBuilder.new, AuditAttributes.empty,
    AuditAttributesBuilder.build, maxAttributes, Nat.not_lt.mpr hshort]

theorem build_attributes {name name' : String} (hname : name ≠ name') {value value' : String}
    (hshort : value.utf8ByteSize ≤ maxAttributeValueBytes)
    (hshort' : value'.utf8ByteSize ≤ maxAttributeValueBytes) :
    ∃ attributes, ((AuditAttributesBuilder.new.addAttribute name value).addAttribute name'
        value').build = .ok attributes ∧ attributes.entries = [(name, value), (name', value')] := by
  simp [AuditAttributesBuilder.addAttribute, AuditAttributesBuilder.new, AuditAttributes.empty,
    AuditAttributesBuilder.build, maxAttributes, Nat.not_lt.mpr hshort, Nat.not_lt.mpr hshort',
    hname]

theorem MfaRejectionReason.asStr_short (reason : MfaRejectionReason) :
    reason.asStr.utf8ByteSize ≤ maxAttributeValueBytes := by
  cases reason <;> decide

theorem InvalidatedReason.asStr_short (reason : InvalidatedReason) :
    reason.asStr.utf8ByteSize ≤ maxAttributeValueBytes := by
  cases reason <;> decide

theorem PromotionMethod.asStr_short (method : PromotionMethod) :
    method.asStr.utf8ByteSize ≤ maxAttributeValueBytes := by
  cases method <;> decide

/-! ## F03 -/

/-- The descriptor of an outcome. -/
def F03Outcome.descriptor : F03Outcome → MustAttemptDescriptor
  | .promoted .. => auditMfaSuccessDescriptor
  | .rejectedStillPending .. => auditMfaRejectedDescriptor
  | .attemptsExhausted _ => auditMfaExhaustedDescriptor
  | .invalidated _ => auditMfaInvalidatedDescriptor

def F03Outcome.isPromoted : F03Outcome → Bool
  | .promoted .. => true
  | _ => false

/-- An event without an actor is not what a descriptor with a required actor asks for. -/
private theorem not_recorded_of_actor {descriptor : MustAttemptDescriptor} {now : DateTime}
    {target : Option String} {result : String} {log : AuditLog} {attributes : AuditAttributes}
    {headFails : Option StoreError} (hactor : descriptor.actor = .required) :
    ¬ EventRecorded descriptor log
      (emitMustAttempt P C headFails none descriptor now none target result (.ok attributes)
        log).2 := by
  rw [eventRecorded_emit_iff]
  rintro ⟨-, hsome, -⟩
  cases hsome hactor

/-- Of what F03 returns, whatever the state it has run in, the promotion is recorded as its
descriptor says, and no other outcome is. -/
theorem f03_event_recorded_iff {key : MasterKey} {db db' : Database}
    {pendingId : FederationMfaPendingId} {proof : Option F03Proof} {sessionId : SessionId}
    {now : DateTime} {outcome : F03Outcome}
    (h : completeFederatedMfa P key db pendingId proof sessionId now = .ok (outcome, db'))
    (C : AuditCodec) (headFails : Option StoreError) (log : AuditLog) :
    EventRecorded outcome.descriptor log (emitF03Event P C headFails none outcome now log) ↔
      outcome.isPromoted = true := by
  obtain ⟨row, -, -, heffect⟩ := completeFederatedMfa_ok h
  cases heffect with
  | promoted method evicted t hcount hrow hsession hdb =>
    have hevicted : (toString (evicted % 2 ^ 63)).utf8ByteSize ≤ maxAttributeValueBytes := by
      have hlt : evicted % 2 ^ 63 < 2 ^ 64 := by omega
      exact Nat.le_trans (Text.utf8ByteSize_toString_le hlt) (by decide)
    have hname : "method" ≠ "evicted" := by decide
    obtain ⟨attributes, hbuild, -⟩ := build_attributes hname method.asStr_short hevicted
    refine iff_of_true ?_ rfl
    rw [emitF03Event]
    simp only [hbuild]
    rw [F03Outcome.descriptor, eventRecorded_emit_iff]
    refine ⟨?_, fun _ => rfl, fun _ => rfl⟩
    simp [auditMfaSuccessDescriptor]
  | rejected reason t ceremonies hcount hrow hdb
  | exhausted reason t ceremonies hcount hrow hdb | invalidated reason t hrow hdb =>
    obtain ⟨attributes, hbuild, -⟩ := build_attribute "reason" reason.asStr_short
    refine iff_of_false ?_ Bool.false_ne_true
    rw [emitF03Event]
    simp only [hbuild]
    exact not_recorded_of_actor rfl

/-! ## The fifth wrong code -/

/-- A row with four wrong codes. -/
def fourWrongCodes : List SignInEvent :=
  exchanged 1 ++ [samplePending 1 1, wrongCode (seconds 3), wrongCode (seconds 4),
    wrongCode (seconds 5), wrongCode (seconds 6)]

def fourWrongCodesDb : Database :=
  (signInRun .transparent (.constant 7) (.start linkedDb) fourWrongCodes).db

/-- A right code is recorded. -/
theorem f03_event_recorded_promoted :
    ∃ outcome db', completeFederatedMfa .transparent (.constant 7) fourWrongCodesDb 1
        (some (.totp 1)) 1 (seconds 8) = .ok (outcome, db') ∧
      ∀ C log, EventRecorded outcome.descriptor log
        (emitF03Event .transparent C none none outcome (seconds 8) log) := by
  have hpromotes : ((completeFederatedMfa .transparent (.constant 7) fourWrongCodesDb 1
      (some (.totp 1)) 1 (seconds 8)).toOption.any fun r => r.1.isPromoted) = true := by
    decide +kernel
  obtain ⟨⟨outcome, db'⟩, hsome, hpromoted⟩ := (Option.any_eq_true _ _).mp hpromotes
  cases hresult : completeFederatedMfa .transparent (.constant 7) fourWrongCodesDb 1
      (some (.totp 1)) 1 (seconds 8) with
  | error e =>
    rw [hresult] at hsome
    cases hsome
  | ok result =>
    rw [hresult] at hsome
    cases hsome
    exact ⟨outcome, db', rfl,
      fun C log => (f03_event_recorded_iff hresult C none log).mpr hpromoted⟩

/-- The fifth wrong code exhausts the row, and nothing is appended to the log. -/
theorem f03_exhaustion_dropped :
    ∃ db', completeFederatedMfa .transparent (.constant 7) fourWrongCodesDb 1
        (some (.rejected .totp)) 1 (seconds 7) = .ok (.attemptsExhausted .totp, db') ∧
      ∀ C log,
        emitF03Event .transparent C none none (.attemptsExhausted .totp) (seconds 7) log = log ∧
        ¬ EventRecorded auditMfaExhaustedDescriptor log
          (emitF03Event .transparent C none none (.attemptsExhausted .totp) (seconds 7) log) := by
  have hexhausts : (completeFederatedMfa .transparent (.constant 7) fourWrongCodesDb 1
      (some (.rejected .totp)) 1 (seconds 7)).toOption.map (·.1) =
        some (.attemptsExhausted .totp) := by
    decide +kernel
  obtain ⟨⟨outcome, db'⟩, hsome, rfl⟩ := Option.map_eq_some_iff.mp hexhausts
  have hdropped : ∀ C log,
      emitF03Event .transparent C none none (.attemptsExhausted .totp) (seconds 7) log = log :=
    fun C log => rfl
  cases hresult : completeFederatedMfa .transparent (.constant 7) fourWrongCodesDb 1
      (some (.rejected .totp)) 1 (seconds 7) with
  | error e =>
    rw [hresult] at hsome
    cases hsome
  | ok result =>
    rw [hresult] at hsome
    cases hsome
    refine ⟨db', rfl, fun C log => ⟨hdropped C log, ?_⟩⟩
    rw [hdropped]
    exact not_eventRecorded_self

end SuiId
