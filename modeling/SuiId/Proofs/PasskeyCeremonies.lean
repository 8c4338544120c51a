import SuiId.Core.PasskeyFlows

/-!
# A passkey ceremony is spent once

L05 and F03 delete the ceremony in the transaction that completes with it.  A sign-in deletes it
before L02, in a statement whose outcome is thrown away, and every local assertion writes the
passkey row without looking at what it holds by then.  The two conditions below say that neither
goes wrong; under them a ceremony completes at most once and no signature counter decreases.

A step of a call is described once, by `CallStep`.
-/

namespace SuiId

open Lib Lib.Result

/-! ## What is claimed -/

/-- The ceremony that a step completes. -/
def PasskeyAnswer.completes : PasskeyAnswer → Option PasskeyCeremony
  | .signedIn ceremony _ => some (.pending ceremony)
  | .steppedUp ceremony => some (.pending ceremony)
  | .federated (some (.webauthn ceremony _ _ _)) (.promoted _ _ _) => some (.federation ceremony)
  | _ => none

section Counters

variable (W : WebauthnRs) (P : Primitives) (key : MasterKey)

/-- The second blob has at least the counter of the first. -/
def CounterKept (sealed sealed' : Bytes) : Prop :=
  ∀ n, W.counterOf P key sealed = some n → ∃ m, W.counterOf P key sealed' = some m ∧ n ≤ m

/-- No passkey that is still stored has a lower counter. -/
def CountersKept (t t' : Table UserWebauthnCredentialRow.id) : Prop :=
  ∀ c ∈ t, ∀ c' ∈ t', c'.id = c.id → CounterKept W P key c.passkeyEnc c'.passkeyEnc

end Counters

section Conditions

variable {W : WebauthnRs} (P : Primitives) (key : MasterKey)

/-- The delete of a sign-in deletes its ceremony, and a passkey that is written over still has
the counter that was read, or one that is not above the assertion's. -/
def PasskeyCall.undisturbed (db : Database) (draw : PasskeyDraw) : PasskeyCall W → Bool
  | .passkeyRead _ row passkey result =>
    (db.webauthnCredentials.get? row.id).all fun stored =>
      (W.counterOf P key stored.passkeyEnc).all fun n =>
        n == W.counter passkey || n ≤ result.counter
  | .passkeyWritten a => !draw.deleteRefused && (db.webauthnPending.get? a.ceremony).isSome
  | _ => true

/-- The next step of a call is undisturbed, and a new ceremony has a new identifier. -/
def Undisturbed (w : PasskeyWorld W) (e : PasskeyEvent W) : Prop :=
  match e with
  | .next id draw => (w.calls id).all (fun call => call.undisturbed P key w.db draw) = true
  | .startCeremony row => row.id ∉ w.ceremonyIds
  | .beginFederationWebauthnCeremony _ _ _ _ id _ => id ∉ w.federatedIds
  | _ => True

instance (w : PasskeyWorld W) (e : PasskeyEvent W) : Decidable (Undisturbed P key w e) :=
  match e with
  | .next id draw =>
    inferInstanceAs
      (Decidable ((w.calls id).all (fun call => call.undisturbed P key w.db draw) = true))
  | .startCeremony row => inferInstanceAs (Decidable (row.id ∉ w.ceremonyIds))
  | .beginFederationWebauthnCeremony _ _ _ _ id _ =>
    inferInstanceAs (Decidable (id ∉ w.federatedIds))
  | .begin _ _ => inferInstanceAs (Decidable True)
  | .registerPasskey _ => inferInstanceAs (Decidable True)
  | .elsewhere _ => inferInstanceAs (Decidable True)

end Conditions

/-! ## Counters -/

section CounterLemmas

variable {W : WebauthnRs} {P : Primitives} {key : MasterKey}

theorem CounterKept.refl (sealed : Bytes) : CounterKept W P key sealed sealed :=
  fun n hn => ⟨n, hn, Nat.le_refl n⟩

variable {t t' : Table UserWebauthnCredentialRow.id} {passkey : W.Passkey}

/-- A table whose passkeys keep their blobs. -/
theorem CountersKept.of_blobs
    (h : ∀ c' ∈ t', ∀ c ∈ t, c'.id = c.id → c'.passkeyEnc = c.passkeyEnc) :
    CountersKept W P key t t' := by
  intro c hc c' hc' hid
  rw [h c' hc' c hc hid]
  exact .refl _

theorem CountersKept.of_eq (h : t' = t) :
    CountersKept W P key t t' := by
  subst h
  exact .of_blobs fun c' hc' c hc hid => by rw [Table.eq_of_key_eq hc' hc hid]

theorem WebauthnRs.counterOf_of_open {sealed : Bytes}
    (h : W.openPasskey P key sealed = .ok passkey) :
    W.counterOf P key sealed = some (W.counter passkey) := by
  simp only [counterOf, h, Except.toOption, Option.map_some]

/-- The blob that is written holds the higher of the two counters. -/
theorem WebauthnRs.counterOf_sealUpdated (hP : P.Lawful) (hW : W.Lawful) {nonce : Nonce}
    {result : AuthenticationResult} {passkeyEnc : Bytes}
    (h : W.sealUpdated P key nonce passkey result = .ok passkeyEnc) :
    W.counterOf P key passkeyEnc = some (max (W.counter passkey) result.counter) := by
  have hblob : openBytes P key passkeyEnc WebauthnCredentials.aad =
      .ok (W.encodePasskey (W.updateCredential passkey result)) := hP.open_seal h
  have hopen : W.openPasskey P key passkeyEnc = .ok (W.updateCredential passkey result) := by
    unfold openPasskey
    rw [hblob]
    change require (W.decodePasskey _) _ = _
    rw [hW.decode_encode]
    rfl
  rw [counterOf_of_open hopen, hW.counter_update]

end CounterLemmas

/-! ## What a step of a call does -/

section CallSteps

variable {W : WebauthnRs}

/-- The ceremony that a sign-in has deleted. -/
def PasskeyCall.spent : PasskeyCall W → Option WebauthnPendingId
  | .finished a => if a.goal.kind != .stepUp then some a.ceremony else none
  | _ => none

variable (P : Primitives) (key : MasterKey)

/-- The blob that F03 is to write has at least the counter of the one that it expects. -/
def PasskeyCall.Sound : PasskeyCall W → Prop
  | .fedDecided _ (some (.webauthn _ _ expectedSealed newSealed)) =>
    CounterKept W P key expectedSealed newSealed
  | _ => True

/-- What an undisturbed step of a call does. -/
structure CallStep (db : Database) (call : PasskeyCall W) (result : PasskeyResult W) : Prop where
  pending : ∀ r ∈ result.db.webauthnPending, r ∈ db.webauthnPending
  federation : ∀ r ∈ result.db.federationWebauthnCeremony, r ∈ db.federationWebauthnCeremony
  counters : CountersKept W P key db.webauthnCredentials result.db.webauthnCredentials
  sound : ∀ next, result.next = some next → next.Sound P key
  /-- A ceremony that is spent now was there before. -/
  spent : ∀ next c, result.next = some next → next.spent = some c →
    (∃ r ∈ db.webauthnPending, r.id = c) ∧ ∀ r ∈ result.db.webauthnPending, r.id ≠ c
  /-- A sign-in has spent its ceremony; a step-up spends it now. -/
  local_ : ∀ c, result.out.completes = some (.pending c) → result.next = none ∧
    (call.spent = some c ∨
      (∃ r ∈ db.webauthnPending, r.id = c) ∧ ∀ r ∈ result.db.webauthnPending, r.id ≠ c)
  /-- A federated sign-in spends its ceremony now. -/
  federated : ∀ c, result.out.completes = some (.federation c) →
    (∃ r ∈ db.federationWebauthnCeremony, r.id = c) ∧
      ∀ r ∈ result.db.federationWebauthnCeremony, r.id ≠ c

end CallSteps

section Advance

variable {W : WebauthnRs} {P : Primitives} {key : MasterKey} {maxLockoutSecs : Int}
  {db db' : Database} {draw : PasskeyDraw} {call : PasskeyCall W}

open PasskeyResult

/-- The call goes on, and the three tables are as they were. -/
private theorem CallStep.goOn (hkept : PasskeyTablesKept db db') {next : PasskeyCall W}
    (hspent : next.spent = none) (hsound : next.Sound P key) :
    CallStep P key db call (PasskeyResult.goOn db' next) where
  pending r hr := hkept.pending ▸ hr
  federation r hr := hkept.federation ▸ hr
  counters := .of_eq hkept.passkeys
  sound _ h := by
    cases h
    exact hsound
  spent _ c h hc := by
    cases h
    rw [hspent] at hc
    cases hc
  local_ c h := by cases h
  federated c h := by cases h

/-- The call is refused, and the three tables are as they were. -/
private theorem CallStep.refuse (hkept : PasskeyTablesKept db db') {error : CoreError} :
    CallStep P key db call (PasskeyResult.refuse db' error) where
  pending r hr := hkept.pending ▸ hr
  federation r hr := hkept.federation ▸ hr
  counters := .of_eq hkept.passkeys
  sound _ h := by cases h
  spent _ c h _ := by cases h
  local_ c h := by cases h
  federated c h := by cases h

private theorem readSignIn_step {pending : PendingMfaId} {ceremony : WebauthnPendingId}
    {credential : String} :
    CallStep P key db call (readSignIn W db draw pending ceremony credential) := by
  unfold readSignIn
  split
  · exact .refuse (.refl db)
  · split
    · exact .refuse (.refl db)
    · split
      · exact .refuse (.refl db)
      · exact .goOn (.refl db) rfl trivial

variable {a : Assertion W} {result : AuthenticationResult}

private theorem readCeremony_step :
    CallStep P key db call (readCeremony db draw a) := by
  unfold readCeremony
  split
  · exact .goOn (.refl db) rfl trivial
  · split
    · exact .goOn (.refl db) rfl trivial
    · split
      · exact .goOn (.refl db) rfl trivial
      · split
        · exact .refuse (.refl db)
        · split
          · exact .goOn (.refl db) rfl trivial
          · exact .goOn (.refl db) rfl trivial

private theorem readPasskey_step :
    CallStep P key db call (readPasskey P key db a result) := by
  unfold readPasskey
  split
  · exact .goOn (.refl db) rfl trivial
  · split
    · exact .goOn (.refl db) rfl trivial
    · split
      · exact .refuse (.refl db)
      · exact .goOn (.refl db) rfl trivial

variable {row : UserWebauthnCredentialRow} {passkey : W.Passkey} {pending : FederationMfaPendingId}
  {credential : W.PublicKeyCredential}

/-- A write over a passkey keeps the counters when the row has not been overtaken. -/
private theorem updatePasskey_counters (hP : P.Lawful) (hW : W.Lawful) {passkeyEnc : Bytes}
    (hseal : W.sealUpdated P key draw.nonce passkey result = .ok passkeyEnc)
    (hundisturbed : PasskeyCall.undisturbed P key db draw
      (.passkeyRead a row passkey result) = true) :
    CountersKept W P key db.webauthnCredentials
      (WebauthnCredentials.updatePasskey db row.id passkeyEnc draw.now).webauthnCredentials := by
  intro c hc c' hc' hid n hn
  simp only [WebauthnCredentials.updatePasskey] at hc'
  obtain ⟨c₀, hc₀, rfl⟩ := Table.mem_update.mp hc'
  have hsame : c₀ = c := by
    apply Table.eq_of_key_eq hc₀ hc
    rw [← hid]
    split
    · rfl
    · rfl
  subst hsame
  by_cases hrow : c₀.id = row.id
  · rw [if_pos (beq_iff_eq.mpr hrow)]
    refine ⟨_, W.counterOf_sealUpdated hP hW hseal, ?_⟩
    have hget : db.webauthnCredentials.get? row.id = some c₀ :=
      Table.get?_eq_some.mpr ⟨hc₀, hrow⟩
    simp only [PasskeyCall.undisturbed, hget, hn, Option.all_some, Bool.or_eq_true, beq_iff_eq,
      decide_eq_true_eq] at hundisturbed
    omega
  · rw [if_neg (by simpa using hrow)]
    exact ⟨n, hn, Nat.le_refl n⟩

private theorem writePasskey_step (hP : P.Lawful) (hW : W.Lawful)
    (hundisturbed : PasskeyCall.undisturbed P key db draw
      (.passkeyRead a row passkey result) = true) :
    CallStep P key db call (writePasskey P key db draw a row passkey result) := by
  unfold writePasskey
  split
  · exact .refuse (.refl db)
  · rename_i passkeyEnc hseal
    split
    · exact .refuse (.refl db)
    · have hspent : (if a.goal.kind != .stepUp then PasskeyCall.passkeyWritten a
          else PasskeyCall.finished a).spent = none := by
        split
        · rfl
        · rename_i hkind
          rw [PasskeyCall.spent, if_neg hkind]
      refine ⟨fun r hr => hr, fun r hr => hr, updatePasskey_counters hP hW hseal hundisturbed,
        ?_, ?_, (fun c h => by cases h), fun c h => by cases h⟩
      · intro next h
        cases h
        split
        · trivial
        · trivial
      · intro next c h hc
        cases h
        rw [hspent] at hc
        cases hc

private theorem expired_step :
    CallStep P key db call
      (PasskeyResult.goOn (WebauthnPending.discard db a.ceremony draw.deleteRefused)
        (.rejected a.user a.goal)) := by
  obtain ⟨webauthnPending, hsub, heq⟩ :=
    WebauthnPending.discard_eq db a.ceremony draw.deleteRefused
  rw [heq]
  refine ⟨hsub, fun r hr => hr, .of_eq rfl, ?_, ?_, (fun c h => by cases h), fun c h => by cases h⟩
  · intro next h
    cases h
    trivial
  · intro next c h hc
    cases h
    cases hc

/-- The delete of a sign-in, when it deletes. -/
private theorem deleted_step
    (hundisturbed : PasskeyCall.undisturbed P key db draw (.passkeyWritten a) = true) :
    CallStep P key db call
      (PasskeyResult.goOn (WebauthnPending.discard db a.ceremony draw.deleteRefused)
        (.finished a)) := by
  simp only [PasskeyCall.undisturbed, Bool.and_eq_true, Bool.not_eq_true'] at hundisturbed
  obtain ⟨hrefused, hfound⟩ := hundisturbed
  obtain ⟨row, hget⟩ := Option.isSome_iff_exists.mp hfound
  obtain ⟨hrow, hid⟩ := Table.get?_eq_some.mp hget
  have hgone := WebauthnPending.discard_gone db a.ceremony
  obtain ⟨webauthnPending, hsub, heq⟩ := WebauthnPending.discard_eq db a.ceremony false
  rw [hrefused]
  rw [heq] at hgone ⊢
  refine ⟨hsub, fun r hr => hr, .of_eq rfl, ?_, ?_, (fun c h => by cases h), fun c h => by cases h⟩
  · intro next h
    cases h
    trivial
  · intro next c h hc
    cases h
    simp only [PasskeyCall.spent, Option.ite_none_right_eq_some, Option.some.injEq] at hc
    obtain ⟨-, rfl⟩ := hc
    exact ⟨⟨row, hrow, hid⟩, hgone⟩

private theorem commitAssertion_step :
    CallStep P key db (.finished a) (commitAssertion db draw a) := by
  unfold commitAssertion
  split
  · rename_i pendingMfa hgoal
    split
    · rename_i session db' hcomplete
      have hkept := completeSecondFactor_passkeys (complete_ok hcomplete)
      refine ⟨fun r hr => hkept.pending ▸ hr, fun r hr => hkept.federation ▸ hr,
        .of_eq hkept.passkeys, (fun next h => by cases h),
        (fun next c h _ => by cases h), ?_, fun c h => by cases h⟩
      intro c h
      cases h
      refine ⟨rfl, .inl ?_⟩
      simp only [PasskeyCall.spent, hgoal, PasskeyGoal.kind]
      rfl
    · exact .refuse (.refl db)
  · split
    · rename_i u db' hcommit
      obtain ⟨hfound, webauthnPending, sessions, log, hsub, rfl⟩ := completeStepUp_consumed hcommit
      refine ⟨fun r hr => (hsub r hr).1, fun r hr => hr, .of_eq rfl, (fun next h => by cases h),
        (fun next c h _ => by cases h), ?_, fun c h => by cases h⟩
      intro c h
      cases h
      exact ⟨rfl, .inr ⟨hfound, fun r hr => (hsub r hr).2⟩⟩
    · exact .refuse (.refl db)
    · exact .refuse (.refl db)

private theorem countRejected_step {user : UserId} {goal : PasskeyGoal} :
    CallStep P key db call (countRejected maxLockoutSecs db draw W user goal) := by
  unfold countRejected
  split
  · split
    · rename_i outcome db' hcommit
      exact .refuse (recordSecondFactorFailure_passkeys hcommit)
    · exact .refuse (.refl db)
  · split
    · rename_i outcome db' hcommit
      exact .refuse (recordStepUpFailure_passkeys hcommit)
    · exact .refuse (.refl db)

private theorem bindPending_step {browserBinding csrf : String} :
    CallStep P key db call (bindPending P db pending browserBinding csrf credential) := by
  unfold bindPending
  split
  · exact .refuse (.refl db)
  · split
    · exact .refuse (.refl db)
    · exact .goOn (.refl db) rfl trivial

private theorem readFederatedCeremony_step {row : FederationMfaPendingRow} :
    CallStep P key db call (readFederatedCeremony P key db row credential) := by
  unfold readFederatedCeremony
  split
  · exact .goOn (.refl db) rfl trivial
  · split
    · exact .refuse (.refl db)
    · split
      · exact .refuse (.refl db)
      · split
        · exact .goOn (.refl db) rfl trivial
        · exact .goOn (.refl db) rfl trivial

private theorem readFederatedPasskey_step (hP : P.Lawful) (hW : W.Lawful)
    {row : FederationMfaPendingRow} {ceremony : CeremonyId} :
    CallStep P key db call (readFederatedPasskey P key db draw W row ceremony result) := by
  unfold readFederatedPasskey
  split
  · exact .refuse (.refl db)
  · split
    · exact .refuse (.refl db)
    · split
      · exact .refuse (.refl db)
      · rename_i passkey hopen
        split
        · exact .refuse (.refl db)
        · rename_i newSealed hseal
          refine .goOn (.refl db) rfl fun n hn => ?_
          rw [WebauthnRs.counterOf_of_open hopen] at hn
          cases hn
          exact ⟨_, W.counterOf_sealUpdated hP hW hseal, Nat.le_max_left _ _⟩

private theorem commitFederated_step {proof : Option F03Proof}
    (hsound : PasskeyCall.Sound P key (.fedDecided (W := W) pending proof)) :
    CallStep P key db call (commitFederated P key db draw W pending proof) := by
  unfold commitFederated
  split
  · rename_i outcome db' hcommit
    refine ⟨fun r hr => completeFederatedMfa_pending hcommit ▸ hr,
      completeFederatedMfa_ceremonies hcommit, ?_, (fun next h => by cases h),
      (fun next c h _ => by cases h), ?_, ?_⟩
    · intro c hc c' hc' hid
      obtain ⟨c₀, hc₀, hid₀, hblob⟩ := completeFederatedMfa_passkeys hcommit c' hc'
      have hsame : c₀ = c := Table.eq_of_key_eq hc₀ hc (hid₀.trans hid)
      subst hsame
      rcases hblob with hkept | ⟨ceremonyId, rfl⟩
      · rw [hkept]
        exact .refl _
      · exact hsound
    · intro c h
      simp only [PasskeyResult.done, PasskeyAnswer.completes] at h
      split at h
      · rename_i heq
        cases heq
      · rename_i heq
        cases heq
      · cases h
      · cases h
    · intro c h
      simp only [PasskeyResult.done, PasskeyAnswer.completes] at h
      split at h
      · cases h
      · cases h
      · rename_i heq
        cases heq
        cases h
        exact completeFederatedMfa_consumed hcommit
      · cases h
  · exact .refuse (.refl db)
  · exact .refuse (.refl db)
  · exact .refuse (.refl db)

/-- An undisturbed step of a call. -/
theorem PasskeyCall.advance_step (hP : P.Lawful) (hW : W.Lawful) (hsound : call.Sound P key)
    (hundisturbed : call.undisturbed P key db draw = true) :
    CallStep P key db call (call.advance P key maxLockoutSecs db draw) := by
  cases call with
  | signInSubmitted pending ceremony credential => exact readSignIn_step
  | ceremonyWanted a => exact readCeremony_step
  | ceremonyExpired a => exact expired_step
  | passkeyWanted a result => exact readPasskey_step
  | passkeyRead a row passkey result => exact writePasskey_step hP hW hundisturbed
  | passkeyWritten a => exact deleted_step hundisturbed
  | finished a => exact commitAssertion_step
  | rejected user goal => exact countRejected_step
  | fedSubmitted pending browserBinding csrf credential => exact bindPending_step
  | fedRowRead row credential =>
    simp only [PasskeyCall.advance]
    split
    · exact .goOn (.refl db) rfl trivial
    · exact .refuse (.refl db)
  | fedUserRead row credential =>
    simp only [PasskeyCall.advance]
    split
    · exact .refuse (.refl db)
    · split
      · exact .refuse (.refl db)
      · split
        · exact .goOn (.refl db) rfl trivial
        · exact .goOn (.refl db) rfl trivial
  | fedBound row credential => exact readFederatedCeremony_step
  | fedVerified row ceremony result => exact readFederatedPasskey_step hP hW
  | fedDecided pending proof => exact commitFederated_step hsound

end Advance

/-! ## The invariant -/

section Runs

variable {W : WebauthnRs} {P : Primitives} {key : MasterKey} {maxLockoutSecs : Int}

/-- A sign-in that has spent its ceremony is the only one, and the ceremony is gone. -/
structure PasskeyInv (P : Primitives) (key : MasterKey) (w : PasskeyWorld W) : Prop where
  sound : ∀ id call, w.calls id = some call → call.Sound P key
  pendingDrawn : ∀ r ∈ w.db.webauthnPending, r.id ∈ w.ceremonyIds
  federatedDrawn : ∀ r ∈ w.db.federationWebauthnCeremony, r.id ∈ w.federatedIds
  spentGone : ∀ id call c, w.calls id = some call → call.spent = some c →
    c ∈ w.ceremonyIds ∧ ∀ r ∈ w.db.webauthnPending, r.id ≠ c
  spentOnce : ∀ id id' call call' c, w.calls id = some call → w.calls id' = some call' →
    call.spent = some c → call'.spent = some c → id = id'

/-- The ceremony can complete nothing any more. -/
def Finished (w : PasskeyWorld W) : PasskeyCeremony → Prop
  | .pending c => c ∈ w.ceremonyIds ∧ (∀ r ∈ w.db.webauthnPending, r.id ≠ c) ∧
      ∀ id call, w.calls id = some call → call.spent ≠ some c
  | .federation c => c ∈ w.federatedIds ∧ ∀ r ∈ w.db.federationWebauthnCeremony, r.id ≠ c

theorem PasskeyInv.start (W : WebauthnRs) (P : Primitives) (key : MasterKey) (db : Database) :
    PasskeyInv P key (PasskeyWorld.start W db) where
  sound _ _ h := by cases h
  pendingDrawn _ hr := List.mem_map_of_mem hr
  federatedDrawn _ hr := List.mem_map_of_mem hr
  spentGone _ _ _ h _ := by cases h
  spentOnce _ _ _ _ _ h := by cases h

/-- The world after a step of the call. -/
private def stepped (w : PasskeyWorld W) (id : PasskeyCallId) (result : PasskeyResult W) :
    PasskeyWorld W :=
  { w with db := result.db, calls := Function.update w.calls id result.next }

variable {id : PasskeyCallId}

private theorem calls_stepped {w : PasskeyWorld W} {id' : PasskeyCallId}
    {result : PasskeyResult W} {call' : PasskeyCall W}
    (h : (stepped w id result).calls id' = some call') :
    (id' = id ∧ result.next = some call') ∨ (id' ≠ id ∧ w.calls id' = some call') := by
  by_cases hid : id' = id
  · subst hid
    simp only [stepped, Function.update_self] at h
    exact .inl ⟨rfl, h⟩
  · simp only [stepped, Function.update_of_ne hid] at h
    exact .inr ⟨hid, h⟩

private theorem PasskeyInv.stepped {w : PasskeyWorld W} (hI : PasskeyInv P key w)
    {call : PasskeyCall W} {result : PasskeyResult W} (hstep : CallStep P key w.db call result) :
    PasskeyInv P key (stepped w id result) where
  sound id' call' h := by
    rcases calls_stepped h with ⟨-, hnext⟩ | ⟨-, hcall⟩
    · exact hstep.sound call' hnext
    · exact hI.sound id' call' hcall
  pendingDrawn r hr := hI.pendingDrawn r (hstep.pending r hr)
  federatedDrawn r hr := hI.federatedDrawn r (hstep.federation r hr)
  spentGone id' call' c h hspent := by
    rcases calls_stepped h with ⟨-, hnext⟩ | ⟨-, hcall⟩
    · obtain ⟨⟨r, hr, hid⟩, hgone⟩ := hstep.spent call' c hnext hspent
      exact ⟨hid ▸ hI.pendingDrawn r hr, hgone⟩
    · obtain ⟨hdrawn, hgone⟩ := hI.spentGone id' call' c hcall hspent
      exact ⟨hdrawn, fun r hr => hgone r (hstep.pending r hr)⟩
  spentOnce id₁ id₂ call₁ call₂ c h₁ h₂ hspent₁ hspent₂ := by
    rcases calls_stepped h₁ with ⟨hid₁, hnext₁⟩ | ⟨hid₁, hcall₁⟩
    · rcases calls_stepped h₂ with ⟨hid₂, -⟩ | ⟨-, hcall₂⟩
      · exact hid₁.trans hid₂.symm
      · -- The ceremony was there when this step spent it.
        obtain ⟨⟨r, hr, hid⟩, -⟩ := hstep.spent call₁ c hnext₁ hspent₁
        exact absurd hid ((hI.spentGone id₂ call₂ c hcall₂ hspent₂).2 r hr)
    · rcases calls_stepped h₂ with ⟨-, hnext₂⟩ | ⟨-, hcall₂⟩
      · obtain ⟨⟨r, hr, hid⟩, -⟩ := hstep.spent call₂ c hnext₂ hspent₂
        exact absurd hid ((hI.spentGone id₁ call₁ c hcall₁ hspent₁).2 r hr)
      · exact hI.spentOnce id₁ id₂ call₁ call₂ c hcall₁ hcall₂ hspent₁ hspent₂

/-- What an event does that is not a step of a call: it may begin a call, start a ceremony,
add a passkey, and delete. -/
structure Beside (P : Primitives) (key : MasterKey) (w w' : PasskeyWorld W) : Prop where
  calls : ∀ id call, w'.calls id = some call →
    w.calls id = some call ∨ (call.spent = none ∧ call.Sound P key)
  ceremonyIds : ∀ c ∈ w.ceremonyIds, c ∈ w'.ceremonyIds
  federatedIds : ∀ c ∈ w.federatedIds, c ∈ w'.federatedIds
  pending : ∀ r ∈ w'.db.webauthnPending, r ∈ w.db.webauthnPending ∨
    (r.id ∈ w'.ceremonyIds ∧ r.id ∉ w.ceremonyIds)
  federation : ∀ r ∈ w'.db.federationWebauthnCeremony, r ∈ w.db.federationWebauthnCeremony ∨
    (r.id ∈ w'.federatedIds ∧ r.id ∉ w.federatedIds)
  counters : CountersKept W P key w.db.webauthnCredentials w'.db.webauthnCredentials

theorem Beside.refl (P : Primitives) (key : MasterKey) (w : PasskeyWorld W) :
    Beside P key w w where
  calls _ _ h := .inl h
  ceremonyIds _ h := h
  federatedIds _ h := h
  pending _ h := .inl h
  federation _ h := .inl h
  counters := .of_eq rfl

private theorem PasskeyInv.beside {w w' : PasskeyWorld W} (hI : PasskeyInv P key w)
    (h : Beside P key w w') : PasskeyInv P key w' where
  sound id call hcall := by
    rcases h.calls id call hcall with hold | ⟨-, hsound⟩
    · exact hI.sound id call hold
    · exact hsound
  pendingDrawn r hr := by
    rcases h.pending r hr with hold | ⟨hdrawn, -⟩
    · exact h.ceremonyIds _ (hI.pendingDrawn r hold)
    · exact hdrawn
  federatedDrawn r hr := by
    rcases h.federation r hr with hold | ⟨hdrawn, -⟩
    · exact h.federatedIds _ (hI.federatedDrawn r hold)
    · exact hdrawn
  spentGone id call c hcall hspent := by
    rcases h.calls id call hcall with hold | ⟨hnone, -⟩
    · obtain ⟨hdrawn, hgone⟩ := hI.spentGone id call c hold hspent
      refine ⟨h.ceremonyIds c hdrawn, fun r hr hid => ?_⟩
      rcases h.pending r hr with hr | ⟨-, hnew⟩
      · exact hgone r hr hid
      · exact hnew (hid ▸ hdrawn)
    · rw [hnone] at hspent
      cases hspent
  spentOnce id id' call call' c hcall hcall' hspent hspent' := by
    rcases h.calls id call hcall with hold | ⟨hnone, -⟩
    · rcases h.calls id' call' hcall' with hold' | ⟨hnone', -⟩
      · exact hI.spentOnce id id' call call' c hold hold' hspent hspent'
      · rw [hnone'] at hspent'
        cases hspent'
    · rw [hnone] at hspent
      cases hspent

/-! ## One event -/

private theorem mem_stillIn {κ ρ : Type} [DecidableEq κ] {keyOf : ρ → κ} {t other : Table keyOf}
    {r : ρ} (hr : r ∈ stillIn t other) : r ∈ t :=
  (Table.mem_delete.mp hr).1

private theorem overwrite_counters (w : PasskeyWorld W) (other : Database) :
    CountersKept W P key w.db.webauthnCredentials
      (w.overwrite other).db.webauthnCredentials := by
  apply CountersKept.of_blobs
  intro c' hc' c hc hid
  simp only [PasskeyWorld.overwrite] at hc'
  obtain ⟨c₀, hc₀, rfl⟩ := Table.mem_update.mp hc'
  rw [if_pos rfl, renamedIn_id] at hid
  have hsame : c₀ = c := Table.eq_of_key_eq (mem_stillIn hc₀) hc hid
  subst hsame
  rw [if_pos rfl]
  unfold renamedIn
  split
  · rfl
  · rfl

private theorem startCeremony_beside {w : PasskeyWorld W} {row : WebauthnPendingRow}
    (hnew : row.id ∉ w.ceremonyIds) :
    Beside P key w (passkeyStep P key maxLockoutSecs w (.startCeremony row)).1 ∧
      (passkeyStep P key maxLockoutSecs w (.startCeremony row)).2.completes = none := by
  have hids : ∀ c ∈ w.ceremonyIds, c ∈ row.id :: w.ceremonyIds :=
    fun c hc => List.mem_cons_of_mem _ hc
  simp only [passkeyStep, PasskeyWorld.commit]
  split
  · rename_i u db' hcommit
    simp only [bind_eq_ok, pure_eq_ok, Prod.mk.injEq] at hcommit
    obtain ⟨db₁, hinsert, -, rfl⟩ := hcommit
    obtain ⟨webauthnPending, hrows, rfl⟩ := WebauthnPending.insert_ok hinsert
    refine ⟨⟨fun _ _ h => .inl h, hids, fun _ h => h, fun r hr => ?_, fun _ h => .inl h,
      .of_eq rfl⟩, rfl⟩
    rcases hrows r hr with hold | rfl
    · exact .inl hold
    · exact .inr ⟨List.mem_cons_self, hnew⟩
  · exact ⟨⟨fun _ _ h => .inl h, hids, fun _ h => h, fun _ h => .inl h, fun _ h => .inl h,
      .of_eq rfl⟩, rfl⟩

private theorem beginFederated_beside {w : PasskeyWorld W} {pending : FederationMfaPendingId}
    {ceremonyStateSealed : Bytes} {rpId origin : String} {id : CeremonyId} {now : DateTime}
    (hnew : id ∉ w.federatedIds) :
    Beside P key w (passkeyStep P key maxLockoutSecs w (.beginFederationWebauthnCeremony pending
        ceremonyStateSealed rpId origin id now)).1 ∧
      (passkeyStep P key maxLockoutSecs w (.beginFederationWebauthnCeremony pending
        ceremonyStateSealed rpId origin id now)).2.completes = none := by
  have hids : ∀ c ∈ w.federatedIds, c ∈ id :: w.federatedIds :=
    fun c hc => List.mem_cons_of_mem _ hc
  simp only [passkeyStep, PasskeyWorld.commit]
  split
  · rename_i id' db' hcommit
    simp only [beginFederationWebauthnCeremony, FederationWebauthnCeremony.insertOrReplace,
      bind_eq_ok, ensure_eq_ok, require_eq_ok, pure_eq_ok, Prod.mk.injEq] at hcommit
    obtain ⟨row, -, -, -, -, -, drift, -, -, -, -, -, db₁, ⟨-, -, -, -, rfl⟩, -, rfl⟩ := hcommit
    refine ⟨⟨fun _ _ h => .inl h, fun _ h => h, hids, fun _ h => .inl h, fun r hr => ?_,
      .of_eq rfl⟩, rfl⟩
    rcases Table.mem_upsert.mp hr with ⟨hold, -⟩ | rfl
    · exact .inl (Table.mem_delete.mp hold).1
    · exact .inr ⟨List.mem_cons_self, hnew⟩
  · exact ⟨⟨fun _ _ h => .inl h, fun _ h => h, hids, fun _ h => .inl h, fun _ h => .inl h,
      .of_eq rfl⟩, rfl⟩

private theorem registerPasskey_beside {w : PasskeyWorld W} {row : UserWebauthnCredentialRow} :
    Beside P key w (passkeyStep P key maxLockoutSecs w (.registerPasskey row)).1 ∧
      (passkeyStep P key maxLockoutSecs w (.registerPasskey row)).2.completes = none := by
  simp only [passkeyStep, PasskeyWorld.commit]
  split
  · rename_i u db' hcommit
    obtain ⟨event, db₁, log, hbody, rfl⟩ := classA_eq_ok hcommit
    simp only [WebauthnCredentials.create, bind_eq_ok, ensure_eq_ok, require_eq_ok, pure_eq_ok,
      Prod.mk.injEq] at hbody
    obtain ⟨db₂, ⟨-, -, -, -, t, hinsert, rfl⟩, -, -, rfl⟩ := hbody
    refine ⟨⟨fun _ _ h => .inl h, fun _ h => h, fun _ h => h, fun _ h => .inl h,
      fun _ h => .inl h, .of_blobs fun c' hc' c hc hid => ?_⟩, rfl⟩
    have hsame : c' = c :=
      Table.eq_of_key_eq hc' ((Table.mem_of_insert? hinsert).mpr (.inl hc)) hid
    rw [hsame]
  · exact ⟨.refl P key w, rfl⟩

/-- An undisturbed event is a step of a call, or stands beside the calls. -/
private theorem passkeyStep_cases (maxLockoutSecs : Int) (hP : P.Lawful) (hW : W.Lawful)
    {w : PasskeyWorld W} {e : PasskeyEvent W} (hI : PasskeyInv P key w)
    (hundisturbed : Undisturbed P key w e) :
    (∃ id call result, w.calls id = some call ∧ CallStep P key w.db call result ∧
        passkeyStep P key maxLockoutSecs w e = (stepped w id result, result.out)) ∨
      (Beside P key w (passkeyStep P key maxLockoutSecs w e).1 ∧
        (passkeyStep P key maxLockoutSecs w e).2.completes = none) := by
  cases e with
  | begin id request =>
    refine .inr ?_
    simp only [passkeyStep]
    split
    · refine ⟨⟨fun id' call h => ?_, fun _ h => h, fun _ h => h, fun _ h => .inl h,
        fun _ h => .inl h, .of_eq rfl⟩, rfl⟩
      by_cases hid : id' = id
      · subst hid
        simp only [Function.update_self, Option.some.injEq] at h
        subst h
        refine .inr ?_
        cases request with
        | signIn | federated => exact ⟨rfl, trivial⟩
        | stepUp user session ceremony credential gate =>
          simp only [PasskeyRequest.start]
          split
          · exact ⟨rfl, trivial⟩
          · exact ⟨rfl, trivial⟩
      · simp only [Function.update_of_ne hid] at h
        exact .inl h
    · exact ⟨.refl P key w, rfl⟩
  | next id draw =>
    simp only [passkeyStep]
    split
    · exact .inr ⟨.refl P key w, rfl⟩
    · rename_i call hcall
      simp only [Undisturbed, hcall, Option.all_some] at hundisturbed
      exact .inl ⟨id, call, call.advance P key maxLockoutSecs w.db draw, hcall,
        PasskeyCall.advance_step hP hW (hI.sound id call hcall) hundisturbed, rfl⟩
  | startCeremony row => exact .inr (startCeremony_beside hundisturbed)
  | beginFederationWebauthnCeremony pending ceremonyStateSealed rpId origin id now =>
    exact .inr (beginFederated_beside hundisturbed)
  | registerPasskey row => exact .inr registerPasskey_beside
  | elsewhere other =>
    refine .inr ⟨⟨fun _ _ h => .inl h, fun _ h => h, fun _ h => h,
      fun _ h => .inl (mem_stillIn h), fun _ h => .inl (mem_stillIn h),
      overwrite_counters w other⟩, rfl⟩

section Step

variable (hP : P.Lawful) (hW : W.Lawful) {w : PasskeyWorld W} {e : PasskeyEvent W}
  (hI : PasskeyInv P key w) (hundisturbed : Undisturbed P key w e)

include hP hW hI hundisturbed

theorem PasskeyInv.step : PasskeyInv P key (passkeyStep P key maxLockoutSecs w e).1 := by
  rcases passkeyStep_cases maxLockoutSecs hP hW hI hundisturbed with
    ⟨id, call, result, -, hstep, heq⟩ | ⟨hbeside, -⟩
  · rw [heq]
    exact hI.stepped hstep
  · exact hI.beside hbeside

theorem passkeyStep_counters :
    CountersKept W P key w.db.webauthnCredentials
      (passkeyStep P key maxLockoutSecs w e).1.db.webauthnCredentials := by
  rcases passkeyStep_cases maxLockoutSecs hP hW hI hundisturbed with
    ⟨id, call, result, -, hstep, heq⟩ | ⟨hbeside, -⟩
  · rw [heq]
    exact hstep.counters
  · exact hbeside.counters

variable {ceremony : PasskeyCeremony}

/-- The step that completes a ceremony finishes it. -/
private theorem finished_enter
    (hcompletes :
      (passkeyStep P key maxLockoutSecs w e).2.completes = some ceremony) :
    Finished (passkeyStep P key maxLockoutSecs w e).1 ceremony := by
  rcases passkeyStep_cases maxLockoutSecs hP hW hI hundisturbed with
    ⟨id, call, result, hcall, hstep, heq⟩ | ⟨-, hnone⟩
  · rw [heq] at hcompletes ⊢
    cases ceremony with
    | federation c =>
      obtain ⟨⟨r, hr, hid⟩, hgone⟩ := hstep.federated c hcompletes
      exact ⟨hid ▸ hI.federatedDrawn r hr, hgone⟩
    | pending c =>
      obtain ⟨hended, hspent | ⟨⟨r, hr, hid⟩, hgone⟩⟩ := hstep.local_ c hcompletes
      · obtain ⟨hdrawn, hgone⟩ := hI.spentGone id call c hcall hspent
        refine ⟨hdrawn, fun r hr => hgone r (hstep.pending r hr), fun id' call' h hspent' => ?_⟩
        rcases calls_stepped h with ⟨-, hnext⟩ | ⟨hother, hold⟩
        · rw [hended] at hnext
          cases hnext
        · exact hother (hI.spentOnce id' id call' call c hold hcall hspent' hspent)
      · refine ⟨hid ▸ hI.pendingDrawn r hr, hgone, fun id' call' h hspent' => ?_⟩
        rcases calls_stepped h with ⟨-, hnext⟩ | ⟨-, hold⟩
        · rw [hended] at hnext
          cases hnext
        · exact (hI.spentGone id' call' c hold hspent').2 r hr hid
  · rw [hnone] at hcompletes
    cases hcompletes

/-- It stays finished. -/
private theorem finished_closed (hfinished : Finished w ceremony) :
    Finished (passkeyStep P key maxLockoutSecs w e).1 ceremony := by
  rcases passkeyStep_cases maxLockoutSecs hP hW hI hundisturbed with
    ⟨id, call, result, -, hstep, heq⟩ | ⟨hbeside, -⟩
  · rw [heq]
    cases ceremony with
    | federation c =>
      exact ⟨hfinished.1, fun r hr => hfinished.2 r (hstep.federation r hr)⟩
    | pending c =>
      obtain ⟨hdrawn, hgone, hcalls⟩ := hfinished
      refine ⟨hdrawn, fun r hr => hgone r (hstep.pending r hr), fun id' call' h hspent => ?_⟩
      rcases calls_stepped h with ⟨-, hnext⟩ | ⟨-, hold⟩
      · obtain ⟨⟨r, hr, hid⟩, -⟩ := hstep.spent call' c hnext hspent
        exact hgone r hr hid
      · exact hcalls id' call' hold hspent
  · cases ceremony with
    | federation c =>
      refine ⟨hbeside.federatedIds c hfinished.1, fun r hr hid => ?_⟩
      rcases hbeside.federation r hr with hold | ⟨-, hnew⟩
      · exact hfinished.2 r hold hid
      · exact hnew (hid ▸ hfinished.1)
    | pending c =>
      obtain ⟨hdrawn, hgone, hcalls⟩ := hfinished
      refine ⟨hbeside.ceremonyIds c hdrawn, fun r hr hid => ?_, fun id call h hspent => ?_⟩
      · rcases hbeside.pending r hr with hold | ⟨-, hnew⟩
        · exact hgone r hold hid
        · exact hnew (hid ▸ hdrawn)
      · rcases hbeside.calls id call h with hold | ⟨hnone, -⟩
        · exact hcalls id call hold hspent
        · rw [hnone] at hspent
          cases hspent

/-- A finished ceremony completes nothing. -/
private theorem finished_done (hfinished : Finished w ceremony) :
    (passkeyStep P key maxLockoutSecs w e).2.completes ≠ some ceremony := by
  intro hcompletes
  rcases passkeyStep_cases maxLockoutSecs hP hW hI hundisturbed with
    ⟨id, call, result, hcall, hstep, heq⟩ | ⟨-, hnone⟩
  · rw [heq] at hcompletes
    cases ceremony with
    | federation c =>
      obtain ⟨⟨r, hr, hid⟩, -⟩ := hstep.federated c hcompletes
      exact hfinished.2 r hr hid
    | pending c =>
      obtain ⟨-, hgone, hcalls⟩ := hfinished
      obtain ⟨-, hspent | ⟨⟨r, hr, hid⟩, -⟩⟩ := hstep.local_ c hcompletes
      · exact hcalls id call hcall hspent
      · exact hgone r hr hid
  · rw [hnone] at hcompletes
    cases hcompletes

end Step

/-- A step that completes the ceremony. -/
def completesWith (ceremony : PasskeyCeremony) (x : PasskeyTaken W) : Bool :=
  x.out.completes == some ceremony

/-- In a run whose steps are undisturbed, a ceremony completes at most one sign-in or step-up,
and no step lowers the signature counter of a stored passkey. -/
theorem passkey_ceremony_spent_once (hP : P.Lawful) (hW : W.Lawful) {db : Database}
    {es : List (PasskeyEvent W)}
    (hg : Machine.Guarded (passkeyStep P key maxLockoutSecs) (Undisturbed P key)
      (PasskeyWorld.start W db) es) :
    (∀ ceremony, (Machine.trace (passkeyStep P key maxLockoutSecs) (PasskeyWorld.start W db)
        es).countP (completesWith ceremony) ≤ 1) ∧
      ∀ x ∈ Machine.trace (passkeyStep P key maxLockoutSecs) (PasskeyWorld.start W db) es,
        CountersKept W P key x.pre.db.webauthnCredentials
          (passkeyStep P key maxLockoutSecs x.pre x.event).1.db.webauthnCredentials := by
  have hstep : ∀ w e, PasskeyInv P key w → Undisturbed P key w e →
      PasskeyInv P key (passkeyStep P key maxLockoutSecs w e).1 :=
    fun w e hI h => hI.step hP hW h
  have hstart := PasskeyInv.start W P key db
  constructor
  · intro ceremony
    refine Machine.countP_trace_le_one (D := fun w => Finished w ceremony) hstep ?_ ?_ ?_ hg hstart
    · intro w e hI h hcompletes
      exact finished_enter hP hW hI h (beq_iff_eq.mp hcompletes)
    · intro w e hI h hfinished
      exact finished_closed hP hW hI h hfinished
    · intro w e hI h hfinished
      exact beq_eq_false_iff_ne.mpr (finished_done hP hW hI h hfinished)
  · intro x hx
    obtain ⟨hI, h, -⟩ := Machine.trace_invariant hstep hg hstart hx
    exact passkeyStep_counters hP hW hI h

end Runs

/-! ## Two runs -/

/-- A sign-in, and then a step-up. -/
private def oneByOne : List (PasskeyEvent .sample) :=
  .begin 1 (.signIn 20 30 "c2") :: List.replicate 6 (.next 1 (.sample 1)) ++
    .begin 2 (.stepUp 7 40 31 "d3" "/me/security") :: List.replicate 4 (.next 2 (.sample 2))

private def sampleTrace (es : List (PasskeyEvent .sample)) : List (PasskeyTaken .sample) :=
  Machine.trace (passkeyStep .transparent (.constant 7) 3600) (PasskeyWorld.start .sample passkeyDb)
    es

theorem passkey_ceremony_spent_once_oneByOne :
    (∀ ceremony, (sampleTrace oneByOne).countP (completesWith ceremony) ≤ 1) ∧
      (∀ x ∈ sampleTrace oneByOne,
        CountersKept .sample .transparent (.constant 7) x.pre.db.webauthnCredentials
          (passkeyStep .transparent (.constant 7) 3600 x.pre
            x.event).1.db.webauthnCredentials) ∧
      (sampleTrace oneByOne).countP (completesWith (.pending 30)) = 1 ∧
      (sampleTrace oneByOne).countP (completesWith (.pending 31)) = 1 := by
  have hundisturbed : Machine.Guarded (passkeyStep .transparent (.constant 7) 3600)
      (Undisturbed .transparent (.constant 7)) (PasskeyWorld.start .sample passkeyDb) oneByOne := by
    decide +kernel
  have hspent := passkey_ceremony_spent_once Primitives.transparent_lawful
    WebauthnRs.sample_lawful hundisturbed
  exact ⟨hspent.1, hspent.2, by decide +kernel, by decide +kernel⟩

/-- Two sign-ins answer one challenge, and each reads before the other writes. -/
private def overtaken : List (PasskeyEvent .sample) :=
  let first := .next 1 (.sample 1)
  let second := .next 2 (.sample 2)
  [.begin 1 (.signIn 20 30 "c3"), .begin 2 (.signIn 21 30 "c2"), first, second, first, second,
    first, second, first, first, first, second, second, second]

/-- The counter of passkey 50. -/
private def counterAfter (es : List (PasskeyEvent .sample)) : Option Nat :=
  let w := Machine.run (passkeyStep .transparent (.constant 7) 3600)
    (PasskeyWorld.start .sample passkeyDb) es
  (w.db.webauthnCredentials.get? 50).bind fun c =>
    WebauthnRs.sample.counterOf .transparent (.constant 7) c.passkeyEnc

/-- One ceremony completes two sign-ins, and the counter falls from 3 to 2. -/
theorem passkey_ceremony_spent_twice :
    (sampleTrace overtaken).countP (completesWith (.pending 30)) = 2 ∧
      counterAfter (overtaken.take 11) = some 3 ∧ counterAfter overtaken = some 2 := by
  refine ⟨?_, ?_, ?_⟩
  · decide +kernel
  · decide +kernel
  · decide +kernel

end SuiId
