import SuiId.Store.Eviction
import SuiId.Store.Factors
import SuiId.Store.Recovery
import SuiId.Store.SigningKeys

/-!
# The step-up columns of a session

L02, L05 and F03 write when and with what a session has stepped up, and L06 counts its
failures.  Every other command at most revokes sessions, opens one without a step-up, or
purges expired ones.

* `Sessions.Held t t'`: each session left was there before with the same step-up columns,
  and is revoked if it was.
* `SessionWrite` is what a command says it does to these columns, and `SessionWrite.Row`
  what a row of the table then is.

The lemmas below give each command its `SessionWrite`.
-/

namespace SuiId

open Lib Lib.Result

/-- The same step-up columns, and no revocation undone. -/
structure SessionRow.Held (s s' : SessionRow) : Prop where
  id : s'.id = s.id
  lastStepUpAt : s'.lastStepUpAt = s.lastStepUpAt
  method : s'.lastStepUpMethod = s.lastStepUpMethod
  failures : s'.stepUpFailureCount = s.stepUpFailureCount
  revoked : s.revokedAt.isSome = true → s'.revokedAt.isSome = true

theorem SessionRow.Held.refl (s : SessionRow) : s.Held s := ⟨rfl, rfl, rfl, rfl, fun h => h⟩

theorem SessionRow.Held.trans {s s' s'' : SessionRow} (h : s.Held s') (h' : s'.Held s'') :
    s.Held s'' where
  id := h'.id.trans h.id
  lastStepUpAt := h'.lastStepUpAt.trans h.lastStepUpAt
  method := h'.method.trans h.method
  failures := h'.failures.trans h.failures
  revoked hrevoked := h'.revoked (h.revoked hrevoked)

namespace Sessions

/-- Every session left was there before. -/
def Held (t t' : Table SessionRow.id) : Prop := ∀ s' ∈ t', ∃ s ∈ t, SessionRow.Held s s'

theorem Held.refl (t : Table SessionRow.id) : Held t t := fun s hs => ⟨s, hs, .refl s⟩

variable {t : Table SessionRow.id}
variable {t' : Table SessionRow.id}

theorem Held.trans {t'' : Table SessionRow.id} (h : Held t t') (h' : Held t' t'') :
    Held t t'' := by
  intro s'' hs''
  obtain ⟨s', hs', hheld'⟩ := h' s'' hs''
  obtain ⟨s, hs, hheld⟩ := h s' hs'
  exact ⟨s, hs, hheld.trans hheld'⟩

theorem Held.of_eq (h : t' = t) : Held t t' := by
  rw [h]
  exact .refl t

theorem held_update {p : SessionRow → Bool} {f : SessionRow → SessionRow}
    {hkey : ∀ s, (f s).id = s.id} (hf : ∀ s, SessionRow.Held s (f s)) :
    Held t (t.update p f hkey) := by
  intro s' hs'
  obtain ⟨s, hs, rfl⟩ := Table.mem_update.mp hs'
  refine ⟨s, hs, ?_⟩
  split
  · exact hf s
  · exact .refl s

theorem held_revokeWhere (db : Database) (p : SessionRow → Bool) (now : DateTime) :
    Held db.sessions (revokeWhere db p now).sessions := by
  simp only [revokeWhere]
  exact held_update fun _ => ⟨rfl, rfl, rfl, rfl, fun _ => rfl⟩

theorem held_purgeExpired (db : Database) (now : DateTime) :
    Held db.sessions (purgeExpired db now).sessions :=
  fun s hs => ⟨s, (Table.mem_delete.mp hs).1, .refl s⟩

theorem held_evictOverCap (db : Database) (user : UserId) (now : DateTime) :
    Held db.sessions (evictOverCap db user now).2.sessions := by
  have hrevoke : ∀ (ss : List SessionRow) (db : Database),
      Held db.sessions (ss.foldl (fun db s => revoke db s.id now) db).sessions := by
    intro ss
    induction ss with
    | nil =>
      intro db
      exact .refl _
    | cons s ss ih =>
      intro db
      have hone : Held db.sessions (revoke db s.id now).sessions := held_revokeWhere db _ now
      exact hone.trans (ih _)
  unfold evictOverCap
  dsimp only
  split
  · exact .refl _
  · exact hrevoke _ db

end Sessions

/-! ## What a command writes -/

/-- What a command does to the step-up columns. -/
inductive SessionWrite where
  | nothing
  /-- A step-up of the session. -/
  | steppedUp (id : SessionId) (method : String) (at_ : DateTime)
  /-- A failed step-up of the session. -/
  | failed (id : SessionId)
  /-- A new session, stepped up or not. -/
  | opened (id : SessionId) (stamp : Option (DateTime × String))

namespace SessionWrite

/-- The row `s` after the write, and where it comes from. -/
def Row (t : Table SessionRow.id) (s : SessionRow) : SessionWrite → Prop
  | nothing => ∃ s₀ ∈ t, SessionRow.Held s₀ s
  | steppedUp id method at_ =>
    (s.id = id ∧ s.lastStepUpAt = some at_ ∧ s.lastStepUpMethod = some method) ∨
      (s.id ≠ id ∧ ∃ s₀ ∈ t, SessionRow.Held s₀ s)
  | failed id =>
    (s.id = id ∧ ∃ s₀ ∈ t, s₀.id = id ∧ s.lastStepUpAt = s₀.lastStepUpAt ∧
        s.lastStepUpMethod = s₀.lastStepUpMethod ∧
        s.stepUpFailureCount = s₀.stepUpFailureCount + 1 ∧
        (stepUpFailureRevocationThreshold ≤ s.stepUpFailureCount → s.revokedAt.isSome = true)) ∨
      (s.id ≠ id ∧ ∃ s₀ ∈ t, SessionRow.Held s₀ s)
  | opened id stamp =>
    (s.id = id ∧ s.lastStepUpAt = stamp.map (·.1) ∧
        ∀ p, stamp = some p → s.lastStepUpMethod = some p.2) ∨
      (s.id ≠ id ∧ ∃ s₀ ∈ t, SessionRow.Held s₀ s)

/-- The session that the write is about. -/
def Target (t : Table SessionRow.id) : SessionWrite → Prop
  | nothing => True
  | steppedUp id _ _ => ∃ s ∈ t, s.id = id ∧ s.revokedAt = none
  | failed id => ∃ s ∈ t, s.id = id ∧ s.revokedAt = none
  | opened _ _ => True

/-- The effect of a write on the table. -/
structure Wrote (w : SessionWrite) (t t' : Table SessionRow.id) : Prop where
  target : w.Target t
  rows : ∀ s ∈ t', w.Row t s

variable {t : Table SessionRow.id}
variable {w : SessionWrite} {t' : Table SessionRow.id}

/-- A row that another write holds. -/
theorem Row.of_held {s s' : SessionRow} (h : w.Row t s) (hheld : s.Held s') :
    w.Row t s' := by
  have hother : (∃ s₀ ∈ t, SessionRow.Held s₀ s) → ∃ s₀ ∈ t, SessionRow.Held s₀ s' := by
    intro hex
    obtain ⟨s₀, hs₀, h₀⟩ := hex
    exact ⟨s₀, hs₀, h₀.trans hheld⟩
  cases w with
  | nothing => exact hother h
  | steppedUp id method at_ =>
    apply h.imp
    · intro hrow
      exact ⟨hheld.id.trans hrow.1, hheld.lastStepUpAt.trans hrow.2.1,
        hheld.method.trans hrow.2.2⟩
    · intro hrow
      exact ⟨fun hid => hrow.1 (hheld.id.symm.trans hid), hother hrow.2⟩
  | failed id =>
    apply h.imp
    · intro hrow
      obtain ⟨hid, s₀, hs₀, hid₀, hat, hmethod, hcount, hrevoked⟩ := hrow
      refine ⟨hheld.id.trans hid, s₀, hs₀, hid₀, hheld.lastStepUpAt.trans hat,
        hheld.method.trans hmethod, hheld.failures.trans hcount, fun hlimit => ?_⟩
      rw [hheld.failures] at hlimit
      exact hheld.revoked (hrevoked hlimit)
    · intro hrow
      exact ⟨fun hid => hrow.1 (hheld.id.symm.trans hid), hother hrow.2⟩
  | opened id stamp =>
    apply h.imp
    · intro hrow
      exact ⟨hheld.id.trans hrow.1, hheld.lastStepUpAt.trans hrow.2.1,
        fun p hp => hheld.method.trans (hrow.2.2 p hp)⟩
    · intro hrow
      exact ⟨fun hid => hrow.1 (hheld.id.symm.trans hid), hother hrow.2⟩

theorem Wrote.trans_held {t'' : Table SessionRow.id} (h : w.Wrote t t')
    (h' : Sessions.Held t' t'') : w.Wrote t t'' where
  target := h.target
  rows := by
    intro s'' hs''
    obtain ⟨s', hs', hheld⟩ := h' s'' hs''
    exact (h.rows s' hs').of_held hheld

theorem wrote_nothing (h : Sessions.Held t t') :
    nothing.Wrote t t' := ⟨trivial, h⟩

end SessionWrite

/-! ## New sessions -/

section Opened

variable {db db₁ db' : Database} {session : SessionRow}

/-- The step-up of a new session: its time, with the method of its proof. -/
def SessionRow.stamp (session : SessionRow) (method : String) : Option (DateTime × String) :=
  session.lastStepUpAt.map fun at_ => (at_, method)

/-- An insertion, the method of its step-up when it has one, and the eviction after it. -/
theorem opened_wrote {t : Table SessionRow.id} {stepUp : Bool} {method : String} {user : UserId}
    {now : DateTime} (h : Sessions.insert db session = .ok db₁) (ht : db.sessions = t)
    (hstepUp : stepUp = session.lastStepUpAt.isSome) :
    (SessionWrite.opened session.id (session.stamp method)).Wrote t
      (Sessions.evictOverCap (if stepUp then setStepUpMethod db₁ session.id method else db₁)
        user now).2.sessions := by
  apply SessionWrite.Wrote.trans_held ?_ (Sessions.held_evictOverCap _ user now)
  simp only [Sessions.insert, bind_eq_ok, ensure_eq_ok, require_eq_ok, pure_eq_ok] at h
  obtain ⟨-, -, sessions, hinsert, rfl⟩ := h
  rw [← ht]
  have hfresh := (Table.insert?_eq_some.mp hinsert).1
  have hrow : ∀ s ∈ sessions, s ∈ db.sessions ∨
      s = { session with lastStepUpMethod := none, stepUpFailureCount := 0 } :=
    fun s hs => (Table.mem_of_insert? hinsert).mp hs
  have hold : ∀ s ∈ db.sessions,
      (SessionWrite.opened session.id (session.stamp method)).Row db.sessions s :=
    fun s hs => .inr ⟨hfresh s hs, s, hs, .refl s⟩
  cases hstamp : session.lastStepUpAt with
  | none =>
    have hno : stepUp = false := by rw [hstepUp, hstamp, Option.isSome_none]
    rw [if_neg (by simp [hno])]
    refine ⟨trivial, fun s hs => ?_⟩
    rcases hrow s hs with hs | rfl
    · exact hold s hs
    · refine .inl ⟨rfl, ?_, fun p hp => ?_⟩
      · simp [SessionRow.stamp, hstamp]
      · simp [SessionRow.stamp, hstamp] at hp
  | some at_ =>
    have hyes : stepUp = true := by rw [hstepUp, hstamp, Option.isSome_some]
    rw [if_pos hyes]
    refine ⟨trivial, fun s' hs' => ?_⟩
    simp only [setStepUpMethod] at hs'
    obtain ⟨s, hs, rfl⟩ := Table.mem_update.mp hs'
    rcases hrow s hs with hs | rfl
    · have hne : ¬ (s.id == session.id) = true := by simpa using hfresh s hs
      rw [if_neg hne]
      exact hold s hs
    · rw [if_pos (beq_self_eq_true session.id)]
      refine .inl ⟨rfl, ?_, fun p hp => ?_⟩
      · simp [SessionRow.stamp, hstamp]
      · simp [SessionRow.stamp, hstamp] at hp
        rw [← hp]

end Opened

/-! ## The commands -/

section Commands

variable {P : Primitives} {key : MasterKey} {db db' : Database} {session : SessionRow}
  {evicted : Nat}
variable {method : String} {pendingId : FederationMfaPendingId} {proof : Option F03Proof}
  {sessionId : SessionId}

theorem Inserted.wrote {stepUp : Bool} (h : Inserted db db' session stepUp method)
    (hstepUp : stepUp = session.lastStepUpAt.isSome) :
    (SessionWrite.opened session.id (session.stamp method)).Wrote db.sessions db'.sessions := by
  obtain ⟨d, d₁, log, hinsert, hsessions, -, rfl⟩ := h
  exact opened_wrote hinsert hsessions hstepUp

/-- A session without a step-up. -/
theorem Inserted.wrote_plain (h : Inserted db db' session false "")
    (hnone : session.lastStepUpAt = none) :
    (SessionWrite.opened session.id none).Wrote db.sessions db'.sessions := by
  have hstamp : session.stamp "" = none := by rw [SessionRow.stamp, hnone, Option.map_none]
  rw [← hstamp]
  exact h.wrote (by rw [hnone, Option.isSome_none])

/-- The step-up that L02 records for a proof: none for a recovery code. -/
def SecondFactorProof.stamp (proof : SecondFactorProof) (now : DateTime) :
    Option (DateTime × String) :=
  if proof.fresh then some (now, proof.method) else none

/-- L02. -/
theorem completeSecondFactor_wrote {pendingId : PendingMfaId} {session' : SessionRow}
    {proof : SecondFactorProof}
    (h : completeSecondFactor db pendingId session proof = .ok (session', db')) :
    (SessionWrite.opened session.id (proof.stamp session.createdAt)).Wrote db.sessions
      db'.sessions := by
  have hstamp : (proof.session session).stamp proof.method = proof.stamp session.createdAt := by
    unfold SessionRow.stamp SecondFactorProof.session SecondFactorProof.stamp
    cases proof.fresh with
    | true => rfl
    | false => rfl
  have hstepUp : proof.fresh = (proof.session session).lastStepUpAt.isSome := by
    unfold SecondFactorProof.session
    cases proof.fresh with
    | true => rfl
    | false => rfl
  rw [← hstamp]
  exact (completeSecondFactor_inserted h).wrote hstepUp

/-- The step-up that F03 records for a promotion. -/
def PromotionMethod.stamp (method : PromotionMethod) (now : DateTime) :
    Option (DateTime × String) :=
  if method != .recoveryCode then some (now, method.asStr) else none

variable {now : DateTime} {user : UserId}

/-- F03, when it promotes. -/
theorem completeFederatedMfa_wrote
    (h : completeFederatedMfa P key db pendingId proof sessionId now =
      .ok (.promoted session evicted method, db')) :
    ∃ promotion, proof.bind F03Proof.method = some promotion ∧
      (SessionWrite.opened sessionId (promotion.stamp now)).Wrote db.sessions db'.sessions := by
  obtain ⟨row, promotion, db₁, -, -, hmethod, hkept, hpromote⟩ := completeFederatedMfa_promoted h
  refine ⟨promotion, hmethod, ?_⟩
  simp only [promote, FederationLink.touchLastSeen, bind_eq_ok, ensure_eq_ok, pure_eq_ok,
    Prod.mk.injEq] at hpromote
  obtain ⟨d₁, ⟨-, -, rfl⟩, d₂, hlogin, d₃, hinsert, -, rfl⟩ := hpromote
  obtain ⟨-, rfl⟩ := Users.updateWhere_ok hlogin
  have hstamp : (promotedSession sessionId row.userId promotion now).stamp promotion.asStr =
      promotion.stamp now := by
    cases promotion with
    | totp => rfl
    | recoveryCode => rfl
    | webauthn => rfl
  have hstepUp : (promotion != .recoveryCode) =
      (promotedSession sessionId row.userId promotion now).lastStepUpAt.isSome := by
    cases promotion with
    | totp => rfl
    | recoveryCode => rfl
    | webauthn => rfl
  rw [← hstamp]
  exact opened_wrote hinsert hkept.sessions hstepUp

/-- F03, when it does not. -/
theorem completeFederatedMfa_sessions {outcome : F03Outcome}
    (h : completeFederatedMfa P key db pendingId proof sessionId now = .ok (outcome, db'))
    (hno : ∀ session evicted method, outcome ≠ .promoted session evicted method) :
    db'.sessions = db.sessions := by
  obtain ⟨row, -, -, heffect⟩ := completeFederatedMfa_ok h
  cases heffect with
  | invalidated reason t hrow hdb => rw [hdb]
  | rejected reason t ceremonies hcount hrow hdb => rw [hdb]
  | exhausted reason t ceremonies hcount hrow hdb => rw [hdb]
  | promoted method evicted => exact absurd rfl (hno _ _ _)

private theorem requireLiveSession_target {session : SessionId}
    (h : Sessions.requireLiveSession db session user now = .ok ()) :
    ∃ s ∈ db.sessions, s.id = session ∧ s.revokedAt = none := by
  unfold Sessions.requireLiveSession at h
  split at h
  · rename_i s userActive hget
    simp only [ensure_eq_ok, Bool.and_eq_true, Option.isNone_iff_eq_none] at h
    simp only [Sessions.getWithUserActive, Option.bind_eq_bind, Option.bind_eq_some_iff] at hget
    obtain ⟨s', hs', u, -, hpair⟩ := hget
    cases hpair
    obtain ⟨hmem, hid⟩ := Table.get?_eq_some.mp hs'
    exact ⟨s, hmem, hid, h.1.1.2⟩
  · cases h

/-- L05. -/
theorem completeStepUp_wrote {session : SessionId} {proof : StepUpProof} {gate : String}
    {u : Unit} (h : completeStepUp db user session proof gate now = .ok (u, db')) :
    (SessionWrite.steppedUp session proof.method now).Wrote db.sessions db'.sessions := by
  obtain ⟨event, db₁, log, hbody, rfl⟩ := classA_eq_ok h
  simp only [bind_eq_ok, pure_eq_ok, Prod.mk.injEq] at hbody
  obtain ⟨u', hlive, db₂, happly, -, -, rfl⟩ := hbody
  have hsessions : db₂.sessions = db.sessions := by
    cases proof with
    | totp step =>
      obtain ⟨userTotp, rfl⟩ := UserTotp.updateWhere_ok happly
      rfl
    | webauthn pendingId =>
      simp only [StepUpProof.apply, WebauthnPending.consumeStepUp, bind_eq_ok, ensure_eq_ok,
        pure_eq_ok] at happly
      obtain ⟨-, -, rfl⟩ := happly
      rfl
  refine ⟨requireLiveSession_target hlive, fun s' hs' => ?_⟩
  simp only [Sessions.recordStepUp] at hs'
  obtain ⟨s, hs, rfl⟩ := Table.mem_update.mp hs'
  rw [hsessions] at hs
  by_cases hid : s.id = session
  · rw [if_pos (beq_iff_eq.mpr hid)]
    exact .inl ⟨hid, rfl, rfl⟩
  · have hne : ¬ (s.id == session) = true := by simpa using hid
    rw [if_neg hne]
    exact .inr ⟨hid, s, hs, .refl s⟩

/-- L06. -/
theorem recordStepUpFailure_wrote {session : SessionId} {outcome : StepUpFailureOutcome}
    (h : recordStepUpFailure db user session now = .ok (outcome, db')) :
    (SessionWrite.failed session).Wrote db.sessions db'.sessions := by
  obtain ⟨event, db₁, log, hbody, rfl⟩ := classA_eq_ok h
  simp only [Sessions.incrementStepUpFailure, bind_eq_ok, require_eq_ok, pure_eq_ok] at hbody
  obtain ⟨⟨count, db₂⟩, ⟨s₀, hfound, hpair⟩, hrest⟩ := hbody
  obtain ⟨rfl, rfl⟩ := Prod.mk.inj hpair
  obtain ⟨hget, hmatching⟩ := Option.filter_eq_some_iff.mp hfound
  obtain ⟨hmem, hid₀⟩ := Table.get?_eq_some.mp hget
  have hunrevoked : s₀.revokedAt = none := by
    simp only [Bool.and_eq_true, Option.isNone_iff_eq_none] at hmatching
    exact hmatching.2
  have htarget : ∃ s ∈ db.sessions, s.id = session ∧ s.revokedAt = none :=
    ⟨s₀, hmem, hid₀, hunrevoked⟩
  -- The counted row, and the others.
  have hcounted : ∀ s ∈ db.sessions.update (fun s => s.id == session &&
      (s.userId == user && s.revokedAt.isNone)) (fun s =>
        { s with stepUpFailureCount := s.stepUpFailureCount + 1 }) (fun _ => rfl),
      (s.id = session ∧ s = { s₀ with stepUpFailureCount := s₀.stepUpFailureCount + 1 }) ∨
        (s.id ≠ session ∧ s ∈ db.sessions) := by
    intro s' hs'
    obtain ⟨s, hs, rfl⟩ := Table.mem_update.mp hs'
    by_cases hid : s.id = session
    · have hsame : s = s₀ := Table.eq_of_key_eq hs hmem (hid.trans hid₀.symm)
      subst hsame
      rw [if_pos (by simpa [hid] using hmatching)]
      exact .inl ⟨hid, rfl⟩
    · rw [if_neg (by simp [hid])]
      exact .inr ⟨hid, hs⟩
  split at hrest
  · rename_i hlimit
    obtain ⟨-, -, rfl⟩ := hrest
    refine ⟨htarget, fun s'' hs'' => ?_⟩
    simp only [Sessions.revoke, Sessions.revokeWhere] at hs''
    obtain ⟨s', hs', rfl⟩ := Table.mem_update.mp hs''
    rcases hcounted s' hs' with ⟨hid, rfl⟩ | ⟨hid, hs⟩
    · rw [if_pos (by simp [hid₀, hunrevoked])]
      exact .inl ⟨hid, s₀, hmem, hid₀, rfl, rfl, rfl, fun _ => rfl⟩
    · rw [if_neg (by simp [hid])]
      exact .inr ⟨hid, s', hs, .refl s'⟩
  · rename_i hlimit
    obtain ⟨-, -, rfl⟩ := hrest
    refine ⟨htarget, fun s' hs' => ?_⟩
    rcases hcounted s' hs' with ⟨hid, rfl⟩ | ⟨hid, hs⟩
    · exact .inl ⟨hid, s₀, hmem, hid₀, rfl, rfl, rfl, fun h => absurd h hlimit⟩
    · exact .inr ⟨hid, s', hs, .refl s'⟩

end Commands

end SuiId
