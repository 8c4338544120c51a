import SuiId.Proofs.Delegation
import SuiId.Proofs.DisabledUsers

/-!
# Account recovery

A completed password reset (U10) revokes the account's sessions and refresh
tokens.  Authorization codes and pending second factors stay as they are: a
code can still be exchanged and a pending row still be completed, as in
`reset_leaves_access`.  A reset that finds neither evicts whoever had access
before.
-/

namespace SuiId

open Lib Lib.Result

variable {P : Primitives} {ctx : IssuanceContext}

/-! ## Sessions -/

variable {db db' : Database} {w : World}
variable {command : Command} {id : SessionId} {user : UserId} {e : Event}

/-- No command revives a session. -/
theorem Effect.sessions (h : Effect P db command db') :
    Sessions.RevokedKept db.sessions db'.sessions := by
  cases h with
  | disableUser | deleteUser | resetPassword => exact Sessions.revokedKept_revokeWhere db _ _
  | _ => exact .refl _

def SessionRevoked (db : Database) (id : SessionId) : Prop :=
  ∃ s ∈ db.sessions, s.id = id ∧ s.revokedAt ≠ none

theorem sessionRevoked_step (e : Event) (h : SessionRevoked w.db id) :
    SessionRevoked (worldStep P ctx w e).1.db id := by
  obtain ⟨s, hs, hid, hrevoked⟩ := h
  have hkept : Sessions.RevokedKept w.db.sessions (worldStep P ctx w e).1.db.sessions := by
    have hframe : (∃ command, e = .command command ∧
        Effect P w.db command (worldStep P ctx w e).1.db) ∨
        Frame w e (worldStep P ctx w e).1.db := worldStep_frame w e
    rcases hframe with ⟨command, -, heffect⟩ | hframe
    · exact heffect.sessions
    · exact hframe.sessions
  obtain ⟨s', hs', hid', hrevoked'⟩ := hkept s hs hrevoked
  exact ⟨s', hs', hid'.trans hid, hrevoked'⟩

/-- A revoked session is not resolved. -/
theorem not_resolved_of_revoked (h : SessionRevoked w.db id) (now : DateTime) (user : UserId) :
    (worldStep P ctx w (.resolve id now)).2 ≠ .resolved (.ok user) := by
  intro hanswer
  have hresolve : (resolve w.db now id).1 = .ok user := by
    simp only [worldStep, Answer.resolved.injEq] at hanswer
    exact hanswer
  obtain ⟨s, hs, hid, -, hlive⟩ := resolve_ok hresolve
  obtain ⟨s', hs', hid', hrevoked⟩ := h
  rw [Table.eq_of_key_eq hs' hs (hid'.trans hid.symm)] at hrevoked
  exact hrevoked hlive

/-! ## Pending second factors -/

/-- Every pending row of the account has expired by `t`, or was inserted by one of the events. -/
def PendingSince (t : DateTime) (user : UserId) (past : List Event) (w : World) : Prop :=
  ∀ p ∈ w.db.loginPendingMfa, p.userId = user →
    p.expiresAt ≤ t ∨ .command (.issuePendingMfa p) ∈ past

/-- Only one command adds a pending row. -/
theorem Effect.pending (h : Effect P db command db') {p : LoginPendingMfaRow}
    (hp : p ∈ db'.loginPendingMfa) :
    p ∈ db.loginPendingMfa ∨ command = .issuePendingMfa p := by
  cases h with
  | issuePendingMfa hinsert =>
    rcases (Table.mem_of_insert? hinsert).mp hp with hp | rfl
    · exact .inl hp
    · exact .inr rfl
  | _ => exact .inl hp

theorem pendingSince_step {t : DateTime} {past : List Event} (h : PendingSince t user past w) :
    PendingSince t user (past ++ [e]) (worldStep P ctx w e).1 := by
  intro p hp huser
  have horigin : p ∈ w.db.loginPendingMfa ∨ e = .command (.issuePendingMfa p) := by
    have hframe : (∃ command, e = .command command ∧
        Effect P w.db command (worldStep P ctx w e).1.db) ∨
        Frame w e (worldStep P ctx w e).1.db := worldStep_frame w e
    rcases hframe with ⟨command, rfl, heffect⟩ | hframe
    · rcases heffect.pending hp with hold | rfl
      · exact .inl hold
      · exact .inr rfl
    · exact .inl (hframe.pending p hp)
  rcases horigin with hold | rfl
  · exact (h p hold huser).imp_right (List.mem_append_left _)
  · exact .inr (List.mem_append_right _ (List.mem_singleton.mpr rfl))

/-- The pending row the last step of `verify_pending` completes. -/
def completedPending (w : World) : Event → Option PendingMfaId
  | .mfaFinish call _ _ _ _ _ _ _ =>
    match w.calls call with
    | some (.mfaTotp pending _) => some pending.id
    | _ => none
  | _ => none

/-- A session comes from a pending row that is still in the table and has not expired. -/
theorem signedIn_pending {session : SessionRow}
    (h : (worldStep P ctx w e).2 = .signedIn (.ok session)) :
    ∃ p ∈ w.db.loginPendingMfa, completedPending w e = some p.id ∧ session.userId = p.userId ∧
      ∃ now ∈ e.redeemsAt, now < p.expiresAt := by
  cases e with
  | mfaFinish call key nonce codeInput checkedAt sessionId maxLockoutSecs now =>
    simp only [worldStep] at h
    split at h
    · rename_i pending totpRow hcall
      unfold finishStep at h
      split at h
      · rename_i proof method hcheck
        dsimp only at h
        rw [Answer.signedIn.injEq] at h
        obtain ⟨huser, p, hp, hid, hpuser, hexpires⟩ := finishPending_ok h
        refine ⟨p, hp, ?_, huser.trans hpuser.symm, now, rfl, hexpires⟩
        simp only [completedPending, hcall, hid]
      · cases h
    · cases h
  | insertInitial draw user client scope authMethods =>
    simp only [worldStep, insertInitialStep] at h
    split at h
    · cases h
    · cases h
  | _ =>
    simp only [worldStep, issueStep, rotateStep] at h
    repeat' split at h
    all_goals simp at h

/-! ## The reset -/

/-- The reset finds no code and no pending second factor that can be redeemed from `t` on. -/
def NothingPending (P : Primitives) (t : DateTime) (w : World) (user : UserId) : Prop :=
  NothingRedeemable P t w (fun u _ => u = user) false ∧
    ∀ p ∈ w.db.loginPendingMfa, p.userId = user → p.expiresAt ≤ t

/-- The reset revokes every session of the account. -/
theorem sessionRevoked_of_reset {token : ResetTokenId} {credential : CredentialRow}
    {consumedAt : DateTime} {hibpWarned : Bool}
    (h : Effect P db (.resetPassword user token credential consumedAt hibpWarned) db')
    {s : SessionRow} (hs : s ∈ db.sessions) (huser : s.userId = user) :
    SessionRevoked db' s.id := by
  cases h with
  | resetPassword hflags =>
    simp only [SessionRevoked, Sessions.revokeAllForUser, Sessions.revokeWhere]
    refine ⟨_, Table.mem_update.mpr ⟨s, hs, rfl⟩, ?_⟩
    split
    · exact ⟨rfl, Option.some_ne_none _⟩
    · rename_i hp
      refine ⟨rfl, fun hlive => hp ?_⟩
      simp [huser, hlive]

/-- In every run: once a reset has committed that found nothing pending from `t`
on, and nothing is redeemed at an earlier clock value afterwards, no session of
the account from before is resolved, no code or refresh token from before yields
tokens, and every session that `verify_pending` opens comes from a pending row
inserted since. -/
theorem recovery_evicts_throughout (hP : P.Lawful) {w : World} (hd : Described P w)
    (hrec : Recorded P w) {es : List Event}
    (hfresh : Machine.Guarded (worldStep P ctx) (Fresh P) w es) :
    ∀ t before user token credential consumedAt hibpWarned after,
      let reset := Event.command (.resetPassword user token credential consumedAt hibpWarned)
      es = before ++ reset :: after → (∀ e ∈ after, e.NotBefore t) →
      let pre := Machine.run (worldStep P ctx) w before
      let post := (worldStep P ctx pre reset).1
      (worldStep P ctx pre reset).2.accepted = true → NothingPending P t pre user →
        AccessEnded P ctx (fun u _ => u = user) pre post after ∧
          (∀ x ∈ Machine.trace (worldStep P ctx) post after, ∀ s ∈ pre.db.sessions,
            s.userId = user → ∀ now u, x.event = .resolve s.id now → x.out ≠ .resolved (.ok u)) ∧
          ∀ mid e rest, after = mid ++ e :: rest → ∀ session,
            (worldStep P ctx (Machine.run (worldStep P ctx) post mid) e).2 =
                .signedIn (.ok session) → session.userId = user →
              ∃ p, .command (.issuePendingMfa p) ∈ mid ∧
                completedPending (Machine.run (worldStep P ctx) post mid) e = some p.id := by
  rintro t before user token credential consumedAt hibpWarned after reset rfl htime pre post
    haccepted ⟨hnothing, hpending⟩
  obtain ⟨hbefore, -, hafter⟩ := Machine.guarded_append.mp hfresh
  obtain ⟨hdpre, hrecpre⟩ := known_throughout hP hd hrec hbefore
  obtain ⟨db', heffect, hpost⟩ := accepted_command haccepted
  refine ⟨?_, ?_, ?_⟩
  · refine accessEnded_of_command hP hdpre hrecpre haccepted ?_ (by simp) hnothing hafter htime
    intro db' heffect
    cases heffect with
    | resetPassword hflags => exact tokensRevoked_of_sweep pre.db user consumedAt
  · intro x hx s hs huser now u hevent
    have hrevoked : SessionRevoked post.db s.id := by
      show SessionRevoked (worldStep P ctx pre reset).1.db s.id
      rw [hpost]
      exact sessionRevoked_of_reset heffect hs huser
    obtain ⟨hrevoked', -, hanswer⟩ := Machine.trace_invariant
      (I := fun w => SessionRevoked w.db s.id) (fun w e h _ => sessionRevoked_step e h) hafter
      hrevoked hx
    rw [hanswer, hevent]
    exact not_resolved_of_revoked hrevoked' now u
  · rintro mid e rest rfl session hanswer huser
    have hnone : PendingSince t user [] post := by
      intro p hp hpuser
      have hold : p ∈ pre.db.loginPendingMfa := by
        have hp : p ∈ (worldStep P ctx pre reset).1.db.loginPendingMfa := hp
        rw [hpost] at hp
        rcases heffect.pending hp with hold | hcommand
        · exact hold
        · cases hcommand
      exact .inl (hpending p hold hpuser)
    have hsince : PendingSince t user mid (Machine.run (worldStep P ctx) post mid) :=
      Machine.run_history (fun _ _ _ h _ => pendingSince_step h)
        (Machine.guarded_append.mp hafter).1 hnone
    obtain ⟨p, hp, hcompleted, hpuser, now, hnow, hexpires⟩ := signedIn_pending hanswer
    have hlive : ¬ p.expiresAt ≤ t := by
      have hle := htime e (List.mem_append_right _ List.mem_cons_self) now hnow
      exact Int.not_le.mpr (Int.lt_of_le_of_lt hle hexpires)
    exact ⟨p, (hsince p hp (hpuser.symm.trans huser)).resolve_left hlive, hcompleted⟩

/-! ## Runs around a reset -/

/-- A reset link of user 1. -/
def sampleReset : PasswordResetTokenRow :=
  { id := 7, userId := 1, tokenHash := [], issuedAt := 0, expiresAt := seconds 1000
    consumedAt := none, issuedVia := .email, revokedAt := none }

/-- The reset with it. -/
def resetPassword : Event :=
  .command (.resetPassword 1 7 ⟨1, "new", 0⟩ 3 false)

/-- User 1 has a code, a TOTP secret and a pending second factor. -/
def leftoverWorld : World :=
  { codeWorld with
    db := { codeWorld.db with
      passwordResetTokens := ⟨[sampleReset], by decide⟩
      userTotp := ⟨[⟨1, sampleSealed [9] UserTotp.aad, true, none, 0, 0, some 0⟩], by decide⟩
      loginPendingMfa := ⟨[⟨20, 1, seconds 1000, 0⟩], by decide⟩ } }

/-- After the reset the code is exchanged and the pending row completed. -/
def useLeftovers : List Event :=
  codePrelude 0 ++
    ([.codeIssue 0 (sampleDraw 100 [1]), .mfaBegin 1 20 5, .mfaReadTotp 1,
      .mfaFinish 1 sampleKey (Nonce.constant 3) "0" (seconds 60) 30 86400 6] : List Event)

def Answer.openedFor : Answer → Option UserId
  | .signedIn (.ok session) => some session.userId
  | _ => none

/-- The old code yields tokens, and the old pending row a session. -/
theorem reset_leaves_access :
    (sampleStep leftoverWorld resetPassword).2.accepted = true ∧
      ¬ AccessEnded Primitives.transparent sampleContext (fun u _ => u = 1) leftoverWorld
        (sampleStep leftoverWorld resetPassword).1 useLeftovers ∧
      ((Machine.trace sampleStep (sampleStep leftoverWorld resetPassword).1 useLeftovers).any
        fun x => completedPending x.pre x.event == some 20 && x.out.openedFor == some 1) =
          true := by
  refine ⟨by decide +kernel, fun hended => ?_, by decide +kernel⟩
  have hany : ((Machine.trace sampleStep (sampleStep leftoverWorld resetPassword).1
      useLeftovers).any fun x => x.out.tokenSet.isSome &&
        redeemed Primitives.transparent x.pre x.event ==
          some (1, 5, .code sampleCode.codeHash)) = true := by
    decide +kernel
  obtain ⟨x, hx, hyields⟩ := List.any_eq_true.mp hany
  rw [Bool.and_eq_true, beq_iff_eq, Option.isSome_iff_exists] at hyields
  obtain ⟨⟨tokens, htokens⟩, hredeemed⟩ := hyields
  apply hended.1 x hx tokens 1 5 _ htokens hredeemed rfl
  exact .inl ⟨sampleCode, List.mem_singleton.mpr rfl, rfl⟩

/-- User 1 has a session and a refresh token, and a pending second factor that has expired. -/
def signedInWorld : World :=
  { legacyWorld with
    db := { legacyWorld.db with
      sessions := ⟨[plainSession 11 1], by decide⟩
      loginPendingMfa := ⟨[⟨20, 1, 2, 0⟩], by decide⟩
      passwordResetTokens := ⟨[sampleReset], by decide⟩ } }

theorem signedInWorld_recorded : Recorded P signedInWorld where
  row r hr := by cases hr
  code c x req hcall _ := by cases hcall
  held c x req row hcall _ := by cases hcall
  grant c x grant hcall _ := by cases hcall
  token c x req hcall _ := by cases hcall

/-- The session and the token are tried after the reset. -/
def useEvicted : List Event :=
  ([.resolve 11 4] : List Event) ++ refreshPrelude 0 [1] ++
    ([.refreshRotate 0 (sampleDraw 101 [2])] : List Event)

/-- The session and the token worked before the reset, and do not after it. -/
theorem recovery_evicts_signedIn :
    (resolve signedInWorld.db 2 11).1.toOption = some 1 ∧
      liveCount signedInWorld.db 100 = 1 ∧
      AccessEnded Primitives.transparent sampleContext (fun u _ => u = 1) signedInWorld
        (sampleStep signedInWorld resetPassword).1 useEvicted ∧
      ∀ x ∈ Machine.trace sampleStep (sampleStep signedInWorld resetPassword).1 useEvicted,
        ∀ now u, x.event = .resolve 11 now → x.out ≠ .resolved (.ok u) := by
  have hfresh : Machine.Guarded sampleStep (Fresh Primitives.transparent) signedInWorld
      (resetPassword :: useEvicted) := by
    decide +kernel
  have hnothing : NothingPending Primitives.transparent 3 signedInWorld 1 := by
    refine ⟨⟨fun c x req row hcall _ => ?_, fun r hr => ?_⟩, ?_⟩
    · cases hcall
    · cases hr
    · decide
  have hdescribed : Described Primitives.transparent signedInWorld :=
    ⟨legacyWorld_described.row, legacyWorld_described.call, legacyWorld_described.backfill,
      legacyWorld_described.id_inj, legacyWorld_described.hash_inj, legacyWorld_described.family⟩
  obtain ⟨hended, hsessions, -⟩ := recovery_evicts_throughout Primitives.transparent_lawful
    hdescribed signedInWorld_recorded hfresh 3 [] 1 7 ⟨1, "new", 0⟩ 3 false useEvicted rfl
    (by decide) (by decide +kernel) hnothing
  refine ⟨by decide +kernel, by decide, hended, fun x hx now u hevent => ?_⟩
  exact hsessions x hx (plainSession 11 1) (List.mem_singleton.mpr rfl) rfl now u hevent

end SuiId
