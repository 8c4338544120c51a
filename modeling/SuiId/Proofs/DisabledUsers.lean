import SuiId.Proofs.RefreshFamilies

/-!
# Disabled and deleted accounts

Disabling or deleting an account revokes its refresh tokens in the same
transaction, and T04 needs an unrevoked row.  So an inactive account can only
get back to a token set through a root that T09 inserts after the sweep.
`exchange_code` reads the account in one step and runs T09 in a later one, so
such a root exists: `disabled_user_refreshes` is a run with one.  A run whose
T09 steps all find the account active has none.
-/

namespace SuiId

open Lib Lib.Result

variable {P : Primitives} {ctx : IssuanceContext}

/-- Every refresh token of the account is revoked. -/
def TokensRevoked (db : Database) (user : UserId) : Prop :=
  ∀ r ∈ db.refreshTokens, r.userId = user → r.revokedAt ≠ none

/-- An inactive account has no unrevoked refresh token. -/
def InactiveRevoked (db : Database) : Prop :=
  ∀ user, Users.isActive db user = false → TokensRevoked db user

/-- A T09 in this event finds the account active. -/
def issuesWhileActive (w : World) (e : Event) : Bool :=
  (rootGrant w e).all fun grant => Users.isActive w.db grant.1

/-! ## One event -/

theorem tokensRevoked_of_sweep (db : Database) (user : UserId) (now : DateTime) :
    TokensRevoked (RefreshTokens.revokeAllForUser db user now) user := by
  intro r hr huser hlive
  obtain ⟨-, hother⟩ := RefreshTokens.live_of_revokeWhere hr hlive
  rw [huser, beq_self_eq_true] at hother
  cases hother

variable {db db' : Database} {user : UserId} {w : World}

/-- An account that an update of `users` leaves active. -/
theorem isActive_update {f : UserRow → UserRow}
    (hget : db'.users.get? user = (db.users.get? user).map f)
    (hf : ∀ u, u.id = user → Users.active u = true → Users.active (f u) = true)
    (hactive : Users.isActive db user = true) : Users.isActive db' user = true := by
  obtain ⟨u, hu, hactive⟩ := (Option.any_eq_true _ _).mp hactive
  obtain ⟨-, hid⟩ := Table.get?_eq_some.mp hu
  unfold Users.isActive
  rw [hget, hu]
  exact hf u hid hactive

/-- A command leaves an active account active, or revokes its tokens. -/
theorem Effect.active {command : Command} (h : Effect P db command db')
    (hactive : Users.isActive db user = true) :
    Users.isActive db' user = true ∨ TokensRevoked db' user := by
  cases h with
  | @disableUser admin session target reason now log
  | @deleteUser admin session target reason now log =>
    by_cases htarget : user = target
    · subst htarget
      exact .inr (tokensRevoked_of_sweep (Sessions.revokeAllForUser db user now) user now)
    · refine .inl (isActive_update (by simp only [Table.get?_update]; rfl) ?_ hactive)
      intro u hid hu
      rw [if_neg (by simp [hid, htarget])]
      exact hu
  | enableUser =>
    refine .inl (isActive_update (by simp only [Table.get?_update]; rfl) ?_ hactive)
    intro u _ hu
    split
    · simp only [Users.active, Bool.and_eq_true] at hu ⊢
      exact ⟨rfl, hu.2⟩
    · exact hu
  | resetPassword hflags => exact .inl (hflags.isActive hactive)
  | _ => exact .inl hactive

/-- So does every event. -/
theorem worldStep_active (e : Event) (hactive : Users.isActive w.db user = true) :
    Users.isActive (worldStep P ctx w e).1.db user = true ∨
      TokensRevoked (worldStep P ctx w e).1.db user := by
  have hframe : (∃ command, e = .command command ∧
      Effect P w.db command (worldStep P ctx w e).1.db) ∨
      Frame w e (worldStep P ctx w e).1.db := worldStep_frame w e
  rcases hframe with ⟨command, -, heffect⟩ | hframe
  · exact heffect.active hactive
  · exact .inl (hframe.users.isActive hactive)

/-- One event keeps the invariant, unless it is a T09 for an inactive account. -/
theorem inactiveRevoked_step (hP : P.Lawful) (hd : Described P w) {e : Event}
    (hfresh : Fresh P w e) (hissues : issuesWhileActive w e = true) (hinv : InactiveRevoked w.db) :
    InactiveRevoked (worldStep P ctx w e).1.db := by
  intro user hinactive r' hr' huser hlive
  have hbefore : Users.isActive w.db user = true := by
    rcases (worldStep_tokens hP hd hfresh).live_origin hr' hlive with
      ⟨r, hr, -, hsame, -, hrlive⟩ | ⟨hgrant, -⟩
    · -- The row, or the one it was rotated from, was unrevoked before.
      by_contra hnot
      exact hinv user (by simpa using hnot) r hr (hsame.trans huser) hrlive
    · simpa [issuesWhileActive, hgrant, huser] using hissues
  have hstep : Users.isActive (worldStep P ctx w e).1.db user = true ∨
      TokensRevoked (worldStep P ctx w e).1.db user := worldStep_active e hbefore
  rcases hstep with hactive | hrevoked
  · rw [hinactive] at hactive
    cases hactive
  · exact hrevoked r' hr' huser hlive

/-! ## Whole runs -/

/-- When every T09 of a run finds its account active: in every state of the run
an inactive account has no unrevoked refresh token, and `exchange_refresh`
returns no token set for it. -/
theorem inactive_throughout (hP : P.Lawful) {w : World} (hd : Described P w)
    (hstart : InactiveRevoked w.db) {es : List Event}
    (hfresh : Machine.Guarded (worldStep P ctx) (Fresh P) w es)
    (hissues : Machine.Guarded (worldStep P ctx) (fun w e => issuesWhileActive w e = true) w es) :
    (∀ before after, es = before ++ after →
        InactiveRevoked (Machine.run (worldStep P ctx) w before).db) ∧
      ∀ x ∈ Machine.trace (worldStep P ctx) w es, ∀ tokens user,
        x.out.refreshed = some tokens → tokens.userId = some user →
          Users.isActive x.pre.db user = true := by
  have hstep : ∀ w e, (Described P w ∧ InactiveRevoked w.db) →
      (Fresh P w e ∧ issuesWhileActive w e = true) →
      Described P (worldStep P ctx w e).1 ∧ InactiveRevoked (worldStep P ctx w e).1.db := by
    rintro w e ⟨hd, hinv⟩ ⟨hfresh, hissues⟩
    exact ⟨described_step hP hd hfresh, inactiveRevoked_step hP hd hfresh hissues hinv⟩
  have hguard := hfresh.and hissues
  refine ⟨?_, fun x hx tokens user hout huser => ?_⟩
  · rintro before after rfl
    exact (Machine.run_invariant hstep (Machine.guarded_append.mp hguard).1 ⟨hd, hstart⟩).2
  · obtain ⟨⟨hd', hinv⟩, -, hanswer⟩ := Machine.trace_invariant hstep hguard ⟨hd, hstart⟩ hx
    rw [hanswer] at hout
    obtain ⟨call, draw, req, row, jwt, -, -, hrow, old, hold, hlive, -, hbinding⟩ :=
      refreshed_spends hd' hout
    have holdUser : old.userId = user := by
      rw [huser] at hrow
      exact (congrArg Binding.userId hbinding).trans (Option.some.inj hrow).symm
    by_contra hnot
    exact hinv user (by simpa using hnot) old hold holdUser hlive

/-! ## An exchange around a sweep -/

/-- An unconsumed code of user 1 for client 5, with the verifier `v`. -/
def sampleCode : AuthorizationCodeRow :=
  { codeHash := utf8 "code", clientId := 5, userId := 1, redirectUri := "https://app.example"
    scope := "openid", nonce := none, codeChallenge := "v", codeChallengeMethod := "S256"
    expiresAt := seconds 1000, consumed := false, createdAt := 0, authMethods := [.pwd] }

/-- The sample database with the code, and no refresh token yet. -/
def codeWorld : World :=
  { db := { sampleDb with authCodes := ⟨[sampleCode], by decide⟩ }
    calls := fun _ => none
    backfill := []
    issued := []
    presented := []
    codes := [sampleCode.codeHash] }

theorem codeWorld_described : Described P codeWorld where
  row r hr := by cases hr
  call c x req r hcall _ := by cases hcall
  backfill entry hentry := by cases hentry
  id_inj e he := by cases he
  hash_inj e he := by cases he
  family e he := by cases he

/-- `exchange_code` with the sample code, up to T09. -/
def codePrelude (call : CallId) : List Event :=
  [.codeBegin call ⟨"code", "https://app.example", 5, none, .body, "v"⟩, .codeConsume call 1,
    .codeResolveUser call, .codeSign call ⟨2, sampleKey, "a", "b"⟩]

/-- The account is disabled just before T09; then the new token is presented. -/
def disableRace : List Event :=
  codePrelude 0 ++
    ([.command (.disableUser 2 10 1 none 3), .codeIssue 0 (sampleDraw 100 [1])] : List Event) ++
    refreshPrelude 1 [1] ++ ([.refreshRotate 1 (sampleDraw 101 [2])] : List Event)

/-- The account is disabled only after T09. -/
def disableAfter : List Event :=
  codePrelude 0 ++
    ([.codeIssue 0 (sampleDraw 100 [1]), .command (.disableUser 2 10 1 none 3)] : List Event) ++
    refreshPrelude 1 [1] ++ ([.refreshRotate 1 (sampleDraw 101 [2])] : List Event)

/-- A disabled account with an unrevoked refresh token, which it then exchanges
for a token set. -/
theorem disabled_user_refreshes :
    Machine.Guarded sampleStep (Fresh Primitives.transparent) codeWorld disableRace ∧
      Users.isActive (Machine.run sampleStep codeWorld (disableRace.take 6)).db 1 = false ∧
      ((Machine.run sampleStep codeWorld (disableRace.take 6)).db.refreshTokens.count fun r =>
        r.userId == 1 && r.revokedAt.isNone) = 1 ∧
      (Machine.trace sampleStep codeWorld disableRace).any (fun x =>
        !Users.isActive x.pre.db 1 &&
          x.out.refreshed.any fun tokens => tokens.userId == some 1) = true := by
  decide +kernel

private theorem disableAfter_fresh :
    Machine.Guarded sampleStep (Fresh Primitives.transparent) codeWorld disableAfter := by
  decide +kernel

private theorem disableAfter_issuesWhileActive :
    Machine.Guarded sampleStep (fun w e => issuesWhileActive w e = true) codeWorld
      disableAfter := by
  decide +kernel

/-- When T09 comes first, the sweep revokes its token, and the account has no
unrevoked one at the end. -/
theorem inactive_disableAfter :
    Users.isActive (Machine.run sampleStep codeWorld disableAfter).db 1 = false ∧
      TokensRevoked (Machine.run sampleStep codeWorld disableAfter).db 1 := by
  have hinactive : Users.isActive (Machine.run sampleStep codeWorld disableAfter).db 1 = false := by
    decide +kernel
  have hstart : InactiveRevoked codeWorld.db := by
    intro user _ r hr
    cases hr
  refine ⟨hinactive, ?_⟩
  exact (inactive_throughout Primitives.transparent_lawful codeWorld_described hstart
    disableAfter_fresh disableAfter_issuesWhileActive).1 disableAfter [] (by simp) 1 hinactive

end SuiId
