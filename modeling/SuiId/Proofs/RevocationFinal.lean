import SuiId.Proofs.RevocationSteps

/-!
# Revocation is final

What revoking a token promises about the rest of a run (`RevocationFinal`), and when the code keeps
that promise.

The code breaks it where

* the deny-list is purged in the last second of a token, which still verifies then, or while a call
  has verified the token and not yet read the list;
* another token with the same `jti` has been denied with an earlier expiry;
* T04 rotates a refresh token while a call is revoking it.

In a run without these (`Unhindered`) a call that revokes an access token leaves it denied or
expired (`RevokesAccess`), and one that revokes a refresh token leaves its family without a live
row (`RevokesRefresh`).  Both last (`AccessGone`, `FamilyGone`).
-/

namespace SuiId

open Lib Lib.Result Lib.Machine

/-! ## The promise -/

/-- The call that a step is an access of. -/
def acting (x : Taken RevocationWorld RevocationEvent TokenAnswer) : Option TokenCall :=
  match x.event with
  | .next id _ => x.pre.calls.get? id
  | _ => none

/-- The step writes nothing. -/
def Unwritten (T : TokenServer) (x : Taken RevocationWorld RevocationEvent TokenAnswer) : Prop :=
  (revocationStep T x.pre x.event).1.tables = x.pre.tables

/-- A later call does not accept the access token, and does not write when it revokes it again. -/
def AccessRefused (T : TokenServer) (since : Nat) (token : String)
    (x : Taken RevocationWorld RevocationEvent TokenAnswer) : Prop :=
  ∀ c ∈ acting x, since < c.begunAt → c.request.token = token →
    x.out.accepts = false ∧ (c.request.isRevoke = true → Unwritten T x)

/-- The step does not rotate a token of the family, and a later call neither accepts one nor writes
when it revokes the token again. -/
def FamilyRefused (T : TokenServer) (since : Nat) (token : String) (f : FamilyId)
    (x : Taken RevocationWorld RevocationEvent TokenAnswer) : Prop :=
  (∀ successor rawToken result,
    x.out = .endpoint (.rotation (.ok (.rotated successor rawToken)) result) →
      successor.familyId ≠ f) ∧
  ∀ c ∈ acting x, since < c.begunAt →
    (x.out.acceptsRefresh = true → ∀ i ∈ x.pre.world.issued,
      i.hash = T.P.sha256 (utf8 c.request.token) → i.binding.familyId ≠ f) ∧
    (c.request.isRevoke = true → c.request.token = token → Unwritten T x)

/-- After a call has revoked a token that was active when the call began, the token is refused. -/
def RevocationFinal (T : TokenServer) (w : RevocationWorld) (es : List RevocationEvent) : Prop :=
  ∀ past x rest, trace (revocationStep T) w es = past ++ x :: rest →
    ∀ c ∈ acting x, x.out = .revoked (.ok ()) →
      (∀ claims ∈ c.access, ∀ y ∈ rest, AccessRefused T x.pre.events c.request.token y) ∧
      ∀ b ∈ c.refresh, ∀ y ∈ rest,
        FamilyRefused T x.pre.events c.request.token b.familyId y

/-! ## Runs -/

/-- The clock does not go back, draws are fresh, no string is both kinds of token, and the refresh
tokens are not being migrated. -/
def Admissible (T : TokenServer) (w : RevocationWorld) (e : RevocationEvent) : Prop :=
  (∀ t ∈ e.time, w.clock ≤ t) ∧
    match e with
    | .endpoint e => Fresh T.P w.world e ∧ e.isMaintenance = false
    | .begin _ request _ => T.isBoth w.tables request.token = false
    | .next id _ => ∀ c ∈ w.calls.get? id, T.isBoth w.tables c.request.token = false
    | .purgeDenyList _ => True

/-- T04 does not rotate a token that is being revoked.  A token that is denied again was not denied
with an earlier expiry.  The purge removes no row of a token that still verifies or of which a call
has verified the claims. -/
def Unhindered (T : TokenServer) (w : RevocationWorld) : RevocationEvent → Prop
  | .endpoint e => ∀ row ∈ rotatable T.P w.world e, ∀ c ∈ w.calls.rows,
      c.request.isRevoke = true → ∀ b ∈ c.refresh, b.id ≠ row.id
  | .begin _ _ _ => True
  | .next id _ => ∀ c ∈ w.calls.get? id, c.request.isRevoke = true →
      ∀ claims ∈ c.stage.awaiting, ∀ r ∈ w.denyList.rows, r.jti = claims.jti →
        seconds claims.exp ≤ r.exp
  | .purgeDenyList now => ∀ r ∈ w.denyList.rows, r.exp < now →
      r.exp < seconds (timestamp now) ∧
        ∀ c ∈ w.calls.rows, ∀ claims ∈ c.stage.awaiting, claims.jti ≠ r.jti

variable {T : TokenServer}

/-! ## One event -/

section Step

variable {w : RevocationWorld} {id : CallId} {draw : StepDraw} {c : TokenCall}

theorem next_tables (hget : w.calls.get? id = some c) :
    (revocationStep T w (.next id draw)).1.tables =
      (T.advance w.tables draw c.request c.stage).1 := by
  simp only [revocationStep, RevocationWorld.perform, hget]
  cases (T.advance w.tables draw c.request c.stage).2 <;> rfl

theorem next_answers (hget : w.calls.get? id = some c) {answer : TokenAnswer}
    (h : (revocationStep T w (.next id draw)).2 = answer) :
    answer = .running ∨ (T.advance w.tables draw c.request c.stage).2 = .answers answer := by
  simp only [revocationStep, RevocationWorld.perform, hget] at h
  cases houtcome : (T.advance w.tables draw c.request c.stage).2 with
  | goesOn stage =>
    rw [houtcome] at h
    exact .inl h.symm
  | answers a =>
    rw [houtcome] at h
    exact .inr (congrArg TokenOutcome.answers h)

/-- Where a call in flight after an event comes from. -/
inductive CallOrigin (T : TokenServer) (w : RevocationWorld) (e : RevocationEvent)
    (c' : TokenCall) : Prop where
  | stayed (hmem : c' ∈ w.calls)
  | began (id : CallId) (request : TokenRequest) (now : DateTime) (he : e = .begin id request now)
      (hc : c' = ⟨id, request, request.start, w.events, activeAccess T w.world.db now request,
        activeRefresh T w.world.db now request⟩)
  | stepped (id : CallId) (draw : StepDraw) (c : TokenCall) (stage : TokenStage)
      (he : e = .next id draw) (hget : w.calls.get? id = some c)
      (hadvance : (T.advance w.tables draw c.request c.stage).2 = .goesOn stage)
      (hc : c' = { c with stage })

theorem call_origin {e : RevocationEvent} {c' : TokenCall}
    (h : c' ∈ (revocationStep T w e).1.calls) : CallOrigin T w e c' := by
  cases e with
  | endpoint e => exact .stayed h
  | purgeDenyList now => exact .stayed h
  | begin id request now =>
    simp only [revocationStep, RevocationWorld.perform] at h
    split at h
    · rename_i calls hinsert
      rcases (Table.mem_of_insert? hinsert).mp h with h | rfl
      · exact .stayed h
      · exact .began id request now rfl rfl
    · exact .stayed h
  | next id draw =>
    simp only [revocationStep, RevocationWorld.perform] at h
    cases hget : w.calls.get? id with
    | none =>
      rw [hget] at h
      exact .stayed h
    | some c =>
      rw [hget] at h
      dsimp only at h
      cases houtcome : (T.advance w.tables draw c.request c.stage).2 with
      | goesOn stage =>
        rw [houtcome] at h
        dsimp only [RevocationWorld.after] at h
        obtain ⟨x, hx, rfl⟩ := Table.mem_update.mp h
        split
        · rename_i hid
          have hxc : w.calls.get? id = some x :=
            Table.get?_eq_some.mpr ⟨hx, by simpa using hid⟩
          rw [hget] at hxc
          cases hxc
          exact .stepped id draw c stage rfl hget houtcome rfl
        · exact .stayed hx
      | answers answer =>
        rw [houtcome] at h
        exact .stayed (Table.mem_delete.mp h).1

variable {e : RevocationEvent}

theorem clock_le (hadm : Admissible T w e) : w.clock ≤ (revocationStep T w e).1.clock := by
  show w.clock ≤ e.time.getD w.clock
  cases htime : e.time with
  | none => exact le_rfl
  | some t => exact hadm.1 t htime

/-- What an event is to the token endpoint: nothing, or an event of its own or of a command. -/
inductive WorldMove (T : TokenServer) (w : RevocationWorld) (e : RevocationEvent) :
    World → Prop where
  | same : WorldMove T w e w.world
  | moved (e' : Event) (hfresh : Fresh T.P w.world e') (hplain : e'.isMaintenance = false)
      (htime : ∀ call draw, e' = .refreshRotate call draw → w.clock ≤ draw.now)
      (hrotates : ∀ row, rotatable T.P w.world e' = some row → e = .endpoint e') :
      WorldMove T w e (worldStep T.P T.ctx w.world e').1

theorem TokenStep.writes {tables tables' : TokenTables} {request : TokenRequest}
    {stage : TokenStage} {outcome : TokenOutcome}
    (h : TokenStep T tables draw request stage tables' outcome) :
    (tables'.db = tables.db ∨ ∃ id now, tables'.db = RefreshTokens.revoke tables.db id now) ∧
      (∀ r ∈ tables.denyList, r ∈ tables'.denyList) ∧
      (∀ stage', outcome = .goesOn stage' → tables' = tables) ∧
      (outcome = .answers (.revoked (.ok ())) → request.isRevoke = true) := by
  cases h with
  | @denied _ _ _ _ _ _ row hjti hexp hinsert =>
    exact ⟨.inl rfl, (RevokedAccessTokens.insert_ok hinsert).1, (fun _ hnext => by cases hnext),
      fun _ => rfl⟩
  | rowRevoked =>
    exact ⟨.inr ⟨_, _, rfl⟩, fun _ hr => hr, (fun _ hnext => by cases hnext), fun _ => rfl⟩
  | @accessRefused use | @hashOther use | @scanOther use | @scanMissed use =>
    refine ⟨.inl rfl, fun _ hr => hr, fun _ _ => rfl, fun hnext => ?_⟩
    obtain ⟨rfl, -⟩ := nextKind_answers hnext
    cases use with
    | revoke => rfl
    | introspect => cases hnext
  | introspectDenied =>
    refine ⟨.inl rfl, fun _ hr => hr, fun _ _ => rfl, fun hnext => ?_⟩
    obtain ⟨rfl, -⟩ := nextKind_answers hnext
    cases hnext
  | _ => exact ⟨.inl rfl, fun _ hr => hr, fun _ _ => rfl, (fun hnext => by cases hnext)⟩

theorem next_world (hget : w.calls.get? id = some c) :
    (revocationStep T w (.next id draw)).1.world =
      { w.world with db := (T.advance w.tables draw c.request c.stage).1.db } := by
  simp only [revocationStep, RevocationWorld.perform, hget]
  cases (T.advance w.tables draw c.request c.stage).2 <;> rfl

theorem world_move (hadm : Admissible T w e) :
    WorldMove T w e (revocationStep T w e).1.world := by
  cases e with
  | endpoint e =>
    refine .moved e hadm.2.1 hadm.2.2 ?_ fun _ _ => rfl
    rintro call draw rfl
    exact hadm.1 draw.now rfl
  | purgeDenyList now => exact .same
  | begin id request now =>
    simp only [revocationStep, RevocationWorld.perform]
    split <;> exact .same
  | next id draw =>
    cases hget : w.calls.get? id with
    | none =>
      simp only [revocationStep, RevocationWorld.perform, hget]
      exact .same
    | some c =>
      rw [next_world hget]
      rcases (advance_step (T := T) w.tables draw c.request c.stage).writes.1 with hdb | ⟨i, t, hdb⟩
      · rw [hdb]
        exact .same
      · rw [hdb]
        exact .moved (.command (.revoke i t)) trivial rfl (fun _ _ he => by cases he)
          (fun _ hrot => by cases hrot)

/-- The deny-list grows, or is purged. -/
theorem denyList_step (e : RevocationEvent) :
    (∀ r ∈ w.denyList, r ∈ (revocationStep T w e).1.denyList) ∨ ∃ now, e = .purgeDenyList now ∧
      (revocationStep T w e).1.denyList = RevokedAccessTokens.purgeExpired w.denyList now := by
  cases e with
  | endpoint e => exact .inl fun _ hr => hr
  | purgeDenyList now => exact .inr ⟨now, rfl, rfl⟩
  | begin id request now =>
    simp only [revocationStep, RevocationWorld.perform]
    split <;> exact .inl fun _ hr => hr
  | next id draw =>
    refine .inl fun r hr => ?_
    cases hget : w.calls.get? id with
    | none =>
      simp only [revocationStep, RevocationWorld.perform, hget]
      exact hr
    | some c =>
      have htables : (revocationStep T w (.next id draw)).1.tables =
          (T.advance w.tables draw c.request c.stage).1 := next_tables hget
      rw [show (revocationStep T w (.next id draw)).1.denyList = _ from
        congrArg TokenTables.denyList htables]
      exact (advance_step w.tables draw c.request c.stage).writes.2.1 r hr

end Step

/-! ## Calls in flight -/

structure Sound (T : TokenServer) (w : RevocationWorld) : Prop where
  described : Described T.P w.world
  oneLive : OneLive w.world.db.refreshTokens
  begun : ∀ c ∈ w.calls, c.begunAt < w.events
  /-- A row that a call carries was found under the call's token. -/
  found : ∀ c ∈ w.calls, ∀ row, c.stage = .found row →
    ∃ i ∈ w.world.issued, i.binding = row.binding ∧
      i.hash = T.P.sha256 (utf8 c.request.token)
  access : ∀ c ∈ w.calls, c.request.isRevoke = true → ∀ claims ∈ c.access,
    RevokesAccess T w.world.db w.clock c.request c.stage claims
  refresh : ∀ c ∈ w.calls, c.request.isRevoke = true → ∀ b ∈ c.refresh,
    RevokesRefresh T w.world w.clock c.request c.stage b

section Kept

variable {w : RevocationWorld} {e : RevocationEvent} {world' : World} (hP : T.P.Lawful)
  (hd : Described T.P w.world) (h : WorldMove T w e world')

include h in
theorem WorldMove.signingKeys : world'.db.signingKeys = w.world.db.signingKeys := by
  cases h with
  | same => rfl
  | moved e' => exact worldStep_signingKeys w.world e'

include hP hd h

theorem WorldMove.described : Described T.P world' := by
  cases h with
  | same => exact hd
  | moved e' hfresh => exact described_step hP hd hfresh

theorem WorldMove.oneLive (hone : OneLive w.world.db.refreshTokens) :
    OneLive world'.db.refreshTokens := by
  cases h with
  | same => exact hone
  | moved e' hfresh => exact (worldStep_tokens hP hd hfresh).oneLive hd hone

theorem WorldMove.issued {i : Issued} (hi : i ∈ w.world.issued) : i ∈ world'.issued := by
  cases h with
  | same => exact hi
  | moved e' hfresh =>
    have hchange : TokenChange T.P w.world e' (worldStep T.P T.ctx w.world e').1.db.refreshTokens
        (worldStep T.P T.ctx w.world e').1.issued := worldStep_tokens hP hd hfresh
    exact hchange.mem_issued hi

omit hP in
/-- A family that is dead since some time stays dead. -/
theorem WorldMove.dead {f : FamilyId} {since : DateTime} (hknown : KnownFamily w.world f)
    (hle : since ≤ w.clock) (hdead : FamilyDead w.world.db f since) :
    FamilyDead world'.db f since := by
  cases h with
  | same => exact hdead
  | moved e' hfresh hplain htime =>
    exact dead_step hd hfresh hplain hknown hdead fun call draw he => hle.trans (htime call draw he)

theorem WorldMove.revokes (hunhindered : Unhindered T w e) {c : TokenCall} (hc : c ∈ w.calls)
    (hrevoke : c.request.isRevoke = true) {b : Binding} (hb : b ∈ c.refresh)
    (hrefresh : RevokesRefresh T w.world w.clock c.request c.stage b) :
    RevokesRefresh T world' w.clock c.request c.stage b := by
  cases h with
  | same => exact hrefresh
  | moved e' hfresh hplain htime hrotates =>
    refine hrefresh.worldStep hP hd hfresh hplain htime fun row hrow => ?_
    rw [hrotates row hrow] at hunhindered
    exact hunhindered row hrow c hc hrevoke b hb

end Kept

variable {now : DateTime} {request : TokenRequest}

/-- What a call that begins with an active access token of the client has before it. -/
theorem revokesAccess_start {tables : TokenTables} (hrevoke : request.isRevoke = true)
    {claims : AccessTokenClaims} (h : activeAccess T tables.db now request = some claims) :
    RevokesAccess T tables.db now request request.start claims := by
  unfold TokenRequest.isRevoke at hrevoke
  split at hrevoke
  · rename_i client token hint
    obtain ⟨hok, haudience⟩ := Option.filter_eq_some_iff.mp h
    have hverify : verifyAccessToken T.J tables.db now token = .ok claims := by
      cases hresult : verifyAccessToken T.J tables.db now token with
      | error e =>
        rw [hresult] at hok
        cases hok
      | ok claims' =>
        rw [hresult] at hok
        exact congrArg Except.ok (Option.some.inj hok)
    refine ⟨⟨client, token, hint, rfl, (verifyAccessToken_ok.mp hverify).1,
      by simpa using haudience⟩, ?_, ?_, .inl ?_⟩
    · intro claims' hc
      simp only [TokenRequest.start] at hc
      split at hc <;> cases hc
    · intro row hc
      simp only [TokenRequest.start] at hc
      split at hc <;> cases hc
    · simp only [TokenRequest.start]
      split <;> decide
  · cases hrevoke

theorem revokesRefresh_start {w : World} (hd : Described T.P w)
    (hone : OneLive w.db.refreshTokens) {denyList : DenyList} (hrevoke : request.isRevoke = true)
    (hapart : T.isBoth ⟨w.db, denyList⟩ request.token = false) {b : Binding}
    (h : activeRefresh T w.db now request = some b) :
    RevokesRefresh T w now request request.start b := by
  unfold TokenRequest.isRevoke at hrevoke
  split at hrevoke
  · rename_i client token hint
    simp only [activeRefresh] at h
    obtain ⟨row, hrow, rfl⟩ := Option.map_eq_some_iff.mp h
    obtain ⟨hfind, hclient⟩ := Option.filter_eq_some_iff.mp hrow
    obtain ⟨hmem, hisRow, hlive⟩ := RefreshTokens.active_of_findActive hfind
    have hfinds : Finds T w.db token now row := ⟨hmem, hisRow, hlive⟩
    obtain rfl : row.clientId = client := by simpa using hclient
    have hunsigned : T.signedClaims w.db token = none :=
      @not_signed_of_isRowOf T ⟨w.db, denyList⟩ token hapart row hmem hisRow
    refine ⟨⟨token, hint, rfl⟩, hunsigned, hfinds.issued hd, ?_, ?_, ?_, ?_, ?_, .inl ?_⟩
    · intro r hr hfamily hunrevoked
      rw [hone r hr row hmem hfamily hunrevoked (RefreshTokens.live_iff.mp hlive).1]
      rfl
    · intro r hr hid
      rw [Table.eq_of_key_eq hr hmem hid]
      exact hisRow
    · simp only [TokenRequest.start]
      split <;> rfl
    · intro row' hc
      simp only [TokenRequest.start] at hc
      split at hc <;> cases hc
    · intro now' rest hc
      simp only [TokenRequest.start] at hc
      split at hc <;> cases hc
    · simp only [TokenRequest.start]
      split <;> decide
  · cases hrevoke

section Run

variable {w : RevocationWorld} {e : RevocationEvent} (hP : T.P.Lawful)
variable {stage : TokenStage} {claims : AccessTokenClaims} {since : Nat} {token : String}

/-- A stepping call's next stage comes with the tables unchanged. -/
theorem stepped_world {id : CallId} {draw : StepDraw} {c : TokenCall}
    (hget : w.calls.get? id = some c)
    (hadvance : (T.advance w.tables draw c.request c.stage).2 = .goesOn stage) :
    (revocationStep T w (.next id draw)).1.world = w.world := by
  rw [next_world hget,
    (advance_step w.tables draw c.request c.stage).writes.2.2.1 stage hadvance]
  rfl

variable {tables tables' : TokenTables} {outcome : TokenOutcome} {revokedAt : DateTime}
  {b : Binding} {a : Answer}

theorem TokenStep.found {draw : StepDraw} {request : TokenRequest}
    (h : TokenStep T tables draw request stage tables' outcome) {row : RefreshTokenRow}
    (hnext : outcome = .goesOn (.found row)) :
    ∃ now, Finds T tables.db request.token now row := by
  cases h with
  | hashFound hfinds | scanFound hfinds =>
    cases hnext
    exact ⟨_, hfinds⟩
  | accessRefused | hashOther | scanOther | scanMissed | introspectDenied =>
    obtain ⟨kind, rest', -, hstage⟩ := nextKind_goesOn hnext
    cases hstage
  | _ => cases hnext

include hP in
theorem sound_step (hw : Sound T w) (hadm : Admissible T w e) (hunhindered : Unhindered T w e) :
    Sound T (revocationStep T w e).1 := by
  have hmove := world_move hadm
  have hclock := clock_le hadm
  have hkeys := hmove.signingKeys
  refine ⟨hmove.described hP hw.described, hmove.oneLive hP hw.described hw.oneLive, ?_, ?_, ?_, ?_⟩
  · intro c hc
    show c.begunAt < w.events + 1
    cases call_origin hc with
    | stayed hmem => exact Nat.lt_succ_of_lt (hw.begun c hmem)
    | began id request now he hc =>
      rw [hc]
      exact Nat.lt_succ_self _
    | stepped id draw c₀ stage he hget hadvance hc =>
      rw [hc]
      exact Nat.lt_succ_of_lt (hw.begun c₀ (Table.get?_eq_some.mp hget).1)
  · intro c hc row hstage
    cases call_origin hc with
    | stayed hmem =>
      obtain ⟨i, hi, hentry⟩ := hw.found c hmem row hstage
      exact ⟨i, hmove.issued hP hw.described hi, hentry⟩
    | began id request now he hc =>
      subst hc
      cases request <;> simp only [TokenRequest.start] at hstage
      · split at hstage <;> cases hstage
      · cases hstage
    | stepped id draw c₀ stage he hget hadvance hc =>
      subst hc he
      obtain rfl : stage = .found row := hstage
      obtain ⟨now, hfinds⟩ := (advance_step w.tables draw c₀.request c₀.stage).found hadvance
      rw [stepped_world hget hadvance]
      exact hfinds.issued hw.described
  · intro c hc hrevoke claims hclaims
    cases call_origin hc with
    | stayed hmem => exact (hw.access c hmem hrevoke claims hclaims).mono hkeys hclock
    | began id request now he hc =>
      subst hc he
      have hstart : RevokesAccess T w.tables.db now request request.start claims :=
        revokesAccess_start hrevoke hclaims
      exact hstart.mono hkeys le_rfl
    | stepped id draw c₀ stage he hget hadvance hc =>
      subst hc he
      have hrevokes := hw.access c₀ (Table.get?_eq_some.mp hget).1 hrevoke claims hclaims
      have hnext := (RevokesAccess.advance hrevokes (hadm.2 c₀ hget) (hadm.1 draw.now rfl)
        (hunhindered c₀ hget hrevoke) (advance_step w.tables draw c₀.request c₀.stage)).1
          stage hadvance
      exact hnext.mono hkeys le_rfl
  · intro c hc hrevoke b hb
    cases call_origin hc with
    | stayed hmem =>
      exact (hmove.revokes hP hw.described hunhindered hmem hrevoke hb
        (hw.refresh c hmem hrevoke b hb)).later hclock
    | began id request now he hc =>
      subst hc he
      have hworld : (revocationStep T w (.begin id request now)).1.world = w.world := by
        simp only [revocationStep, RevocationWorld.perform]
        split <;> rfl
      rw [hworld]
      exact revokesRefresh_start hw.described hw.oneLive hrevoke hadm.2 hb
    | stepped id draw c₀ stage he hget hadvance hc =>
      subst hc he
      rw [stepped_world hget hadvance]
      have hrevokes := hw.refresh c₀ (Table.get?_eq_some.mp hget).1 hrevoke b hb
      exact (hrevokes.advance hw.described (hadm.1 draw.now rfl)
        (advance_step w.tables draw c₀.request c₀.stage)).1 stage hadvance

/-! ## After a revocation -/

/-- The access token stays refused. -/
structure AccessGone (T : TokenServer) (since : Nat) (token : String) (claims : AccessTokenClaims)
    (w : RevocationWorld) : Prop where
  signed : T.signedClaims w.world.db token = some claims
  gone : DeniedOrExpired w.denyList claims w.clock
  calls : ∀ c ∈ w.calls, since < c.begunAt → c.request.token = token →
    LateAccess w.denyList claims c.stage

/-- The family stays refused. -/
structure FamilyGone (T : TokenServer) (since : Nat) (revokedAt : DateTime) (token : String)
    (b : Binding) (w : RevocationWorld) : Prop where
  unsigned : T.signedClaims w.world.db token = none
  entry : ∃ i ∈ w.world.issued, i.binding = b ∧ i.hash = T.P.sha256 (utf8 token)
  past : revokedAt ≤ w.clock
  dead : FamilyDead w.world.db b.familyId revokedAt
  calls : ∀ c ∈ w.calls, since < c.begunAt →
    LateFamily revokedAt token b.familyId c.request c.stage

/-- An event leaves the token denied, unless it has expired. -/
theorem DeniedOrExpired.step (hadm : Admissible T w e) (hunhindered : Unhindered T w e)
    (h : DeniedOrExpired w.denyList claims w.clock) :
    DeniedOrExpired (revocationStep T w e).1.denyList claims (revocationStep T w e).1.clock := by
  rcases h with ⟨r, hr, hjti, hexp⟩ | hexpired
  · rcases denyList_step (T := T) (w := w) e with hkept | ⟨now, rfl, hpurged⟩
    · exact .inl ⟨r, hkept r hr, hjti, hexp⟩
    · by_cases hold : r.exp < now
      · right
        show claims.exp < timestamp now
        have hlt : timestamp now * 1000000000 > r.exp := (hunhindered r hr hold).1
        have hexp' : claims.exp * 1000000000 ≤ r.exp := hexp
        omega
      · left
        rw [hpurged]
        exact ⟨r, RevokedAccessTokens.mem_purgeExpired.mpr ⟨hr, Int.not_lt.mp hold⟩, hjti, hexp⟩
  · exact .inr (lt_of_lt_of_le hexpired (timestamp_mono (clock_le hadm)))

/-- A call in flight keeps its place when another event happens. -/
theorem LateAccess.step (hunhindered : Unhindered T w e) {c : TokenCall} (hc : c ∈ w.calls)
    (h : LateAccess w.denyList claims c.stage) :
    LateAccess (revocationStep T w e).1.denyList claims c.stage := by
  refine ⟨h.notPermitted, h.notFound, fun claims' hclaims => ?_⟩
  obtain ⟨rfl, hrevoked⟩ := h.awaiting claims' hclaims
  refine ⟨rfl, ?_⟩
  rw [RevokedAccessTokens.isRevoked_iff] at hrevoked ⊢
  obtain ⟨r, hr, hjti⟩ := hrevoked
  rcases denyList_step (T := T) (w := w) e with hkept | ⟨now, rfl, hpurged⟩
  · exact ⟨r, hkept r hr, hjti⟩
  · have hnew : now ≤ r.exp := by
      by_contra hold
      exact (hunhindered r hr (Int.not_le.mp hold)).2 c hc claims' hclaims hjti.symm
    rw [hpurged]
    exact ⟨r, RevokedAccessTokens.mem_purgeExpired.mpr ⟨hr, hnew⟩, hjti⟩

theorem lateAccess_start (denyList : DenyList) (claims : AccessTokenClaims)
    (request : TokenRequest) : LateAccess denyList claims request.start := by
  cases request with
  | query use client token hint =>
    simp only [TokenRequest.start]
    split <;>
      exact ⟨(fun _ hc => by cases hc), (fun _ hc => by cases hc), (fun _ hc => by cases hc)⟩
  | userinfo token =>
    exact ⟨(fun _ hc => by cases hc), (fun _ hc => by cases hc), (fun _ hc => by cases hc)⟩

theorem lateFamily_start (since : DateTime) (token : String) (f : FamilyId)
    (request : TokenRequest) : LateFamily since token f request request.start := by
  cases request with
  | query use client token hint =>
    simp only [TokenRequest.start]
    split <;> exact ⟨(fun _ hc => by cases hc), (fun _ _ hc => by cases hc), fun _ _ => rfl⟩
  | userinfo token =>
    exact ⟨(fun _ hc => by cases hc), (fun _ _ hc => by cases hc), fun _ _ => rfl⟩

theorem accessGone_step (hadm : Admissible T w e) (hunhindered : Unhindered T w e)
    (h : AccessGone T since token claims w) :
    AccessGone T since token claims (revocationStep T w e).1 := by
  refine ⟨(signedClaims_congr (world_move hadm).signingKeys).trans h.signed,
    h.gone.step hadm hunhindered, fun c hc hlater htoken => ?_⟩
  cases call_origin hc with
  | stayed hmem => exact (h.calls c hmem hlater htoken).step hunhindered hmem
  | began id request now he hc =>
    rw [hc]
    exact lateAccess_start _ claims request
  | stepped id draw c₀ stage he hget hadvance hc =>
    subst hc he
    have hlate : LateAccess w.tables.denyList claims c₀.stage :=
      h.calls c₀ (Table.get?_eq_some.mp hget).1 hlater htoken
    have hsigned : T.signedClaims w.tables.db c₀.request.token = some claims := by
      rw [show c₀.request.token = token from htoken]
      exact h.signed
    have hstep := advance_step (T := T) w.tables draw c₀.request c₀.stage
    obtain ⟨hsame, hnext, -⟩ :=
      hlate.advance hsigned h.gone (hadm.2 c₀ hget) (hadm.1 draw.now rfl) hstep
    have htables : (revocationStep T w (.next id draw)).1.tables = w.tables :=
      (next_tables hget).trans hsame
    rw [show (revocationStep T w (.next id draw)).1.denyList = w.denyList from
      congrArg TokenTables.denyList htables]
    exact hnext stage hadvance

include hP in
theorem familyGone_step (hw : Sound T w) (hadm : Admissible T w e)
    (h : FamilyGone T since revokedAt token b w) :
    FamilyGone T since revokedAt token b (revocationStep T w e).1 := by
  have hmove := world_move hadm
  obtain ⟨i, hi, hbinding, hhash⟩ := h.entry
  refine ⟨(signedClaims_congr hmove.signingKeys).trans h.unsigned,
    ⟨i, hmove.issued hP hw.described hi, hbinding, hhash⟩, h.past.trans (clock_le hadm),
    hmove.dead hw.described ⟨i, hi, by rw [hbinding]⟩ h.past h.dead, fun c hc hlater => ?_⟩
  cases call_origin hc with
  | stayed hmem => exact h.calls c hmem hlater
  | began id request now he hc =>
    rw [hc]
    exact lateFamily_start revokedAt token b.familyId request
  | stepped id draw c₀ stage he hget hadvance hc =>
    subst hc he
    have hmem : c₀ ∈ w.calls := (Table.get?_eq_some.mp hget).1
    have hlate : LateFamily revokedAt token b.familyId c₀.request c₀.stage :=
      h.calls c₀ hmem hlater
    have hstep := advance_step (T := T) ⟨w.world.db, w.denyList⟩ draw c₀.request c₀.stage
    exact (hlate.advance hw.described h.entry h.unsigned h.dead (hw.found c₀ hmem)
      (h.past.trans (hadm.1 draw.now rfl)) hstep).1 stage hadvance

/-! ## What a revocation reaches -/

theorem eq_of_acting {x : Taken RevocationWorld RevocationEvent TokenAnswer} {c : TokenCall}
    (h : c ∈ acting x) :
    ∃ id draw, x.event = .next id draw ∧ x.pre.calls.get? id = some c := by
  unfold acting at h
  split at h
  · rename_i id draw hevent
    exact ⟨id, draw, hevent, h⟩
  · cases h

/-- A call that begins after the events so far is not in flight. -/
theorem Sound.not_later (hw : Sound T w) {c : TokenCall}
    (hc : c ∈ (revocationStep T w e).1.calls) (hnext : ∃ id draw, e = .next id draw) :
    ¬ w.events < c.begunAt := by
  obtain ⟨id, draw, rfl⟩ := hnext
  cases call_origin hc with
  | stayed hmem => exact Nat.lt_asymm (hw.begun c hmem)
  | began id request now he => cases he
  | stepped id' draw' c₀ stage he hget hadvance hc =>
    rw [hc]
    exact Nat.lt_asymm (hw.begun c₀ (Table.get?_eq_some.mp hget).1)

section Reached

variable {id : CallId} {draw : StepDraw} {c : TokenCall} (hw : Sound T w)
  (hadm : Admissible T w (.next id draw)) (hget : w.calls.get? id = some c)
  (hout : (revocationStep T w (.next id draw)).2 = .revoked (.ok ()))

include hw hadm hget hout

theorem accessGone_of_revoked (hunhindered : Unhindered T w (.next id draw))
    {claims : AccessTokenClaims} (hclaims : claims ∈ c.access) :
    AccessGone T w.events c.request.token claims (revocationStep T w (.next id draw)).1 := by
  have hstep := advance_step (T := T) w.tables draw c.request c.stage
  have houtcome := (next_answers hget hout).resolve_left (fun h => by cases h)
  have hrevoke := hstep.writes.2.2.2 houtcome
  have hrevokes : RevokesAccess T w.tables.db w.clock c.request c.stage claims :=
    hw.access c (Table.get?_eq_some.mp hget).1 hrevoke claims hclaims
  have hgone := (hrevokes.advance (hadm.2 c hget) (hadm.1 draw.now rfl)
    (hunhindered c hget hrevoke) hstep).2 houtcome
  have htables : (revocationStep T w (.next id draw)).1.tables =
      (T.advance w.tables draw c.request c.stage).1 := next_tables hget
  obtain ⟨client, token, hint, hrequest, hsigned, -⟩ := hrevokes.isQuery
  refine ⟨?_, ?_, fun c' hc' hlater => absurd hlater (hw.not_later hc' ⟨id, draw, rfl⟩)⟩
  · rw [signedClaims_congr (world_move hadm).signingKeys, hrequest]
    exact hsigned
  · rw [← htables] at hgone
    exact hgone

include hP in
theorem familyGone_of_revoked {b : Binding} (hb : b ∈ c.refresh) :
    FamilyGone T w.events draw.now c.request.token b
      (revocationStep T w (.next id draw)).1 := by
  have hmove := world_move hadm
  have hstep := advance_step (T := T) ⟨w.world.db, w.denyList⟩ draw c.request c.stage
  have houtcome := (next_answers hget hout).resolve_left (fun h => by cases h)
  have hrevokes := hw.refresh c (Table.get?_eq_some.mp hget).1 (hstep.writes.2.2.2 houtcome) b hb
  have hdead := (hrevokes.advance hw.described (hadm.1 draw.now rfl) hstep).2 houtcome
  obtain ⟨i, hi, hbinding, hhash⟩ := hrevokes.entry
  refine ⟨(signedClaims_congr hmove.signingKeys).trans hrevokes.unsigned,
    ⟨i, hmove.issued hP hw.described hi, hbinding, hhash⟩, le_rfl, ?_,
    fun c' hc' hlater => absurd hlater (hw.not_later hc' ⟨id, draw, rfl⟩)⟩
  rw [next_world hget]
  exact hdead

end Reached

theorem accessRefused_of_gone (hadm : Admissible T w e) (h : AccessGone T since token claims w) :
    AccessRefused T since token ⟨w, e, (revocationStep T w e).2⟩ := by
  intro c hc hlater htoken
  obtain ⟨id, draw, rfl, hget⟩ := eq_of_acting hc
  have hget' : w.calls.get? id = some c := hget
  have hlate : LateAccess w.tables.denyList claims c.stage :=
    h.calls c (Table.get?_eq_some.mp hget').1 hlater htoken
  have hsigned : T.signedClaims w.tables.db c.request.token = some claims := by
    rw [htoken]
    exact h.signed
  have hstep := advance_step (T := T) w.tables draw c.request c.stage
  obtain ⟨hsame, -, hanswer⟩ :=
    hlate.advance hsigned h.gone (hadm.2 c hget') (hadm.1 draw.now rfl) hstep
  refine ⟨?_, fun _ => (next_tables hget').trans hsame⟩
  rcases next_answers (T := T) hget' rfl with hrunning | hanswers
  · show (revocationStep T w (.next id draw)).2.accepts = false
    rw [hrunning]
    rfl
  · exact hanswer _ hanswers

theorem TokenStep.not_endpoint {draw : StepDraw} {request : TokenRequest}
    (h : TokenStep T tables draw request stage tables' outcome) :
    outcome ≠ .answers (.endpoint a) := by
  intro hanswer
  cases h with
  | @accessRefused use | @hashOther use | @scanOther use | @scanMissed use =>
    obtain ⟨rfl, -⟩ := nextKind_answers hanswer
    cases use <;> cases hanswer
  | introspectDenied =>
    obtain ⟨rfl, -⟩ := nextKind_answers hanswer
    cases hanswer
  | _ => cases hanswer

/-- Only an event of the token endpoint is answered by it. -/
theorem endpoint_of_answer (h : (revocationStep T w e).2 = .endpoint a) :
    ∃ e', e = .endpoint e' ∧ (worldStep T.P T.ctx w.world e').2 = a := by
  cases e with
  | endpoint e' => exact ⟨e', rfl, TokenAnswer.endpoint.inj h⟩
  | purgeDenyList now => cases h
  | begin id request now =>
    simp only [revocationStep, RevocationWorld.perform] at h
    split at h <;> cases h
  | next id draw =>
    cases hget : w.calls.get? id with
    | none =>
      simp only [revocationStep, RevocationWorld.perform, hget] at h
      cases h
    | some c =>
      have hnext := (next_answers hget h).resolve_left (fun h => by cases h)
      exact absurd hnext (advance_step w.tables draw c.request c.stage).not_endpoint

theorem familyRefused_of_gone (hw : Sound T w) (hadm : Admissible T w e)
    (h : FamilyGone T since revokedAt token b w) :
    FamilyRefused T since token b.familyId ⟨w, e, (revocationStep T w e).2⟩ := by
  constructor
  · intro successor rawToken result hout hfamily
    obtain ⟨e', rfl, hanswer⟩ := endpoint_of_answer hout
    obtain ⟨call, draw, req, row, jwt, rfl, hcall, hstep⟩ := worldStep_rotation hanswer
    rw [hstep] at hanswer
    unfold rotateStep at hanswer
    split at hanswer
    · rename_i successor' rawToken' db' hrotate
      cases hanswer
      obtain ⟨old, hold, hsame, -⟩ := rotatable_of_rotated hw.described hcall hrotate
      obtain ⟨hmem, call', draw', he, hlive⟩ := rotatable_live hold
      cases he
      have hdead := h.dead old hmem (hsame.symm.trans hfamily)
      rw [live_earlier (h.past.trans (hadm.1 draw.now rfl)) hlive] at hdead
      cases hdead
    · cases hanswer
    · cases hanswer
  · intro c hc hlater
    obtain ⟨id, draw, rfl, hget⟩ := eq_of_acting hc
    have hget' : w.calls.get? id = some c := hget
    have hmem : c ∈ w.calls := (Table.get?_eq_some.mp hget').1
    have hlate : LateFamily revokedAt token b.familyId c.request c.stage := h.calls c hmem hlater
    have hstep := advance_step (T := T) ⟨w.world.db, w.denyList⟩ draw c.request c.stage
    obtain ⟨-, hsame, hanswer⟩ := hlate.advance hw.described h.entry h.unsigned h.dead
      (hw.found c hmem) (h.past.trans (hadm.1 draw.now rfl)) hstep
    refine ⟨fun haccepts i hi hhash hfamily => ?_,
      fun hrevoke htoken => (next_tables hget').trans (hsame hrevoke htoken)⟩
    have haccepts' : (revocationStep T w (.next id draw)).2.acceptsRefresh = true := haccepts
    rcases next_answers (T := T) hget' rfl with hrunning | hanswers
    · rw [hrunning] at haccepts'
      cases haccepts'
    · obtain ⟨row, hstage⟩ := hanswer _ hanswers haccepts'
      have hbinding :=
        binding_of_issued hw.described ⟨i, hi, rfl, hhash⟩ (hw.found c hmem row hstage)
      exact hlate.found row hstage ((congrArg Binding.familyId hbinding).symm.trans hfamily)

include hP in
/-- In a run whose steps meet the condition, revocation is final; and what an uninterrupted call
leaves and answers does not depend on its hint. -/
theorem revocation_final (hd : Described T.P w.world) (hone : ∀ f, liveCount w.world.db f ≤ 1)
    (hidle : ∀ c, c ∉ w.calls) {es : List RevocationEvent}
    (hg : Guarded (revocationStep T) (fun w e => Admissible T w e ∧ Unhindered T w e) w es) :
    RevocationFinal T w es ∧
      ∀ (tables : TokenTables) (times : TokenTimes) (keys : List CachedSigningKey) (use : TokenUse)
        (client : ClientId) (token : String) (hint hint' : Option String),
        T.isBoth tables token = false →
          callAlone T times keys tables (.query use client token hint) =
            callAlone T times keys tables (.query use client token hint') := by
  refine ⟨?_, fun tables times keys use client token hint hint' hapart =>
    callAlone_hint hapart times keys use client hint hint'⟩
  have hstart : Sound T w := ⟨hd, liveCount_le_one_iff.mp hone, fun c hc => absurd hc (hidle c),
    fun c hc => absurd hc (hidle c), fun c hc => absurd hc (hidle c),
    fun c hc => absurd hc (hidle c)⟩
  have hsound : ∀ w e, Sound T w → (Admissible T w e ∧ Unhindered T w e) →
      Sound T (revocationStep T w e).1 := fun w e hw h => sound_step hP hw h.1 h.2
  intro past x rest htrace c hc hout
  have hmem : x ∈ trace (revocationStep T) w es := by
    rw [htrace]
    exact List.mem_append_right _ List.mem_cons_self
  obtain ⟨hw, ⟨hadm, hunhindered⟩, hxout⟩ := trace_invariant hsound hg hstart hmem
  obtain ⟨id, draw, hevent, hget⟩ := eq_of_acting hc
  rw [hevent] at hadm hunhindered hxout
  have hrevoked : (revocationStep T x.pre (.next id draw)).2 = .revoked (.ok ()) :=
    hxout.symm.trans hout
  constructor
  · intro claims hclaims y hy
    have hgone : AccessGone T x.pre.events c.request.token claims
        (revocationStep T x.pre x.event).1 := by
      rw [hevent]
      exact accessGone_of_revoked hw hadm hget hrevoked hunhindered hclaims
    obtain ⟨⟨-, hy'⟩, ⟨hyadm, -⟩, hyout⟩ := trace_after hsound
      (fun w e _ h hd => accessGone_step h.1 h.2 hd) hg hstart htrace hgone hy
    have hrefused := accessRefused_of_gone hyadm hy'
    rw [← hyout] at hrefused
    exact hrefused
  · intro b hb y hy
    have hgone : FamilyGone T x.pre.events draw.now c.request.token b
        (revocationStep T x.pre x.event).1 := by
      rw [hevent]
      exact familyGone_of_revoked hP hw hadm hget hrevoked hb
    obtain ⟨⟨hyw, hy'⟩, ⟨hyadm, -⟩, hyout⟩ := trace_after hsound
      (fun w e hw h hd => familyGone_step hP hw h.1 hd) hg hstart htrace hgone hy
    have hrefused := familyRefused_of_gone hyw hyadm hy'
    rw [← hyout] at hrefused
    exact hrefused

end Run

/-! ## Runs on a sample -/

instance decidableAdmissible (T : TokenServer) (w : RevocationWorld) :
    (e : RevocationEvent) → Decidable (Admissible T w e)
  | .endpoint _ => inferInstanceAs (Decidable (_ ∧ _ ∧ _))
  | .begin .. => inferInstanceAs (Decidable (_ ∧ _))
  | .next .. => inferInstanceAs (Decidable (_ ∧ ∀ c ∈ _, _))
  | .purgeDenyList _ => inferInstanceAs (Decidable (_ ∧ True))

instance decidableUndisturbed (T : TokenServer) (w : RevocationWorld) :
    (e : RevocationEvent) → Decidable (Unhindered T w e)
  | .endpoint _ => inferInstanceAs (Decidable (∀ row ∈ _, ∀ c ∈ _, _ → ∀ b ∈ _, _))
  | .begin .. => inferInstanceAs (Decidable True)
  | .next .. => inferInstanceAs (Decidable (∀ c ∈ _, _ → ∀ claims ∈ _, ∀ r ∈ _, _))
  | .purgeDenyList _ => inferInstanceAs (Decidable (∀ r ∈ _, _ → _ ∧ ∀ c ∈ _, ∀ claims ∈ _, _))

/-- The parts of a token are one byte each, except for its signature. -/
private def textJwt : JwtPackages where
  decodeBase64Url text :=
    some (if text == "h" then [1] else if text == "c" then [2] else List.replicate 64 0)
  parseHeader bytes := if bytes == [1] then some ⟨"EdDSA", "3"⟩ else none
  isVerifyingKey _ := true
  verifySignature _ _ _ := true
  parseAccessTokenClaims bytes :=
    if bytes == [2] then some ⟨"", "1", "5", 0, 900, "openid", "j"⟩ else none
  parseIdTokenClaims _ := none

private def textServer : TokenServer where
  P := .transparent
  ctx := sampleContext
  J := textJwt
  key := sampleKey
  parseId text := if text == "1" then some 1 else if text == "5" then some 5 else none

/-- It expires at second 900. -/
private def accessText : String := "h.c.s"

private def hashedToken : RefreshTokenRow :=
  { legacyToken with tokenHash := some (utf8 "r") }

private def revocationStart : RevocationWorld where
  world :=
    { db :=
        { sampleDb with
          refreshTokens := ⟨[hashedToken], by decide⟩
          signingKeys :=
            ⟨[{ sampleSigningKey with publicKey := List.replicate 32 0 }], by decide⟩ }
      calls := fun _ => none
      backfill := []
      issued := [⟨hashedToken.binding, utf8 "r"⟩]
      presented := []
      codes := [] }
  denyList := ∅
  calls := ∅
  clock := 0
  events := 0

private theorem revocationStart_described : Described textServer.P revocationStart.world where
  row r hr := by
    obtain rfl : r = hashedToken := List.mem_singleton.mp hr
    refine ⟨⟨hashedToken.binding, utf8 "r"⟩, List.mem_singleton.mpr rfl, rfl, fun h hh => ?_⟩
    rcases hh with hh | ⟨hnone, -⟩
    · exact Option.some.inj hh
    · cases hnone
  call c x req r hcall _ := by cases hcall
  backfill entry hentry := by cases hentry
  id_inj e he e' he' _ := by rw [List.mem_singleton.mp he, List.mem_singleton.mp he']
  hash_inj e he e' he' _ := by rw [List.mem_singleton.mp he, List.mem_singleton.mp he']
  family e he e' he' _ := by
    rw [List.mem_singleton.mp he, List.mem_singleton.mp he']
    exact ⟨rfl, rfl, rfl, rfl⟩

private def TokenAnswer.revokes : TokenAnswer → Bool
  | .revoked (.ok _) => true
  | _ => false

private theorem eq_of_revokes {answer : TokenAnswer} (h : answer.revokes = true) :
    answer = .revoked (.ok ()) := by
  unfold TokenAnswer.revokes at h
  split at h
  · rfl
  · cases h

/-- So many steps of a call, at one time. -/
private def steps (id : CallId) (n : Nat) (now : DateTime) : List RevocationEvent :=
  List.replicate n (.next id ⟨now, publishedKeys revocationStart.world.db⟩)

/-- Both tokens are revoked; then the access token is introspected. -/
private def revocationRun : List RevocationEvent :=
  ([.begin 0 (.query .revoke 5 accessText none) (seconds 10)] : List RevocationEvent) ++
    steps 0 2 (seconds 10) ++
    ([.begin 1 (.query .revoke 5 "r" (some "refresh_token")) (seconds 20)] :
      List RevocationEvent) ++
    steps 1 2 (seconds 20) ++ ([.purgeDenyList (seconds 30)] : List RevocationEvent) ++
    ([.begin 2 (.query .introspect 5 accessText none) (seconds 40)] : List RevocationEvent) ++
    steps 2 4 (seconds 40)

theorem revocation_final_orderly :
    (trace (revocationStep textServer) revocationStart revocationRun).countP (·.out.revokes) = 2 ∧
      RevocationFinal textServer revocationStart revocationRun := by
  have hone : ∀ f, liveCount revocationStart.world.db f ≤ 1 := by
    rw [liveCount_le_one_iff]
    intro r hr r' hr' _ _ _
    rw [List.mem_singleton.mp hr, List.mem_singleton.mp hr']
  have hg : Guarded (revocationStep textServer)
      (fun w e => Admissible textServer w e ∧ Unhindered textServer w e) revocationStart
        revocationRun := by decide +kernel
  exact ⟨by decide +kernel, (revocation_final Primitives.transparent_lawful
    revocationStart_described hone (fun _ => List.not_mem_nil) hg).1⟩

private def revocationPrelude : List RevocationEvent :=
  .begin 0 (.query .revoke 5 accessText none) (seconds 10) :: steps 0 1 (seconds 10)

/-- The purge runs in the last second of the revoked token, which still verifies. -/
private def lastSecond : List RevocationEvent :=
  [.purgeDenyList (seconds 900 + 500000000),
    .begin 1 (.query .introspect 5 accessText none) (seconds 900 + 600000000)] ++
    steps 1 2 (seconds 900 + 600000000)

/-- T04 rotates the token while it is being revoked. -/
private def rotatedPrelude : List RevocationEvent :=
  .begin 0 (.query .revoke 5 "r" (some "refresh_token")) (seconds 10) ::
    (refreshPrelude 0 (utf8 "r") ++
      [Event.refreshRotate 0 ⟨seconds 11, sampleKey, 101, utf8 "s", Nonce.constant 2⟩]).map
      .endpoint ++ steps 0 2 (seconds 12)

private def successorIntrospected : List RevocationEvent :=
  .begin 1 (.query .introspect 5 "s" (some "refresh_token")) (seconds 20) ::
    steps 1 1 (seconds 20)

private def lastStep (id : CallId) (now : DateTime) : RevocationEvent :=
  .next id ⟨now, publishedKeys revocationStart.world.db⟩

private def accessRun : List RevocationEvent :=
  revocationPrelude ++ lastStep 0 (seconds 10) :: (lastSecond ++
    [lastStep 1 (seconds 900 + 600000000)])

private def refreshRun : List RevocationEvent :=
  rotatedPrelude ++ lastStep 0 (seconds 12) :: (successorIntrospected ++
    [lastStep 1 (seconds 20)])

/-- A step of a run of the sample. -/
private def sampleTaken (before : List RevocationEvent) (e : RevocationEvent) :
    Taken RevocationWorld RevocationEvent TokenAnswer :=
  ⟨run (revocationStep textServer) revocationStart before, e,
    (revocationStep textServer (run (revocationStep textServer) revocationStart before) e).2⟩

private theorem sample_trace (before : List RevocationEvent) (e : RevocationEvent)
    (after : List RevocationEvent) (e' : RevocationEvent) :
    ∃ past rest, trace (revocationStep textServer) revocationStart
        (before ++ e :: (after ++ [e'])) = past ++ sampleTaken before e :: rest ∧
      sampleTaken (before ++ e :: after) e' ∈ rest := by
  refine ⟨_, _, trace_append _ before _, ?_⟩
  unfold sampleTaken
  rw [run_append, run_cons]
  exact mem_trace_last _ after e'

private theorem acting_of {x : Taken RevocationWorld RevocationEvent TokenAnswer}
    {p : TokenCall → Bool} (h : (acting x).any p = true) : ∃ c, acting x = some c ∧ p c = true := by
  cases hacting : acting x with
  | none =>
    rw [hacting] at h
    cases h
  | some c =>
    rw [hacting] at h
    exact ⟨c, rfl, h⟩

/-- In its last second a revoked access token is accepted again; and a refresh token that has been
rotated while it was being revoked leaves a successor that is accepted. -/
theorem revocation_not_final :
    (Guarded (revocationStep textServer) (Admissible textServer) revocationStart accessRun ∧
      ¬ RevocationFinal textServer revocationStart accessRun) ∧
    Guarded (revocationStep textServer) (Admissible textServer) revocationStart refreshRun ∧
      ¬ RevocationFinal textServer revocationStart refreshRun := by
  refine ⟨⟨by decide +kernel, fun h => ?_⟩, by decide +kernel, fun h => ?_⟩
  · obtain ⟨past, rest, htrace, hy⟩ := sample_trace revocationPrelude (lastStep 0 (seconds 10))
      lastSecond (lastStep 1 (seconds 900 + 600000000))
    obtain ⟨c, hc, hpc⟩ : ∃ c, acting (sampleTaken revocationPrelude (lastStep 0 (seconds 10))) =
        some c ∧ (c.access.isSome && c.request.token == accessText) = true :=
      acting_of (by decide +kernel)
    obtain ⟨c', hc', hpc'⟩ : ∃ c, acting (sampleTaken (revocationPrelude ++
        lastStep 0 (seconds 10) :: lastSecond) (lastStep 1 (seconds 900 + 600000000))) = some c ∧
        (decide ((sampleTaken revocationPrelude
          (lastStep 0 (seconds 10))).pre.events < c.begunAt) &&
          c.request.token == accessText) = true :=
      acting_of (by decide +kernel)
    simp only [Bool.and_eq_true, beq_iff_eq, decide_eq_true_eq] at hpc hpc'
    obtain ⟨claims, hclaims⟩ := Option.isSome_iff_exists.mp hpc.1
    have hrevoked := h past _ rest htrace c hc (eq_of_revokes (by decide +kernel))
    have hrefused := hrevoked.1 claims hclaims _ hy c' hc' hpc'.1 (hpc'.2.trans hpc.2.symm)
    exact absurd hrefused.1 (by decide +kernel)
  · obtain ⟨past, rest, htrace, hy⟩ := sample_trace rotatedPrelude (lastStep 0 (seconds 12))
      successorIntrospected (lastStep 1 (seconds 20))
    obtain ⟨c, hc, hpc⟩ : ∃ c, acting (sampleTaken rotatedPrelude (lastStep 0 (seconds 12))) =
        some c ∧ decide (c.refresh = some hashedToken.binding) = true :=
      acting_of (by decide +kernel)
    obtain ⟨c', hc', hpc'⟩ : ∃ c, acting (sampleTaken (rotatedPrelude ++
        lastStep 0 (seconds 12) :: successorIntrospected) (lastStep 1 (seconds 20))) = some c ∧
        (decide ((sampleTaken rotatedPrelude (lastStep 0 (seconds 12))).pre.events < c.begunAt) &&
          c.request.token == "s") = true :=
      acting_of (by decide +kernel)
    simp only [Bool.and_eq_true, beq_iff_eq, decide_eq_true_eq] at hpc hpc'
    have hrevoked := h past _ rest htrace c hc (eq_of_revokes (by decide +kernel))
    have hrefused := (hrevoked.2 _ hpc _ hy).2 c' hc' hpc'.1
    have hissued : ∃ i ∈ (sampleTaken (rotatedPrelude ++
        lastStep 0 (seconds 12) :: successorIntrospected)
          (lastStep 1 (seconds 20))).pre.world.issued,
        i.hash = utf8 "s" ∧ i.binding.familyId = 100 := by decide +kernel
    obtain ⟨i, hi, hhash, hfamily⟩ := hissued
    refine hrefused.1 (by decide +kernel) i hi ?_ hfamily
    rw [hpc'.2]
    exact hhash

end SuiId
