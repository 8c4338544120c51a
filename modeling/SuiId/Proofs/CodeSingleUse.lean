import SuiId.Proofs.Delegation
import SuiId.Proofs.DisabledUsers

/-!
# An authorization code is used once

The guarded update of `consume` is the only place where a code is spent; the checks of the
binding, PKCE and the user come after it and outside of its transaction.  So once a call holds
the code, its row is consumed (`CodeState.spent`) and no other call can come to hold it
(`CodeState.one`); what the call holds has passed the checks (`CodeState.bound`).
-/

namespace SuiId

open Lib Lib.Result Lib.Machine

variable {P : Primitives} {ctx : IssuanceContext}

/-! ## Calls and rows -/

variable {w : World} {c : CallId} {db : Database} {req : CodeExchangeRequest} {now : DateTime}
  {e : CodeEvent} {hash : Bytes} {code : AuthorizationCodeRow}

/-- An event leaves the calls of others alone. -/
theorem worldStep_other {e : Event} (h : e.call ≠ some c) :
    (worldStep P ctx w e).1.calls c = w.calls c := by
  have hgoOn : ∀ (w : World) (call : CallId) (next : Call), call ≠ c →
      (w.goOn call next).calls c = w.calls c := by
    intro w call next hne
    exact Function.update_of_ne hne.symm _ _
  have hendCall : ∀ (w : World) (call : CallId), call ≠ c →
      (w.endCall call).calls c = w.calls c := by
    intro w call hne
    exact Function.update_of_ne hne.symm _ _
  have hgoOnWith : ∀ {α : Type} (w : World) (call : CallId) (result : CoreResult α)
      (next : α → Call), call ≠ c → (w.goOnWith call result next).1.calls c = w.calls c := by
    intro α w call result next hne
    cases result with
    | ok a => exact hgoOn w call (next a) hne
    | error err => exact hendCall w call hne
  cases e with
  | insertInitial draw user client scope authMethods =>
    simp only [worldStep, insertInitialStep]
    split
    · rfl
    · rfl
  | _ =>
    simp only [Event.call, ne_eq, Option.some.injEq] at h
    simp only [worldStep, issueStep, rotateStep, finishStep]
    repeat' split
    all_goals first
      | rfl
      | exact hgoOnWith _ _ _ _ h
      | exact hgoOn _ _ _ h
      | exact hendCall _ _ h

/-- What the row of the code asks of the request. -/
structure Bound (P : Primitives) (row : AuthorizationCodeRow) (req : CodeExchangeRequest) :
    Prop where
  client : req.clientId = row.clientId
  redirectUri : req.redirectUri = row.redirectUri
  method : row.codeChallengeMethod = "S256"
  verifier : P.base64Url (P.sha256 (utf8 req.codeVerifier)) = row.codeChallenge

variable {row r : AuthorizationCodeRow} {past : List (Taken World CodeEvent Answer)}

/-- A call goes on with the code when the row was live and its checks pass. -/
theorem consumeCode_bound (h : (consumeCode P db req now).1 = .ok row) :
    ∃ old ∈ db.authCodes, old.codeHash = codeHashOf P req.code ∧ AuthCodes.live old now = true ∧
      row = { old with consumed := true } ∧ Bound P old req := by
  unfold consumeCode at h
  split at h
  · cases h
  · cases h
  · rename_i taken db' hconsume
    simp only [AuthCodes.consume, bind_eq_ok, require_eq_ok, Option.filter_eq_some_iff, pure_eq_ok,
      Prod.mk.injEq] at hconsume
    obtain ⟨old, ⟨hget, hlive⟩, rfl, -⟩ := hconsume
    obtain ⟨hold, hhash⟩ := Table.get?_eq_some.mp hget
    simp only [bindCode, bind_eq_ok, ensure_eq_ok, pure_eq_ok, beq_iff_eq] at h
    obtain ⟨_, ⟨_, hclient, hredirect⟩, _, hpkce, rfl⟩ := h
    unfold verifyPkce at hpkce
    split at hpkce
    · rename_i hmethod
      rw [ensure_eq_ok, beq_iff_eq] at hpkce
      exact ⟨old, hold, hhash, hlive, rfl, hclient.symm, hredirect.symm, by simpa using hmethod,
        hpkce⟩
    · cases hpkce

/-- A live row of the code is marked, whatever the checks say. -/
theorem consumeCode_live (hr : r ∈ db.authCodes) (hhash : r.codeHash = codeHashOf P req.code)
    (hlive : AuthCodes.live r now = true) :
    (consumeCode P db req now).2 =
      { db with
        authCodes := db.authCodes.update
          (fun r => r.codeHash == codeHashOf P req.code && AuthCodes.live r now)
          fun r => { r with consumed := true } } := by
  have hget : db.authCodes.get? (codeHashOf P req.code) = some r := by
    rw [← hhash]
    exact Table.get?_key hr
  have hconsume : AuthCodes.consume db (codeHashOf P req.code) now =
      .ok ({ r with consumed := true }, { db with
        authCodes := db.authCodes.update
          (fun r => r.codeHash == codeHashOf P req.code && AuthCodes.live r now)
          fun r => { r with consumed := true } }) := by
    simp only [AuthCodes.consume, hget, Option.filter, hlive, if_true, require, bind, Except.bind,
      pure, Except.pure]
  simp only [consumeCode, hconsume]

/-- The step of a call that consumes leaves no live row of its code. -/
theorem consumeCode_spends (hr : r ∈ (consumeCode P db req now).2.authCodes)
    (hhash : r.codeHash = codeHashOf P req.code) :
    AuthCodes.live r now = false := by
  by_cases hlive : ∃ old ∈ db.authCodes, old.codeHash = codeHashOf P req.code ∧
      AuthCodes.live old now = true
  · obtain ⟨old, hold, hsame, holdlive⟩ := hlive
    rw [consumeCode_live hold hsame holdlive] at hr
    rw [Table.mem_update] at hr
    obtain ⟨r', -, rfl⟩ := hr
    split
    · simp [AuthCodes.live]
    · rename_i hnot
      rw [if_neg hnot] at hhash
      simpa [hhash] using hnot
  · obtain ⟨authCodes, hmarked, heq⟩ := consumeCode_eq P db req now
    rw [heq] at hr
    obtain ⟨r', hr', rfl | rfl⟩ := hmarked r hr
    · by_contra hnot
      exact hlive ⟨r, hr', hhash, by simpa using hnot⟩
    · simp [AuthCodes.live]

/-! ## The code in a run -/

/-- The call has consumed the code, for this request. -/
def HoldsCode (P : Primitives) (hash : Bytes) (w : World) (c : CallId)
    (req : CodeExchangeRequest) : Prop :=
  codeHashOf P req.code = hash ∧ ∃ x row, w.calls c = some x ∧ x.held = some (req, row)

/-- The rows of the code are those columns, consumed or not. -/
def RowsOf (code : AuthorizationCodeRow) (db : Database) : Prop :=
  ∀ r ∈ db.authCodes, r.codeHash = code.codeHash → r = code ∨ r = { code with consumed := true }

/-- The rows of the code in the table are consumed. -/
def CodeSpent (hash : Bytes) (db : Database) : Prop :=
  ∀ r ∈ db.authCodes, r.codeHash = hash → r.consumed = true

/-- The call consumed the code in a step of the run, before the code expired. -/
def ConsumedInTime (code : AuthorizationCodeRow) (past : List (Taken World CodeEvent Answer))
    (c : CallId) (req : CodeExchangeRequest) : Prop :=
  ∃ y ∈ past, ∃ now, y.event = .endpoint (.codeConsume c now) ∧
    y.pre.calls c = some (.codeChecked req) ∧ now < code.expiresAt

/-- The row keeps the columns of the code, one call at most holds it, and the row is then
consumed and the request bound to it. -/
structure CodeState (P : Primitives) (code : AuthorizationCodeRow)
    (past : List (Taken World CodeEvent Answer)) (w : World) : Prop where
  row : RowsOf code w.db
  one : ∀ c c' req req', HoldsCode P code.codeHash w c req →
    HoldsCode P code.codeHash w c' req' → c = c'
  spent : ∀ c req, HoldsCode P code.codeHash w c req → CodeSpent code.codeHash w.db
  bound : ∀ c req, HoldsCode P code.codeHash w c req →
    Bound P code req ∧ ConsumedInTime code past c req

/-- The code that the event issues. -/
def CodeEvent.issues : CodeEvent → Option Bytes
  | .endpoint (.completeAuthorization row) => some row.codeHash
  | _ => none

/-- Rows of the code are as before, or marked. -/
theorem codeStep_rows (hnew : e.issues ≠ some hash) {r' : AuthorizationCodeRow}
    (hr' : r' ∈ (codeStep P ctx w e).1.db.authCodes) (hhash : r'.codeHash = hash) :
    ∃ r ∈ w.db.authCodes, r.codeHash = hash ∧ (r' = r ∨ r' = { r with consumed := true }) := by
  have hmarked : ∃ r ∈ w.db.authCodes, r' = r ∨ r' = { r with consumed := true } := by
    cases e with
    | endpoint e =>
      rcases worldStep_authCodes hr' with hold | rfl
      · exact hold
      · rw [← hhash] at hnew
        exact absurd rfl hnew
    | invalidateAllForUser user => exact AuthCodes.marked_update w.db.authCodes _ r' hr'
  obtain ⟨r, hr, rfl | rfl⟩ := hmarked
  · exact ⟨r', hr, hhash, .inl rfl⟩
  · exact ⟨r, hr, hhash, .inr rfl⟩

/-- A spent code stays spent. -/
theorem codeStep_spent (hnew : e.issues ≠ some hash) (h : CodeSpent hash w.db) :
    CodeSpent hash (codeStep P ctx w e).1.db := by
  intro r' hr' hhash
  obtain ⟨r, hr, hsame, rfl | rfl⟩ := codeStep_rows hnew hr' hhash
  · exact h r' hr hsame
  · rfl

/-- A call comes to hold a code in its own `codeConsume` only. -/
theorem holdsCode_step (h : HoldsCode P hash (codeStep P ctx w e).1 c req) :
    HoldsCode P hash w c req ∨ ∃ now row, e = .endpoint (.codeConsume c now) ∧
      w.calls c = some (.codeChecked req) ∧ (consumeCode P w.db req now).1 = .ok row := by
  obtain ⟨hhash, x, row, hnext, hx⟩ := h
  cases e with
  | invalidateAllForUser user => exact .inl ⟨hhash, x, row, hnext, hx⟩
  | endpoint e =>
    by_cases hcall : e.call = some c
    · rcases worldStep_calls hnext with hsame | hprogress
      · exact .inl ⟨hhash, x, row, hsame, hx⟩
      · cases hprogress with
        | codeVerified hchecked hconsume =>
          cases hx
          cases hcall
          exact .inr ⟨_, row, rfl, hchecked, hconsume⟩
        | codeIssuable hverified hresolve =>
          cases hx
          cases hcall
          exact .inl ⟨hhash, _, _, hverified, rfl⟩
        | codeSigned hissuable =>
          cases hx
          cases hcall
          exact .inl ⟨hhash, _, _, hissuable, rfl⟩
        | _ => cases hx
    · exact .inl ⟨hhash, x, row, (worldStep_other hcall).symm.trans hnext, hx⟩

/-- Who consumes the code found it live and is bound to it. -/
theorem consumeCode_first (hrow : RowsOf code db) (hhash : codeHashOf P req.code = code.codeHash)
    (hconsume : (consumeCode P db req now).1 = .ok row) :
    ¬ CodeSpent code.codeHash db ∧ Bound P code req ∧ now < code.expiresAt := by
  obtain ⟨old, hold, hsame, hlive, -, hbound⟩ := consumeCode_bound hconsume
  have hfresh : old.consumed = false ∧ now < old.expiresAt := by
    simpa [AuthCodes.live] using hlive
  refine ⟨fun hspent => ?_, ?_⟩
  · have hconsumed := hspent old hold (hsame.trans hhash)
    rw [hfresh.1] at hconsumed
    cases hconsumed
  · rcases hrow old hold (hsame.trans hhash) with rfl | rfl
    · exact ⟨hbound, hfresh.2⟩
    · exact absurd hfresh.1 (by simp)

/-- Whatever the checks say, the code is spent after a step of `consume` that was in time. -/
theorem codeConsume_spends (hrow : RowsOf code w.db) (hcall : w.calls c = some (.codeChecked req))
    (hhash : codeHashOf P req.code = code.codeHash) (hnow : now < code.expiresAt) :
    CodeSpent code.codeHash (codeStep P ctx w (.endpoint (.codeConsume c now))).1.db := by
  intro r hr hsame
  have hrows := codeStep_rows (by simp [CodeEvent.issues]) hr hsame
  obtain ⟨old, hold, holdHash, hmarked⟩ := hrows
  have hexpires : r.expiresAt = code.expiresAt := by
    rcases hrow old hold holdHash with rfl | rfl <;> rcases hmarked with rfl | rfl <;> rfl
  simp only [codeStep, worldStep, hcall, World.goOnWith_db] at hr
  have hlive := consumeCode_spends hr (hsame.trans hhash.symm)
  simpa [AuthCodes.live, hexpires, hnow] using hlive

/-- A row that was there is then a consumed one. -/
theorem codeConsume_marks (hrow : RowsOf code w.db) (hcall : w.calls c = some (.codeChecked req))
    (hhash : codeHashOf P req.code = code.codeHash) (hnow : now < code.expiresAt)
    (hpresent : (w.db.authCodes.get? code.codeHash).isSome = true) :
    { code with consumed := true } ∈
      (codeStep P ctx w (.endpoint (.codeConsume c now))).1.db.authCodes := by
  obtain ⟨r, hget⟩ := Option.isSome_iff_exists.mp hpresent
  obtain ⟨hr, hsame⟩ := Table.get?_eq_some.mp hget
  have hcolumns : { r with consumed := true } = { code with consumed := true } := by
    rcases hrow r hr hsame with rfl | rfl <;> rfl
  simp only [codeStep, worldStep, hcall, World.goOnWith_db]
  rw [← hcolumns]
  by_cases hlive : AuthCodes.live r now = true
  · rw [consumeCode_live hr (hsame.trans hhash.symm) hlive]
    rw [Table.mem_update]
    exact ⟨r, hr, by simp [hlive, hsame, hhash]⟩
  · -- A row that is not live in time is a consumed one, and stays.
    have hconsumed : r.consumed = true := by
      have hexpires : r.expiresAt = code.expiresAt := by
        rcases hrow r hr hsame with rfl | rfl <;> rfl
      simpa [AuthCodes.live, hexpires, hnow] using hlive
    have hkept : (consumeCode P w.db req now).2 = w.db := by
      simp [consumeCode, AuthCodes.consume, hhash, hget, Option.filter, hlive, require, bind,
        Except.bind]
    rw [hkept, ← hconsumed]
    exact hr

/-- One step keeps the state of the code. -/
theorem codeState_step (h : CodeState P code past w) (hnew : e.issues ≠ some code.codeHash) :
    CodeState P code (past ++ [⟨w, e, (codeStep P ctx w e).2⟩]) (codeStep P ctx w e).1 where
  row r' hr' hhash := by
    obtain ⟨r, hr, hsame, hmarked⟩ := codeStep_rows hnew hr' hhash
    rcases h.row r hr hsame with rfl | rfl <;> rcases hmarked with rfl | rfl
    · exact .inl rfl
    · exact .inr rfl
    · exact .inr rfl
    · exact .inr rfl
  one c c' req req' hc hc' := by
    rcases holdsCode_step hc with hold | ⟨now, row, rfl, hcall, hconsume⟩ <;>
      rcases holdsCode_step hc' with hold' | ⟨now', row', heq, hcall', hconsume'⟩
    · exact h.one c c' req req' hold hold'
    · exact absurd (h.spent c req hold) (consumeCode_first h.row hc'.1 hconsume').1
    · exact absurd (h.spent c' req' hold') (consumeCode_first h.row hc.1 hconsume).1
    · cases heq
      rfl
  spent c req hc := by
    rcases holdsCode_step hc with hold | ⟨now, row, rfl, hcall, hconsume⟩
    · exact codeStep_spent hnew (h.spent c req hold)
    · exact codeConsume_spends h.row hcall hc.1 (consumeCode_first h.row hc.1 hconsume).2.2
  bound c req hc := by
    rcases holdsCode_step hc with hold | ⟨now, row, rfl, hcall, hconsume⟩
    · obtain ⟨hbound, y, hy, htime⟩ := h.bound c req hold
      exact ⟨hbound, y, List.mem_append_left _ hy, htime⟩
    · obtain ⟨-, hbound, hnow⟩ := consumeCode_first h.row hc.1 hconsume
      refine ⟨hbound, _, List.mem_append_right _ (List.mem_singleton_self _), now, rfl, ?_, hnow⟩
      exact hcall

/-! ## Redemptions -/

/-- The `exchange_code` that returns a token set in this step, with its request. -/
def exchangedCode (x : Taken World CodeEvent Answer) : Option (CallId × CodeExchangeRequest) :=
  match x.event, x.out with
  | .endpoint (.codeIssue call _), .issued _ =>
    (x.pre.calls call).bind fun y => y.codeRequest.map fun req => (call, req)
  | _, _ => none

/-- Is the code redeemed in this step? -/
def redeems (P : Primitives) (hash : Bytes) (x : Taken World CodeEvent Answer) : Bool :=
  (exchangedCode x).any fun (_, req) => codeHashOf P req.code == hash

/-- Who redeems a code holds it until then. -/
theorem exchangedCode_step (h : exchangedCode ⟨w, e, (codeStep P ctx w e).2⟩ = some (c, req)) :
    (∃ draw, e = .endpoint (.codeIssue c draw)) ∧
      HoldsCode P (codeHashOf P req.code) w c req ∧ (codeStep P ctx w e).1.calls c = none := by
  simp only [exchangedCode] at h
  split at h
  · rename_i call draw tokens hout
    obtain ⟨_, _, req', grant, jwt, db', heq, hcall, hissue⟩ := worldStep_issuedTokens hout
    cases heq
    simp only [hcall, Option.bind_some, Call.codeRequest, Option.map_some, Option.some.injEq,
      Prod.mk.injEq] at h
    obtain ⟨rfl, rfl⟩ := h
    refine ⟨⟨draw, rfl⟩, ⟨rfl, _, _, hcall, rfl⟩, ?_⟩
    simp only [codeStep, worldStep, hcall, issueStep, hissue]
    exact Function.update_self _ _ _
  · cases h

theorem redeems_eq_true {x : Taken World CodeEvent Answer} (h : redeems P hash x = true) :
    ∃ c req, exchangedCode x = some (c, req) ∧ codeHashOf P req.code = hash := by
  obtain ⟨⟨c, req⟩, hx, hhash⟩ := (Option.any_eq_true _ _).mp h
  exact ⟨c, req, hx, by simpa using hhash⟩

/-- Nobody holds the code, nor can come to hold it. -/
structure CodeGone (P : Primitives) (hash : Bytes) (w : World) : Prop where
  spent : CodeSpent hash w.db
  free : ∀ c req, ¬ HoldsCode P hash w c req

theorem codeGone_step (hrow : RowsOf code w.db) (h : CodeGone P code.codeHash w)
    (hnew : e.issues ≠ some code.codeHash) :
    CodeGone P code.codeHash (codeStep P ctx w e).1 where
  spent := codeStep_spent hnew h.spent
  free c req hc := by
    rcases holdsCode_step hc with hold | ⟨now, row, rfl, hcall, hconsume⟩
    · exact h.free c req hold
    · exact (consumeCode_first hrow hc.1 hconsume).1 h.spent

/-- The call that held the code ends with its redemption. -/
theorem codeGone_of_exchangedCode (h : CodeState P code past w)
    (hnew : e.issues ≠ some code.codeHash)
    (hexchanged : exchangedCode ⟨w, e, (codeStep P ctx w e).2⟩ = some (c, req))
    (hhash : codeHashOf P req.code = code.codeHash) :
    CodeGone P code.codeHash (codeStep P ctx w e).1 := by
  obtain ⟨⟨draw, rfl⟩, hholds, hended⟩ := exchangedCode_step hexchanged
  rw [hhash] at hholds
  refine ⟨codeStep_spent hnew (h.spent c req hholds), fun c' req' hc' => ?_⟩
  rcases holdsCode_step hc' with hold | ⟨now, row, heq, -⟩
  · have hsame := h.one c c' req req' hholds hold
    subst hsame
    obtain ⟨-, x, row, hcall, -⟩ := hc'
    rw [hended] at hcall
    cases hcall
  · cases heq

/-! ## The guarantee -/

/-- In every interleaving, a stored code is redeemed at most once; the call that redeems it
presented what is stored with it and consumed it in time; and every authenticated call that
comes to consume it in time leaves it consumed. -/
theorem code_redeemed_once {code : AuthorizationCodeRow} {w : World}
    (hstored : code ∈ w.db.authCodes) (hfree : ∀ c req, ¬ HoldsCode P code.codeHash w c req)
    {events : List CodeEvent} (hnew : ∀ e ∈ events, e.issues ≠ some code.codeHash) :
    (trace (codeStep P ctx) w events).countP (redeems P code.codeHash) ≤ 1 ∧
      (∀ past x rest c req, trace (codeStep P ctx) w events = past ++ x :: rest →
        exchangedCode x = some (c, req) → codeHashOf P req.code = code.codeHash →
        Bound P code req ∧ ConsumedInTime code past c req) ∧
      ∀ before after c now req, events = before ++ .endpoint (.codeConsume c now) :: after →
        (run (codeStep P ctx) w before).calls c = some (.codeChecked req) →
        codeHashOf P req.code = code.codeHash → now < code.expiresAt →
        (((run (codeStep P ctx) w before).db.authCodes.get? code.codeHash).isSome = true →
          { code with consumed := true } ∈ (run (codeStep P ctx) w
            (before ++ [.endpoint (.codeConsume c now)])).db.authCodes) ∧
        CodeSpent code.codeHash (run (codeStep P ctx) w events).db := by
  have hstart : CodeState P code [] w := by
    refine ⟨fun r hr hhash => .inl (Table.eq_of_key_eq hr hstored hhash), ?_, ?_, ?_⟩
    · exact fun c _ req _ hc => absurd hc (hfree c req)
    · exact fun c req hc => absurd hc (hfree c req)
    · exact fun c req hc => absurd hc (hfree c req)
  have hguard : ∀ {es : List CodeEvent}, (∀ e ∈ es, e.issues ≠ some code.codeHash) → ∀ w,
      Guarded (codeStep P ctx) (fun _ e => e.issues ≠ some code.codeHash) w es :=
    fun h _ => guarded_of_forall h
  have hstep : ∀ past w e, CodeState P code past w → e.issues ≠ some code.codeHash →
      CodeState P code (past ++ [⟨w, e, (codeStep P ctx w e).2⟩]) (codeStep P ctx w e).1 :=
    fun _ _ _ h hnew => codeState_step h hnew
  refine ⟨?_, ?_, ?_⟩
  · refine countP_trace_le_one (I := fun w => ∃ past, CodeState P code past w)
      (D := CodeGone P code.codeHash) ?_ ?_ ?_ ?_ (hguard hnew w) ⟨[], hstart⟩
    · rintro w e ⟨past, h⟩ hnew
      exact ⟨_, codeState_step h hnew⟩
    · rintro w e ⟨past, h⟩ hnew hredeems
      obtain ⟨c, req, hexchanged, hhash⟩ := redeems_eq_true hredeems
      exact codeGone_of_exchangedCode h hnew hexchanged hhash
    · rintro w e ⟨past, h⟩ hnew hgone
      exact codeGone_step h.row hgone hnew
    · rintro w e - - hgone
      by_contra hnot
      obtain ⟨c, req, hexchanged, hhash⟩ := redeems_eq_true (by simpa using hnot)
      have hholds := (exchangedCode_step hexchanged).2.1
      rw [hhash] at hholds
      exact hgone.free c req hholds
  · intro past x rest c req hx hexchanged hhash
    obtain ⟨hstate, -, hout⟩ := trace_history hstep (hguard hnew w) hstart hx
    have hx : x = ⟨x.pre, x.event, (codeStep P ctx x.pre x.event).2⟩ := by
      rw [← hout]
    rw [hx] at hexchanged
    have hholds := (exchangedCode_step hexchanged).2.1
    rw [hhash] at hholds
    exact hstate.bound c req hholds
  · rintro before after c now req rfl hcall hhash hnow
    have hbefore : ∀ e ∈ before, e.issues ≠ some code.codeHash :=
      fun e he => hnew e (List.mem_append_left _ he)
    have hafter : ∀ e ∈ after, e.issues ≠ some code.codeHash :=
      fun e he => hnew e (List.mem_append_right _ (List.mem_cons_of_mem _ he))
    have hrow := (run_trace_history hstep (hguard hbefore w) hstart).row
    refine ⟨fun hpresent => ?_, ?_⟩
    · rw [run_append]
      exact codeConsume_marks hrow hcall hhash hnow hpresent
    · rw [run_append, run_cons]
      exact run_invariant (I := fun w => CodeSpent code.codeHash w.db)
        (fun _ _ h hnew => codeStep_spent hnew h) (hguard hafter _)
        (codeConsume_spends hrow hcall hhash hnow)

/-- Two calls present the sample code, the second with another redirect URI. -/
def codeRace : List CodeEvent :=
  ([.endpoint (.codeBegin 1 ⟨"code", "https://other.example", 5, none, .body, "v"⟩)] :
      List CodeEvent) ++
    (codePrelude 0).map .endpoint ++
    ([.endpoint (.codeConsume 1 2), .endpoint (.codeIssue 0 (sampleDraw 100 [1])),
      .invalidateAllForUser 1, .endpoint (.command (.purgeCodes 4))] : List CodeEvent)

/-- The code is redeemed in that run, once, and spent at its end. -/
theorem code_redeemed_once_race :
    (trace (codeStep Primitives.transparent sampleContext) codeWorld codeRace).countP
        (redeems Primitives.transparent sampleCode.codeHash) = 1 ∧
      CodeSpent sampleCode.codeHash
        (run (codeStep Primitives.transparent sampleContext) codeWorld codeRace).db := by
  have hstored : sampleCode ∈ codeWorld.db.authCodes := List.mem_singleton_self _
  have hfree : ∀ c req, ¬ HoldsCode Primitives.transparent sampleCode.codeHash codeWorld c req := by
    rintro c req ⟨-, x, row, hcall, -⟩
    cases hcall
  have hnew : ∀ e ∈ codeRace, e.issues ≠ some sampleCode.codeHash := by decide
  obtain ⟨hone, -, hspent⟩ := code_redeemed_once hstored hfree hnew
  refine ⟨le_antisymm hone (by decide +kernel), ?_⟩
  exact (hspent (codeRace.take 2) (codeRace.drop 3) 0 1
    ⟨"code", "https://app.example", 5, none, .body, "v"⟩ rfl rfl rfl (by decide)).2

end SuiId
