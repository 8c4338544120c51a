import SuiId.Core.SessionUse

/-!
# Use keeps a session alive

The time that a touch writes is at most the latest reading of the clock, and a touch that is
finished leaves a last use that is less than a minute older (`Used`).  The second holds as long as
the touches write in the order in which they sampled the clock: a touch that has found the row old
enough then has a time no earlier than the one that is stored.  So a session that a request has used
recently is not idle, and one that no request was at is (`session_use`).

Without that condition a slow request takes the last use of a later one back
(`slow_touch_ends_session`).
-/

namespace SuiId.SessionUse

open Lib Lib.Result

/-! ## What is said of a run -/

/-- `resolve` refuses the row because it was idle for too long. -/
def refusedAsIdle (db : Database) (now : DateTime) (row : SessionRow) (userActive : Bool) : Bool :=
  !(row.revokedAt.isSome || row.expiresAt ≤ now || !userActive) && pastIdleTimeout db row now

def lastUsedAt (session : SessionId) (w : UseWorld) : Option DateTime :=
  (w.db.sessions.get? session).bind (·.lastUsedAt)

/-- The time from which idleness counts. -/
def reference (row : SessionRow) : DateTime := row.lastUsedAt.getD row.createdAt

abbrev UseTaken := Machine.Taken UseWorld UseEvent (Option (CoreResult UserId))

/-- No step takes the last use to an earlier time. -/
def NeverEarlier (session : SessionId) (taken : List UseTaken) : Prop :=
  ∀ x ∈ taken, ∀ t, lastUsedAt session x.pre = some t →
    ∃ t', lastUsedAt session (useStep session x.pre x.event).1 = some t' ∧ t ≤ t'

/-- A session that was used at most the timeout less a minute ago is not refused as idle. -/
def KeptAlive (timeout : Int) (taken : List UseTaken) : Prop :=
  ∀ x ∈ taken, ∀ call row userActive seen, x.event = .decide call →
    x.pre.calls call = some (.resolving row userActive seen) →
    x.pre.clock - seen ≤ seconds (timeout - lastUsedAtThrottleSecs) →
    refusedAsIdle x.pre.db x.pre.clock row userActive = false

/-- A session that no request was at for longer than the timeout is refused as idle, if it would not
be refused anyway. -/
def RefusedWhenUnused (timeout : Int) (taken : List UseTaken) : Prop :=
  ∀ x ∈ taken, ∀ call row userActive seen, x.event = .decide call →
    x.pre.calls call = some (.resolving row userActive seen) →
    seconds (timeout + 1) ≤ x.pre.clock - x.pre.lastReading →
    x.out = some (.error .unauthenticated) ∧
      (row.revokedAt = none → x.pre.clock < row.expiresAt → userActive = true →
        refusedAsIdle x.pre.db x.pre.clock row userActive = true)

/-- The touch that writes is the one that sampled the clock first, of those that are to write. -/
def InOrder (w : UseWorld) : UseEvent → Prop
  | .write call => ∀ now, w.calls call = some (.touching now) →
    ∀ call' now', w.calls call' = some (.touching now') → now ≤ now'
  | _ => True

/-- A session that no request is at. -/
structure Starts (session : SessionId) (w : UseWorld) : Prop where
  row : ∃ row, w.db.sessions.get? session = some row ∧ w.finished = reference row ∧
    w.lastReading = reference row ∧ reference row ≤ w.clock ∧ row.createdAt ≤ reference row
  calls : ∀ call, w.calls call = none

variable {session : SessionId} {w : UseWorld}

/-! ## One statement -/

/-- What idleness is counted from, of the session's row. -/
def useOf (session : SessionId) (db : Database) : Option (Option DateTime × DateTime) :=
  (db.sessions.get? session).map fun row => (row.lastUsedAt, row.createdAt)

variable {db : Database} {row : SessionRow} {created now : DateTime}

private theorem useOf_of_get (h : db.sessions.get? session = some row) :
    useOf session db = some (row.lastUsedAt, row.createdAt) := by
  rw [useOf, h, Option.map_some]

private theorem useOf_writeLastUsed {used : Option DateTime}
    (h : useOf session db = some (used, created)) (now : DateTime) :
    useOf session (writeLastUsed db session now) = some (some now, created) := by
  rw [useOf, Option.map_eq_some_iff] at h
  obtain ⟨row, hrow, hpair⟩ := h
  cases hpair
  have hid : row.id = session := (Table.get?_eq_some.mp hrow).2
  simp only [useOf, writeLastUsed, Table.get?_update, hrow, Option.map_some, hid,
    beq_self_eq_true, if_true]

/-- A decision writes no last use. -/
private theorem decideResolve_keeps (db : Database) (now : DateTime) (row : SessionRow)
    (userActive : Bool) :
    useOf session (decideResolve db now session row userActive).2 = useOf session db ∧
      (decideResolve db now session row userActive).2.serverSettings = db.serverSettings := by
  unfold decideResolve
  split
  · exact ⟨rfl, rfl⟩
  · split
    · split
      · next u db' hrevoke =>
        obtain ⟨log, rfl⟩ := revokeSessionIdleTimeout_ok hrevoke
        refine ⟨?_, rfl⟩
        simp only [useOf, Sessions.revoke, Sessions.revokeWhere, Table.get?_update]
        cases db.sessions.get? session with
        | none => rfl
        | some row =>
          simp only [Option.map_some]
          split <;> rfl
      · exact ⟨rfl, rfl⟩
    · exact ⟨rfl, rfl⟩

private theorem forall_update {p : UseCall → Prop} {calls : UseCallId → Option UseCall}
    (h : ∀ call c, calls call = some c → p c) (call : UseCallId) {next : Option UseCall}
    (hnext : ∀ c, next = some c → p c) (call' : UseCallId) (c : UseCall)
    (hc : Function.update calls call next call' = some c) : p c := by
  by_cases hsame : call' = call
  · subst hsame
    rw [Function.update_self] at hc
    exact hnext c hc
  · rw [Function.update_of_ne hsame] at hc
    exact h call' c hc

private theorem get_of_getWithUserActive {userActive : Bool}
    (h : Sessions.getWithUserActive db session = some (row, userActive)) :
    db.sessions.get? session = some row := by
  simp only [Sessions.getWithUserActive, Option.bind_eq_bind, Option.bind_eq_some_iff] at h
  obtain ⟨row', hrow, u, -, hpair⟩ := h
  cases hpair
  exact hrow

/-- What a step can do. -/
inductive Moves (session : SessionId) (w : UseWorld) : UseEvent → UseWorld → Prop
  | stays {e} : Moves session w e w
  | advances {time} : Moves session w (.advance time) { w with clock := max w.clock time }
  | reads {call row userActive} :
    w.db.sessions.get? session = some row →
    Moves session w (.readRow call) (w.goesOn call (.resolving row userActive w.finished))
  | decides {call} {db : Database} {next} :
    useOf session db = useOf session w.db → db.serverSettings = w.db.serverSettings →
    (∀ c, next = some c → c = .resolved) →
    Moves session w (.decide call)
      { w with db, calls := Function.update w.calls call next
               lastReading := max w.lastReading w.clock }
  | samples {call} :
    Moves session w (.sample call)
      { w.goesOn call (.sampled w.clock) with lastReading := max w.lastReading w.clock }
  | findsNothing {call} : Moves session w (.readLastUsed call) (w.ends call)
  | findsStale {call now row} :
    w.calls call = some (.sampled now) → w.db.sessions.get? session = some row →
    stale row now = true → Moves session w (.readLastUsed call) (w.goesOn call (.touching now))
  | findsFresh {call now row} :
    w.calls call = some (.sampled now) → w.db.sessions.get? session = some row →
    stale row now = false → Moves session w (.readLastUsed call) (w.touched call now)
  | writes {call now} : w.calls call = some (.touching now) →
    Moves session w (.write call)
      { w.touched call now with db := writeLastUsed w.db session now }

theorem useStep_moves (session : SessionId) (w : UseWorld) (e : UseEvent) :
    Moves session w e (useStep session w e).1 := by
  cases e with
  | advance time => exact .advances
  | readRow call =>
    simp only [useStep]
    split
    · exact .stays
    · split
      · exact .stays
      · next row userActive hget => exact .reads (get_of_getWithUserActive hget)
  | decide call =>
    simp only [useStep]
    split
    · next row userActive seen hcall =>
      obtain ⟨hkept, hsettings⟩ := @decideResolve_keeps session w.db w.clock row userActive
      split
      · next user db hdecide =>
        rw [hdecide] at hkept hsettings
        exact .decides hkept hsettings fun c hc => (Option.some.inj hc).symm
      · next error db hdecide =>
        rw [hdecide] at hkept hsettings
        exact .decides hkept hsettings fun _ hc => by cases hc
    · exact .stays
  | sample call =>
    simp only [useStep]
    split
    · exact .samples
    · exact .stays
  | readLastUsed call =>
    simp only [useStep]
    split
    · next now hcall =>
      split
      · exact .findsNothing
      · next row hget =>
        split
        · next hstale => exact .findsStale hcall hget hstale
        · next hfresh => exact .findsFresh hcall hget (Bool.eq_false_iff.mpr hfresh)
    · exact .stays
  | write call =>
    simp only [useStep]
    split
    · next now hcall => exact .writes hcall
    · exact .stays

/-- The request that an event is of. -/
def UseEvent.call : UseEvent → Option UseCallId
  | .advance _ => none
  | .readRow call | .decide call | .sample call | .readLastUsed call | .write call => some call

/-- A statement of one request leaves the others where they are. -/
theorem useStep_calls_of_ne {e : UseEvent} {id : UseCallId} (h : e.call ≠ some id) :
    (useStep session w e).1.calls id = w.calls id := by
  have hmoves := useStep_moves session w e
  generalize (useStep session w e).1 = w' at hmoves
  have hne {call : UseCallId} (hcall : e.call = some call) : id ≠ call := by
    rintro rfl
    exact h hcall
  cases hmoves with
  | stays => rfl
  | advances => rfl
  | reads _ | decides _ _ _ | samples | findsNothing | findsStale _ _ _ | findsFresh _ _ _
  | writes _ => exact Function.update_of_ne (hne rfl) _ _

/-- A request that no event of a run is of is where it was. -/
theorem run_calls_of_notMem {es : List UseEvent} {id : UseCallId}
    (h : ∀ e ∈ es, e.call ≠ some id) :
    (Machine.run (useStep session) w es).calls id = w.calls id := by
  induction es generalizing w with
  | nil => rfl
  | cons e es ih =>
    rw [Machine.run_cons, ih fun e' he' => h e' (List.mem_cons_of_mem e he')]
    exact useStep_calls_of_ne (h e List.mem_cons_self)

/-- Whole seconds, past the first. -/
private theorem le_numSeconds_iff {n d : Int} (hn : 0 < n) : n ≤ numSeconds d ↔ seconds n ≤ d := by
  unfold numSeconds seconds
  rcases Int.le_total 0 d with hd | hd
  · rw [Int.tdiv_eq_ediv_of_nonneg hd]
    exact Int.le_ediv_iff_mul_le (by decide)
  · have hneg : d.tdiv 1000000000 = -((-d) / 1000000000) := by
      rw [← Int.tdiv_eq_ediv_of_nonneg (by omega), Int.neg_tdiv, Int.neg_neg]
    rw [hneg]
    omega

/-! ## Times that were read from the clock -/

/-- A call holds no time later than the limit. -/
def CallRead (limit : DateTime) : UseCall → Prop
  | .resolving row _ _ => reference row ≤ limit
  | .resolved => True
  | .sampled now => now ≤ limit
  | .touching now => now ≤ limit

private theorem CallRead.mono {limit limit' : DateTime} {c : UseCall} (h : CallRead limit c)
    (hle : limit ≤ limit') : CallRead limit' c := by
  cases c with
  | resolving | sampled | touching => exact Int.le_trans h hle
  | resolved => trivial

/-- The stored last use was read from the clock, or is where the run started. -/
structure ReadFromClock (session : SessionId) (timeout : Int) (w : UseWorld) : Prop where
  settings : w.db.serverSettings.idleSessionTimeoutSecs = timeout
  row : ∃ used created, useOf session w.db = some (used, created) ∧
    used.getD created ≤ w.lastReading
  calls : ∀ call c, w.calls call = some c → CallRead w.lastReading c

theorem useStep_readFromClock {timeout : Int} (w : UseWorld) (e : UseEvent)
    (h : ReadFromClock session timeout w) :
    ReadFromClock session timeout (useStep session w e).1 := by
  obtain ⟨used, created, huse, hle⟩ := h.row
  have hmax : w.lastReading ≤ max w.lastReading w.clock := Int.le_max_left _ _
  have hmono (call : UseCallId) (c : UseCall) (hc : w.calls call = some c) :
      CallRead (max w.lastReading w.clock) c := (h.calls call c hc).mono hmax
  have hmoves := useStep_moves session w e
  generalize (useStep session w e).1 = w' at hmoves
  cases hmoves with
  | stays => exact h
  | advances => exact ⟨h.settings, h.row, h.calls⟩
  | @reads call row userActive hget =>
    refine ⟨h.settings, h.row, forall_update h.calls call fun c hc => ?_⟩
    rw [useOf_of_get hget, Option.some.injEq, Prod.mk.injEq] at huse
    obtain ⟨rfl, rfl⟩ := huse
    rw [← Option.some.inj hc]
    exact hle
  | @decides call db next huse' hsettings hnext =>
    refine ⟨(congrArg _ hsettings).trans h.settings,
      ⟨used, created, huse'.trans huse, Int.le_trans hle hmax⟩,
      forall_update hmono call fun c hc => ?_⟩
    rw [hnext c hc]
    trivial
  | @samples call =>
    refine ⟨h.settings, ⟨used, created, huse, Int.le_trans hle hmax⟩,
      forall_update hmono call fun c hc => ?_⟩
    rw [← Option.some.inj hc]
    exact Int.le_max_right _ _
  | @findsNothing call =>
    exact ⟨h.settings, h.row, forall_update h.calls call fun _ hc => by cases hc⟩
  | @findsStale call now row hcall _ _ =>
    refine ⟨h.settings, h.row, forall_update h.calls call fun c hc => ?_⟩
    have hnow : now ≤ w.lastReading := h.calls call (.sampled now) hcall
    rw [← Option.some.inj hc]
    exact hnow
  | @findsFresh call now row hcall _ _ =>
    exact ⟨h.settings, h.row, forall_update h.calls call fun _ hc => by cases hc⟩
  | @writes call now hcall =>
    exact ⟨h.settings, ⟨some now, created, useOf_writeLastUsed huse now, h.calls call _ hcall⟩,
      forall_update h.calls call fun _ hc => by cases hc⟩

/-! ## Touches that are finished -/

/-- What a call holds of a session created at a time and last used at another. -/
def CallUsed (created last : DateTime) : UseCall → Prop
  | .resolving row _ seen => seen < reference row + seconds lastUsedAtThrottleSecs
  | .resolved => True
  | .sampled now => created ≤ now
  | .touching now => last ≤ now

/-- The last use is less than a minute before the latest touch that is finished, and no later than
those that are to write. -/
structure Used (session : SessionId) (created : DateTime) (w : UseWorld) : Prop where
  clock : created ≤ w.clock
  row : ∃ used, useOf session w.db = some (used, created) ∧
    w.finished < used.getD created + seconds lastUsedAtThrottleSecs ∧
    ∀ call c, w.calls call = some c → CallUsed created (used.getD created) c

private theorem lt_of_fresh (h : stale row now = false) :
    now < reference row + seconds lastUsedAtThrottleSecs := by
  unfold stale at h
  unfold reference
  cases hused : row.lastUsedAt with
  | none =>
    rw [hused] at h
    cases h
  | some t =>
    rw [hused, Option.all_some, decide_eq_false_iff_not, le_numSeconds_iff (by decide)] at h
    exact Int.lt_add_of_sub_left_lt (Int.not_le.mp h)

private theorem le_of_stale (h : stale row now = true) (hcreated : row.createdAt ≤ now) :
    reference row ≤ now := by
  unfold stale at h
  unfold reference
  cases hused : row.lastUsedAt with
  | none => exact hcreated
  | some t =>
    rw [hused, Option.all_some, decide_eq_true_eq, le_numSeconds_iff (by decide)] at h
    have hminute : (0 : Int) ≤ seconds lastUsedAtThrottleSecs := by decide
    exact Int.sub_nonneg.mp (Int.le_trans hminute h)

/-- A step keeps it, as long as the touches write in order. -/
theorem useStep_used (w : UseWorld) (e : UseEvent) (h : Used session created w)
    (horder : InOrder w e) :
    Used session created (useStep session w e).1 := by
  obtain ⟨used, huse, hlt, hcalls⟩ := h.row
  have hmoves := useStep_moves session w e
  generalize (useStep session w e).1 = w' at hmoves
  cases hmoves with
  | stays => exact h
  | advances => exact ⟨Int.le_trans h.clock (Int.le_max_left _ _), h.row⟩
  | @reads call row userActive hget =>
    refine ⟨h.clock, used, huse, hlt, forall_update hcalls call fun c hc => ?_⟩
    rw [useOf_of_get hget, Option.some.injEq, Prod.mk.injEq] at huse
    obtain ⟨rfl, rfl⟩ := huse
    rw [← Option.some.inj hc]
    exact hlt
  | @decides call db next huse' hsettings hnext =>
    refine ⟨h.clock, used, huse'.trans huse, hlt, forall_update hcalls call fun c hc => ?_⟩
    rw [hnext c hc]
    trivial
  | @samples call =>
    refine ⟨h.clock, used, huse, hlt, forall_update hcalls call fun c hc => ?_⟩
    rw [← Option.some.inj hc]
    exact h.clock
  | @findsNothing call =>
    exact ⟨h.clock, used, huse, hlt, forall_update hcalls call fun _ hc => by cases hc⟩
  | @findsStale call now row hcall hget hstale =>
    refine ⟨h.clock, used, huse, hlt, forall_update hcalls call fun c hc => ?_⟩
    rw [useOf_of_get hget, Option.some.injEq, Prod.mk.injEq] at huse
    obtain ⟨rfl, rfl⟩ := huse
    have hcreated : row.createdAt ≤ now := hcalls call (.sampled now) hcall
    rw [← Option.some.inj hc]
    exact le_of_stale hstale hcreated
  | @findsFresh call now row hcall hget hfresh =>
    have hnow := lt_of_fresh hfresh
    rw [useOf_of_get hget, Option.some.injEq, Prod.mk.injEq] at huse
    obtain ⟨rfl, rfl⟩ := huse
    exact ⟨h.clock, _, useOf_of_get hget, Int.max_lt.mpr ⟨hlt, hnow⟩,
      forall_update hcalls call fun _ hc => by cases hc⟩
  | @writes call now hcall =>
    have hnot : used.getD created ≤ now := hcalls call _ hcall
    have hminute : (0 : Int) < seconds lastUsedAtThrottleSecs := by decide
    refine ⟨h.clock, some now, useOf_writeLastUsed huse now, Int.max_lt.mpr ⟨?_, ?_⟩,
      forall_update (fun call' c hc => ?_) call fun _ hc => by cases hc⟩
    · exact Int.lt_of_lt_of_le hlt (Int.add_le_add_right hnot _)
    · exact Int.lt_add_of_pos_right now hminute
    · -- the other touches sampled the clock later
      cases c with
      | touching now' => exact horder now hcall call' now' hc
      | resolving row userActive seen => exact hcalls call' _ hc
      | resolved => trivial
      | sampled now' => exact hcalls call' _ hc

/-! ## Every schedule -/

/-- The last use moves with the touches alone. -/
private theorem lastUsedAt_moves {e : UseEvent} {w' : UseWorld} (hmoves : Moves session w e w')
    (hused : Used session created w) {t : DateTime} (h : lastUsedAt session w = some t) :
    ∃ t', lastUsedAt session w' = some t' ∧ t ≤ t' := by
  have hsame (db : Database) (hdb : useOf session db = useOf session w.db) :
      (db.sessions.get? session).bind (·.lastUsedAt) = lastUsedAt session w := by
    have hused := congrArg (fun use => use.bind Prod.fst) hdb
    rwa [useOf, useOf, Option.bind_map, Option.bind_map] at hused
  cases hmoves with
  | stays | advances | reads | samples | findsNothing | findsStale | findsFresh =>
    exact ⟨t, h, Int.le_refl t⟩
  | decides huse _ _ => exact ⟨t, (hsame _ huse).trans h, Int.le_refl t⟩
  | @writes call now hcall =>
    obtain ⟨row, hget, hlast⟩ := Option.bind_eq_some_iff.mp h
    obtain ⟨used, huse, -, hcalls⟩ := hused.row
    rw [useOf_of_get hget, Option.some.injEq, Prod.mk.injEq, hlast] at huse
    obtain ⟨rfl, -⟩ := huse
    have hwritten := useOf_writeLastUsed (useOf_of_get hget) now
    have hnow : lastUsedAt session
        { w.touched call now with db := writeLastUsed w.db session now } = some now := by
      have hfirst := congrArg (fun use => use.bind Prod.fst) hwritten
      rwa [useOf, Option.bind_map] at hfirst
    exact ⟨now, hnow, hcalls call _ hcall⟩

private theorem refusedAsIdle_of_seen {now seen timeout : Int} {userActive : Bool}
    (hsettings : db.serverSettings.idleSessionTimeoutSecs = timeout)
    (hseen : seen < reference row + seconds lastUsedAtThrottleSecs)
    (hgap : now - seen ≤ seconds (timeout - lastUsedAtThrottleSecs)) :
    refusedAsIdle db now row userActive = false := by
  have hidle : pastIdleTimeout db row now = false := by
    by_contra hidle
    rw [Bool.not_eq_false, pastIdleTimeout, hsettings, Bool.and_eq_true, decide_eq_true_eq,
      decide_eq_true_eq] at hidle
    obtain ⟨hpositive, helapsed⟩ := hidle
    have hlong := (le_numSeconds_iff (by omega)).mp (Int.add_one_le_of_lt helapsed)
    have hlong' : (timeout + 1) * 1000000000 ≤ now - reference row := hlong
    have hseen' : seen < reference row + 60 * 1000000000 := hseen
    have hgap' : now - seen ≤ (timeout - 60) * 1000000000 := hgap
    omega
  rw [refusedAsIdle, hidle, Bool.and_false]

private theorem refused_of_unused {session : SessionId} {db : Database} {now timeout : Int}
    {row : SessionRow} {userActive : Bool} (hpositive : 0 < timeout)
    (hsettings : db.serverSettings.idleSessionTimeoutSecs = timeout)
    (hunused : seconds (timeout + 1) ≤ now - reference row) :
    (decideResolve db now session row userActive).1 = .error .unauthenticated ∧
      (row.revokedAt = none → now < row.expiresAt → userActive = true →
        refusedAsIdle db now row userActive = true) := by
  have hidle : pastIdleTimeout db row now = true := by
    rw [pastIdleTimeout, hsettings, Bool.and_eq_true, decide_eq_true_eq, decide_eq_true_eq]
    exact ⟨hpositive, (le_numSeconds_iff (by omega)).mpr hunused⟩
  constructor
  · unfold decideResolve
    split
    · rfl
    · split
      · rfl
      · rfl
  · intro hrevoked hexpires hactive
    rw [refusedAsIdle, hidle, hrevoked, hactive, Bool.and_true]
    simpa using hexpires

/-- Of every schedule of requests on a session: one that no request was at for longer than the
timeout is refused.  If the touches write in the order of their samples, then the last use moves
forward, and a session with a touch that is finished and recent enough is not refused as idle. -/
theorem session_use {session : SessionId} {w : UseWorld} (hstart : Starts session w)
    {timeout : Int} (htimeout : w.db.serverSettings.idleSessionTimeoutSecs = timeout)
    (hminute : lastUsedAtThrottleSecs ≤ timeout) (es : List UseEvent) :
    RefusedWhenUnused timeout (Machine.trace (useStep session) w es) ∧
      (Machine.Guarded (useStep session) InOrder w es →
        NeverEarlier session (Machine.trace (useStep session) w es) ∧
          KeptAlive timeout (Machine.trace (useStep session) w es)) := by
  obtain ⟨⟨row, hget, hfinished, hreading, hclock, hcreated⟩, hcalls⟩ := hstart
  have hno (p : UseCall → Prop) (call : UseCallId) (c : UseCall) (hc : w.calls call = some c) :
      p c := by
    rw [hcalls call] at hc
    cases hc
  have hread : ReadFromClock session timeout w :=
    ⟨htimeout, ⟨_, _, useOf_of_get hget, Int.le_of_eq hreading.symm⟩, hno _⟩
  have hused : Used session row.createdAt w := by
    refine ⟨Int.le_trans hcreated hclock, _, useOf_of_get hget, ?_, hno _⟩
    rw [hfinished]
    exact Int.lt_add_of_pos_right _ (by decide)
  have hclockStep : ∀ w e, ReadFromClock session timeout w → True →
      ReadFromClock session timeout (useStep session w e).1 :=
    fun w e h _ => useStep_readFromClock w e h
  constructor
  · intro x hx call row' userActive seen hevent hcall hunused
    obtain ⟨hpre, -, hout⟩ :=
      Machine.trace_invariant hclockStep (Machine.guarded_true w es) hread hx
    have hreference : reference row' ≤ x.pre.lastReading := hpre.calls call _ hcall
    have hunused' : seconds (timeout + 1) ≤ x.pre.clock - reference row' :=
      Int.le_trans hunused (Int.sub_le_sub_left hreference _)
    have hpositive : 0 < timeout := Int.lt_of_lt_of_le (by decide) hminute
    obtain ⟨hrefused, hidle⟩ :=
      @refused_of_unused session _ _ _ _ userActive hpositive hpre.settings hunused'
    refine ⟨?_, hidle⟩
    rw [hout, hevent]
    simp only [useStep, hcall]
    cases hdecide : decideResolve x.pre.db x.pre.clock session row' userActive with
    | mk answer db =>
      rw [hdecide] at hrefused
      cases hrefused
      rfl
  · intro hguard
    constructor
    · intro x hx t ht
      obtain ⟨hpre, -, -⟩ := Machine.trace_invariant
        (fun w e h horder => useStep_used w e h horder) hguard hused hx
      exact lastUsedAt_moves (useStep_moves session x.pre x.event) hpre ht
    · intro x hx call row' userActive seen hevent hcall hgap
      obtain ⟨hpre, -, -⟩ := Machine.trace_invariant
        (fun w e h horder => useStep_used w e h horder) hguard hused hx
      obtain ⟨hclockPre, -, -⟩ :=
        Machine.trace_invariant hclockStep (Machine.guarded_true w es) hread hx
      obtain ⟨used, -, -, hcallsPre⟩ := hpre.row
      exact refusedAsIdle_of_seen hclockPre.settings (hcallsPre call _ hcall) hgap

/-! ## A slow touch -/

/-- One user who has just signed in, where sessions may be idle for 200 seconds. -/
def signedIn : UseWorld where
  db := { Database.empty with
    users := ⟨[plainUser 1 "ada" .user], by decide⟩
    sessions := ⟨[plainSession 7 1], by decide⟩
    serverSettings := { Database.empty.serverSettings with idleSessionTimeoutSecs := 200 } }
  clock := 0
  calls _ := none
  finished := 0
  lastReading := 0

private theorem starts_signedIn : Starts 7 signedIn :=
  ⟨⟨plainSession 7 1, by decide, by decide, by decide, by decide, by decide⟩, fun _ => rfl⟩

/-- Two requests overlap, and their touches write in the order of their samples, at 100 and at 120
seconds.  A third one reads the row 140 seconds after the second. -/
def orderlyTouches : List UseEvent :=
  [.advance (seconds 100), .readRow 1, .decide 1, .sample 1, .advance (seconds 120), .readRow 2,
    .decide 2, .sample 2, .readLastUsed 1, .readLastUsed 2, .write 1, .write 2,
    .advance (seconds 260), .readRow 3]

/-- The third request goes on, and the next one comes 201 seconds later. -/
def laterUse : List UseEvent :=
  orderlyTouches ++ [.decide 3, .advance (seconds 461), .readRow 4]

private theorem touching_of_two {es : List UseEvent}
    (hes : ∀ e ∈ es, e.call = none ∨ e.call = some 1 ∨ e.call = some 2) {call : UseCallId}
    (h : (Machine.run (useStep 7) signedIn es).calls call = some (.touching now)) :
    call = 1 ∨ call = 2 := by
  by_contra hother
  rw [not_or] at hother
  rw [run_calls_of_notMem fun e he => ?_] at h
  · cases h
  · rcases hes e he with hcall | hcall | hcall
    · rw [hcall]
      exact fun hsome => by cases hsome
    · rw [hcall]
      exact fun hsome => hother.1 (Option.some.inj hsome).symm
    · rw [hcall]
      exact fun hsome => hother.2 (Option.some.inj hsome).symm

private theorem orderlyTouches_first :
    InOrder (Machine.run (useStep 7) signedIn (orderlyTouches.take 10)) (.write 1) := by
  intro now hnow call' now' hnow'
  have hfirst : (Machine.run (useStep 7) signedIn (orderlyTouches.take 10)).calls 1 =
      some (.touching (seconds 100)) := by decide +kernel
  have hsecond : (Machine.run (useStep 7) signedIn (orderlyTouches.take 10)).calls 2 =
      some (.touching (seconds 120)) := by decide +kernel
  cases hfirst.symm.trans hnow
  rcases touching_of_two (by decide) hnow' with rfl | rfl
  · cases hfirst.symm.trans hnow'
    exact Int.le_refl _
  · cases hsecond.symm.trans hnow'
    decide

private theorem orderlyTouches_second :
    InOrder (Machine.run (useStep 7) signedIn (orderlyTouches.take 11)) (.write 2) := by
  intro now hnow call' now' hnow'
  have hfirst : (Machine.run (useStep 7) signedIn (orderlyTouches.take 11)).calls 1 = none := by
    decide +kernel
  rcases touching_of_two (by decide) hnow' with rfl | rfl
  · cases hfirst.symm.trans hnow'
  · cases hnow.symm.trans hnow'
    exact Int.le_refl _

/-- The third request is not refused as idle, and the fourth is. -/
theorem session_use_of_overlapping_requests :
    Machine.Guarded (useStep 7) InOrder signedIn (laterUse ++ [.decide 4]) ∧
      NeverEarlier 7 (Machine.trace (useStep 7) signedIn (laterUse ++ [.decide 4])) ∧
      refusedAsIdle (Machine.run (useStep 7) signedIn orderlyTouches).db (seconds 260)
        { plainSession 7 1 with lastUsedAt := some (seconds 120) } true = false ∧
      refusedAsIdle (Machine.run (useStep 7) signedIn laterUse).db (seconds 461)
        { plainSession 7 1 with lastUsedAt := some (seconds 120) } true = true := by
  have hguard : Machine.Guarded (useStep 7) InOrder signedIn (laterUse ++ [.decide 4]) :=
    ⟨trivial, trivial, trivial, trivial, trivial, trivial, trivial, trivial, trivial, trivial,
      orderlyTouches_first, orderlyTouches_second, trivial, trivial, trivial, trivial, trivial,
      trivial, trivial⟩
  obtain ⟨hunused, hordered⟩ :=
    @session_use 7 signedIn starts_signedIn 200 rfl (by decide) (laterUse ++ [.decide 4])
  obtain ⟨hnever, hkept⟩ := hordered hguard
  refine ⟨hguard, hnever, ?_, ?_⟩
  · have hcall : (Machine.run (useStep 7) signedIn orderlyTouches).calls 3 =
        some (.resolving { plainSession 7 1 with lastUsedAt := some (seconds 120) } true
          (seconds 120)) := by decide +kernel
    have hstep := @Machine.mem_trace_last _ _ _ (useStep 7) signedIn orderlyTouches (.decide 3)
    have hsplit := @Machine.trace_append _ _ _ (useStep 7) signedIn
      (orderlyTouches ++ [.decide 3]) [.advance (seconds 461), .readRow 4, .decide 4]
    have hmem := List.mem_append_left (Machine.trace (useStep 7)
      (Machine.run (useStep 7) signedIn (orderlyTouches ++ [.decide 3]))
      [.advance (seconds 461), .readRow 4, .decide 4]) hstep
    rw [← hsplit] at hmem
    exact hkept _ hmem 3 _ true (seconds 120) rfl hcall (by decide +kernel)
  · have hcall : (Machine.run (useStep 7) signedIn laterUse).calls 4 =
        some (.resolving { plainSession 7 1 with lastUsedAt := some (seconds 120) } true
          (seconds 120)) := by decide +kernel
    have hstep := @Machine.mem_trace_last _ _ _ (useStep 7) signedIn laterUse (.decide 4)
    exact (hunused _ hstep 4 _ true (seconds 120) rfl hcall (by decide +kernel)).2 rfl
      (by decide +kernel) rfl

/-- Two requests read the row before either writes, the second at 161 seconds. -/
def overlappingTouches : List UseEvent :=
  [.advance (seconds 100), .readRow 1, .decide 1, .sample 1, .advance (seconds 161), .readRow 2,
    .decide 2, .sample 2, .readLastUsed 1, .readLastUsed 2, .write 2]

/-- The first request then writes 100 seconds over 161, and a request at 301 seconds, 140 after the
second, is refused as idle. -/
theorem slow_touch_ends_session :
    let run := Machine.run (useStep 7) signedIn
    let taken := Machine.trace (useStep 7) signedIn
    lastUsedAt 7 (run overlappingTouches) = some (seconds 161) ∧
      lastUsedAt 7 (run (overlappingTouches ++ [.write 1])) = some (seconds 100) ∧
      ¬ NeverEarlier 7 (taken (overlappingTouches ++ [.write 1])) ∧
      ¬ KeptAlive 200 (taken (overlappingTouches ++
        [.write 1, .advance (seconds 301), .readRow 3] ++ [.decide 3])) := by
  have hbefore : lastUsedAt 7 (Machine.run (useStep 7) signedIn overlappingTouches) =
      some (seconds 161) := by decide +kernel
  have hafter : lastUsedAt 7 (Machine.run (useStep 7) signedIn
      (overlappingTouches ++ [.write 1])) = some (seconds 100) := by decide +kernel
  have hcall : (Machine.run (useStep 7) signedIn (overlappingTouches ++
      [.write 1, .advance (seconds 301), .readRow 3])).calls 3 =
        some (.resolving { plainSession 7 1 with lastUsedAt := some (seconds 100) } true
          (seconds 161)) := by decide +kernel
  refine ⟨hbefore, hafter, ?_, ?_⟩
  · intro h
    have hstep := @Machine.mem_trace_last _ _ _ (useStep 7) signedIn overlappingTouches (.write 1)
    obtain ⟨t', ht', hle⟩ := h _ hstep (seconds 161) hbefore
    rw [Machine.run_append] at hafter
    have hsame : t' = seconds 100 := Option.some.inj (ht'.symm.trans hafter)
    rw [hsame] at hle
    exact absurd hle (by decide)
  · intro h
    have hstep := @Machine.mem_trace_last _ _ _ (useStep 7) signedIn (overlappingTouches ++
      [.write 1, .advance (seconds 301), .readRow 3]) (.decide 3)
    have hkept := h _ hstep 3 _ true (seconds 161) rfl hcall (by decide +kernel)
    revert hkept
    decide +kernel

end SuiId.SessionUse
