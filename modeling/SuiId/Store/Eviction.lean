import SuiId.Lib.Oldest
import SuiId.Store.Federation

/-!
# Eviction over the session cap

Every sign-in inserts its session and then revokes the oldest active sessions of
the user over `max_concurrent_sessions`, in the same transaction.  The order is
`created_at`, and rows of the same instant keep the order of their insertion (the
index on `(user_id, created_at)` ends in the row identifier).

`Opened` is what the sign-ins have in common: the row is appended and the eviction
runs.  From it follow the count of active sessions after the commit, what becomes
of the sessions of other users, and when the new row is itself evicted.
-/

namespace SuiId

open Lib Lib.Result

namespace Sessions

/-- An active session of the user. -/
def activeOf (user : UserId) (now : DateTime) (s : SessionRow) : Bool :=
  s.userId == user && activeAt s now

/-- The sessions that `evict_over_cap_within_tx` revokes. -/
def evicted (db : Database) (user : UserId) (now : DateTime) : List SessionRow :=
  oldestActiveForUser db user now
    ((db.sessions.count (activeOf user now) : Int) - db.serverSettings.maxConcurrentSessions).toNat

/-- The row after a revocation. -/
def revokedRow (now : DateTime) (s : SessionRow) : SessionRow := { s with revokedAt := some now }

/-! ## What the eviction writes -/

theorem revoke_rows (db : Database) (id : SessionId) (now : DateTime) :
    (revoke db id now).sessions.rows = db.sessions.rows.map fun s =>
      if s.id == id && s.revokedAt.isNone then revokedRow now s else s := by
  simp only [revoke, revokeWhere]
  rfl

theorem revoke_all_rows (ss : List SessionRow) (db : Database) (now : DateTime) :
    (ss.foldl (fun db s => revoke db s.id now) db).sessions.rows =
      db.sessions.rows.map fun s =>
        if ss.any (·.id == s.id) && s.revokedAt.isNone then revokedRow now s else s := by
  induction ss generalizing db with
  | nil => simp
  | cons x ss ih =>
    rw [List.foldl_cons, ih, revoke_rows, List.map_map]
    apply List.map_congr_left
    intro s _
    have hid : (revokedRow now s).id = s.id := rfl
    have hrevoked : (revokedRow now s).revokedAt.isNone = false := rfl
    by_cases hx : s.id = x.id
    · cases hnone : s.revokedAt.isNone with
      | true => simp [Function.comp, hx, hnone, hrevoked]
      | false => simp [Function.comp, hx, hnone]
    · have hx' : ¬ x.id = s.id := fun h => hx h.symm
      simp [Function.comp, hx, hx']

theorem mem_evicted {db : Database} {user : UserId} {now : DateTime} {s : SessionRow}
    (h : s ∈ evicted db user now) : s ∈ db.sessions ∧ activeOf user now s = true := by
  have hmem := List.mem_mergeSort.mp (List.mem_of_mem_take h)
  exact List.mem_filter.mp hmem

/-- The eviction revokes the evicted rows and writes nothing else. -/
theorem evictOverCap_rows {db : Database} {user : UserId} {now : DateTime}
    (hcap : 0 < db.serverSettings.maxConcurrentSessions) :
    (evictOverCap db user now).2.sessions.rows = db.sessions.rows.map fun s =>
      if s ∈ evicted db user now then revokedRow now s else s := by
  unfold evictOverCap
  dsimp only
  split
  · rename_i hwithin
    simp only [Bool.or_eq_true, decide_eq_true_eq] at hwithin
    have hzero : ((db.sessions.count (activeOf user now) : Int) -
        db.serverSettings.maxConcurrentSessions).toNat = 0 := by
      have hcount : (db.sessions.count (activeOf user now) : Int) ≤
          db.serverSettings.maxConcurrentSessions := hwithin.resolve_left (by omega)
      omega
    have hnone : evicted db user now = [] := by
      rw [evicted, hzero, oldestActiveForUser, List.take_zero]
    simp [hnone]
  · show (List.foldl _ db (evicted db user now)).sessions.rows = _
    rw [revoke_all_rows]
    apply List.map_congr_left
    intro s hs
    -- Keys are unique, so the identifier decides.
    have hiff : ((evicted db user now).any (·.id == s.id) && s.revokedAt.isNone) = true ↔
        s ∈ evicted db user now := by
      simp only [Bool.and_eq_true, List.any_eq_true, beq_iff_eq]
      constructor
      · rintro ⟨⟨x, hx, hid⟩, -⟩
        exact Table.eq_of_key_eq (mem_evicted hx).1 hs hid ▸ hx
      · intro hmem
        have hactive := (mem_evicted hmem).2
        simp only [activeOf, activeAt, Bool.and_eq_true] at hactive
        exact ⟨⟨s, hmem, rfl⟩, hactive.2.1⟩
    by_cases hmem : s ∈ evicted db user now
    · rw [if_pos (hiff.mpr hmem), if_pos hmem]
    · rw [if_neg fun h => hmem (hiff.mp h), if_neg hmem]

section Left

variable {db : Database} {user : UserId} {now : DateTime}

/-- A row that the eviction leaves active was active and is not evicted. -/
theorem activeOf_after (s : SessionRow) :
    activeOf user now (if s ∈ evicted db user now then revokedRow now s else s) =
      (activeOf user now s && !decide (s ∈ evicted db user now)) := by
  by_cases hmem : s ∈ evicted db user now
  · simp [hmem, activeOf, activeAt, revokedRow]
  · simp [hmem]

/-- At most as many sessions as the cap are active afterwards. -/
theorem evictOverCap_count (hcap : 0 < db.serverSettings.maxConcurrentSessions) :
    ((evictOverCap db user now).2.sessions.count (activeOf user now) : Int) ≤
      db.serverSettings.maxConcurrentSessions := by
  have hactive : (evictOverCap db user now).2.sessions.count (activeOf user now) =
      (db.sessions.rows.filter (activeOf user now)).countP
        fun s => !decide (s ∈ evicted db user now) := by
    rw [Table.count, evictOverCap_rows hcap, List.countP_map, List.countP_filter]
    apply List.countP_congr
    intro s _
    simp only [Function.comp, activeOf_after, Bool.and_eq_true]
    exact and_comm
  have hcount := Oldest.countP_not_mem_take
    (List.mergeSort_perm (db.sessions.rows.filter (activeOf user now))
      fun a b => decide (a.createdAt ≤ b.createdAt))
    (db.sessions.rows_nodup.filter _)
    ((db.sessions.count (activeOf user now) : Int) -
      db.serverSettings.maxConcurrentSessions).toNat
  have hleft : (db.sessions.rows.filter (activeOf user now)).countP
      (fun s => !decide (s ∈ evicted db user now)) =
        (db.sessions.rows.filter (activeOf user now)).length -
          ((db.sessions.count (activeOf user now) : Int) -
            db.serverSettings.maxConcurrentSessions).toNat := hcount
  have hlength : (db.sessions.rows.filter (activeOf user now)).length =
      db.sessions.count (activeOf user now) := List.countP_eq_length_filter.symm
  rw [hactive, hleft, hlength]
  omega

/-- Sessions of other users stay as they are. -/
theorem evictOverCap_others (hcap : 0 < db.serverSettings.maxConcurrentSessions) {s : SessionRow}
    (hs : s ∈ db.sessions) (huser : s.userId ≠ user) :
    s ∈ (evictOverCap db user now).2.sessions := by
  rw [Table.mem_iff, evictOverCap_rows hcap]
  refine List.mem_map.mpr ⟨s, hs, if_neg fun hmem => ?_⟩
  have hactive := (mem_evicted hmem).2
  simp only [activeOf, Bool.and_eq_true, beq_iff_eq] at hactive
  exact huser hactive.1

end Left

/-! ## A sign-in -/

/-- The row of a new session. -/
def openedRow (session : SessionRow) (method : Option String) : SessionRow :=
  { session with lastStepUpMethod := method, stepUpFailureCount := 0 }

/-- The session is appended, with or without its step-up method, and the eviction
runs at the time of its creation. -/
def Opened (db db' : Database) (session : SessionRow) : Prop :=
  ∃ db₁ method,
    db₁.sessions.rows = db.sessions.rows ++ [openedRow session method] ∧
    db₁.serverSettings = db.serverSettings ∧
    db'.sessions = (evictOverCap db₁ session.userId session.createdAt).2.sessions

section Opened

variable {db db' : Database} {session : SessionRow}

theorem Opened.count (h : Opened db db' session)
    (hcap : 0 < db.serverSettings.maxConcurrentSessions) :
    (db'.sessions.count (activeOf session.userId session.createdAt) : Int) ≤
      db.serverSettings.maxConcurrentSessions := by
  obtain ⟨db₁, method, -, hsettings, hsessions⟩ := h
  rw [hsessions, ← hsettings]
  exact evictOverCap_count (hsettings ▸ hcap)

theorem Opened.others (h : Opened db db' session)
    (hcap : 0 < db.serverSettings.maxConcurrentSessions) {s : SessionRow} (hs : s ∈ db.sessions)
    (huser : s.userId ≠ session.userId) : s ∈ db'.sessions := by
  obtain ⟨db₁, method, hrows, hsettings, hsessions⟩ := h
  rw [hsessions]
  refine evictOverCap_others (hsettings ▸ hcap) ?_ huser
  rw [Table.mem_iff, hrows]
  exact List.mem_append_left _ hs

variable {db₁ : Database}

private theorem setStepUpMethod_rows (db : Database) (id : SessionId) (method : String) :
    (setStepUpMethod db id method).sessions.rows = db.sessions.rows.map fun s =>
      if (s.id == id) = true then { s with lastStepUpMethod := some method } else s := by
  simp only [setStepUpMethod]
  rfl

/-- An insertion and the eviction after it. -/
theorem opened_of_insert {stepUp : Bool} {method : String} (h : insert db session = .ok db₁) :
    Opened db (evictOverCap (if stepUp then setStepUpMethod db₁ session.id method else db₁)
      session.userId session.createdAt).2 session := by
  simp only [insert, bind_eq_ok, ensure_eq_ok, require_eq_ok, pure_eq_ok] at h
  obtain ⟨-, -, sessions, hinsert, rfl⟩ := h
  obtain ⟨hfresh, hrows⟩ := Table.insert?_eq_some.mp hinsert
  cases stepUp with
  | false => exact ⟨{ db with sessions }, none, hrows, rfl, rfl⟩
  | true =>
    refine ⟨setStepUpMethod { db with sessions } session.id method, some method, ?_, rfl, rfl⟩
    have hold : db.sessions.rows.map (fun s => if (s.id == session.id) = true then
        { s with lastStepUpMethod := some method } else s) = db.sessions.rows := by
      refine (List.map_congr_left fun s hs => ?_).trans (List.map_id _)
      exact if_neg fun hid => hfresh s hs (beq_iff_eq.mp hid)
    rw [setStepUpMethod_rows, hrows, List.map_append, hold]
    simp [openedRow]

/-- Writes to other tables do not matter. -/
theorem Opened.of_eq {db₀ : Database} (h : Opened db₀ db₁ session)
    (hbefore : db.sessions = db₀.sessions) (hsettings : db.serverSettings = db₀.serverSettings)
    (hafter : db'.sessions = db₁.sessions) : Opened db db' session := by
  obtain ⟨d, method, hrows, hd, hsessions⟩ := h
  exact ⟨d, method, hbefore ▸ hrows, hd.trans hsettings.symm, hafter.trans hsessions⟩

end Opened

end Sessions

/-! ## The commands -/

section Commands

open Sessions

variable {P : Primitives} {db db' : Database} {session : SessionRow} {evicted : Nat}

theorem Inserted.opened {stepUp : Bool} {method : String}
    (h : Inserted db db' session stepUp method) : Opened db db' session := by
  obtain ⟨d, d₁, log, hinsert, hsessions, hsettings, rfl⟩ := h
  exact (opened_of_insert hinsert).of_eq hsessions.symm hsettings.symm rfl

variable {attempt : AttemptId} {provider : ProviderId}

/-- L04. -/
theorem signInFederated_inserted {providerSlug : String}
    (h : signInFederated db attempt provider providerSlug session = .ok (evicted, db')) :
    Inserted db db' session false "" := by
  obtain ⟨event, db₁, log, hbody, rfl⟩ := classA_eq_ok h
  simp only [bind_eq_ok, ensure_eq_ok, pure_eq_ok, Prod.mk.injEq] at hbody
  obtain ⟨db₂, hcomplete, -, -, -, -, db₃, hlogin, db₄, hinsert, -, -, rfl⟩ := hbody
  obtain ⟨r, t, -, -, -, rfl⟩ := FederationLoginAttempt.complete_ok hcomplete
  obtain ⟨-, rfl⟩ := Users.updateWhere_ok hlogin
  exact ⟨_, db₄, log, hinsert, rfl, rfl, rfl⟩

/-- F04. -/
theorem provisionFederatedUser_inserted {user : UserRow} {link : FederationLinkRow}
    (h : provisionFederatedUser P db attempt provider user link session = .ok (evicted, db')) :
    Inserted db db' session false "" := by
  obtain ⟨event, db₁, log, hbody, rfl⟩ := classA_eq_ok h
  simp only [Users.create, FederationLink.insert, bind_eq_ok, ensure_eq_ok, require_eq_ok,
    pure_eq_ok, Prod.mk.injEq] at hbody
  obtain ⟨db₂, hcomplete, db₃, ⟨-, -, users, -, rfl⟩, db₄, hlink, db₅, hinsert, -, -, rfl⟩ := hbody
  obtain ⟨r, t, -, -, -, rfl⟩ := FederationLoginAttempt.complete_ok hcomplete
  obtain ⟨-, -, -, -, -, -, federationLink, -, rfl⟩ := hlink
  exact ⟨_, db₅, log, hinsert, rfl, rfl, rfl⟩

end Commands

end SuiId
