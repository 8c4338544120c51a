import Mathlib.Logic.Function.Basic
import SuiId.Core.Session
import SuiId.Lib.Machine

/-!
# Requests on one session

An extractor runs `session::resolve` and then `session::touch_last_used`.  Requests overlap, so each
of their statements is a step: the row that `resolve` reads, its decision at a clock that it samples
after that, the time that the touch samples, the row that the touch reads, and its write.

`finished` and `lastReading` are what has happened.  No step reads them, nor the time that a call
keeps in `seen`.
-/

namespace SuiId.SessionUse

open Lib

/-! ## The two functions, cut at their statements -/

/-- `resolve` behind its read of the row. -/
def decideResolve (db : Database) (now : DateTime) (id : SessionId) (row : SessionRow)
    (userActive : Bool) : CoreResult UserId × Database :=
  if row.revokedAt.isSome || row.expiresAt ≤ now || !userActive then (.error .unauthenticated, db)
  else if pastIdleTimeout db row now then
    match revokeSessionIdleTimeout db row.userId id now with
    | .ok (_, db) => (.error .unauthenticated, db)
    | .error _ => (.error .unauthenticated, db)
  else (.ok row.userId, db)

/-- Is the row old enough for the touch to write? -/
def stale (row : SessionRow) (now : DateTime) : Bool :=
  row.lastUsedAt.all fun t => lastUsedAtThrottleSecs ≤ numSeconds (now - t)

private theorem lastUsed_id (at_ : DateTime) (s : SessionRow) :
    { s with lastUsedAt := some at_ }.id = s.id := rfl

/-- `sessions::touch_last_used`. -/
def writeLastUsed (db : Database) (id : SessionId) (at_ : DateTime) : Database :=
  { db with
    sessions := db.sessions.update (fun s => s.id == id)
      (fun s => { s with lastUsedAt := some at_ }) (lastUsed_id at_) }

/-! ## Steps -/

abbrev UseCallId := Nat

/-- What a request still has to do. -/
inductive UseCall where
  /-- It has read the row, when touches up to the time `seen` were finished. -/
  | resolving (row : SessionRow) (userActive : Bool) (seen : DateTime)
  | resolved
  | sampled (now : DateTime)
  /-- It has read a row that is old enough. -/
  | touching (now : DateTime)
deriving DecidableEq

/-- The database, the clock and the requests, with what a run has read so far. -/
structure UseWorld where
  db : Database
  clock : DateTime
  calls : UseCallId → Option UseCall
  /-- The latest time of a touch that is finished. -/
  finished : DateTime
  /-- The latest time that a request has read from the clock. -/
  lastReading : DateTime

/-- A statement of a request, or the clock goes on. -/
inductive UseEvent where
  /-- The clock goes on. -/
  | advance (time : DateTime)
  | readRow (call : UseCallId)
  | decide (call : UseCallId)
  | sample (call : UseCallId)
  | readLastUsed (call : UseCallId)
  | write (call : UseCallId)

namespace UseWorld

/-- The request goes on. -/
def goesOn (w : UseWorld) (call : UseCallId) (next : UseCall) : UseWorld :=
  { w with calls := Function.update w.calls call (some next) }

/-- The request is over. -/
def ends (w : UseWorld) (call : UseCallId) : UseWorld :=
  { w with calls := Function.update w.calls call none }

/-- A touch with this time is through. -/
def touched (w : UseWorld) (call : UseCallId) (now : DateTime) : UseWorld :=
  { w.ends call with finished := max w.finished now }

end UseWorld

/-- One statement of one request, or none if it is not its turn.  `resolve` answers. -/
def useStep (session : SessionId) (w : UseWorld) : UseEvent → UseWorld × Option (CoreResult UserId)
  | .advance time => ({ w with clock := max w.clock time }, none)
  | .readRow call =>
    match w.calls call with
    | some _ => (w, none)
    | none =>
      match Sessions.getWithUserActive w.db session with
      | none => (w, some (.error .unauthenticated))
      | some (row, userActive) => (w.goesOn call (.resolving row userActive w.finished), none)
  | .decide call =>
    match w.calls call with
    | some (.resolving row userActive _) =>
      let w := { w with lastReading := max w.lastReading w.clock }
      match decideResolve w.db w.clock session row userActive with
      | (.ok user, db) => ({ w.goesOn call .resolved with db }, some (.ok user))
      | (.error e, db) => ({ w.ends call with db }, some (.error e))
    | _ => (w, none)
  | .sample call =>
    match w.calls call with
    | some .resolved =>
      ({ w.goesOn call (.sampled w.clock) with lastReading := max w.lastReading w.clock }, none)
    | _ => (w, none)
  | .readLastUsed call =>
    match w.calls call with
    | some (.sampled now) =>
      match w.db.sessions.get? session with
      | none => (w.ends call, none)
      | some row =>
        if stale row now then (w.goesOn call (.touching now), none) else (w.touched call now, none)
    | _ => (w, none)
  | .write call =>
    match w.calls call with
    | some (.touching now) =>
      ({ w.touched call now with db := writeLastUsed w.db session now }, none)
    | _ => (w, none)

end SuiId.SessionUse
