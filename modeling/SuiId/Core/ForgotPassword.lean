import SuiId.Core.ResetLinks

/-!
# The queue of forgotten passwords

`repos/forgot_password_requests.rs` and `ForgotPasswordWorker`.  The request path records an
address and looks nothing up.  One worker claims a row, runs `request_reset` for its address
and deletes the row, whatever has come of it.

The worker goes on beside the commands of `ResetLinks`, and `request_reset` is cut at its
accesses as it is there.  Any access may fail, which ends `request_reset` with an error, and
the process may stop between any two.  `request_reset` returns after its mail; what the mail
says, and how it is sent, is left out, since its failure is only recorded.
-/

namespace SuiId

open Lib

/-! ## The table -/

/-- The values of `state`. -/
inductive ForgotPasswordRequestState where
  | pending
  | processing
deriving DecidableEq, Repr

/-- `ForgotPasswordRequestRow`. -/
structure ForgotPasswordRequestRow where
  id : Nat
  state : ForgotPasswordRequestState
  email : String
  requesterIp : Option String
  createdAt : DateTime
  updatedAt : DateTime
deriving DecidableEq

/-- The table `forgot_password_requests`. -/
abbrev ForgotPasswordRequests := Table ForgotPasswordRequestRow.id

namespace ForgotPasswordRequests

variable (requests : ForgotPasswordRequests)

/-- `record`. -/
def record (id : Nat) (email : String) (requesterIp : Option String) (now : DateTime) :
    Option ForgotPasswordRequests :=
  requests.insert? ⟨id, .pending, email, requesterIp, now, now⟩

/-- The rows that `ORDER BY created_at ASC LIMIT 1` may return. -/
def claimable (row : ForgotPasswordRequestRow) : Bool :=
  row.state = .pending &&
    requests.rows.all fun r => r.state ≠ .pending || row.createdAt ≤ r.createdAt

/-- `claim_one`, for the row that the query has returned. -/
def claim (row : ForgotPasswordRequestRow) (now : DateTime) : ForgotPasswordRequests :=
  requests.update (fun r => r.id = row.id) fun r =>
    { r with state := .processing, updatedAt := now }

/-- `requeue_stuck_processing`. -/
def requeueStuckProcessing (now : DateTime) : ForgotPasswordRequests :=
  requests.update (fun r => r.state = .processing) fun r =>
    { r with state := .pending, updatedAt := now }

end ForgotPasswordRequests

/-! ## The worker -/

/-- What the worker does next. -/
inductive ForgotPasswordStage where
  /-- `requeue_stuck_processing`, at its start. -/
  | requeue
  | claim
  /-- `request_reset` for a claimed row, from its reading of the clock on. -/
  | claimed (row : ForgotPasswordRequestRow)
  | reset (row : ForgotPasswordRequestRow) (call : LinkCall)
  /-- `request_reset` has inserted a link, and sends it. -/
  | mail (row : ForgotPasswordRequestRow)
  | delete (row : ForgotPasswordRequestRow)

/-- The database, the queue, and the worker. -/
structure ForgotPasswordWorld where
  /-- The database with its clock, and the commands in flight. -/
  links : LinkWorld
  requests : ForgotPasswordRequests
  worker : Option ForgotPasswordStage

/-- A submission, a step of the worker, or one of another process. -/
inductive ForgotPasswordEvent where
  | record (id : Nat) (email : String) (requesterIp : Option String) (now : DateTime)
      (fails : Bool)
  /-- The next access of a command, or a write elsewhere. -/
  | command (e : LinkEvent)
  /-- The process starts, and the worker with it. -/
  | start (now : DateTime)
  | claim (row : ForgotPasswordRequestRow) (now : DateTime) (fails : Bool)
  /-- The worker takes its next step, other than a claim. -/
  | work (draw : LinkDraw) (fails : Bool)
  | stop (now : DateTime)

/-- Its clock value. -/
def ForgotPasswordEvent.now : ForgotPasswordEvent → DateTime
  | .record _ _ _ now _ => now
  | .command e => e.now
  | .start now => now
  | .claim _ now _ => now
  | .work draw _ => draw.now
  | .stop now => now

/-- What an event answers. -/
inductive ForgotPasswordAnswer where
  /-- The event is not what comes next, or its access has failed. -/
  | ignored
  | running
  | recorded (row : ForgotPasswordRequestRow)
  | command (out : LinkAnswer)
  /-- `request_reset` has returned for the row, with `Ok` or with an error. -/
  | returned (row : ForgotPasswordRequestRow) (ok : Bool)

/-- `request_reset`, which only the worker calls. -/
def LinkEvent.requestsReset : LinkEvent → Bool
  | .begin _ (.requestReset _ _) _ => true
  | _ => false

namespace ForgotPasswordWorld

/-- No worker runs. -/
def start (db : Database) (clock : DateTime) (requests : ForgotPasswordRequests) :
    ForgotPasswordWorld :=
  ⟨.start db clock, requests, none⟩

/-- The clock has moved. -/
def atTime (w : ForgotPasswordWorld) (now : DateTime) : ForgotPasswordWorld :=
  { w with links := { w.links with clock := now } }

/-- The same with this database. -/
def withDb (w : ForgotPasswordWorld) (db : Database) : ForgotPasswordWorld :=
  { w with links := { w.links with db } }

/-- The worker goes on. -/
def goOn (w : ForgotPasswordWorld) (stage : ForgotPasswordStage) :
    ForgotPasswordWorld × ForgotPasswordAnswer :=
  ({ w with worker := some stage }, .running)

/-- `request_reset` returns, and the row is deleted next. -/
def returns (w : ForgotPasswordWorld) (row : ForgotPasswordRequestRow) (ok : Bool) :
    ForgotPasswordWorld × ForgotPasswordAnswer :=
  ({ w with worker := some (.delete row) }, .returned row ok)

end ForgotPasswordWorld

section Steps

variable (P : Primitives) (rfc3339 : DateTime → String)

/-- The next step of the worker. -/
def ForgotPasswordWorld.work (w : ForgotPasswordWorld) (draw : LinkDraw) (fails : Bool) :
    ForgotPasswordStage → ForgotPasswordWorld × ForgotPasswordAnswer
  | .requeue =>
    if fails then w.goOn .claim
    else { w with requests := w.requests.requeueStuckProcessing draw.now }.goOn .claim
  | .claim => (w, .ignored)
  | .claimed row => w.goOn (.reset row (.resetRequested row.email row.requesterIp draw.now))
  | .reset row call =>
    if fails then w.returns row false
    else
      let result := call.advance P rfc3339 w.links.db draw
      match result.next, result.out with
      | some call, _ => w.goOn (.reset row call)
      | none, .issued => (w.withDb result.db).goOn (.mail row)
      | none, .notMailed => w.returns row true
      | none, _ => w.returns row false
  | .mail row => w.returns row !fails
  | .delete row =>
    if fails then w.goOn .claim
    else { w with requests := w.requests.delete fun r => r.id = row.id }.goOn .claim

/-- One event. -/
def forgotPasswordStep (w : ForgotPasswordWorld) (event : ForgotPasswordEvent) :
    ForgotPasswordWorld × ForgotPasswordAnswer :=
  let w := w.atTime event.now
  match event with
  | .record id email requesterIp now fails =>
    match fails, w.requests.record id email requesterIp now with
    | false, some requests =>
      ({ w with requests }, .recorded ⟨id, .pending, email, requesterIp, now, now⟩)
    | _, _ => (w, .ignored)
  | .command e =>
    if e.requestsReset then (w, .ignored)
    else
      let (links, out) := linkStep P rfc3339 w.links e
      ({ w with links }, .command out)
  | .start _ =>
    match w.worker with
    | none => w.goOn .requeue
    | some _ => (w, .ignored)
  | .claim row now fails =>
    match w.worker, fails with
    | some .claim, false =>
      if w.requests.get? row.id = some row ∧ w.requests.claimable row = true then
        { w with requests := w.requests.claim row now }.goOn (.claimed row)
      else (w, .ignored)
    | _, _ => (w, .ignored)
  | .work draw fails =>
    match w.worker with
    | some stage => w.work P rfc3339 draw fails stage
    | none => (w, .ignored)
  | .stop _ => ({ w with worker := none }, .running)

end Steps

end SuiId
