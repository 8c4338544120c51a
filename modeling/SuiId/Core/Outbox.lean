import SuiId.Store.Outbox
import SuiId.Store.Sealed

/-!
# The outbox worker

`OutboxWorker` of `communication/mail/outbox.rs`.  The worker resets the rows that are stuck, once,
when it starts, and then claims one row after the other.

`process_row` is cut at its network send.  `attempt` is what comes before and what the send returns,
and decides on the write; `record` is the write, whose error the worker discards.  The process may
exit at any point.  It also goes down where `process_row` panics: `redact_smtp_error` cuts the text
of the error after 200 bytes, and a cut inside a character panics.

The mail that a payload stands for is the argument `decode`, since the JSON reader is not part of
the repository.
-/

namespace SuiId

open Lib

/-- The mail of a row.  The other fields of `OutgoingMail` are for the request thread. -/
structure OutgoingMail where
  toAddress : String
  subject : String
  textBody : String
  htmlBody : Option String
deriving DecidableEq, Repr

/-- Seconds to wait before each retry. -/
def backoffSecs : List Int := [30, 120, 600, 3600, 21600]

/-- When the mail is tried again. -/
def nextAttemptAt (attemptCount : Int) (now : DateTime) : DateTime :=
  now + seconds ((backoffSecs[attemptCount.toNat]?).getD 21600)

/-- The characters that make up the first `n` bytes, if the cut is between two characters. -/
def cutBytes : Nat → List Char → Option (List Char)
  | 0, _ => some []
  | _ + 1, [] => none
  | n + 1, c :: cs =>
    if c.utf8Size ≤ n + 1 then (cutBytes (n + 1 - c.utf8Size) cs).map (c :: ·) else none

/-- `redact_smtp_error`, with none for a panic. -/
def redactSmtpError (s : String) : Option String :=
  let cleaned := s.toList.map fun c => if c = '\r' ∨ c = '\n' then ' ' else c
  if 200 < (String.ofList cleaned).utf8ByteSize then
    (cutBytes 200 cleaned).map fun kept => String.ofList kept ++ "…"
  else some (String.ofList cleaned)

/-- `OutboxWorker`. -/
structure OutboxWorker where
  P : Primitives
  key : MasterKey
  decode : Bytes → Except String OutgoingMail
  maxAttempts : Nat

namespace OutboxWorker

/-- What `process_row` has decided to write. -/
inductive Outcome where
  | sent
  | failed (error : String)
  | retry (error : String) (nextAttemptAt : DateTime)
deriving DecidableEq, Repr

/-- `process_row` up to its write, with none for a panic.  `send` is the SMTP relay: it returns or
it fails with a text. -/
def processRow (worker : OutboxWorker) (row : EmailOutboxRow) (now : DateTime)
    (send : OutgoingMail → Except String Unit) : Option Outcome :=
  match openBytes worker.P worker.key row.payloadEnc EmailOutbox.payloadAad with
  | .error _ => some (.failed "decryption_error")
  | .ok payloadBytes =>
    match worker.decode payloadBytes with
    | .error e => some (.failed ("deserialise_error: " ++ e))
    | .ok mail =>
      match send mail with
      | .ok () => some .sent
      | .error e =>
        let attempt := row.attemptCount + 1
        (redactSmtpError e).map fun error =>
          if (worker.maxAttempts : Int) ≤ attempt then .failed error
          else .retry error (nextAttemptAt attempt now)

/-- The write of `process_row`. -/
def Outcome.write (outbox : EmailOutbox) (id : Nat) (now : DateTime) : Outcome → EmailOutbox
  | .sent => outbox.markSent id now
  | .failed error => outbox.markPermanentlyFailed id error now
  | .retry error next => outbox.recordFailure id error next now

/-- Where the worker stands. -/
inductive Phase where
  /-- No worker runs. -/
  | down
  /-- Between rows. -/
  | idle
  | claimed (row : EmailOutboxRow)
  | decided (row : EmailOutboxRow) (now : DateTime) (outcome : Outcome)
deriving DecidableEq

/-- The table, and where the worker is. -/
structure State where
  outbox : EmailOutbox
  phase : Phase

/-- A mail, or a step of the worker. -/
inductive Event where
  | enqueue (row : EmailOutboxRow)
  /-- `run` begins.  The clock is read twice; `stored` says that the reset went through. -/
  | start (clock now : DateTime) (stored : Bool)
  | claim (now : DateTime) (row : EmailOutboxRow)
  | attempt (now : DateTime) (send : OutgoingMail → Except String Unit)
  | record (stored : Bool)
  /-- The process exits. -/
  | exit

/-- What an event answers. -/
inductive Answer where
  | ignored
  | done
  | panicked
deriving DecidableEq, Repr

/-- An empty table, and no worker. -/
def State.new : State := ⟨∅, .down⟩

/-- One event. -/
def step (worker : OutboxWorker) (w : State) : Event → State × Answer
  | .enqueue row =>
    match w.outbox.enqueue row with
    | .ok outbox => ({ w with outbox }, .done)
    | .error _ => (w, .ignored)
  | .start clock now stored =>
    match w.phase with
    | .down =>
      let outbox :=
        if stored then w.outbox.requeueStuckSending (clock - seconds 60) now else w.outbox
      (⟨outbox, .idle⟩, .done)
    | _ => (w, .ignored)
  | .claim now row =>
    match w.phase with
    | .idle =>
      if w.outbox.get? row.id = some row ∧ w.outbox.claimable now row = true then
        let (outbox, claimed) := w.outbox.claim now row
        (⟨outbox, .claimed claimed⟩, .done)
      else (w, .ignored)
    | _ => (w, .ignored)
  | .attempt now send =>
    match w.phase with
    | .claimed row =>
      match worker.processRow row now send with
      | some outcome => ({ w with phase := .decided row now outcome }, .done)
      | none => ({ w with phase := .down }, .panicked)
    | _ => (w, .ignored)
  | .record stored =>
    match w.phase with
    | .decided row now outcome =>
      let outbox := if stored then outcome.write w.outbox row.id now else w.outbox
      (⟨outbox, .idle⟩, .done)
    | _ => (w, .ignored)
  | .exit => ({ w with phase := .down }, .done)

end OutboxWorker

end SuiId
