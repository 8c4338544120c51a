import SuiId.Lib.Timestamps
import SuiId.Store.Schema

/-!
# The mail outbox

`repos/email_outbox.rs`: a queue of mails.  A row is `queued` until the worker claims it,
`sending` while the worker has it, and `sent` or `failed` in the end.

Every write names its row by its identifier and does not look at the state that the row is in.
-/

namespace SuiId

open Lib

/-- The table `email_outbox`. -/
abbrev EmailOutbox := Table EmailOutboxRow.id

namespace EmailOutbox

/-- `enqueue_within_tx`.  The row starts as `queued` and without attempts, whatever it says. -/
def enqueue (outbox : EmailOutbox) (row : EmailOutboxRow) : StoreResult EmailOutbox :=
  match outbox.insert? { row with state := .queued, attemptCount := 0, lastError := none } with
  | some outbox' => .ok outbox'
  | none => .error .db

/-- The row is queued and due. -/
def eligible (now : DateTime) (row : EmailOutboxRow) : Bool :=
  row.state = .queued && row.nextAttemptAt ≤ now

/-- The rows that `ORDER BY next_attempt_at ASC LIMIT 1` may return: any of the first, where there
are several. -/
def claimable (outbox : EmailOutbox) (now : DateTime) (row : EmailOutboxRow) : Bool :=
  eligible now row &&
    outbox.rows.all fun r => !eligible now r || row.nextAttemptAt ≤ r.nextAttemptAt

/-- `claim_one_eligible`, for the row that the query has returned. -/
def claim (outbox : EmailOutbox) (now : DateTime) (row : EmailOutboxRow) :
    EmailOutbox × EmailOutboxRow :=
  (outbox.update (fun r => r.id = row.id) fun r => { r with state := .sending, updatedAt := now },
    { row with state := .sending, updatedAt := now })

/-- `mark_sent`. -/
def markSent (outbox : EmailOutbox) (id : Nat) (now : DateTime) : EmailOutbox :=
  outbox.update (fun r => r.id = id) fun r => { r with state := .sent, updatedAt := now }

/-- `record_failure`. -/
def recordFailure (outbox : EmailOutbox) (id : Nat) (error : String)
    (nextAttemptAt now : DateTime) : EmailOutbox :=
  outbox.update (fun r => r.id = id) fun r =>
    { r with
      state := .queued, attemptCount := r.attemptCount + 1, lastError := some error,
      nextAttemptAt := nextAttemptAt, updatedAt := now }

/-- `mark_permanently_failed`. -/
def markPermanentlyFailed (outbox : EmailOutbox) (id : Nat) (error : String) (now : DateTime) :
    EmailOutbox :=
  outbox.update (fun r => r.id = id) fun r =>
    { r with
      state := .failed, attemptCount := r.attemptCount + 1, lastError := some error,
      updatedAt := now }

/-- A row is stuck where it has been `sending` since before `threshold`. -/
def stuck (threshold : DateTime) (row : EmailOutboxRow) : Bool :=
  row.state = .sending && row.updatedAt < threshold

/-- `requeue_stuck_sending`. -/
def requeueStuckSending (outbox : EmailOutbox) (threshold now : DateTime) : EmailOutbox :=
  outbox.update (stuck threshold) fun r =>
    { r with state := .queued, nextAttemptAt := now, updatedAt := now }

end EmailOutbox

/-! ## As SQLite sees it

The times of `email_outbox` are texts, and the queries compare them as texts.  `rusqlite` writes a
time with a space between the date and the clock, in the table and in a parameter alike.  The cutoff
of `count_stuck_pending` is a text that `to_rfc3339` has written, with a `T`.
-/

/-- `%F %T%.f%:z`, the text of a `DateTime<Utc>` in a column or a parameter. -/
def sqlText (t : DateTime) : List Char := Timestamps.render ' ' t

/-- `to_rfc3339`. -/
def rfc3339 (t : DateTime) : List Char := Timestamps.render 'T' t

namespace EmailOutbox

/-- `eligible` as SQL compares the stored texts. -/
def eligibleText (now : DateTime) (row : EmailOutboxRow) : Bool :=
  row.state = .queued && decide (¬ sqlText now < sqlText row.nextAttemptAt)

/-- The rows that the query of `claim_one_eligible` may return. -/
def claimableText (outbox : EmailOutbox) (now : DateTime) (row : EmailOutboxRow) : Bool :=
  eligibleText now row && outbox.rows.all fun r =>
    !eligibleText now r || decide (¬ sqlText r.nextAttemptAt < sqlText row.nextAttemptAt)

/-- `stuck` as SQL compares the stored texts. -/
def stuckText (threshold : DateTime) (row : EmailOutboxRow) : Bool :=
  row.state = .sending && decide (sqlText row.updatedAt < sqlText threshold)

/-- `requeue_stuck_sending`. -/
def requeueStuckSendingText (outbox : EmailOutbox) (threshold now : DateTime) : EmailOutbox :=
  outbox.update (stuckText threshold) fun r =>
    { r with state := .queued, nextAttemptAt := now, updatedAt := now }

/-- `count_stuck_pending`. -/
def countStuckPending (outbox : EmailOutbox) (stuckThreshold : Int) (now : DateTime) : Nat :=
  let cutoff := rfc3339 (now - stuckThreshold)
  outbox.count fun r => r.state = .queued && decide (sqlText r.createdAt < cutoff)

end EmailOutbox

end SuiId
