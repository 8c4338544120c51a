import SuiId.Store.Schema
import SuiId.Lib.Chain
import SuiId.Lib.Result
import Mathlib.Algebra.Ring.Nat

/-!
# The hash chain of the audit log

`audit.rs`: the bytes of a row that are hashed, the two ways a row is appended, and the
walk of `verify_chain_tail` over a window of the newest rows and the one before it.

A table of `audit_log` is its rows in the order of `seq`, which is unique.  SQLite may
refuse the query for the newest hash, and the row is appended all the same.  How a time
and a user id are written and read are parameters.  The events that the commands append
are in `SuiId.Store.Registry`; this module is about the columns they end up in.
-/

namespace SuiId

open Lib Lib.Result

/-! ## Rows -/

/-- `AuditLogRow`, as `audit.rs` hashes it. -/
structure AuditEntry where
  at_ : DateTime
  actor : Option UserId
  action : String
  target : Option String
  result : String
  note : Option String

/-- A row of `audit_log`. -/
structure AuditColumns where
  seq : Int
  at_ : String
  actor : Option String
  action : String
  target : Option String
  result : String
  note : Option String
  prevHash : String
  hash : String
deriving DecidableEq, Repr

/-- How the columns are written and read: the text of a time in the table and in the
hash, and the text of a user id. -/
structure AuditCodec where
  showAt : DateTime → String
  parseAt : String → Option DateTime
  rfc3339 : DateTime → String
  showUuid : UserId → String
  parseUuid : String → Option UserId

/-- The table, oldest row first. -/
structure AuditLog where
  rows : List AuditColumns
  sorted : rows.Pairwise fun r r' => r.seq < r'.seq

namespace Audit

variable (P : Primitives) (C : AuditCodec)

/-! ## What is hashed -/

/-- `u64::to_be_bytes`. -/
def toBeBytes (n : Nat) : Bytes :=
  [7, 6, 5, 4, 3, 2, 1, 0].map fun i => UInt8.ofNat (n / 256 ^ i)

/-- `write_field`. -/
def writeField (field : Bytes) : Bytes := toBeBytes field.length ++ field

/-- `canonical_bytes`. -/
def canonicalBytes (row : AuditEntry) : Bytes :=
  writeField (utf8 (C.rfc3339 row.at_)) ++
    (writeField (utf8 ((row.actor.map C.showUuid).getD "")) ++
      (writeField (utf8 row.action) ++
        (writeField (utf8 (row.target.getD "")) ++
          (writeField (utf8 row.result) ++ writeField (utf8 (row.note.getD ""))))))

/-- A lower-case hexadecimal digit. -/
def hexDigit (n : Nat) : Char := if n < 10 then Char.ofNat (48 + n) else Char.ofNat (87 + n)

/-- `hex_lower`. -/
def hexLower (bytes : Bytes) : String :=
  String.ofList (bytes.flatMap fun b => [hexDigit (b.toNat / 16), hexDigit (b.toNat % 16)])

/-- `compute_hash`. -/
def computeHash (prevHash : String) (row : AuditEntry) : String :=
  hexLower (P.sha256 (utf8 prevHash ++ canonicalBytes C row))

/-! ## Appending -/

/-- The hash of the newest row. -/
def headHash (log : AuditLog) : String := (log.rows.getLast?.map (·.hash)).getD ""

/-- The next `seq`. -/
def nextSeq (log : AuditLog) : Int := (log.rows.getLast?.map (·.seq + 1)).getD 1

/-- The query for the newest hash. -/
def queryHead (refused : Option StoreError) (log : AuditLog) : StoreResult String :=
  match refused with
  | some e => .error e
  | none => .ok (headHash log)

/-- The hash that the next row is linked to.  `unwrap_or_default` takes any error for an
empty table. -/
def linkHash (refused : Option StoreError) (log : AuditLog) : String :=
  match queryHead refused log with
  | .ok hash => hash
  | .error _ => ""

/-- The link is right when the query answers or there is nothing to link to. -/
theorem linkHash_eq_iff {refused : Option StoreError} {log : AuditLog} :
    linkHash refused log = headHash log ↔ refused = none ∨ headHash log = "" := by
  cases refused with
  | none => exact ⟨fun _ => .inl rfl, fun _ => rfl⟩
  | some e =>
    constructor
    · intro h
      exact .inr h.symm
    · intro h
      exact (h.resolve_left fun hnone => by cases hnone).symm

/-- The row an entry becomes. -/
def newColumns (refused : Option StoreError) (log : AuditLog) (row : AuditEntry) : AuditColumns :=
  { seq := nextSeq log, at_ := C.showAt row.at_, actor := row.actor.map C.showUuid
    action := row.action, target := row.target, result := row.result, note := row.note
    prevHash := linkHash refused log, hash := computeHash P C (linkHash refused log) row }

theorem lt_nextSeq {log : AuditLog} {r : AuditColumns} (hr : r ∈ log.rows) :
    r.seq < nextSeq log := by
  obtain ⟨rows, sorted⟩ := log
  cases rows using List.reverseRecOn with
  | nil => cases hr
  | append_singleton rows last =>
    have hnext : nextSeq ⟨rows ++ [last], sorted⟩ = last.seq + 1 := by simp [nextSeq]
    rw [hnext]
    rcases List.mem_append.mp hr with hr | hr
    · have hlt := (List.pairwise_append.mp sorted).2.2 r hr last (by simp)
      omega
    · rw [List.mem_singleton.mp hr]
      omega

/-- `append_within_tx`, inside a transaction that commits. -/
def appendWithinTx (refused : Option StoreError) (log : AuditLog) (row : AuditEntry) :
    AuditLog where
  rows := log.rows ++ [newColumns P C refused log row]
  sorted := by
    refine List.pairwise_append.mpr ⟨log.sorted, by simp, ?_⟩
    intro r hr r' hr'
    rw [List.mem_singleton.mp hr']
    exact lt_nextSeq hr

/-- `append`: the same row in a transaction of its own. -/
def append (refused : Option StoreError) (log : AuditLog) (row : AuditEntry) : AuditLog :=
  appendWithinTx P C refused log row

/-- A transaction with a new row, which may fail, as may the query for the newest hash. -/
inductive LogEvent where
  /-- `append`. -/
  | append (row : AuditEntry) (headRefused : Option StoreError) (committed : Bool)
  /-- A command with `append_within_tx`. -/
  | command (row : AuditEntry) (headRefused : Option StoreError) (committed : Bool)

/-- A transaction that is rolled back leaves nothing.  It answers whether it committed. -/
def auditStep (log : AuditLog) : LogEvent → AuditLog × Bool
  | .append row refused true => (append P C refused log row, true)
  | .command row refused true => (appendWithinTx P C refused log row, true)
  | .append _ _ false | .command _ _ false => (log, false)

/-! ## Verifying -/

/-- `ChainVerifyReport`. -/
structure ChainVerifyReport where
  checked : Nat
  brokenAtSeq : Option Int
  legacyUnhashed : Nat
deriving DecidableEq, Repr

/-- A row as the verifier reads it. -/
structure ChainRow where
  seq : Int
  row : AuditEntry
  prev : String
  hash : String

/-- `read_actor`. -/
def readActor : Option String → StoreResult (Option UserId)
  | none => .ok none
  | some text => (require (C.parseUuid text) .db).map some

/-- A row whose time or actor does not parse is an error. -/
def readRow (r : AuditColumns) : StoreResult ChainRow := do
  let at_ ← require (C.parseAt r.at_) .db
  let actor ← readActor C r.actor
  pure ⟨r.seq, ⟨at_, actor, r.action, r.target, r.result, r.note⟩, r.prevHash, r.hash⟩

/-- `ORDER BY seq DESC LIMIT ?`; a negative limit is none. -/
def window (log : AuditLog) (limit : Int) : List AuditColumns :=
  if limit < 0 then log.rows.reverse else log.rows.reverse.take limit.toNat

/-- The newest row older than the window. -/
def boundary (log : AuditLog) (limit : Int) : Option AuditColumns :=
  match (window log limit).getLast? with
  | some oldest => (log.rows.filter fun r => r.seq < oldest.seq).getLast?
  | none => none

/-- What the walk carries from row to row. -/
structure ChainWalk where
  /-- No row comes before the one that is next. -/
  atStart : Bool
  expectedPrev : String
  expectedSeq : Option Int
  seenHashed : Bool
  report : ChainVerifyReport

/-- The walk has found a break. -/
def ChainWalk.broken (w : ChainWalk) (seq : Int) : ChainVerifyReport :=
  { w.report with brokenAtSeq := some seq }

/-- The loop of `verify_chain_tail`, oldest row first. -/
def walk (w : ChainWalk) : List ChainRow → ChainVerifyReport
  | [] => w.report
  | r :: rs =>
    if w.atStart && r.seq != 1 then w.broken r.seq
    else if w.expectedSeq.any (· != r.seq) then w.broken r.seq
    else
      let w := { w with atStart := false, expectedSeq := some (r.seq + 1) }
      if r.hash.isEmpty then
        if w.seenHashed then w.broken r.seq
        else
          walk { w with
            expectedPrev := ""
            report := { w.report with legacyUnhashed := w.report.legacyUnhashed + 1 } } rs
      else
        let w := { w with
          seenHashed := true
          report := { w.report with checked := w.report.checked + 1 } }
        if r.prev != w.expectedPrev then w.broken r.seq
        else if computeHash P C r.prev r.row != r.hash then w.broken r.seq
        else walk { w with expectedPrev := r.hash } rs

/-- Where the walk starts. -/
def startWalk (boundary : Option AuditColumns) : ChainWalk where
  atStart := boundary.isNone
  expectedPrev := (boundary.map (·.hash)).getD ""
  expectedSeq := boundary.map (·.seq + 1)
  seenHashed := boundary.any fun r => !r.hash.isEmpty
  report := ⟨0, none, 0⟩

/-- `verify_chain_tail`. -/
def verifyChainTail (log : AuditLog) (limit : Int) : StoreResult ChainVerifyReport := do
  let rows ← (window log limit).mapM (readRow C)
  pure (walk P C (startWalk (boundary log limit)) rows.reverse)

end Audit

end SuiId
