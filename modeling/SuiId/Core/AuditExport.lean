import SuiId.Lib.Timestamps

/-!
# The audit log as CSV

`audit_csv_get`: a header, and a line for each row of the log.  The time stands as it is, the other
five fields between quotes.
-/

namespace SuiId.AuditExport

open Lib

/-- `AuditLogRow`.  The actor is the text of its id. -/
structure AuditLogRow where
  at_ : Int
  actor : Option String
  action : String
  target : Option String
  result : String
  note : Option String
deriving DecidableEq

/-- `esc`. -/
def esc (s : String) : String :=
  "\"" ++ Text.replace s "\"" "\"\"\"" ++ "\""

/-- `to_rfc3339`. -/
def toRfc3339 (t : Int) : String := String.ofList (Timestamps.render 'T' t)

/-- The first line. -/
def csvHeader : String := "when,actor,action,target,result,note\n"

/-- The line of a row. -/
def csvLine (r : AuditLogRow) : String :=
  toRfc3339 r.at_ ++ "," ++ esc (r.actor.getD "") ++ "," ++ esc r.action ++ "," ++
    esc (r.target.getD "") ++ "," ++ esc r.result ++ "," ++ esc (r.note.getD "") ++ "\n"

/-- The body that `audit_csv_get` writes for the rows it has read. -/
def auditCsv (entries : List AuditLogRow) : String :=
  entries.foldl (fun csv r => csv ++ csvLine r) csvHeader

end SuiId.AuditExport
