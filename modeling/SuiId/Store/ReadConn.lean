import SuiId.Lib.Text

/-!
# The read connection

`ReadConn::prepare` looks at the leading keyword of a statement, and then asks SQLite whether it is
read-only.  Before the keyword it skips white space and comments.  SQLite has a tokenizer of its
own: what that skips before the first statement is `sqliteSkip`, and what it takes for the first
word of the statement is `sqliteKeyword`.
-/

namespace SuiId.ReadConn

open Lib

/-! ## Comments -/

/-- What follows the first line feed. -/
def afterLine : List Char → List Char
  | [] => []
  | c :: cs => if c = '\n' then cs else afterLine cs

/-- What follows the first `*/`. -/
def afterClose : List Char → Option (List Char)
  | [] => none
  | c :: cs => if c = '*' ∧ cs.head? = some '/' then some cs.tail else afterClose cs

/-- What a text has at its beginning. -/
inductive Comment where
  | none
  | unterminated
  | before (rest : List Char)
deriving DecidableEq

/-- A comment that the text begins with. -/
def comment : List Char → Comment
  | '-' :: '-' :: rest => .before (afterLine rest)
  | '/' :: '*' :: rest =>
    match afterClose rest with
    | some rest => .before rest
    | Option.none => .unterminated
  | _ => .none

theorem length_afterLine_le (cs : List Char) : (afterLine cs).length ≤ cs.length := by
  induction cs with
  | nil => exact Nat.le_refl _
  | cons c cs ih =>
    rw [afterLine, List.length_cons]
    split
    · omega
    · omega

theorem length_afterClose_le {cs rest : List Char} (h : afterClose cs = some rest) :
    rest.length ≤ cs.length := by
  induction cs with
  | nil => cases h
  | cons c cs ih =>
    rw [afterClose] at h
    rw [List.length_cons]
    split at h
    · rw [← Option.some.inj h, List.length_tail]
      omega
    · have hle := ih h
      omega

theorem length_comment_lt {cs rest : List Char} (h : comment cs = .before rest) :
    rest.length < cs.length := by
  unfold comment at h
  split at h
  · next rest' =>
    have hle := length_afterLine_le rest'
    rw [← Comment.before.inj h, List.length_cons, List.length_cons]
    omega
  · next rest' =>
    split at h
    · next rest'' hclose =>
      have hle := length_afterClose_le hclose
      rw [← Comment.before.inj h, List.length_cons, List.length_cons]
      omega
    · cases h
  · cases h

/-! ## The guard -/

/-- `trim_start`. -/
def trimStart (s : List Char) : List Char := s.dropWhile Text.isWhitespace

theorem length_trimStart_le (s : List Char) : (trimStart s).length ≤ s.length :=
  (List.dropWhile_suffix _).length_le

/-- `skip_leading_trivia`. -/
def skipLeadingTrivia (sql : List Char) : List Char :=
  match h : comment (trimStart sql) with
  | .before rest =>
    have := Nat.lt_of_lt_of_le (length_comment_lt h) (length_trimStart_le sql)
    skipLeadingTrivia rest
  | _ => trimStart sql
termination_by sql.length

/-- `leading_keyword`. -/
def leadingKeyword (sql : List Char) : List Char :=
  (skipLeadingTrivia sql).takeWhile Char.isAlpha

/-- `NON_CONTENT_EFFECT_KEYWORDS`. -/
def nonContentEffectKeywords : List String :=
  ["BEGIN", "COMMIT", "END", "ROLLBACK", "SAVEPOINT", "RELEASE", "ATTACH", "DETACH"]

/-- `eq_ignore_ascii_case` with a keyword. -/
def isKeyword (word : List Char) (keyword : String) : Bool :=
  word.map Char.toUpper == keyword.toList

/-- `ReadConnError`. -/
inductive ReadRefused where
  | pragmaRefused (sql : List Char)
  | explainRefused (sql : List Char)
  | nonContentEffectRefused (keyword sql : List Char)
  | notReadOnly (sql : List Char)
  /-- An error of `Connection::prepare`. -/
  | db
deriving DecidableEq

/-- `ReadConn::prepare`.  SQLite compiles a text or does not, and says of a statement that it has
compiled whether it is read-only. -/
def prepare (sqlite : List Char → Option Bool) (sql : List Char) : Except ReadRefused Unit :=
  let keyword := leadingKeyword sql
  if isKeyword keyword "PRAGMA" then .error (.pragmaRefused sql)
  else if isKeyword keyword "EXPLAIN" then .error (.explainRefused sql)
  else if nonContentEffectKeywords.any (isKeyword keyword) then
    .error (.nonContentEffectRefused (keyword.map Char.toUpper) sql)
  else
    match sqlite sql with
    | none => .error .db
    | some readonly => if readonly then .ok () else .error (.notReadOnly sql)

/-! ## SQLite -/

/-- White space of SQLite's tokenizer. -/
def isSqliteSpace (c : Char) : Bool :=
  let n := c.toNat
  n == 0x20 || (0x09 ≤ n && n ≤ 0x0d)

/-- U+FEFF. -/
def byteOrderMark : Char := Char.ofNat 0xfeff

/-- What stands before the first statement: white space, byte-order marks, comments, and empty
statements.  A comment that is not closed runs to the end. -/
def sqliteSkip : List Char → List Char
  | [] => []
  | c :: cs =>
    if isSqliteSpace c || c = byteOrderMark || c = ';' then sqliteSkip cs
    else
      match h : comment (c :: cs) with
      | .none => c :: cs
      | .unterminated => []
      | .before rest =>
        have := length_comment_lt h
        sqliteSkip rest
termination_by sql => sql.length
decreasing_by
  · exact Nat.lt_succ_self _
  · assumption

/-- `IdChar`. -/
def isIdChar (c : Char) : Bool :=
  c.isAlphanum || c == '_' || c == '$' || 0x80 ≤ c.toNat

/-- The first word of the statement that SQLite compiles. -/
def sqliteKeyword (sql : List Char) : List Char := (sqliteSkip sql).takeWhile isIdChar

end SuiId.ReadConn
