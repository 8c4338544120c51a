import SuiId.Lib.FormUrl
import SuiId.Store.AuditChain
import SuiId.Store.Registry

/-!
# The audited runner

`Database::class_a` of `registry.rs` with the transaction under it, the builder of an event's
attributes and the note they are rendered to.

A command's closure mutates the transaction as it goes, so its answer, an error too, comes with the
state it has left.  `with_tx` keeps that state or drops it; the error of the closure gets out
through a cell beside the transaction, which no rollback clears.

What SQLite may refuse is a parameter: to begin, to read the newest hash of the log, to insert the
event, to commit.  Panics are left out.
-/

namespace SuiId

open Lib Lib.Result

/-! ## Attributes -/

/-- `AuditBuildError`. -/
inductive AuditBuildError where
  | attributeTooLong (name : String)
  | tooManyAttributes
  | duplicateAttribute (name : String)
  | missingRequiredAttribute (name : String)
deriving DecidableEq, Repr

/-- Its `Display`. -/
def AuditBuildError.text : AuditBuildError → String
  | .attributeTooLong name => "attribute \"" ++ name ++ "\" exceeds the 512-byte bound"
  | .tooManyAttributes => "event carries more than 16 attributes"
  | .duplicateAttribute name => "attribute \"" ++ name ++ "\" declared more than once"
  | .missingRequiredAttribute name => "required attribute \"" ++ name ++ "\" is missing"

/-- `AuditAttributes`: different names, few of them, and short values. -/
structure AuditAttributes where
  entries : List (String × String)
  distinct : (entries.map Prod.fst).Nodup
  few : entries.length ≤ maxAttributes
  short : ∀ e ∈ entries, e.2.utf8ByteSize ≤ maxAttributeValueBytes

/-- `AuditAttributes::empty`. -/
def AuditAttributes.empty : AuditAttributes where
  entries := []
  distinct := List.nodup_nil
  few := Nat.zero_le _
  short _ he := by cases he

/-- `AuditAttributesBuilder`: the pairs pushed so far. -/
structure AuditAttributesBuilder where
  attributes : AuditAttributes
  error : Option AuditBuildError

namespace AuditAttributesBuilder

/-- `AuditAttributes::builder`. -/
def new : AuditAttributesBuilder := ⟨.empty, none⟩

/-- `attribute`.  After the first error nothing is added. -/
def addAttribute (b : AuditAttributesBuilder) (name value : String) : AuditAttributesBuilder :=
  if b.error.isSome then b
  else if hname : (b.attributes.entries.any fun e => e.1 == name) = true then
    { b with error := some (.duplicateAttribute name) }
  else if hcount : maxAttributes ≤ b.attributes.entries.length then
    { b with error := some .tooManyAttributes }
  else if hsize : maxAttributeValueBytes < value.utf8ByteSize then
    { b with error := some (.attributeTooLong name) }
  else
    { b with attributes :=
      { entries := b.attributes.entries ++ [(name, value)]
        distinct := by
          rw [List.map_append, List.nodup_append]
          refine ⟨b.attributes.distinct, List.nodup_singleton _, fun k hk k' hk' heq => hname ?_⟩
          obtain ⟨e, he, rfl⟩ := List.mem_map.mp hk
          rw [List.mem_singleton.mp hk'] at heq
          exact List.any_eq_true.mpr ⟨e, he, beq_iff_eq.mpr heq⟩
        few := by
          rw [List.length_append, List.length_singleton]
          omega
        short := by
          intro e he
          rcases List.mem_append.mp he with he | he
          · exact b.attributes.short e he
          · rw [List.mem_singleton.mp he]
            exact Nat.le_of_not_lt hsize } }

/-- `AuditAttributesBuilder::build`: the pairs, within the limits and each name once. -/
def build (b : AuditAttributesBuilder) : Except AuditBuildError AuditAttributes :=
  match b.error with
  | some e => .error e
  | none => .ok b.attributes

end AuditAttributesBuilder

/-! ## The note -/

/-- `char::is_control`: the general category `Cc`. -/
def isControl (c : Char) : Bool := c.toNat ≤ 0x1f || (0x7f ≤ c.toNat && c.toNat ≤ 0x9f)

/-- An upper-case hexadecimal digit. -/
def upperHexDigit (n : Nat) : Char :=
  if n < 10 then Char.ofNat (48 + n) else Char.ofNat (55 + n)

/-- `%XX` for each byte. -/
def percentEncode (bytes : Bytes) : List Char :=
  bytes.flatMap fun b => ['%', upperHexDigit (b.toNat / 16), upperHexDigit (b.toNat % 16)]

/-- A character of a value of the note. -/
def encodeNoteChar (c : Char) : List Char :=
  if c == '%' || c == '=' || Text.isWhitespace c || isControl c then
    percentEncode (utf8 (String.singleton c))
  else [c]

/-- `encode_note_value`. -/
def encodeNoteValue (value : String) : String :=
  String.ofList (value.toList.flatMap encodeNoteChar)

/-- One `key=value` pair. -/
def notePair (entry : String × String) : String := entry.1 ++ "=" ++ encodeNoteValue entry.2

/-- `render_note`. -/
def renderNote (attributes : AuditAttributes) : Option String :=
  if attributes.entries.isEmpty then none
  else some (" ".intercalate (attributes.entries.map notePair))

/-! ## Reading a note

The readers beside `render_note`: `decode_note_value` over the bytes of a text, `parse_note` and
`note_field`.
-/

/-- `hex_val`. -/
def hexVal (b : UInt8) : Option UInt8 :=
  if 48 ≤ b && b ≤ 57 then some (b - 48)
  else if 65 ≤ b && b ≤ 70 then some (b - 65 + 10)
  else if 97 ≤ b && b ≤ 102 then some (b - 97 + 10)
  else none

/-- The loop of `decode_note_value`: `%` and two digits are a byte, all else stands for itself. -/
def decodeNoteBytes : Bytes → Bytes
  | [] => []
  | [b] => [b]
  | [b, b'] => [b, b']
  | b :: high :: low :: rest =>
    if b = 37 then
      match hexVal high, hexVal low with
      | some h, some l => (h * 16 + l) :: decodeNoteBytes rest
      | _, _ => b :: decodeNoteBytes (high :: low :: rest)
    else b :: decodeNoteBytes (high :: low :: rest)

/-- `decode_note_value`. -/
def decodeNoteValue (encoded : String) : String := FormUrl.lossy (decodeNoteBytes (utf8 encoded))

/-- `parse_note`. -/
def parseNote (note : String) : List (String × String) :=
  ((Text.split note ' ').filterMap fun tok => Text.splitOnce tok "=").map fun (k, v) =>
    (k, decodeNoteValue v)

/-- `note_field`: the last occurrence. -/
def noteField (note key : String) : Option String :=
  (parseNote note).reverse.findSome? fun (k, v) => if k = key then some v else none

/-! ## Commands -/

/-- `AttributeSpec`: an attribute that an event may or must carry. -/
structure AttributeSpec where
  name : String
  required : Bool

/-- `EventDescriptor`: the action of an event and its attributes. -/
structure EventDescriptor where
  name : String
  attributes : List AttributeSpec

/-- `CommandSpec`, with what `SealedCommandEvent` says of its events. -/
structure CommandSpec (Event : Type) where
  descriptor : Event → EventDescriptor
  target : Event → Option String
  result : Event → AuditResult
  attributes : Event → Except AuditBuildError AuditAttributes

/-- `AuditResult::as_str`. -/
def AuditResult.asStr : AuditResult → String
  | .ok => "ok"
  | .failure => "failure"

/-- What a transaction works on: the log, and the other tables. -/
structure TxState (σ : Type) where
  tables : σ
  log : AuditLog

/-- What SQLite refuses in one call. -/
structure Faults where
  begin_ : Option StoreError
  /-- The query for the newest hash.  Its error goes no further. -/
  head : Option StoreError
  append : Option StoreError
  commit : Option StoreError

/-- SQLite refuses nothing. -/
def Faults.none : Faults := ⟨.none, .none, .none, .none⟩

section Runner

variable {σ ε α Event : Type} (P : Primitives) (C : AuditCodec)

/-- `with_tx` around a closure that may leave an error in a cell. -/
def withTx (faults : Faults) (f : TxState σ → StoreResult α × Option ε × TxState σ)
    (db : TxState σ) : StoreResult α × Option ε × TxState σ :=
  match faults.begin_ with
  | some e => (.error e, none, db)
  | none =>
    match f db with
    -- the transaction is dropped
    | (.error e, cell, _) => (.error e, cell, db)
    | (.ok value, cell, after) =>
      match faults.commit with
      | some e => (.error e, cell, db)
      | none => (.ok value, cell, after)

/-- The descriptor's check of what an event carries. -/
def requireAttributes (descriptor : EventDescriptor) (attributes : AuditAttributes) :
    Except AuditBuildError AuditAttributes :=
  match descriptor.attributes.find? fun spec =>
      spec.required && !attributes.entries.any fun e => e.1 == spec.name with
  | some missing => .error (.missingRequiredAttribute missing.name)
  | none => .ok attributes

/-- `build_audit_row`. -/
def buildAuditRow (descriptor : EventDescriptor) (actor : Option UserId) (target : Option String)
    (result : AuditResult) (attributes : AuditAttributes) (now : DateTime) : AuditEntry where
  at_ := now
  actor := actor
  action := descriptor.name
  target := target
  result := result.asStr
  note := renderNote attributes

variable (spec : CommandSpec Event) (from_ : StoreError → ε) (actor : Option UserId)
  (now : DateTime)

/-- The closure that `class_a` runs in its transaction. -/
def classAClosure (faults : Faults) (build : TxState σ → Except ε (α × Event) × TxState σ)
    (db : TxState σ) : StoreResult α × Option ε × TxState σ :=
  match build db with
  | (.error e, after) => (.error (.integrity "class_a: build failed, rolling back"), some e, after)
  | (.ok (value, event), after) =>
    let descriptor := spec.descriptor event
    match spec.attributes event >>= requireAttributes descriptor with
    | .error buildErr =>
      (.error (.integrity "class_a: event-attribute build failed, rolling back"),
        some (from_ (.integrity buildErr.text)), after)
    | .ok attributes =>
      let row := buildAuditRow descriptor actor (spec.target event) (spec.result event)
        attributes now
      match faults.append with
      | some e => (.error e, none, after)
      | none =>
        (.ok value, none, { after with log := Audit.appendWithinTx P C faults.head after.log row })

/-- `Database::class_a`. -/
def Registry.classA (faults : Faults) (build : TxState σ → Except ε (α × Event) × TxState σ)
    (db : TxState σ) : Except ε α × TxState σ :=
  match withTx faults (classAClosure P C spec from_ actor now faults build) db with
  | (.ok value, _, db) => (.ok value, db)
  | (.error e, stashed, db) => (.error (stashed.getD (from_ e)), db)

end Runner

end SuiId
