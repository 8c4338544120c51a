import SuiId.Lib.Result
import SuiId.Store.Schema

/-!
# The write runners

Every command of the store runs inside one immediate transaction
(`registry.rs`).  `classA` is the runner of the audited commands: it runs the
command's body, builds the event's attributes and appends the event in the
same transaction.  An error anywhere rolls everything back, which here is an
`Except.error` that carries no database.  The `protocol` runner is the same
without the event, so a protocol command is just its body.

The log row's timestamp and its hash chain are not modelled.
-/

namespace SuiId

open Lib Lib.Result

/-- What a command's body says about the event to record. -/
structure AuditEvent where
  action : String
  target : Option String
  result : AuditResult
  attributes : List (String × String)
  /-- What its descriptor requires. -/
  required : List String

/-- `MAX_ATTRIBUTES`. -/
def maxAttributes : Nat := 16

/-- `MAX_ATTRIBUTE_VALUE_BYTES`. -/
def maxAttributeValueBytes : Nat := 512

/-- `AuditAttributesBuilder::attribute`, over the entries added so far. -/
def addAttribute (entries : List (String × String)) (entry : String × String) :
    StoreResult (List (String × String)) := do
  ensure (!entries.any fun e => e.1 == entry.1)
    (.integrity ("attribute \"" ++ entry.1 ++ "\" declared more than once"))
  ensure (entries.length < maxAttributes)
    (.integrity "event carries more than 16 attributes")
  ensure (entry.2.utf8ByteSize ≤ maxAttributeValueBytes)
    (.integrity ("attribute \"" ++ entry.1 ++ "\" exceeds the 512-byte bound"))
  pure (entries ++ [entry])

/-- `AuditAttributesBuilder::build`. -/
def buildAttributes (attributes : List (String × String)) : StoreResult (List (String × String)) :=
  attributes.foldlM addAttribute []

/-- The first attribute that is required and not there is an error. -/
def checkRequired (required : List String) (attributes : List (String × String)) :
    StoreResult Unit :=
  match required.find? fun name => !attributes.any fun e => e.1 == name with
  | some name => .error (.integrity ("required attribute \"" ++ name ++ "\" is missing"))
  | none => .ok ()

@[simp] theorem checkRequired_nil (attributes : List (String × String)) :
    checkRequired [] attributes = .ok () := rfl

/-- Run an audited command and append its event. -/
def classA {α : Type} (actor : Option UserId)
    (body : StoreResult (α × AuditEvent × Database)) : StoreResult (α × Database) := do
  let (value, event, db) ← body
  let attributes ← buildAttributes event.attributes
  checkRequired event.required attributes
  let row : AuditLogRow := ⟨actor, event.action, event.target, event.result, attributes⟩
  pure (value, { db with auditLog := db.auditLog ++ [row] })

variable {attributes : List (String × String)} {body : StoreResult (α × AuditEvent × Database)}
  {value : α} {db' : Database}

/-- Attributes with different names, few and short enough, are recorded as
they are. -/
theorem buildAttributes_ok (hnames : (attributes.map (·.1)).Nodup)
    (hcount : attributes.length ≤ maxAttributes)
    (hsize : ∀ a ∈ attributes, a.2.utf8ByteSize ≤ maxAttributeValueBytes) :
    buildAttributes attributes = .ok attributes := by
  have hfold : ∀ (todo done : List (String × String)), ((done ++ todo).map (·.1)).Nodup →
      (done ++ todo).length ≤ maxAttributes →
      (∀ a ∈ todo, a.2.utf8ByteSize ≤ maxAttributeValueBytes) →
      todo.foldlM addAttribute done = .ok (done ++ todo) := by
    intro todo
    induction todo with
    | nil =>
      intro done _ _ _
      rw [List.append_nil]
      rfl
    | cons a todo ih =>
      intro done hnames hcount hsize
      have hnew : (done.any fun e => e.1 == a.1) = false := by
        rw [List.any_eq_false]
        intro e he hsame
        rw [List.map_append, List.nodup_append] at hnames
        exact hnames.2.2 e.1 (List.mem_map_of_mem he) a.1 List.mem_cons_self (by simpa using hsame)
      have hroom : done.length < maxAttributes := by
        rw [List.length_append, List.length_cons] at hcount
        omega
      have hadd : addAttribute done a = .ok (done ++ [a]) := by
        simp [addAttribute, ensure, hnew, hroom, hsize a List.mem_cons_self, bind, Except.bind,
          pure, Except.pure]
      rw [List.append_cons] at hnames hcount ⊢
      rw [List.foldlM_cons, hadd]
      exact ih (done ++ [a]) hnames hcount fun x hx => hsize x (List.mem_cons_of_mem a hx)
  exact hfold attributes [] hnames hcount hsize

/-- The attributes that are built are those of the event. -/
theorem buildAttributes_eq {built : List (String × String)}
    (h : buildAttributes attributes = .ok built) : built = attributes := by
  have hfold : ∀ (todo done : List (String × String)),
      todo.foldlM addAttribute done = .ok built → built = done ++ todo := by
    intro todo
    induction todo with
    | nil =>
      intro done h
      cases h
      rw [List.append_nil]
    | cons a todo ih =>
      intro done h
      rw [List.foldlM_cons, bind_eq_ok] at h
      obtain ⟨next, hadd, hrest⟩ := h
      simp only [addAttribute, bind_eq_ok, ensure_eq_ok, pure_eq_ok] at hadd
      obtain ⟨-, -, -, -, -, -, rfl⟩ := hadd
      rw [List.append_cons]
      exact ih _ hrest
  exact hfold attributes [] h

variable {α : Type} {actor : Option UserId}

/-- A committed command appends its event, with the attributes it names. -/
theorem classA_records (h : classA actor body = .ok (value, db')) :
    ∃ event db, body = .ok (value, event, db) ∧ db' = { db with
      auditLog := db.auditLog ++
        [⟨actor, event.action, event.target, event.result, event.attributes⟩] } := by
  simp only [classA, bind_eq_ok, pure_eq_ok, Prod.mk.injEq] at h
  obtain ⟨⟨value', event, db⟩, hbody, attributes, hattributes, -, -, rfl, rfl⟩ := h
  have hsame : attributes = event.attributes := buildAttributes_eq hattributes
  subst hsame
  exact ⟨event, db, hbody, rfl⟩

/-- What a committed command did: its body's database, and one more event. -/
theorem classA_eq_ok (h : classA actor body = .ok (value, db')) :
    ∃ event db log, body = .ok (value, event, db) ∧ db' = { db with auditLog := log } := by
  obtain ⟨event, db, hbody, rfl⟩ := classA_records h
  exact ⟨event, db, _, hbody, rfl⟩

/-- A command commits when its body returns, and its attributes build and are all there. -/
theorem classA_of_ok {event : AuditEvent} {db : Database} (hbody : body = .ok (value, event, db))
    (hattributes : buildAttributes event.attributes = .ok event.attributes)
    (hrequired : checkRequired event.required event.attributes = .ok ()) :
    ∃ db', classA actor body = .ok (value, db') := by
  simp only [classA, hbody, bind, Except.bind, pure, Except.pure, hattributes, hrequired]
  exact ⟨_, rfl⟩

end SuiId
