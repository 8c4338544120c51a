import SuiId.Store.ClassA

/-!
# All or nothing

`class_a` commits what its closure did and one event on top, or nothing at all, and then it says
why.  The other modules use the runner `classA`, whose errors carry no database; the last section
shows that it is this one.
-/

namespace SuiId

open Lib Lib.Result

/-! ## The note carries every attribute -/

/-- The pair is one of the parts of the note. -/
def NoteHas (note : Option String) (entry : String × String) : Prop :=
  ∃ before after : List String, note = some (" ".intercalate (before ++ notePair entry :: after))

variable {attributes : AuditAttributes}

theorem noteHas_renderNote {entry : String × String} (h : entry ∈ attributes.entries) :
    NoteHas (renderNote attributes) entry := by
  obtain ⟨before, after, heq⟩ := List.append_of_mem h
  refine ⟨before.map notePair, after.map notePair, ?_⟩
  have hfull : attributes.entries.isEmpty = false := by
    rw [heq]
    cases before with
    | nil => rfl
    | cons => rfl
  simp only [renderNote, hfull, Bool.false_eq_true, if_false]
  rw [heq, List.map_append, List.map_cons]

theorem requireAttributes_eq_ok {descriptor : EventDescriptor} {a : AuditAttributes}
    (h : requireAttributes descriptor attributes = .ok a) :
    a = attributes ∧ ∀ s ∈ descriptor.attributes, s.required = true →
      ∃ value, (s.name, value) ∈ attributes.entries := by
  unfold requireAttributes at h
  split at h
  · cases h
  · rename_i hnone
    cases h
    refine ⟨rfl, fun s hs hrequired => ?_⟩
    have hcarried := List.find?_eq_none.mp hnone s hs
    simp only [hrequired, Bool.true_and, Bool.not_eq_true', Bool.not_eq_false] at hcarried
    obtain ⟨e, he, hname⟩ := List.any_eq_true.mp hcarried
    exact ⟨e.2, by rw [← beq_iff_eq.mp hname]; exact he⟩

theorem requireAttributes_eq_error {descriptor : EventDescriptor} {err : AuditBuildError}
    (h : requireAttributes descriptor attributes = .error err) :
    ∃ s ∈ descriptor.attributes, s.required = true ∧
      (∀ value, (s.name, value) ∉ attributes.entries) ∧ err = .missingRequiredAttribute s.name := by
  unfold requireAttributes at h
  split at h
  · rename_i s hfind
    cases h
    have hmissing := List.find?_some hfind
    simp only [Bool.and_eq_true, Bool.not_eq_true'] at hmissing
    refine ⟨s, List.mem_of_find?_eq_some hfind, hmissing.1, fun value hvalue => ?_, rfl⟩
    have hcarried : (attributes.entries.any fun e => e.1 == s.name) = true :=
      List.any_eq_true.mpr ⟨_, hvalue, beq_self_eq_true s.name⟩
    rw [hcarried] at hmissing
    cases hmissing.2
  · cases h

/-! ## One call -/

section Runner

variable {σ ε α Event : Type} (P : Primitives) (C : AuditCodec) (spec : CommandSpec Event)
  (from_ : StoreError → ε) (actor : Option UserId) (now : DateTime) (faults : Faults)
  (build : TxState σ → Except ε (α × Event) × TxState σ) (db : TxState σ)

/-- What a call that returns `value` has committed. -/
structure Commits (value : α) (db' : TxState σ) : Prop where
  /-- The tables are as the closure left them. -/
  tables : db'.tables = (build db).2.tables
  /-- The log has one more row, chained to the newest one. -/
  event : ∃ event row, (build db).1 = .ok (value, event) ∧
    db'.log.rows = (build db).2.log.rows ++ [row] ∧
    row.prevHash = Audit.headHash (build db).2.log ∧
    row.action = (spec.descriptor event).name ∧
    ∀ s ∈ (spec.descriptor event).attributes, s.required = true →
      ∃ text, NoteHas row.note (s.name, text)

/-- Why a call is refused, and the error it returns then. -/
inductive Refusal : ε → Prop where
  | begin_ {e : StoreError} (h : faults.begin_ = some e) : Refusal (from_ e)
  /-- The closure's own error, as it is. -/
  | closure {e : ε} (h : (build db).1 = .error e) : Refusal e
  | attributes {value : α} {event : Event} {err : AuditBuildError}
      (h : (build db).1 = .ok (value, event)) (hattributes : spec.attributes event = .error err) :
      Refusal (from_ (.integrity err.text))
  | missing {value : α} {event : Event} {carried : AuditAttributes} {s : AttributeSpec}
      (h : (build db).1 = .ok (value, event)) (hattributes : spec.attributes event = .ok carried)
      (hs : s ∈ (spec.descriptor event).attributes) (hrequired : s.required = true)
      (hmissing : ∀ text, (s.name, text) ∉ carried.entries) :
      Refusal (from_ (.integrity (AuditBuildError.missingRequiredAttribute s.name).text))
  | append {e : StoreError} (h : faults.append = some e) : Refusal (from_ e)
  | commit {e : StoreError} (h : faults.commit = some e) : Refusal (from_ e)

/-- A call commits all of its closure and one event, or changes nothing and says why. -/
structure AuditedOrNothing (answer : Except ε α) (db' : TxState σ) : Prop where
  committed : ∀ value, answer = .ok value → Commits spec build db value db'
  refused : ∀ e, answer = .error e → db' = db ∧ Refusal spec from_ faults build db e
  closure : faults.begin_ = none → ∀ e, (build db).1 = .error e → answer = .error e ∧ db' = db

/-- The event can be chained to the newest row of the log, if there is one, or SQLite or the
closure refuses the call anyway. -/
def LinkFound : Prop :=
  faults.head = none ∨ Audit.headHash (build db).2.log = "" ∨
    ∃ e, Refusal spec from_ faults build db e

/-- Nothing has refused a call that returns `value` and has this event with these attributes. -/
structure Returns (value : α) (event : Event) (carried : AuditAttributes) : Prop where
  begin_ : faults.begin_ = none
  answer : (build db).1 = .ok (value, event)
  attributes : spec.attributes event = .ok carried
  required : ∀ s ∈ (spec.descriptor event).attributes, s.required = true →
    ∃ text, (s.name, text) ∈ carried.entries
  append : faults.append = none
  commit : faults.commit = none

variable {P C spec from_ actor now faults build db}
variable {value : α} {cell : Option ε} {after db' : TxState σ}

/-- A closure that returns has its event in the transaction's log. -/
theorem classAClosure_ok
    (h : classAClosure P C spec from_ actor now faults build db = (.ok value, cell, after))
    (hbegin : faults.begin_ = none) (hcommit : faults.commit = none) :
    ∃ event carried, Returns spec faults build db value event carried ∧
      after = { (build db).2 with
        log := Audit.appendWithinTx P C faults.head (build db).2.log
          (buildAuditRow (spec.descriptor event) actor (spec.target event) (spec.result event)
            carried now) } := by
  unfold classAClosure at h
  split at h
  · cases h
  · rename_i value' event after' hbuild
    dsimp only at h
    split at h
    · cases h
    · rename_i attributes hattributes
      split at h
      · cases h
      · rename_i happend
        cases h
        obtain ⟨carried, hcarry, hrequire⟩ := bind_eq_ok.mp hattributes
        obtain ⟨rfl, hcarried⟩ := requireAttributes_eq_ok hrequire
        rw [← Prod.eta (build db)] at hbuild
        obtain ⟨hanswer, rfl⟩ := Prod.mk.inj hbuild
        exact ⟨event, _, ⟨hbegin, hanswer, hcarry, hcarried, happend, hcommit⟩, rfl⟩

/-- The error that leaves a failing closure, through the cell or beside it. -/
theorem classAClosure_error {e : StoreError}
    (h : classAClosure P C spec from_ actor now faults build db = (.error e, cell, after)) :
    Refusal spec from_ faults build db (cell.getD (from_ e)) := by
  unfold classAClosure at h
  split at h
  · rename_i err after' hbuild
    cases h
    exact .closure (congrArg Prod.fst hbuild)
  · rename_i value event after' hbuild
    have hanswer : (build db).1 = .ok (value, event) := congrArg Prod.fst hbuild
    dsimp only at h
    split at h
    · rename_i err hattributes
      cases h
      cases hcarried : spec.attributes event with
      | error err' =>
        rw [hcarried] at hattributes
        cases hattributes
        exact .attributes hanswer hcarried
      | ok carried =>
        rw [hcarried] at hattributes
        obtain ⟨s, hs, hrequired, hmissing, rfl⟩ := requireAttributes_eq_error hattributes
        exact .missing hanswer hcarried hs hrequired hmissing
    · split at h
      · rename_i happend
        cases h
        exact .append happend
      · cases h

/-- An error of the closure takes the cell, whatever SQLite does afterwards. -/
theorem classA_closure_error {e : ε} (hbegin : faults.begin_ = none)
    (h : (build db).1 = .error e) :
    Registry.classA P C spec from_ actor now faults build db = (.error e, db) := by
  have hclosure : classAClosure P C spec from_ actor now faults build db =
      (.error (.integrity "class_a: build failed, rolling back"), some e, (build db).2) := by
    unfold classAClosure
    rw [← Prod.eta (build db), h]
  simp only [Registry.classA, withTx, hbegin, hclosure, Option.getD_some]

/-- A call that returns has appended its event to what the closure left. -/
theorem classA_ok
    (h : Registry.classA P C spec from_ actor now faults build db = (.ok value, db')) :
    ∃ event carried, Returns spec faults build db value event carried ∧
      db' = { (build db).2 with
        log := Audit.appendWithinTx P C faults.head (build db).2.log
          (buildAuditRow (spec.descriptor event) actor (spec.target event) (spec.result event)
            carried now) } := by
  unfold Registry.classA withTx at h
  split at h
  · rename_i hrun
    cases h
    split at hrun
    · cases hrun
    · rename_i hbegin
      split at hrun
      · cases hrun
      · rename_i hclosure
        split at hrun
        · cases hrun
        · rename_i hcommit
          cases hrun
          exact classAClosure_ok hclosure hbegin hcommit
  · cases h

/-- A call that fails has changed nothing. -/
theorem classA_error {e : ε}
    (h : Registry.classA P C spec from_ actor now faults build db = (.error e, db')) :
    db' = db ∧ Refusal spec from_ faults build db e := by
  unfold Registry.classA withTx at h
  split at h
  · cases h
  · rename_i hrun
    cases h
    split at hrun
    · rename_i hbegin
      cases hrun
      exact ⟨rfl, .begin_ hbegin⟩
    · rename_i hbegin
      split at hrun
      · rename_i hclosure
        cases hrun
        exact ⟨rfl, classAClosure_error hclosure⟩
      · rename_i hclosure
        split at hrun
        · rename_i hcommit
          cases hrun
          cases hstashed : (classAClosure P C spec from_ actor now faults build db).2.1 with
          | none =>
            rw [hclosure] at hstashed
            cases hstashed
            exact ⟨rfl, .commit hcommit⟩
          | some e' =>
            unfold classAClosure at hclosure
            split at hclosure
            · cases hclosure
            · dsimp only at hclosure
              split at hclosure
              · cases hclosure
              · split at hclosure
                · cases hclosure
                · cases hclosure
                  exact ⟨rfl, .commit hcommit⟩
        · cases hrun

/-- What returns was not refused. -/
theorem Returns.not_refused {event : Event} {carried : AuditAttributes}
    (h : Returns spec faults build db value event carried) (e : ε) :
    ¬ Refusal spec from_ faults build db e := by
  intro hrefusal
  cases hrefusal with
  | begin_ hbegin => cases h.begin_.symm.trans hbegin
  | closure herror => cases h.answer.symm.trans herror
  | attributes hanswer herror =>
    cases h.answer.symm.trans hanswer
    cases h.attributes.symm.trans herror
  | missing hanswer hcarried hs hrequired hmissing =>
    cases h.answer.symm.trans hanswer
    cases h.attributes.symm.trans hcarried
    obtain ⟨text, htext⟩ := h.required _ hs hrequired
    exact hmissing text htext
  | append happend => cases h.append.symm.trans happend
  | commit hcommit => cases h.commit.symm.trans hcommit

/-- A call is all or nothing exactly if its event can be chained to the newest row. -/
theorem classA_all_or_nothing_iff :
    AuditedOrNothing spec from_ faults build db
        (Registry.classA P C spec from_ actor now faults build db).1
        (Registry.classA P C spec from_ actor now faults build db).2 ↔
      LinkFound spec from_ faults build db := by
  rcases hrun : Registry.classA P C spec from_ actor now faults build db with ⟨answer, db'⟩
  constructor
  · intro h
    cases answer with
    | ok value =>
      obtain ⟨_, row, _, hrows, hlink, _⟩ := (h.committed value rfl).event
      obtain ⟨event, carried, _, rfl⟩ := classA_ok hrun
      obtain ⟨rfl, -⟩ := List.cons.inj (List.append_cancel_left hrows)
      exact (Audit.linkHash_eq_iff.mp hlink).imp_right .inl
    | error e => exact .inr (.inr ⟨e, (h.refused e rfl).2⟩)
  · intro hfound
    refine ⟨fun value hvalue => ?_, fun e he => ?_, fun hbegin e herror => ?_⟩
    · cases hvalue
      obtain ⟨event, carried, hreturns, rfl⟩ := classA_ok hrun
      have hlink : Audit.linkHash faults.head (build db).2.log =
          Audit.headHash (build db).2.log := by
        rcases hfound with hhead | hempty | ⟨e, hrefusal⟩
        · exact Audit.linkHash_eq_iff.mpr (.inl hhead)
        · exact Audit.linkHash_eq_iff.mpr (.inr hempty)
        · exact (hreturns.not_refused e hrefusal).elim
      refine ⟨rfl, event, _, hreturns.answer, rfl, hlink, rfl, fun s hs hrequired => ?_⟩
      obtain ⟨text, htext⟩ := hreturns.required s hs hrequired
      exact ⟨text, noteHas_renderNote htext⟩
    · cases he
      exact classA_error hrun
    · rw [classA_closure_error hbegin herror] at hrun
      obtain ⟨rfl, rfl⟩ := Prod.mk.inj hrun
      exact ⟨rfl, rfl⟩

end Runner

/-! ## A command with a required attribute -/

/-- One event, which carries the text it is given, or nothing. -/
def stepUpSpec : CommandSpec (Option String) where
  descriptor _ := ⟨"user.disabled", [⟨"step_up", true⟩]⟩
  target _ := none
  result _ := .ok
  attributes
    | some text => (AuditAttributesBuilder.new.addAttribute "step_up" text).build
    | none => AuditAttributesBuilder.new.build

/-- The closure counts and then returns. -/
def countAndReturn (event : Option String) (db : TxState Nat) :
    StoreResult (Unit × Option String) × TxState Nat :=
  (.ok ((), event), { db with tables := db.tables + 1 })

def plainCodec : AuditCodec where
  showAt _ := ""
  parseAt _ := none
  rfc3339 _ := ""
  showUuid _ := ""
  parseUuid _ := none

/-- A log of one row. -/
def oneRow : TxState Nat :=
  ⟨7, ⟨[⟨1, "", none, "auth.login", none, "ok", none, "", "aa"⟩], List.pairwise_singleton _ _⟩⟩

/-- The query for the newest hash fails, and the command is committed with an event that is not
chained to the row before it. -/
theorem classA_unlinked :
    ¬ AuditedOrNothing stepUpSpec id { Faults.none with head := some .db }
      (countAndReturn (some "fresh")) oneRow
      (Registry.classA .transparent plainCodec stepUpSpec id none 0
        { Faults.none with head := some .db } (countAndReturn (some "fresh")) oneRow).1
      (Registry.classA .transparent plainCodec stepUpSpec id none 0
        { Faults.none with head := some .db } (countAndReturn (some "fresh")) oneRow).2 := by
  intro h
  obtain ⟨_, row, _, hrows, hlink, _⟩ := (h.committed () rfl).event
  obtain ⟨rfl, -⟩ := List.cons.inj (List.append_cancel_left hrows)
  revert hlink
  decide

/-! ## The runner of the other modules -/

section Refinement

/-- The attributes of an event, one after the other. -/
def AuditEvent.build (event : AuditEvent) : Except AuditBuildError AuditAttributes :=
  (event.attributes.foldl (fun b a => b.addAttribute a.1 a.2) AuditAttributesBuilder.new).build

/-- The descriptor of an event: its name, and the attributes that it has to carry. -/
def AuditEvent.descriptor (event : AuditEvent) : EventDescriptor :=
  ⟨event.action, event.required.map fun name => ⟨name, true⟩⟩

/-- The events of the commands. -/
def eventSpec : CommandSpec AuditEvent where
  descriptor := AuditEvent.descriptor
  target := AuditEvent.target
  result := AuditEvent.result
  attributes := AuditEvent.build

/-- A body as a closure: what it writes before an error is arbitrary. -/
def closureOf {α : Type} (body : Database → StoreResult (α × AuditEvent × Database))
    (partly : Database → Database) (db : TxState Database) :
    StoreResult (α × AuditEvent) × TxState Database :=
  match body db.tables with
  | .ok (value, event, tables) => (.ok (value, event), { db with tables })
  | .error e => (.error e, { db with tables := partly db.tables })

private theorem foldl_addAttribute_error (attributes : List (String × String))
    (b : AuditAttributesBuilder) (err : AuditBuildError) (h : b.error = some err) :
    (attributes.foldl (fun b a => b.addAttribute a.1 a.2) b).build = .error err := by
  induction attributes generalizing b with
  | nil => simp only [List.foldl_nil, AuditAttributesBuilder.build, h]
  | cons a attributes ih =>
    rw [List.foldl_cons]
    apply ih
    simp only [AuditAttributesBuilder.addAttribute, h, Option.isSome_some, if_true]

/-- The builder and `buildAttributes` agree, errors included. -/
theorem foldl_addAttribute_build (attributes : List (String × String)) (b : AuditAttributesBuilder)
    (h : b.error = none) :
    attributes.foldlM addAttribute b.attributes.entries =
      ((attributes.foldl (fun b a => b.addAttribute a.1 a.2) b).build.map
        AuditAttributes.entries).mapError fun err => StoreError.integrity err.text := by
  induction attributes generalizing b with
  | nil =>
    simp only [List.foldl_nil, List.foldlM_nil, AuditAttributesBuilder.build, h]
    rfl
  | cons a attributes ih =>
    rw [List.foldl_cons, List.foldlM_cons]
    by_cases hname : (b.attributes.entries.any fun e => e.1 == a.1) = true
    · rw [foldl_addAttribute_error attributes _ (.duplicateAttribute a.1)]
      · simp only [addAttribute, ensure, hname]
        rfl
      · simp only [AuditAttributesBuilder.addAttribute, h, hname]
        rfl
    · rw [Bool.not_eq_true] at hname
      by_cases hcount : maxAttributes ≤ b.attributes.entries.length
      · have hroom : ¬ b.attributes.entries.length < maxAttributes := by omega
        rw [foldl_addAttribute_error attributes _ .tooManyAttributes]
        · simp only [addAttribute, ensure, hname, hroom]
          rfl
        · simp only [AuditAttributesBuilder.addAttribute, h, hname, hcount]
          rfl
      · have hroom : b.attributes.entries.length < maxAttributes := by omega
        by_cases hsize : maxAttributeValueBytes < a.2.utf8ByteSize
        · have hlong : ¬ a.2.utf8ByteSize ≤ maxAttributeValueBytes := by omega
          rw [foldl_addAttribute_error attributes _ (.attributeTooLong a.1)]
          · simp only [addAttribute, ensure, hname, hroom, hlong]
            rfl
          · simp only [AuditAttributesBuilder.addAttribute, h, hname, hcount, hsize]
            rfl
        · have hshort : a.2.utf8ByteSize ≤ maxAttributeValueBytes := by omega
          have hadd : addAttribute b.attributes.entries a = .ok (b.attributes.entries ++ [a]) := by
            simp only [addAttribute, ensure, hname, hroom, hshort]
            rfl
          have hnext := ih (b.addAttribute a.1 a.2) (by
            simp only [AuditAttributesBuilder.addAttribute, h, hname, hcount, hsize]
            rfl)
          rw [hadd, ← hnext]
          simp only [AuditAttributesBuilder.addAttribute, h, hname, hcount, hsize]
          rfl

/-- Both runners look for the same attributes, in the same order. -/
theorem requireAttributes_descriptor (event : AuditEvent) (attributes : AuditAttributes) :
    (requireAttributes event.descriptor attributes).mapError
        (fun err => StoreError.integrity err.text) =
      (checkRequired event.required attributes.entries).map fun _ => attributes := by
  simp only [requireAttributes, AuditEvent.descriptor, List.find?_map, checkRequired]
  have hsame : ((fun spec : AttributeSpec => spec.required && !attributes.entries.any
      fun e => e.1 == spec.name) ∘ fun name => ⟨name, true⟩) =
      fun name => !attributes.entries.any fun e => e.1 == name := rfl
  rw [hsame]
  cases event.required.find? fun name => !attributes.entries.any fun e => e.1 == name with
  | none => rfl
  | some name => rfl

/-- What `class_a` asks of the attributes of an event is what `classA` asks. -/
theorem eventSpec_attributes (event : AuditEvent) :
    ((eventSpec.attributes event >>= requireAttributes (eventSpec.descriptor event)).map
        AuditAttributes.entries).mapError (fun err => StoreError.integrity err.text) =
      (do
        let attributes ← buildAttributes event.attributes
        checkRequired event.required attributes
        pure attributes) := by
  have hbuild := foldl_addAttribute_build event.attributes .new rfl
  rw [← AuditEvent.build] at hbuild
  rw [show buildAttributes event.attributes = _ from hbuild]
  show ((event.build >>= requireAttributes event.descriptor).map _).mapError _ = _
  cases event.build with
  | error err => rfl
  | ok attributes =>
    have hrequired := requireAttributes_descriptor event attributes
    show ((requireAttributes event.descriptor attributes).map _).mapError _ =
      (checkRequired event.required attributes.entries >>= fun _ => pure attributes.entries)
    cases hcheck : checkRequired event.required attributes.entries with
    | error err =>
      rw [hcheck] at hrequired
      cases hfound : requireAttributes event.descriptor attributes with
      | error err' =>
        rw [hfound] at hrequired
        exact congrArg Except.error (Except.error.inj hrequired)
      | ok carried =>
        rw [hfound] at hrequired
        cases hrequired
    | ok _ =>
      rw [hcheck] at hrequired
      cases hfound : requireAttributes event.descriptor attributes with
      | error err' =>
        rw [hfound] at hrequired
        cases hrequired
      | ok carried =>
        rw [hfound] at hrequired
        exact congrArg (fun a => Except.ok (AuditAttributes.entries a)) (Except.ok.inj hrequired)

/-- When SQLite refuses nothing, `class_a` answers as `classA` does, and on success leaves the
tables of the command's body. -/
theorem classA_refines {α : Type} (P : Primitives) (C : AuditCodec) (actor : Option UserId)
    (now : DateTime) (body : Database → StoreResult (α × AuditEvent × Database))
    (partly : Database → Database) (db : TxState Database) :
    (Registry.classA P C eventSpec id actor now .none (closureOf body partly) db).1 =
        (classA actor (body db.tables)).map Prod.fst ∧
      ∀ value db', classA actor (body db.tables) = .ok (value, db') →
        ∃ log, db' = { (Registry.classA P C eventSpec id actor now .none
          (closureOf body partly) db).2.tables with auditLog := log } := by
  cases hbody : body db.tables with
  | error e =>
    have hrun := @classA_closure_error _ _ _ _ P C eventSpec id actor now .none
      (closureOf body partly) db e rfl (by simp only [closureOf, hbody])
    rw [hrun]
    refine ⟨rfl, fun value db' h => ?_⟩
    cases h
  | ok result =>
    obtain ⟨value, event, tables⟩ := result
    have hclosure : closureOf body partly db = (.ok (value, event), { db with tables }) := by
      simp only [closureOf, hbody]
    have hattributes := eventSpec_attributes event
    have hshort : classA actor (.ok (value, event, tables)) =
        ((do
          let attributes ← buildAttributes event.attributes
          checkRequired event.required attributes
          pure attributes) >>= fun attributes => pure (value, { tables with
            auditLog := tables.auditLog ++
              [⟨actor, event.action, event.target, event.result, attributes⟩] })) := by
      simp only [classA, bind_assoc, pure_bind]
      rfl
    rw [hshort, ← hattributes]
    cases hfound : eventSpec.attributes event >>=
        requireAttributes (eventSpec.descriptor event) with
    | error err =>
      simp only [Registry.classA, withTx, Faults.none, classAClosure, hclosure, hfound]
      refine ⟨rfl, fun value db' h => ?_⟩
      cases h
    | ok attributes =>
      simp only [Registry.classA, withTx, Faults.none, classAClosure, hclosure, hfound]
      refine ⟨rfl, fun value' db' h => ?_⟩
      cases h
      exact ⟨_, rfl⟩

end Refinement

end SuiId
