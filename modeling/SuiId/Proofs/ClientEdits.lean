import SuiId.Core.ClientEdit

/-!
# What an edit of a client leaves behind

The form is saved in three parts, each with its own commit, and the links of the last part are
checked after the first two have committed.  So an edit that fails is not undone: the row has the
parts that were saved before the failure, each of them as a whole, and nothing of the others.
-/

namespace SuiId.ClientEdit

open Lib Lib.Result

/-! ## What a part stores -/

/-- An empty field means that the link is not set. -/
def link (uri : String) : Option String := if uri.isEmpty then none else some uri

/-- The row with the fields of a part. -/
def EditPart.stored (form : EditClientForm) : EditPart → ClientRow → ClientRow
  | .basic, row =>
    { row with name := Text.trim form.name, redirectUris := uriLines form.redirectUris }
  | .form, row =>
    { row with
      allowedScopes := Text.trim form.allowedScopes
      postLogoutRedirectUris := uriLines form.postLogoutRedirectUris
      consentPolicy := ConsentPolicy.parse (Text.trim form.consentPolicy) }
  | .appIdentity, row =>
    { row with
      homepageUri := link form.homepageUri
      privacyPolicyUri := link form.privacyPolicyUri
      tosUri := link form.tosUri }

/-- The row with the parts of a list. -/
def storedParts (form : EditClientForm) (parts : List EditPart) (row : ClientRow) : ClientRow :=
  parts.foldl (fun row part => part.stored form row) row

/-- The row after a deletion, if there was one. -/
def marked (deleted : Bool) (row : ClientRow) : ClientRow :=
  if deleted then { row with isDeleted := true, isDisabled := true } else row

theorem stored_marked (form : EditClientForm) (part : EditPart) (deleted : Bool)
    (row : ClientRow) :
    part.stored form (marked deleted row) = marked deleted (part.stored form row) := by
  cases deleted with
  | false => rfl
  | true =>
    cases part with
    | _ => simp only [EditPart.stored, marked, if_true]

theorem marked_marked (deleted deleted' : Bool) (row : ClientRow) :
    marked deleted' (marked deleted row) = marked (deleted || deleted') row := by
  cases deleted with
  | false => rw [Bool.false_or]; rfl
  | true =>
    cases deleted' with
    | false => rfl
    | true => rfl

theorem storedParts_append (form : EditClientForm) (parts : List EditPart) (part : EditPart)
    (row : ClientRow) :
    storedParts form (parts ++ [part]) row = part.stored form (storedParts form parts row) := by
  simp only [storedParts, List.foldl_append, List.foldl_cons, List.foldl_nil]

/-- Somebody else deletes the client while it is edited. -/
def DeletedMeanwhile (meanwhile : EditPart → Meanwhile) (target : ClientId) : Prop :=
  ∃ part d, (meanwhile part).deletion = some d ∧ d.target = target

/-! ## One part -/

section Part

variable {P : Primitives} {actor : UserId} {target : ClientId} {form : EditClientForm}
  {meanwhile : EditPart → Meanwhile} {part : EditPart} {db db' : Database}

/-- Before a command nothing but a deletion of the client touches its row. -/
theorem arrive_get? (m : Meanwhile) (db : Database) (target : ClientId) :
    ∃ deleted, (deleted = true → ∃ d, m.deletion = some d ∧ d.target = target) ∧
      (m.arrive db).clients.get? target = (db.clients.get? target).map (marked deleted) := by
  have hsame : db.clients.get? target = (db.clients.get? target).map (marked false) :=
    Option.map_id'.symm
  have hnone : false = true → ∃ d, m.deletion = some d ∧ d.target = target :=
    fun h => (Bool.false_ne_true h).elim
  unfold Meanwhile.arrive
  split
  · exact ⟨false, hnone, hsame⟩
  · next d hd =>
    split
    · next u db₁ hdelete =>
      obtain ⟨-, log, rfl⟩ := deleteClient_ok hdelete
      by_cases htarget : d.target = target
      · refine ⟨true, fun _ => ⟨d, hd, htarget⟩, ?_⟩
        simp only [Table.get?_update]
        cases hget : db.clients.get? target with
        | none => rfl
        | some row =>
          have hid : row.id = d.target := (Table.get?_eq_some.mp hget).2.trans htarget.symm
          simp [hid, marked]
      · refine ⟨false, hnone, ?_⟩
        simp only [Table.get?_update]
        cases hget : db.clients.get? target with
        | none => rfl
        | some row =>
          have hid : row.id ≠ d.target := fun h =>
            htarget (h.symm.trans (Table.get?_eq_some.mp hget).2)
          simp [hid, marked]
    · exact ⟨false, hnone, hsame⟩

variable {u : Unit} {before : Option ClientRow} {parts : List EditPart}

private theorem updateClientBasic_row {name : String} {redirectUris : List String}
    (h : updateClientBasic db actor target name redirectUris = .ok (u, db')) :
    ∃ row, db.clients.get? target = some row ∧
      db'.clients.get? target = some { row with name, redirectUris } := by
  obtain ⟨event, db₁, log, hbody, rfl⟩ := classA_eq_ok h
  simp only [Clients.updateBasic, bind_eq_ok, ensure_eq_ok, pure_eq_ok, Prod.mk.injEq] at hbody
  obtain ⟨db₂, ⟨-, hsome, rfl⟩, -, -, rfl⟩ := hbody
  obtain ⟨row, hrow⟩ := Option.isSome_iff_exists.mp hsome
  have hid : row.id = target := (Table.get?_eq_some.mp hrow).2
  refine ⟨row, hrow, ?_⟩
  simp only [Table.get?_update, hrow, Option.map_some, hid, beq_self_eq_true, if_true]

private theorem updateClientForm_row {allowedScopes : String}
    {postLogoutRedirectUris : List String} {consentPolicy : ConsentPolicy}
    (h : updateClientForm db actor target allowedScopes postLogoutRedirectUris consentPolicy =
      .ok (u, db')) :
    ∃ row, db.clients.get? target = some row ∧
      db'.clients.get? target =
        some { row with allowedScopes, postLogoutRedirectUris, consentPolicy } := by
  have hsome : (db.clients.get? target).isSome = true := by
    obtain ⟨event, db₁, log, hbody, -⟩ := classA_eq_ok h
    simp only [Clients.setAllowedScopes, bind_eq_ok, ensure_eq_ok] at hbody
    obtain ⟨-, ⟨-, hsome, -⟩, -⟩ := hbody
    exact hsome
  obtain ⟨log, rfl⟩ := updateClientForm_ok h
  obtain ⟨row, hrow⟩ := Option.isSome_iff_exists.mp hsome
  have hid : row.id = target := (Table.get?_eq_some.mp hrow).2
  refine ⟨row, hrow, ?_⟩
  simp only [Table.get?_update, hrow, Option.map_some, hid, beq_self_eq_true, if_true]

private theorem updateClientAppIdentity_row {homepageUri privacyPolicyUri tosUri : Option String}
    (h : updateClientAppIdentity db actor target homepageUri privacyPolicyUri tosUri =
      .ok (u, db')) :
    ∃ row, db.clients.get? target = some row ∧
      db'.clients.get? target = some { row with homepageUri, privacyPolicyUri, tosUri } := by
  obtain ⟨row, log, hrow, rfl⟩ := updateClientAppIdentity_ok h
  have hid : row.id = target := (Table.get?_eq_some.mp hrow).2
  refine ⟨row, hrow, ?_⟩
  simp only [Table.get?_update, hrow, Option.map_some, hid, beq_self_eq_true, if_true]

private theorem validateLink_ok {uri field : String} {stored : Option String}
    (h : validateLink P uri field = .ok stored) : stored = link uri := by
  rw [validateLink, mapError_eq_ok] at h
  unfold RegistrationUris.validateApplicationUri at h
  unfold link
  cases hempty : uri.isEmpty with
  | true =>
    simp only [hempty, Option.filter, Bool.not_true, Bool.false_eq_true, if_false] at h
    exact (Except.ok.inj h).symm
  | false =>
    simp only [hempty, Option.filter, Bool.not_false, if_true, bind_eq_ok, pure_eq_ok] at h
    obtain ⟨-, -, -, -, hstored⟩ := h
    exact hstored.symm

/-- A command that commits stores its part in the row of the client. -/
theorem save_row (h : part.save P actor target form db = .ok db') :
    ∃ row, db.clients.get? target = some row ∧
      db'.clients.get? target = some (part.stored form row) := by
  cases part with
  | basic =>
    simp only [EditPart.save, adminUpdateClientBasic, bind_eq_ok, mapError_eq_ok, map_eq_ok,
      Text.trim_trim] at h
    obtain ⟨-, -, ⟨u, db₁⟩, hupdate, rfl⟩ := h
    exact updateClientBasic_row hupdate
  | form =>
    simp only [EditPart.save, adminUpdateClientForm, bind_eq_ok, mapError_eq_ok, map_eq_ok] at h
    obtain ⟨-, -, -, -, ⟨u, db₁⟩, hupdate, rfl⟩ := h
    exact updateClientForm_row hupdate
  | appIdentity =>
    simp only [EditPart.save, adminUpdateClientAppIdentity, bind_eq_ok, mapError_eq_ok,
      map_eq_ok] at h
    obtain ⟨homepage, hhomepage, privacy, hprivacy, tos, htos, ⟨u, db₁⟩, hupdate, rfl⟩ := h
    obtain rfl := validateLink_ok hhomepage
    obtain rfl := validateLink_ok hprivacy
    obtain rfl := validateLink_ok htos
    exact updateClientAppIdentity_row hupdate

/-- The row has the parts `parts`, and the mark of a deletion only if there was one. -/
def Holds (form : EditClientForm) (meanwhile : EditPart → Meanwhile) (target : ClientId)
    (before : Option ClientRow) (parts : List EditPart) (after : Option ClientRow) : Prop :=
  ∃ deleted, (deleted = true → DeletedMeanwhile meanwhile target) ∧
    after = before.map fun row => marked deleted (storedParts form parts row)

theorem holds_arrive (h : Holds form meanwhile target before parts (db.clients.get? target)) :
    Holds form meanwhile target before parts
      (((meanwhile part).arrive db).clients.get? target) := by
  obtain ⟨deleted, hdeleted, hrow⟩ := h
  obtain ⟨deleted', hdeleted', hrow'⟩ := arrive_get? (meanwhile part) db target
  refine ⟨deleted || deleted', fun hor => ?_, ?_⟩
  · cases deleted with
    | true => exact hdeleted rfl
    | false =>
      obtain ⟨d, hd, htarget⟩ := hdeleted' hor
      exact ⟨part, d, hd, htarget⟩
  · rw [hrow', hrow, Option.map_map]
    congr 1
    funext row
    exact marked_marked deleted deleted' (storedParts form parts row)

/-- A step that fails leaves the parts that are stored. -/
theorem step_error {e : CoreError}
    (hstep : step P actor target form meanwhile part db = (.error e, db'))
    (h : Holds form meanwhile target before parts (db.clients.get? target)) :
    Holds form meanwhile target before parts (db'.clients.get? target) := by
  simp only [step] at hstep
  split at hstep
  · cases hstep
  · have hdb : (meanwhile part).arrive db = db' := (Prod.mk.inj hstep).2
    rw [← hdb]
    exact holds_arrive h

/-- A step that succeeds adds its part. -/
theorem step_ok (hstep : step P actor target form meanwhile part db = (.ok (), db'))
    (h : Holds form meanwhile target before parts (db.clients.get? target)) :
    before.isSome = true ∧
      Holds form meanwhile target before (parts ++ [part]) (db'.clients.get? target) := by
  have harrive : Holds form meanwhile target before parts
      (((meanwhile part).arrive db).clients.get? target) := holds_arrive h
  obtain ⟨deleted, hdeleted, hrow⟩ := harrive
  simp only [step] at hstep
  split at hstep
  · next saved hcommit =>
    have hdb : saved = db' := (Prod.mk.inj hstep).2
    subst hdb
    unfold Meanwhile.commit at hcommit
    obtain ⟨db₁, hsave, hfault⟩ := bind_eq_ok.mp hcommit
    have hcommitted : db₁ = saved := by
      split at hfault
      · exact pure_eq_ok.mp hfault
      · cases hfault
    subst hcommitted
    obtain ⟨row, hfound, hstored⟩ := save_row hsave
    rw [hrow] at hfound
    obtain ⟨row₀, rfl, hmarked⟩ := Option.map_eq_some_iff.mp hfound
    refine ⟨rfl, deleted, hdeleted, ?_⟩
    rw [hstored, ← hmarked, stored_marked, Option.map_some, storedParts_append]
  · cases hstep

theorem holds_start (before : Option ClientRow) :
    Holds form meanwhile target before [] before :=
  ⟨false, fun h => (Bool.false_ne_true h).elim, Option.map_id'.symm⟩

/-- The steps that a run completes add their parts. -/
theorem inOrder_holds (h : inOrder (step P actor target form meanwhile) parts db = (.ok (), db')) :
    (parts ≠ [] → (db.clients.get? target).isSome = true) ∧
      Holds form meanwhile target (db.clients.get? target) parts (db'.clients.get? target) := by
  let R (parts : List EditPart) (db' : Database) : Prop :=
    (parts ≠ [] → (db.clients.get? target).isSome = true) ∧
      Holds form meanwhile target (db.clients.get? target) parts (db'.clients.get? target)
  have hstep {before : List EditPart} {part : EditPart} {db₁ db₂ : Database} (hR : R before db₁)
      (hpart : step P actor target form meanwhile part db₁ = (.ok (), db₂)) :
      R (before ++ [part]) db₂ := by
    obtain ⟨hsome, hholds⟩ := step_ok hpart hR.2
    exact ⟨fun _ => hsome, hholds⟩
  have hstart : R [] db := ⟨fun h => (h rfl).elim, holds_start _⟩
  exact inOrder_ok hstep h hstart

end Part

/-! ## The handler -/

/-- What an edit leaves in the row of its client.  When it succeeds every field of the form is
stored.  When it fails at a part, the parts before it stay stored and it and those after it are
not. -/
theorem clients_edit_keeps_parts (P : Primitives) (actor : UserId) (req : EditRequest)
    (meanwhile : EditPart → Meanwhile) (db : Database) :
    match clientsEditPost P actor req meanwhile db with
    | (.ok (), db') => ∃ target, gate req = .ok target ∧
        (db.clients.get? target).isSome = true ∧
        Holds req.form meanwhile target (db.clients.get? target) EditPart.all
          (db'.clients.get? target)
    | (.error e, db') => gate req = .error e ∧ db' = db ∨
        ∃ target saved part rest db₁, gate req = .ok target ∧
          EditPart.all = saved ++ part :: rest ∧
          inOrder (step P actor target req.form meanwhile) saved db = (.ok (), db₁) ∧
          step P actor target req.form meanwhile part db₁ = (.error e, db') ∧
          Holds req.form meanwhile target (db.clients.get? target) saved
            (db'.clients.get? target) := by
  unfold clientsEditPost
  generalize hgate : gate req = gated
  cases gated with
  | error e => exact Or.inl ⟨rfl, rfl⟩
  | ok target =>
    dsimp only
    generalize hresult : inOrder (step P actor target req.form meanwhile) EditPart.all db = result
    obtain ⟨result, db'⟩ := result
    cases result with
    | error e =>
      obtain ⟨saved, part, rest, db₁, hall, hsaved, hfailed⟩ := inOrder_error hresult
      exact Or.inr ⟨target, saved, part, rest, db₁, rfl, hall, hsaved, hfailed,
        step_error hfailed (inOrder_holds hsaved).2⟩
    | ok u =>
      obtain ⟨hsome, hholds⟩ := inOrder_holds hresult
      exact ⟨target, rfl, hsome (List.cons_ne_nil _ _), hholds⟩

/-! ## A link that is refused -/

/-- The parser on one text. -/
def oneUrl : Primitives where
  __ := Primitives.transparent
  parseUrl s :=
    if s = "https://a/c" then
      some
        { scheme := "https", username := "", password := none, host := some (.domain "a")
          port := none, path := "/c", query := none, fragment := none
          origin := .tuple "https" "a" 443, asStr := s }
    else none

def editedClient : ClientRow where
  id := 1
  name := "old"
  confidential := true
  secretHash := none
  allowedScopes := ""
  isDisabled := false
  isDeleted := false
  tokenEndpointAuthMethod := none
  grantTypes := none
  redirectUris := ["https://b/c"]

def editedDb : Database :=
  { Database.empty with clients := ⟨[editedClient], by decide⟩ }

/-- The homepage is no URL. -/
def badLinkRequest : EditRequest where
  csrfCookie := some "t"
  id := some 1
  form :=
    { name := "new", redirectUris := "https://a/c", allowedScopes := "", consentPolicy := ""
      postLogoutRedirectUris := "", homepageUri := "x", privacyPolicyUri := "", tosUri := ""
      csrf := "t" }

/-- The request is refused, and the name and the redirect URIs are changed. -/
theorem half_saved_edit :
    gate badLinkRequest = .ok 1 ∧
      (clientsEditPost oneUrl 0 badLinkRequest (fun _ => {}) editedDb).1 =
        .error (.badRequest "homepage_uri: x: not a valid URL") ∧
      (clientsEditPost oneUrl 0 badLinkRequest (fun _ => {}) editedDb).2.clients.get? 1 =
        some { editedClient with name := "new", redirectUris := ["https://a/c"] } ∧
      editedDb.clients.get? 1 = some editedClient := by
  refine ⟨by decide +kernel, by decide +kernel, by decide +kernel, by decide +kernel⟩

end SuiId.ClientEdit
