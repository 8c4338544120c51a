import SuiId.Lib.Digits
import SuiId.Store.AuditChain

/-!
# The bytes of an audit row

`canonical_bytes` writes six fields, each behind its length in eight bytes.  A sequence of such
fields is read in one way (`flatMap_writeField_inj`), so the bytes determine what was written; and
that is the row itself, but for a target or a note that is absent or empty.
-/

namespace SuiId.Audit

open Lib

/-! ## Fields behind their lengths -/

theorem toBeBytes_eq_fixed (n : Nat) :
    (toBeBytes n).map UInt8.toNat = Digits.fixed 256 8 n := by
  simp [toBeBytes, Digits.fixed, Nat.div_div_eq_div_mul]

/-- Eight bytes hold a length that is less than `2 ^ 64`. -/
theorem toBeBytes_inj {n m : Nat} (hn : n < 2 ^ 64) (hm : m < 2 ^ 64)
    (h : toBeBytes n = toBeBytes m) : n = m := by
  have hdigits : Digits.fixed 256 8 n = Digits.fixed 256 8 m := by
    rw [← toBeBytes_eq_fixed, ← toBeBytes_eq_fixed, h]
  have hvalue := congrArg (Digits.value 256) hdigits
  rw [Digits.value_fixed, Digits.value_fixed] at hvalue
  omega

/-- The first field of a sequence, and what follows it. -/
theorem writeField_append_inj {field field' rest rest' : Bytes} (hfield : field.length < 2 ^ 64)
    (hfield' : field'.length < 2 ^ 64)
    (h : writeField field ++ rest = writeField field' ++ rest') :
    field = field' ∧ rest = rest' := by
  rw [writeField, writeField, List.append_assoc, List.append_assoc] at h
  have hwidth : (toBeBytes field.length).length = (toBeBytes field'.length).length := by
    simp [toBeBytes]
  obtain ⟨hlength, htail⟩ := List.append_inj h hwidth
  exact List.append_inj htail (toBeBytes_inj hfield hfield' hlength)

theorem flatMap_writeField_inj {fields fields' : List Bytes}
    (hfields : ∀ f ∈ fields, f.length < 2 ^ 64) (hfields' : ∀ f ∈ fields', f.length < 2 ^ 64)
    (h : fields.flatMap writeField = fields'.flatMap writeField) : fields = fields' := by
  induction fields generalizing fields' with
  | nil =>
    cases fields' with
    | nil => rfl
    | cons field' fields' => simp [writeField, toBeBytes] at h
  | cons field fields ih =>
    cases fields' with
    | nil => simp [writeField, toBeBytes] at h
    | cons field' fields' =>
      rw [List.flatMap_cons, List.flatMap_cons] at h
      obtain ⟨hfield, hrest⟩ := writeField_append_inj (hfields field List.mem_cons_self)
        (hfields' field' List.mem_cons_self) h
      rw [hfield, ih (fun f hf => hfields f (List.mem_cons_of_mem _ hf))
        (fun f hf => hfields' f (List.mem_cons_of_mem _ hf)) hrest]

/-! ## Rows -/

section Rows

variable {C : AuditCodec}

/-- What is relied on of the texts of user ids. -/
structure ReadsUuids (C : AuditCodec) : Prop where
  parse_show : ∀ u, C.parseUuid (C.showUuid u) = some u
  parse_empty : C.parseUuid "" = none

/-- The texts of the fields, as they are hashed. -/
def fieldTexts (C : AuditCodec) (row : AuditEntry) : List String :=
  [C.rfc3339 row.at_, (row.actor.map C.showUuid).getD "", row.action, row.target.getD "",
    row.result, row.note.getD ""]

theorem canonicalBytes_eq_flatMap (C : AuditCodec) (row : AuditEntry) :
    canonicalBytes C row = ((fieldTexts C row).map utf8).flatMap writeField := by
  simp [canonicalBytes, fieldTexts]

/-- The length of every text is a `usize`. -/
def Fits (C : AuditCodec) (row : AuditEntry) : Prop :=
  ∀ text ∈ fieldTexts C row, (utf8 text).length < 2 ^ 64

/-- The bytes determine the texts. -/
theorem fieldTexts_eq_of_canonicalBytes {row row' : AuditEntry} (hrow : Fits C row)
    (hrow' : Fits C row') (h : canonicalBytes C row = canonicalBytes C row') :
    fieldTexts C row = fieldTexts C row' := by
  have hshort : ∀ {row}, Fits C row → ∀ f ∈ (fieldTexts C row).map utf8, f.length < 2 ^ 64 := by
    intro row hrow f hf
    obtain ⟨text, htext, rfl⟩ := List.mem_map.mp hf
    exact hrow text htext
  rw [canonicalBytes_eq_flatMap, canonicalBytes_eq_flatMap] at h
  have hfields := flatMap_writeField_inj (hshort hrow) (hshort hrow') h
  exact List.map_injective_iff.mpr (fun _ _ => utf8_inj) hfields

/-- An actor that is absent has no text, and no two actors share one. -/
theorem actor_eq_of_text (hC : ReadsUuids C) {actor actor' : Option UserId}
    (h : (actor.map C.showUuid).getD "" = (actor'.map C.showUuid).getD "") : actor = actor' := by
  have hread : ∀ actor : Option UserId,
      C.parseUuid ((actor.map C.showUuid).getD "") = actor := by
    intro actor
    cases actor with
    | none => exact hC.parse_empty
    | some u => exact hC.parse_show u
  rw [← hread actor, h, hread actor']

/-- Two rows have the same bytes if they agree in every field, where an absent target or note
counts as an empty one. -/
theorem canonical_bytes_eq_iff (hC : ReadsUuids C) {row row' : AuditEntry} (hrow : Fits C row)
    (hrow' : Fits C row') (hat : C.rfc3339 row.at_ = C.rfc3339 row'.at_ → row.at_ = row'.at_) :
    canonicalBytes C row = canonicalBytes C row' ↔
      row.at_ = row'.at_ ∧ row.actor = row'.actor ∧ row.action = row'.action ∧
        row.target.getD "" = row'.target.getD "" ∧ row.result = row'.result ∧
        row.note.getD "" = row'.note.getD "" := by
  constructor
  · intro h
    have htexts := fieldTexts_eq_of_canonicalBytes hrow hrow' h
    simp only [fieldTexts, List.cons.injEq, and_true] at htexts
    obtain ⟨htime, hactor, haction, htarget, hresult, hnote⟩ := htexts
    exact ⟨hat htime, actor_eq_of_text hC hactor, haction, htarget, hresult, hnote⟩
  · rintro ⟨htime, hactor, haction, htarget, hresult, hnote⟩
    have htexts : fieldTexts C row = fieldTexts C row' := by
      rw [fieldTexts, fieldTexts, htime, hactor, haction, htarget, hresult, hnote]
    rw [canonicalBytes_eq_flatMap, canonicalBytes_eq_flatMap, htexts]

end Rows

/-! ## Two rows -/

/-- Times and user ids as decimal numbers. -/
def decimalCodec : AuditCodec where
  showAt t := toString t
  parseAt _ := none
  rfc3339 t := toString t
  showUuid u := toString u
  parseUuid s := if Digits.isCanonical s then some (Digits.decimal s) else none

theorem decimalCodec_readsUuids : ReadsUuids decimalCodec where
  parse_show u := by
    show (if Digits.isCanonical (toString u) then some (Digits.decimal (toString u)) else none) = _
    rw [if_pos (Digits.isCanonical_toString u), Digits.decimal_toString]
  parse_empty := by decide

def rowWithNote (note : Option String) : AuditEntry where
  at_ := 0
  actor := some 1
  action := "auth.login"
  target := none
  result := "success"
  note

theorem rowWithNote_fits : ∀ note ∈ [none, some "", some "ip=::1"],
    Fits decimalCodec (rowWithNote note) := by
  intro note hnote
  have hlength : ∀ note ∈ [none, some "", some "ip=::1"],
      ∀ text ∈ fieldTexts decimalCodec (rowWithNote note), (utf8 text).length < 32 := by
    decide +kernel
  exact fun text htext => (hlength note hnote text htext).trans (by decide)

theorem canonical_bytes_note_differs :
    canonicalBytes decimalCodec (rowWithNote none) ≠
      canonicalBytes decimalCodec (rowWithNote (some "ip=::1")) := by
  have hsame := canonical_bytes_eq_iff decimalCodec_readsUuids (rowWithNote_fits none (by decide))
    (rowWithNote_fits (some "ip=::1") (by decide)) fun _ => rfl
  rw [ne_eq, hsame]
  decide

/-- Two rows of the same time: a note that is absent is hashed as one that is empty. -/
theorem canonical_bytes_note_absent :
    (rowWithNote none).at_ = (rowWithNote (some "")).at_ ∧
      canonicalBytes decimalCodec (rowWithNote none) =
        canonicalBytes decimalCodec (rowWithNote (some "")) ∧
      rowWithNote none ≠ rowWithNote (some "") := by
  refine ⟨rfl, rfl, ?_⟩
  intro h
  cases congrArg AuditEntry.note h

end SuiId.Audit
