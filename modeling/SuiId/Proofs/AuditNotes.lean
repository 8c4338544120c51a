import SuiId.Store.ClassA

/-!
# Audit notes are read back

What the encoder writes for a character is decoded to the bytes of the character
(`decodeNoteBytes_encodeNoteChar`), so `decode_note_value` undoes `encode_note_value`.  No
encoded value has a separator in it (`of_mem_encodeNoteValue`), so the pieces of a note between
spaces are its pairs.
-/

namespace SuiId

open Lib

/-! ## Values -/

private theorem decodeNoteBytes_cons {b : UInt8} (h : b ≠ 37) (rest : Bytes) :
    decodeNoteBytes (b :: rest) = b :: decodeNoteBytes rest := by
  match rest with
  | [] => rfl
  | [_] => rfl
  | _ :: _ :: _ => rw [decodeNoteBytes, if_neg h]

/-- Bytes without a percent sign stand for themselves. -/
private theorem decodeNoteBytes_append {bytes : Bytes} (h : 37 ∉ bytes) (rest : Bytes) :
    decodeNoteBytes (bytes ++ rest) = bytes ++ decodeNoteBytes rest := by
  induction bytes with
  | nil => rfl
  | cons b bytes ih =>
    rw [List.mem_cons, not_or] at h
    rw [List.cons_append, decodeNoteBytes_cons (Ne.symm h.1), ih h.2, List.cons_append]

private theorem percentEncode_cons (b : UInt8) (bytes : Bytes) :
    percentEncode (b :: bytes) =
      ['%', upperHexDigit (b.toNat / 16), upperHexDigit (b.toNat % 16)] ++ percentEncode bytes :=
  List.flatMap_cons

/-- The digits that are written for a byte are read as the byte. -/
private theorem utf8_percentByte : ∀ b : UInt8, ∃ high low h l,
    ['%', upperHexDigit (b.toNat / 16), upperHexDigit (b.toNat % 16)].flatMap
      String.utf8EncodeChar = [37, high, low] ∧
    hexVal high = some h ∧ hexVal low = some l ∧ h * 16 + l = b := by
  intro b
  have hdigit {d : UInt8} (hd : d.toNat < 16) :
      String.utf8EncodeChar (upperHexDigit d.toNat) = [FormUrl.hexDigit d] ∧
        hexVal (FormUrl.hexDigit d) = some d := by
    refine FormUrl.forall_digit (p := fun d => String.utf8EncodeChar (upperHexDigit d.toNat) =
      [FormUrl.hexDigit d] ∧ hexVal (FormUrl.hexDigit d) = some d) ?_ hd
    decide
  obtain ⟨hhigh, hlow⟩ := FormUrl.digits_lt b
  refine ⟨FormUrl.hexDigit (b / 16), FormUrl.hexDigit (b % 16), b / 16, b % 16, ?_,
    (hdigit hhigh).2, (hdigit hlow).2, by rw [UInt8.mul_comm, FormUrl.digits_value]⟩
  show String.utf8EncodeChar '%' ++ (String.utf8EncodeChar (upperHexDigit (b / 16).toNat) ++
    (String.utf8EncodeChar (upperHexDigit (b % 16).toNat) ++ [])) = _
  rw [(hdigit hhigh).1, (hdigit hlow).1]
  rfl

private theorem decodeNoteBytes_percentEncode (bytes rest : Bytes) :
    decodeNoteBytes ((percentEncode bytes).flatMap String.utf8EncodeChar ++ rest) =
      bytes ++ decodeNoteBytes rest := by
  induction bytes with
  | nil => rfl
  | cons b bytes ih =>
    obtain ⟨high, low, h, l, hbytes, hhigh, hlow, hb⟩ := utf8_percentByte b
    rw [percentEncode_cons, List.flatMap_append, hbytes]
    simp only [List.cons_append, List.nil_append]
    rw [decodeNoteBytes, if_pos rfl, hhigh, hlow]
    show (h * 16 + l) :: decodeNoteBytes _ = _
    rw [hb, ih]

/-- A character whose encoding is decoded gives its own bytes. -/
theorem decodeNoteBytes_encodeNoteChar (c : Char) (rest : Bytes) :
    decodeNoteBytes ((encodeNoteChar c).flatMap String.utf8EncodeChar ++ rest) =
      String.utf8EncodeChar c ++ decodeNoteBytes rest := by
  have hutf8 : utf8 (String.ofList [c]) = String.utf8EncodeChar c := by
    rw [utf8_ofList, List.flatMap_singleton]
  rw [encodeNoteChar]
  split
  · rw [decodeNoteBytes_percentEncode, String.singleton_eq_ofList, hutf8]
  · next hplain =>
    have hne : c ≠ '%' := by
      intro h
      subst h
      exact hplain rfl
    have hmem : 37 ∉ String.utf8EncodeChar c := by
      rw [← hutf8, mem_utf8 (c := '%') (by decide) rfl, String.toList_ofList, List.mem_singleton]
      exact Ne.symm hne
    rw [List.flatMap_singleton, decodeNoteBytes_append hmem]

theorem decodeNoteValue_encodeNoteValue (value : String) :
    decodeNoteValue (encodeNoteValue value) = value := by
  have hbytes (cs : List Char) :
      decodeNoteBytes ((cs.flatMap encodeNoteChar).flatMap String.utf8EncodeChar) =
        cs.flatMap String.utf8EncodeChar := by
    induction cs with
    | nil => rfl
    | cons c cs ih =>
      rw [List.flatMap_cons, List.flatMap_append, decodeNoteBytes_encodeNoteChar, ih,
        List.flatMap_cons]
  rw [decodeNoteValue, encodeNoteValue, utf8_ofList, hbytes, FormUrl.lossy,
    FormUrl.lossyFrom_utf8Encode, String.ofList_toList]

private theorem of_mem_percentEncode {c : Char} {bytes : Bytes} (h : c ∈ percentEncode bytes) :
    c ≠ '=' ∧ Text.isWhitespace c = false ∧ isControl c = false := by
  have hdigit : ∀ n < 16, upperHexDigit n ≠ '=' ∧ Text.isWhitespace (upperHexDigit n) = false ∧
      isControl (upperHexDigit n) = false := by
    decide
  obtain ⟨b, -, hc⟩ := List.mem_flatMap.mp h
  have hb := b.toNat_lt
  rw [List.mem_cons, List.mem_cons, List.mem_singleton] at hc
  rcases hc with rfl | rfl | rfl
  · decide
  · exact hdigit _ (by omega)
  · exact hdigit _ (by omega)

/-- An encoded value has no character that separates. -/
theorem of_mem_encodeNoteValue {c : Char} {value : String}
    (h : c ∈ (encodeNoteValue value).toList) :
    c ≠ '=' ∧ Text.isWhitespace c = false ∧ isControl c = false := by
  rw [encodeNoteValue, String.toList_ofList] at h
  obtain ⟨d, -, hc⟩ := List.mem_flatMap.mp h
  rw [encodeNoteChar] at hc
  split at hc
  · exact of_mem_percentEncode hc
  · next hplain =>
    rw [List.mem_singleton.mp hc]
    simp only [Bool.or_eq_true, beq_iff_eq, not_or, Bool.not_eq_true] at hplain
    exact ⟨hplain.1.1.2, hplain.1.2, hplain.2⟩

/-! ## Pairs -/

variable {attributes : AuditAttributes} {note : String}

private theorem toList_notePair (e : String × String) :
    (notePair e).toList = e.1.toList ++ '=' :: (encodeNoteValue e.2).toList := by
  rw [notePair, String.toList_append, String.toList_append, List.append_assoc]
  rfl

private theorem space_notMem_notePair {e : String × String} (hkey : ' ' ∉ e.1.toList) :
    ' ' ∉ (notePair e).toList := by
  rw [toList_notePair, List.mem_append, List.mem_cons]
  rintro (h | h | h)
  · exact hkey h
  · exact absurd h (by decide)
  · have hspace := (of_mem_encodeNoteValue h).2.1
    rw [show Text.isWhitespace ' ' = true from rfl] at hspace
    cases hspace

private theorem splitOnce_notePair {e : String × String} (hkey : '=' ∉ e.1.toList) :
    Text.splitOnce (notePair e) "=" = some (e.1, encodeNoteValue e.2) := by
  rw [← String.ofList_toList (s := notePair e), toList_notePair,
    Text.splitOnce_append hkey _ "=" rfl, String.ofList_toList, String.ofList_toList]

/-- The pieces of a note between spaces are its pairs. -/
theorem split_renderNote (hkeys : ∀ e ∈ attributes.entries, ' ' ∉ e.1.toList)
    (hnote : renderNote attributes = some note) :
    Text.split note ' ' = attributes.entries.map notePair := by
  rw [renderNote] at hnote
  split at hnote
  · cases hnote
  · next hempty =>
    rw [List.isEmpty_iff] at hempty
    apply Text.split_intercalate
    · rwa [ne_eq, List.map_eq_nil_iff]
    · intro piece hpiece
      obtain ⟨e, he, rfl⟩ := List.mem_map.mp hpiece
      exact space_notMem_notePair (hkeys e he)
    · rw [← Option.some.inj hnote, String.toList_intercalate]
      rfl

theorem parseNote_renderNote
    (hkeys : ∀ e ∈ attributes.entries, ' ' ∉ e.1.toList ∧ '=' ∉ e.1.toList)
    (hnote : renderNote attributes = some note) : parseNote note = attributes.entries := by
  have hpieces : (attributes.entries.map notePair).filterMap (fun tok => Text.splitOnce tok "=") =
      attributes.entries.map fun e => (e.1, encodeNoteValue e.2) := by
    rw [List.filterMap_map, ← List.filterMap_eq_map]
    exact List.filterMap_congr fun e he => splitOnce_notePair (hkeys e he).2
  rw [parseNote, split_renderNote (fun e he => (hkeys e he).1) hnote, hpieces, List.map_map]
  refine (List.map_congr_left fun e _ => ?_).trans (List.map_id _)
  show (e.1, decodeNoteValue (encodeNoteValue e.2)) = e
  rw [decodeNoteValue_encodeNoteValue]

/-- Of pairs with different keys, each key has its own value. -/
private theorem findSome_reverse {entries : List (String × String)}
    (hnodup : (entries.map Prod.fst).Nodup) (key value : String) :
    (entries.reverse.findSome? fun (k, v) => if k = key then some v else none) = some value ↔
      (key, value) ∈ entries := by
  have hother (p : String × String) :
      (if p.1 = key then some p.2 else none) = some value ↔ p = (key, value) := by
    rw [Option.ite_none_right_eq_some, Option.some.injEq, Prod.ext_iff]
  constructor
  · intro h
    obtain ⟨p, hp, hvalue⟩ := List.exists_of_findSome?_eq_some h
    rw [← (hother p).mp hvalue]
    exact List.mem_reverse.mp hp
  · intro h
    induction entries with
    | nil => cases h
    | cons e entries ih =>
      rw [List.map_cons, List.nodup_cons] at hnodup
      rw [List.reverse_cons, List.findSome?_append]
      rcases List.mem_cons.mp h with rfl | h
      · have hnone : (entries.reverse.findSome? fun (p : String × String) =>
            if p.1 = key then some p.2 else none) = none := by
          rw [List.findSome?_eq_none_iff]
          intro p hp
          apply if_neg
          intro hkey
          apply hnodup.1
          show key ∈ _
          rw [← hkey]
          exact List.mem_map_of_mem (f := Prod.fst) (List.mem_reverse.mp hp)
        show (entries.reverse.findSome? fun (p : String × String) =>
          if p.1 = key then some p.2 else none).or _ = _
        rw [hnone]
        simp
      · have hfound := ih hnodup.2 h
        show (entries.reverse.findSome? fun (p : String × String) =>
          if p.1 = key then some p.2 else none).or _ = _
        rw [hfound, Option.some_or]

/-- `note_field` finds a key's own value, and nothing under another key. -/
theorem noteField_renderNote
    (hkeys : ∀ e ∈ attributes.entries, ' ' ∉ e.1.toList ∧ '=' ∉ e.1.toList)
    (hnote : renderNote attributes = some note) (key value : String) :
    noteField note key = some value ↔ (key, value) ∈ attributes.entries := by
  rw [noteField, parseNote_renderNote hkeys hnote]
  exact findSome_reverse attributes.distinct key value

theorem noteField_eq_none
    (hkeys : ∀ e ∈ attributes.entries, ' ' ∉ e.1.toList ∧ '=' ∉ e.1.toList)
    (hnote : renderNote attributes = some note) {key : String}
    (hkey : key ∉ attributes.entries.map Prod.fst) : noteField note key = none := by
  rw [Option.eq_none_iff_forall_ne_some]
  intro value hvalue
  apply hkey
  have hmem := (noteField_renderNote hkeys hnote key value).mp hvalue
  exact List.mem_map_of_mem (f := Prod.fst) hmem

/-- The note of attributes: its pieces are the pairs, `parse_note` reads them in order, and
`note_field` finds for each key what was recorded under it and nothing under another.  A value is
decoded to itself, and its encoding has no character in it that could begin or end a pair. -/
theorem audit_notes_read_back (attributes : AuditAttributes)
    (hkeys : ∀ e ∈ attributes.entries, ' ' ∉ e.1.toList ∧ '=' ∉ e.1.toList) :
    (renderNote attributes = none ↔ attributes.entries = []) ∧
      (∀ note, renderNote attributes = some note →
        Text.split note ' ' = attributes.entries.map notePair ∧
        parseNote note = attributes.entries ∧
        (∀ e ∈ attributes.entries, noteField note e.1 = some e.2) ∧
        ∀ key, key ∉ attributes.entries.map Prod.fst → noteField note key = none) ∧
      ∀ value, decodeNoteValue (encodeNoteValue value) = value ∧
        ∀ c ∈ (encodeNoteValue value).toList,
          c ≠ '=' ∧ Text.isWhitespace c = false ∧ isControl c = false := by
  refine ⟨?_, ?_, ?_⟩
  · rw [renderNote]
    split
    · next hempty => simpa using hempty
    · next hempty => simpa using hempty
  · intro note hnote
    refine ⟨split_renderNote (fun e he => (hkeys e he).1) hnote,
      parseNote_renderNote hkeys hnote, ?_, ?_⟩
    · intro e he
      exact (noteField_renderNote hkeys hnote e.1 e.2).mpr he
    · intro key hkey
      exact noteField_eq_none hkeys hnote hkey
  · intro value
    exact ⟨decodeNoteValue_encodeNoteValue value, fun c => of_mem_encodeNoteValue⟩

/-- A reason that imitates another field, beside that field. -/
def imitatingAttributes : AuditAttributes :=
  ((AuditAttributesBuilder.new.addAttribute "reason" "no step_up=fresh\u2028%3D").addAttribute
    "step_up" "stale").attributes

theorem audit_notes_read_back_of_imitation :
    (∀ e ∈ imitatingAttributes.entries, ' ' ∉ e.1.toList ∧ '=' ∉ e.1.toList) ∧
      ∃ note, renderNote imitatingAttributes = some note ∧
        noteField note "reason" = some "no step_up=fresh\u2028%3D" ∧
        noteField note "step_up" = some "stale" := by
  have hkeys : ∀ e ∈ imitatingAttributes.entries, ' ' ∉ e.1.toList ∧ '=' ∉ e.1.toList := by
    decide
  obtain ⟨hnone, hread, -⟩ := audit_notes_read_back imitatingAttributes hkeys
  have hsome : (renderNote imitatingAttributes).isSome := by
    rw [Option.isSome_iff_ne_none, ne_eq, hnone]
    decide
  obtain ⟨note, hnote⟩ := Option.isSome_iff_exists.mp hsome
  have hfields := (hread note hnote).2.2.1
  refine ⟨hkeys, note, hnote, ?_, ?_⟩
  · exact hfields ("reason", "no step_up=fresh\u2028%3D") (by decide)
  · exact hfields ("step_up", "stale") (by decide)

end SuiId
