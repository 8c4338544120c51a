import SuiId.Store.AuditChain
import SuiId.Lib.Machine

/-!
# What the audit chain is evidence of

* `walk_unbroken_iff` says exactly when the walk of `verify_chain_tail` finds nothing:
  the rows are numbered without a gap and form a hash chain with a legacy prefix.
* Two tables that verify and end in the same row agree in every hashed row: the newest
  hash fixes all the hashes before it (`Chain.Linked.agree`), since the text that is
  hashed determines the link and the row.
* A log that was only appended to verifies in every window exactly if each append that finds a
  hashed row is linked to it (`audit_log_verifies_iff`).  One whose query for the newest hash
  fails is not, and commits.
-/

namespace SuiId.Audit

open Lib Lib.Result

/-! ## The walk -/

section Walk

variable (P : Primitives) (C : AuditCodec)

/-- The rows as a chain. -/
def reading : Chain.Reading ChainRow String where
  hash := ChainRow.hash
  prev := ChainRow.prev
  blank := ""
  sound := fun r => computeHash P C r.prev r.row = r.hash

/-- The rows are numbered without a gap, from `expected` on if it is known. -/
def Contiguous : (expected : Option Int) → List ChainRow → Prop
  | _, [] => True
  | expected, r :: rs => (∀ seq ∈ expected, r.seq = seq) ∧ Contiguous (some (r.seq + 1)) rs

/-- What the walk asks of the rows. -/
structure Continues (w : ChainWalk) (rs : List ChainRow) : Prop where
  start : w.atStart = true → ∀ r ∈ rs.head?, r.seq = 1
  seqs : Contiguous w.expectedSeq rs
  linked : Chain.Linked (reading P C) w.expectedPrev (w.seenHashed = true) rs

variable {P C}

@[simp] theorem reading_hash (r : ChainRow) : (reading P C).hash r = r.hash := rfl

@[simp] theorem reading_prev (r : ChainRow) : (reading P C).prev r = r.prev := rfl

@[simp] theorem reading_blank : (reading P C).blank = "" := rfl

@[simp] theorem reading_sound (r : ChainRow) :
    (reading P C).sound r ↔ computeHash P C r.prev r.row = r.hash := Iff.rfl

variable {w : ChainWalk} {rs : List ChainRow}

/-- The walk finds nothing exactly in rows that continue the chain. -/
theorem walk_unbroken_iff (hw : w.report.brokenAtSeq = none) :
    (walk P C w rs).brokenAtSeq = none ↔ Continues P C w rs := by
  induction rs generalizing w with
  | nil =>
    refine ⟨fun _ => ⟨?_, trivial, trivial⟩, fun _ => hw⟩
    intro _ r hr
    cases hr
  | cons r rs ih =>
    unfold walk
    split
    · rename_i hstart
      simp only [Bool.and_eq_true, bne_iff_ne, ne_eq] at hstart
      constructor
      · intro h
        cases h
      · intro h
        exact absurd (h.start hstart.1 r rfl) hstart.2
    split
    · rename_i hseq
      constructor
      · intro h
        cases h
      · intro h
        obtain ⟨seq, hexpected, hne⟩ := (Option.any_eq_true _ _).mp hseq
        rw [bne_iff_ne] at hne
        exact absurd (h.seqs.1 seq hexpected).symm hne
    rename_i hstart hseq
    have hstart' : w.atStart = true → ∀ x ∈ (r :: rs).head?, x.seq = 1 := by
      intro hat x hx
      cases hx
      simpa [hat] using hstart
    have hseq' : ∀ seq ∈ w.expectedSeq, r.seq = seq := by
      intro seq hexpected
      by_contra hne
      apply hseq
      rw [Option.mem_def.mp hexpected, Option.any_some, bne_iff_ne]
      exact Ne.symm hne
    dsimp only
    split
    · rename_i hempty
      have hblank : r.hash = "" := by simpa using hempty
      split
      · rename_i hseen
        constructor
        · intro h
          cases h
        · intro h
          rcases h.linked with hlegacy | hhashed
          · exact absurd hseen hlegacy.2.1
          · exact absurd hblank hhashed.1
      · rename_i hseen
        refine Iff.trans (ih ?_) ?_
        · exact hw
        constructor
        · intro h
          exact ⟨hstart', ⟨hseq', h.seqs⟩, .inl ⟨hblank, hseen, by simpa [hseen] using h.linked⟩⟩
        · intro h
          refine ⟨fun hat => (by cases hat), h.seqs.2, ?_⟩
          rcases h.linked with hlegacy | hhashed
          · simpa [hseen] using hlegacy.2.2
          · exact absurd hblank hhashed.1
    · rename_i hempty
      have hblank : r.hash ≠ "" := by simpa using hempty
      split
      · rename_i hprev
        constructor
        · intro h
          cases h
        · intro h
          rcases h.linked with hlegacy | hhashed
          · exact absurd hlegacy.1 hblank
          · exact absurd hhashed.2.1 (bne_iff_ne.mp hprev)
      · rename_i hprev
        split
        · rename_i hcomputed
          constructor
          · intro h
            cases h
          · intro h
            rcases h.linked with hlegacy | hhashed
            · exact absurd hlegacy.1 hblank
            · exact absurd hhashed.2.2.1 (bne_iff_ne.mp hcomputed)
        · rename_i hcomputed
          refine Iff.trans (ih ?_) ?_
          · exact hw
          constructor
          · intro h
            exact ⟨hstart', ⟨hseq', h.seqs⟩,
              .inr ⟨hblank, by simpa using hprev, by simpa using hcomputed,
                by simpa using h.linked⟩⟩
          · intro h
            refine ⟨fun hat => (by cases hat), h.seqs.2, ?_⟩
            rcases h.linked with hlegacy | hhashed
            · exact absurd hlegacy.1 hblank
            · simpa using hhashed.2.2.2

/-- An unbroken walk has counted every row. -/
theorem walk_counts (h : (walk P C w rs).brokenAtSeq = none) :
    (walk P C w rs).checked + (walk P C w rs).legacyUnhashed =
      w.report.checked + w.report.legacyUnhashed + rs.length := by
  induction rs generalizing w with
  | nil => rfl
  | cons r rs ih =>
    unfold walk at h ⊢
    split at h
    · cases h
    rename_i hstart
    rw [if_neg hstart]
    split at h
    · cases h
    rename_i hseq
    rw [if_neg hseq]
    dsimp only at h ⊢
    split at h
    · rename_i hempty
      rw [if_pos hempty]
      split at h
      · cases h
      rename_i hseen
      rw [if_neg hseen, ih h, List.length_cons]
      dsimp only
      omega
    · rename_i hempty
      rw [if_neg hempty]
      split at h
      · cases h
      rename_i hprev
      rw [if_neg hprev]
      split at h
      · cases h
      rename_i hcomputed
      rw [if_neg hcomputed, ih h, List.length_cons]
      dsimp only
      omega

end Walk

/-! ## What a hash fixes -/

section Bytes

private theorem hexDigit_ascii :
    ∀ n < 16, (hexDigit n).utf8Size = 1 ∧ (hexDigit n).val.toUInt8 ≠ 0 := by decide

private theorem hexDigit_inj : ∀ n < 16, ∀ m < 16, hexDigit n = hexDigit m → n = m := by decide

/-- The digits of a byte as bytes. -/
private def hexBytes (b : UInt8) : Bytes :=
  [(hexDigit (b.toNat / 16)).val.toUInt8, (hexDigit (b.toNat % 16)).val.toUInt8]

private theorem utf8_hexLower (bytes : Bytes) : utf8 (hexLower bytes) = bytes.flatMap hexBytes := by
  rw [hexLower, utf8_ofList, List.flatMap_assoc]
  apply List.flatMap_congr
  intro b _
  have hb : b.toNat < 256 := b.toNat_lt
  have hhigh := hexDigit_ascii (b.toNat / 16) (by omega)
  have hlow := hexDigit_ascii (b.toNat % 16) (by omega)
  simp [hexBytes, String.utf8EncodeChar_eq_singleton hhigh.1,
    String.utf8EncodeChar_eq_singleton hlow.1]

theorem length_utf8_hexLower (bytes : Bytes) :
    (utf8 (hexLower bytes)).length = 2 * bytes.length := by
  rw [utf8_hexLower]
  induction bytes with
  | nil => rfl
  | cons b bytes ih =>
    rw [List.flatMap_cons, List.length_append, ih, List.length_cons]
    simp [hexBytes]
    omega

variable {bytes : Bytes}

/-- Hexadecimal digits are not zero bytes. -/
theorem head_utf8_hexLower (h : bytes ≠ []) :
    ∃ b rest, utf8 (hexLower bytes) = b :: rest ∧ b ≠ 0 := by
  rw [utf8_hexLower]
  cases bytes with
  | nil => exact absurd rfl h
  | cons b bytes =>
    have hb : b.toNat < 256 := b.toNat_lt
    exact ⟨_, _, rfl, (hexDigit_ascii (b.toNat / 16) (by omega)).2⟩

theorem hexLower_inj {bytes' : Bytes} (h : hexLower bytes = hexLower bytes') :
    bytes = bytes' := by
  have hchars := String.ofList_injective h
  clear h
  induction bytes generalizing bytes' with
  | nil =>
    cases bytes' with
    | nil => rfl
    | cons b' bytes' => cases hchars
  | cons b bytes ih =>
    cases bytes' with
    | nil => cases hchars
    | cons b' bytes' =>
      have hb : b.toNat < 256 := b.toNat_lt
      have hb' : b'.toNat < 256 := b'.toNat_lt
      simp only [List.flatMap_cons, List.cons_append, List.nil_append, List.cons.injEq] at hchars
      obtain ⟨hhigh, hlow, hrest⟩ := hchars
      have hhigh' := hexDigit_inj _ (by omega) _ (by omega) hhigh
      have hlow' := hexDigit_inj _ (by omega) _ (by omega) hlow
      have hbyte : b = b' := UInt8.toNat_inj.mp (by omega)
      rw [hbyte, ih hrest]

end Bytes

section Fixes

variable {P : Primitives} {C : AuditCodec}

/-- The text of a time is short.  Chrono writes fewer than fifty characters. -/
def AuditCodecShort (C : AuditCodec) : Prop := ∀ t, (utf8 (C.rfc3339 t)).length < 2 ^ 56

/-- The bytes of a row begin with the highest byte of a small length. -/
theorem head_canonicalBytes (hshort : AuditCodecShort C) (row : AuditEntry) :
    ∃ rest, canonicalBytes C row = 0 :: rest := by
  have hzero : UInt8.ofNat ((utf8 (C.rfc3339 row.at_)).length / 256 ^ 7) = 0 := by
    rw [Nat.div_eq_of_lt (by have := hshort row.at_; omega)]
    rfl
  rw [canonicalBytes, writeField, toBeBytes]
  simp only [List.map_cons, List.cons_append, hzero]
  exact ⟨_, rfl⟩

/-- A link is empty or a digest. -/
def LinkOk (link : String) : Prop := link = "" ∨ ∃ digest : Bytes, digest.length = 32 ∧
  link = hexLower digest

/-- The hashed bytes determine the link and the bytes of the row. -/
theorem hashInput_inj (hshort : AuditCodecShort C) {link link' : String} {row row' : AuditEntry}
    (hlink : LinkOk link) (hlink' : LinkOk link')
    (h : utf8 link ++ canonicalBytes C row = utf8 link' ++ canonicalBytes C row') :
    link = link' ∧ canonicalBytes C row = canonicalBytes C row' := by
  obtain ⟨rest, hrow⟩ := head_canonicalBytes hshort row
  obtain ⟨rest', hrow'⟩ := head_canonicalBytes hshort row'
  have hempty : utf8 "" = [] := by decide
  have hdigest : ∀ {digest : Bytes}, digest.length = 32 → digest ≠ [] := by
    rintro digest hlength rfl
    cases hlength
  rcases hlink with rfl | ⟨digest, hlength, rfl⟩
  · rcases hlink' with rfl | ⟨digest', hlength', rfl⟩
    · rw [hempty, List.nil_append, List.nil_append] at h
      exact ⟨rfl, h⟩
    · obtain ⟨b, more, hhex, hb⟩ := head_utf8_hexLower (hdigest hlength')
      rw [hempty, List.nil_append, hrow, hhex] at h
      exact absurd (List.cons.inj h).1.symm hb
  · rcases hlink' with rfl | ⟨digest', hlength', rfl⟩
    · obtain ⟨b, more, hhex, hb⟩ := head_utf8_hexLower (hdigest hlength)
      rw [hempty, List.nil_append, hrow', hhex] at h
      exact absurd (List.cons.inj h).1 hb
    · have hlengths : (utf8 (hexLower digest)).length = (utf8 (hexLower digest')).length := by
        rw [length_utf8_hexLower, length_utf8_hexLower, hlength, hlength']
      obtain ⟨hlinks, hrows⟩ := List.append_inj h hlengths
      exact ⟨utf8_inj hlinks, hrows⟩

end Fixes

/-! ## Two tables that verify -/

section Commitment

variable {P : Primitives} {C : AuditCodec}

theorem readRow_ok {r : AuditColumns} {x : ChainRow} (h : readRow C r = .ok x) :
    x.seq = r.seq ∧ x.prev = r.prevHash ∧ x.hash = r.hash := by
  simp only [readRow, bind_eq_ok, pure_eq_ok] at h
  obtain ⟨at_, -, actor, -, rfl⟩ := h
  exact ⟨rfl, rfl, rfl⟩

/-- The limit covers the table. -/
def Covers (log : AuditLog) (limit : Int) : Prop := limit < 0 ∨ (log.rows.length : Int) ≤ limit

variable {log : AuditLog} {limit : Int} {xs : List ChainRow}

theorem window_covers (h : Covers log limit) :
    window log limit = log.rows.reverse := by
  unfold window
  split
  · rfl
  · rename_i hlimit
    apply List.take_of_length_le
    rw [List.length_reverse]
    have hlength := h.resolve_left hlimit
    omega

theorem boundary_covers (h : Covers log limit) :
    boundary log limit = none := by
  unfold boundary
  rw [window_covers h, List.getLast?_reverse]
  obtain ⟨rows, sorted⟩ := log
  cases rows with
  | nil => rfl
  | cons r rows =>
    have hnone : ((r :: rows).filter fun x => x.seq < r.seq) = [] := by
      rw [List.filter_eq_nil_iff]
      intro x hx
      rcases List.mem_cons.mp hx with rfl | hx
      · simp
      · have hlt := (List.pairwise_cons.mp sorted).1 x hx
        simp only [decide_eq_true_eq]
        omega
    simp only [List.head?_cons]
    rw [hnone]
    rfl

/-- What a full verification says about the table. -/
theorem verifyChainTail_covers {report : ChainVerifyReport} (hcovers : Covers log limit)
    (h : verifyChainTail P C log limit = .ok report) (hunbroken : report.brokenAtSeq = none) :
    ∃ xs, List.Forall₂ (fun r x => readRow C r = .ok x) log.rows xs ∧
      Continues P C (startWalk none) xs := by
  simp only [verifyChainTail, bind_eq_ok, pure_eq_ok, mapM_eq_ok, window_covers hcovers,
    boundary_covers hcovers] at h
  obtain ⟨rows, hrows, rfl⟩ := h
  refine ⟨rows.reverse, ?_, (walk_unbroken_iff rfl).mp hunbroken⟩
  rw [← List.reverse_reverse log.rows]
  exact List.rel_reverse hrows

/-- The newest number of rows without a gap. -/
theorem Contiguous.getLast {seq : Int} (h : Contiguous (some seq) xs) :
    ∀ x ∈ xs.getLast?, x.seq + 1 = seq + xs.length := by
  induction xs generalizing seq with
  | nil =>
    intro x hx
    cases hx
  | cons x xs ih =>
    have hx : x.seq = seq := h.1 seq rfl
    cases xs with
    | nil =>
      intro y hy
      cases hy
      simp [hx]
    | cons x' xs =>
      intro y hy
      rw [List.getLast?_cons_cons] at hy
      have hlast := ih h.2 y hy
      simp only [List.length_cons] at hlast ⊢
      omega

/-- A table that verifies has as many rows as its newest number says. -/
theorem Continues.length (h : Continues P C (startWalk none) xs) :
    ∀ x ∈ xs.getLast?, x.seq = xs.length := by
  cases xs with
  | nil =>
    intro x hx
    cases hx
  | cons x xs =>
    have hfirst : x.seq = 1 := h.start rfl x rfl
    have hcontiguous : Contiguous (some 1) (x :: xs) := by
      refine ⟨?_, h.seqs.2⟩
      intro seq hseq
      cases hseq
      exact hfirst
    intro y hy
    have hlast := hcontiguous.getLast y hy
    omega

/-- The newest number and hash. -/
def newest (log : AuditLog) :
    Option (Int × String) := log.rows.getLast?.map fun r => (r.seq, r.hash)

/-- The bytes of a row that go into its hash. -/
def canonical (C : AuditCodec) (r : AuditColumns) : StoreResult Bytes :=
  (readRow C r).map fun x => canonicalBytes C x.row

/-- No two rows of the tables have one digest of different bytes. -/
def NoCollision (P : Primitives) (C : AuditCodec) (log log' : AuditLog) : Prop :=
  ∀ r ∈ log.rows, ∀ r' ∈ log'.rows, ∀ x x', readRow C r = .ok x → readRow C r' = .ok x' →
    P.sha256 (utf8 x.prev ++ canonicalBytes C x.row) =
      P.sha256 (utf8 x'.prev ++ canonicalBytes C x'.row) →
    utf8 x.prev ++ canonicalBytes C x.row = utf8 x'.prev ++ canonicalBytes C x'.row

variable {rows : List AuditColumns} {xs' : List ChainRow}

/-- A row agrees with its image as far as the rows of the chains do. -/
private theorem agree_columns {rows' : List AuditColumns}
    (hrows : List.Forall₂ (fun r x => readRow C r = .ok x) rows xs)
    (hrows' : List.Forall₂ (fun r x => readRow C r = .ok x) rows' xs')
    (h : List.Forall₂ (Chain.Agree (reading P C) fun x => canonicalBytes C x.row) xs xs') :
    List.Forall₂ (fun r r' => r.hash ≠ "" ∨ r'.hash ≠ "" →
      r.prevHash = r'.prevHash ∧ r.hash = r'.hash ∧ canonical C r = canonical C r') rows rows' := by
  induction h generalizing rows rows' with
  | nil =>
    cases hrows
    cases hrows'
    exact .nil
  | cons hagree _ ih =>
    cases hrows with
    | cons hread hrows =>
      cases hrows' with
      | cons hread' hrows' =>
        refine .cons ?_ (ih hrows hrows')
        obtain ⟨-, hprev, hhash⟩ := readRow_ok hread
        obtain ⟨-, hprev', hhash'⟩ := readRow_ok hread'
        intro hhashed
        rw [← hhash, ← hhash'] at hhashed
        obtain ⟨hlink, hsame, hbytes⟩ := hagree hhashed
        rw [← hprev, ← hprev', ← hhash, ← hhash', canonical, canonical, hread, hread']
        exact ⟨hlink, hsame, congrArg Except.ok hbytes⟩

private theorem map_of_rows (hrows : List.Forall₂ (fun r x => readRow C r = .ok x) rows xs) :
    rows.map (fun r => (r.seq, r.hash)) = xs.map fun x => (x.seq, x.hash) := by
  induction hrows with
  | nil => rfl
  | cons hread _ ih =>
    obtain ⟨hseq, -, hhash⟩ := readRow_ok hread
    rw [List.map_cons, List.map_cons, ih, hseq, hhash]

/-- The newest number and hash of a table are those of the rows that were read. -/
private theorem newest_of_rows (hrows : List.Forall₂ (fun r x => readRow C r = .ok x) log.rows xs) :
    newest log = xs.getLast?.map fun x => (x.seq, x.hash) := by
  rw [newest, ← List.getLast?_map, ← List.getLast?_map, map_of_rows hrows]

/-- A full verification leaves the length to the newest number. -/
private theorem length_eq_of_newest (h : Continues P C (startWalk none) xs)
    (h' : Continues P C (startWalk none) xs')
    (hnewest : (xs.getLast?.map fun x => (x.seq, x.hash)) =
      xs'.getLast?.map fun x => (x.seq, x.hash)) : xs.length = xs'.length := by
  cases hlast : xs.getLast? with
  | none =>
    rw [hlast, Option.map_none, eq_comm, Option.map_eq_none_iff] at hnewest
    rw [List.getLast?_eq_none_iff.mp hlast, List.getLast?_eq_none_iff.mp hnewest]
  | some x =>
    rw [hlast, Option.map_some, eq_comm, Option.map_eq_some_iff] at hnewest
    obtain ⟨x', hlast', hsame⟩ := hnewest
    have hseq : x'.seq = x.seq := (Prod.mk.inj hsame).1
    have hlength := h.length x hlast
    have hlength' := h'.length x' hlast'
    omega

/-- Two tables that verify as a whole and have the same newest number and hash have as many
rows, and agree in every row that is hashed in either. -/
theorem audit_chain_commits (hdigest : ∀ bytes, (P.sha256 bytes).length = 32)
    (hshort : AuditCodecShort C) {log log' : AuditLog} {limit limit' : Int}
    (hcovers : Covers log limit) (hcovers' : Covers log' limit')
    (hcollision : NoCollision P C log log') {report report' : ChainVerifyReport}
    (hverify : verifyChainTail P C log limit = .ok report) (hunbroken : report.brokenAtSeq = none)
    (hverify' : verifyChainTail P C log' limit' = .ok report')
    (hunbroken' : report'.brokenAtSeq = none) (hnewest : newest log = newest log') :
    log.rows.length = log'.rows.length ∧
      List.Forall₂ (fun r r' => r.hash ≠ "" ∨ r'.hash ≠ "" →
        r.prevHash = r'.prevHash ∧ r.hash = r'.hash ∧ canonical C r = canonical C r')
        log.rows log'.rows := by
  obtain ⟨xs, hrows, hxs⟩ := verifyChainTail_covers hcovers hverify hunbroken
  obtain ⟨xs', hrows', hxs'⟩ := verifyChainTail_covers hcovers' hverify' hunbroken'
  rw [newest_of_rows hrows, newest_of_rows hrows'] at hnewest
  have hlength : xs.length = xs'.length := length_eq_of_newest hxs hxs' hnewest
  have htip : Chain.tip (reading P C) "" xs = Chain.tip (reading P C) "" xs' := by
    have hhash := congrArg (Option.map Prod.snd) hnewest
    rw [Option.map_map, Option.map_map] at hhash
    rw [Chain.tip_eq_getLast?, Chain.tip_eq_getLast?]
    exact congrArg (Option.getD · "") hhash
  have hsound : ∀ x, (reading P C).sound x → LinkOk x.hash := by
    intro x hx
    exact .inr ⟨_, hdigest _, hx.symm⟩
  have hfixes : ∀ x ∈ xs, ∀ x' ∈ xs', (reading P C).sound x → (reading P C).sound x' →
      LinkOk x.prev → LinkOk x'.prev → x.hash = x'.hash →
        x.prev = x'.prev ∧ canonicalBytes C x.row = canonicalBytes C x'.row := by
    intro x hx x' hx' hsound hsound' hlink hlink' hhash
    obtain ⟨r, hr, hread⟩ := exists_of_mem_right hrows hx
    obtain ⟨r', hr', hread'⟩ := exists_of_mem_right hrows' hx'
    have hdigests : computeHash P C x.prev x.row = computeHash P C x'.prev x'.row :=
      hsound.trans (hhash.trans hsound'.symm)
    have hinputs := hcollision r hr r' hr' x x' hread hread' (hexLower_inj hdigests)
    exact hashInput_inj hshort hlink hlink' hinputs
  have hagree : List.Forall₂ (Chain.Agree (reading P C) fun x => canonicalBytes C x.row) xs xs' :=
    Chain.Linked.agree (.inl rfl) hsound hfixes hlength (by simpa [startWalk] using hxs.linked)
      (by simpa [startWalk] using hxs'.linked) htip
  rw [hrows.length_eq, hrows'.length_eq]
  exact ⟨hlength, agree_columns hrows hrows' hagree⟩

/-- A digest of the last bytes. -/
def lastBytes : Primitives :=
  { Primitives.transparent with
    sha256 := fun bytes => (bytes.reverse ++ List.replicate 32 0).take 32 }

theorem lastBytes_length (bytes : Bytes) :
    (lastBytes.sha256 bytes).length = 32 := by
  simp [lastBytes]

/-- The epoch in the table. -/
def epochText : String := "1970-01-01 00:00:00+00:00"

/-- The epoch in the hash. -/
def epochRfc3339 : String := "1970-01-01T00:00:00+00:00"

/-- The epoch as it is written, and other times by their distance from it. -/
def epochCodec : AuditCodec where
  showAt t := String.ofList (epochText.toList ++
    (List.replicate t.toNat '+' ++ List.replicate (-t).toNat '-'))
  parseAt text := some ((text.toList.count '+' - 1 : Int) - (text.toList.count '-' - 2 : Int))
  rfc3339 _ := epochRfc3339
  showUuid user := String.ofList (List.replicate user '1')
  parseUuid text := some text.toList.length

theorem epochCodec_short : AuditCodecShort epochCodec := by
  have hlength : (utf8 epochRfc3339).length = 25 := by decide +kernel
  have hlt : (utf8 epochRfc3339).length < 2 ^ 56 := by omega
  intro t
  exact hlt

/-- A row from before the chain. -/
def legacyColumns (action : String) : AuditColumns :=
  ⟨1, epochText, none, action, none, "ok", none, "", ""⟩

def legacyLog (action : String) : AuditLog := ⟨[legacyColumns action], by simp⟩

def sampleEntry : AuditEntry := ⟨0, none, "login", none, "ok", none⟩

private def hashInputs (C : AuditCodec) (log : AuditLog) : List Bytes :=
  log.rows.filterMap fun r =>
    match readRow C r with
    | .ok x => some (utf8 x.prev ++ canonicalBytes C x.row)
    | .error _ => none

private theorem noCollision_of_inputs {log' : AuditLog}
    (h : ∀ input ∈ hashInputs C log, ∀ input' ∈ hashInputs C log',
      P.sha256 input = P.sha256 input' → input = input') : NoCollision P C log log' := by
  intro r hr r' hr' x x' hread hread'
  apply h
  · exact List.mem_filterMap.mpr ⟨r, hr, by rw [hread]⟩
  · exact List.mem_filterMap.mpr ⟨r', hr', by rw [hread']⟩

/-- Legacy rows may differ under the same newest row. -/
theorem audit_chain_commits_legacy :
    let log := appendWithinTx lastBytes epochCodec none (legacyLog "login") sampleEntry
    let log' := appendWithinTx lastBytes epochCodec none (legacyLog "logout") sampleEntry
    log.rows.length = log'.rows.length ∧
      List.Forall₂ (fun r r' => r.hash ≠ "" ∨ r'.hash ≠ "" →
        r.prevHash = r'.prevHash ∧ r.hash = r'.hash ∧
          canonical epochCodec r = canonical epochCodec r') log.rows log'.rows := by
  have hcollision : NoCollision lastBytes epochCodec
      (appendWithinTx lastBytes epochCodec none (legacyLog "login") sampleEntry)
      (appendWithinTx lastBytes epochCodec none (legacyLog "logout") sampleEntry) :=
    noCollision_of_inputs (by decide +kernel)
  have hverify : verifyChainTail lastBytes epochCodec
      (appendWithinTx lastBytes epochCodec none (legacyLog "login") sampleEntry)
      (-1) = .ok ⟨1, none, 1⟩ := by decide +kernel
  have hverify' : verifyChainTail lastBytes epochCodec
      (appendWithinTx lastBytes epochCodec none (legacyLog "logout") sampleEntry)
      (-1) = .ok ⟨1, none, 1⟩ := by decide +kernel
  exact audit_chain_commits lastBytes_length epochCodec_short
    (.inl (by decide)) (.inl (by decide)) hcollision hverify rfl hverify' rfl (by decide +kernel)

end Commitment

/-! ## A log that was only appended to -/

section NoAlarm

variable {P : Primitives} {C : AuditCodec}

/-- What was written is read back. -/
structure AuditCodec.RoundTrips (C : AuditCodec) : Prop where
  at_ : ∀ t, C.parseAt (C.showAt t) = some t
  uuid : ∀ u, C.parseUuid (C.showUuid u) = some u

/-- The number the next row must have. -/
def endSeq : (expected : Option Int) → List ChainRow → Option Int
  | expected, [] => expected
  | _, x :: xs => endSeq (some (x.seq + 1)) xs

variable {xs : List ChainRow} {log : AuditLog} {older : List AuditColumns}
variable {ys : List ChainRow} {refused : Option StoreError} {newer : List AuditColumns}

theorem contiguous_append {expected : Option Int} :
    Contiguous expected (xs ++ ys) ↔
      Contiguous expected xs ∧ Contiguous (endSeq expected xs) ys := by
  induction xs generalizing expected with
  | nil => simp [Contiguous, endSeq]
  | cons x xs ih => simp [Contiguous, endSeq, ih, and_assoc]

theorem endSeq_eq_getLast? (expected : Option Int) (xs : List ChainRow) :
    endSeq expected xs = (xs.getLast?.map fun x => some (x.seq + 1)).getD expected := by
  induction xs generalizing expected with
  | nil => rfl
  | cons x xs ih =>
    rw [endSeq, ih]
    cases xs with
    | nil => rfl
    | cons x' xs =>
      rw [List.getLast?_cons_cons]
      cases hlast : (x' :: xs).getLast? with
      | none => simp at hlast
      | some last => rfl

/-- The whole table reads, and as a chain. -/
def Sound (P : Primitives) (C : AuditCodec) (log : AuditLog) : Prop :=
  ∃ xs, List.Forall₂ (fun r x => readRow C r = .ok x) log.rows xs ∧
    Continues P C (startWalk none) xs

/-- Rows from before the chain, numbered from one. -/
structure Legacy (C : AuditCodec) (log : AuditLog) : Prop where
  reads : ∀ r ∈ log.rows, ∃ x, readRow C r = .ok x
  unhashed : ∀ r ∈ log.rows, r.hash = ""
  numbered : ∀ (i : Nat) r, log.rows[i]? = some r → r.seq = (i : Int) + 1

/-- The row of an entry is read as the entry. -/
theorem readRow_newColumns (hcodec : AuditCodec.RoundTrips C) (refused : Option StoreError)
    (log : AuditLog) (row : AuditEntry) :
    readRow C (newColumns P C refused log row) =
      .ok ⟨nextSeq log, row, linkHash refused log, computeHash P C (linkHash refused log) row⟩ := by
  have hactor : readActor C (row.actor.map C.showUuid) = .ok row.actor := by
    cases row.actor with
    | none => rfl
    | some user =>
      simp only [Option.map_some, readActor, hcodec.uuid, require]
      rfl
  simp only [readRow, newColumns, hcodec.at_, require, hactor, bind, Except.bind, pure,
    Except.pure]

theorem computeHash_ne_empty (hdigest : ∀ bytes, (P.sha256 bytes).length = 32) (prev : String)
    (row : AuditEntry) : computeHash P C prev row ≠ "" := by
  intro hempty
  have hlength := length_utf8_hexLower (P.sha256 (utf8 prev ++ canonicalBytes C row))
  rw [hdigest, ← computeHash, hempty] at hlength
  cases hlength

theorem contiguous_of_numbered {seq : Int}
    (h : ∀ (i : Nat) x, xs[i]? = some x → x.seq = seq + (i : Int)) :
    Contiguous (some seq) xs := by
  induction xs generalizing seq with
  | nil => trivial
  | cons x xs ih =>
    have hx : x.seq = seq := by simpa using h 0 x rfl
    constructor
    · intro seq' hseq
      cases hseq
      exact hx
    · apply ih
      intro i y hy
      have hnext := h (i + 1) y (by simpa using hy)
      push_cast at hnext
      omega

theorem linked_of_unhashed (h : ∀ x ∈ xs, x.hash = "") :
    Chain.Linked (reading P C) "" False xs := by
  induction xs with
  | nil => trivial
  | cons x xs ih =>
    exact .inl ⟨h x List.mem_cons_self, not_false, ih fun y hy => h y (List.mem_cons_of_mem x hy)⟩

private theorem forall₂_of_reads {rows : List AuditColumns}
    (h : ∀ r ∈ rows, ∃ x, readRow C r = .ok x) :
    ∃ xs, List.Forall₂ (fun r x => readRow C r = .ok x) rows xs := by
  induction rows with
  | nil => exact ⟨[], .nil⟩
  | cons r rows ih =>
    obtain ⟨x, hx⟩ := h r List.mem_cons_self
    obtain ⟨xs, hxs⟩ := ih fun r hr => h r (List.mem_cons_of_mem _ hr)
    exact ⟨x :: xs, .cons hx hxs⟩

/-- A table of legacy rows is sound. -/
theorem Legacy.sound (h : Legacy C log) : Sound P C log := by
  obtain ⟨xs, hrows⟩ := forall₂_of_reads h.reads
  have hnumbered : ∀ (i : Nat) x, xs[i]? = some x → x.seq = 1 + (i : Int) := by
    intro i x hx
    have hmap := congrArg (·[i]?) (map_of_rows hrows)
    simp only [List.getElem?_map, hx, Option.map_some, Option.map_eq_some_iff, Prod.mk.injEq]
      at hmap
    obtain ⟨r, hr, hseq, -⟩ := hmap
    rw [← hseq, h.numbered i r hr]
    omega
  have hunhashed : ∀ x ∈ xs, x.hash = "" := by
    intro x hx
    obtain ⟨r, hr, hread⟩ := exists_of_mem_right hrows hx
    rw [(readRow_ok hread).2.2]
    exact h.unhashed r hr
  refine ⟨xs, hrows, ?_, ?_, ?_⟩
  · intro _ x hx
    have hfirst := hnumbered 0 x (by rw [← List.head?_eq_getElem?]; exact hx)
    simpa using hfirst
  · have hcontiguous := contiguous_of_numbered hnumbered
    cases xs with
    | nil => trivial
    | cons x xs =>
      refine ⟨?_, hcontiguous.2⟩
      intro seq hseq
      cases hseq
  · have hlinked : Chain.Linked (reading P C) "" False xs := linked_of_unhashed hunhashed
    simpa [startWalk] using hlinked

private theorem headHash_of_rows
    (hrows : List.Forall₂ (fun r x => readRow C r = .ok x) log.rows xs) :
    headHash log = Chain.tip (reading P C) "" xs := by
  have hhash := congrArg (Option.map Prod.snd) (newest_of_rows hrows)
  rw [newest, Option.map_map, Option.map_map] at hhash
  rw [headHash, Chain.tip_eq_getLast?]
  exact congrArg (Option.getD · "") hhash

/-- An append that is linked to the newest hash keeps the table sound. -/
theorem Sound.append (hcodec : AuditCodec.RoundTrips C)
    (hdigest : ∀ bytes, (P.sha256 bytes).length = 32) (h : Sound P C log)
    (hlink : linkHash refused log = headHash log) (row : AuditEntry) :
    Sound P C (appendWithinTx P C refused log row) := by
  obtain ⟨xs, hrows, hxs⟩ := h
  have hnext : nextSeq log = (xs.getLast?.map (·.seq + 1)).getD 1 := by
    have hseq := congrArg (Option.map fun p : Int × String => p.1 + 1) (newest_of_rows hrows)
    rw [newest, Option.map_map, Option.map_map] at hseq
    exact congrArg (Option.getD · 1) hseq
  refine ⟨xs ++ [⟨nextSeq log, row, linkHash refused log,
    computeHash P C (linkHash refused log) row⟩], ?_, ?_, ?_, ?_⟩
  · exact List.rel_append hrows (.cons (readRow_newColumns hcodec refused log row) .nil)
  · intro hat x hx
    cases xs with
    | nil =>
      cases hx
      exact hnext
    | cons y xs => exact hxs.start hat x hx
  · rw [contiguous_append]
    refine ⟨hxs.seqs, ?_, trivial⟩
    intro seq hseq
    rw [endSeq_eq_getLast?] at hseq
    cases hlast : xs.getLast? with
    | none =>
      rw [hlast] at hseq
      cases hseq
    | some last =>
      rw [hlast] at hseq hnext
      cases hseq
      exact hnext
  · rw [Chain.linked_snoc]
    refine ⟨hxs.linked, .inr ⟨computeHash_ne_empty hdigest _ _, ?_, rfl⟩⟩
    exact hlink.trans (headHash_of_rows hrows)

/-- Rows that are read one by one are read in two parts. -/
private theorem exists_parts {all : List ChainRow}
    (h : List.Forall₂ (fun r x => readRow C r = .ok x) (older ++ newer) all) :
    ∃ xs ys, List.Forall₂ (fun r x => readRow C r = .ok x) older xs ∧
      List.Forall₂ (fun r x => readRow C r = .ok x) newer ys ∧ all = xs ++ ys := by
  refine ⟨all.take older.length, all.drop older.length, ?_, ?_, ?_⟩
  · simpa using List.forall₂_take older.length h
  · simpa using List.forall₂_drop older.length h
  · rw [List.take_append_drop]

/-- A sound table was sound before its newest row, which is linked to the one before. -/
theorem Sound.of_append (hcodec : AuditCodec.RoundTrips C)
    (hdigest : ∀ bytes, (P.sha256 bytes).length = 32) {row : AuditEntry}
    (h : Sound P C (appendWithinTx P C refused log row)) :
    Sound P C log ∧ linkHash refused log = headHash log := by
  obtain ⟨all, hall, hcontinues⟩ := h
  obtain ⟨xs, ys, hxs, hys, rfl⟩ := exists_parts hall
  cases hys with
  | cons hread hnil =>
    cases hnil
    rw [readRow_newColumns hcodec] at hread
    cases hread
    have hlinked : Chain.Linked (reading P C) "" False (xs ++ [⟨nextSeq log, row,
        linkHash refused log, computeHash P C (linkHash refused log) row⟩]) := by
      simpa [startWalk] using hcontinues.linked
    obtain ⟨hrest, hlast⟩ := Chain.linked_snoc.mp hlinked
    obtain ⟨-, hprev, -⟩ := hlast.resolve_left fun hblank =>
      computeHash_ne_empty hdigest _ _ hblank.1
    refine ⟨⟨xs, hxs, ?_, (contiguous_append.mp hcontinues.seqs).1, ?_⟩, ?_⟩
    · intro hat x hx
      cases xs with
      | nil => cases hx
      | cons y xs => exact hcontinues.start hat x hx
    · simpa [startWalk] using hrest
    · exact hprev.trans (headHash_of_rows hxs).symm

/-- An append that commits reads the newest hash, or there is none: the table is empty, or its
newest row is not hashed. -/
def HeadFound (log : AuditLog) : LogEvent → Prop
  | .append _ refused committed | .command _ refused committed =>
    committed = true → refused = none ∨ headHash log = ""

/-- What one transaction does to a table that is sound. -/
theorem auditStep_sound_iff (hcodec : AuditCodec.RoundTrips C)
    (hdigest : ∀ bytes, (P.sha256 bytes).length = 32) (log : AuditLog) (event : LogEvent) :
    Sound P C (auditStep P C log event).1 ↔ Sound P C log ∧ HeadFound log event := by
  have happend (refused : Option StoreError) (row : AuditEntry) :
      Sound P C (appendWithinTx P C refused log row) ↔
        Sound P C log ∧ (refused = none ∨ headHash log = "") := by
    rw [← linkHash_eq_iff]
    exact ⟨Sound.of_append hcodec hdigest, fun h => h.1.append hcodec hdigest h.2 row⟩
  cases event with
  | append row refused committed =>
    cases committed with
    | false => simp [auditStep, HeadFound]
    | true => simpa [auditStep, HeadFound, Audit.append] using happend refused row
  | command row refused committed =>
    cases committed with
    | false => simp [auditStep, HeadFound]
    | true => simpa [auditStep, HeadFound] using happend refused row

/-- A run ends in a sound table exactly if it begins in one and every append finds its link. -/
theorem sound_run_iff (hcodec : AuditCodec.RoundTrips C)
    (hdigest : ∀ bytes, (P.sha256 bytes).length = 32) (log : AuditLog) (events : List LogEvent) :
    Sound P C (Machine.run (auditStep P C) log events) ↔
      Sound P C log ∧ Machine.Guarded (auditStep P C) HeadFound log events := by
  induction events generalizing log with
  | nil => simp
  | cons event events ih =>
    rw [Machine.run_cons, ih, auditStep_sound_iff hcodec hdigest, Machine.guarded_cons, and_assoc]

/-- A window is the newest part of the table. -/
theorem exists_window (log : AuditLog) (limit : Int) :
    ∃ older newer, log.rows = older ++ newer ∧ window log limit = newer.reverse := by
  unfold window
  split
  · exact ⟨[], log.rows, rfl, rfl⟩
  · refine ⟨log.rows.take (log.rows.length - limit.toNat),
      log.rows.drop (log.rows.length - limit.toNat), ?_, List.take_reverse⟩
    rw [List.take_append_drop]

/-- The row before a window is the newest of the older rows. -/
theorem boundary_eq {limit : Int} {oldest : AuditColumns}
    (hrows : log.rows = older ++ oldest :: newer)
    (hwindow : window log limit = (oldest :: newer).reverse) :
    boundary log limit = older.getLast? := by
  have hsorted := log.sorted
  rw [hrows, List.pairwise_append] at hsorted
  obtain ⟨-, hnewer, hacross⟩ := hsorted
  have holder : (older.filter fun r => r.seq < oldest.seq) = older := by
    rw [List.filter_eq_self]
    intro r hr
    simpa using hacross r hr oldest List.mem_cons_self
  have hnone : ((oldest :: newer).filter fun r => r.seq < oldest.seq) = [] := by
    rw [List.filter_eq_nil_iff]
    intro r hr
    rcases List.mem_cons.mp hr with rfl | hr
    · simp
    · have hlt := (List.pairwise_cons.mp hnewer).1 r hr
      simp only [decide_eq_true_eq]
      omega
  simp only [boundary, hwindow, List.getLast?_reverse, List.head?_cons]
  rw [hrows, List.filter_append, holder, hnone, List.append_nil]

/-- The walk over a window continues from the row before it. -/
theorem Continues.window (holder : List.Forall₂ (fun r x => readRow C r = .ok x) older xs)
    (h : Continues P C (startWalk none) (xs ++ ys)) :
    Continues P C (startWalk older.getLast?) ys := by
  have hlast : (older.getLast?.map fun r => (r.seq, r.hash)) =
      xs.getLast?.map fun x => (x.seq, x.hash) := by
    rw [← List.getLast?_map, ← List.getLast?_map, map_of_rows holder]
  obtain ⟨hseqs, hseqs'⟩ := contiguous_append.mp h.seqs
  have hlinked : Chain.Linked (reading P C) "" False (xs ++ ys) := by
    simpa [startWalk] using h.linked
  obtain ⟨hxs, hys⟩ := Chain.linked_append.mp hlinked
  cases hboundary : older.getLast? with
  | none =>
    have hnil : xs = [] := by
      rw [hboundary, Option.map_none, eq_comm, Option.map_eq_none_iff] at hlast
      exact List.getLast?_eq_none_iff.mp hlast
    rw [hnil] at h
    exact h
  | some r =>
    rw [hboundary, Option.map_some, eq_comm, Option.map_eq_some_iff] at hlast
    obtain ⟨x, hx, hsame⟩ := hlast
    obtain ⟨hseq, hhash⟩ := Prod.mk.inj hsame
    have htip : Chain.tip (reading P C) "" xs = r.hash := by
      rw [Chain.tip_eq_getLast?, hx]
      exact hhash
    have hhashed : Chain.Hashed (reading P C) xs ↔ r.hash ≠ "" := by
      constructor
      · intro hsome hempty
        exact hxs.not_hashed (htip.trans hempty) hsome
      · intro hne
        exact ⟨x, List.mem_of_getLast? hx, by rw [reading_hash, hhash]; exact hne⟩
    refine ⟨?_, ?_, ?_⟩
    · intro hat
      cases hat
    · rw [endSeq_eq_getLast?, hx] at hseqs'
      simpa [startWalk, hseq] using hseqs'
    · rw [htip, hhashed] at hys
      simpa [startWalk] using hys

/-- The verifier finds nothing in a window, and counts every row of it. -/
def NoAlarm (P : Primitives) (C : AuditCodec) (log : AuditLog) (limit : Int) : Prop :=
  ∃ report, verifyChainTail P C log limit = .ok report ∧ report.brokenAtSeq = none ∧
    report.checked + report.legacyUnhashed = (window log limit).length

/-- A sound table verifies, whatever the limit. -/
theorem Sound.verifies (h : Sound P C log) (limit : Int) :
    NoAlarm P C log limit := by
  obtain ⟨all, hall, hcontinues⟩ := h
  obtain ⟨older, newer, hrows, hwindow⟩ := exists_window log limit
  rw [hrows] at hall
  obtain ⟨xs, ys, hxs, hys, rfl⟩ := exists_parts hall
  have hboundary : Continues P C (startWalk (boundary log limit)) ys := by
    cases newer with
    | nil =>
      cases hys
      refine ⟨?_, trivial, trivial⟩
      intro _ x hx
      cases hx
    | cons oldest newer =>
      rw [boundary_eq hrows hwindow]
      exact hcontinues.window hxs
  have hunbroken := (walk_unbroken_iff (P := P) (C := C) rfl).mpr hboundary
  refine ⟨walk P C (startWalk (boundary log limit)) ys, ?_, hunbroken, ?_⟩
  · rw [verifyChainTail, hwindow]
    have hread : newer.reverse.mapM (readRow C) = .ok ys.reverse :=
      mapM_eq_ok.mpr (List.rel_reverse hys)
    rw [hread]
    simp only [bind, Except.bind, pure, Except.pure, List.reverse_reverse]
  · rw [walk_counts hunbroken, hwindow, List.length_reverse, hys.length_eq]
    simp [startWalk]

/-- The verifier finds nothing in any window exactly if the table is sound. -/
theorem sound_iff_verifies :
    Sound P C log ↔ ∀ limit, NoAlarm P C log limit := by
  constructor
  · exact Sound.verifies
  · intro h
    obtain ⟨report, hverify, hunbroken, -⟩ := h (-1)
    exact verifyChainTail_covers (.inl (by decide)) hverify hunbroken

/-- However rows were appended to a log of legacy rows: no window raises an alarm, and every row
of a window is counted, exactly if no append that commits misses a newest hash. -/
theorem audit_log_verifies_iff (hcodec : AuditCodec.RoundTrips C)
    (hdigest : ∀ bytes, (P.sha256 bytes).length = 32) {log : AuditLog} (hlegacy : Legacy C log)
    (events : List LogEvent) :
    (∀ limit, NoAlarm P C (Machine.run (auditStep P C) log events) limit) ↔
      Machine.Guarded (auditStep P C) HeadFound log events := by
  rw [← sound_iff_verifies, sound_run_iff hcodec hdigest]
  exact and_iff_right hlegacy.sound

private theorem distance_of_epoch (t : Int) :
    ((1 + (t.toNat + 0) : Nat) : Int) - 1 - (((2 + (0 + (-t).toNat) : Nat) : Int) - 2) = t := by
  omega

theorem epochCodec_roundTrips : AuditCodec.RoundTrips epochCodec where
  at_ t := by
    have hplus : epochText.toList.count '+' = 1 := by decide +kernel
    have hminus : epochText.toList.count '-' = 2 := by decide +kernel
    have hne : ('-' == '+') = false := by decide
    have hne' : ('+' == '-') = false := by decide
    simp only [epochCodec, String.toList_ofList, List.count_append, List.count_replicate, hplus,
      hminus, hne, hne', beq_self_eq_true, if_true, Option.some.injEq, Bool.false_eq_true, if_false]
    exact distance_of_epoch t
  uuid user := by simp [epochCodec]

private theorem legacyLog_legacy : Legacy epochCodec (legacyLog "login") where
  reads r hr := by
    rw [List.mem_singleton.mp hr]
    simp only [readRow, legacyColumns, epochCodec, readActor, require, bind, Except.bind, pure,
      Except.pure]
    exact ⟨_, rfl⟩
  unhashed r hr := by
    rw [List.mem_singleton.mp hr]
    rfl
  numbered i r hr := by
    cases i with
    | zero =>
      cases hr
      rfl
    | succ i => cases hr

/-- Behind a legacy row: an append that is rolled back, one that needs no link, and one that
reads it. -/
def appendsInOrder : List LogEvent :=
  [.append sampleEntry none false, .command sampleEntry (some .db) true,
    .append sampleEntry none true]

theorem audit_log_verifies_inOrder :
    NoAlarm lastBytes epochCodec (Machine.run (auditStep lastBytes epochCodec) (legacyLog "login")
      appendsInOrder) (-1) := by
  refine (audit_log_verifies_iff epochCodec_roundTrips lastBytes_length legacyLog_legacy _).mpr ?_
    (-1)
  rw [appendsInOrder, Machine.guarded_cons, Machine.guarded_cons, Machine.guarded_cons]
  exact ⟨fun h => Bool.noConfusion h, fun _ => .inr rfl, fun _ => .inl rfl, trivial⟩

/-- The second append of an empty log does not read the hash of the first, and commits. -/
def appendUnlinked : List LogEvent :=
  [.append sampleEntry none true, .append sampleEntry (some .db) true]

theorem audit_log_alarms :
    ¬ ∀ limit, NoAlarm lastBytes epochCodec
      (Machine.run (auditStep lastBytes epochCodec) ⟨[], .nil⟩ appendUnlinked) limit := by
  intro h
  have hreport : verifyChainTail lastBytes epochCodec
      (Machine.run (auditStep lastBytes epochCodec) ⟨[], .nil⟩ appendUnlinked) (-1) =
        .ok ⟨2, some 2, 0⟩ := by
    decide +kernel
  obtain ⟨report, hverify, hunbroken, -⟩ := h (-1)
  cases hreport.symm.trans hverify
  cases hunbroken

end NoAlarm

end SuiId.Audit
