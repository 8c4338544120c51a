import Mathlib.Data.List.Perm.Basic
import SuiId.Proofs.FactorSteps

/-!
# A recovery code is spent once

The stored blob holds the hashes of the codes that are left.  A use replaces the blob by comparing
it with the one that was read, and the blob that was read determines the list that the code was
found in.  So whatever happened since, a committed use takes one hash from the list that
is stored, and L02, F03 and U14 need no order among them.

`CodesInvariant` counts: the uses of a text since the last set was issued, together with the stored
hashes that it still matches, are at most the codes with that text in the set.
-/

namespace SuiId

open Lib Lib.Result

/-! ## Uses -/

/-- The user and the text of the recovery code that a committed step spends. -/
def usedCode (x : FactorTaken) : Option (UserId × String) :=
  match x.event, x.pre.write x.event x.out with
  | .next id _, some (user, .swap _ _) =>
    (x.pre.checks id).map fun check => (user, Text.trim check.code)
  | _, _ => none

/-- The step spends that text as a code of the user's set of that number. -/
def usesIn (user : UserId) (number : Nat) (code : String) (x : FactorTaken) : Bool :=
  usedCode x == some (user, code) && (x.pre.issued user).number == number

/-- How many codes of the user's set have that text. -/
def FactorWorld.issuedCount (w : FactorWorld) (user : UserId) (code : String) : Nat :=
  (w.issued user).codes.countP fun c => c.code == code

/-- The hash of a code matches that code only. -/
def OwnCodes (P : Primitives) (codes : List RecoveryCode) : Prop :=
  ∀ c ∈ codes, ∀ text, P.verifyPassword text c.hash = true → text = c.code

/-- The codes that an event draws are matched by their own hashes only. -/
def DrawsOwnCodes (P : Primitives) : FactorEvent → Prop
  | .next _ draw => OwnCodes P draw.codes
  | _ => True

/-- A text matches at most as many stored hashes as there are codes with it. -/
def StoredCodes (P : Primitives) (key : MasterKey) (db : Database)
    (codes : UserId → List RecoveryCode) : Prop :=
  ∀ user r sealedCodes hashes code, db.totpOf user = some r →
    r.recoveryCodesEnc = some sealedCodes → openCodes P key sealedCodes = some hashes →
      hashes.countP (fun h => P.verifyPassword code h) ≤
        (codes user).countP fun c => c.code == code

/-- What the code relies on for the JSON of a list. -/
def JsonRoundTrip (P : Primitives) :
    Prop := ∀ texts, P.decodeTexts (P.encodeTexts texts) = some texts

theorem OwnCodes.countP_le {P : Primitives} {codes : List RecoveryCode} (h : OwnCodes P codes)
    (code : String) : (codes.map (·.hash)).countP (fun h => P.verifyPassword code h) ≤
      codes.countP fun c => c.code == code := by
  rw [List.countP_map]
  refine List.countP_mono_left fun c hc hmatch => ?_
  exact beq_iff_eq.mpr (h c hc code hmatch).symm

/-! ## One hash less -/

variable {α : Type}

/-- The element that was found counts once. -/
theorem countP_eraseIdx_found {l : List α} {p : α → Bool} {i : Nat} (h : l.findIdx? p = some i) :
    (l.eraseIdx i).countP p + 1 = l.countP p := by
  obtain ⟨hlt, hfound, -⟩ := List.findIdx?_eq_some_iff_getElem.mp h
  have hperm : (l[i] :: l.eraseIdx i).Perm l := List.getElem_cons_eraseIdx_perm hlt
  rw [← hperm.countP_eq p, List.countP_cons_of_pos hfound]

theorem countP_eraseIdx_le (l : List α) (p : α → Bool) (i : Nat) :
    (l.eraseIdx i).countP p ≤ l.countP p := (List.eraseIdx_sublist l i).countP_le

section Steps

variable {P : Primitives} {key : MasterKey} {maxLockoutSecs : Int}
variable {nonce : Nonce} {call : FactorCall} {db : Database} {out : FactorAnswer} {user : UserId}
  {x : FactorTaken}

theorem openCodes_of_seal (hP : P.Lawful) (hjson : JsonRoundTrip P) {hashes : List String}
    {sealedCodes : Bytes}
    (h : sealBytes P key nonce (P.encodeTexts hashes) UserTotp.recoveryAad = .ok sealedCodes) :
    openCodes P key sealedCodes = some hashes := by
  simp only [openCodes, hP.open_seal h, Except.toOption, Option.bind_some]
  exact hjson hashes

/-! ## New sets -/

/-- The blob that a call is about to store as a new set. -/
def FactorCall.sealedCodes : FactorCall → Option Bytes
  | .confirmVerified _ _ _ sealedCodes => some sealedCodes
  | .regenerateSealed _ _ sealedCodes => some sealedCodes
  | _ => none

/-- The blob of a new set holds the hashes of its codes. -/
def CarriesOwn (P : Primitives) (key : MasterKey) (call : FactorCall) : Prop :=
  ∀ sealedCodes, call.sealedCodes = some sealedCodes →
    openCodes P key sealedCodes = some (call.codes.map (·.hash)) ∧ OwnCodes P call.codes

private theorem sealCodes_opens (hP : P.Lawful) (hjson : JsonRoundTrip P)
    {codes : List RecoveryCode} {sealedCodes : Bytes}
    (h : sealCodes P key nonce codes = .ok sealedCodes) :
    openCodes P key sealedCodes = some (codes.map (·.hash)) := by
  rw [sealCodes, mapError_eq_ok] at h
  exact openCodes_of_seal hP hjson h

private theorem carriesOwn_of_start {request : FactorRequest} (h : request.start = some call) :
    CarriesOwn P key call := by
  intro sealedCodes hsealed
  cases request with
  | signIn request =>
    obtain ⟨flowCall, -, rfl⟩ := Option.map_eq_some_iff.mp h
    cases hsealed
  | _ =>
    cases h
    cases hsealed

private theorem advance_carriesOwn (hP : P.Lawful) (hjson : JsonRoundTrip P) {draw : FactorDraw}
    {call' : FactorCall} (hown : OwnCodes P draw.codes)
    (h : (call.advance P key maxLockoutSecs db draw).next = some call') :
    CarriesOwn P key call' := by
  intro sealedCodes hsealed
  cases call with
  | signIn call =>
    obtain ⟨flowNext, -, rfl⟩ := Option.map_eq_some_iff.mp h
    cases hsealed
  | confirmSubmitted user suppliedCode =>
    simp only [FactorCall.advance, confirmEnrollment] at h
    split at h
    · cases h
    · split at h
      · cases h
      · split at h
        · cases h
        · cases h
        · split at h
          · rename_i hseal
            cases h
            cases hsealed
            exact ⟨sealCodes_opens hP hjson hseal, hown⟩
          · cases h
  | regenerateSubmitted user =>
    simp only [FactorCall.advance, regenerateCodes] at h
    split at h
    · cases h
    · split at h
      · cases h
      · split at h
        · rename_i hseal
          cases h
          cases hsealed
          exact ⟨sealCodes_opens hP hjson hseal, hown⟩
        · cases h
  | _ =>
    simp only [FactorCall.advance, startEnrollment, verifyTotpCode, FactorResult.commit,
      FactorResult.goOn, FactorResult.done, FactorResult.refuse] at h
    (repeat' split at h) <;> (cases h) <;> (cases hsealed)

/-! ## The counts of one user -/

/-- A text was spent that often, and with the stored hashes that it matches this makes at most the
codes that were issued with it. -/
def Counted (P : Primitives) (key : MasterKey) (code : String) (uses issued : Nat)
    (row : Option UserTotpRow) : Prop :=
  uses ≤ issued ∧ ∀ r sealedCodes hashes, row = some r → r.recoveryCodesEnc = some sealedCodes →
    openCodes P key sealedCodes = some hashes →
      uses + hashes.countP (fun h => P.verifyPassword code h) ≤ issued

namespace Counted

variable {code : String} {uses issued : Nat} {r : UserTotpRow}

/-- The blob is as it was. -/
theorem of_codes (h : Counted P key code uses issued (some r)) {r' : UserTotpRow}
    (hsame : r'.recoveryCodesEnc = r.recoveryCodesEnc) :
    Counted P key code uses issued (some r') := by
  refine ⟨h.1, fun r'' sealedCodes hashes hr hsealed hopen => ?_⟩
  cases hr
  rw [hsame] at hsealed
  exact h.2 r sealedCodes hashes rfl hsealed hopen

/-- There is no blob. -/
theorem of_none {before after : Option UserTotpRow} (h : Counted P key code uses issued before)
    (hnone : ∀ r, after = some r → r.recoveryCodesEnc = none) :
    Counted P key code uses issued after := by
  refine ⟨h.1, fun r sealedCodes hashes hr hsealed _ => ?_⟩
  rw [hnone r hr] at hsealed
  cases hsealed

/-- A new set has all of its codes left. -/
theorem of_new {codes : List RecoveryCode} {sealedCodes : Bytes}
    (hopen : openCodes P key sealedCodes = some (codes.map (·.hash))) (hown : OwnCodes P codes)
    (hr : r.recoveryCodesEnc = some sealedCodes) :
    Counted P key code 0 (codes.countP fun c => c.code == code) (some r) := by
  refine ⟨Nat.zero_le _, fun r' sealedCodes' hashes hr' hsealed' hopen' => ?_⟩
  cases hr'
  rw [hr] at hsealed'
  cases hsealed'
  rw [hopen] at hopen'
  cases hopen'
  rw [Nat.zero_add]
  exact hown.countP_le code

/-- The first hash that a text matches is taken out of the list. -/
theorem of_spent (hP : P.Lawful) (hjson : JsonRoundTrip P) {nonce : Nonce} {text : String}
    {expectedSealed newSealed : Bytes} {hashes : List String} {i : Nat}
    (h : Counted P key code uses issued (some r)) (hr : r.recoveryCodesEnc = some expectedSealed)
    (hopen : openCodes P key expectedSealed = some hashes)
    (hmatch : hashes.findIdx? (fun h => P.verifyPassword text h) = some i)
    (hseal : sealBytes P key nonce (P.encodeTexts (hashes.eraseIdx i)) UserTotp.recoveryAad =
      .ok newSealed) :
    Counted P key code (if text = code then uses + 1 else uses) issued
      (some { r with recoveryCodesEnc := some newSealed }) := by
  have hleft := h.2 r expectedSealed hashes rfl hr hopen
  have hcount : (if text = code then uses + 1 else uses) +
      (hashes.eraseIdx i).countP (fun h => P.verifyPassword code h) ≤ issued := by
    split
    · rename_i htext
      subst htext
      have herased := countP_eraseIdx_found hmatch
      omega
    · have hkept := countP_eraseIdx_le hashes (fun h => P.verifyPassword code h) i
      omega
  refine ⟨(Nat.le_add_right _ _).trans hcount,
    fun r' sealedCodes' hashes' hr' hsealed' hopen' => ?_⟩
  cases hr'
  cases hsealed'
  rw [openCodes_of_seal hP hjson hseal] at hopen'
  cases hopen'
  exact hcount

end Counted

/-! ## The invariant -/

/-- Texts are not spent more often than they were issued. -/
structure CodesInvariant (P : Primitives) (key : MasterKey) (past : List FactorTaken)
    (w : FactorWorld) : Prop where
  checks : ChecksKnown P key w
  carried : ∀ id call, w.calls id = some call → CarriesOwn P key call
  numbers : ∀ x ∈ past, ∀ user, (x.pre.issued user).number ≤ (w.issued user).number
  counted : ∀ user code, Counted P key code
    (past.countP (usesIn user (w.issued user).number code)) (w.issuedCount user code)
    (w.db.totpOf user)

variable {w : FactorWorld} {e : FactorEvent} {past : List FactorTaken}

theorem codesInvariant_start {codes : UserId → List RecoveryCode}
    (hdb : StoredCodes P key db codes) : CodesInvariant P key [] (.start db codes) where
  checks := checksKnown_start db codes
  carried := fun _ _ hcall => by cases hcall
  numbers := fun _ hx => absurd hx List.not_mem_nil
  counted := by
    intro user code
    refine ⟨Nat.zero_le _, fun r sealedCodes hashes hr hsealed hopen => ?_⟩
    rw [List.countP_nil, Nat.zero_add]
    exact hdb user r sealedCodes hashes code hr hsealed hopen

/-- What is known of a step that spends a recovery code. -/
theorem swap_checked {expectedSealed newSealed : Bytes} (hchecks : ChecksKnown P key w)
    (h : w.write e out = some (user, .swap expectedSealed newSealed)) :
    ∃ check, Checked P key check (.recoveryCode expectedSealed newSealed) ∧
      usedCode ⟨w, e, out⟩ = some (user, Text.trim check.code) := by
  obtain ⟨id, draw, call, rfl, hcall, hmakes⟩ := FactorWorld.makes_of_write h
  obtain ⟨check, hcheck, hchecked⟩ := hchecks id call _ hcall hmakes
  refine ⟨check, hchecked, ?_⟩
  simp only [usedCode, h, hcheck, Option.map_some]

/-- A use is a write to the row of its user. -/
theorem write_of_usedCode {code : String} (h : usedCode ⟨w, e, out⟩ = some (user, code)) :
    ∃ expectedSealed newSealed, w.write e out = some (user, .swap expectedSealed newSealed) := by
  unfold usedCode at h
  split at h
  · rename_i hwrite
    obtain ⟨check, -, heq⟩ := Option.map_eq_some_iff.mp h
    cases heq
    exact ⟨_, _, hwrite⟩
  · cases h

/-- No code of a set is spent before the set is issued. -/
private theorem countP_next_set
    (hnumbers : ∀ x ∈ past, ∀ user,
      (x.pre.issued user).number ≤ (w.issued user).number) (hx : x.pre = w) (user : UserId)
    (code : String) :
    (past ++ [x]).countP (usesIn user ((w.issued user).number + 1) code) = 0 := by
  rw [List.countP_eq_zero]
  intro y hy
  have hle : (y.pre.issued user).number ≤ (w.issued user).number := by
    rcases List.mem_append.mp hy with hy | hy
    · exact hnumbers y hy user
    · rw [List.mem_singleton.mp hy, hx]
  simp only [usesIn, Bool.and_eq_true, beq_iff_eq, not_and]
  intro _
  omega

/-- The count goes on with what the step spends. -/
private theorem countP_append_use (hx : x.pre = w) (user : UserId) (code : String) :
    (past ++ [x]).countP (usesIn user (w.issued user).number code) =
      if usedCode x = some (user, code) then
        past.countP (usesIn user (w.issued user).number code) + 1
      else past.countP (usesIn user (w.issued user).number code) := by
  rw [List.countP_append, List.countP_singleton]
  simp only [usesIn, hx, BEq.rfl, Bool.and_true, beq_iff_eq]
  split
  · rfl
  · rfl

variable (maxLockoutSecs) in
theorem counted_step (hP : P.Lawful) (hjson : JsonRoundTrip P) (h : CodesInvariant P key past w)
    (user : UserId) (code : String) :
    let x : FactorTaken := ⟨w, e, (factorStep P key maxLockoutSecs w e).2⟩
    let w' := (factorStep P key maxLockoutSecs w e).1
    Counted P key code ((past ++ [x]).countP (usesIn user (w'.issued user).number code))
      (w'.issuedCount user code) (w'.db.totpOf user) := by
  intro x w'
  have hcounted := h.counted user code
  rcases factorStep_row P key maxLockoutSecs w e user with
    ⟨hnone, hrow, -, hissued⟩ | ⟨write, hwrite, htakes, -, hissued⟩
  · have hunused : usedCode x ≠ some (user, code) := fun hused => by
      obtain ⟨expectedSealed, newSealed, hswap⟩ := write_of_usedCode hused
      exact hnone _ hswap
    rw [FactorWorld.issuedCount, hissued, hrow, countP_append_use (w := w) rfl, if_neg hunused]
    exact hcounted
  · -- A write that issues no set and swaps nothing spends nothing.
    have hkept : w'.issued user = w.issued user →
        (∀ expectedSealed newSealed, write ≠ .swap expectedSealed newSealed) →
        Counted P key code (past.countP (usesIn user (w.issued user).number code))
          (w.issuedCount user code) (w'.db.totpOf user) →
        Counted P key code ((past ++ [x]).countP (usesIn user (w'.issued user).number code))
          (w'.issuedCount user code) (w'.db.totpOf user) := by
      intro hsame hnoswap hafter
      have hunused : usedCode x ≠ some (user, code) := fun hused => by
        obtain ⟨expectedSealed, newSealed, hswap⟩ := write_of_usedCode hused
        rw [hwrite] at hswap
        cases hswap
        exact hnoswap _ _ rfl
      rw [FactorWorld.issuedCount, hsame, countP_append_use (w := w) rfl, if_neg hunused]
      exact hafter
    -- A new set is counted from zero.
    have hnew : ∀ {sealedCodes r call id draw}, e = .next id draw → w.calls id = some call →
        call.sealedCodes = some sealedCodes →
        w'.issued user = ⟨(w.issued user).number + 1, w.newCodes e⟩ →
        w'.db.totpOf user = some r → r.recoveryCodesEnc = some sealedCodes →
        Counted P key code ((past ++ [x]).countP (usesIn user (w'.issued user).number code))
          (w'.issuedCount user code) (w'.db.totpOf user) := by
      intro sealedCodes r call id draw he hcall hsealed hnext hafter hr
      obtain ⟨hopen, hown⟩ := h.carried id call hcall sealedCodes hsealed
      have hcodes : w.newCodes e = call.codes := by
        simp only [FactorWorld.newCodes, he, hcall, Option.map_some, Option.getD_some]
      rw [FactorWorld.issuedCount, hnext, countP_next_set h.numbers rfl, hafter, hcodes]
      exact .of_new hopen hown hr
    generalize hbefore : w.db.totpOf user = before at htakes
    rw [hbefore] at hcounted
    generalize hafter : w'.db.totpOf user = after at htakes
    rw [← hafter]
    cases htakes with
    | enroll secretEnc now =>
      refine hkept hissued nofun ?_
      rw [hafter]
      exact hcounted.of_none fun r hr => by cases hr; rfl
    | confirm | replaceCodes =>
      obtain ⟨id, draw, call, he, hcall, codes, rfl⟩ := FactorWorld.makes_of_write hwrite
      exact hnew he hcall rfl hissued hafter rfl
    | advance step r henabled hstep =>
      refine hkept hissued nofun ?_
      rw [hafter]
      exact hcounted.of_codes rfl
    | swap expectedSealed newSealed r henabled hcodes =>
      obtain ⟨check, hchecked, hused⟩ := swap_checked h.checks hwrite
      have hsame : w'.issued user = w.issued user := hissued
      cases hchecked with
      | recovery hread hopen hmatch hseal =>
        rw [FactorWorld.issuedCount, hsame, countP_append_use (w := w) rfl, hused, hafter]
        have hspent := hcounted.of_spent hP hjson hcodes hopen hmatch hseal
        simpa only [Option.some.injEq, Prod.mk.injEq, true_and, FactorWorld.issuedCount]
          using hspent
    | remove =>
      refine hkept hissued nofun ?_
      rw [hafter]
      exact hcounted.of_none nofun

theorem codesInvariant_step (hP : P.Lawful) (hjson : JsonRoundTrip P) (past : List FactorTaken)
    (w : FactorWorld) (e : FactorEvent) (h : CodesInvariant P key past w)
    (hdraw : DrawsOwnCodes P e) :
    CodesInvariant P key (past ++ [⟨w, e, (factorStep P key maxLockoutSecs w e).2⟩])
      (factorStep P key maxLockoutSecs w e).1 where
  checks := checksKnown_step h.checks
  carried := by
    intro id call' hcall'
    rcases factorStep_calls hcall' with ⟨hbefore, -⟩ | ⟨request, hstart⟩ |
      ⟨call, draw, rfl, -, hnext⟩
    · exact h.carried id call' hbefore
    · exact carriesOwn_of_start hstart
    · exact advance_carriesOwn hP hjson hdraw hnext
  numbers := by
    intro x hx user
    have hgrows : (w.issued user).number ≤
        ((factorStep P key maxLockoutSecs w e).1.issued user).number := by
      rcases factorStep_row P key maxLockoutSecs w e user with
        ⟨-, -, -, hissued⟩ | ⟨write, -, -, -, hissued⟩
      · rw [hissued]
      · rw [hissued]
        split
        · exact Nat.le_succ _
        · exact Nat.le_refl _
    rcases List.mem_append.mp hx with hx | hx
    · exact (h.numbers x hx user).trans hgrows
    · rw [List.mem_singleton.mp hx]
      exact hgrows
  counted := counted_step maxLockoutSecs hP hjson h

/-- A use takes the first hash that the text matches out of the stored list. -/
theorem use_removes_match (hP : P.Lawful) (hjson : JsonRoundTrip P)
    (hchecks : ChecksKnown P key w) {code : String}
    (h : usedCode ⟨w, e, (factorStep P key maxLockoutSecs w e).2⟩ = some (user, code)) :
    ∃ r expectedSealed newSealed hashes i, w.db.totpOf user = some r ∧ r.enabled = true ∧
      r.recoveryCodesEnc = some expectedSealed ∧ openCodes P key expectedSealed = some hashes ∧
      hashes.findIdx? (fun h => P.verifyPassword code h) = some i ∧
      (factorStep P key maxLockoutSecs w e).1.db.totpOf user =
        some { r with recoveryCodesEnc := some newSealed } ∧
      openCodes P key newSealed = some (hashes.eraseIdx i) := by
  obtain ⟨expectedSealed, newSealed, hswap⟩ := write_of_usedCode h
  obtain ⟨check, hchecked, hused⟩ := swap_checked hchecks hswap
  rw [h] at hused
  cases hused
  rcases factorStep_row P key maxLockoutSecs w e user with
    ⟨hnone, -⟩ | ⟨write, hwrite, htakes, -⟩
  · exact absurd hswap (hnone _)
  · rw [hswap] at hwrite
    cases hwrite
    generalize hbefore : w.db.totpOf user = before at htakes
    generalize hafter : (factorStep P key maxLockoutSecs w e).1.db.totpOf user = after at htakes
    cases htakes with
    | swap _ _ r henabled hcodes =>
      cases hchecked with
      | recovery hread hopen hmatch hseal =>
        exact ⟨r, _, _, _, _, rfl, henabled, hcodes, hopen, hmatch, rfl,
          openCodes_of_seal hP hjson hseal⟩

end Steps

/-! ## Runs -/

/-- In every run, a sign-in with a recovery code takes exactly the matched hash out of the stored
list, the code is one of the set that was issued last, and it has been spent less often than it was
issued; so one of a set without repetitions had not been spent before. -/
theorem recovery_code_spent_once {P : Primitives} (hP : P.Lawful) (hjson : JsonRoundTrip P)
    (key : MasterKey) (maxLockoutSecs : Int) {db : Database} {codes : UserId → List RecoveryCode}
    (hdb : StoredCodes P key db codes) {es : List FactorEvent}
    (hdraws : ∀ e ∈ es, DrawsOwnCodes P e) {past rest : List FactorTaken} {x : FactorTaken}
    (hx : factorTrace P key maxLockoutSecs (.start db codes) es = past ++ x :: rest)
    {user : UserId} {code : String} (hused : usedCode x = some (user, code)) :
    (∃ r expectedSealed newSealed hashes i, x.pre.db.totpOf user = some r ∧ r.enabled = true ∧
      r.recoveryCodesEnc = some expectedSealed ∧ openCodes P key expectedSealed = some hashes ∧
      hashes.findIdx? (fun h => P.verifyPassword code h) = some i ∧
      (factorStep P key maxLockoutSecs x.pre x.event).1.db.totpOf user =
        some { r with recoveryCodesEnc := some newSealed } ∧
      openCodes P key newSealed = some (hashes.eraseIdx i)) ∧
    (∃ c ∈ (x.pre.issued user).codes, c.code = code) ∧
    past.countP (usesIn user (x.pre.issued user).number code) < x.pre.issuedCount user code ∧
    (((x.pre.issued user).codes.map (·.code)).Nodup →
      ∀ y ∈ past, usesIn user (x.pre.issued user).number code y = false) := by
  have hdrawn : Machine.Guarded (factorStep P key maxLockoutSecs) (fun _ e => DrawsOwnCodes P e)
      (.start db codes) es := Machine.guarded_of_forall hdraws
  obtain ⟨hinv, hdraw, hout⟩ := Machine.trace_history (I := CodesInvariant P key)
    (codesInvariant_step hP hjson) hdrawn (codesInvariant_start hdb) hx
  obtain ⟨w, e, out⟩ := x
  dsimp only at hout
  subst hout
  have hafter := (counted_step maxLockoutSecs (e := e) hP hjson hinv user code).1
  have hcount : past.countP (usesIn user (w.issued user).number code) <
      w.issuedCount user code := by
    obtain ⟨expectedSealed, newSealed, hswap⟩ := write_of_usedCode hused
    rcases factorStep_row P key maxLockoutSecs w e user with
      ⟨hnone, -⟩ | ⟨write, hwrite, -, -, hissued⟩
    · exact absurd hswap (hnone _)
    · rw [hswap] at hwrite
      cases hwrite
      have hsame : (factorStep P key maxLockoutSecs w e).1.issued user = w.issued user := hissued
      rw [FactorWorld.issuedCount, hsame, countP_append_use (w := w) rfl, if_pos hused] at hafter
      exact hafter
  refine ⟨use_removes_match hP hjson hinv.checks hused, ?_, hcount, fun hnodup y hy => ?_⟩
  · obtain ⟨c, hc, hcode⟩ := List.countP_pos_iff.mp (Nat.zero_lt_of_lt hcount)
    exact ⟨c, hc, beq_iff_eq.mp hcode⟩
  · have hcounts : w.issuedCount user code = ((w.issued user).codes.map (·.code)).count code := by
      rw [List.count, List.countP_map]
      rfl
    have hone : w.issuedCount user code ≤ 1 := by
      rw [hcounts]
      exact List.nodup_iff_count_le_one.mp hnodup code
    have hzero : past.countP (usesIn user (w.issued user).number code) = 0 := by omega
    exact Bool.eq_false_iff.mpr (List.countP_eq_zero.mp hzero y hy)

/-! ## A run -/

/-- A character as a mark and four bytes. -/
def charBytes (c : Char) : Bytes :=
  [1, UInt8.ofNat (c.toNat / 2 ^ 24), UInt8.ofNat (c.toNat / 2 ^ 16), UInt8.ofNat (c.toNat / 2 ^ 8),
    UInt8.ofNat c.toNat]

def textBytes (t : String) : Bytes := t.toList.flatMap charBytes ++ [0]

/-- Read texts back, given the characters of the first one that were read before. -/
def readTexts : Bytes → List Char → Option (List String)
  | [], _ => some []
  | 0 :: rest, chars => (readTexts rest []).map fun texts => String.ofList chars.reverse :: texts
  | _ :: a :: b :: c :: d :: rest, chars =>
    readTexts rest
      (Char.ofNat (a.toNat * 2 ^ 24 + b.toNat * 2 ^ 16 + c.toNat * 2 ^ 8 + d.toNat) :: chars)
  | _ :: _, _ => none

private theorem readTexts_charBytes (c : Char) (rest : Bytes) (chars : List Char) :
    readTexts (charBytes c ++ rest) chars = readTexts rest (c :: chars) := by
  have hlt : c.toNat < 2 ^ 32 := c.val.toNat_lt
  have hchar : (UInt8.ofNat (c.toNat / 2 ^ 24)).toNat * 2 ^ 24 +
      (UInt8.ofNat (c.toNat / 2 ^ 16)).toNat * 2 ^ 16 +
      (UInt8.ofNat (c.toNat / 2 ^ 8)).toNat * 2 ^ 8 + (UInt8.ofNat c.toNat).toNat = c.toNat := by
    simp only [UInt8.toNat_ofNat']
    omega
  rw [charBytes, List.cons_append, List.cons_append, List.cons_append, List.cons_append,
    List.cons_append, List.nil_append, readTexts, hchar, Char.ofNat_toNat]
  exact nofun

private theorem readTexts_textBytes (t : String) (rest : Bytes) (chars : List Char) :
    readTexts (textBytes t ++ rest) chars =
      (readTexts rest []).map fun texts => String.ofList (chars.reverse ++ t.toList) :: texts := by
  have hchars : ∀ (cs chars : List Char), readTexts (cs.flatMap charBytes ++ ([0] ++ rest)) chars =
      (readTexts rest []).map fun texts => String.ofList (chars.reverse ++ cs) :: texts := by
    intro cs
    induction cs with
    | nil =>
      intro chars
      simp [readTexts]
    | cons c cs ih =>
      intro chars
      rw [List.flatMap_cons, List.append_assoc, readTexts_charBytes, ih]
      simp
  rw [textBytes, List.append_assoc]
  exact hchars t.toList chars

private theorem readTexts_encode (texts : List String) :
    readTexts (texts.flatMap textBytes) [] = some texts := by
  induction texts with
  | nil => rfl
  | cons t texts ih =>
    rw [List.flatMap_cons, readTexts_textBytes, ih]
    simp

/-- The instance that runs, with lists of texts that can be read back. -/
def Primitives.readable : Primitives :=
  { Primitives.transparent with
    encodeTexts := fun texts => texts.flatMap textBytes
    decodeTexts := fun bytes => readTexts bytes [] }

theorem Primitives.readable_lawful : Primitives.readable.Lawful where
  open_seal := Primitives.transparent_lawful.open_seal
  open_other_key := Primitives.transparent_lawful.open_other_key

theorem jsonRoundTrip_readable : JsonRoundTrip .readable := readTexts_encode

/-- User 7 has given the password twice. -/
def twicePendingDb : Database :=
  { factorDb with
    loginPendingMfa := ⟨[{ id := 1, userId := 7, expiresAt := seconds 300, createdAt := 0 },
                        { id := 2, userId := 7, expiresAt := seconds 300, createdAt := 0 }],
      by decide⟩ }

/-- Two sign-ins have matched the same recovery code when the first of them commits. -/
def sharedRecoveryCode : List FactorEvent :=
  let draw : FactorDraw :=
    { FactorDraw.sample (seconds 60) with
      flow := { FlowDraw.sample (seconds 60) with sessionId := 41 } }
  let submit := fun id : PendingMfaId =>
    FactorRequest.signIn (.mfaChallenge ⟨none, "", some id⟩ "" "c")
  enrolled ++ ([.begin 3 (submit 1), .begin 4 (submit 2), .next 3 draw, .next 4 draw, .next 3 draw,
    .next 4 draw, .next 3 draw, .next 4 draw] : List FactorEvent)

/-- The event draws the one recovery code of the sample, if any. -/
def drawsSampleCode : FactorEvent → Bool
  | .next _ draw => draw.codes == [⟨"c", "c"⟩]
  | _ => true

private theorem drawsOwnCodes_of_sample {e : FactorEvent} (h : drawsSampleCode e = true) :
    DrawsOwnCodes .readable e := by
  cases e with
  | next id draw =>
    intro c hc text hmatch
    rw [beq_iff_eq.mp h, List.mem_singleton] at hc
    subst hc
    exact of_decide_eq_true hmatch
  | begin id request => trivial
  | elsewhere db => trivial

theorem recovery_code_spent_once_shared :
    let steps := factorTrace .readable (.constant 7) 0 (.start twicePendingDb fun _ => [])
      sharedRecoveryCode
    steps.filterMap usedCode = [(7, "c")] ∧
      ∃ past x rest, steps = past ++ x :: rest ∧ usedCode x = some (7, "c") ∧
        past.countP (usesIn 7 (x.pre.issued 7).number "c") < x.pre.issuedCount 7 "c" := by
  intro steps
  have hused : steps.filterMap usedCode = [(7, "c")] := by decide +kernel
  refine ⟨hused, ?_⟩
  have hmem : (7, "c") ∈ steps.filterMap usedCode := by
    rw [hused]
    exact List.mem_singleton_self _
  obtain ⟨x, hx, hcode⟩ := List.mem_filterMap.mp hmem
  obtain ⟨past, rest, hsplit⟩ := List.append_of_mem hx
  have hdb : StoredCodes .readable (.constant 7) twicePendingDb fun _ => [] :=
    fun user r sealedCodes hashes code hget _ _ => by cases hget
  have hdraws : ∀ e ∈ sharedRecoveryCode, DrawsOwnCodes .readable e := by
    have hsame : sharedRecoveryCode.all drawsSampleCode = true := by decide +kernel
    exact fun e he => drawsOwnCodes_of_sample (List.all_eq_true.mp hsame e he)
  exact ⟨past, x, rest, hsplit, hcode,
    (recovery_code_spent_once Primitives.readable_lawful jsonRoundTrip_readable (.constant 7) 0 hdb
      hdraws hsplit hcode).2.2.1⟩

end SuiId
