import SuiId.Core.FederatedMfa
import SuiId.Lib.Base64
import SuiId.Proofs.GuessBudget
import SuiId.Proofs.Lockout

/-!
# A right code for a federated sign-in

`RightSubmission` lists what the two passes check.  `verify_right_code` says that the verifier
finds a proof in it, of either kind, and `RightSubmission.redeemable` that F03 promotes the row
for such a proof.

What is left is a ceremony of a passkey that was begun for the row.  The verifier looks for one
and not at its expiry, so that a right code is counted as a wrong one until the row is gone.
-/

namespace SuiId

open Lib Lib.Result

/-! ## The text of a code -/

/-- A character after the first that is no digit keeps a text from being a number. -/
theorem parseU32_of_not_digit {s : String} {c : Char} (hc : c ∈ s.toList.tail)
    (hdigit : c.isDigit = false) : parseU32 s = none := by
  have hbad : ∀ digits : List Char, c ∈ digits →
      (digits.isEmpty || !digits.all Char.isDigit) = true := by
    intro digits hmem
    rw [Bool.or_eq_true, Bool.not_eq_true', List.all_eq_false]
    exact Or.inr ⟨c, hmem, by simp [hdigit]⟩
  unfold parseU32
  by_cases hplus : (s.toList.head? == some '+') = true
  · rw [if_pos hplus]
    exact if_pos (hbad _ hc)
  · rw [if_neg hplus]
    exact if_pos (hbad _ (List.mem_of_mem_tail hc))

/-- A recovery code has a dash after its fifth character. -/
theorem toList_generateRecoveryCode {P : Primitives} {bytes : Bytes}
    (hlength : (P.base64Url bytes).length = 16) :
    ∃ c rest, (generateRecoveryCode P bytes).toList = c :: rest ∧ '-' ∈ rest := by
  let group : Char × Nat → List Char := fun x =>
    if x.2 == 5 || x.2 == 10 then ['-', x.1] else [x.1]
  have htake : ((P.base64Url bytes).toList.take 15).length = 15 := by
    rw [List.length_take, String.length_toList, hlength]
    rfl
  cases hl : (P.base64Url bytes).toList.take 15 with
  | nil =>
    rw [hl] at htake
    cases htake
  | cons c s =>
    rw [hl, List.length_cons] at htake
    have hs : 4 < s.length := by omega
    refine ⟨c, (s.zipIdx 1).flatMap group, ?_, ?_⟩
    · rw [generateRecoveryCode, String.toList_ofList, hl]
      rfl
    · have hfifth : (s[4], 5) ∈ s.zipIdx 1 := by
        rw [List.mk_mem_zipIdx_iff_le_and_getElem?_sub]
        exact ⟨by omega, List.getElem?_eq_getElem hs⟩
      exact List.mem_flatMap.mpr ⟨_, hfifth, List.mem_cons_self ..⟩

/-- The dash keeps a recovery code from being read as digits. -/
theorem parseU32_generateRecoveryCode {P : Primitives} {bytes : Bytes}
    (hlength : (P.base64Url bytes).length = 16) :
    parseU32 (generateRecoveryCode P bytes) = none := by
  obtain ⟨c, rest, htext, hdash⟩ := toList_generateRecoveryCode hlength
  apply parseU32_of_not_digit (c := '-')
  · rw [htext]
    exact hdash
  · rfl

/-! ## What F03 needs -/

section Promotion

variable {P : Primitives} {key : MasterKey} {db : Database} {row : FederationMfaPendingRow}
  {sessionId : SessionId} {now : DateTime}

/-- What the authority of a row is made of. -/
structure Authorized (db : Database) (row : FederationMfaPendingRow) : Prop where
  provider : ∃ provider, db.federationProvider.get? row.providerId = some provider ∧
    provider.enabled = true
  link : FederationLink.isLinked db row.userId row.providerId = true
  user : ∃ user, db.users.get? row.userId = some user ∧ Users.active user = true

theorem Authorized.drift (h : Authorized db row) :
    authorityDrift db row.providerId row.userId = .ok none := by
  obtain ⟨provider, hprovider, henabled⟩ := h.provider
  obtain ⟨user, huser, hactive⟩ := h.user
  have hisEnabled : FederationProvider.isEnabled db row.providerId = .ok true := by
    rw [FederationProvider.isEnabled, hprovider, ← henabled]
    rfl
  simp only [authorityDrift, hisEnabled, h.link, huser, require, bind, Except.bind, hactive, pure,
    Except.pure, Bool.not_true, Bool.false_eq_true, if_false, if_true]

/-- A promoted row keeps its count. -/
theorem failureCount_promoted {pendingId : FederationMfaPendingId} {proof : Option F03Proof}
    {session : SessionRow} {evicted : Nat} {text : String} {db' : Database}
    (hget : db.federationMfaPending.get? pendingId = some row)
    (h : completeFederatedMfa P key db pendingId proof sessionId now =
      .ok (.promoted session evicted text, db')) :
    (db'.federationMfaPending.get? pendingId).map (·.failureCount) = some row.failureCount := by
  obtain ⟨row', rfl, -, heffect⟩ := completeFederatedMfa_ok h
  cases heffect with
  | promoted method evicted t hcount hrow hsession hdb =>
    obtain ⟨userTotp, webauthnCredentials, ceremonies, links, users, sessions, rfl⟩ := hdb
    have hsame : row' = row := by
      have hbefore := hrow.before
      rw [hget] at hbefore
      exact (Option.some.inj hbefore).symm
    subst hsame
    show (Table.get? t row'.id).map (·.failureCount) = some row'.failureCount
    rw [show t.get? row'.id = some (row'.closed .completed) from hrow.after]
    rfl

end Promotion

/-! ## What F02 seals -/

section Continuations

variable {P : Primitives} {key : MasterKey} {db db' : Database} {req : MfaPendingRequest}
  {id : FederationMfaPendingId} {expiresAt : DateTime}

/-- A row that carries the columns that its continuation was sealed under. -/
private theorem checkContinuation_of_sealed (hP : P.Lawful) {row : FederationMfaPendingRow}
    {sealed : Bytes} (hsealed : sealContinuation P key row.id req = .ok sealed)
    (hcontinuation : row.continuationSealed = some sealed)
    (hprovider : row.providerId = req.providerId)
    (hversion : row.providerConfigVersion = req.providerConfigVersion)
    (hgeneration : row.providerActivationGeneration = req.providerActivationGeneration)
    (huser : row.userId = req.userId) : checkContinuation P key row = .ok () := by
  have hopened := hP.open_seal hsealed
  rw [← hprovider, ← hversion, ← hgeneration, ← huser] at hopened
  unfold checkContinuation
  split
  · simp only [hcontinuation, require, bind, Except.bind, hopened]
    rfl
  · rfl

private theorem openPending_opens (hP : P.Lawful)
    (h : openPending P key db req = .ok ((id, expiresAt), db')) {row : FederationMfaPendingRow}
    (hget : db'.federationMfaPending.get? id = some row) :
    checkContinuation P key row = .ok () := by
  simp only [openPending, bind_eq_ok, pure_eq_ok, Prod.mk.injEq] at h
  obtain ⟨sealed, hsealed, db₁, hinsert, ⟨rfl, -⟩, rfl⟩ := h
  obtain ⟨-, t, hinsert', rfl⟩ := FederationMfaPending.insert_ok hinsert
  rw [Table.get?_of_insert? hinsert', if_pos rfl] at hget
  cases hget
  exact checkContinuation_of_sealed hP hsealed rfl rfl rfl rfl rfl

private theorem restartPending_opens (hP : P.Lawful) {existing : FederationMfaPendingRow}
    (hmem : existing ∈ db.federationMfaPending)
    (h : restartPending P key db req existing = .ok ((id, expiresAt), db'))
    {row : FederationMfaPendingRow} (hget : db'.federationMfaPending.get? id = some row) :
    checkContinuation P key row = .ok () := by
  simp only [restartPending, FederationMfaPending.refreshForRestart, bind_eq_ok, ensure_eq_ok,
    pure_eq_ok, Prod.mk.injEq] at h
  obtain ⟨sealed, hsealed, updated, ⟨-, -, -, -, -, -, rfl⟩, -, htrue, ⟨rfl, -⟩, rfl⟩ := h
  obtain ⟨r, t, hread, hp, hreplaced, heq⟩ := FederationMfaPending.updateWhere_true htrue
  have hsame : r = existing :=
    Table.eq_of_key_eq (Table.get?_eq_some.mp hread).1 hmem (Table.get?_eq_some.mp hread).2
  subst hsame
  simp only [Bool.and_eq_true, beq_iff_eq] at hp
  rw [heq] at hget
  have hafter : t.get? r.id = some (r.refreshed req sealed) := hreplaced.after
  rw [hafter] at hget
  cases hget
  have hrefreshed := r.refreshed_id req sealed
  unfold FederationMfaPendingRow.refreshed at hrefreshed ⊢
  rw [dif_pos hp.2] at hrefreshed ⊢
  exact checkContinuation_of_sealed hP hsealed rfl rfl rfl rfl hp.1

/-- What F02 has sealed into a row, F03 opens. -/
theorem issueFederatedMfaPending_opens (hP : P.Lawful)
    (h : issueFederatedMfaPending P key db req = .ok ((id, expiresAt), db'))
    {row : FederationMfaPendingRow} (hget : db'.federationMfaPending.get? id = some row) :
    checkContinuation P key row = .ok () := by
  simp only [issueFederatedMfaPending, bind_eq_ok] at h
  obtain ⟨db₁, hcomplete, hrest⟩ := h
  obtain ⟨r, attempts, -, -, -, rfl⟩ := FederationLoginAttempt.complete_ok hcomplete
  split at hrest
  · rename_i existing hfind
    obtain ⟨hmem, -⟩ := Table.mem_of_find? hfind
    split at hrest
    · rename_i hexhausted
      cases hrest
      have hsame : row = existing := Table.eq_of_key_eq (Table.get?_eq_some.mp hget).1 hmem
        (Table.get?_eq_some.mp hget).2
      subst hsame
      unfold checkContinuation
      rw [if_neg (by rw [beq_iff_eq.mp hexhausted]; decide)]
      rfl
    · split at hrest
      · exact restartPending_opens hP hmem hrest hget
      · simp only [bind_eq_ok, ensure_eq_ok] at hrest
        obtain ⟨-, -, hopen⟩ := hrest
        exact openPending_opens hP hopen hget
  · exact openPending_opens hP hrest hget

end Continuations

/-! ## What the verifier needs -/

/-- What a code relies on other crates for: base64 writes twelve bytes with sixteen characters,
and the cipher seals any message that fits into memory. -/
structure Primitives.EncodesCodes (P : Primitives) (key : MasterKey) : Prop where
  length_base64Url : ∀ bytes : Bytes, bytes.length = 12 → (P.base64Url bytes).length = 16
  encrypt_isSome : ∀ nonce plaintext aad, (P.encrypt key nonce plaintext aad).isSome = true

theorem Primitives.EncodesCodes.seal {P : Primitives} {key : MasterKey} (hP : P.EncodesCodes key)
    (nonce : Nonce) (plaintext aad : Bytes) :
    ∃ sealed, sealBytes P key nonce plaintext aad = .ok sealed := by
  obtain ⟨ct, hct⟩ := Option.isSome_iff_exists.mp (hP.encrypt_isSome nonce.bytes plaintext aad)
  exact ⟨nonce.bytes ++ ct, by rw [sealBytes, hct]⟩

namespace FederatedMfa

section RightCodes

variable {P : Primitives} {key : MasterKey} {db : Database} {row : FederationMfaPendingRow}
  {t : UserTotpRow} {s : Submission} {draw : Draw}

/-- The time steps whose codes are accepted at `now`. -/
def window (now : DateTime) : List Int :=
  let nowStep := now / 1000000000 / Totp.stepSecs
  [nowStep - 1, nowStep, nowStep + 1]

/-- A TOTP code whose step has not been used, or a recovery code whose hash is still there. -/
inductive RightCode (P : Primitives) (key : MasterKey) (t : UserTotpRow) (now : DateTime)
    (codeInput : String) : Prop where
  | totp (secret : Bytes) (step : Int) (hsecret : openBytes P key t.secretEnc UserTotp.aad =
        .ok secret) (hwindow : step ∈ window now) (hunused : t.lastUsedStep < step)
      (hcode : parseU32 (Text.trim codeInput) = some (Totp.codeForStep P secret step))
  | recovery (sealedCodes blob bytes : Bytes) (hashes : List String) (phc : String)
      (hcodes : t.recoveryCodesEnc = some sealedCodes)
      (hblob : openBytes P key sealedCodes UserTotp.recoveryAad = .ok blob)
      (hhashes : P.decodeTexts blob = some hashes) (hunspent : phc ∈ hashes)
      (hbytes : bytes.length = 12) (hcode : Text.trim codeInput = generateRecoveryCode P bytes)
      (hverifies : P.verifyPassword (Text.trim codeInput) phc = true)

/-- An unused code of the window is found, if not for its own step then for an earlier one. -/
theorem totp_verify_of_fresh {secret : Bytes} {now : DateTime} {step lastUsedStep : Int}
    (hwindow : step ∈ window now) (hunused : lastUsedStep < step) :
    ∃ found, Totp.verify P secret (now / 1000000000) (Totp.codeForStep P secret step)
      lastUsedStep = some found ∧ lastUsedStep < found := by
  have hsmall : ¬ 10 ^ 6 ≤ Totp.codeForStep P secret step := by
    have hlt : Totp.codeForStep P secret step < 10 ^ 6 := Nat.mod_lt _ (by omega)
    exact Nat.not_le.mpr hlt
  unfold Totp.verify
  rw [if_neg hsmall]
  show ∃ found, (window now).find? _ = some found ∧ _
  cases hfind : (window now).find? fun step' =>
      decide (lastUsedStep < step') &&
        Totp.codeForStep P secret step' == Totp.codeForStep P secret step with
  | none =>
    have hnot := List.find?_eq_none.mp hfind step hwindow
    simp [hunused] at hnot
  | some found =>
    have hfound := List.find?_some hfind
    simp only [Bool.and_eq_true, decide_eq_true_eq] at hfound
    exact ⟨found, rfl, hfound.1⟩

/-- Digits that verify are a TOTP code. -/
theorem checkCode_totp {codeInput : String} {secret : Bytes} {digits : Nat} {found : Int}
    (hnonempty : (Text.trim codeInput).isEmpty = false)
    (hdigits : parseU32 (Text.trim codeInput) = some digits)
    (hsecret : openBytes P key t.secretEnc UserTotp.aad = .ok secret)
    (hfound : Totp.verify P secret (draw.checkedAt / 1000000000) digits t.lastUsedStep =
      some found) :
    checkCode P key t codeInput draw = .ok (.totp found) := by
  have hopened : (openBytes P key t.secretEnc UserTotp.aad).mapError classifyStoreError =
      .ok secret := by
    rw [hsecret]
    rfl
  unfold checkCode
  simp only [hnonempty, Bool.false_eq_true, if_false]
  rw [hdigits]
  simp only [hopened, bind, Except.bind, hfound]
  rfl

/-- A right code is found, as a step that has not been used or as the codes that are stored. -/
theorem checkCode_right (hP : P.EncodesCodes key)
    (hcode : RightCode P key t draw.checkedAt s.codeInput) :
    (∃ found, checkCode P key t s.codeInput draw = .ok (.totp found) ∧ t.lastUsedStep < found) ∨
      ∃ sealedCodes newSealed, checkCode P key t s.codeInput draw =
        .ok (.recovery sealedCodes newSealed) ∧ t.recoveryCodesEnc = some sealedCodes := by
  cases hcode with
  | totp secret step hsecret hwindow hunused hcode =>
    have hnonempty : (Text.trim s.codeInput).isEmpty = false := by
      rw [Bool.eq_false_iff]
      intro hempty
      have hnone : parseU32 "" = none := rfl
      rw [String.isEmpty_iff.mp hempty, hnone] at hcode
      exact absurd hcode (Option.some_ne_none _).symm
    obtain ⟨found, hfound, hlater⟩ := @totp_verify_of_fresh P secret _ _ _ hwindow
      hunused
    exact Or.inl ⟨found, checkCode_totp hnonempty hcode hsecret hfound, hlater⟩
  | recovery sealedCodes blob bytes hashes phc hcodes hblob hhashes hunspent hbytes hcode
      hverifies =>
    have hlength := hP.length_base64Url bytes hbytes
    have hnonempty : (Text.trim s.codeInput).isEmpty = false := by
      obtain ⟨c, rest, htext, -⟩ := toList_generateRecoveryCode hlength
      rw [hcode, Bool.eq_false_iff]
      intro hempty
      rw [String.isEmpty_iff.mp hempty] at htext
      cases htext
    have hdigits : parseU32 (Text.trim s.codeInput) = none := by
      rw [hcode]
      exact parseU32_generateRecoveryCode hlength
    cases hfind : hashes.findIdx? fun h => P.verifyPassword (Text.trim s.codeInput) h with
    | none =>
      have hnot := List.findIdx?_eq_none_iff.mp hfind phc hunspent
      rw [hverifies] at hnot
      cases hnot
    | some i =>
      obtain ⟨newSealed, hsealed⟩ := hP.seal draw.nonce (P.encodeTexts (hashes.eraseIdx i))
        UserTotp.recoveryAad
      have hmatch : matchRecoveryCode P key draw.nonce t (Text.trim s.codeInput) =
          .ok (some (sealedCodes, newSealed)) := by
        unfold matchRecoveryCode
        simp only [hcodes, hblob, hhashes, hfind, hsealed, require, Except.mapError, bind,
          Except.bind]
        rfl
      refine Or.inr ⟨sealedCodes, newSealed, ?_, hcodes⟩
      unfold checkCode
      simp only [hnonempty, hdigits, hmatch, bind, Except.bind, Bool.false_eq_true, if_false]
      rfl

/-- A submission of a right code, with the right cookies, for a row of which everything that the
two passes check still holds.  A ceremony of the row, if there is one, has expired. -/
structure RightSubmission (P : Primitives) (key : MasterKey) (db : Database)
    (row : FederationMfaPendingRow) (t : UserTotpRow) (s : Submission) (draw : Draw) : Prop where
  stored : db.federationMfaPending.get? row.id = some row
  status : row.status = .pending
  failureCount : row.failureCount ≤ 4
  live : draw.boundAt < row.expiresAt ∧ draw.now < row.expiresAt
  continuation : checkContinuation P key row = .ok ()
  authorized : Authorized db row
  ceremony : ∀ c, FederationWebauthnCeremony.findByPendingId db row.id = some c →
    c.expiresAt ≤ draw.now
  pendingId : s.pendingId = some row.id
  browserBinding : row.browserBindingSha256 = P.sha256 (utf8 s.browserBindingCookie)
  csrf : row.csrfBindingSha256 = P.sha256 (utf8 s.csrfBodyValue)
  totp : db.userTotp.get? row.userId = some t
  confirmed : t.enabled = true
  code : RightCode P key t draw.checkedAt s.codeInput
  fresh : db.sessions.get? draw.sessionId = none

/-- The row is found. -/
theorem RightSubmission.bound (h : RightSubmission P key db row t s draw) :
    bindPending P db s draw.boundAt = .ok (.row row) := by
  obtain ⟨provider, hprovider, henabled⟩ := h.authorized.provider
  obtain ⟨user, huser, hactive⟩ := h.authorized.user
  have hdigests : (row.browserBindingSha256 == P.sha256 (utf8 s.browserBindingCookie) &&
      row.csrfBindingSha256 == P.sha256 (utf8 s.csrfBodyValue)) = true := by
    rw [h.browserBinding, h.csrf, beq_self_eq_true, beq_self_eq_true]
    rfl
  have hpending : (row.status == MfaPendingStatus.pending) = true := by
    rw [h.status]
    rfl
  unfold bindPending
  simp only [h.pendingId, h.stored, huser, hprovider, hdigests, hactive, henabled, hpending,
    require, ensure, bind, Except.bind, pure, Except.pure, if_true, Int.not_le.mpr h.live.1,
    if_false]

/-- Without a ceremony, the verifier hands F03 a proof that the store still holds. -/
theorem verify_right_code (hP : P.EncodesCodes key) (h : RightSubmission P key db row t s draw)
    (hnone : FederationWebauthnCeremony.findByPendingId db row.id = none) :
    ∃ outcome, verify P key db s draw = .ok outcome ∧
      proofHolds db row draw.now outcome.proof = true := by
  have hverify : verify P key db s draw = checkCode P key t s.codeInput draw := by
    unfold verify
    simp only [h.bound, hnone, h.totp, h.confirmed, require, ensure, bind, Except.bind,
      Option.isSome_none, Bool.false_eq_true, if_false, if_true]
  rw [hverify]
  rcases checkCode_right hP h.code with ⟨found, hfound, hlater⟩ |
      ⟨sealedCodes, newSealed, hfound, hcodes⟩
  · refine ⟨.totp found, hfound, ?_⟩
    show (db.userTotp.get? row.userId).any _ = true
    rw [h.totp, Option.any_some, h.confirmed, Bool.true_and]
    exact decide_eq_true hlater
  · refine ⟨.recovery sealedCodes newSealed, hfound, ?_⟩
    show (db.userTotp.get? row.userId).any _ = true
    rw [h.totp, Option.any_some, h.confirmed, hcodes, Bool.true_and]
    exact beq_self_eq_true _

/-- With a ceremony, it hands F03 a wrong method. -/
theorem verify_mismatch (h : RightSubmission P key db row t s draw)
    {ceremony : FederationWebauthnCeremonyRow}
    (hsome : FederationWebauthnCeremony.findByPendingId db row.id = some ceremony) :
    verify P key db s draw = .ok (.rejected .methodMismatch) := by
  unfold verify
  simp only [h.bound, hsome, bind, Except.bind, Option.isSome_some, if_true]
  rfl

/-- F03 promotes the row for such a proof. -/
theorem RightSubmission.redeemable (h : RightSubmission P key db row t s draw)
    {proof : Option F03Proof} (hproof : proofHolds db row draw.now proof = true) :
    Redeemable P key db row proof draw.sessionId draw.now where
  stored := h.stored
  pending := h.status
  budget := Nat.lt_succ_of_le h.failureCount
  continuation := h.continuation
  unexpired := h.live.2
  authority := h.authorized.drift
  proof := hproof
  unused := Table.get?_eq_none.mp h.fresh

/-- The submission promotes its row and no failure is counted. -/
def AdmitsWithoutFailure (P : Primitives) (key : MasterKey) (db : Database)
    (row : FederationMfaPendingRow) (s : Submission) (draw : Draw) : Prop :=
  ∃ session evicted text db',
    promote P key db s draw = .ok (.promoted session evicted text, db') ∧
      (db'.federationMfaPending.get? row.id).map (·.failureCount) = some row.failureCount

/-- A right code gets in exactly when no ceremony is bound to its row, not even one that has
expired. -/
theorem right_code_admitted_iff (hP : P.EncodesCodes key)
    (h : RightSubmission P key db row t s draw) :
    AdmitsWithoutFailure P key db row s draw ↔
      FederationWebauthnCeremony.findByPendingId db row.id = none := by
  constructor
  · rintro ⟨session, evicted, text, db', hpromoted, -⟩
    by_contra hsome
    obtain ⟨ceremony, hsome⟩ := Option.ne_none_iff_exists'.mp hsome
    simp only [promote, verify_mismatch h hsome, h.pendingId, require, bind, Except.bind]
      at hpromoted
    rw [mapError_eq_ok] at hpromoted
    obtain ⟨row', -, -, hredeemable, -⟩ := redeemable_of_promoted hpromoted
    cases hredeemable.proof
  · intro hnone
    obtain ⟨outcome, hverified, hproof⟩ := verify_right_code hP h hnone
    obtain ⟨session, evicted, text, db', hpromoted⟩ := (h.redeemable hproof).promoted
    refine ⟨session, evicted, text, db', ?_, failureCount_promoted h.stored hpromoted⟩
    simp only [promote, hverified, h.pendingId, require, bind, Except.bind]
    rw [hpromoted]
    rfl

end RightCodes

end FederatedMfa

/-! ## A code after a passkey -/

def Primitives.encoding : Primitives :=
  { Primitives.transparent with base64Url := Base64Url.encode }

theorem Primitives.encoding_encodesCodes (key : MasterKey) :
    Primitives.encoding.EncodesCodes key where
  length_base64Url bytes hbytes := by
    show (Base64Url.encode bytes).length = 16
    rw [Base64Url.length_encode, hbytes]
    rfl
  encrypt_isSome _ _ _ := rfl

/-- User 7 has a passkey beside the authenticator. -/
def bothFactorsTotp : UserTotpRow where
  userId := 7
  secretEnc := (sealBytes .encoding (.constant 7) (.constant 0) [1] UserTotp.aad).toOption.getD []
  enabled := true
  recoveryCodesEnc := none
  lastUsedStep := 0
  createdAt := 0
  confirmedAt := some 0

def bothFactorsDb : Database :=
  { linkedDb with
    userTotp := ⟨[bothFactorsTotp], by decide⟩
    webauthnCredentials := ⟨[{ id := 50, userId := 7, credentialId := [1], passkeyEnc := []
                               nickname := "Passkey", createdAt := 0, lastUsedAt := none }],
      by decide⟩ }

/-- F02, and F06 a second later. -/
def begunPasskey : List SignInEvent :=
  exchanged 1 ++ [samplePending 1 1,
    .transaction (.beginFederationWebauthnCeremony 1 [] "corp.example" "" 9 (seconds 3))]

def samplePendingRow : FederationMfaPendingRow :=
  let req : MfaPendingRequest :=
    { id := 1, nonce := .constant 0, attemptId := 1, providerId := 1, providerConfigVersion := 0
      providerActivationGeneration := 0, userId := 7, nextPath := none
      browserBindingSha256 := [5], csrfBindingSha256 := [6], now := seconds 2 }
  FederationMfaPending.newRow req
    ((sealContinuation .encoding (.constant 7) 1 req).toOption.getD [])

def pendingDb : Database :=
  (signInRun .encoding (.constant 7) (.start bothFactorsDb) (exchanged 1 ++ [samplePending 1 1])).db

def begunDb : Database :=
  (signInRun .encoding (.constant 7) (.start bothFactorsDb) begunPasskey).db

/-- The code of every step of the second minute, with both cookies. -/
def codeSubmission : FederatedMfa.Submission where
  pendingId := some 1
  browserBindingCookie := String.ofList [Char.ofNat 5]
  csrfBodyValue := String.ofList [Char.ofNat 6]
  codeInput := "000000"

def codeDraw : FederatedMfa.Draw where
  boundAt := seconds 100
  checkedAt := seconds 100
  now := seconds 100
  nonce := .constant 0
  sessionId := 1

/-- It is right wherever the pending row is still the one of F02. -/
private theorem rightSubmission_sample {db : Database}
    (hstored : db.federationMfaPending.get? 1 = some samplePendingRow)
    (hprovider : (db.federationProvider.get? 1).any (·.enabled) = true)
    (hlink : FederationLink.isLinked db 7 1 = true)
    (huser : (db.users.get? 7).any Users.active = true)
    (htotp : db.userTotp.get? 7 = some bothFactorsTotp)
    (hceremony : ∀ c, FederationWebauthnCeremony.findByPendingId db 1 = some c →
      c.expiresAt ≤ seconds 100)
    (hfresh : db.sessions.get? 1 = none) :
    FederatedMfa.RightSubmission .encoding (.constant 7) db samplePendingRow bothFactorsTotp
      codeSubmission codeDraw where
  stored := hstored
  status := rfl
  failureCount := by decide
  live := ⟨by decide, by decide⟩
  continuation := rfl
  authorized := ⟨(Option.any_eq_true _ _).mp hprovider, hlink, (Option.any_eq_true _ _).mp huser⟩
  ceremony := hceremony
  pendingId := rfl
  browserBinding := by decide +kernel
  csrf := by decide +kernel
  totp := htotp
  confirmed := rfl
  code := .totp [1] 3 (by decide +kernel) (by decide) (by decide) (by decide +kernel)
  fresh := hfresh

theorem right_code_admitted_pending :
    FederatedMfa.AdmitsWithoutFailure .encoding (.constant 7) pendingDb samplePendingRow
      codeSubmission codeDraw := by
  have hnone : FederationWebauthnCeremony.findByPendingId pendingDb 1 = none := by decide +kernel
  have hright := @rightSubmission_sample pendingDb (by decide +kernel) (by decide +kernel)
    (by decide +kernel) (by decide +kernel) (by decide +kernel)
    (fun c hc => absurd (hnone.symm.trans hc) (Option.some_ne_none c).symm) (by decide +kernel)
  exact (FederatedMfa.right_code_admitted_iff (Primitives.encoding_encodesCodes _) hright).mpr hnone

/-- The ceremony of the passkey expired half a minute ago, and the code is counted as wrong. -/
theorem right_code_rejected_begun :
    FederatedMfa.RightSubmission .encoding (.constant 7) begunDb samplePendingRow bothFactorsTotp
        codeSubmission codeDraw ∧
      (FederatedMfa.promote .encoding (.constant 7) begunDb codeSubmission codeDraw).toOption.map
        (·.1) = some (.rejectedStillPending 1 .methodMismatch) ∧
      ¬ FederatedMfa.AdmitsWithoutFailure .encoding (.constant 7) begunDb samplePendingRow
        codeSubmission codeDraw := by
  have hexpired : ((FederationWebauthnCeremony.findByPendingId begunDb 1).all fun c =>
      c.expiresAt ≤ seconds 100) = true := by
    decide +kernel
  have hceremony : ∀ c, FederationWebauthnCeremony.findByPendingId begunDb 1 = some c →
      c.expiresAt ≤ seconds 100 := by
    intro c hc
    rw [hc, Option.all_some] at hexpired
    exact of_decide_eq_true hexpired
  have hrejected : (FederatedMfa.promote .encoding (.constant 7) begunDb codeSubmission
      codeDraw).toOption.map (·.1) = some (.rejectedStillPending 1 .methodMismatch) := by
    decide +kernel
  refine ⟨rightSubmission_sample (by decide +kernel) (by decide +kernel) (by decide +kernel)
    (by decide +kernel) (by decide +kernel) hceremony (by decide +kernel), hrejected, ?_⟩
  rintro ⟨session, evicted, text, db', hpromoted, -⟩
  rw [hpromoted] at hrejected
  cases hrejected

end SuiId
