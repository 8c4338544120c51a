import SuiId.Store.Sealed

/-!
# Changing the master key

K07 commits exactly when every value of its six tables can be opened under the
old key and sealed under the new one (`resealMasterKey_ok_iff`), and then each
of them opens under the new key to what it held before.  It never looks at the
five sealed columns of the other tables: their values stay sealed under the old
key.  So a rotation is complete exactly when there is nothing in those columns,
or when nothing had to be done for them.
-/

namespace SuiId

open Lib Lib.Result

variable {P : Primitives} {oldKey newKey : MasterKey} {nonce : ResealNonces}

/-! ## What a complete rotation is -/

/-- The same cell, opened by the new key to what the old key opened before. -/
def Resealed (P : Primitives) (oldKey newKey : MasterKey) (c c' : SealedCell) : Prop :=
  c'.column = c.column ∧ c'.key = c.key ∧ c'.aad = c.aad ∧
    ∃ plain, openBytes P oldKey c.value c.aad = .ok plain ∧
      openBytes P newKey c'.value c.aad = .ok plain

/-- When K07 commits, every sealed value opened before, each of them opens under
the new key to the same plaintext, and nothing else has changed.  A refused
command leaves the database as it was. -/
def RotationComplete (P : Primitives) (oldKey newKey : MasterKey) (nonce : ResealNonces)
    (db : Database) : Prop :=
  ∀ report db', resealMasterKey P oldKey newKey nonce db = .ok (report, db') →
    List.Forall₂ (Resealed P oldKey newKey) (sealedCells db) (sealedCells db') ∧
      redact db' = redact db

/-- The value can be opened under the old key and sealed under the new one. -/
def Resealable (P : Primitives) (oldKey newKey : MasterKey) (nonce : ResealNonces)
    (c : SealedCell) : Prop :=
  ∃ resealed, resealValue P oldKey newKey (nonce c.column c.key) c.value c.aad = .ok resealed

/-! ## Values -/

variable {column : SealedColumn} {key : Nat} {aad : Bytes} {value : Option Bytes}

theorem resealed_of_value (hP : P.Lawful) {n : Nonce} {value resealed : Bytes}
    (h : resealValue P oldKey newKey n value aad = .ok resealed) :
    Resealed P oldKey newKey ⟨column, key, aad, value⟩ ⟨column, key, aad, resealed⟩ := by
  obtain ⟨plain, hopen, hseal⟩ := bind_eq_ok.mp h
  exact ⟨rfl, rfl, rfl, plain, hopen, hP.open_seal hseal⟩

theorem resealNullable_eq_ok {resealed : Option Bytes}
    (h : resealNullable P oldKey newKey nonce column key aad value = .ok resealed) :
    (value = none ∧ resealed = none) ∨ ∃ v v', value = some v ∧ resealed = some v' ∧
      resealValue P oldKey newKey (nonce column key) v aad = .ok v' := by
  cases value with
  | none =>
    cases h
    exact .inl ⟨rfl, rfl⟩
  | some v =>
    obtain ⟨v', hv', hpure⟩ := bind_eq_ok.mp h
    cases hpure
    exact .inr ⟨v, v', rfl, rfl, hv'⟩

theorem resealed_of_nullable (hP : P.Lawful) {resealed : Option Bytes}
    (h : resealNullable P oldKey newKey nonce column key aad value = .ok resealed) :
    List.Forall₂ (Resealed P oldKey newKey) (nullableCell column key aad value)
      (nullableCell column key aad resealed) := by
  rcases resealNullable_eq_ok h with ⟨rfl, rfl⟩ | ⟨v, v', rfl, rfl, hv⟩
  · exact .nil
  · exact .cons (resealed_of_value hP hv) .nil

theorem exists_resealNullable_iff :
    (∃ resealed, resealNullable P oldKey newKey nonce column key aad value = .ok resealed) ↔
      ∀ c ∈ nullableCell column key aad value, Resealable P oldKey newKey nonce c := by
  cases value with
  | none => simp [resealNullable, nullableCell, pure, Except.pure]
  | some v =>
    simp only [nullableCell, Option.toList_some, List.map_cons, List.map_nil, List.mem_singleton,
      forall_eq]
    constructor
    · rintro ⟨resealed, h⟩
      obtain ⟨v', hv', -⟩ := bind_eq_ok.mp h
      exact ⟨v', hv'⟩
    · rintro ⟨v', hv'⟩
      exact ⟨some v', bind_eq_ok.mpr ⟨v', hv', rfl⟩⟩

/-! ## Rows with more than one value, or a nullable one -/

theorem UserTotpRow.resealed (hP : P.Lawful) (r : UserTotpRow) (resealed : Bytes × Option Bytes)
    (h : r.reseal P oldKey newKey nonce = .ok resealed) :
    List.Forall₂ (Resealed P oldKey newKey) r.cells
      ({ r with secretEnc := resealed.1, recoveryCodesEnc := resealed.2 } : UserTotpRow).cells := by
  simp only [UserTotpRow.reseal, bind_eq_ok, pure_eq_ok] at h
  obtain ⟨secret, hsecret, recovery, hrecovery, rfl⟩ := h
  exact .cons (resealed_of_value hP hsecret) (resealed_of_nullable hP hrecovery)

theorem UserTotpRow.exists_reseal_iff {r : UserTotpRow} :
    (∃ resealed, r.reseal P oldKey newKey nonce = .ok resealed) ↔
      ∀ c ∈ r.cells, Resealable P oldKey newKey nonce c := by
  simp only [UserTotpRow.reseal, UserTotpRow.cells, List.forall_mem_cons,
    ← exists_resealNullable_iff, bind_eq_ok, pure_eq_ok]
  constructor
  · rintro ⟨-, secret, hsecret, recovery, hrecovery, -⟩
    exact ⟨⟨secret, hsecret⟩, recovery, hrecovery⟩
  · rintro ⟨⟨secret, hsecret⟩, recovery, hrecovery⟩
    exact ⟨(secret, recovery), secret, hsecret, recovery, hrecovery, rfl⟩

theorem SmtpConfigRow.exists_reseal_iff {r : SmtpConfigRow} :
    (∃ resealed, r.reseal P oldKey newKey nonce = .ok resealed) ↔
      ∀ c ∈ r.cells, Resealable P oldKey newKey nonce c := by
  simp only [SmtpConfigRow.reseal, SmtpConfigRow.cells, ← exists_resealNullable_iff, bind_eq_ok,
    pure_eq_ok]
  constructor
  · rintro ⟨-, passwordEnc, h, -⟩
    exact ⟨passwordEnc, h⟩
  · rintro ⟨passwordEnc, h⟩
    exact ⟨_, passwordEnc, h, rfl⟩

theorem EmailOutboxRow.reseal_eq_ok {r : EmailOutboxRow} {resealed : Bytes × Bytes} :
    r.reseal P oldKey newKey nonce = .ok resealed ↔
      resealValue P oldKey newKey (nonce .outboxRecipient r.id) r.recipientEnc
          EmailOutbox.recipientAad = .ok resealed.1 ∧
        resealValue P oldKey newKey (nonce .outboxPayload r.id) r.payloadEnc
          EmailOutbox.payloadAad = .ok resealed.2 := by
  simp only [EmailOutboxRow.reseal, resealValue, bind_eq_ok, pure_eq_ok]
  constructor
  · rintro ⟨recipient, hopen, payload, hopen', newRecipient, hseal, newPayload, hseal', rfl⟩
    exact ⟨⟨recipient, hopen, hseal⟩, payload, hopen', hseal'⟩
  · rintro ⟨⟨recipient, hopen, hseal⟩, payload, hopen', hseal'⟩
    exact ⟨recipient, hopen, payload, hopen', _, hseal, _, hseal', rfl⟩

theorem EmailOutboxRow.resealed (hP : P.Lawful) (r : EmailOutboxRow) (resealed : Bytes × Bytes)
    (h : r.reseal P oldKey newKey nonce = .ok resealed) :
    List.Forall₂ (Resealed P oldKey newKey) r.cells
      ({ r with recipientEnc := resealed.1, payloadEnc := resealed.2 } : EmailOutboxRow).cells := by
  obtain ⟨hrecipient, hpayload⟩ := EmailOutboxRow.reseal_eq_ok.mp h
  exact .cons (resealed_of_value hP hrecipient) (.cons (resealed_of_value hP hpayload) .nil)

theorem EmailOutboxRow.exists_reseal_iff {r : EmailOutboxRow} :
    (∃ resealed, r.reseal P oldKey newKey nonce = .ok resealed) ↔
      ∀ c ∈ r.cells, Resealable P oldKey newKey nonce c := by
  simp only [EmailOutboxRow.reseal_eq_ok, EmailOutboxRow.cells, List.forall_mem_cons,
    List.not_mem_nil, false_implies, implies_true, and_true]
  constructor
  · rintro ⟨resealed, hrecipient, hpayload⟩
    exact ⟨⟨_, hrecipient⟩, _, hpayload⟩
  · rintro ⟨⟨recipient, hrecipient⟩, payload, hpayload⟩
    exact ⟨(recipient, payload), hrecipient, hpayload⟩

/-! ## The six tables -/

section Tables

variable {db : Database}

/-- What K07 has done to the single row of `smtp_config`. -/
def SmtpResealed (P : Primitives) (oldKey newKey : MasterKey) (nonce : ResealNonces)
    (row row' : Option SmtpConfigRow) : Prop :=
  (row = none ∧ row' = none) ∨
    ∃ r r', row = some r ∧ row' = some r' ∧ r.reseal P oldKey newKey nonce = .ok r'

theorem smtp_resealAll_eq_ok {n : Nat} {db' : Database}
    (h : SmtpConfig.resealAll P oldKey newKey nonce db = .ok (n, db')) :
    ∃ smtpConfig, SmtpResealed P oldKey newKey nonce db.smtpConfig smtpConfig ∧
      db' = { db with smtpConfig } ∧ n < 2 ^ 64 := by
  unfold SmtpConfig.resealAll at h
  split at h
  · rename_i hnone
    cases h
    exact ⟨none, .inl ⟨hnone, rfl⟩, by rw [← hnone], by omega⟩
  · rename_i row hrow
    obtain ⟨resealed, hreseal, hpure⟩ := bind_eq_ok.mp h
    cases hpure
    refine ⟨some resealed, .inr ⟨row, resealed, hrow, rfl, hreseal⟩, rfl, ?_⟩
    split
    · omega
    · omega

theorem smtp_resealed (hP : P.Lawful) {row row' : Option SmtpConfigRow}
    (h : SmtpResealed P oldKey newKey nonce row row') :
    List.Forall₂ (Resealed P oldKey newKey) (row.toList.flatMap (·.cells))
        (row'.toList.flatMap (·.cells)) ∧
      (row'.map fun r => { r with passwordEnc := r.passwordEnc.map fun _ => ([] : Bytes) }) =
        row.map fun r => { r with passwordEnc := r.passwordEnc.map fun _ => ([] : Bytes) } := by
  rcases h with ⟨rfl, rfl⟩ | ⟨r, r', rfl, rfl, hreseal⟩
  · exact ⟨.nil, rfl⟩
  · obtain ⟨passwordEnc, hpassword, hpure⟩ := bind_eq_ok.mp hreseal
    cases hpure
    have hcells := resealed_of_nullable hP hpassword
    refine ⟨?_, ?_⟩
    · simpa [SmtpConfigRow.cells] using hcells
    · rcases resealNullable_eq_ok hpassword with ⟨hnone, rfl⟩ | ⟨v, v', hsome, rfl, -⟩
      · simp [hnone]
      · simp [hsome]

/-- What a committed K07 has done. -/
theorem resealMasterKey_ok {report : RotationReport} {db' : Database}
    (h : resealMasterKey P oldKey newKey nonce db = .ok (report, db')) :
    ∃ signingKeys refreshTokens userTotp webauthnCredentials smtpConfig emailOutbox log,
      db.signingKeys.forRows (SigningKeyRow.reseal P oldKey newKey nonce)
          (fun resealed r => { r with privateKeyEnc := resealed }) = .ok signingKeys ∧
        db.refreshTokens.forRows
          (fun r => resealValue P oldKey newKey (nonce .refreshToken r.id) r.tokenEnc
            RefreshTokens.aad)
          (fun resealed r => { r with tokenEnc := resealed }) = .ok refreshTokens ∧
        db.userTotp.forRows (UserTotpRow.reseal P oldKey newKey nonce)
          (fun resealed r => { r with secretEnc := resealed.1, recoveryCodesEnc := resealed.2 }) =
            .ok userTotp ∧
        db.webauthnCredentials.forRows (UserWebauthnCredentialRow.reseal P oldKey newKey nonce)
          (fun resealed r => { r with passkeyEnc := resealed }) = .ok webauthnCredentials ∧
        SmtpResealed P oldKey newKey nonce db.smtpConfig smtpConfig ∧
        db.emailOutbox.forRows (EmailOutboxRow.reseal P oldKey newKey nonce)
          (fun resealed r => { r with recipientEnc := resealed.1, payloadEnc := resealed.2 }) =
            .ok emailOutbox ∧
        db' = { db with
          signingKeys, refreshTokens, userTotp, webauthnCredentials, smtpConfig, emailOutbox
          auditLog := log } := by
  obtain ⟨event, db₁, log, hbody, rfl⟩ := classA_eq_ok h
  obtain ⟨⟨report', db₁'⟩, htables, hpure⟩ := bind_eq_ok.mp hbody
  cases hpure
  simp only [resealTables, bind_eq_ok] at htables
  obtain ⟨⟨n₁, db₂⟩, hsigning, db₃, hrefresh, ⟨n₃, db₄⟩, htotp, ⟨n₄, db₅⟩, hwebauthn, ⟨n₅, db₆⟩,
    hsmtp, ⟨n₆, db₇⟩, houtbox, hpure⟩ := htables
  cases hpure
  dsimp only at hrefresh htotp hwebauthn hsmtp houtbox ⊢
  simp only [SigningKeys.resealAll, bind_eq_ok, pure_eq_ok, Prod.mk.injEq] at hsigning
  obtain ⟨signingKeys, hsigning, -, rfl⟩ := hsigning
  simp only [RefreshTokens.resealAll, bind_eq_ok, pure_eq_ok] at hrefresh
  obtain ⟨refreshTokens, hrefresh, rfl⟩ := hrefresh
  simp only [UserTotp.resealAll, bind_eq_ok, pure_eq_ok, Prod.mk.injEq] at htotp
  obtain ⟨userTotp, htotp, -, rfl⟩ := htotp
  simp only [WebauthnCredentials.resealAll, bind_eq_ok, pure_eq_ok, Prod.mk.injEq] at hwebauthn
  obtain ⟨webauthnCredentials, hwebauthn, -, rfl⟩ := hwebauthn
  obtain ⟨smtpConfig, hrow, rfl, -⟩ := smtp_resealAll_eq_ok hsmtp
  simp only [EmailOutbox.resealAll, bind_eq_ok, pure_eq_ok, Prod.mk.injEq] at houtbox
  obtain ⟨emailOutbox, houtbox, -, rfl⟩ := houtbox
  exact ⟨signingKeys, refreshTokens, userTotp, webauthnCredentials, smtpConfig, emailOutbox, log,
    hsigning, hrefresh, htotp, hwebauthn, hrow, houtbox, rfl⟩

variable {report : RotationReport} {db' : Database}

/-- Every value of the six tables opens under the new key. -/
theorem coveredCells_resealed (hP : P.Lawful)
    (h : resealMasterKey P oldKey newKey nonce db = .ok (report, db')) :
    List.Forall₂ (Resealed P oldKey newKey) (coveredCells db) (coveredCells db') := by
  obtain ⟨signingKeys, refreshTokens, userTotp, webauthnCredentials, smtpConfig, emailOutbox, log,
    hsigning, hrefresh, htotp, hwebauthn, hsmtp, houtbox, rfl⟩ := resealMasterKey_ok h
  refine List.rel_append ?_ (List.rel_append ?_ (List.rel_append ?_ (List.rel_append ?_
    (List.rel_append ?_ ?_))))
  · exact Table.forall₂_flatMap_of_forRows hsigning fun _ _ h =>
      .cons (resealed_of_value hP h) .nil
  · exact Table.forall₂_flatMap_of_forRows hrefresh fun _ _ h =>
      .cons (resealed_of_value hP h) .nil
  · exact Table.forall₂_flatMap_of_forRows htotp (UserTotpRow.resealed hP)
  · exact Table.forall₂_flatMap_of_forRows hwebauthn fun _ _ h =>
      .cons (resealed_of_value hP h) .nil
  · exact (smtp_resealed hP hsmtp).1
  · exact Table.forall₂_flatMap_of_forRows houtbox (EmailOutboxRow.resealed hP)

/-- Nothing but sealed values has changed. -/
theorem redact_resealed (hP : P.Lawful)
    (h : resealMasterKey P oldKey newKey nonce db = .ok (report, db')) :
    redact db' = redact db := by
  obtain ⟨signingKeys, refreshTokens, userTotp, webauthnCredentials, smtpConfig, emailOutbox, log,
    hsigning, hrefresh, htotp, hwebauthn, hsmtp, houtbox, rfl⟩ := resealMasterKey_ok h
  have hrecovery : ∀ (r : UserTotpRow) (resealed : Bytes × Option Bytes),
      r.reseal P oldKey newKey nonce = .ok resealed →
      (resealed.2.map fun _ => ([] : Bytes)) = r.recoveryCodesEnc.map fun _ => [] := by
    intro r resealed hreseal
    simp only [UserTotpRow.reseal, bind_eq_ok, pure_eq_ok] at hreseal
    obtain ⟨secret, -, recovery, hrecovery, rfl⟩ := hreseal
    rcases resealNullable_eq_ok hrecovery with ⟨hnone, rfl⟩ | ⟨v, v', hsome, rfl, -⟩
    · rw [hnone]
    · rw [hsome]
      rfl
  simp only [redact]
  rw [Table.update_of_forRows hsigning fun _ _ _ => rfl,
    Table.update_of_forRows hrefresh fun _ _ _ => rfl,
    Table.update_of_forRows htotp fun r resealed h => by simp only [hrecovery r resealed h],
    Table.update_of_forRows hwebauthn fun _ _ _ => rfl,
    Table.update_of_forRows houtbox fun _ _ _ => rfl, (smtp_resealed hP hsmtp).2]

theorem uncoveredCells_resealed (h : resealMasterKey P oldKey newKey nonce db = .ok (report, db')) :
    uncoveredCells db' = uncoveredCells db := by
  obtain ⟨_, _, _, _, _, _, _, -, -, -, -, -, -, rfl⟩ := resealMasterKey_ok h
  rfl

/-- Every value of the six tables could be opened and sealed. -/
theorem resealable_of_ok (h : resealMasterKey P oldKey newKey nonce db = .ok (report, db')) :
    ∀ c ∈ coveredCells db, Resealable P oldKey newKey nonce c := by
  obtain ⟨signingKeys, refreshTokens, userTotp, webauthnCredentials, smtpConfig, emailOutbox, log,
    hsigning, hrefresh, htotp, hwebauthn, hsmtp, houtbox, rfl⟩ := resealMasterKey_ok h
  simp only [coveredCells, List.forall_mem_append, List.forall_mem_flatMap]
  refine ⟨?_, ?_, ?_, ?_, ?_, ?_⟩
  · intro r hr
    obtain ⟨resealed, hreseal, -⟩ := Table.computed_of_forRows hsigning hr
    exact List.forall_mem_singleton.mpr ⟨resealed, hreseal⟩
  · intro r hr
    obtain ⟨resealed, hreseal, -⟩ := Table.computed_of_forRows hrefresh hr
    exact List.forall_mem_singleton.mpr ⟨resealed, hreseal⟩
  · intro r hr
    obtain ⟨resealed, hreseal, -⟩ := Table.computed_of_forRows htotp hr
    exact UserTotpRow.exists_reseal_iff.mp ⟨resealed, hreseal⟩
  · intro r hr
    obtain ⟨resealed, hreseal, -⟩ := Table.computed_of_forRows hwebauthn hr
    exact List.forall_mem_singleton.mpr ⟨resealed, hreseal⟩
  · rcases hsmtp with ⟨hnone, -⟩ | ⟨r, r', hsome, -, hreseal⟩
    · rw [hnone]
      simp
    · rw [hsome]
      simpa using SmtpConfigRow.exists_reseal_iff.mp ⟨r', hreseal⟩
  · intro r hr
    obtain ⟨resealed, hreseal, -⟩ := Table.computed_of_forRows houtbox hr
    exact EmailOutboxRow.exists_reseal_iff.mp ⟨resealed, hreseal⟩

/-- Each count is a 64-bit number, so the event can be recorded. -/
theorem RotationReport.attributes_build {r : RotationReport} (hsigning : r.signingKeys < 2 ^ 64)
    (hrefresh : r.refreshTokens < 2 ^ 64) (hsecrets : r.userTotpSecrets < 2 ^ 64)
    (hrecovery : r.userTotpRecoveryCodes < 2 ^ 64)
    (hwebauthn : r.userWebauthnCredentials < 2 ^ 64) (hsmtp : r.smtpConfig < 2 ^ 64)
    (houtbox : r.emailOutboxRows < 2 ^ 64) :
    buildAttributes r.attributes = .ok r.attributes := by
  have hshort : ∀ {n : Nat}, n < 2 ^ 64 → (toString n).utf8ByteSize ≤ maxAttributeValueBytes :=
    fun h => Nat.le_trans (Text.utf8ByteSize_toString_le h) (by decide)
  refine buildAttributes_ok ?_ ?_ ?_
  · simp only [RotationReport.attributes, List.map_cons, List.map_nil]
    decide
  · simp [RotationReport.attributes, maxAttributes]
  · simp only [RotationReport.attributes, List.forall_mem_cons, List.not_mem_nil, false_implies,
      implies_true, and_true]
    exact ⟨hshort hsigning, hshort hrefresh, hshort hsecrets, hshort hrecovery, hshort hwebauthn,
      hshort hsmtp, hshort houtbox⟩

theorem smtp_exists_resealAll
    (h : ∀ c ∈ db.smtpConfig.toList.flatMap (·.cells), Resealable P oldKey newKey nonce c) :
    ∃ n smtpConfig, SmtpConfig.resealAll P oldKey newKey nonce db =
      .ok (n, { db with smtpConfig }) ∧ n < 2 ^ 64 := by
  cases hrow : db.smtpConfig with
  | none =>
    have hsame : SmtpConfig.resealAll P oldKey newKey nonce db = .ok (0, db) := by
      simp only [SmtpConfig.resealAll, hrow]
      rfl
    exact ⟨0, db.smtpConfig, hsame, by omega⟩
  | some row =>
    rw [hrow] at h
    obtain ⟨resealed, hreseal⟩ := SmtpConfigRow.exists_reseal_iff.mpr (by simpa using h)
    refine ⟨if row.passwordEnc.isSome then 1 else 0, some resealed, ?_, ?_⟩
    · simp only [SmtpConfig.resealAll, hrow, hreseal]
      rfl
    · split
      · omega
      · omega

/-- K07 commits when every value of the six tables can be opened and sealed. -/
theorem exists_resealMasterKey
    (h : ∀ c ∈ coveredCells db, Resealable P oldKey newKey nonce c) :
    ∃ report db', resealMasterKey P oldKey newKey nonce db = .ok (report, db') := by
  simp only [coveredCells, List.forall_mem_append, List.forall_mem_flatMap] at h
  obtain ⟨hsigning, hrefresh, htotp, hwebauthn, hsmtp, houtbox⟩ := h
  have hsigning : ∃ signingKeys, db.signingKeys.forRows (SigningKeyRow.reseal P oldKey newKey nonce)
      (fun resealed r => { r with privateKeyEnc := resealed }) = .ok signingKeys :=
    Table.exists_forRows fun r hr => hsigning r hr _ (List.mem_singleton.mpr rfl)
  have hrefresh : ∃ refreshTokens, db.refreshTokens.forRows
      (fun r => resealValue P oldKey newKey (nonce .refreshToken r.id) r.tokenEnc
        RefreshTokens.aad) (fun resealed r => { r with tokenEnc := resealed }) =
      .ok refreshTokens :=
    Table.exists_forRows fun r hr => hrefresh r hr _ (List.mem_singleton.mpr rfl)
  have htotp : ∃ userTotp, db.userTotp.forRows (UserTotpRow.reseal P oldKey newKey nonce)
      (fun resealed r => { r with secretEnc := resealed.1, recoveryCodesEnc := resealed.2 }) =
      .ok userTotp :=
    Table.exists_forRows fun r hr => UserTotpRow.exists_reseal_iff.mpr (htotp r hr)
  have hwebauthn : ∃ webauthnCredentials, db.webauthnCredentials.forRows
      (UserWebauthnCredentialRow.reseal P oldKey newKey nonce)
      (fun resealed r => { r with passkeyEnc := resealed }) = .ok webauthnCredentials :=
    Table.exists_forRows fun r hr => hwebauthn r hr _ (List.mem_singleton.mpr rfl)
  have houtbox : ∃ emailOutbox, db.emailOutbox.forRows (EmailOutboxRow.reseal P oldKey newKey nonce)
      (fun resealed r => { r with recipientEnc := resealed.1, payloadEnc := resealed.2 }) =
      .ok emailOutbox :=
    Table.exists_forRows fun r hr => EmailOutboxRow.exists_reseal_iff.mpr (houtbox r hr)
  obtain ⟨signingKeys, hsigning⟩ := hsigning
  obtain ⟨refreshTokens, hrefresh⟩ := hrefresh
  obtain ⟨userTotp, htotp⟩ := htotp
  obtain ⟨webauthnCredentials, hwebauthn⟩ := hwebauthn
  obtain ⟨emailOutbox, houtbox⟩ := houtbox
  have hsmtp : ∃ n smtpConfig, SmtpConfig.resealAll P oldKey newKey nonce
      { db with signingKeys, refreshTokens, userTotp, webauthnCredentials } = .ok (n,
        { db with signingKeys, refreshTokens, userTotp, webauthnCredentials, smtpConfig }) ∧
      n < 2 ^ 64 := smtp_exists_resealAll (List.forall_mem_flatMap.mpr hsmtp)
  obtain ⟨n, smtpConfig, hsmtp, hn⟩ := hsmtp
  have htables : ∃ report db', resealTables P oldKey newKey nonce db = .ok (report, db') ∧
      buildAttributes report.attributes = .ok report.attributes := by
    refine ⟨⟨_, _, _, _, _, _, _⟩, { db with
      signingKeys, refreshTokens, userTotp, webauthnCredentials, smtpConfig, emailOutbox },
      bind_eq_ok.mpr ⟨(_, { db with signingKeys }), bind_eq_ok.mpr ⟨_, hsigning, rfl⟩,
        bind_eq_ok.mpr ⟨{ db with signingKeys, refreshTokens }, bind_eq_ok.mpr ⟨_, hrefresh, rfl⟩,
        bind_eq_ok.mpr ⟨((_, _), { db with signingKeys, refreshTokens, userTotp }),
          bind_eq_ok.mpr ⟨_, htotp, rfl⟩,
        bind_eq_ok.mpr ⟨(_, { db with signingKeys, refreshTokens, userTotp, webauthnCredentials }),
          bind_eq_ok.mpr ⟨_, hwebauthn, rfl⟩,
        bind_eq_ok.mpr ⟨_, hsmtp,
        bind_eq_ok.mpr ⟨(_, _), bind_eq_ok.mpr ⟨_, houtbox, rfl⟩, rfl⟩⟩⟩⟩⟩⟩, ?_⟩
    exact RotationReport.attributes_build (Nat.mod_lt _ (by omega)) (Nat.mod_lt _ (by omega))
      (Nat.mod_lt _ (by omega)) (Nat.mod_lt _ (by omega)) (Nat.mod_lt _ (by omega)) hn
      (Nat.mod_lt _ (by omega))
  obtain ⟨report, db', htables, hattributes⟩ := htables
  have hcommit : ∃ db'', resealMasterKey P oldKey newKey nonce db = .ok (report, db'') :=
    classA_of_ok (bind_eq_ok.mpr ⟨(report, db'), htables, rfl⟩) hattributes rfl
  exact ⟨report, hcommit⟩

end Tables

/-! ## When a rotation is complete -/

/-- K07 commits exactly when every value of the six tables can be opened under
the old key and sealed under the new one. -/
theorem resealMasterKey_ok_iff {db : Database} :
    (∃ report db', resealMasterKey P oldKey newKey nonce db = .ok (report, db')) ↔
      ∀ c ∈ coveredCells db, Resealable P oldKey newKey nonce c := by
  constructor
  · rintro ⟨report, db', h⟩
    exact resealable_of_ok h
  · exact exists_resealMasterKey

/-- A value that the old and the new key both open needs no new seal: the keys
are the same. -/
theorem resealed_self_iff (hP : P.Lawful) {c : SealedCell} :
    Resealed P oldKey newKey c c ↔
      newKey = oldKey ∧ ∃ plain, openBytes P oldKey c.value c.aad = .ok plain := by
  constructor
  · rintro ⟨-, -, -, plain, hold, hnew⟩
    refine ⟨?_, plain, hold⟩
    by_contra hne
    rw [hP.open_other_key hold hne] at hnew
    cases hnew
  · rintro ⟨rfl, plain, hold⟩
    exact ⟨rfl, rfl, rfl, plain, hold, hold⟩

/-- A committed rotation that is complete found nothing to do in the five
columns it leaves out: their values are where they were. -/
theorem uncovered_of_complete (hP : P.Lawful) {db db' : Database} {report : RotationReport}
    (hcommit : resealMasterKey P oldKey newKey nonce db = .ok (report, db'))
    (hcells : List.Forall₂ (Resealed P oldKey newKey) (sealedCells db) (sealedCells db')) :
    ∀ c ∈ uncoveredCells db,
      newKey = oldKey ∧ ∃ plain, openBytes P oldKey c.value c.aad = .ok plain := by
  have hlength : (coveredCells db).length = (coveredCells db').length :=
    (coveredCells_resealed hP hcommit).length_eq
  have hrest : List.Forall₂ (Resealed P oldKey newKey) (uncoveredCells db)
      (uncoveredCells db) := by
    have hdrop := List.forall₂_drop (coveredCells db).length hcells
    rw [sealedCells, List.drop_left, sealedCells, uncoveredCells_resealed hcommit, hlength,
      List.drop_left] at hdrop
    exact hdrop
  intro c hc
  exact (resealed_self_iff hP).mp (List.forall₂_same.mp hrest c hc)

/-- A rotation is complete exactly when K07 is refused or the five columns it
leaves out hold nothing that needed a new seal. -/
theorem rotationComplete_iff (hP : P.Lawful) (db : Database) :
    RotationComplete P oldKey newKey nonce db ↔
      ((∀ c ∈ coveredCells db, Resealable P oldKey newKey nonce c) →
        ∀ c ∈ uncoveredCells db,
          newKey = oldKey ∧ ∃ plain, openBytes P oldKey c.value c.aad = .ok plain) := by
  constructor
  · intro hcomplete hcovered
    obtain ⟨report, db', hcommit⟩ := resealMasterKey_ok_iff.mpr hcovered
    exact uncovered_of_complete hP hcommit (hcomplete report db' hcommit).1
  · intro hcondition report db' hcommit
    refine ⟨?_, redact_resealed hP hcommit⟩
    refine List.rel_append (coveredCells_resealed hP hcommit) ?_
    rw [uncoveredCells_resealed hcommit]
    refine List.forall₂_same.mpr fun c hc => ?_
    exact (resealed_self_iff hP).mpr (hcondition (resealable_of_ok hcommit) c hc)

/-! ## A provider secret -/

/-- A value sealed under the key whose bytes are all `7`. -/
def sealedUnderSeven (plaintext aad : Bytes) : Bytes :=
  (Nonce.constant 1).bytes ++ ((MasterKey.constant 7).bytes ++ aad ++ plaintext)

/-- A signing key and a refresh token, sealed under that key. -/
def sealedDb : Database :=
  { Database.empty with
    signingKeys := ⟨[⟨3, "EdDSA", sealedUnderSeven [9] SigningKeys.aad, [], true, 0, none⟩],
      by decide⟩
    refreshTokens := ⟨[⟨4, sealedUnderSeven [8] RefreshTokens.aad, none, 1, 5, "", 0, none, 0, [],
      4⟩], by decide⟩ }

/-- The same with the client secret of an upstream provider. -/
def providerDb : Database :=
  { sealedDb with
    federationProvider := ⟨[⟨6, "up", "Up", "https://up.example", "sui-id",
      some (sealedUnderSeven [5] FederationProvider.aad), true⟩], by decide⟩ }

def sampleNonces : ResealNonces := fun _ _ => Nonce.constant 2

/-- Everything opens under the old key and K07 commits, but the provider's
secret does not open under the new key. -/
theorem provider_secret_left_behind :
    (∀ c ∈ sealedCells providerDb, (openBytes Primitives.transparent (MasterKey.constant 7) c.value
        c.aad).toOption.isSome = true) ∧
      (resealMasterKey Primitives.transparent (MasterKey.constant 7) (MasterKey.constant 8)
        sampleNonces providerDb).toOption.isSome = true ∧
      ¬ RotationComplete Primitives.transparent (MasterKey.constant 7) (MasterKey.constant 8)
        sampleNonces providerDb := by
  have hcommits : (resealMasterKey Primitives.transparent (MasterKey.constant 7)
      (MasterKey.constant 8) sampleNonces providerDb).toOption.isSome = true := by
    decide +kernel
  refine ⟨by decide +kernel, hcommits, fun hcomplete => ?_⟩
  cases hcommit : resealMasterKey Primitives.transparent (MasterKey.constant 7)
      (MasterKey.constant 8) sampleNonces providerDb with
  | error e =>
    rw [hcommit] at hcommits
    cases hcommits
  | ok result =>
    have hcells := (hcomplete result.1 result.2 hcommit).1
    have hsecret : ⟨.providerSecret, 6, FederationProvider.aad,
        sealedUnderSeven [5] FederationProvider.aad⟩ ∈ uncoveredCells providerDb := by
      decide +kernel
    have hkeys : MasterKey.constant 8 = MasterKey.constant 7 :=
      (uncovered_of_complete Primitives.transparent_lawful hcommit hcells _ hsecret).1
    revert hkeys
    decide

/-- Without a value in the other columns the rotation is complete. -/
theorem rotationComplete_sealedDb :
    (resealMasterKey Primitives.transparent (MasterKey.constant 7) (MasterKey.constant 8)
        sampleNonces sealedDb).toOption.isSome = true ∧
      RotationComplete Primitives.transparent (MasterKey.constant 7) (MasterKey.constant 8)
        sampleNonces sealedDb := by
  refine ⟨by decide +kernel, ?_⟩
  rw [rotationComplete_iff Primitives.transparent_lawful]
  intro _ c hc
  cases hc

end SuiId
