import SuiId.Store.RefreshTokens
import SuiId.Store.SignIn

/-!
# Sealed columns

Every column that the store or its callers seal with the master key, with the
associated data each of them is bound to, and K07, which seals the values of
six tables again under a new key (`reseal_master_key`).

`sealedCells` lists the sealed values of a database, `redact` is the database
without them.
-/

namespace SuiId

open Lib Lib.Result

/-! ## Associated data -/

namespace SigningKeys

/-- Its associated data. -/
def aad : Bytes := utf8 "sui-id/signing_key/v1"

end SigningKeys

namespace WebauthnCredentials

/-- Its associated data. -/
def aad : Bytes := utf8 "sui-id/user_webauthn_credentials/passkey/v1"

end WebauthnCredentials

namespace SmtpConfig

/-- The associated data of `password`. -/
def passwordAad : Bytes := utf8 "smtp.password"

end SmtpConfig

namespace EmailOutbox

/-- The associated data of `recipient`. -/
def recipientAad : Bytes := utf8 "email_outbox.recipient"

/-- The associated data of `payload`. -/
def payloadAad : Bytes := utf8 "email_outbox.payload"

end EmailOutbox

namespace FederationProvider

/-- Its associated data. -/
def aad : Bytes := utf8 "federation_provider.client_secret"

end FederationProvider

namespace PendingSettingsChange

/-- Its associated data. -/
def aad : Bytes := utf8 "sui-id:pending_settings_change:v1"

end PendingSettingsChange

/-- Texts with a zero byte between each two. -/
def nulSeparated (texts : List String) : Bytes := List.intercalate [0] (texts.map utf8)

namespace FederationLoginAttempt

/-- `build_aad`. -/
def buildAad (id : AttemptId) (provider : ProviderId) (configVersion activationGeneration : Int) :
    Bytes :=
  nulSeparated [toString id, toString provider, toString configVersion,
    toString activationGeneration]

end FederationLoginAttempt

namespace FederationMfaPending

/-- `build_aad`. -/
def buildAad (id : FederationMfaPendingId) (provider : ProviderId)
    (configVersion activationGeneration : Int) (user : UserId) : Bytes :=
  nulSeparated [toString id, toString provider, toString configVersion,
    toString activationGeneration, toString user]

end FederationMfaPending

namespace FederationWebauthnCeremony

/-- `build_aad`, over the pending row's identifier. -/
def buildAad (pending : FederationMfaPendingId) (provider : ProviderId)
    (configVersion activationGeneration : Int) (user : UserId) : Bytes :=
  nulSeparated [toString pending, toString provider, toString configVersion,
    toString activationGeneration, toString user]

end FederationWebauthnCeremony

/-! ## Sealed values -/

/-- The columns whose values are sealed. -/
inductive SealedColumn where
  | signingKey
  | refreshToken
  | totpSecret
  | totpRecovery
  | passkey
  | smtpPassword
  | outboxRecipient
  | outboxPayload
  | providerSecret
  | settingsPayload
  | attemptVerifier
  | mfaContinuation
  | ceremonyState
deriving DecidableEq

/-- A sealed value: its column, the key of its row, what it is bound to. -/
structure SealedCell where
  column : SealedColumn
  key : Nat
  aad : Bytes
  value : Bytes
deriving DecidableEq

/-- The cell of a column that may be NULL. -/
def nullableCell (column : SealedColumn) (key : Nat) (aad : Bytes) (value : Option Bytes) :
    List SealedCell :=
  value.toList.map fun v => ⟨column, key, aad, v⟩

/-- The sealed values of a row. -/
def SigningKeyRow.cells (r : SigningKeyRow) : List SealedCell :=
  [⟨.signingKey, r.id, SigningKeys.aad, r.privateKeyEnc⟩]

/-- Its sealed values. -/
def RefreshTokenRow.cells (r : RefreshTokenRow) : List SealedCell :=
  [⟨.refreshToken, r.id, RefreshTokens.aad, r.tokenEnc⟩]

/-- Its sealed values. -/
def UserTotpRow.cells (r : UserTotpRow) : List SealedCell :=
  ⟨.totpSecret, r.userId, UserTotp.aad, r.secretEnc⟩ ::
    nullableCell .totpRecovery r.userId UserTotp.recoveryAad r.recoveryCodesEnc

/-- Its sealed values. -/
def UserWebauthnCredentialRow.cells (r : UserWebauthnCredentialRow) : List SealedCell :=
  [⟨.passkey, r.id, WebauthnCredentials.aad, r.passkeyEnc⟩]

/-- Its sealed values. -/
def SmtpConfigRow.cells (r : SmtpConfigRow) : List SealedCell :=
  nullableCell .smtpPassword 0 SmtpConfig.passwordAad r.passwordEnc

/-- Its sealed values. -/
def EmailOutboxRow.cells (r : EmailOutboxRow) : List SealedCell :=
  [⟨.outboxRecipient, r.id, EmailOutbox.recipientAad, r.recipientEnc⟩,
    ⟨.outboxPayload, r.id, EmailOutbox.payloadAad, r.payloadEnc⟩]

/-- Its sealed values. -/
def FederationProviderRow.cells (r : FederationProviderRow) : List SealedCell :=
  nullableCell .providerSecret r.id FederationProvider.aad r.clientSecretEnc

/-- Its sealed values. -/
def PendingSettingsChangeRow.cells (r : PendingSettingsChangeRow) : List SealedCell :=
  [⟨.settingsPayload, r.id, PendingSettingsChange.aad, r.payloadEnc⟩]

/-- Its sealed values. -/
def FederationLoginAttemptRow.cells (r : FederationLoginAttemptRow) : List SealedCell :=
  [⟨.attemptVerifier, r.id,
    FederationLoginAttempt.buildAad r.id r.providerId r.providerConfigVersion
      r.providerActivationGeneration,
    r.pkceVerifierSealed⟩]

/-- Its sealed values. -/
def FederationMfaPendingRow.cells (r : FederationMfaPendingRow) : List SealedCell :=
  nullableCell .mfaContinuation r.id
    (FederationMfaPending.buildAad r.id r.providerId r.providerConfigVersion
      r.providerActivationGeneration r.userId)
    r.continuationSealed

/-- Its sealed values. -/
def FederationWebauthnCeremonyRow.cells (r : FederationWebauthnCeremonyRow) : List SealedCell :=
  [⟨.ceremonyState, r.id,
    FederationWebauthnCeremony.buildAad r.pendingId r.providerId r.providerConfigVersion
      r.providerActivationGeneration r.userId,
    r.ceremonyStateSealed⟩]

/-- The sealed values of the tables K07 goes through. -/
def coveredCells (db : Database) : List SealedCell :=
  db.signingKeys.rows.flatMap (·.cells) ++ (db.refreshTokens.rows.flatMap (·.cells) ++
    (db.userTotp.rows.flatMap (·.cells) ++ (db.webauthnCredentials.rows.flatMap (·.cells) ++
      (db.smtpConfig.toList.flatMap (·.cells) ++ db.emailOutbox.rows.flatMap (·.cells)))))

/-- The sealed values of the other tables. -/
def uncoveredCells (db : Database) : List SealedCell :=
  db.federationProvider.rows.flatMap (·.cells) ++
    (db.pendingSettingsChange.rows.flatMap (·.cells) ++
      (db.federationLoginAttempt.rows.flatMap (·.cells) ++
        (db.federationMfaPending.rows.flatMap (·.cells) ++
          db.federationWebauthnCeremony.rows.flatMap (·.cells))))

/-- Every sealed value that is not NULL. -/
def sealedCells (db : Database) : List SealedCell := coveredCells db ++ uncoveredCells db

/-- Everything but the sealed values and the audit log. -/
def redact (db : Database) : Database :=
  { db with
    signingKeys := db.signingKeys.update (fun _ => true) fun r => { r with privateKeyEnc := [] }
    refreshTokens := db.refreshTokens.update (fun _ => true) fun r => { r with tokenEnc := [] }
    userTotp := db.userTotp.update (fun _ => true) fun r =>
      { r with secretEnc := [], recoveryCodesEnc := r.recoveryCodesEnc.map fun _ => [] }
    webauthnCredentials := db.webauthnCredentials.update (fun _ => true) fun r =>
      { r with passkeyEnc := [] }
    smtpConfig := db.smtpConfig.map fun r =>
      { r with passwordEnc := r.passwordEnc.map fun _ => [] }
    emailOutbox := db.emailOutbox.update (fun _ => true) fun r =>
      { r with recipientEnc := [], payloadEnc := [] }
    federationProvider := db.federationProvider.update (fun _ => true) fun r =>
      { r with clientSecretEnc := r.clientSecretEnc.map fun _ => [] }
    pendingSettingsChange := db.pendingSettingsChange.update (fun _ => true) fun r =>
      { r with payloadEnc := [] }
    federationLoginAttempt := db.federationLoginAttempt.update (fun _ => true) fun r =>
      { r with pkceVerifierSealed := [] }
    federationMfaPending := db.federationMfaPending.update (fun _ => true) fun r =>
      { r with
        continuationSealed := r.continuationSealed.map fun _ => []
        check_continuation := by simpa using r.check_continuation }
    federationWebauthnCeremony := db.federationWebauthnCeremony.update (fun _ => true) fun r =>
      { r with ceremonyStateSealed := [] }
    auditLog := [] }

/-! ## K07 -/

/-- Open under the old key and seal under the new one. -/
def resealValue (P : Primitives) (oldKey newKey : MasterKey) (nonce : Nonce) (value aad : Bytes) :
    StoreResult Bytes := do
  let plain ← openBytes P oldKey value aad
  sealBytes P newKey nonce plain aad

/-- The nonces K07 draws. -/
abbrev ResealNonces := SealedColumn → Nat → Nonce

section Reseal

variable (P : Primitives) (oldKey newKey : MasterKey) (nonce : ResealNonces)

/-- The new value of a nullable column; NULL stays NULL. -/
def resealNullable (column : SealedColumn) (key : Nat) (aad : Bytes) :
    Option Bytes → StoreResult (Option Bytes)
  | none => pure none
  | some value => do
    let resealed ← resealValue P oldKey newKey (nonce column key) value aad
    pure (some resealed)

/-- The row with its values sealed anew. -/
def SigningKeyRow.reseal (r : SigningKeyRow) : StoreResult Bytes :=
  resealValue P oldKey newKey (nonce .signingKey r.id) r.privateKeyEnc SigningKeys.aad

/-- `SigningKeys::reseal_all`. -/
def SigningKeys.resealAll (db : Database) : StoreResult (Nat × Database) := do
  let signingKeys ← db.signingKeys.forRows (SigningKeyRow.reseal P oldKey newKey nonce)
    fun resealed r => { r with privateKeyEnc := resealed }
  pure (db.signingKeys.rows.length % 2 ^ 64, { db with signingKeys })

/-- The row with its values sealed anew. -/
def UserTotpRow.reseal (r : UserTotpRow) : StoreResult (Bytes × Option Bytes) := do
  let secret ← resealValue P oldKey newKey (nonce .totpSecret r.userId) r.secretEnc UserTotp.aad
  let recovery ← resealNullable P oldKey newKey nonce .totpRecovery r.userId UserTotp.recoveryAad
    r.recoveryCodesEnc
  pure (secret, recovery)

/-- Returns the numbers of secrets and of recovery-code blobs. -/
def UserTotp.resealAll (db : Database) : StoreResult ((Nat × Nat) × Database) := do
  let userTotp ← db.userTotp.forRows (UserTotpRow.reseal P oldKey newKey nonce)
    fun resealed r => { r with secretEnc := resealed.1, recoveryCodesEnc := resealed.2 }
  let recoveries := db.userTotp.count fun r => r.recoveryCodesEnc.isSome
  pure ((db.userTotp.rows.length % 2 ^ 64, recoveries % 2 ^ 64), { db with userTotp })

/-- The row with its values sealed anew. -/
def UserWebauthnCredentialRow.reseal (r : UserWebauthnCredentialRow) : StoreResult Bytes :=
  resealValue P oldKey newKey (nonce .passkey r.id) r.passkeyEnc WebauthnCredentials.aad

/-- `WebauthnCredentials::reseal_all`. -/
def WebauthnCredentials.resealAll (db : Database) : StoreResult (Nat × Database) := do
  let webauthnCredentials ← db.webauthnCredentials.forRows
    (UserWebauthnCredentialRow.reseal P oldKey newKey nonce)
    fun resealed r => { r with passkeyEnc := resealed }
  pure (db.webauthnCredentials.rows.length % 2 ^ 64, { db with webauthnCredentials })

/-- The single row with its password sealed again, if it has one. -/
def SmtpConfigRow.reseal (r : SmtpConfigRow) : StoreResult SmtpConfigRow := do
  let passwordEnc ← resealNullable P oldKey newKey nonce .smtpPassword 0 SmtpConfig.passwordAad
    r.passwordEnc
  pure { r with passwordEnc }

/-- Returns 1 when there is a password. -/
def SmtpConfig.resealAll (db : Database) : StoreResult (Nat × Database) :=
  match db.smtpConfig with
  | none => pure (0, db)
  | some row => do
    let resealed ← row.reseal P oldKey newKey nonce
    pure (if row.passwordEnc.isSome then 1 else 0, { db with smtpConfig := some resealed })

/-- The row with its values sealed anew. -/
def EmailOutboxRow.reseal (r : EmailOutboxRow) : StoreResult (Bytes × Bytes) := do
  let recipient ← openBytes P oldKey r.recipientEnc EmailOutbox.recipientAad
  let payload ← openBytes P oldKey r.payloadEnc EmailOutbox.payloadAad
  let newRecipient ← sealBytes P newKey (nonce .outboxRecipient r.id) recipient
    EmailOutbox.recipientAad
  let newPayload ← sealBytes P newKey (nonce .outboxPayload r.id) payload EmailOutbox.payloadAad
  pure (newRecipient, newPayload)

/-- `EmailOutbox::reseal_all`. -/
def EmailOutbox.resealAll (db : Database) : StoreResult (Nat × Database) := do
  let emailOutbox ← db.emailOutbox.forRows (EmailOutboxRow.reseal P oldKey newKey nonce)
    fun resealed r => { r with recipientEnc := resealed.1, payloadEnc := resealed.2 }
  pure (db.emailOutbox.rows.length % 2 ^ 64, { db with emailOutbox })

/-- `RotationReport`. -/
structure RotationReport where
  signingKeys : Nat
  refreshTokens : Nat
  userTotpSecrets : Nat
  userTotpRecoveryCodes : Nat
  userWebauthnCredentials : Nat
  smtpConfig : Nat
  emailOutboxRows : Nat
deriving DecidableEq

/-- The attributes of `admin.master_key.resealed`. -/
def RotationReport.attributes (r : RotationReport) : List (String × String) :=
  [("signing_keys", toString r.signingKeys), ("refresh_tokens", toString r.refreshTokens),
    ("user_totp_secrets", toString r.userTotpSecrets),
    ("user_totp_recovery_codes", toString r.userTotpRecoveryCodes),
    ("user_webauthn_credentials", toString r.userWebauthnCredentials),
    ("smtp_config", toString r.smtpConfig), ("email_outbox_rows", toString r.emailOutboxRows)]

/-- The six tables, one after the other. -/
def resealTables (db : Database) : StoreResult (RotationReport × Database) := do
  let (signingKeys, db) ← SigningKeys.resealAll P oldKey newKey nonce db
  let refreshTokens := db.refreshTokens.rows.length % 2 ^ 64
  let db ← RefreshTokens.resealAll P oldKey newKey (nonce .refreshToken) db
  let ((secrets, recoveries), db) ← UserTotp.resealAll P oldKey newKey nonce db
  let (credentials, db) ← WebauthnCredentials.resealAll P oldKey newKey nonce db
  let (smtp, db) ← SmtpConfig.resealAll P oldKey newKey nonce db
  let (outbox, db) ← EmailOutbox.resealAll P oldKey newKey nonce db
  pure (⟨signingKeys, refreshTokens, secrets, recoveries, credentials, smtp, outbox⟩, db)

/-- K07: seal them again under a new master key. -/
def resealMasterKey (db : Database) : StoreResult (RotationReport × Database) :=
  classA none do
    let (report, db) ← resealTables P oldKey newKey nonce db
    pure (report, ⟨"admin.master_key.resealed", none, .ok, report.attributes, []⟩, db)

end Reseal

end SuiId
