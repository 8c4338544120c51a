import SuiId.Lib.Table
import SuiId.Store.Crypto

/-!
# The database

One row type per table the modelled operations read or write, with the
columns they use, and the record `Database` of all tables.  A table is a
`Lib.Table` on its primary key, so no state has two rows with one key.

Cross-column `CHECK` constraints are fields of the row types: a row that
breaks one cannot be written down.  Uniqueness and foreign keys are checks of
the inserting operations, next to them.

Columns no modelled operation reads are left out (`users.updated_at`, the
client's presentation columns, …).
-/

namespace SuiId

open Lib

/-- The ids of the rows. -/
abbrev UserId := Nat
abbrev ClientId := Nat
abbrev SessionId := Nat
abbrev RefreshTokenId := Nat
abbrev FamilyId := Nat
abbrev ProviderId := Nat
abbrev PendingMfaId := Nat
abbrev ResetTokenId := Nat
abbrev AttemptId := Nat
abbrev FederationMfaPendingId := Nat
abbrev CeremonyId := Nat
abbrev WebauthnCredentialId := Nat
abbrev WebauthnPendingId := Nat

/-- UTF-8 bytes of a text. -/
def utf8 (s : String) : Bytes := s.toUTF8.data.toList

theorem utf8_inj {s t : String} (h : utf8 s = utf8 t) : s = t := by
  apply String.toByteArray_inj.mp
  apply ByteArray.ext
  exact Array.toList_inj.mp h

theorem utf8_ofList (cs : List Char) :
    utf8 (String.ofList cs) = cs.flatMap String.utf8EncodeChar := by
  simp [utf8, List.utf8Encode, String.toUTF8]

theorem utf8_append (s t : String) : utf8 (s ++ t) = utf8 s ++ utf8 t := by
  rw [← String.ofList_toList (s := s ++ t), String.toList_append, utf8_ofList, List.flatMap_append,
    ← utf8_ofList, ← utf8_ofList, String.ofList_toList, String.ofList_toList]

private theorem mem_utf8EncodeChar {b : UInt8} (hb : b.toNat < 128) (c : Char) :
    b ∈ String.utf8EncodeChar c ↔ c.toNat = b.toNat := by
  have hc : c.toNat = c.val.toNat := rfl
  have hofNat : ∀ n, b = UInt8.ofNat n ↔ b.toNat = n % 256 := by
    intro n
    rw [← UInt8.toNat_inj, UInt8.toNat_ofNat']
  unfold String.utf8EncodeChar
  simp only
  split
  · simp only [List.mem_singleton, hofNat, hc]
    omega
  · split
    · simp only [List.mem_cons, List.not_mem_nil, or_false, hofNat, hc]
      omega
    · split
      · simp only [List.mem_cons, List.not_mem_nil, or_false, hofNat, hc]
        omega
      · simp only [List.mem_cons, List.not_mem_nil, or_false, hofNat, hc]
        omega

/-- A byte below 128 is the byte of a character. -/
theorem mem_utf8 {b : UInt8} {c : Char} (hb : b.toNat < 128) (hc : c.toNat = b.toNat) (s : String) :
    b ∈ utf8 s ↔ c ∈ s.toList := by
  rw [← String.ofList_toList (s := s), utf8_ofList, List.mem_flatMap, String.toList_ofList]
  constructor
  · rintro ⟨c', hmem, hbyte⟩
    have hsame := (mem_utf8EncodeChar hb c').mp hbyte
    rw [← hc] at hsame
    have hchar : c' = c := Char.toNat_inj.mp hsame
    exact hchar ▸ hmem
  · intro hmem
    exact ⟨c, hmem, (mem_utf8EncodeChar hb c).mpr hc⟩
/-! ## Users and their factors -/

/-- `Role`. -/
inductive Role where
  | admin
  | auditor
  | user
deriving DecidableEq, Repr

/-- `Role::is_admin`. -/
def Role.isAdmin : Role → Bool
  | .admin => true
  | _ => false

/-- `Role::can_read_admin`. -/
def Role.canReadAdmin : Role → Bool
  | .admin | .auditor => true
  | .user => false

/-- `Role::as_str`. -/
def Role.asStr : Role → String
  | .admin => "admin"
  | .auditor => "auditor"
  | .user => "user"

/-- `UserSource`. -/
inductive UserSource where
  | localDb
  | ldap
deriving DecidableEq, Repr

/-- `AuthMethod`. -/
inductive AuthMethod where
  | pwd
  | totp
  | recoveryCode
  | webauthn
  | fed
deriving DecidableEq, Repr

/-- A row of `users`. -/
structure UserRow where
  id : UserId
  username : String
  displayName : Option String
  email : Option String
  emailNormalized : Option String
  emailVerifiedAt : Option DateTime
  role : Role
  isDisabled : Bool
  isDeleted : Bool
  lastLoginAt : Option DateTime
  failedLoginCount : Int
  lockedUntil : Option DateTime
  mfaFailureCount : Int
  source : UserSource
  externalStableId : Option String
deriving DecidableEq

/-- A row of `credentials`. -/
structure CredentialRow where
  userId : UserId
  passwordHash : String
  updatedAt : DateTime
deriving DecidableEq

/-- A row of `sessions`. -/
structure SessionRow where
  id : SessionId
  userId : UserId
  expiresAt : DateTime
  createdAt : DateTime
  revokedAt : Option DateTime
  authMethods : List AuthMethod
  lastStepUpAt : Option DateTime
  lastStepUpMethod : Option String
  lastUsedAt : Option DateTime
  stepUpFailureCount : Nat := 0
deriving DecidableEq

/-- A row of `user_totp`. -/
structure UserTotpRow where
  userId : UserId
  secretEnc : Bytes
  enabled : Bool
  recoveryCodesEnc : Option Bytes
  lastUsedStep : Int
  createdAt : DateTime
  confirmedAt : Option DateTime
deriving DecidableEq

/-- A row of `user_webauthn_credentials`. -/
structure UserWebauthnCredentialRow where
  id : WebauthnCredentialId
  userId : UserId
  credentialId : Bytes
  passkeyEnc : Bytes
  nickname : String
  createdAt : DateTime
  lastUsedAt : Option DateTime
deriving DecidableEq

/-- `WebauthnPendingKind`. -/
inductive WebauthnPendingKind where
  | register
  | authenticate
  | stepUp
deriving DecidableEq, Repr

/-- A ceremony in flight. -/
structure WebauthnPendingRow where
  id : WebauthnPendingId
  kind : WebauthnPendingKind
  userId : Option UserId
  stateJson : String
  expiresAt : DateTime
  createdAt : DateTime
deriving DecidableEq

/-- A row of `login_pending_mfa`. -/
structure LoginPendingMfaRow where
  id : PendingMfaId
  userId : UserId
  expiresAt : DateTime
  createdAt : DateTime
deriving DecidableEq

/-- `ResetTokenOrigin`. -/
inductive ResetTokenOrigin where
  | email
  | web
  | cli
deriving DecidableEq, Repr

/-- `ResetTokenOrigin::as_str`. -/
def ResetTokenOrigin.asStr : ResetTokenOrigin → String
  | .email => "email"
  | .web => "web"
  | .cli => "cli"

/-- A row of `password_reset_tokens`. -/
structure PasswordResetTokenRow where
  id : ResetTokenId
  userId : UserId
  tokenHash : Bytes
  issuedAt : DateTime
  expiresAt : DateTime
  consumedAt : Option DateTime
  issuedVia : ResetTokenOrigin
  revokedAt : Option DateTime
  requesterIp : Option String := none
  issuedBy : Option UserId := none
  provisioning : Bool := false
deriving DecidableEq

/-! ## Clients, consent and tokens -/

/-- `TokenEndpointAuthMethod`. -/
inductive TokenEndpointAuthMethod where
  | none
  | clientSecretBasic
  | clientSecretPost
  | unknown (raw : String)
deriving DecidableEq

/-- `ConsentPolicy`. -/
inductive ConsentPolicy where
  | none
  | firstTime
  | always
deriving DecidableEq, Repr

/-- `ConsentPolicy::as_str`. -/
def ConsentPolicy.asStr : ConsentPolicy → String
  | .none => "none"
  | .firstTime => "first_time"
  | .always => "always"

/-- A text that is no policy is the first-party default. -/
def ConsentPolicy.parse (s : String) : ConsentPolicy :=
  if s = "first_time" then .firstTime else if s = "always" then .always else .none

/-- A row of `clients`. -/
structure ClientRow where
  id : ClientId
  name : String
  confidential : Bool
  secretHash : Option String
  allowedScopes : String
  isDisabled : Bool
  isDeleted : Bool
  tokenEndpointAuthMethod : Option TokenEndpointAuthMethod
  grantTypes : Option (List String)
  redirectUris : List String := []
  consentPolicy : ConsentPolicy := .none
  postLogoutRedirectUris : List String := []
  logoUri : Option String := none
  homepageUri : Option String := none
  privacyPolicyUri : Option String := none
  tosUri : Option String := none
deriving DecidableEq

/-- A row of `user_consent`. -/
structure UserConsentRow where
  userId : UserId
  clientId : ClientId
  grantedScopes : String
  grantedAt : DateTime
deriving DecidableEq

/-- The primary key of `user_consent`. -/
def UserConsentRow.key (r : UserConsentRow) : UserId × ClientId := (r.userId, r.clientId)

/-- A row of `auth_codes`. -/
structure AuthorizationCodeRow where
  codeHash : Bytes
  clientId : ClientId
  userId : UserId
  redirectUri : String
  scope : String
  nonce : Option String
  codeChallenge : String
  codeChallengeMethod : String
  expiresAt : DateTime
  consumed : Bool
  createdAt : DateTime
  authMethods : List AuthMethod
deriving DecidableEq

/-- `refresh_tokens`, with the sealed token and its lookup hash. -/
structure RefreshTokenRow where
  id : RefreshTokenId
  tokenEnc : Bytes
  tokenHash : Option Bytes
  userId : UserId
  clientId : ClientId
  scope : String
  expiresAt : DateTime
  revokedAt : Option DateTime
  createdAt : DateTime
  authMethods : List AuthMethod
  familyId : FamilyId
deriving DecidableEq

/-- A row of `signing_keys`. -/
structure SigningKeyRow where
  id : Nat
  algorithm : String
  privateKeyEnc : Bytes
  publicKey : Bytes
  isActive : Bool
  createdAt : DateTime
  rotatedAt : Option DateTime
deriving DecidableEq

/-! ## Settings and mail -/

/-- The row of `server_settings`. -/
structure ServerSettingsRow where
  idleSessionTimeoutSecs : Int
  maxConcurrentSessions : Int
deriving DecidableEq

/-- `smtp_config`, a single-row table. -/
structure SmtpConfigRow where
  enabled : Bool
  host : String
  port : Nat
  startTls : Bool
  username : Option String
  passwordEnc : Option Bytes
  fromAddress : String
  fromName : Option String
  baseUrl : String
  createdAt : DateTime
  updatedAt : DateTime
deriving DecidableEq

/-- `EmailOutboxState`. -/
inductive EmailOutboxState where
  | queued
  | sending
  | sent
  | failed
deriving DecidableEq

/-- A row of `email_outbox`. -/
structure EmailOutboxRow where
  id : Nat
  state : EmailOutboxState
  template : String
  recipientEnc : Bytes
  payloadEnc : Bytes
  attemptCount : Int
  nextAttemptAt : DateTime
  lastError : Option String
  locale : Option String
  createdAt : DateTime
  updatedAt : DateTime
deriving DecidableEq

/-- A row of `pending_settings_change`. -/
structure PendingSettingsChangeRow where
  id : Nat
  sessionId : SessionId
  actorId : UserId
  intent : String
  payloadEnc : Bytes
  summary : String
  csrfToken : String
  expiresAt : DateTime
  createdAt : DateTime
deriving DecidableEq

/-! ## Federation -/

/-- A row of `federation_provider`. -/
structure FederationProviderRow where
  id : ProviderId
  slug : String
  displayName : String
  issuer : String
  clientId : String
  clientSecretEnc : Option Bytes
  enabled : Bool
deriving DecidableEq

/-- A row of `federation_link`. -/
structure FederationLinkRow where
  userId : UserId
  providerId : ProviderId
  upstreamSub : String
  upstreamEmail : Option String
  linkedAt : DateTime
  lastSeenAt : DateTime
deriving DecidableEq

/-- The primary key of `federation_link`. -/
def FederationLinkRow.key (r : FederationLinkRow) : UserId × ProviderId := (r.userId, r.providerId)

/-- The values of `federation_login_attempt.status`. -/
inductive AttemptStatus where
  | pending
  | exchanging
  | completed
  | failed
deriving DecidableEq, Repr

/-- A row of `federation_login_attempt`. -/
structure FederationLoginAttemptRow where
  id : AttemptId
  providerId : ProviderId
  providerConfigVersion : Int
  providerActivationGeneration : Int
  stateSha256 : Bytes
  nonceSha256 : Bytes
  browserBindingSha256 : Bytes
  pkceVerifierSealed : Bytes
  exactRedirectUri : String
  nextPath : Option String
  createdAt : DateTime
  expiresAt : DateTime
  status : AttemptStatus
  claimedAt : Option DateTime
  /-- A row is pending exactly while it has no claim time. -/
  check_claimed : status = .pending ↔ claimedAt = none
deriving DecidableEq

/-- The values of `federation_mfa_pending.status`. -/
inductive MfaPendingStatus where
  | pending
  | completed
  | exhausted
  | invalidated
deriving DecidableEq, Repr

/-- A row of `federation_mfa_pending`. -/
structure FederationMfaPendingRow where
  id : FederationMfaPendingId
  providerId : ProviderId
  providerConfigVersion : Int
  providerActivationGeneration : Int
  userId : UserId
  continuationSealed : Option Bytes
  nextPath : Option String
  browserBindingSha256 : Bytes
  csrfBindingSha256 : Bytes
  failureCount : Nat
  status : MfaPendingStatus
  createdAt : DateTime
  expiresAt : DateTime
  check_failureCount : failureCount ≤ 5
  /-- Exactly the pending rows keep something to promote into. -/
  check_continuation : status = .pending ↔ continuationSealed ≠ none
deriving DecidableEq

/-- A row of `federation_webauthn_ceremony`. -/
structure FederationWebauthnCeremonyRow where
  id : CeremonyId
  pendingId : FederationMfaPendingId
  providerId : ProviderId
  providerConfigVersion : Int
  providerActivationGeneration : Int
  userId : UserId
  ceremonyStateSealed : Bytes
  rpId : String
  origin : String
  createdAt : DateTime
  pendingExpiresAt : DateTime
  expiresAt : DateTime
deriving DecidableEq

/-! ## The audit log and the whole database -/

/-- `AuditResult`. -/
inductive AuditResult where
  | ok
  | failure
deriving DecidableEq, Repr

/-- The event a command appends in its own transaction. -/
structure AuditLogRow where
  actor : Option UserId
  action : String
  target : Option String
  result : AuditResult
  attributes : List (String × String)
deriving DecidableEq

/-- The tables. -/
structure Database where
  users : Table UserRow.id
  credentials : Table CredentialRow.userId
  sessions : Table SessionRow.id
  userTotp : Table UserTotpRow.userId
  webauthnCredentials : Table UserWebauthnCredentialRow.id
  webauthnPending : Table WebauthnPendingRow.id
  loginPendingMfa : Table LoginPendingMfaRow.id
  passwordResetTokens : Table PasswordResetTokenRow.id
  clients : Table ClientRow.id
  userConsent : Table UserConsentRow.key
  authCodes : Table AuthorizationCodeRow.codeHash
  refreshTokens : Table RefreshTokenRow.id
  signingKeys : Table SigningKeyRow.id
  serverSettings : ServerSettingsRow
  smtpConfig : Option SmtpConfigRow
  emailOutbox : Table EmailOutboxRow.id
  pendingSettingsChange : Table PendingSettingsChangeRow.id
  federationProvider : Table FederationProviderRow.id
  federationLink : Table FederationLinkRow.key
  federationLoginAttempt : Table FederationLoginAttemptRow.id
  federationMfaPending : Table FederationMfaPendingRow.id
  federationWebauthnCeremony : Table FederationWebauthnCeremonyRow.id
  /-- The `initialized` key of `sui_meta`. -/
  initialized : Bool
  auditLog : List AuditLogRow

/-- A database with empty tables, the default idle timeout and no session cap. -/
def Database.empty : Database where
  users := ∅
  credentials := ∅
  sessions := ∅
  userTotp := ∅
  webauthnCredentials := ∅
  webauthnPending := ∅
  loginPendingMfa := ∅
  passwordResetTokens := ∅
  clients := ∅
  userConsent := ∅
  authCodes := ∅
  refreshTokens := ∅
  signingKeys := ∅
  serverSettings := ⟨0, 0⟩
  smtpConfig := none
  emailOutbox := ∅
  pendingSettingsChange := ∅
  federationProvider := ∅
  federationLink := ∅
  federationLoginAttempt := ∅
  federationMfaPending := ∅
  federationWebauthnCeremony := ∅
  initialized := false
  auditLog := []

end SuiId
