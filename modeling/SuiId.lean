import SuiId.Lib.Table
import SuiId.Lib.Machine
import SuiId.Lib.Result
import SuiId.Lib.Text
import SuiId.Store.Crypto
import SuiId.Store.Schema
import SuiId.Store.Registry
import SuiId.Store.RefreshTokens
import SuiId.Store.Users
import SuiId.Store.SignIn
import SuiId.Store.Grants
import SuiId.Store.Accounts
import SuiId.Core.Session
import SuiId.Core.AdminUsers
import SuiId.Core.Mfa
import SuiId.Core.Tokens
import SuiId.Core.Exchange
import SuiId.Proofs.LastAdmin
import SuiId.Core.Endpoint
import SuiId.Proofs.Steps
import SuiId.Proofs.TokenHistory
import SuiId.Proofs.RefreshFamilies
import SuiId.Proofs.DisabledUsers
import SuiId.Proofs.Delegation
import SuiId.Proofs.GrantRevocation
import SuiId.Proofs.AccountRecovery
import SuiId.Proofs.KeyRotation
import SuiId.Store.Federation
import SuiId.Store.FederationMfa
import SuiId.Store.Factors
import SuiId.Core.SignIns
import SuiId.Proofs.FederationAttempts
import SuiId.Proofs.GuessBudget
import SuiId.Proofs.Lockout
import SuiId.Core.Authorize
import SuiId.Proofs.CodeProvenance
import SuiId.Proofs.SessionReaders
import SuiId.Proofs.ConsentGate
import SuiId.Core.Login
import SuiId.Proofs.LoginSteps
import SuiId.Proofs.PasswordChecks
import SuiId.Proofs.SecondFactorGate
import SuiId.Proofs.AuthClaims
import SuiId.Proofs.FederatedDoor
import SuiId.Core.Directory
import SuiId.Core.Cascade
import SuiId.Proofs.DirectoryPasswords
import SuiId.Proofs.DirectoryLock
import SuiId.Proofs.ShadowAccounts
import SuiId.Lib.Chain
import SuiId.Proofs.AuditEvidence
import SuiId.Core.KeyFiles
import SuiId.Proofs.MasterKeyFiles
import SuiId.Proofs.OneMasterKey
import SuiId.Proofs.TokenLookup
import SuiId.Proofs.CodeSingleUse
import SuiId.Core.Accounts
import SuiId.Proofs.RecoveryCapture
import SuiId.Core.Administration
import SuiId.Proofs.AdminAuthority
import SuiId.Core.FederatedCallback
import SuiId.Proofs.AccountEffects
import SuiId.Proofs.FederatedTakeover
import SuiId.Proofs.ClassAtomicity
import SuiId.Proofs.LockWriters
import SuiId.Core.AccountLocks
import SuiId.Lib.Oldest
import SuiId.Proofs.LockCause
import SuiId.Proofs.SessionCap
import SuiId.Core.FactorFlows
import SuiId.Proofs.FactorSteps
import SuiId.Proofs.RecoveryCodes
import SuiId.Proofs.TotpReplay
import SuiId.Core.DocumentCache
import SuiId.Core.ResetLinks
import SuiId.Proofs.EnrollmentRaces
import SuiId.Proofs.LinkSupersession
import SuiId.Proofs.LinkThrottle
import SuiId.Proofs.StuckFlights
import SuiId.Core.Caches
import SuiId.Lib.Refresh
import SuiId.Proofs.CacheAgreement
import SuiId.Core.CacheFreshness
import SuiId.Core.DynamicRegistration
import SuiId.Core.Outbox
import SuiId.Core.RateLimit
import SuiId.Core.Settings
import SuiId.Core.Setup
import SuiId.Proofs.DocumentAuthority
import SuiId.Proofs.NetworkBudget
import SuiId.Proofs.OutboxDelivery
import SuiId.Proofs.PendingChanges
import SuiId.Proofs.RateLimits
import SuiId.Proofs.RegistrationCap
import SuiId.Proofs.SetupOnce
import SuiId.Proofs.SmtpPassword
import SuiId.Core.PasskeyFlows
import SuiId.Core.StepUp
import SuiId.Proofs.PasskeyCeremonies
import SuiId.Proofs.StepUpEvidence
import SuiId.Core.Revocation
import SuiId.Proofs.RefreshRows
import SuiId.Proofs.RevocationCalls
import SuiId.Proofs.RevocationFinal
import SuiId.Core.MigrationRuns
import SuiId.Core.Restore
import SuiId.Proofs.BackupArchive
import SuiId.Proofs.MigrationOrder
import SuiId.Proofs.MigrationVouching
import SuiId.Proofs.RestoreAtomic
import SuiId.Core.AuditExport
import SuiId.Core.BackupRuns
import SuiId.Core.ClientEdit
import SuiId.Core.ClientIp
import SuiId.Core.Discovery
import SuiId.Core.EmailColumns
import SuiId.Core.FederatedMfa
import SuiId.Core.ForgotPassword
import SuiId.Core.IdToken
import SuiId.Core.Redirects
import SuiId.Core.Resolver
import SuiId.Core.SessionUse
import SuiId.Core.SignedTokens
import SuiId.Lib.Csv
import SuiId.Lib.DistinguishedName
import SuiId.Lib.JsonShape
import SuiId.Proofs.AuditExport
import SuiId.Proofs.AuditNotes
import SuiId.Proofs.BackupKey
import SuiId.Proofs.BaseDn
import SuiId.Proofs.CacheControl
import SuiId.Proofs.ClientAddress
import SuiId.Proofs.ClientEdits
import SuiId.Proofs.ClientRedirects
import SuiId.Proofs.DirectoryFilters
import SuiId.Proofs.EmailNormalForm
import SuiId.Proofs.FederatedCodes
import SuiId.Proofs.FederationMfaEvents
import SuiId.Proofs.ForgotPasswordQueue
import SuiId.Proofs.FreshnessChains
import SuiId.Proofs.IdTokens
import SuiId.Proofs.JsonReadings
import SuiId.Proofs.LoopbackPort
import SuiId.Proofs.OutboxTimes
import SuiId.Proofs.PublicUnicast
import SuiId.Proofs.ReadGuard
import SuiId.Proofs.SessionUse
import SuiId.Proofs.SetupJourney
import SuiId.Proofs.TokenKinds
import SuiId.Lib.UrlPath
import SuiId.Proofs.ReturnPaths
import SuiId.Core.Cors
import SuiId.Lib.Base32
import SuiId.Lib.CanonicalUrl
import SuiId.Proofs.AuditBytes
import SuiId.Proofs.CorsOrigins
import SuiId.Proofs.RegisteredUris
import SuiId.Proofs.TotpSecret
