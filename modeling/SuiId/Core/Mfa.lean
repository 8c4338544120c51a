import SuiId.Core.Session
import SuiId.Store.SignIn

/-!
# The second factor at sign-in

`verify_pending` (`authn/mfa.rs`), cut at its accesses to the database:
`readPending`, `readTotp`, the check of the code, which reads nothing, and the
commit, which is L02 for a right code and L07 for a wrong one.
-/

namespace SuiId

open Lib Lib.Result

/-! ## TOTP -/

namespace Totp

/-- `STEP_SECS`. -/
def stepSecs : Int := 30

/-- The code of a time step: HMAC-SHA1 of the big-endian step, truncated. -/
def codeForStep (P : Primitives) (secret : Bytes) (step : Int) : Nat :=
  let word := (step % 2 ^ 64).toNat
  let counter := (List.range 8).map fun i => UInt8.ofNat (word / 2 ^ (8 * (7 - i)))
  let hash := P.hmacSha1 secret counter
  let at_ := fun i => (hash.getD i 0).toNat
  let offset := at_ (hash.length - 1) % 16
  let bin := at_ offset % 128 * 2 ^ 24 + at_ (offset + 1) * 2 ^ 16 + at_ (offset + 2) * 2 ^ 8 +
    at_ (offset + 3)
  bin % 10 ^ 6

/-- `totp::verify`: the first matching step of the window that has not been
used yet. -/
def verify (P : Primitives) (secret : Bytes) (unixTime : Int) (supplied : Nat)
    (lastUsedStep : Int) : Option Int :=
  if 10 ^ 6 ≤ supplied then none
  else
    let nowStep := unixTime / stepSecs
    [nowStep - 1, nowStep, nowStep + 1].find? fun step =>
      lastUsedStep < step && codeForStep P secret step == supplied

/-! ### The secret

`base32_encode` and `otpauth_uri` of `totp.rs`.  The loop of the encoder keeps its bits in a word of
32 bits, from which no bit is ever cleared: those that have been written are shifted out at the top.
-/

/-- `ALPHABET`. -/
def alphabet : List Char := "ABCDEFGHIJKLMNOPQRSTUVWXYZ234567".toList

theorem index_lt (x : UInt32) : (x &&& 0x1f).toNat < alphabet.length := by
  have hle : (x &&& 0x1f).toNat ≤ 0x1f := by
    rw [UInt32.toNat_and]
    exact Nat.and_le_right
  have hlength : alphabet.length = 32 := by decide
  omega

/-- The character of the five low bits. -/
def characterAt (x : UInt32) : Char := alphabet.get ⟨(x &&& 0x1f).toNat, index_lt x⟩

/-- The variables of the loop. -/
structure Encoder where
  buf : UInt32
  bits : Nat
  out : List Char

/-- `while bits >= 5`. -/
def drain (buf : UInt32) : Nat → List Char → Encoder
  | bits + 5, out => drain buf bits (out ++ [characterAt (buf >>> UInt32.ofNat bits)])
  | bits, out => ⟨buf, bits, out⟩

/-- The body of the loop over the bytes. -/
def pushByte (e : Encoder) (b : UInt8) : Encoder :=
  drain (e.buf <<< 8 ||| b.toUInt32) (e.bits + 8) e.out

/-- What is done behind the loop. -/
def finish (e : Encoder) : List Char :=
  if 0 < e.bits then e.out ++ [characterAt (e.buf <<< UInt32.ofNat (5 - e.bits))] else e.out

/-- `base32_encode`. -/
def base32Encode (bytes : Bytes) : String :=
  String.ofList (finish (bytes.foldl pushByte ⟨0, 0, []⟩))

/-- `otpauth_uri`. -/
def otpauthUri (issuer account : String) (secretBytes : Bytes) : String :=
  let secretB32 := base32Encode secretBytes
  "otpauth://totp/" ++ issuer ++ ":" ++ account ++ "?secret=" ++ secretB32 ++ "&issuer=" ++
    issuer ++ "&algorithm=SHA1&digits=6&period=30"

end Totp

/-- `str::parse::<u32>`: an optional plus sign and decimal digits. -/
def parseU32 (s : String) : Option Nat :=
  let digits := if s.toList.head? == some '+' then s.toList.tail else s.toList
  if digits.isEmpty || !digits.all Char.isDigit then none
  else
    let n := digits.foldl (fun n c => 10 * n + (c.toNat - '0'.toNat)) 0
    if n < 2 ^ 32 then some n else none

/-! ## The steps of `verify_pending` -/

/-- The pending row, or the deletion of an expired one. -/
def readPending (db : Database) (id : PendingMfaId) (now : DateTime) :
    CoreResult LoginPendingMfaRow × Database :=
  match db.loginPendingMfa.get? id with
  | none => (.error .unauthenticated, db)
  | some pending =>
    if pending.expiresAt < now then (.error .unauthenticated, LoginPendingMfa.delete db id)
    else (.ok pending, db)

/-- The user's confirmed TOTP row. -/
def readTotp (db : Database) (user : UserId) : CoreResult UserTotpRow :=
  require ((db.userTotp.get? user).filter (·.enabled)) .unauthenticated

/-- `match_recovery_code`: the swap that spends the first matching code. -/
def matchRecoveryCode (P : Primitives) (key : MasterKey) (nonce : Nonce) (totpRow : UserTotpRow)
    (candidate : String) : CoreResult (Option SecondFactorProof) :=
  match totpRow.recoveryCodesEnc with
  | none => pure none
  | some expectedSealed => do
    let blob ← (openBytes P key expectedSealed UserTotp.recoveryAad).mapError .store
    let hashes ← require (P.decodeTexts blob) .internal
    match hashes.findIdx? fun h => P.verifyPassword candidate h with
    | none => pure none
    | some i =>
      let newBlob := P.encodeTexts (hashes.eraseIdx i)
      let newSealed ← (sealBytes P key nonce newBlob UserTotp.recoveryAad).mapError .store
      pure (some (.recoveryCode expectedSealed newSealed))

/-- Digits are tried as a TOTP code, anything else as a recovery code. -/
def checkCode (P : Primitives) (key : MasterKey) (nonce : Nonce) (totpRow : UserTotpRow)
    (codeInput : String) (now : DateTime) : CoreResult (Option SecondFactorProof × AuthMethod) :=
  let trimmed := Text.trim codeInput
  match parseU32 trimmed with
  | some digits => do
    let secret ← (openBytes P key totpRow.secretEnc UserTotp.aad).mapError .store
    let step := Totp.verify P secret (now / 1000000000) digits totpRow.lastUsedStep
    pure (step.map .totp, .totp)
  | none => do
    let proof ← matchRecoveryCode P key nonce totpRow trimmed
    pure (proof, .recoveryCode)

/-- `SESSION_LIFETIME_HOURS`. -/
def sessionLifetimeHours : Int := 12

/-- The session row `complete` builds. -/
def secondFactorSession (id : SessionId) (user : UserId) (method : AuthMethod) (now : DateTime) :
    SessionRow :=
  { id, userId := user, expiresAt := now + seconds (sessionLifetimeHours * 3600), createdAt := now
    revokedAt := none, authMethods := [.pwd, method], lastStepUpAt := none
    lastStepUpMethod := none, lastUsedAt := none }

/-- `complete`: run L02 with it. -/
def complete (db : Database) (pendingId : PendingMfaId) (user : UserId) (method : AuthMethod)
    (proof : SecondFactorProof) (sessionId : SessionId) (now : DateTime) :
    CoreResult (SessionRow × Database) :=
  match completeSecondFactor db pendingId (secondFactorSession sessionId user method now) proof with
  | .ok result => .ok result
  | .error .notFound => .error .unauthenticated
  | .error e => .error (.store e)

/-- The end of `verify_pending`: L02 for a proof, L07 for none. -/
def finishPending (db : Database) (pending : LoginPendingMfaRow) (proof : Option SecondFactorProof)
    (method : AuthMethod) (sessionId : SessionId) (maxLockoutSecs : Int) (now : DateTime) :
    CoreResult SessionRow × Database :=
  match proof with
  | some proof =>
    match complete db pending.id pending.userId method proof sessionId now with
    | .ok (session, db) => (.ok session, db)
    | .error e => (.error e, db)
  | none =>
    match recordSecondFactorFailure db pending.userId maxLockoutSecs now with
    | .ok (_, db) => (.error .invalidCredentials, db)
    | .error e => (.error (.store e), db)

/-! ## What the steps leave alone -/

theorem readPending_eq (db : Database) (id : PendingMfaId) (now : DateTime) :
    ∃ loginPendingMfa, LoginPendingMfa.NoneAdded db.loginPendingMfa loginPendingMfa ∧
      (readPending db id now).2 = { db with loginPendingMfa } := by
  unfold readPending
  split
  · exact ⟨db.loginPendingMfa, fun _ hr => hr, rfl⟩
  · split
    · exact ⟨_, LoginPendingMfa.noneAdded_delete _ _, rfl⟩
    · exact ⟨db.loginPendingMfa, fun _ hr => hr, rfl⟩

variable {db : Database} {method : AuthMethod} {sessionId : SessionId} {now : DateTime}
  {session : SessionRow}

theorem complete_ok {db' : Database} {pendingId : PendingMfaId} {user : UserId}
    {proof : SecondFactorProof}
    (h : complete db pendingId user method proof sessionId now = .ok (session, db')) :
    completeSecondFactor db pendingId (secondFactorSession sessionId user method now) proof =
      .ok (session, db') := by
  unfold complete at h
  split at h
  · rename_i hcommit
    cases h
    exact hcommit
  · cases h
  · cases h

/-- The end of `verify_pending` writes pending rows, factors, accounts and
sessions; it keeps the account flags and revives no session. -/
theorem finishPending_eq (db : Database) (pending : LoginPendingMfaRow)
    (proof : Option SecondFactorProof) (method : AuthMethod) (sessionId : SessionId)
    (maxLockoutSecs : Int) (now : DateTime) :
    ∃ loginPendingMfa userTotp users sessions log,
      LoginPendingMfa.NoneAdded db.loginPendingMfa loginPendingMfa ∧
      Users.FlagsKept db.users users ∧ Sessions.RevokedKept db.sessions sessions ∧
      (finishPending db pending proof method sessionId maxLockoutSecs now).2 =
        { db with loginPendingMfa, userTotp, users, sessions, auditLog := log } := by
  have hsame : ∃ loginPendingMfa userTotp users sessions log,
      LoginPendingMfa.NoneAdded db.loginPendingMfa loginPendingMfa ∧
      Users.FlagsKept db.users users ∧ Sessions.RevokedKept db.sessions sessions ∧
      db = { db with loginPendingMfa, userTotp, users, sessions, auditLog := log } :=
    ⟨db.loginPendingMfa, db.userTotp, db.users, db.sessions, db.auditLog, fun _ hr => hr, .refl _,
      .refl _, rfl⟩
  unfold finishPending
  split
  · split
    · rename_i hcomplete
      obtain ⟨-, -, -, hframe⟩ := completeSecondFactor_ok (complete_ok hcomplete)
      exact hframe
    · exact hsame
  · split
    · rename_i hfailure
      obtain ⟨loginPendingMfa, users, log, hnone, hflags, rfl⟩ :=
        recordSecondFactorFailure_ok hfailure
      exact ⟨loginPendingMfa, db.userTotp, users, db.sessions, log, hnone, hflags, .refl _, rfl⟩
    · exact hsame

/-- A session comes from a pending row that is still there. -/
theorem finishPending_ok {pending : LoginPendingMfaRow} {proof : Option SecondFactorProof}
    {maxLockoutSecs : Int}
    (h : (finishPending db pending proof method sessionId maxLockoutSecs now).1 = .ok session) :
    session.userId = pending.userId ∧
      ∃ r ∈ db.loginPendingMfa, r.id = pending.id ∧ r.userId = pending.userId ∧
        now < r.expiresAt := by
  unfold finishPending at h
  split at h
  · split at h
    · rename_i hcomplete
      cases h
      obtain ⟨rfl, ⟨r, hr, hid, huser, hexpires⟩, -⟩ :=
        completeSecondFactor_ok (complete_ok hcomplete)
      exact ⟨rfl, r, hr, hid, huser, hexpires⟩
    · cases h
  · split at h
    · cases h
    · cases h

end SuiId
