import SuiId.Core.Jwks
import SuiId.Core.Tokens
import SuiId.Store.ClassA

/-!
# ID tokens of an upstream provider

`http/id_token.rs`, `http/identity_claims.rs` and `http/time_claims.rs`.  The token is taken apart
here, and again by the library that checks its signature: the first reading finds what the second
would skip, rounds or keep only the last of.

`now` of `verifyIdTokenAgainstJwks` are the seconds that the library reads from its own clock.
-/

namespace SuiId

open Lib Lib.Result

/-! ## Compact tokens -/

/-- The segments of a compact JWS. -/
inductive Segment where
  | header
  | payload
  | signature
deriving DecidableEq

/-- `CompactJwsError`. -/
inductive CompactJwsError where
  | jsonSerialization
  | wrongSegmentCount (found : Nat)
  | emptySegment (segment : Segment)
  | oversized
  | notBase64Url (segment : Segment)
  | headerNotJson
  | headerNotObject
  | duplicateMember (name : String)
  | algMissing
  | algNotString
  | forbiddenMember (name : String)
  | ctyPresent
  | typNotJwt
  | kidMissing
  | kidInvalid
deriving DecidableEq

/-- `ValidatedHeader`. -/
structure ValidatedHeader where
  alg : String
  kid : String
  typ : Option String
deriving DecidableEq

/-- `CompactJws`. -/
structure CompactJws where
  header : ValidatedHeader
  signingInput : String
  payload : Bytes
  signature : Bytes
deriving DecidableEq

/-- `MAX_DECODED_HEADER_AND_PAYLOAD`. -/
def maxDecodedHeaderAndPayload : Nat := 16 * 1024

/-- `MAX_ENCODED_JWS_LEN`. -/
def maxEncodedJwsLen : Nat := 24 * 1024

/-- `MAX_ENCODED_SEGMENT`. -/
def maxEncodedSegment : Nat := (maxDecodedHeaderAndPayload + 2) / 3 * 4

/-- The three segments. -/
def segments (token : String) : List String := Text.split token '.'

/-- The first name that is one of those before it. -/
def firstDuplicate (seen : List String) : List String → Option String
  | [] => none
  | name :: rest =>
    if seen.contains name then some name else firstDuplicate (seen ++ [name]) rest

/-- The members that a header may not have. -/
def forbiddenMembers : List String := ["jku", "x5u", "jwk", "x5c", "crit", "b64"]

section Header

variable (value : Json)

/-- The header has none of them. -/
def checkForbidden : Except CompactJwsError Unit :=
  match forbiddenMembers.find? fun forbidden => (value.get? forbidden).isSome with
  | some forbidden => .error (.forbiddenMember forbidden)
  | none => pure ()

/-- The member `typ`. -/
def headerTyp : Except CompactJwsError (Option String) :=
  match value.get? "typ" with
  | none => pure none
  | some v => do
    ensure (v.asStr? == some "JWT") .typNotJwt
    pure (some "JWT")

/-- The members of the header, in the order of the source. -/
def validateHeader : Except CompactJwsError ValidatedHeader := do
  let algValue ← require (value.get? "alg") .algMissing
  let alg ← require algValue.asStr? .algNotString
  checkForbidden value
  ensure (value.get? "cty").isNone .ctyPresent
  let typ ← headerTyp value
  let kidValue ← require (value.get? "kid") .kidMissing
  let kid ← require kidValue.asStr? .kidInvalid
  let bytes := utf8 kid
  let visibleAscii := bytes.all fun b => 0x21 ≤ b && b ≤ 0x7e
  ensure (1 ≤ bytes.length && bytes.length ≤ 128 && visibleAscii) .kidInvalid
  pure { alg, kid, typ }

end Header

/-- `parse_compact_jws`. -/
def parseCompactJws (J : JoseCrates) (token : String) : Except CompactJwsError CompactJws := do
  ensure (token.utf8ByteSize ≤ maxEncodedJwsLen) .oversized
  ensure (!Text.startsWith token "\x7b") .jsonSerialization
  match segments token with
  | [headerB64, payloadB64, signatureB64] => do
    ensure (!headerB64.isEmpty) (.emptySegment .header)
    ensure (!payloadB64.isEmpty) (.emptySegment .payload)
    ensure (!signatureB64.isEmpty) (.emptySegment .signature)
    ensure (!(maxEncodedSegment < headerB64.utf8ByteSize ||
      maxEncodedSegment < payloadB64.utf8ByteSize)) .oversized
    let headerBytes ← require (J.decodeVec headerB64) (.notBase64Url .header)
    let payload ← require (J.decodeVec payloadB64) (.notBase64Url .payload)
    let signature ← require (J.decodeVec signatureB64) (.notBase64Url .signature)
    ensure (headerBytes.length + payload.length ≤ maxDecodedHeaderAndPayload) .oversized
    let value ← require (J.fromSlice headerBytes) .headerNotJson
    ensure value.isObject .headerNotObject
    let names ← require (J.memberNames headerBytes) .headerNotJson
    match firstDuplicate [] names with
    | some name => .error (.duplicateMember name)
    | none => do
      let header ← validateHeader value
      pure { header, signingInput := headerB64 ++ "." ++ payloadB64, payload, signature }
  | found => .error (.wrongSegmentCount found.length)

/-! ## Numeric dates -/

/-- `NumericDateError`. -/
inductive NumericDateError where
  | wrongType
  | notAnInteger
  | negative
  | outOfRange
deriving DecidableEq

/-- The last second of the year 262142, after which `DateTime::from_timestamp` has no time. -/
def maxTimestamp : Nat := 8210266876799

/-- `numeric_date`. -/
def numericDate : Json → Except NumericDateError Int
  | .number (.posInt n) => do
    ensure (n.toNat < 2 ^ 63) .outOfRange
    ensure (n.toNat ≤ maxTimestamp) .outOfRange
    pure n.toNat
  | .number (.negInt _) => .error .negative
  | .number (.float _) => .error .notAnInteger
  | _ => .error .wrongType

/-! ## Verification -/

/-- `VerificationError`, as far as it needs no network. -/
inductive VerificationError where
  | compact (error : CompactJwsError)
  | duplicatePayloadMember (name : String)
  | malformedTimeClaim (claim : String)
  | algNotPermitted
  | keySelection (error : KeySelectionError)
  | expired
  | notYetValid
  | signatureInvalid
deriving DecidableEq

/-- An error of the library. -/
def VerificationError.ofDecode : DecodeError → VerificationError
  | .expiredSignature => .expired
  | .immatureSignature => .notYetValid
  | .other => .signatureInvalid

/-- `VerifiedIdTokenClaims`. -/
structure VerifiedIdTokenClaims where
  payload : Json

/-- `VerifiedIdTokenClaims::claim`. -/
def VerifiedIdTokenClaims.claim (claims : VerifiedIdTokenClaims) (name : String) : Option Json :=
  claims.payload.get? name

/-- `validation_for`. -/
def validationFor {Algorithm : Type} (algorithm : Algorithm) : Validation Algorithm :=
  { Validation.new algorithm with validateAud := false, validateNbf := true }

/-- A payload that is no object has no names. -/
def firstDuplicateMember (J : JoseCrates) (payload : Bytes) : Option String :=
  firstDuplicate [] ((J.memberNames payload).getD [])

/-- The loop over `exp` and `nbf`. -/
def checkTimeClaims (value : Json) : List String → Except VerificationError Unit
  | [] => pure ()
  | claim :: rest => do
    match value.get? claim with
    | some v => do
      let _ ← (numericDate v).mapError fun _ => .malformedTimeClaim claim
      checkTimeClaims value rest
    | none => checkTimeClaims value rest

/-- `verify_id_token_against_jwks`. -/
def verifyIdTokenAgainstJwks (J : JoseCrates) (now : Int) (token : String)
    (idTokenAlgs : List String) (jwks : Jwks) :
    Except VerificationError VerifiedIdTokenClaims := do
  let compact ← (parseCompactJws J token).mapError .compact
  match firstDuplicateMember J compact.payload with
  | some name => .error (.duplicatePayloadMember name)
  | none => do
    let rawPayload := (J.fromSlice compact.payload).getD .null
    checkTimeClaims rawPayload ["exp", "nbf"]
    ensure (idTokenAlgs.contains compact.header.alg) .algNotPermitted
    let header := compact.header
    let decodingKey ← (selectKey J jwks header.kid header.alg).mapError .keySelection
    let algorithm ← require (J.parseAlgorithm compact.header.alg) .algNotPermitted
    let payload ← (J.decode token decodingKey (validationFor algorithm) now).mapError .ofDecode
    pure { payload }

/-! ## Identity claims -/

/-- `IdentityClaimsError`. -/
inductive IdentityClaimsError where
  | issuerMissing
  | issuerNotString
  | issuerMismatch
  | subjectMissing
  | subjectNotString
  | subjectLength
  | subjectControlCharacter
  | audienceMissing
  | audienceInvalidShape
  | audienceEmpty
  | audienceTooMany
  | audienceDuplicateValue
  | audienceDoesNotContainClientId
  | azpMissing
  | azpNotString
  | azpMismatch
deriving DecidableEq

/-- `RequiredIdentityClaims`. -/
structure RequiredIdentityClaims where
  sub : String
deriving DecidableEq

section Claims

variable (claims : VerifiedIdTokenClaims)

/-- `validate_issuer`. -/
def validateIssuer (expectedIssuer : String) : Except IdentityClaimsError Unit := do
  let value ← require (claims.claim "iss") .issuerMissing
  let iss ← require value.asStr? .issuerNotString
  ensure (iss == expectedIssuer) .issuerMismatch

/-- `validate_subject`. -/
def validateSubject : Except IdentityClaimsError String := do
  let value ← require (claims.claim "sub") .subjectMissing
  let sub ← require value.asStr? .subjectNotString
  ensure (1 ≤ sub.utf8ByteSize && sub.utf8ByteSize ≤ 255) .subjectLength
  ensure (!sub.toList.any isControl) .subjectControlCharacter
  pure sub

/-- The audiences of `aud`, a string or an array of strings. -/
def audiencesOf : Json → Except IdentityClaimsError (List String)
  | .string s => pure [s]
  | .array items => items.mapM fun item => require item.asStr? .audienceInvalidShape
  | _ => .error .audienceInvalidShape

/-- `validate_audience`. -/
def validateAudience (expectedClientId : String) : Except IdentityClaimsError (List String) := do
  let value ← require (claims.claim "aud") .audienceMissing
  let audiences ← audiencesOf value
  ensure (!audiences.isEmpty) .audienceEmpty
  ensure (!(8 < audiences.length)) .audienceTooMany
  ensure (firstDuplicate [] audiences).isNone .audienceDuplicateValue
  ensure (audiences.contains expectedClientId) .audienceDoesNotContainClientId
  pure audiences

/-- `validate_azp`. -/
def validateAzp (audiences : List String) (expectedClientId : String) :
    Except IdentityClaimsError Unit := do
  let azpClaim := claims.claim "azp"
  ensure (!(1 < audiences.length && azpClaim.isNone)) .azpMissing
  match azpClaim with
  | none => pure ()
  | some azpValue => do
    let azp ← require azpValue.asStr? .azpNotString
    ensure (azp == expectedClientId) .azpMismatch

/-- `validate_identity_claims`. -/
def validateIdentityClaims (expectedIssuer expectedClientId : String) :
    Except IdentityClaimsError RequiredIdentityClaims := do
  validateIssuer claims expectedIssuer
  let sub ← validateSubject claims
  let audiences ← validateAudience claims expectedClientId
  validateAzp claims audiences expectedClientId
  pure { sub }

/-! ## Time claims -/

/-- `TimeClaimsError`. -/
inductive TimeClaimsError where
  | missing
  | wrongType
  | notAnInteger
  | negative
  | outOfRange
  | tooOld
  | tooNew
deriving DecidableEq

/-- An error of `numeric_date`. -/
def TimeClaimsError.ofNumericDate : NumericDateError → TimeClaimsError
  | .wrongType => .wrongType
  | .notAnInteger => .notAnInteger
  | .negative => .negative
  | .outOfRange => .outOfRange

/-- `SKEW_SECONDS`. -/
def skewSeconds : Int := 60

/-- `validate_iat`. -/
def validateIat (createdAt now : DateTime) : Except TimeClaimsError Unit := do
  let value ← require (claims.claim "iat") .missing
  let iatSecs ← (numericDate value).mapError .ofNumericDate
  let lowerBound := timestamp createdAt - skewSeconds
  let upperBound := timestamp now + skewSeconds
  ensure (!(iatSecs < lowerBound)) .tooOld
  ensure (!(upperBound < iatSecs)) .tooNew

end Claims

end SuiId
