import SuiId.Lib.Digits
import SuiId.Lib.Json
import SuiId.Lib.Result
import SuiId.Store.Crypto

/-!
# The keys of an upstream provider

`parse_jwks` and `select_key` of `http/jwks.rs`, with the caps of `response_bounds.rs` and the
walks of `json_shape.rs`.

JSON text, base64 and the conversion of a key belong to other crates.  A document is read twice:
as a map, and as it stands, to find names that are there twice.
-/

namespace SuiId

open Lib Lib.Result

/-! ## Other crates -/

/-- What `decode` of `jsonwebtoken` is told to check. -/
structure Validation (Algorithm : Type) where
  algorithms : List Algorithm
  requiredSpecClaims : List String
  leeway : Nat
  validateExp : Bool
  validateNbf : Bool
  validateAud : Bool
  validateSignature : Bool

/-- `Validation::new`. -/
def Validation.new {Algorithm : Type} (algorithm : Algorithm) : Validation Algorithm where
  algorithms := [algorithm]
  requiredSpecClaims := ["exp"]
  leeway := 60
  validateExp := true
  validateNbf := false
  validateAud := true
  validateSignature := true

/-- The kinds of errors of `decode` that are told apart. -/
inductive DecodeError where
  | expiredSignature
  | immatureSignature
  | other
deriving DecidableEq

/-- What the readers of keys and ID tokens take from other crates. -/
structure JoseCrates where
  /-- The document that `serde_json` reads from the bytes, before its objects become maps. -/
  read : Bytes → Option Json
  /-- The names of an object whose values are skipped. -/
  memberNames : Bytes → Option (List String)
  /-- `Base64UrlUnpadded::decode_vec`. -/
  decodeVec : String → Option Bytes
  -- `jsonwebtoken`
  Jwk : Type
  DecodingKey : Type
  Algorithm : Type
  jwkFromValue : Json → Option Jwk
  fromJwk : Jwk → Option DecodingKey
  parseAlgorithm : String → Option Algorithm
  /-- The token, the key, what to check, and the seconds on the library's own clock. -/
  decode : String → DecodingKey → Validation Algorithm → Int → Except DecodeError Json

/-- `serde_json::from_slice` into a `Value`. -/
def JoseCrates.fromSlice (J : JoseCrates) (bytes : Bytes) : Option Json :=
  (J.read bytes).map Json.collect

/-! ## Shapes -/

/-- `ResponseCaps`. -/
structure ResponseCaps where
  maxMembers : Nat
  maxArrayLen : Nat
  maxStringLen : Nat

/-- `BoundsError`, as far as a document in memory can break a bound. -/
inductive BoundsError where
  | tooLarge (limit : Nat)
  | tooManyMembers (limit : Nat)
  | arrayTooLong (limit : Nat)
  | stringTooLong (limit : Nat)
deriving DecidableEq

/-- `MAX_RESPONSE_BYTES`. -/
def maxResponseBytes : Nat := 64 * 1024

/-- The caps of a JWKS. -/
def ResponseCaps.jwksAndTransport : ResponseCaps where
  maxMembers := 128
  maxArrayLen := 128
  maxStringLen := 8 * 1024

mutual

/-- `check_caps`. -/
def checkCaps (caps : ResponseCaps) : Json → Except BoundsError Unit
  | .object members => do
    ensure (members.length ≤ caps.maxMembers) (.tooManyMembers caps.maxMembers)
    checkCapsMembers caps members
  | .array items => do
    ensure (items.length ≤ caps.maxArrayLen) (.arrayTooLong caps.maxArrayLen)
    checkCapsItems caps items
  | .string s => ensure (s.utf8ByteSize ≤ caps.maxStringLen) (.stringTooLong caps.maxStringLen)
  | .null | .bool _ | .number _ => pure ()

def checkCapsMembers (caps : ResponseCaps) : List (String × Json) → Except BoundsError Unit
  | [] => pure ()
  | (_, v) :: rest => do
    checkCaps caps v
    checkCapsMembers caps rest

def checkCapsItems (caps : ResponseCaps) : List Json → Except BoundsError Unit
  | [] => pure ()
  | v :: rest => do
    checkCaps caps v
    checkCapsItems caps rest

end

mutual

/-- `nesting_depth`: a container is one more than its deepest child. -/
def nestingDepth : Json → Nat
  | .object members => 1 + deepestMember members
  | .array items => 1 + deepestItem items
  | .null | .bool _ | .number _ | .string _ => 0

def deepestMember : List (String × Json) → Nat
  | [] => 0
  | (_, v) :: rest => max (nestingDepth v) (deepestMember rest)

def deepestItem : List Json → Nat
  | [] => 0
  | v :: rest => max (nestingDepth v) (deepestItem rest)

end

mutual

/-- `first_repeated_member`: the visitor `NoRepeats` on a document as it stands. -/
def firstRepeatedMember : Json → Option String
  | .object members => repeatedAfter [] members
  | .array items => repeatedInItems items
  | .null | .bool _ | .number _ | .string _ => none

/-- The first repeated member of an object whose first names are `seen`. -/
def repeatedAfter (seen : List String) : List (String × Json) → Option String
  | [] => none
  | (name, v) :: rest =>
    if seen.contains name then some name
    else
      match firstRepeatedMember v with
      | some found => some found
      | none => repeatedAfter (seen ++ [name]) rest

def repeatedInItems : List Json → Option String
  | [] => none
  | v :: rest =>
    match firstRepeatedMember v with
    | some found => some found
    | none => repeatedInItems rest

end

/-! ## `parse_jwks` -/

/-- `JwksError`. -/
inductive JwksError where
  | bounds (error : BoundsError)
  | notJson
  | notObject
  | noKeys
  | tooDeep (limit : Nat)
  | duplicateMember (name : String)
  | tooManyKeys (limit : Nat)
  | keyNotObject (index : Nat)
  | duplicateKid (kid : String)
deriving DecidableEq

/-- `Jwks`. -/
structure Jwks where
  keys : List Json

/-- `MAX_JWKS_DEPTH`. -/
def maxJwksDepth : Nat := 16

/-- `MAX_JWKS_KEYS`. -/
def maxJwksKeys : Nat := 32

/-- The member `kid` of a key, where it is a string. -/
def kidOf (key : Json) : Option String := (key.get? "kid").bind Json.asStr?

/-- The loop over the keys: each is an object, and no two have the same `kid` that is not empty. -/
def checkKids (index : Nat) (seenKids : List String) : List Json → Except JwksError Unit
  | [] => pure ()
  | key :: rest => do
    ensure key.isObject (.keyNotObject index)
    match (kidOf key).filter fun kid => !kid.isEmpty with
    | some kid => do
      ensure (!seenKids.contains kid) (.duplicateKid kid)
      checkKids (index + 1) (seenKids ++ [kid]) rest
    | none => checkKids (index + 1) seenKids rest

/-- `parse_jwks`. -/
def parseJwks (J : JoseCrates) (bytes : Bytes) : Except JwksError Jwks := do
  ensure (bytes.length ≤ maxResponseBytes) (.bounds (.tooLarge maxResponseBytes))
  let document ← require (J.read bytes) .notJson
  let value := document.collect
  ensure value.isObject .notObject
  (checkCaps .jwksAndTransport value).mapError .bounds
  ensure (nestingDepth value ≤ maxJwksDepth) (.tooDeep maxJwksDepth)
  match firstRepeatedMember document with
  | some name => .error (.duplicateMember name)
  | none => do
    let keys ← require ((value.get? "keys").bind Json.asArray?) .noKeys
    ensure (keys.length ≤ maxJwksKeys) (.tooManyKeys maxJwksKeys)
    checkKids 0 [] keys
    pure ⟨keys⟩

/-! ## `select_key` -/

/-- `KeySelectionError`. -/
inductive KeySelectionError where
  | kidNotFound
  | ambiguousKid (count : Nat)
  | privateKeyMember (name : String)
  | useNotSig
  | keyOpsMissingVerify
  | multiUse
  | algMismatch
  | algorithmFamilyMismatch
  | curveMismatch
  | rsaParameterInvalid
  | rsaTooSmall
  | rsaInvalidExponent
  | keyMaterialInvalid
deriving DecidableEq

/-- `PRIVATE_KEY_MEMBERS`. -/
def privateKeyMembers : List String := ["d", "p", "q", "dp", "dq", "qi", "oth"]

section Select

variable (candidate : Json)

/-- The key has no private member. -/
def checkPrivateMembers : Except KeySelectionError Unit :=
  match privateKeyMembers.find? fun member => (candidate.get? member).isSome with
  | some member => .error (.privateKeyMember member)
  | none => pure ()

/-- `use`, where it is a string. -/
def checkUse : Except KeySelectionError Unit :=
  match (candidate.get? "use").bind Json.asStr? with
  | some use => ensure (use == "sig") .useNotSig
  | none => pure ()

/-- The strings of `key_ops`, where it is an array. -/
def checkKeyOps : Except KeySelectionError Unit :=
  match (candidate.get? "key_ops").bind Json.asArray? with
  | some items => do
    let ops := items.filterMap Json.asStr?
    ensure (ops.contains "verify") .keyOpsMissingVerify
    ensure (!(ops.contains "sign" || ops.any fun op => op != "sign" && op != "verify")) .multiUse
  | none => pure ()

/-- `alg`, where it is a string. -/
def checkAlg (headerAlg : String) : Except KeySelectionError Unit :=
  match (candidate.get? "alg").bind Json.asStr? with
  | some keyAlg => ensure (keyAlg == headerAlg) .algMismatch
  | none => pure ()

/-- The `kty` that an algorithm requires. -/
def requiredKty (headerAlg : String) : Option String :=
  if ["RS256", "RS384", "RS512", "PS256", "PS384", "PS512"].contains headerAlg then some "RSA"
  else if headerAlg == "ES256" then some "EC"
  else if headerAlg == "EdDSA" then some "OKP"
  else none

/-- `check_curve`. -/
def checkCurve (required : String) : Except KeySelectionError Unit :=
  ensure ((candidate.get? "crv").bind Json.asStr? == some required) .curveMismatch

/-- `check_rsa_parameters`, on the bytes and never on the numbers. -/
def checkRsaParameters (J : JoseCrates) : Except KeySelectionError Unit := do
  let n ← require ((candidate.get? "n").bind Json.asStr?) .rsaParameterInvalid
  let e ← require ((candidate.get? "e").bind Json.asStr?) .rsaParameterInvalid
  let nBytes ← require (J.decodeVec n) .rsaParameterInvalid
  let eBytes ← require (J.decodeVec e) .rsaParameterInvalid
  ensure (!(nBytes.length < 256)) .rsaTooSmall
  let even := match eBytes.getLast? with
    | some last => last.toNat % 2 == 0
    | none => true
  let trimmed := eBytes.dropWhile (· == 0)
  let tooSmall := trimmed.isEmpty || trimmed.length == 1 && trimmed.all fun b => b.toNat < 3
  ensure (!(even || tooSmall)) .rsaInvalidExponent

/-- The rules of the key type. -/
def checkKeyType (J : JoseCrates) (kty : String) : Except KeySelectionError Unit :=
  if kty == "EC" then checkCurve candidate "P-256"
  else if kty == "OKP" then checkCurve candidate "Ed25519"
  else checkRsaParameters candidate J

/-- The rules of the one key that has the `kid`, and its conversion. -/
def acceptKey (J : JoseCrates) (headerAlg : String) : Except KeySelectionError J.DecodingKey := do
  checkPrivateMembers candidate
  checkUse candidate
  checkKeyOps candidate
  checkAlg candidate headerAlg
  let kty ← require (requiredKty headerAlg) .algorithmFamilyMismatch
  ensure ((candidate.get? "kty").bind Json.asStr? == some kty) .algorithmFamilyMismatch
  checkKeyType candidate J kty
  let jwk ← require (J.jwkFromValue candidate) .keyMaterialInvalid
  require (J.fromJwk jwk) .keyMaterialInvalid

end Select

/-- `select_key`. -/
def selectKey (J : JoseCrates) (jwks : Jwks) (headerKid headerAlg : String) :
    Except KeySelectionError J.DecodingKey :=
  match jwks.keys.filter fun key => kidOf key == some headerKid with
  | [] => .error .kidNotFound
  | [candidate] => acceptKey candidate J headerAlg
  | many => .error (.ambiguousKid many.length)

end SuiId
