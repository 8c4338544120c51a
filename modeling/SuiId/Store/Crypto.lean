import Mathlib.Data.List.Basic

/-!
# Values, errors and column encryption

Every column the store seals goes through `sealBytes` and `openBytes`
(`crypto.rs`): the sealed bytes are a 24-byte nonce followed by an
XChaCha20-Poly1305 ciphertext with its 16-byte tag.

The cipher, the hashes, the encodings and the Unicode tables are not part of
the repository.  They are the fields of `Primitives`, and what the code relies on them for is
`Primitives.Lawful`.  `Primitives.transparent` is an instance that can be run.

Times are nanoseconds since the epoch, and identifiers are natural numbers:
the code only ever compares them.
-/

namespace SuiId

/-- A byte string. -/
abbrev Bytes := List UInt8

/-- Nanoseconds since the epoch. -/
abbrev DateTime := Int

/-- `Duration::seconds`. -/
def seconds (n : Int) : Int := n * 1000000000

/-- `Duration::num_seconds`, which rounds towards zero. -/
def numSeconds (d : Int) : Int := d.tdiv 1000000000

/-- `RecoveryRefusal`: why no recovery link is issued. -/
inductive RecoveryRefusal where
  | reasonRequired
  | reasonTooLong
  | reasonHasControlCharacters
  | targetUnknown
  | targetIsSelf
  | targetIsAdmin
  | targetNonLocal
  | targetDisabled
  | targetDeleted
  | throttled
deriving DecidableEq, Repr

/-- `StoreError`, without the library errors that its texts do not show. -/
inductive StoreError where
  | db
  | crypto
  | invalidMasterKeyLength (length : Nat)
  | notFound
  | conflict
  | integrity (message : String)
  | serde
  | corruptJson (context source : String)
  | joinError (message : String)
  | invalidData (message : String)
  | stepUpRequired
  | recoveryRefused (why : RecoveryRefusal)
  | alreadyInitialized
  | schemaTooNew (found supported : Int)
  | schemaVersionInvalid (tables : Nat) (detail : String)
  | migrationFailed (version : Int)
  | notReadOnly (sql : String)
  | pragmaRefused (sql : String)
  | nonContentEffectRefused (keyword sql : String)
  | explainRefused (sql : String)
  | attemptExpired
  | clockRegression
  | attemptProviderMismatch
  | attemptBrowserBindingMismatch
deriving DecidableEq, Repr

/-- `StoreResult`. -/
abbrev StoreResult (α : Type) := Except StoreError α

/-- The 32-byte key that seals columns. -/
structure MasterKey where
  bytes : Bytes
  length_eq : bytes.length = 32
deriving DecidableEq

/-- The 24 random bytes drawn by one call of `sealBytes`. -/
structure Nonce where
  bytes : Bytes
  length_eq : bytes.length = 24

/-- `url::Host`. -/
inductive UrlHost where
  | domain (name : String)
  | ipv4 (address : BitVec 32)
  | ipv6 (address : BitVec 128)
deriving DecidableEq

/-- `url::Origin`.  No origin of its own is like another one. -/
inductive UrlOrigin where
  | ofItsOwn
  | tuple (scheme host : String) (port : Nat)
deriving DecidableEq

/-- `url::Url`, as far as it is looked at. -/
structure Url where
  scheme : String
  username : String
  password : Option String
  host : Option UrlHost
  /-- `port()`, which the port of the scheme is not. -/
  port : Option Nat
  path : String
  query : Option String
  fragment : Option String
  origin : UrlOrigin
  /-- `as_str()`. -/
  asStr : String
deriving DecidableEq

/-- What other crates compute. -/
structure Primitives where
  /-- XChaCha20-Poly1305: key, nonce, message, associated data. -/
  encrypt : MasterKey → Bytes → Bytes → Bytes → Option Bytes
  decrypt : MasterKey → Bytes → Bytes → Bytes → Option Bytes
  sha256 : Bytes → Bytes
  /-- HMAC-SHA1: key, message. -/
  hmacSha1 : Bytes → Bytes → Bytes
  base64Url : Bytes → String
  /-- Argon2 verification of a password against a stored PHC string. -/
  verifyPassword : String → String → Bool
  /-- Unicode lower case. -/
  toLowercase : String → String
  /-- A text as `{:?}` prints it: quoted, with what Unicode does not print escaped. -/
  debug : String → String
  /-- JSON of a list of texts. -/
  encodeTexts : List String → Bytes
  decodeTexts : Bytes → Option (List String)
  parseUrl : String → Option Url

/-- `seal`: nonce, then ciphertext and tag. -/
def sealBytes (P : Primitives) (key : MasterKey) (nonce : Nonce) (plaintext aad : Bytes) :
    StoreResult Bytes :=
  match P.encrypt key nonce.bytes plaintext aad with
  | some ct => .ok (nonce.bytes ++ ct)
  | none => .error .crypto

/-- `open`: too short, or a tag that does not verify, is a crypto error. -/
def openBytes (P : Primitives) (key : MasterKey) (sealed aad : Bytes) : StoreResult Bytes :=
  if sealed.length < 24 + 16 then .error .crypto
  else
    match P.decrypt key (sealed.take 24) (sealed.drop 24) aad with
    | some plaintext => .ok plaintext
    | none => .error .crypto

/-- What the store relies on the cipher for. -/
structure Primitives.Lawful (P : Primitives) : Prop where
  /-- A sealed value opens under its own key and associated data. -/
  open_seal : ∀ {key nonce plaintext aad sealed},
    sealBytes P key nonce plaintext aad = .ok sealed → openBytes P key sealed aad = .ok plaintext
  /-- A value that opens under one key opens under no other. -/
  open_other_key : ∀ {key key' sealed aad plaintext},
    openBytes P key sealed aad = .ok plaintext → key' ≠ key →
      openBytes P key' sealed aad = .error .crypto

/-- A value opens to at most one plaintext, whatever the key. -/
theorem Primitives.Lawful.open_unique {P : Primitives} (hP : P.Lawful) {key key' : MasterKey}
    {sealed aad plaintext plaintext' : Bytes}
    (h : openBytes P key sealed aad = .ok plaintext)
    (h' : openBytes P key' sealed aad = .ok plaintext') : plaintext = plaintext' := by
  by_cases hkey : key' = key
  · subst hkey
    rw [h] at h'
    cases h'
    rfl
  · rw [hP.open_other_key h hkey] at h'
    cases h'

/-! ## An instance that runs -/

/-- The ciphertext shows its key and associated data in front of the message;
decryption checks both. -/
def Primitives.transparent : Primitives where
  encrypt key _ plaintext aad := some (key.bytes ++ aad ++ plaintext)
  decrypt key _ ct aad :=
    if key.bytes ++ aad <+: ct then some (ct.drop (key.bytes ++ aad).length) else none
  sha256 bytes := bytes
  hmacSha1 _ _ := List.replicate 20 0
  base64Url bytes := String.ofList (bytes.map fun b => Char.ofNat b.toNat)
  verifyPassword password phc := password = phc
  toLowercase text := text
  debug text := "\"" ++ text ++ "\""
  encodeTexts texts := texts.flatMap fun t => t.toUTF8.data.toList ++ [0]
  decodeTexts _ := some []
  parseUrl _ := none

theorem Primitives.transparent_lawful : Primitives.transparent.Lawful where
  open_seal := by
    intro key nonce plaintext aad sealed h
    cases h
    have hlen : ¬ (nonce.bytes ++ (key.bytes ++ aad ++ plaintext)).length < 24 + 16 := by
      simp only [List.length_append, nonce.length_eq, key.length_eq]
      omega
    have hdrop : (nonce.bytes ++ (key.bytes ++ aad ++ plaintext)).drop 24 =
        key.bytes ++ aad ++ plaintext := List.drop_left' nonce.length_eq
    simp only [openBytes, hlen, if_false, hdrop, transparent, List.prefix_append, if_true,
      List.drop_left]
  open_other_key := by
    intro key key' sealed aad plaintext h hne
    unfold openBytes at h ⊢
    split at h
    · cases h
    · rename_i hlen
      have hpre : key.bytes ++ aad <+: sealed.drop 24 := by
        by_contra hnot
        simp [transparent, hnot] at h
      have hnot : ¬ key'.bytes ++ aad <+: sealed.drop 24 := by
        intro hpre'
        apply hne
        have htake := (List.prefix_append key.bytes aad).trans hpre
        have htake' := (List.prefix_append key'.bytes aad).trans hpre'
        rw [List.prefix_iff_eq_take, key.length_eq] at htake
        rw [List.prefix_iff_eq_take, key'.length_eq] at htake'
        cases key
        cases key'
        simp_all
      simp [hlen, transparent, hnot]

/-- A key whose bytes are all `b`. -/
def MasterKey.constant (b : UInt8) : MasterKey := ⟨List.replicate 32 b, List.length_replicate⟩

/-- The nonce whose bytes are all `b`. -/
def Nonce.constant (b : UInt8) : Nonce := ⟨List.replicate 24 b, List.length_replicate⟩

end SuiId
