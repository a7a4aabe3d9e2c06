import BlindMarket.Support.Checked
import BlindMarket.Support.Octets

/-!
# Sealed blobs

The blob formats of the SDK, the web app, the backend and the MCP server, each
as its own module computes it. The ciphers and curves they call are a library;
what they draw at random is an argument. Keys are hexadecimal text.
-/
namespace SealedBlobs

open Checked Octets

abbrev Text := List Char

/-- What the four call: AES-256-GCM, HKDF, SHA-256, secp256k1 through ethers and through Node, and
X25519. -/
structure Library where
  /-- The ciphertext and the tag of a plaintext, under a key and an IV. -/
  gcmEncrypt (key iv plaintext : Bytes) : Bytes × Bytes
  gcmDecrypt (key iv ciphertext tag : Bytes) : Option Bytes
  hkdf (ikm salt info : Bytes) (length : Nat) : Bytes
  sha256 (text : Text) : Bytes
  /-- The uncompressed public key. -/
  publicKey (privateKey : Bytes) : Option Bytes
  /-- ethers: the shared point, uncompressed. -/
  computeSharedSecret (privateKey publicKey : Bytes) : Option Bytes
  /-- Node: the X coordinate of the shared point. -/
  computeSecret (privateKey publicKey : Bytes) : Option Bytes
  ed25519PublicKey (seed : Bytes) : Option Bytes
  toMontgomery (publicKey : Bytes) : Option Bytes
  toMontgomerySecret (seed : Bytes) : Option Bytes
  x25519PublicKey (privateKey : Bytes) : Bytes
  diffieHellman (privateKey publicKey : Bytes) : Option Bytes

inductive Failure
  /-- `CryptoError` -/
  | crypto (code message : String)
  | error (message : String)
  /-- `ECIES encryption failed for recipient pubkey (len …): …` -/
  | wrapping (length : Nat) (cause : Failure)
  /-- Thrown by the library. -/
  | thrown
  deriving DecidableEq, Repr

abbrev Result := Except Failure Bytes

def ivLength : Nat := 12

def tagLength : Nat := 16

def keyLength : Nat := 32

def eciesPubkeyLength : Nat := 65

def x25519PubkeyLength : Nat := 32

def ascii (s : String) : Bytes := s.toList.map fun ch => UInt8.ofNat ch.toNat

def eciesHkdfInfo : Bytes := ascii "BlindMarket-ECIES-v1"

def eciesX25519HkdfInfo : Bytes := ascii "BlindMarket-ECIES-X25519-v1"

/-- The text without `0x`. -/
def strip0x : Text → Text
  | '0' :: 'x' :: hex => hex
  | hex => hex

def prefix0x (hex : Text) : Text := '0' :: 'x' :: hex

/-- A library that gives nothing has thrown. -/
def orThrown {α : Type} (o : Option α) : Except Failure α := orElse .thrown o

variable (lib : Library)

namespace Library

/-- `subtle.encrypt`: the ciphertext and then the tag. -/
def subtleEncrypt (key iv plaintext : Bytes) : Bytes :=
  (lib.gcmEncrypt key iv plaintext).1 ++ (lib.gcmEncrypt key iv plaintext).2

/-- `subtle.decrypt` of a ciphertext and its tag. -/
def subtleDecrypt (key iv combined : Bytes) : Option Bytes :=
  if combined.length < tagLength then none
  else
    let ctLen := combined.length - tagLength
    lib.gcmDecrypt key iv (combined.take ctLen) (combined.drop ctLen)

/-- `getBytes` of ethers -/
def getBytes : Text → Option Bytes
  | '0' :: 'x' :: hex => ofHex hex
  | _ => none

/-- `new SigningKey(privHex).computeSharedSecret(pubHex)` -/
def sharedSecret (privHex pubHex : Text) : Result := do
  let priv ← orThrown (getBytes privHex)
  require (priv.length = keyLength) .thrown
  let pub ← orThrown (getBytes pubHex)
  orThrown (lib.computeSharedSecret priv pub)

end Library

/-! ## Parts that two of them share -/

/-- Web Crypto's output as `[IV][tag][ciphertext]`. -/
def webSeal (iv plaintext key : Bytes) : Bytes :=
  let wc := lib.subtleEncrypt key iv plaintext
  let ctLen := wc.length - tagLength
  let ct := wc.take ctLen
  let tag := wc.drop ctLen
  iv ++ tag ++ ct

def webOpen (blob key : Bytes) : Option Bytes :=
  let iv := blob.take ivLength
  let tag := (blob.drop ivLength).take tagLength
  let ct := blob.drop (ivLength + tagLength)
  lib.subtleDecrypt key iv (ct ++ tag)

/-- `Buffer.concat([iv, tag, encrypted])` -/
def nodeSeal (iv plaintext key : Bytes) : Bytes :=
  iv ++ (lib.gcmEncrypt key iv plaintext).2 ++ (lib.gcmEncrypt key iv plaintext).1

def nodeOpen (blob key : Bytes) : Option Bytes :=
  let iv := blob.take ivLength
  let tag := (blob.drop ivLength).take tagLength
  let ciphertext := blob.drop (ivLength + tagLength)
  lib.gcmDecrypt key iv ciphertext tag

/-- HKDF-SHA256 with an empty salt. -/
def derivedKey (shared info : Bytes) : Bytes := lib.hkdf shared [] info keyLength

/-! ## sdk/src/crypto -/

namespace Sdk

def aesMinBlob : Nat := ivLength + tagLength

def eciesMinBlob : Nat := eciesPubkeyLength + aesMinBlob

def checkKey (key : Bytes) : Except Failure Unit :=
  require (key.length = keyLength) (.crypto "CRYPTO/INVALID_KEY"
    s!"AES key must be {keyLength} bytes, got {key.length}")

def aesEncrypt (iv plaintext key : Bytes) : Result := do
  checkKey key
  return webSeal lib iv plaintext key

def aesDecrypt (blob key : Bytes) : Result := do
  checkKey key
  require (aesMinBlob ≤ blob.length) (.crypto "CRYPTO/INTEGRITY_CHECK"
    s!"AES blob too short: need ≥{aesMinBlob} bytes, got {blob.length}")
  orElse (.crypto "CRYPTO/DECRYPT_FAILED" "AES-GCM decryption failed (wrong key or tampered data)")
    (webOpen lib blob key)

def strip : Text → Text
  | '0' :: 'x' :: hex | '0' :: 'X' :: hex => hex
  | hex => hex

def assertUncompressedPubKey (pub : Text) : Except Failure Unit :=
  let s := strip pub
  require (s.length = 130 ∧ s.take 2 = ['0', '4']) (.crypto "CRYPTO/INVALID_KEY"
    "expected uncompressed secp256k1 pubkey (65 bytes hex, starts with 04)")

/-- `bytes[0]?.toString(16) ?? 'none'` -/
def firstByte (bytes : Bytes) : String :=
  match bytes.head? with
  | some x => String.ofList (Nat.toDigits 16 x.toNat)
  | none => "none"

def deriveSharedSecretX (privHex pubHex : Text) : Result := do
  let bytes ← lib.sharedSecret privHex pubHex
  let length := bytes.length
  let first := firstByte bytes
  require (length = 65 ∧ bytes.head? = some 4) (.crypto "CRYPTO/INVALID_KEY"
    s!"unexpected shared secret shape (len={length}, prefix={first})")
  return (bytes.drop 1).take 32

def eciesEncrypt (ephemeral iv plaintext : Bytes) (recipientPubKey : Text) : Result := do
  assertUncompressedPubKey recipientPubKey
  let shared ← deriveSharedSecretX lib (prefix0x (toHex ephemeral)) (prefix0x (strip recipientPubKey))
  let aesBlob ← aesEncrypt lib iv plaintext (derivedKey lib shared eciesHkdfInfo)
  let ephPub ← orThrown (lib.publicKey ephemeral)
  require (ephPub.length = eciesPubkeyLength)
    (.crypto "CRYPTO/INVALID_KEY" s!"ephemeral pubkey length {ephPub.length}")
  return ephPub ++ aesBlob

def eciesDecrypt (blob : Bytes) (recipientPrivKey : Text) : Result := do
  require (eciesMinBlob ≤ blob.length) (.crypto "CRYPTO/INTEGRITY_CHECK"
    s!"ECIES blob too short: need ≥{eciesMinBlob} bytes, got {blob.length}")
  let ephPub := blob.take eciesPubkeyLength
  let aesBlob := blob.drop eciesPubkeyLength
  let shared ← deriveSharedSecretX lib (prefix0x (strip recipientPrivKey)) (prefix0x (toHex ephPub))
  aesDecrypt lib aesBlob (derivedKey lib shared eciesHkdfInfo)

end Sdk

/-! ## frontend/src/lib/crypto.ts -/

namespace Web

def checkKey (key : Bytes) : Except Failure Unit :=
  require (key.length = keyLength) (.error s!"AES key must be {keyLength} bytes")

def aesEncrypt (iv plaintext key : Bytes) : Result := do
  checkKey key
  return webSeal lib iv plaintext key

def aesDecrypt (blob key : Bytes) : Result := do
  checkKey key
  require (ivLength + tagLength ≤ blob.length) (.error "AES blob too short")
  orThrown (webOpen lib blob key)

def deriveSharedSecretX (privKeyHex peerPubKeyHex : Text) : Result := do
  let bytes ← lib.sharedSecret (prefix0x (strip0x privKeyHex)) (prefix0x (strip0x peerPubKeyHex))
  require (bytes.length = eciesPubkeyLength ∧ bytes.head? = some 4)
    (.error s!"Unexpected shared-secret shape (len={bytes.length})")
  return (bytes.drop 1).take 32

/-- `/^04[0-9a-fA-F]{128}$/` -/
def isUncompressed (clean : Text) : Bool :=
  clean.length = 130 && clean.take 2 = ['0', '4'] && clean.all fun ch => (hexValue ch).isSome

def eciesEncrypt (ephemeral iv plaintext : Bytes) (recipientPubKeyHex : Text) : Result := do
  let clean := strip0x recipientPubKeyHex
  require (isUncompressed clean)
    (.error "eciesEncrypt: pubkey must be uncompressed secp256k1 hex (04 + 128 hex chars)")
  let shared ← deriveSharedSecretX lib (prefix0x (toHex ephemeral)) (prefix0x clean)
  let aesBlob ← aesEncrypt lib iv plaintext (derivedKey lib shared eciesHkdfInfo)
  let ephPub ← orThrown (lib.publicKey ephemeral)
  require (ephPub.length = eciesPubkeyLength)
    (.error s!"Ephemeral pubkey wrong length ({ephPub.length})")
  return ephPub ++ aesBlob

def eciesDecrypt (blob : Bytes) (recipientPrivKeyHex : Text) : Result := do
  require (eciesPubkeyLength + ivLength + tagLength ≤ blob.length) (.error "ECIES blob too short")
  let ephPub := blob.take eciesPubkeyLength
  let aesBlob := blob.drop eciesPubkeyLength
  let shared ← deriveSharedSecretX lib recipientPrivKeyHex (prefix0x (toHex ephPub))
  aesDecrypt lib aesBlob (derivedKey lib shared eciesHkdfInfo)

end Web

/-! ## backend/src/services/crypto.ts -/

namespace Backend

def aesMinBlob : Nat := ivLength + tagLength + 1

def eciesMinBlob : Nat := eciesPubkeyLength + ivLength + tagLength + 1

def x25519MinBlob : Nat := x25519PubkeyLength + ivLength + tagLength + 1

def checkKey (key : Bytes) : Except Failure Unit :=
  require (key.length = keyLength)
    (.error s!"AES key must be exactly {keyLength} bytes, got {key.length}")

def aesEncrypt (iv plaintext key : Bytes) : Result := do
  checkKey key
  return nodeSeal lib iv plaintext key

def aesDecrypt (blob key : Bytes) : Result := do
  checkKey key
  require (aesMinBlob ≤ blob.length)
    (.error s!"AES blob too short: need at least {aesMinBlob} bytes, got {blob.length}")
  orThrown (nodeOpen lib blob key)

/-- A value as its UTF-8 bytes. -/
def encryptSensitive (iv value : Bytes) (agentPrivateKey : Text) : Except Failure Text := do
  return toHex (← aesEncrypt lib iv value (lib.sha256 agentPrivateKey))

def decryptSensitive (encryptedHex agentPrivateKey : Text) : Result :=
  aesDecrypt lib (fromHex encryptedHex) (lib.sha256 agentPrivateKey)

def eciesEncryptSecp256k1 (ephemeral iv data : Bytes) (recipientPubKeyHex : Text) : Result := do
  let sharedSecret ← orThrown (lib.computeSecret ephemeral (fromHex recipientPubKeyHex))
  let encrypted ← aesEncrypt lib iv data (derivedKey lib sharedSecret eciesHkdfInfo)
  let ephemeralPub ← orThrown (lib.publicKey ephemeral)
  return ephemeralPub ++ encrypted

def eciesDecryptSecp256k1 (blob : Bytes) (recipientPrivKeyHex : Text) : Result := do
  require (eciesMinBlob ≤ blob.length)
    (.error s!"ECIES blob too short: need at least {eciesMinBlob} bytes, got {blob.length}")
  let ephemeralPub := blob.take eciesPubkeyLength
  let encrypted := blob.drop eciesPubkeyLength
  let sharedSecret ← orThrown (lib.computeSecret (fromHex recipientPrivKeyHex) ephemeralPub)
  aesDecrypt lib encrypted (derivedKey lib sharedSecret eciesHkdfInfo)

def eciesEncryptX25519 (ephemeral iv data ed25519PubKey : Bytes) : Result := do
  let x25519PubKey ← orThrown (lib.toMontgomery ed25519PubKey)
  let sharedSecret ← orThrown (lib.diffieHellman ephemeral x25519PubKey)
  let encrypted ← aesEncrypt lib iv data (derivedKey lib sharedSecret eciesX25519HkdfInfo)
  return lib.x25519PublicKey ephemeral ++ encrypted

def eciesDecryptX25519 (blob : Bytes) (ed25519PrivKeyHex : Text) : Result := do
  require (x25519MinBlob ≤ blob.length)
    (.error s!"X25519 ECIES blob too short: need at least {x25519MinBlob} bytes, got {blob.length}")
  let ephemeralPub := blob.take x25519PubkeyLength
  let encrypted := blob.drop x25519PubkeyLength
  let x25519PrivKey ← orThrown (lib.toMontgomerySecret (fromHex ed25519PrivKeyHex))
  let sharedSecret ← orThrown (lib.diffieHellman x25519PrivKey ephemeralPub)
  aesDecrypt lib encrypted (derivedKey lib sharedSecret eciesX25519HkdfInfo)

def eciesEncrypt (ephemeral iv data : Bytes) (recipientPubKeyHex : Text) : Result :=
  let cleanKey := strip0x recipientPubKeyHex
  let keyBytes := fromHex cleanKey
  if keyBytes.length = x25519PubkeyLength then eciesEncryptX25519 lib ephemeral iv data keyBytes
  else
    let normKey :=
      if cleanKey.length = 68 ∧ cleanKey.take 2 = ['0', '1'] then cleanKey.drop 2 else cleanKey
    match eciesEncryptSecp256k1 lib ephemeral iv data normKey with
    | .ok blob => .ok blob
    | .error err => .error (.wrapping cleanKey.length err)

def eciesDecrypt (blob : Bytes) (recipientPrivKeyHex : Text) : Result :=
  if blob.length = 0 then .ok []
  else if x25519MinBlob ≤ blob.length ∧ blob.length < eciesMinBlob then
    eciesDecryptX25519 lib blob recipientPrivKeyHex
  else eciesDecryptSecp256k1 lib blob recipientPrivKeyHex

end Backend

/-! ## mcp/src/crypto.ts -/

namespace Mcp

/-- `createCipheriv` refuses a key of another length itself. -/
def aesEncrypt (iv plain key : Bytes) : Result := do
  require (key.length = keyLength) .thrown
  return nodeSeal lib iv plain key

def aesDecrypt (blob key : Bytes) : Result := do
  require (key.length = keyLength)
    (.error s!"AES key must be {keyLength} bytes, got {key.length}")
  require (ivLength + tagLength + 1 ≤ blob.length)
    (.error s!"AES blob too short: {blob.length} bytes")
  orThrown (nodeOpen lib blob key)

def eciesEncrypt (ephemeral iv payload : Bytes) (recipientPubHex : Text) : Result := do
  let pub := strip0x recipientPubHex
  let shared ← lib.sharedSecret (prefix0x (toHex ephemeral)) (prefix0x pub)
  let sharedX := (shared.drop 1).take 32
  let ephPub ← orThrown (lib.publicKey ephemeral)
  return ephPub ++ (← aesEncrypt lib iv payload (derivedKey lib sharedX eciesHkdfInfo))

def eciesDecrypt (blob : Bytes) (recipientPrivHex : Text) : Result := do
  require (eciesPubkeyLength + ivLength + tagLength + 1 ≤ blob.length)
    (.error s!"ECIES blob too short: {blob.length} bytes")
  let ephemeralPub := blob.take eciesPubkeyLength
  let encrypted := blob.drop eciesPubkeyLength
  let sharedX ← orThrown
    (lib.computeSecret (fromHex (strip0x recipientPrivHex)) ephemeralPub)
  aesDecrypt lib encrypted (derivedKey lib sharedX eciesHkdfInfo)

end Mcp

/-! ## backend/agents/worker.js -/

namespace Worker

def eciesDecryptK1 (blob : Bytes) (privKeyHex : Text) : Result :=
  Backend.eciesDecrypt lib blob (strip0x privKeyHex)

/-- The bytes of a brief, `briefBlob` being what the download gave. -/
def decryptBrief (briefBlob : Bytes) (wrappedKeyHex agentPrivateKey : Text) : Result := do
  let aesKey ← eciesDecryptK1 lib (fromHex wrappedKeyHex) agentPrivateKey
  Backend.aesDecrypt lib briefBlob aesKey

/-- The bytes a result is stored as, or nothing. -/
def sealResultForStorage (iv output : Bytes) (isPublicTask : Bool)
    (wrappedKeyHex privateKey : Text) : Except Failure (Option Bytes) :=
  if isPublicTask then return some output
  else if wrappedKeyHex = [] ∨ privateKey = [] then return none
  else do
    let taskKey ← eciesDecryptK1 lib (fromHex wrappedKeyHex) privateKey
    return some (← Backend.aesEncrypt lib iv output taskKey)

end Worker

/-! ## backend/src/services/keyCustodyService.ts -/

/-- `LocalKeyCustodyService` -/
structure LocalKeyCustody where
  privateKeyHex : Text
  publicKeyHex : Text
  keyId : Text
  deriving DecidableEq, Repr

namespace LocalKeyCustody

/-- The constructor; `sha256Hex` is SHA-256 in hexadecimal. -/
def make (sha256Hex : Bytes → Text) (privateKeyHex : Text) : Except Failure LocalKeyCustody := do
  let publicKey ← orThrown (lib.publicKey (fromHex privateKeyHex))
  let publicKeyHex := toHex publicKey
  return ⟨privateKeyHex, publicKeyHex, (sha256Hex (fromHex publicKeyHex)).take 16⟩

def rewrap (custody : LocalKeyCustody) (ephemeral iv : Bytes)
    (keyId blobHex recipientPubKeyHex : Text) : Except Failure Text := do
  let given := String.ofList keyId
  let active := String.ofList custody.keyId
  require (keyId = custody.keyId)
    (.error s!"unknown custody keyId {given} (active keyId is {active})")
  let aesKey ← Backend.eciesDecrypt lib (fromHex blobHex) custody.privateKeyHex
  return toHex (← Backend.eciesEncrypt lib ephemeral iv aesKey recipientPubKeyHex)

end LocalKeyCustody

end SealedBlobs
