/-
The cryptography of Private files (`sum-crypto`): chunks, manifests and the key
bundles of the recipients.

HKDF-SHA256, ChaCha20-Poly1305 and X25519 come from libraries and are parameters.
A call of the cipher that fails makes the source panic (`expect`); here it is
`none`.  Random bytes are arguments.
-/
import Snip.Store.Assignment
import Snip.Store.Manifest

namespace Snip

/-- The libraries' functions. -/
class CryptoLib where
  /-- HKDF-SHA256: `expand(info, out)` after `new(Some(salt), ikm)`, for `out` of this length. -/
  hkdf (salt ikm info : Bytes) (outLen : Nat) : Bytes
  /-- ChaCha20-Poly1305, the tag behind the ciphertext. -/
  encrypt (key nonce aad msg : Bytes) : Option Bytes
  decrypt (key nonce aad msg : Bytes) : Option Bytes
  /-- `PublicKey::from(&StaticSecret::from(secret))`. -/
  publicKey (secret : Hash) : Hash
  diffieHellman (secret theirPublic : Hash) : Hash

/-- `CryptoError`. -/
inductive CryptoError where
  | invalidLength (expected got : Nat)
  | decryptionFailed
  | nonContributoryKey
deriving DecidableEq

/-- `TAG_SIZE`. -/
def tagSize : Nat := 16

/-- `RECIPIENT_BUNDLE_SIZE`. -/
def recipientBundleSize : Nat := 80

/-- `Bundle80`. -/
structure Bundle80 where
  bytes : Bytes
  size : bytes.length = recipientBundleSize
deriving DecidableEq

section

variable [CryptoLib]

/-- `hkdf_expand`. -/
def hkdfExpand (outLen : Nat) (salt ikm : Bytes) (info : String) : Bytes :=
  CryptoLib.hkdf salt ikm (utf8 info.toList) outLen

/-! ### Chunks -/

/-- `chunk_index.to_be_bytes()`: the salt of both derivations and the associated data. -/
def chunkSalt (chunkIndex : Nat) : Bytes := beBytes 4 chunkIndex

def chunkKey (kFile : Hash) (chunkIndex : Nat) : Bytes :=
  hkdfExpand 32 (chunkSalt chunkIndex) kFile.bytes "snip-chunk-key-v1"

def chunkNonce (kFile : Hash) (chunkIndex : Nat) : Bytes :=
  hkdfExpand 12 (chunkSalt chunkIndex) kFile.bytes "snip-chunk-nonce-v1"

/-- `encrypt_chunk`. -/
def encryptChunk (kFile : Hash) (chunkIndex : Nat) (plaintext : Bytes) : Option Bytes :=
  CryptoLib.encrypt (chunkKey kFile chunkIndex) (chunkNonce kFile chunkIndex)
    (chunkSalt chunkIndex) plaintext

/-- `decrypt_chunk`. -/
def decryptChunk (kFile : Hash) (chunkIndex : Nat) (onDisk : Bytes) : Except CryptoError Bytes :=
  match CryptoLib.decrypt (chunkKey kFile chunkIndex) (chunkNonce kFile chunkIndex)
      (chunkSalt chunkIndex) onDisk with
  | none => .error .decryptionFailed
  | some plaintext => .ok plaintext

/-! ### Manifests -/

/-- `ZERO_NONCE`, and `KEK_NONCE`. -/
def zeroNonce : Bytes := List.replicate 12 0

/-- `MANIFEST_AAD`. -/
def manifestAad : Bytes := utf8 "snip-manifest-v1".toList

/-- `manifest_key`. -/
def manifestKey (kFile : Hash) : Bytes := hkdfExpand 32 [] kFile.bytes "snip-manifest-key-v1"

/-- `encrypt_manifest`. -/
def encryptManifest (kFile : Hash) (manifestBytes : Bytes) : Option Bytes :=
  CryptoLib.encrypt (manifestKey kFile) zeroNonce manifestAad manifestBytes

/-- `decrypt_manifest`. -/
def decryptManifest (kFile : Hash) (stored : Bytes) : Except CryptoError Bytes :=
  match CryptoLib.decrypt (manifestKey kFile) zeroNonce manifestAad stored with
  | none => .error .decryptionFailed
  | some plaintext => .ok plaintext

/-! ### Key bundles -/

def recipientKek (shared : Hash) : Bytes := hkdfExpand 32 [] shared.bytes "snip-recipient-kek-v1"

/-- `shared_is_contributory`. -/
def sharedIsContributory (shared : Hash) : Bool := shared ≠ Hash.zero

/-- The bytes of a 20-byte address. -/
def Addr.bytes (a : Addr) : Bytes := beBytes 20 a.val

/-- `bundle[..32]` and `bundle[32..]` filled; another length than 48 panics in `copy_from_slice`. -/
def Bundle80.fill (ephPub : Hash) (ct : Bytes) : Option Bundle80 :=
  if h : ct.length = 48 then
    some ⟨ephPub.bytes ++ ct, by rw [List.length_append, ephPub.size, h]; rfl⟩
  else none

/-- `wrap_for_recipient`, with the seed the source draws for the ephemeral key. -/
def wrapForRecipient (ephSeed kFile : Hash) (recipientL1Address : Addr) (recipientEncPub : Hash) :
    Option (Except CryptoError Bundle80) :=
  let ephPub := CryptoLib.publicKey ephSeed
  let shared := CryptoLib.diffieHellman ephSeed recipientEncPub
  if !sharedIsContributory shared then some (.error .nonContributoryKey)
  else
    match CryptoLib.encrypt (recipientKek shared) zeroNonce recipientL1Address.bytes kFile.bytes with
    | none => none
    | some ct => (Bundle80.fill ephPub ct).map .ok

/-- `bundle[0..32]`. -/
def Bundle80.ephPub (b : Bundle80) : Hash :=
  ⟨b.bytes.take 32, by rw [List.length_take, b.size]; rfl⟩

/-- `bundle[32..80]`. -/
def Bundle80.wrapAndTag (b : Bundle80) : Bytes := b.bytes.drop 32

/-- `unwrap_for_self`. -/
def unwrapForSelf (bundle : Bundle80) (ownEncPriv : Hash) (ownL1Address : Addr) :
    Except CryptoError Hash :=
  let shared := CryptoLib.diffieHellman ownEncPriv bundle.ephPub
  if !sharedIsContributory shared then .error .nonContributoryKey
  else
    match CryptoLib.decrypt (recipientKek shared) zeroNonce ownL1Address.bytes
        bundle.wrapAndTag with
    | none => .error .decryptionFailed
    | some pt =>
        match Hash.ofBytes? pt with
        | none => .error .decryptionFailed
        | some kFile => .ok kFile

end

end Snip
