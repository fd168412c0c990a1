/-
What a Private file becomes on the owner's side (`sum-node/src/ingest_v2.rs`:
`build_private_artifacts`, `encrypt_for_private`) and how a reader takes it apart again
(`sum-node/src/download_private.rs`).

The functions start from the last component of the path and the file's content;
opening, mapping and writing files is left out.  The ciphertext file is the chunk
ciphertexts one after the other, and a chunk is what lies at its descriptor's
offset.
-/
import Snip.Crypto
import Snip.Store.Chunker

namespace Snip

/-- `PRIVATE_PLAINTEXT_CHUNK_SIZE`. -/
def privatePlaintextChunkSize : Nat := chunkSize - tagSize

/-- `PrivateArtifacts`. -/
structure PrivateArtifacts where
  ciphertext : Bytes
  manifest : DataManifest
  encryptedManifestBytes : Bytes
  storedSizeBytes : Nat

/-- What a chunk descriptor points at: `ciphertext_mmap[offset..offset + size]`. -/
def PrivateArtifacts.chunkBytes (a : PrivateArtifacts) (d : ChunkDescriptor) : Bytes :=
  slice a.ciphertext d.offset (d.offset + d.size)

/-- Why a file is not encrypted; `panicked` stands for an `expect` that fails. -/
inductive PrivateIngestError where
  | emptyFile
  | chunkCountOverflow
  | ciphertextOffsetOverflow
  | storedTotalOverflow
  | wrapForOwner (e : CryptoError)
  | wrapForRecipient (address : Addr) (e : CryptoError)
  | panicked
deriving DecidableEq

def CryptoError.debug : CryptoError → String
  | invalidLength expected got =>
      "InvalidLength \x7b expected: " ++ toString expected ++ ", got: " ++ toString got ++ " \x7d"
  | decryptionFailed => "DecryptionFailed"
  | nonContributoryKey => "NonContributoryKey"

/-- The message of the error; a panic has none of these. -/
def PrivateIngestError.message : PrivateIngestError → Option String
  | emptyFile => some "private artifacts: empty file is not supported"
  | chunkCountOverflow => some "private artifacts: chunk_count overflows u32"
  | ciphertextOffsetOverflow => some "private artifacts: ciphertext offset overflow"
  | storedTotalOverflow => some "private artifacts: stored_total overflow"
  | wrapForOwner e => some ("private ingest: wrap K_file for owner failed: " ++ e.debug)
  | wrapForRecipient address e =>
      some ("private ingest: wrap K_file for recipient 0x" ++ Addr.hex address ++ " failed: " ++
        e.debug)
  | panicked => none

/-- `u64::checked_add`. -/
def checkedAdd64 (a b : Nat) : Option Nat := if a + b < 2 ^ 64 then some (a + b) else none

/-- The plaintext of chunk `i`. -/
def privateChunkPlaintext (plaintext : Bytes) (i : Nat) : Bytes :=
  slice plaintext (i * privatePlaintextChunkSize)
    (min (i * privatePlaintextChunkSize + privatePlaintextChunkSize) plaintext.length)

section

variable [Blake3] [CryptoLib]

/-- What the loop over the chunks has put together: file, descriptors and total size. -/
structure EncryptLoop where
  written : Bytes
  chunks : List ChunkDescriptor
  offset : Nat
  storedTotal : Nat

/-- The body of the loop. -/
def EncryptLoop.step (kFile : Hash) (plaintext : Bytes) (l : EncryptLoop) (i : Nat) :
    Except PrivateIngestError EncryptLoop :=
  let pt := privateChunkPlaintext plaintext i
  match encryptChunk kFile i pt with
  | none => .error .panicked
  | some ct =>
      let descriptor : ChunkDescriptor :=
        ⟨i, l.offset, ct.length, Blake3.hash ct, cidFromData ct, some (Blake3.hash pt)⟩
      match checkedAdd64 l.offset ct.length with
      | none => .error .ciphertextOffsetOverflow
      | some offset =>
          match checkedAdd64 l.storedTotal ct.length with
          | none => .error .storedTotalOverflow
          | some storedTotal =>
              .ok ⟨l.written ++ ct, l.chunks ++ [descriptor], offset, storedTotal⟩

/-- The loop over the chunk indices. -/
def EncryptLoop.run (kFile : Hash) (plaintext : Bytes) :
    EncryptLoop → List Nat → Except PrivateIngestError EncryptLoop
  | l, [] => .ok l
  | l, i :: rest =>
      match l.step kFile plaintext i with
      | .error e => .error e
      | .ok l => EncryptLoop.run kFile plaintext l rest

/-- `build_private_artifacts`. -/
def buildPrivateArtifacts (fileName : Str) (plaintext : Bytes) (kFile : Hash) :
    Except PrivateIngestError PrivateArtifacts :=
  if plaintext.length = 0 then .error .emptyFile
  else
    let chunkCount :=
      (plaintext.length + privatePlaintextChunkSize - 1) / privatePlaintextChunkSize
    if 2 ^ 32 ≤ chunkCount then .error .chunkCountOverflow
    else
      match EncryptLoop.run kFile plaintext ⟨[], [], 0, 0⟩ (List.range chunkCount) with
      | .error e => .error e
      | .ok l =>
          let tree := MerkleTree.build (l.chunks.map ChunkDescriptor.blake3Hash)
          let manifest : DataManifest :=
            ⟨fileName, Blake3.hash plaintext, plaintext.length, chunkCount, tree.root, l.chunks⟩
          match encryptManifest kFile (manifestToCbor manifest) with
          | none => .error .panicked
          | some encryptedManifestBytes =>
              .ok ⟨l.written, manifest, encryptedManifestBytes, l.storedTotal⟩

/-! ### The bundles -/

/-- `PrivateRecipient`; the owner is one that never expires. -/
structure PrivateRecipient where
  l1Address : Addr
  x25519Pubkey : Hash
  expiresAt : Option Nat

/-- `PrivateIngestSpec`. -/
structure PrivateIngestSpec where
  ownerL1Address : Addr
  ownerX25519Pubkey : Hash
  recipients : List PrivateRecipient

/-- Everyone the key is wrapped for, in the order of the wraps. -/
def PrivateIngestSpec.readers (spec : PrivateIngestSpec) : List PrivateRecipient :=
  ⟨spec.ownerL1Address, spec.ownerX25519Pubkey, none⟩ :: spec.recipients

/-- `AccessEntryV2Mirror`. -/
structure AccessEntryV2Mirror where
  address : Addr
  encryptedKeyBundle : Option Bundle80
  expiresAt : Option Nat

/-- `PrivateEncrypted`. -/
structure PrivateEncrypted where
  artifacts : PrivateArtifacts
  initialAccess : List AccessEntryV2Mirror

/-- One `wrap_for_recipient` and the entry it gives. -/
def wrapEntry (ephSeed kFile : Hash) (r : PrivateRecipient)
    (onError : CryptoError → PrivateIngestError) :
    Except PrivateIngestError AccessEntryV2Mirror :=
  match wrapForRecipient ephSeed kFile r.l1Address r.x25519Pubkey with
  | none => .error .panicked
  | some (.error e) => .error (onError e)
  | some (.ok bundle) => .ok ⟨r.l1Address, some bundle, r.expiresAt⟩

/-- The loop over the recipients; `j` is the number of the draw. -/
def wrapRecipients (ephSeeds : Nat → Hash) (kFile : Hash) :
    Nat → List PrivateRecipient → Except PrivateIngestError (List AccessEntryV2Mirror)
  | _, [] => .ok []
  | j, r :: rest =>
      match wrapEntry (ephSeeds j) kFile r (.wrapForRecipient r.l1Address) with
      | .error e => .error e
      | .ok entry => (wrapRecipients ephSeeds kFile (j + 1) rest).map (entry :: ·)

/-- `encrypt_for_private`, with the key and the seeds it draws. -/
def encryptForPrivate (kFile : Hash) (ephSeeds : Nat → Hash) (fileName : Str) (plaintext : Bytes)
    (spec : PrivateIngestSpec) : Except PrivateIngestError PrivateEncrypted :=
  match buildPrivateArtifacts fileName plaintext kFile with
  | .error e => .error e
  | .ok artifacts =>
      let owner : PrivateRecipient := ⟨spec.ownerL1Address, spec.ownerX25519Pubkey, none⟩
      match wrapEntry (ephSeeds 0) kFile owner .wrapForOwner with
      | .error e => .error e
      | .ok entry =>
          (wrapRecipients ephSeeds kFile 1 spec.recipients).map fun entries =>
            ⟨artifacts, entry :: entries⟩

/-! ### Reading -/

/-- The errors of the reading functions (`PrivateDownloadError`). -/
inductive PrivateReadError where
  | manifestDecrypt (e : CryptoError)
  | manifestParse (e : Str)
  | manifestRootMismatch (got expected : Hash)
  | manifestMerkleMismatch
  | chunkDecrypt (idx : Nat) (e : CryptoError)
  | missingPlaintextHash (idx : Nat)
  | plaintextHashMismatch (idx : Nat)
  | fileHashMismatch (got expected : Hash)

/-- `decrypt_and_verify_manifest`. -/
def decryptAndVerifyManifest [ManifestReader] (kFile : Hash) (encryptedBytes : Bytes)
    (chainRoot : Hash) : Except PrivateReadError DataManifest :=
  match decryptManifest kFile encryptedBytes with
  | .error e => .error (.manifestDecrypt e)
  | .ok plaintext =>
      match ManifestReader.fromCbor plaintext with
      | .error e => .error (.manifestParse e)
      | .ok manifest =>
          if manifest.merkleRoot ≠ chainRoot then
            .error (.manifestRootMismatch manifest.merkleRoot chainRoot)
          else if (MerkleTree.build manifest.leaves).root ≠ chainRoot then
            .error .manifestMerkleMismatch
          else .ok manifest

/-- `decrypt_and_verify_chunk`. -/
def decryptAndVerifyChunk (kFile : Hash) (descriptor : ChunkDescriptor) (ciphertext : Bytes) :
    Except PrivateReadError Bytes :=
  match decryptChunk kFile descriptor.chunkIndex ciphertext with
  | .error e => .error (.chunkDecrypt descriptor.chunkIndex e)
  | .ok plaintext =>
      match descriptor.plaintextBlake3Hash with
      | none => .error (.missingPlaintextHash descriptor.chunkIndex)
      | some expectedPtHash =>
          if Blake3.hash plaintext ≠ expectedPtHash then
            .error (.plaintextHashMismatch descriptor.chunkIndex)
          else .ok plaintext

omit [CryptoLib] in
/-- `check_file_hash`, on the content of the file. -/
def checkFileHash (output : Bytes) (expected : Hash) : Except PrivateReadError Unit :=
  if Blake3.hash output ≠ expected then .error (.fileHashMismatch (Blake3.hash output) expected)
  else .ok ()

/-- Every chunk in the order of the manifest, one plaintext behind the other. -/
def decryptChunks (kFile : Hash) (bytesOf : ChunkDescriptor → Bytes) :
    List ChunkDescriptor → Except PrivateReadError Bytes
  | [] => .ok []
  | d :: rest =>
      match decryptAndVerifyChunk kFile d (bytesOf d) with
      | .error e => .error e
      | .ok plaintext => (decryptChunks kFile bytesOf rest).map (plaintext ++ ·)

end

end Snip
