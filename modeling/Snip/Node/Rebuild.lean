/-
What the owner's commands make of the file at a path (`sum-node/src/ingest_v2.rs`).

`run_private` encrypts it under a key of its own.  `resume` and `repush` build a registered
file again: they read its row, get a Private file's key back from the owner's entry in it,
and compare the root.  The row is what they are given here; the gates before it is read
build nothing.
-/
import Snip.Node.Access
import Snip.Node.Deliveries

namespace Snip

/-- The row of a file as `resume` reads it. -/
structure RegisteredFilePage extends OwnedFilePage where
  createdAt : Nat
  activatedAtHeight : Option Nat
  abandonedAtHeight : Option Nat

/-- `IngestPipeline`: the owner's seed with the secret derived from it, and a limit. -/
structure IngestPipeline [CryptoLib] where
  signingKeySeed : Hash
  secret : Hash
  maxChunkCountPerFile : Nat
  derived : x25519Secret signingKeySeed = some secret

/-- Why `run_private` ends before it registers the file. -/
inductive RunPrivateStop where
  | encryption (e : PrivateIngestError)
  | tooManyChunks (manifest : DataManifest) (limit : Nat)

def RunPrivateStop.message : RunPrivateStop → Option String
  | encryption e => e.message
  | tooManyChunks manifest limit =>
      some ("private ingest: chunk_count " ++ toString manifest.chunkCount ++
        " exceeds max_chunk_count_per_file " ++ toString limit)

/-- How `resume` ends before it asks for the snapshot. -/
inductive ResumeStop where
  | notOwner (operatorB58 ownerB58 : Str)
  | keyRecovery (e : AccessOpError)
  | encryption (e : PrivateIngestError)
  | rootMismatch (expected actual : Hash) (manifest : DataManifest)
  | activeWithoutHeight (merkleRoot : Hash) (manifest : DataManifest)
  | activatedOnChain (merkleRoot : Hash) (manifest : DataManifest)
      (registerHeight activateHeight : Nat)
  | abandonedOnChain (merkleRoot : Hash) (manifest : DataManifest) (abandonedAtHeight : Option Nat)
  | unexpectedLifecycle (lifecycle : LifecycleV2) (manifest : DataManifest)

/-- The text of a failure; the other ends are outcomes of their own. -/
def ResumeStop.message [SumchainWire] : ResumeStop → Option String
  | notOwner operatorB58 ownerB58 =>
      some ("resume (Private): operator " ++ String.ofList operatorB58 ++
        " is not the file owner (" ++ String.ofList ownerB58 ++ "); cannot recover K_file")
  | keyRecovery e =>
      e.message.map fun text =>
        "resume (Private): K_file recovery from owner bundle failed: " ++ text
  | encryption _ => some "resume (Private): re-encryption with recovered K_file failed"
  | activeWithoutHeight merkleRoot _ =>
      some ("chain shape corruption: lifecycle=Active but activated_at_height is None for root " ++
        String.ofList (fileRootHex merkleRoot))
  | unexpectedLifecycle lifecycle _ =>
      some ("resume: unexpected lifecycle byte " ++ toString lifecycle ++
        " on chain (expected Pending/Active/Abandoned)")
  | rootMismatch .. | activatedOnChain .. | abandonedOnChain .. => none

/-- How `repush` ends before it asks for the targets. -/
inductive RepushStop where
  | abandonedOnChain (merkleRoot : Hash)
  | unexpectedLifecycle (lifecycle : LifecycleV2)
  | notOwner (operatorB58 ownerB58 : Str)
  | keyRecovery (e : AccessOpError)
  | encryption (e : PrivateIngestError)
  | rootMismatch (expected actual : Hash)
  | differs (mismatches : List String)

/-- The text of a failure, or the reason of an identity mismatch. -/
def RepushStop.message [SumchainWire] : RepushStop → Option String
  | unexpectedLifecycle lifecycle =>
      some ("repush: unexpected lifecycle byte " ++ toString lifecycle ++ " on chain")
  | notOwner operatorB58 ownerB58 =>
      some ("operator " ++ String.ofList operatorB58 ++ " is not the registered owner " ++
        String.ofList ownerB58)
  | keyRecovery e =>
      e.message.map fun text =>
        "repush (Private): K_file recovery from the owner's bundle failed: " ++ text
  | encryption _ => some "repush (Private): re-encryption failed"
  | differs mismatches =>
      some ("the rebuilt file differs: " ++ String.intercalate ", " mismatches)
  | abandonedOnChain _ | rootMismatch .. => none

/-- `ReproducedFile`, and what `resume` keeps of a file it has rebuilt. -/
structure ReproducedFile where
  manifest : DataManifest
  /-- The file that the chunks are cut from. -/
  mapped : Bytes
  /-- The manifest as the archives get it. -/
  manifestBytes : Bytes
  storedSizeBytes : Nat

def ReproducedFile.tree [Blake3] (file : ReproducedFile) : MerkleTree :=
  MerkleTree.build file.manifest.leaves

/-- Every request that the file may have to send. -/
def ReproducedFile.deliveries [Blake3] (file : ReproducedFile) : List ShardRequestV2 :=
  Snip.deliveries file.manifest file.mapped (some file.manifestBytes)

def ReproducedFile.ofPrivate (a : PrivateArtifacts) : ReproducedFile :=
  ⟨a.manifest, a.ciphertext, a.encryptedManifestBytes, a.storedSizeBytes⟩

/-- `s0_chunk`, and the manifest as CBOR. -/
def ReproducedFile.ofPublic [Blake3] (fileName : Str) (mapped : Bytes) : ReproducedFile :=
  let manifest := chunkMapped fileName mapped
  ⟨manifest, mapped, manifestToCbor manifest, manifest.totalSizeBytes⟩

/-- The mismatches of `repush`, of what the row says and what was rebuilt. -/
def rebuildMismatches (info : StorageFileInfoV2) (file : ReproducedFile) : List String :=
  (if file.manifest.chunkCount ≠ info.chunkCount then
    ["chunk count " ++ toString file.manifest.chunkCount ++ " (registered " ++
      toString info.chunkCount ++ ")"] else []) ++
  (if file.manifest.totalSizeBytes ≠ info.plaintextSizeBytes then
    ["plaintext size " ++ toString file.manifest.totalSizeBytes ++ " (registered " ++
      toString info.plaintextSizeBytes ++ ")"] else []) ++
  (if file.storedSizeBytes ≠ info.storedSizeBytes then
    ["stored size " ++ toString file.storedSizeBytes ++ " (registered " ++
      toString info.storedSizeBytes ++ ")"] else [])

/-- `recover_k_file_from_seed_page`: no page after the first is asked for. -/
def recoverKFileFromSeedPage [SumchainWire] [CryptoLib] (seed : Hash) (ownerAddr : Addr)
    (ownerB58 : Str) (seedPage : OwnedFilePage) : Except AccessOpError Hash :=
  match seedPage.accessList.find? (·.address = ownerB58) with
  | none => .error (.ownerEntryMissing ownerB58)
  | some entry => unwrapOwnerEntry seed ownerAddr entry

namespace IngestPipeline

section

variable [Blake3] [Bs58] [SumchainWire] [CryptoLib] (p : IngestPipeline)

def myAddr : Addr := ownAddress p.signingKeySeed

def myAddrBase58 : Str := l1AddressBase58 p.myAddr

/-- The key in the owner's entry. -/
def recoverKFile (info : OwnedFilePage) : Except AccessOpError Hash :=
  recoverKFileFromSeedPage p.signingKeySeed p.myAddr p.myAddrBase58 info

/-- The spec of the command line: the bundle of the owner is for the derived key. -/
def spec (recipients : List PrivateRecipient) : PrivateIngestSpec :=
  ⟨p.myAddr, CryptoLib.publicKey p.secret, recipients⟩

/-- `run_private`, from the encryption to the check of the chunk count. -/
def runPrivate (kFile : Hash) (ephSeeds : Nat → Hash) (fileName : Str) (plaintext : Bytes)
    (recipients : List PrivateRecipient) : Except RunPrivateStop PrivateEncrypted :=
  match encryptForPrivate kFile ephSeeds fileName plaintext (p.spec recipients) with
  | .error e => .error (.encryption e)
  | .ok encrypted =>
      if p.maxChunkCountPerFile < encrypted.artifacts.manifest.chunkCount then
        .error (.tooManyChunks encrypted.artifacts.manifest p.maxChunkCountPerFile)
      else .ok encrypted

/-- The part of `resume` that depends on the visibility. -/
def resumeRebuild (info : RegisteredFilePage) (merkleRoot : Hash) (fileName : Str)
    (content : Bytes) : Except ResumeStop ReproducedFile :=
  if info.visibility.isPrivate then
    if info.owner ≠ p.myAddrBase58 then .error (.notOwner p.myAddrBase58 info.owner)
    else
      match p.recoverKFile info.toOwnedFilePage with
      | .error e => .error (.keyRecovery e)
      | .ok kFile =>
          match buildPrivateArtifacts fileName content kFile with
          | .error e => .error (.encryption e)
          | .ok a =>
              if a.manifest.merkleRoot ≠ merkleRoot then
                .error (.rootMismatch merkleRoot a.manifest.merkleRoot a.manifest)
              else .ok (.ofPrivate a)
  else
    let file := ReproducedFile.ofPublic fileName content
    if file.manifest.merkleRoot ≠ merkleRoot then
      .error (.rootMismatch merkleRoot file.manifest.merkleRoot file.manifest)
    else .ok file

/-- `resume` from the row to the last check of the lifecycle. -/
def resumeFile (info : RegisteredFilePage) (merkleRoot : Hash) (fileName : Str) (content : Bytes) :
    Except ResumeStop ReproducedFile :=
  match p.resumeRebuild info merkleRoot fileName content with
  | .error e => .error e
  | .ok file =>
      if info.lifecycle.isActive then
        match info.activatedAtHeight with
        | none => .error (.activeWithoutHeight merkleRoot file.manifest)
        | some height => .error (.activatedOnChain merkleRoot file.manifest info.createdAt height)
      else if info.lifecycle.isAbandoned then
        .error (.abandonedOnChain merkleRoot file.manifest info.abandonedAtHeight)
      else if !info.lifecycle.isPending then
        .error (.unexpectedLifecycle info.lifecycle file.manifest)
      else .ok file

/-- `reproduce_registered`. -/
def reproduceRegistered (info : OwnedFilePage) (merkleRoot : Hash) (fileName : Str)
    (content : Bytes) : Except RepushStop ReproducedFile :=
  if info.visibility.isPrivate then
    match p.recoverKFile info with
    | .error e => .error (.keyRecovery e)
    | .ok kFile =>
        match buildPrivateArtifacts fileName content kFile with
        | .error e => .error (.encryption e)
        | .ok a =>
            if a.manifest.merkleRoot ≠ merkleRoot then
              .error (.rootMismatch merkleRoot a.manifest.merkleRoot)
            else .ok (.ofPrivate a)
  else
    let file := ReproducedFile.ofPublic fileName content
    if file.manifest.merkleRoot ≠ merkleRoot then
      .error (.rootMismatch merkleRoot file.manifest.merkleRoot)
    else .ok file

/-- `repush` from the row to the comparison of the sizes. -/
def repushFile (info : OwnedFilePage) (merkleRoot : Hash) (fileName : Str) (content : Bytes) :
    Except RepushStop ReproducedFile :=
  if info.lifecycle.isAbandoned then .error (.abandonedOnChain merkleRoot)
  else if !info.lifecycle.isActive && !info.lifecycle.isPending then
    .error (.unexpectedLifecycle info.lifecycle)
  else if info.owner ≠ p.myAddrBase58 then .error (.notOwner p.myAddrBase58 info.owner)
  else
    match p.reproduceRegistered info merkleRoot fileName content with
    | .error e => .error e
    | .ok file =>
        match rebuildMismatches info.toStorageFileInfoV2 file with
        | [] => .ok file
        | mismatches => .error (.differs mismatches)

end

end IngestPipeline

end Snip
