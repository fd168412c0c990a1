/-
The calls of the owner that encrypt a Private file, one after the other
(`sum-node/src/ingest_v2.rs`): `run_private`, `resume` and `repush`.

A call that passes its checks pushes chunks and the manifest.  Which of them, to whom and
how often is for the network and the coverage to say, so a call comes with the requests
that went out.
-/
import Snip.Lib.Steps
import Snip.Node.Rebuild

namespace Snip

section

variable [Blake3] [Bs58] [SumchainWire] [CryptoLib]

/-- A file that `run_private` has encrypted and goes on to register. -/
structure PrivateFile (p : IngestPipeline) where
  kFile : Hash
  ephSeeds : Nat → Hash
  fileName : Str
  plaintext : Bytes
  recipients : List PrivateRecipient
  encrypted : PrivateEncrypted
  built : p.runPrivate kFile ephSeeds fileName plaintext recipients = .ok encrypted

variable {p : IngestPipeline}

def PrivateFile.merkleRoot (file : PrivateFile p) : Hash :=
  file.encrypted.artifacts.manifest.merkleRoot

/--
The row is the file's: Private, with the sizes that were registered and, under the owner's
address, the bundle that was.
-/
structure PrivateFile.ShownBy (file : PrivateFile p) (info : OwnedFilePage) : Prop where
  visibility : info.visibility.isPrivate = true
  chunkCount : info.chunkCount = file.encrypted.artifacts.manifest.chunkCount
  plaintextSize : info.plaintextSizeBytes = file.plaintext.length
  storedSize : info.storedSizeBytes = file.encrypted.artifacts.storedSizeBytes
  ownerEntry : ∀ entry ∈ info.accessList, entry.address = p.myAddrBase58 →
    ∃ text bundle, entry.encryptedKeyBundle = some text ∧ parseBundleHex text = .ok bundle ∧
      file.encrypted.initialAccess.head? = some ⟨p.myAddr, some bundle, none⟩

/-- A call with what lies at its path, and the requests that it sends. -/
inductive PrivateCall (p : IngestPipeline) where
  | runPrivate (file : PrivateFile p) (requests : List ShardRequestV2)
  | resume (file : PrivateFile p) (info : RegisteredFilePage) (fileName : Str) (plaintext : Bytes)
      (requests : List ShardRequestV2)
  | repush (file : PrivateFile p) (info : OwnedFilePage) (fileName : Str) (plaintext : Bytes)
      (requests : List ShardRequestV2)

namespace PrivateCall

/-- The file that is registered, or was. -/
def file : PrivateCall p → PrivateFile p
  | .runPrivate file _ | .resume file .. | .repush file .. => file

/-- The last component of the path. -/
def fileName : PrivateCall p → Str
  | .runPrivate file _ => file.fileName
  | .resume _ _ fileName .. | .repush _ _ fileName .. => fileName

/-- What is encrypted. -/
def plaintext : PrivateCall p → Bytes
  | .runPrivate file _ => file.plaintext
  | .resume _ _ _ plaintext _ | .repush _ _ _ plaintext _ => plaintext

def requests : PrivateCall p → List ShardRequestV2
  | .runPrivate _ requests | .resume _ _ _ _ requests | .repush _ _ _ _ requests => requests

/-- The key that the call encrypts with, if it has one. -/
def kFile? : PrivateCall p → Option Hash
  | .runPrivate file _ => some file.kFile
  | .resume _ info .. => (p.recoverKFile info.toOwnedFilePage).toOption
  | .repush _ info .. => (p.recoverKFile info).toOption

/-- The requests, each with the key of the call. -/
def sent (call : PrivateCall p) : List (Hash × ShardRequestV2) :=
  call.requests.filterMap fun request => call.kFile?.map fun kFile => (kFile, request)

end PrivateCall

/--
One call.  A key is drawn that no file has, and a row that is read is the one of a file that
was registered.
-/
inductive PrivateStep : List (PrivateFile p) → PrivateCall p → List (PrivateFile p) → Prop
  | runPrivate {files : List (PrivateFile p)} {file : PrivateFile p}
      {requests : List ShardRequestV2} (fresh : ∀ other ∈ files, other.kFile ≠ file.kFile)
      (sends : requests ⊆ file.encrypted.artifacts.deliveries) :
      PrivateStep files (.runPrivate file requests) (file :: files)
  | resume {files : List (PrivateFile p)} {file : PrivateFile p} {info : RegisteredFilePage}
      {fileName : Str} {plaintext : Bytes} {requests : List ShardRequestV2}
      {rebuilt : ReproducedFile}
      (known : file ∈ files) (shown : file.ShownBy info.toOwnedFilePage)
      (passes : p.resumeFile info file.merkleRoot fileName plaintext = .ok rebuilt)
      (sends : requests ⊆ rebuilt.deliveries) :
      PrivateStep files (.resume file info fileName plaintext requests) files
  | repush {files : List (PrivateFile p)} {file : PrivateFile p} {info : OwnedFilePage}
      {fileName : Str} {plaintext : Bytes} {requests : List ShardRequestV2}
      {rebuilt : ReproducedFile}
      (known : file ∈ files) (shown : file.ShownBy info)
      (passes : p.repushFile info file.merkleRoot fileName plaintext = .ok rebuilt)
      (sends : requests ⊆ rebuilt.deliveries) :
      PrivateStep files (.repush file info fileName plaintext requests) files

end

end Snip
