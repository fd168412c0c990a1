/-
The download of a Private file (`sum-node/src/download_private.rs`,
`download_private_with_manifest`).

The caller looks itself up on the chain, opens the key bundle of its entry, and then does
what a Public download does: a manifest from some assigned archive, the chunks from theirs.
Whatever comes over the network is opened with the key and compared before it is written.
The disk is taken to work: a failure to create, write or read the output is left out.
-/
import Snip.Node.Access
import Snip.Node.DownloadPrivate

namespace Snip

/-- `PrivateDownloadError`; `panicked` stands for the `expect` of the key derivation. -/
inductive PrivateDownloadError where
  | access (e : AccessError)
  | noBundle
  | bundleHex (reason : String)
  | bundleUnwrap (e : CryptoError)
  | manifest (e : PrivateManifestError)
  | chunkFetch (e : CiphertextFetchError)
  | noBytes (chunkIndex : Nat)
  | read (e : PrivateReadError)
  | panicked

/-- The message of the error, with the text of the time that was allowed; a panic has none. -/
def PrivateDownloadError.message (timeout : String) : PrivateDownloadError → Option String
  | access e => some e.message
  | noBundle =>
      some ("access entry exists but carries no encrypted_key_bundle — chain rule should reject " ++
        "this at registration; refusing to proceed")
  | bundleHex reason =>
      some ("encrypted_key_bundle wire shape invalid (expected " ++ toString recipientBundleSize ++
        "-byte hex with optional 0x prefix): " ++ reason)
  | bundleUnwrap e =>
      some ("failed to unwrap K_file from access bundle (wrong derived X25519 key, or bundle " ++
        "tampered with): " ++ e.message)
  | manifest e => some e.message
  | chunkFetch e =>
      some ("ciphertext fetch failed for chunk " ++ toString e.chunk ++ ": " ++ e.message timeout)
  | noBytes i =>
      some ("ciphertext fetch failed for chunk " ++ toString i ++
        ": chunk fetch returned no bytes for index")
  | read e => some e.message
  | panicked => none

/-- The answers to the two queries of a phase, and what happens to it. -/
structure FetchPhase where
  nodes : Except Str (List NodeRecordInfo)
  replicationFactor : Except Str Nat
  /-- Whether the swarm takes requests when the phase starts. -/
  swarmRuns : Bool
  inputs : List LoopInput

/-- All that a download is given, and all that happens to it. -/
structure PrivateDownload where
  seed : Hash
  rpc : AccessRpc
  /-- The row, with the first page of its access list. -/
  info : FileInfoPage
  chainRoot : Hash
  maxConcurrent : Nat
  timeout : String
  manifestPhase : FetchPhase
  chunkPhase : FetchPhase

namespace PrivateDownload

/-- `parse_bundle_hex` of this file. -/
def parseBundleHex [SumchainWire] (text : Str) : Except PrivateDownloadError Bundle80 :=
  bundleOfHex .bundleHex text

/-- The caller's address as the access list spells it. -/
def myAddrB58 [Blake3] [Bs58] [SumchainWire] (d : PrivateDownload) : Str :=
  l1AddressBase58 (ownAddress d.seed)

/-- The expiry of an entry: the height is asked for where there is one. -/
def checkExpiry (rpc : AccessRpc) (entry : AccessEntryV2) : Except AccessError Unit :=
  if entry.expiresAt.isSome then
    match rpc.chainGetBlockHeight with
    | .error e => .error (.rpc e)
    | .ok height => checkAccessExpiry entry height
  else .ok ()

/-- Steps 2 to 6: `K_file`, from the caller's own entry. -/
def openKey [Blake3] [Bs58] [SumchainWire] [CryptoLib] (d : PrivateDownload) :
    Except PrivateDownloadError Hash :=
  match findMyAccessEntry d.rpc (fileRootHex d.chainRoot) d.myAddrB58 d.info with
  | .error e => .error (.access e)
  | .ok entry =>
      match entry.encryptedKeyBundle with
      | none => .error .noBundle
      | some bundleHex =>
          match parseBundleHex bundleHex with
          | .error e => .error e
          | .ok bundle =>
              match checkExpiry d.rpc entry with
              | .error e => .error (.access e)
              | .ok () =>
                  match x25519Secret d.seed with
                  | none => .error .panicked
                  | some x25519Secret =>
                      match unwrapForSelf bundle x25519Secret (ownAddress d.seed) with
                      | .error e => .error (.bundleUnwrap e)
                      | .ok kFile => .ok kFile

/-- Steps 13 to 15: every chunk of the manifest, opened and checked, one behind the other. -/
def assemble [Blake3] [CryptoLib] (kFile : Hash) (ciphertextChunks : List (Nat × Bytes)) :
    List ChunkDescriptor → Except PrivateDownloadError Bytes
  | [] => .ok []
  | cd :: rest =>
      match ciphertextChunks.lookup cd.chunkIndex with
      | none => .error (.noBytes cd.chunkIndex)
      | some ct =>
          match decryptAndVerifyChunk kFile cd ct with
          | .error e => .error (.read e)
          | .ok plaintext => (assemble kFile ciphertextChunks rest).map (plaintext ++ ·)

/-- What is made of the chunks that were fetched. -/
def write [Blake3] [CryptoLib] (kFile : Hash) (manifest : DataManifest)
    (ciphertextChunks : List (Nat × Bytes)) : Except PrivateDownloadError (DataManifest × Bytes) :=
  match assemble kFile ciphertextChunks manifest.chunks with
  | .error e => .error e
  | .ok output =>
      match checkFileHash output manifest.fileHash with
      | .error e => .error (.read e)
      | .ok () => .ok (manifest, output)

end PrivateDownload

/-- `download_private_with_manifest`, with the output; `none` while it is still going. -/
def downloadPrivateWithManifest [Blake3] [Bs58] [SumchainWire] [CryptoLib] [ManifestReader]
    [PeerOrder] [AssignmentScore] (d : PrivateDownload) :
    Option (Except PrivateDownloadError (DataManifest × Bytes)) :=
  match d.openKey with
  | .error e => some (.error e)
  | .ok kFile =>
      match fetchManifestV2 d.manifestPhase.nodes d.manifestPhase.replicationFactor
          d.info.toStorageFileInfoV2 d.chainRoot kFile d.timeout ∅ d.maxConcurrent
          d.manifestPhase.swarmRuns d.manifestPhase.inputs with
      | none => none
      | some (.error e) => some (.error (.manifest e))
      | some (.ok (manifest, peerAddresses)) =>
          match fetchAllCiphertextChunksV2 d.chunkPhase.nodes d.chunkPhase.replicationFactor
              d.info.toStorageFileInfoV2 manifest peerAddresses (max d.maxConcurrent 1)
              d.chunkPhase.swarmRuns d.chunkPhase.inputs with
          | none => none
          | some (.error e) => some (.error (.chunkFetch e))
          | some (.ok ciphertextChunks) =>
              some (PrivateDownload.write kFile manifest ciphertextChunks)

end Snip
