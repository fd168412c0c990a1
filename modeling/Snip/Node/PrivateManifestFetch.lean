/-
The manifest of a Private file (`sum-node/src/download_private.rs`, `fetch_manifest_v2`).

The loop is a copy of the one for Public manifests with its own selector, a fan-out of at
most three and a decryption in place of the decoding.  It has no arm for a request that
failed, and a wave whose requests cannot be queued picks no others in their place.
-/
import Snip.Node.DownloadV2
import Snip.Node.PrivateArtifacts

namespace Snip

def CryptoError.message : CryptoError → String
  | invalidLength expected got =>
      "invalid input length: expected " ++ toString expected ++ ", got " ++ toString got
  | decryptionFailed => "decryption failed (authentication tag mismatch)"
  | nonContributoryKey => "non-contributory X25519 key (low-order point detected)"

def PrivateReadError.message : PrivateReadError → String
  | manifestDecrypt e =>
      "manifest decryption failed (wrong K_file? tampered manifest?): " ++ e.message
  | manifestParse e => "manifest CBOR parse failed: " ++ String.ofList e
  | manifestRootMismatch got expected =>
      "manifest's merkle_root " ++ String.ofList (hexEncode got.bytes) ++ " != chain merkle_root " ++
        String.ofList (hexEncode expected.bytes)
  | manifestMerkleMismatch =>
      "manifest's per-chunk ciphertext hashes do not Merkle-rebuild to the chain root"
  | chunkDecrypt idx e =>
      "chunk " ++ toString idx ++ " decryption failed (wrong K_file? tampered ciphertext?): " ++
        e.message
  | missingPlaintextHash idx =>
      "Private chunk " ++ toString idx ++ " missing required plaintext_blake3_hash — a Phase 4a " ++
        "Private file always carries Some(_); refusing"
  | plaintextHashMismatch idx => "chunk " ++ toString idx ++ " plaintext hash mismatch"
  | fileHashMismatch got expected =>
      "whole-file plaintext hash mismatch (got " ++ String.ofList (hexEncode got.bytes) ++
        ", expected " ++ String.ofList (hexEncode expected.bytes) ++ ")"

/-- `last_reason`; `timeout` is the text of the time that was allowed. -/
inductive PrivateManifestReason where
  | noResponses
  | peerError (archive : Addr) (e : Str)
  | validation (archive : Addr) (e : PrivateReadError)
  | deadlineExceeded (timeout : String) (previous : PrivateManifestReason)
  | networkShutDown (previous : PrivateManifestReason)

def PrivateManifestReason.message : PrivateManifestReason → String
  | noResponses => "no responses received"
  | peerError archive e => "archive " ++ Addr.hex archive ++ " peer error: " ++ String.ofList e
  | validation archive e => "archive " ++ Addr.hex archive ++ " validation: " ++ e.message
  | deadlineExceeded timeout previous =>
      "manifest fetch deadline exceeded after " ++ timeout ++ "; previous: " ++ previous.message
  | networkShutDown previous => "network shut down mid-fetch; previous: " ++ previous.message

/-- The errors of `fetch_manifest_v2`. -/
inductive PrivateManifestError where
  | snapshot (e : Str)
  | snapshotAddrParse
  | snapshotEmpty (height : Nat)
  | chainParams (e : Str)
  | noArchives (chunkCount : Nat)
  | allArchivesFailed (assignedTotal tried resolvable : Nat) (lastReason : PrivateManifestReason)

def PrivateManifestError.message : PrivateManifestError → String
  | snapshot e =>
      "encrypted manifest fetch failed: storage_getActiveNodesAtHeight: " ++ String.ofList e
  | snapshotAddrParse => "encrypted manifest fetch failed: snapshot l1 address parse"
  | snapshotEmpty height =>
      "encrypted manifest fetch failed: snapshot at assignment_height=" ++ toString height ++
        " has no eligible ArchiveNode/Active archives — cannot route manifest request"
  | chainParams e => "encrypted manifest fetch failed: chain_getChainParams: " ++ String.ofList e
  | noArchives chunkCount =>
      "encrypted manifest fetch failed: file has 0 V2-assigned archives (chunk_count=" ++
        toString chunkCount ++ "); cannot fetch manifest"
  | allArchivesFailed assignedTotal tried resolvable lastReason =>
      "encrypted manifest fetch exhausted all V2-assigned archives: tried " ++ toString tried ++
        " of " ++ toString assignedTotal ++ " (" ++ toString resolvable ++ " resolvable, " ++
        toString (assignedTotal - resolvable) ++ " unresolvable); last error: " ++
        lastReason.message

/-- `distinct_assigned`: the archives of all chunks, on the answers to the two queries. -/
def distinctAssignedArchives [AssignmentScore] (nodes : Except Str (List NodeRecordInfo))
    (replicationFactor : Except Str Nat) (info : StorageFileInfoV2) (chainRoot : Hash) :
    Except PrivateManifestError (Finset Addr) :=
  match nodes with
  | .error e => .error (.snapshot e)
  | .ok records =>
      match (records.filter NodeRecordInfo.isActiveArchive).mapM NodeRecordInfo.address with
      | none => .error .snapshotAddrParse
      | some addresses =>
          let snapshot := addresses.insertionSort (· ≤ ·)
          if snapshot = [] then .error (.snapshotEmpty info.assignmentHeight)
          else
            match replicationFactor with
            | .error e => .error (.chainParams e)
            | .ok r =>
                let assigned := ((List.range info.chunkCount).flatMap fun chunkIndex =>
                  assignedArchives chainRoot snapshot chunkIndex r).toFinset
                if assigned = ∅ then .error (.noArchives info.chunkCount) else .ok assigned

/-- `compute_manifest_fanout`. -/
def computeManifestFanout (maxConcurrent assignedSize : Nat) : Nat :=
  if assignedSize = 0 then 0 else min (min (max maxConcurrent 1) 3) assignedSize

/-- The first `remaining` archives with a peer, in the order given. -/
def takeTargets (peers : Addr → Option PeerId) : Nat → List Addr → List (PeerId × Addr)
  | _, [] => []
  | 0, _ => []
  | remaining + 1, addr :: rest =>
      match peers addr with
      | none => takeTargets peers (remaining + 1) rest
      | some peerId => (peerId, addr) :: takeTargets peers remaining rest

/-- `select_manifest_dispatch`. -/
def selectManifestDispatch (archiveStatus : Map Addr ManifestArchiveStatus)
    (peers : Addr → Option PeerId) (fanout : Nat) : List (PeerId × Addr) :=
  let inFlight := archiveStatus.entries.countP fun e => e.2 = .dispatched
  if fanout ≤ inFlight then []
  else
    let untried := (archiveStatus.keys.filter fun a =>
      archiveStatus.lookup a = some .untried).insertionSort (· ≤ ·)
    takeTargets peers (fanout - inFlight) untried

/-- The variables of the loop. -/
structure PrivateManifestFetch where
  archiveStatus : Map Addr ManifestArchiveStatus
  dispatchedPeers : Map PeerId Addr
  peerAddresses : Map PeerId Addr
  lastReason : PrivateManifestReason

namespace PrivateManifestFetch

/-- One target of a wave: its request is queued, or the archive is given up. -/
def dispatchOne (swarmRuns : Bool) (f : PrivateManifestFetch) (target : PeerId × Addr) :
    PrivateManifestFetch :=
  if swarmRuns then
    { f with
      archiveStatus := f.archiveStatus.insert target.2 .dispatched
      dispatchedPeers := f.dispatchedPeers.insert target.1 target.2 }
  else { f with archiveStatus := f.archiveStatus.insert target.2 .failed }

/-- `dispatch_wave`; with it the manifest pulls that are sent. -/
def dispatchWave [PeerOrder] (f : PrivateManifestFetch) (fanout : Nat) (swarmRuns : Bool) :
    PrivateManifestFetch × List (PeerId × Addr) :=
  let dispatches := selectManifestDispatch f.archiveStatus (addrToPeer f.peerAddresses) fanout
  (dispatches.foldl (dispatchOne swarmRuns) f, if swarmRuns then dispatches else [])

/-- `build_all_failed`. -/
def allFailed [PeerOrder] (f : PrivateManifestFetch) (assigned : Finset Addr)
    (reason : PrivateManifestReason) : PrivateManifestError :=
  .allArchivesFailed assigned.card (f.archiveStatus.entries.countP fun e => e.2 ≠ .untried)
    (assigned.filter fun a => (addrToPeer f.peerAddresses a).isSome).card reason

def anyAlive (f : PrivateManifestFetch) : Bool := f.archiveStatus.entries.any fun e => e.2 ≠ .failed

def initial (assigned : Finset Addr) (peerAddresses : Map PeerId Addr) : PrivateManifestFetch :=
  ⟨ManifestFetch.allUntried assigned, ∅, peerAddresses, .noResponses⟩

/-- Where a step of the loop leads. -/
inductive Outcome where
  | next (f : PrivateManifestFetch) (pulls : List (PeerId × Addr))
  | done (manifest : DataManifest)
  | failed (e : PrivateManifestError)

variable [Blake3] [CryptoLib] [ManifestReader] [PeerOrder]

/-- The archive a manifest pull to the peer is open at. -/
def openAt (f : PrivateManifestFetch) (peerId : PeerId) : Option Addr :=
  (f.dispatchedPeers.lookup peerId).filter fun a => f.archiveStatus.lookup a = some .dispatched

/-- An answer that is of no use: on to the others. -/
def settle (f : PrivateManifestFetch) (fanout : Nat) (swarmRuns : Bool) (archive : Addr)
    (reason : PrivateManifestReason) : Outcome :=
  let f := { f with archiveStatus := f.archiveStatus.insert archive .failed, lastReason := reason }
  let (f, pulls) := f.dispatchWave fanout swarmRuns
  .next f pulls

/-- The body of the loop of `fetch_manifest_v2`. -/
def onInput (f : PrivateManifestFetch) (assigned : Finset Addr) (chainRoot kFile : Hash)
    (timeout : String) (maxConcurrent : Nat) : LoopInput → Outcome
  | .event e swarmRuns _ =>
      let fanout := computeManifestFanout maxConcurrent assigned.card
      match e with
      | .peerIdentified _ _ | .peerDisconnected _ =>
          let f := { f with peerAddresses := applyPeerEvent f.peerAddresses e }
          let (f, pulls) := f.dispatchWave fanout swarmRuns
          .next f pulls
      | .shardReceivedV2 peerId (.manifestData merkleRoot manifestBytes error) _ =>
          if merkleRoot ≠ chainRoot then .next f []
          else
            match f.openAt peerId with
            | none => .next f []
            | some archive =>
                match error with
                | some e => f.settle fanout swarmRuns archive (.peerError archive e)
                | none =>
                    match decryptAndVerifyManifest kFile manifestBytes chainRoot with
                    | .ok manifest => .done manifest
                    | .error e => f.settle fanout swarmRuns archive (.validation archive e)
      -- `ShardRequestFailed` is among the events that are ignored.
      | _ => .next f []
  | .grace _ => .next f []
  | .deadline => .failed (f.allFailed assigned (.deadlineExceeded timeout f.lastReason))
  | .closed => .failed (f.allFailed assigned (.networkShutDown f.lastReason))

/-- The loop, as far as the inputs lead, with the peers known at the end: `none` while it waits. -/
def run (assigned : Finset Addr) (chainRoot kFile : Hash) (timeout : String)
    (maxConcurrent : Nat) : PrivateManifestFetch → List LoopInput →
      Option (Except PrivateManifestError (DataManifest × Map PeerId Addr))
  | f, inputs =>
      if !f.anyAlive then some (.error (f.allFailed assigned f.lastReason))
      else
        match inputs with
        | [] => none
        | input :: inputs =>
            match f.onInput assigned chainRoot kFile timeout maxConcurrent input with
            | .next f _ => run assigned chainRoot kFile timeout maxConcurrent f inputs
            | .done manifest => some (.ok (manifest, f.peerAddresses))
            | .failed e => some (.error e)

end PrivateManifestFetch

/-- `fetch_manifest_v2`, with the peers known when it ends. -/
def fetchManifestV2 [Blake3] [CryptoLib] [ManifestReader] [PeerOrder] [AssignmentScore]
    (nodes : Except Str (List NodeRecordInfo)) (replicationFactor : Except Str Nat)
    (info : StorageFileInfoV2) (chainRoot kFile : Hash) (timeout : String)
    (peerAddresses : Map PeerId Addr) (maxConcurrent : Nat) (swarmRuns : Bool)
    (inputs : List LoopInput) :
    Option (Except PrivateManifestError (DataManifest × Map PeerId Addr)) :=
  match distinctAssignedArchives nodes replicationFactor info chainRoot with
  | .error e => some (.error e)
  | .ok assigned =>
      let fanout := computeManifestFanout maxConcurrent assigned.card
      let (f, _) := (PrivateManifestFetch.initial assigned peerAddresses).dispatchWave fanout
        swarmRuns
      f.run assigned chainRoot kFile timeout maxConcurrent inputs

end Snip
