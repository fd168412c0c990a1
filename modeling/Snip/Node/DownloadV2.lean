/-
The download of a Public file (`sum-node/src/download.rs`, `run_v2_public`).

Four phases: the assignment view, a manifest from some assigned archive, the chunks
from the archives each is assigned to, and the output.  The two loops in the middle
are driven by what the network reports and by timers, one input at a time; a chunk
that is already on disk is not fetched again.
-/
import Snip.Node.V2Routing
import Snip.Store.SumStore

namespace Snip

/-! ### The manifest -/

inductive ManifestArchiveStatus where
  | untried
  | dispatched
  | failed
deriving DecidableEq

/-- Why no manifest came, as far as the last archive is concerned. -/
inductive ManifestFetchReason where
  | noResponses
  | peerError (archive : Addr) (e : Str)
  | decode (archive : Addr) (e : ManifestDecodeError)
  | outboundFailure (archive : Addr) (e : Str)
  | deadlineExceeded (previous : ManifestFetchReason)
  | networkShutDown (previous : ManifestFetchReason)

def ManifestFetchReason.message : ManifestFetchReason → String
  | noResponses => "no responses received"
  | peerError archive e => "archive " ++ Addr.hex archive ++ " peer error: " ++ String.ofList e
  | decode archive (.rootMismatch got _) =>
      "archive " ++ Addr.hex archive ++ " root mismatch (got " ++
        String.ofList (hexEncode got.bytes) ++ ")"
  | decode archive (.invalid e) =>
      "archive " ++ Addr.hex archive ++ " invalid manifest: " ++ e.message
  | decode archive (.cbor e) =>
      "archive " ++ Addr.hex archive ++ " CBOR decode: CBOR deserialization: " ++ String.ofList e
  | outboundFailure archive e =>
      "archive " ++ Addr.hex archive ++ " outbound failure: " ++ String.ofList e
  | deadlineExceeded previous => "manifest fetch deadline exceeded; previous: " ++ previous.message
  | networkShutDown previous => "network shut down mid-fetch; previous: " ++ previous.message

/-- The error of `build_all_failed_err`. -/
structure ManifestFetchError where
  tried : Nat
  assignedTotal : Nat
  resolvable : Nat
  lastReason : ManifestFetchReason

def ManifestFetchError.message (e : ManifestFetchError) : String :=
  "V2Public manifest fetch exhausted all V2-assigned archives: tried " ++ toString e.tried ++
    " of " ++ toString e.assignedTotal ++ " (" ++ toString e.resolvable ++ " resolvable, " ++
    toString (e.assignedTotal - e.resolvable) ++ " unresolvable); last error: " ++
    e.lastReason.message

/-- What drives a loop: an event, a timer, or the end of the events. -/
inductive LoopInput where
  /-- `swarmRuns`: whether the swarm task still takes requests; `io`: how a write goes. -/
  | event (e : SumNetEvent) (swarmRuns : Bool) (io : Io)
  | grace (swarmRuns : Bool)
  | deadline
  | closed

/-- The variables of `fetch_v2_public_manifest`. -/
structure ManifestFetch where
  status : Map Addr ManifestArchiveStatus
  dispatchedPeers : Map PeerId Addr
  peerAddresses : Map PeerId Addr
  lastReason : ManifestFetchReason

namespace ManifestFetch

section

variable [PeerOrder]

/-- The archives not tried yet, in address order, up to `remaining` of those with a peer. -/
def dispatchLoop (peers : Addr → Option PeerId) (swarmRuns : Bool) :
    Nat → List Addr → ManifestFetch → ManifestFetch × List (PeerId × Addr)
  | _, [], f => (f, [])
  | 0, _, f => (f, [])
  | remaining + 1, archive :: rest, f =>
      match peers archive with
      | none => dispatchLoop peers swarmRuns (remaining + 1) rest f
      | some peerId =>
          if swarmRuns then
            let (f, pulls) := dispatchLoop peers swarmRuns remaining rest
              { f with
                status := f.status.insert archive .dispatched
                dispatchedPeers := f.dispatchedPeers.insert peerId archive }
            (f, (peerId, archive) :: pulls)
          else
            dispatchLoop peers swarmRuns (remaining + 1) rest
              { f with status := f.status.insert archive .failed }

/-- `dispatch_wave`; with it the manifest pulls that are sent. -/
def dispatchWave (f : ManifestFetch) (fanout : Nat) (swarmRuns : Bool) :
    ManifestFetch × List (PeerId × Addr) :=
  let inFlight := f.status.entries.countP fun e => e.2 = .dispatched
  let untried := (f.status.keys.filter fun a => f.status.lookup a = some .untried).insertionSort
    (· ≤ ·)
  dispatchLoop (addrToPeer f.peerAddresses) swarmRuns (fanout - inFlight) untried f

/-- `build_all_failed_err`. -/
def allFailed (f : ManifestFetch) (view : V2AssignmentView) (reason : ManifestFetchReason) :
    ManifestFetchError where
  tried := f.status.entries.countP fun e => e.2 ≠ .untried
  assignedTotal := view.distinctAssigned.card
  resolvable := (view.distinctAssigned.filter fun a => (addrToPeer f.peerAddresses a).isSome).card
  lastReason := reason

def anyAlive (f : ManifestFetch) : Bool := f.status.entries.any fun e => e.2 ≠ .failed

def initial (view : V2AssignmentView) (peerAddresses : Map PeerId Addr) : ManifestFetch :=
  ⟨((view.distinctAssigned.sort (· ≤ ·)).map fun a =>
      (⟨a, .untried⟩ : Sigma fun _ => ManifestArchiveStatus)).toAList, ∅, peerAddresses, .noResponses⟩

/-- The same archives for the loop over Private manifests: each of them untried. -/
def allUntried (assigned : Finset Addr) : Map Addr ManifestArchiveStatus :=
  ((assigned.sort (· ≤ ·)).map fun a =>
    (⟨a, .untried⟩ : Sigma fun _ => ManifestArchiveStatus)).toAList

/-- `fanout`. -/
def fanout (view : V2AssignmentView) (maxConcurrent : Nat) : Nat :=
  min (max maxConcurrent 1) view.distinctAssigned.card

end

/-- Where a step of the loop leads. -/
inductive Outcome where
  | next (f : ManifestFetch) (pulls : List (PeerId × Addr))
  | done (f : ManifestFetch) (manifest : DataManifest)
  | failed (e : ManifestFetchError)

variable [Blake3] [ManifestReader] [PeerOrder]

/-- The archive a manifest pull to the peer is open at. -/
def openAt (f : ManifestFetch) (peerId : PeerId) : Option Addr :=
  (f.dispatchedPeers.lookup peerId).filter fun a => f.status.lookup a = some .dispatched

/-- A response or a failure that settles an archive: on to the others. -/
def settle (f : ManifestFetch) (view : V2AssignmentView) (maxConcurrent : Nat) (swarmRuns : Bool)
    (archive : Addr) (reason : ManifestFetchReason) : Outcome :=
  let f := { f with status := f.status.insert archive .failed, lastReason := reason }
  let (f, pulls) := f.dispatchWave (fanout view maxConcurrent) swarmRuns
  .next f pulls

/-- The body of the loop of `fetch_v2_public_manifest`. -/
def onInput (f : ManifestFetch) (view : V2AssignmentView) (chainRoot : Hash)
    (maxConcurrent : Nat) : LoopInput → Outcome
  | .event e swarmRuns _ =>
      match e with
      | .peerIdentified _ _ | .peerDisconnected _ =>
          let f := { f with peerAddresses := applyPeerEvent f.peerAddresses e }
          let (f, pulls) := f.dispatchWave (fanout view maxConcurrent) swarmRuns
          .next f pulls
      | .shardReceivedV2 peerId (.manifestData merkleRoot manifestBytes error) _ =>
          if merkleRoot ≠ chainRoot then .next f []
          else
            match f.openAt peerId with
            | none => .next f []
            | some archive =>
                match error with
                | some e => f.settle view maxConcurrent swarmRuns archive (.peerError archive e)
                | none =>
                    match decodeV2ManifestBytes manifestBytes chainRoot with
                    | .ok manifest => .done f manifest
                    | .error e => f.settle view maxConcurrent swarmRuns archive (.decode archive e)
      | .shardRequestFailed peerId error origin =>
          if origin.requestedManifestRoot ≠ some chainRoot then .next f []
          else
            match f.openAt peerId with
            | none => .next f []
            | some archive =>
                f.settle view maxConcurrent swarmRuns archive (.outboundFailure archive error)
      | _ => .next f []
  | .grace _ => .next f []
  | .deadline => .failed (f.allFailed view (.deadlineExceeded f.lastReason))
  | .closed => .failed (f.allFailed view (.networkShutDown f.lastReason))

/-- The loop, as far as the inputs lead: `none` while it waits for another one. -/
def run (view : V2AssignmentView) (chainRoot : Hash) (maxConcurrent : Nat) :
    ManifestFetch → List LoopInput → Option (Except ManifestFetchError (DataManifest × ManifestFetch))
  | f, inputs =>
      if !f.anyAlive then some (.error (f.allFailed view f.lastReason))
      else
        match inputs with
        | [] => none
        | input :: inputs =>
            match f.onInput view chainRoot maxConcurrent input with
            | .next f _ => run view chainRoot maxConcurrent f inputs
            | .done f manifest => some (.ok (manifest, f))
            | .failed e => some (.error e)

end ManifestFetch

/-! ### The chunks -/

/-- `PublicChunkState`; the bytes of a finished chunk are on disk. -/
abbrev PublicChunkState := ChunkFetch Unit

inductive ChunkFetchError where
  | pull (chunkIndex : Nat)
  | store (cid : Str) (e : StoreError)
  | exhausted (chunkIndex archives : Nat)
  | timedOut (chunkIndex : Nat)
  | networkShutDown

def ChunkFetchError.message : ChunkFetchError → String
  | pull chunkIndex =>
      "pull_chunk_v2 (chunk " ++ toString chunkIndex ++
        "): swarm task has stopped — cannot pull chunk v2"
  | store cid e => "store.put(" ++ String.ofList cid ++ "): " ++ e.message
  | exhausted chunkIndex archives =>
      "V2Public chunk fetch: chunk " ++ toString chunkIndex ++ " exhausted all " ++
        toString archives ++ " V2-assigned archives"
  | timedOut chunkIndex =>
      "V2Public chunk fetch timed out; chunk " ++ toString chunkIndex ++ " still pending"
  | networkShutDown => "V2Public chunk fetch: network shut down mid-fetch"

/-- The variables of `fetch_v2_public_chunks`. -/
structure ChunkFetchLoop where
  state : ChunkStates Unit
  peerAddresses : Map PeerId Addr
  skipUnresolved : Bool
  files : ChunkStore
  chunksFetched : Nat
  chunksSkipped : Nat
  chunkPeerAttribution : Map PeerId Nat
  peersContacted : Finset PeerId

namespace ChunkFetchLoop

/-- The state before the first dispatch: what is on disk is done. -/
def initial (view : V2AssignmentView) (manifest : DataManifest) (peerAddresses : Map PeerId Addr)
    (files : ChunkStore) : ChunkFetchLoop where
  state := manifest.chunks.foldl (fun state cd =>
    state.insert cd.chunkIndex
      ⟨(view.perChunkAssigned.lookup cd.chunkIndex).getD [], 0, none,
        if files.has cd.cid then some () else none⟩) ∅
  peerAddresses := peerAddresses
  skipUnresolved := false
  files := files
  chunksFetched := 0
  chunksSkipped := manifest.chunks.countP fun cd => files.has cd.cid
  chunkPeerAttribution := ∅
  peersContacted := ∅

/-- The condition of the loop fails: every chunk is done. -/
def finished (f : ChunkFetchLoop) : Bool := f.state.entries.all fun e => e.2.received.isSome

/-- The outcome of an input: the next state and the pulls sent, or the end. -/
abbrev Outcome := Except ChunkFetchError (ChunkFetchLoop × List Pull)

variable [Blake3] [PeerOrder]

def dispatch (f : ChunkFetchLoop) (manifest : DataManifest) (maxConcurrent : Nat)
    (swarmRuns : Bool) : Outcome :=
  match f.state.tryDispatch manifest.chunks (addrToPeer f.peerAddresses) maxConcurrent
      f.skipUnresolved swarmRuns with
  | .error chunkIndex => .error (.pull chunkIndex)
  | .ok (state, pulls) => .ok ({ f with state }, pulls)

/-- The chunk waits for nobody any more. -/
def clearMark (f : ChunkFetchLoop) (idx : Nat) (s : PublicChunkState) : ChunkFetchLoop :=
  { f with state := f.state.insert idx { s with inFlightTo := none } }

/-- After a refusal: the next archive, or the end if there is none. -/
def advance (f : ChunkFetchLoop) (manifest : DataManifest) (maxConcurrent : Nat)
    (swarmRuns : Bool) (idx : Nat) (s : PublicChunkState) : Outcome :=
  if s.assigned.length ≤ s.nextAttemptIdx then .error (.exhausted idx s.assigned.length)
  else (f.clearMark idx s).dispatch manifest maxConcurrent swarmRuns

/-- The arm for `ShardResponseV2::Data`. -/
def onData (f : ChunkFetchLoop) (manifest : DataManifest) (maxConcurrent : Nat)
    (swarmRuns : Bool) (io : Io) (peerId : PeerId) (body : ShardResponse) : Outcome :=
  match f.state.awaiting manifest.chunks body.cid peerId with
  | none => .ok (f, [])
  | some (idx, s) =>
      if s.received.isSome then .ok (f, [])
      else
        match chunkAt manifest.chunks idx with
        -- The index came from the manifest.
        | none => .ok (f, [])
        | some cd =>
            if servesChunk cd body then
              match f.files.put io cd.cid body.data with
              | (_, .error e) => .error (.store cd.cid e)
              | (files, .ok ()) =>
                  ChunkFetchLoop.dispatch
                    { f with
                      state := f.state.insert idx { s with inFlightTo := none, received := some () }
                      files
                      chunksFetched := f.chunksFetched + 1
                      chunkPeerAttribution := f.chunkPeerAttribution.insert peerId
                        ((f.chunkPeerAttribution.lookup peerId).getD 0 + 1)
                      peersContacted := insert peerId f.peersContacted }
                    manifest maxConcurrent swarmRuns
            else f.advance manifest maxConcurrent swarmRuns idx s

/-- The arm for `ShardRequestFailed`: the chunk that the failed request was for. -/
def onRequestFailed (f : ChunkFetchLoop) (manifest : DataManifest) (maxConcurrent : Nat)
    (swarmRuns : Bool) (peerId : PeerId) (origin : OutboundOrigin) : Outcome :=
  match origin.requestedCid with
  | none => .ok (f, [])
  | some cid =>
      match f.state.awaiting manifest.chunks cid peerId with
      | none => .ok (f, [])
      | some (idx, s) => f.advance manifest maxConcurrent swarmRuns idx s

/-- The body of the loop of `fetch_v2_public_chunks`. -/
def onInput (f : ChunkFetchLoop) (manifest : DataManifest) (maxConcurrent : Nat) :
    LoopInput → Outcome
  | .event e swarmRuns io =>
      match e with
      | .peerIdentified _ _ | .peerDisconnected _ =>
          ChunkFetchLoop.dispatch { f with peerAddresses := applyPeerEvent f.peerAddresses e }
            manifest maxConcurrent swarmRuns
      | .shardReceivedV2 peerId (.data body) _ =>
          f.onData manifest maxConcurrent swarmRuns io peerId body
      | .shardRequestFailed peerId _ origin =>
          f.onRequestFailed manifest maxConcurrent swarmRuns peerId origin
      | _ => .ok (f, [])
  | .grace swarmRuns =>
      -- The timer is armed until it has fired once.
      if f.skipUnresolved then .ok (f, [])
      else ChunkFetchLoop.dispatch { f with skipUnresolved := true } manifest maxConcurrent swarmRuns
  | .deadline => .error (.timedOut (f.state.nextMissing manifest.chunks))
  | .closed => .error .networkShutDown

/-- The loop, as far as the inputs lead: `none` while it waits for another one. -/
def run (manifest : DataManifest) (maxConcurrent : Nat) :
    ChunkFetchLoop → List LoopInput → Option (Except ChunkFetchError ChunkFetchLoop)
  | f, inputs =>
      if f.finished then some (.ok f)
      else
        match inputs with
        | [] => none
        | input :: inputs =>
            match f.onInput manifest maxConcurrent input with
            | .error e => some (.error e)
            | .ok (f, _) => run manifest maxConcurrent f inputs

end ChunkFetchLoop

/-- `fetch_v2_public_chunks`, with whether the first dispatch finds the swarm running. -/
def fetchV2PublicChunks [Blake3] [PeerOrder] (view : V2AssignmentView) (manifest : DataManifest)
    (peerAddresses : Map PeerId Addr) (files : ChunkStore) (maxConcurrent : Nat) (swarmRuns : Bool)
    (inputs : List LoopInput) : Option (Except ChunkFetchError ChunkFetchLoop) :=
  match (ChunkFetchLoop.initial view manifest peerAddresses files).dispatch manifest maxConcurrent
      swarmRuns with
  | .error e => some (.error e)
  | .ok (f, _) => f.run manifest maxConcurrent inputs

/-! ### The whole download -/

inductive DownloadError where
  | badRoot (text : Str)
  | assignment (e : V2AssignmentError)
  | manifest (e : ManifestFetchError)
  | index (e : StoreError)
  | chunks (e : ChunkFetchError)
  | missingChunk (cid : Str) (e : StoreError)

def DownloadError.message : DownloadError → String
  | badRoot text => "info.merkle_root invalid: " ++ String.ofList text
  | assignment e => e.message
  | manifest e => e.message
  | index e => e.message
  | chunks e => e.message
  | missingChunk cid e => "missing chunk " ++ String.ofList cid ++ ": " ++ e.message

/--
`assemble`: the chunks in order.  It computes the root of the manifest's leaves once
more, but only to log whether it matches.
-/
def assemble (files : ChunkStore) : List ChunkDescriptor → Except DownloadError Bytes
  | [] => .ok []
  | chunk :: rest =>
      match files.get chunk.cid with
      | .error e => .error (.missingChunk chunk.cid e)
      | .ok data => (assemble files rest).map fun bytes => data ++ bytes

/-- All that a download is given, and all that happens to it. -/
structure PublicDownload where
  info : StorageFileInfoV2
  nodes : Except Str (List NodeRecordInfo)
  replicationFactor : Except Str Nat
  maxConcurrent : Nat
  peerAddresses : Map PeerId Addr
  store : SumStore
  /-- Whether the swarm takes requests when a phase starts. -/
  swarmRuns : Bool
  manifestInputs : List LoopInput
  insertIo : Io
  chunkInputs : List LoopInput

/-- `run_v2_public`: the bytes written to the output; `none` while it is still going. -/
def runV2Public [Blake3] [ManifestReader] [AssignmentScore] [PeerOrder] (d : PublicDownload) :
    Option (Except DownloadError Bytes) :=
  match decodeRootHex d.info.merkleRoot with
  | none => some (.error (.badRoot d.info.merkleRoot))
  | some chainRoot =>
      match buildV2AssignmentView d.nodes d.replicationFactor d.info.assignmentHeight chainRoot
          (List.range d.info.chunkCount) with
      | .error e => some (.error (.assignment e))
      | .ok view =>
          let start := ManifestFetch.initial view d.peerAddresses
          let (f, _) := start.dispatchWave (ManifestFetch.fanout view d.maxConcurrent) d.swarmRuns
          match f.run view chainRoot d.maxConcurrent d.manifestInputs with
          | none => none
          | some (.error e) => some (.error (.manifest e))
          | some (.ok (manifest, f)) =>
              if manifest.chunkCount = 0 then some (.ok [])
              else
                let indexed : ManifestIndex × Except StoreError Unit :=
                  match d.store.manifestIdx.getByMerkleRoot manifest.merkleRoot with
                  | some _ => (d.store.manifestIdx, .ok ())
                  | none => d.store.manifestIdx.insert d.insertIo manifest
                match indexed with
                | (_, .error e) => some (.error (.index e))
                | (_, .ok ()) =>
                    match fetchV2PublicChunks view manifest f.peerAddresses d.store.files
                        d.maxConcurrent d.swarmRuns d.chunkInputs with
                    | none => none
                    | some (.error e) => some (.error (.chunks e))
                    | some (.ok loop) => some (assemble loop.files manifest.chunks)

end Snip
