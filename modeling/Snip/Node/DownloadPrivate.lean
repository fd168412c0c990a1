/-
The ciphertext chunks of a Private file (`sum-node/src/download_private.rs`,
`fetch_all_ciphertext_chunks_v2`).

The loop is the one of the Public download in most respects.  Two arms differ: a
chunk that was received is recorded without another dispatch, and there is no arm
for a request that failed.
-/
import Snip.Node.DownloadV2

namespace Snip

/-- `ChunkFetchState`: a finished chunk keeps its validated bytes. -/
abbrev CiphertextState := ChunkFetch Bytes

/-- The error of the fetch, with the chunk it is reported for. -/
inductive CiphertextFetchError where
  | snapshot (e : Str)
  | snapshotAddrParse
  | snapshotEmpty (height : Nat)
  | chainParams (e : Str)
  | noArchives (chunkIndex : Nat)
  | pull (chunkIndex : Nat)
  | exhausted (chunkIndex archives : Nat)
  | timedOut (chunkIndex : Nat) (state : Option CiphertextState)
  | networkShutDown (chunkIndex : Nat)

def CiphertextFetchError.chunk : CiphertextFetchError → Nat
  | snapshot _ | snapshotAddrParse | snapshotEmpty _ | chainParams _ => 0
  | noArchives i | pull i | exhausted i _ | timedOut i _ | networkShutDown i => i

/-- The message; `timeout` is the text of the time that was allowed. -/
def CiphertextFetchError.message (timeout : String) : CiphertextFetchError → String
  | snapshot e => "storage_getActiveNodesAtHeight: " ++ String.ofList e
  | snapshotAddrParse => "snapshot l1 address parse"
  | snapshotEmpty height =>
      "snapshot at assignment_height=" ++ toString height ++
        " has no eligible ArchiveNode/Active archives — cannot route chunk requests"
  | chainParams e => "chain_getChainParams: " ++ String.ofList e
  | noArchives i => "chunk " ++ toString i ++ " has no V2-assigned archives (snapshot empty?)"
  | pull _ => "pull_chunk_v2: swarm task has stopped — cannot pull chunk v2"
  | exhausted i archives =>
      "all " ++ toString archives ++ " V2-assigned archives for chunk " ++ toString i ++ " failed"
  | timedOut i state =>
      let detail := match state with
        | none => ""
        | some s =>
            "assigned=" ++ toString s.assigned.length ++ " archives, tried=" ++
              toString s.nextAttemptIdx ++ ", in_flight=" ++
              match s.inFlightTo with
              | none => "None"
              | some (_, a) => "Some(\"" ++ Addr.hex a ++ "\")"
      "Private chunk fetch timed out after " ++ timeout ++ "; chunk " ++ toString i ++
        " pending (" ++ detail ++ ")"
  | networkShutDown _ => "network shut down mid-fetch"

/-- The variables of the loop. -/
structure CiphertextFetchLoop where
  state : ChunkStates Bytes
  peerAddresses : Map PeerId Addr
  skipUnresolved : Bool

/-- The state of every chunk before the first dispatch. -/
def assignedStates [AssignmentScore] (merkleRoot : Hash) (snapshot : List Addr) (r : Nat) :
    List ChunkDescriptor → ChunkStates Bytes → Except CiphertextFetchError (ChunkStates Bytes)
  | [], state => .ok state
  | cd :: rest, state =>
      match assignedArchives merkleRoot snapshot cd.chunkIndex r with
      | [] => .error (.noArchives cd.chunkIndex)
      | assigned =>
          assignedStates merkleRoot snapshot r rest
            (state.insert cd.chunkIndex ⟨assigned, 0, none, none⟩)

namespace CiphertextFetchLoop

/-- What comes before the first dispatch, on the answers to the two queries. -/
def initial [AssignmentScore] (nodes : Except Str (List NodeRecordInfo))
    (replicationFactor : Except Str Nat) (assignmentHeight : Nat) (manifest : DataManifest)
    (peerAddresses : Map PeerId Addr) : Except CiphertextFetchError CiphertextFetchLoop :=
  match nodes with
  | .error e => .error (.snapshot e)
  | .ok records =>
      match (records.filter NodeRecordInfo.isActiveArchive).mapM NodeRecordInfo.address with
      | none => .error .snapshotAddrParse
      | some addresses =>
          let snapshot := addresses.insertionSort (· ≤ ·)
          if snapshot = [] then .error (.snapshotEmpty assignmentHeight)
          else
            match replicationFactor with
            | .error e => .error (.chainParams e)
            | .ok r =>
                (assignedStates manifest.merkleRoot snapshot r manifest.chunks ∅).map
                  fun state => ⟨state, peerAddresses, false⟩

/-- The condition of the loop fails: every chunk is received. -/
def finished (f : CiphertextFetchLoop) : Bool := f.state.entries.all fun e => e.2.received.isSome

/-- The outcome of an input: the next state and the pulls sent, or the end. -/
abbrev Outcome := Except CiphertextFetchError (CiphertextFetchLoop × List Pull)

variable [Blake3] [PeerOrder]

/-- `try_dispatch_pending`. -/
def dispatch (f : CiphertextFetchLoop) (manifest : DataManifest) (maxConcurrent : Nat)
    (swarmRuns : Bool) : Outcome :=
  match f.state.tryDispatch manifest.chunks (addrToPeer f.peerAddresses) maxConcurrent
      f.skipUnresolved swarmRuns with
  | .error chunkIndex => .error (.pull chunkIndex)
  | .ok (state, pulls) => .ok ({ f with state }, pulls)

/-- The arm for `ShardResponseV2::Data`. -/
def onData (f : CiphertextFetchLoop) (manifest : DataManifest) (maxConcurrent : Nat)
    (swarmRuns : Bool) (peerId : PeerId) (body : ShardResponse) : Outcome :=
  match f.state.awaiting manifest.chunks body.cid peerId with
  | none => .ok (f, [])
  | some (idx, s) =>
      if s.received.isSome then .ok (f, [])
      else
        match chunkAt manifest.chunks idx with
        -- The index came from the manifest.
        | none => .ok (f, [])
        | some cd =>
            if servesChunk cd body then
              -- `continue`: nothing is dispatched for the slot that is free now.
              let state := f.state.insert idx { s with inFlightTo := none, received := some body.data }
              .ok ({ f with state }, [])
            else if s.assigned.length ≤ s.nextAttemptIdx then
              .error (.exhausted idx s.assigned.length)
            else
              CiphertextFetchLoop.dispatch
                { f with state := f.state.insert idx { s with inFlightTo := none } }
                manifest maxConcurrent swarmRuns

/-- The body of the loop. -/
def onInput (f : CiphertextFetchLoop) (manifest : DataManifest) (maxConcurrent : Nat) :
    LoopInput → Outcome
  | .event e swarmRuns _ =>
      match e with
      | .peerIdentified _ _ | .peerDisconnected _ =>
          CiphertextFetchLoop.dispatch
            { f with peerAddresses := applyPeerEvent f.peerAddresses e }
            manifest maxConcurrent swarmRuns
      | .shardReceivedV2 peerId (.data body) _ =>
          f.onData manifest maxConcurrent swarmRuns peerId body
      | _ => .ok (f, [])
  | .grace swarmRuns =>
      -- The timer is armed until it has fired once.
      if f.skipUnresolved then .ok (f, [])
      else
        CiphertextFetchLoop.dispatch { f with skipUnresolved := true } manifest maxConcurrent
          swarmRuns
  | .deadline =>
      let next := f.state.nextMissing manifest.chunks
      .error (.timedOut next (f.state.lookup next))
  | .closed => .error (.networkShutDown (f.state.nextMissing manifest.chunks))

/-- The loop, as far as the inputs lead: `none` while it waits for another one. -/
def run (manifest : DataManifest) (maxConcurrent : Nat) :
    CiphertextFetchLoop → List LoopInput →
      Option (Except CiphertextFetchError (List (Nat × Bytes)))
  | f, inputs =>
      if f.finished then
        some (.ok (f.state.entries.filterMap fun e => e.2.received.map fun data => (e.1, data)))
      else
        match inputs with
        | [] => none
        | input :: inputs =>
            match f.onInput manifest maxConcurrent input with
            | .error e => some (.error e)
            | .ok (f, _) => run manifest maxConcurrent f inputs

end CiphertextFetchLoop

/-- `fetch_all_ciphertext_chunks_v2`: the bytes by chunk index. -/
def fetchAllCiphertextChunksV2 [Blake3] [AssignmentScore] [PeerOrder]
    (nodes : Except Str (List NodeRecordInfo)) (replicationFactor : Except Str Nat)
    (info : StorageFileInfoV2) (manifest : DataManifest) (peerAddresses : Map PeerId Addr)
    (maxConcurrent : Nat) (swarmRuns : Bool) (inputs : List LoopInput) :
    Option (Except CiphertextFetchError (List (Nat × Bytes))) :=
  match CiphertextFetchLoop.initial nodes replicationFactor info.assignmentHeight manifest
      peerAddresses with
  | .error e => some (.error e)
  | .ok f =>
      match f.dispatch manifest maxConcurrent swarmRuns with
      | .error e => some (.error e)
      | .ok (f, _) => f.run manifest maxConcurrent inputs

end Snip
