/-
The chunk phase of a download over the first protocol (`sum-node/src/download.rs`,
`run_with_manifest` and `fill_fetches`).

Four pieces of state are kept in step: the queue of chunks to ask for, the identifiers
in flight, the fetch manager's own records, and the counter that ends the loop.
-/
import Mathlib.Data.Finset.Insert
import Snip.Store.Fetch
import Snip.Store.Manifest

namespace Snip

/-- The variables of the chunk phase. -/
structure ChunkPhase where
  fetcher : FetchManager
  remaining : List Nat
  inFlight : Map Str PeerId
  chunksFetched : Nat
  files : ChunkStore
  discoveredPeers : List PeerId
  peerAddresses : Map PeerId Addr
  chunkPeerAttribution : Map PeerId Nat
  peersContacted : Finset PeerId

/-- What does not change during the phase. -/
structure ChunkPhaseConfig where
  manifest : DataManifest
  maxConcurrent : Nat
  holderMap : Map Nat (List PeerId)
  totalToFetch : Nat

inductive ChunkPhaseError where
  | networkShutDown
  | timeout (chunksFetched totalToFetch : Nat)

def ChunkPhaseError.message : ChunkPhaseError → String
  | networkShutDown => "network shut down during chunk fetching"
  | timeout chunksFetched totalToFetch =>
      "timeout: downloaded " ++ toString chunksFetched ++ "/" ++ toString totalToFetch ++
        " chunks before deadline"

/-- What drives the phase: an event, the deadline, or the end of the events. -/
inductive PhaseInput where
  /-- `sent`: whether a request for a next piece is taken; `sends`: whether each request of the
  refill is, the first ones first, and every one after them; `io`: how a write goes. -/
  | event (e : SumNetEvent) (sent : Bool) (sends : List Bool) (io : Io)
  | deadline
  | closed

/-- `requested_manifest_root_hex`. -/
def OutboundOrigin.requestedManifestRootHex (o : OutboundOrigin) : Option Str :=
  match o.kind with
  | .v1Manifest rootHex _ => some rootHex
  | _ => none

namespace ChunkPhase

/-- The chunks that are not on disk, in order. -/
def toFetch (manifest : DataManifest) (files : ChunkStore) : List Nat :=
  (manifest.chunks.filter fun chunk => !files.has chunk.cid).map ChunkDescriptor.chunkIndex

/-- Whom to ask for a chunk: a holder, unless it is in flight, or else the first peer. -/
def choosePeer (cfg : ChunkPhaseConfig) (p : ChunkPhase) (chunkIndex : Nat) (cid : Str) :
    Option PeerId :=
  ((cfg.holderMap.lookup chunkIndex).bind fun peers =>
      peers.find? fun _ => (p.inFlight.lookup cid).isNone).or p.discoveredPeers.head?

/-- A request that is not taken has its answer in the list. -/
theorem sends_of_startFetch_error {f : FetchManager} {sends : List Bool} {peerId : PeerId} {cid : Str}
    {size : Option Nat} {e : String} (hinactive : ¬ f.isActive cid = true)
    (h : f.startFetchWithExpectedSize (sends.headD true) peerId cid size = .error e) :
    sends.tail.length + 1 = sends.length := by
  unfold FetchManager.startFetchWithExpectedSize at h
  rw [if_neg hinactive] at h
  cases sends with
  | nil => cases h
  | cons b sends => rfl

/--
`fill_fetches`; with it the requests that are sent.  A request that is not taken puts
its chunk back and the loop goes on, so it ends only once requests are taken again or
a chunk has no peer: `sends` are the swarm's answers up to the last refusal.
-/
def fillFetches (cfg : ChunkPhaseConfig) (p : ChunkPhase) (sends : List Bool) :
    ChunkPhase × List ShardRequest :=
  if p.inFlight.entries.length < cfg.maxConcurrent then
    match _hq : p.remaining with
    | [] => (p, [])
    | chunkIndex :: rest =>
        match cfg.manifest.chunks[chunkIndex]? with
        -- Not reached: the indices come from the manifest, whose order was checked.
        | none => (p, [])
        | some chunk =>
            if _hactive : p.fetcher.isActive chunk.cid then
              fillFetches cfg { p with remaining := rest } sends
            else
              match choosePeer cfg p chunkIndex chunk.cid with
              | none => ({ p with remaining := rest ++ [chunkIndex] }, [])
              | some peerId =>
                  match _hstart : p.fetcher.startFetchWithExpectedSize (sends.headD true) peerId
                      chunk.cid (some chunk.size) with
                  | .error _ =>
                      fillFetches cfg { p with remaining := rest ++ [chunkIndex] } sends.tail
                  | .ok (fetcher, request) =>
                      let (p, requests) := fillFetches cfg
                        { p with
                          fetcher
                          remaining := rest
                          inFlight := p.inFlight.insert chunk.cid peerId } sends.tail
                      (p, request :: requests)
  else (p, [])
termination_by p.remaining.length + sends.length
decreasing_by
  · rw [_hq, List.length_cons]
    omega
  · have := sends_of_startFetch_error _hactive _hstart
    rw [_hq, List.length_cons, List.length_append, List.length_singleton]
    omega
  · have : sends.tail.length ≤ sends.length := by rw [List.length_tail]; omega
    rw [_hq, List.length_cons]
    omega

/-- A chunk goes back to the queue, found by its identifier. -/
def requeue (cfg : ChunkPhaseConfig) (p : ChunkPhase) (cid : Str) : ChunkPhase :=
  { p with
    inFlight := p.inFlight.erase cid
    remaining := p.remaining ++
      ((cfg.manifest.chunks.find? fun c => c.cid = cid).map ChunkDescriptor.chunkIndex).toList }

variable [Blake3]

/-- The arm for `ShardReceived`. -/
def onReceived (cfg : ChunkPhaseConfig) (p : ChunkPhase) (sent : Bool) (sends : List Bool) (io : Io)
    (peerId : PeerId) (response : ShardResponse) (origin : OutboundOrigin) :
    ChunkPhase × List ShardRequest :=
  if origin.requestedManifestRootHex.isSome then (p, [])
  else
    let r := p.fetcher.onChunkReceived sent io p.files response
    let p := { p with fetcher := r.manager, files := r.files }
    match r.outcome with
    | .complete cid _ =>
        fillFetches cfg
          { p with
            inFlight := p.inFlight.erase cid
            chunksFetched := p.chunksFetched + 1
            chunkPeerAttribution := p.chunkPeerAttribution.insert peerId
              ((p.chunkPeerAttribution.lookup peerId).getD 0 + 1)
            peersContacted := insert peerId p.peersContacted } sends
    | .inProgress => (p, r.request.toList)
    | .failed cid _ => fillFetches cfg (requeue cfg p cid) sends

/-- The arm for `ShardRequestFailed`. -/
def onRequestFailed (cfg : ChunkPhaseConfig) (p : ChunkPhase) (sends : List Bool)
    (origin : OutboundOrigin) : ChunkPhase × List ShardRequest :=
  match origin.requestedCid with
  | none => (p, [])
  | some cid =>
      if (p.inFlight.lookup cid).isNone then (p, [])
      else fillFetches cfg (requeue cfg p cid) sends

/-- The body of the loop; with it the requests that are sent. -/
def onInput (cfg : ChunkPhaseConfig) (p : ChunkPhase) :
    PhaseInput → Except ChunkPhaseError (ChunkPhase × List ShardRequest)
  | .event e sent sends io =>
      match e with
      | .shardReceived peerId response origin =>
          .ok (onReceived cfg p sent sends io peerId response origin)
      | .shardRequestFailed _ _ origin => .ok (onRequestFailed cfg p sends origin)
      | .peerDiscovered peerId =>
          if peerId ∈ p.discoveredPeers then .ok (p, [])
          else .ok ({ p with discoveredPeers := p.discoveredPeers ++ [peerId] }, [])
      | .peerIdentified _ _ | .peerDisconnected _ =>
          .ok ({ p with peerAddresses := applyPeerEvent p.peerAddresses e }, [])
      | _ => .ok (p, [])
  | .deadline => .error (.timeout p.chunksFetched cfg.totalToFetch)
  | .closed => .error .networkShutDown

/-- The phase before its first refill. -/
def initial (manifest : DataManifest) (files : ChunkStore) (maxChunkMsgBytes : Nat)
    (discoveredPeers : List PeerId) (peerAddresses : Map PeerId Addr) : ChunkPhase where
  fetcher := ⟨maxChunkMsgBytes, ∅⟩
  remaining := toFetch manifest files
  inFlight := ∅
  chunksFetched := 0
  files := files
  discoveredPeers := discoveredPeers
  peerAddresses := peerAddresses
  chunkPeerAttribution := ∅
  peersContacted := ∅

end ChunkPhase

end Snip
