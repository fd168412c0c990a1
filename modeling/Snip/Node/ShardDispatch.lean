/-
How an inbound request of either protocol is answered
(`sum-node/src/shard_dispatch.rs`, `sum-store/src/serve.rs`, the answering half of
`sum-node/src/inbound_v2.rs`).

The network is an environment that takes answers; each answer handed to it is an entry of
the log.  A handler's result is `none` where the source panics: an index out of range, a
failed assertion, a branch said to be unreachable, a shift by more than the width.
-/
import Snip.Lib.Dialogue
import Snip.Net.Correlation
import Snip.Node.InboundV2
import Snip.Store.Serve

namespace Snip

/-- An answer handed to the network. -/
structure Answer where
  channelId : Nat
  response : ShardResponseVersioned

/-- `RespondShard` and `RespondNet`: whether the answer could be sent. -/
structure RespondNet (σ : Type) where
  respondShard : Nat → ShardResponse → σ → Bool × σ
  respondShardV2 : Nat → ShardResponseV2 → σ → Bool × σ

/-- A handler, over networks `σ`. -/
abbrev ServeM (σ : Type) := Dialogue σ Answer

/-- The faults of the disk and of the serializer that one request meets. -/
structure ServeFaults where
  mapFails : Option String
  getFails : Option String
  cborFails : Option String

/-- The writes of one request. -/
structure ServeIo where
  push : PushIo
  manifest : Io

/-! ### What panics -/

/-- `&data[start..stop]`. -/
def index? (data : Bytes) (start stop : Nat) : Option Bytes :=
  if start ≤ stop ∧ stop ≤ data.length then some (slice data start stop) else none

/-- `&text[n..]`: `n` bytes in, which must be between two characters. -/
def strFrom? : Nat → Str → Option Str
  | n, [] => if n = 0 then some [] else none
  | n, c :: text =>
      if n = 0 then some (c :: text)
      else if c.utf8Size ≤ n then strFrom? (n - c.utf8Size) text
      else none

/-- `debug_assert!`. -/
def debugAssert? (condition : Bool) : Option Unit := if condition then some () else none

section

variable {σ : Type}

def respondShard (net : RespondNet σ) (channelId : Nat) (resp : ShardResponse) : ServeM σ Bool :=
  Dialogue.ask (net.respondShard channelId resp) fun _ => ⟨channelId, .v1 resp⟩

def respondShardV2 (net : RespondNet σ) (channelId : Nat) (resp : ShardResponseV2) :
    ServeM σ Bool :=
  Dialogue.ask (net.respondShardV2 channelId resp) fun _ => ⟨channelId, .v2 resp⟩

/-! ### The first protocol -/

/-- `resolve_chunk_window` with its assertion. -/
def resolveChunkWindow? (total : Nat) (offset maxBytes : Option Nat) : Option (Nat × Nat) :=
  let (start, stop) := resolveChunkWindow total offset maxBytes
  (debugAssert? (start ≤ stop && stop ≤ total)).map fun _ => (start, stop)

/-- `handle_chunk_request`. -/
def serveChunkRequest (net : RespondNet σ) (store : ChunkStore) (faults : ServeFaults)
    (request : WireShardRequest) (channelId : Nat) : ServeM σ (Option Unit) := do
  let cid := request.cid
  match store.lookup cid with
  | none =>
      let _ ← respondShard net channelId
        (.refusal cid ("chunk not found: " ++ String.ofList cid))
      pure (some ())
  | some mapped =>
  match faults.mapFails with
  | some e =>
      let _ ← respondShard net channelId (.refusal cid ("mmap error: " ++ e))
      pure (some ())
  | none =>
  match resolveChunkWindow? mapped.length request.offset request.maxBytes with
  | none => pure none
  | some (start, stop) =>
  match index? mapped start stop with
  | none => pure none
  | some data =>
      let _ ← respondShard net channelId ⟨cid, start, mapped.length, data, none⟩
      pure (some ())

/-- `handle_manifest_request`. -/
def serveManifestRequest (net : RespondNet σ) (manifestIdx : ManifestIndex) (faults : ServeFaults)
    (request : WireShardRequest) (channelId : Nat) : ServeM σ (Option Unit) := do
  let cid := request.cid
  match strFrom? (utf8 manifestCidPrefix).length cid with
  | none => pure none
  | some rootHex =>
  match hexTo32 rootHex with
  | none =>
      let _ ← respondShard net channelId
        (.refusal cid ("invalid manifest root hex: " ++ String.ofList rootHex))
      pure (some ())
  | some root =>
  match manifestIdx.getByMerkleRoot root with
  | some manifest =>
      match faults.cborFails with
      | some e =>
          let _ ← respondShard net channelId
            (.refusal cid ("manifest serialization error: " ++ e))
          pure (some ())
      | none =>
          let cbor := manifestToCbor manifest
          let _ ← respondShard net channelId ⟨cid, 0, cbor.length, cbor, none⟩
          pure (some ())
  | none =>
  match manifestIdx.getPrivateBytes root with
  | some bytes =>
      let _ ← respondShard net channelId ⟨cid, 0, bytes.length, bytes, none⟩
      pure (some ())
  | none =>
      let _ ← respondShard net channelId
        (.refusal cid ("manifest not found for root: " ++ String.ofList rootHex))
      pure (some ())

/-- `handle_push_request`; what the files are after it. -/
def servePushRequest [Blake3] (net : RespondNet σ) (io : Io) (store : ChunkStore)
    (request : WireShardRequest) (channelId : Nat) : ServeM σ (Option ChunkStore) := do
  let cid := request.cid
  match request.pushData with
  | none => pure none
  | some data =>
  if cidFromData data ≠ cid then
    let _ ← respondShard net channelId (.refusal cid ("CID verification failed: " ++
      (StoreError.integrityMismatch cid (cidFromData data)).message))
    pure (some store)
  else
  match store.put io cid data with
  | (files, .error e) =>
      let _ ← respondShard net channelId (.refusal cid ("store write failed: " ++ e.message))
      pure (some files)
  | (files, .ok ()) =>
      let _ ← respondShard net channelId ⟨cid, 0, data.length, [], none⟩
      pure (some files)

/-- `handle_request`; what the files are after it. -/
def handleRequest [Blake3] (net : RespondNet σ) (store : SumStore) (faults : ServeFaults) (io : Io)
    (request : WireShardRequest) (channelId : Nat) : ServeM σ (Option ChunkStore) := do
  match manifestCidPrefix.isPrefixOf request.cid, request.pushData.isSome with
  | true, true =>
      let _ ← respondShard net channelId (.refusal request.cid
        "manifest push must be dispatched via handle_manifest_push (write lock)")
      pure (some store.files)
  | true, false =>
      let served ← serveManifestRequest net store.manifestIdx faults request channelId
      pure (served.map fun _ => store.files)
  | false, true => servePushRequest net io store.files request channelId
  | false, false =>
      let served ← serveChunkRequest net store.files faults request channelId
      pure (served.map fun _ => store.files)

/-- `V1_PUSH_RETIRED_ERROR`. -/
def v1PushRetiredError : String :=
  "V1_PUSH_RETIRED: /sum/storage/v1 push is retired — it carries no Merkle proof and no " ++
    "assignment. Use /sum/storage/v2 Push (chunk) or ManifestPush (manifest)."

/-- `ACCESS_DENIED_ERROR`. -/
def accessDeniedError : String := "ACCESS_DENIED: not in file access list"

/-- `V2_DISABLED_ERROR`. -/
def v2DisabledError : String := "V2 disabled on this node"

/-- `RefusalCounts`; the counters wrap. -/
structure RefusalCounts where
  v1ChunkPush : Nat
  v1ManifestPush : Nat

/-- The part of a V2 dispatcher that is not the shared store. -/
structure V2Handler where
  validator : PushValidator
  held : List (Hash × Nat)

/-- `AccessChecker`: any decision. -/
abbrev AccessChecker := PeerId → Str → ManifestIndex → Bool

structure ShardDispatch where
  store : SumStore
  /-- `none` on a node without a signing key. -/
  v2 : Option V2Handler
  refusals : RefusalCounts
  /-- The roots an attestation run was spawned for, oldest first. -/
  attestations : List Hash

/-- `on_v1_request`: every push is refused before the store is looked at. -/
def ShardDispatch.onV1Request [Blake3] (net : RespondNet σ) (acl : AccessChecker)
    (faults : ServeFaults) (io : Io) (s : ShardDispatch) (peerId : PeerId)
    (request : WireShardRequest) (channelId : Nat) : ServeM σ (Option ShardDispatch) := do
  let isManifest := manifestCidPrefix.isPrefixOf request.cid
  let isPush := request.pushData.isSome
  if isPush then
    let refusals :=
      if isManifest then
        { s.refusals with v1ManifestPush := (s.refusals.v1ManifestPush + 1) % 2 ^ 64 }
      else { s.refusals with v1ChunkPush := (s.refusals.v1ChunkPush + 1) % 2 ^ 64 }
    let _ ← respondShard net channelId (.refusal request.cid v1PushRetiredError)
    pure (some { s with refusals := refusals })
  else
    match isPush with
    -- every push returned above
    | true => pure none
    | false =>
        if acl peerId request.cid s.store.manifestIdx then
          let served ← handleRequest net s.store faults io request channelId
          pure (served.map fun files => { s with store := { s.store with files := files } })
        else
          let _ ← respondShard net channelId (.refusal request.cid accessDeniedError)
          pure (some s)

/-! ### The second protocol -/

/-- `resolve_pull_window` with its assertion; the inner `none` is an offset past the end. -/
def resolvePullWindow? (total offset maxBytes : Nat) : Option (Option (Nat × Nat)) :=
  if total < offset then some none
  else
    let stop := min (saturatingAdd64 offset maxBytes) total
    (debugAssert? (offset ≤ stop && stop ≤ total)).map fun _ => some (offset, stop)

/-- `build_pull_response`. -/
def buildPullResponse (acl : AccessChecker) (faults : ServeFaults) (store : SumStore)
    (peerId : PeerId) (cid : Str) (offset maxBytes : Nat) : Option ShardResponseV2 :=
  if !acl peerId cid store.manifestIdx then
    some (.data ⟨cid, offset, 0, [], some accessDeniedError.toList⟩)
  else
    match store.files.get cid, faults.getFails with
    | .error e, _ => some (.data ⟨cid, offset, 0, [], some ("not found: " ++ e.message).toList⟩)
    | .ok _, some e => some (.data ⟨cid, offset, 0, [], some ("not found: " ++ e).toList⟩)
    | .ok full, none =>
        match resolvePullWindow? full.length offset maxBytes with
        | none => none
        | some none =>
            some (.data ⟨cid, offset, full.length, [], some ("offset " ++ toString offset ++
              " > total_bytes " ++ toString full.length).toList⟩)
        | some (some (start, stop)) =>
            (index? full start stop).map fun data =>
              .data ⟨cid, offset, full.length, data, none⟩

/-- `build_manifest_pull_response`. -/
def buildManifestPullResponse (acl : AccessChecker) (faults : ServeFaults) (store : SumStore)
    (peerId : PeerId) (merkleRoot : Hash) : ShardResponseV2 :=
  if !acl peerId (manifestCidPrefix ++ hexEncode merkleRoot.bytes) store.manifestIdx then
    .manifestData merkleRoot [] (some accessDeniedError.toList)
  else
    match store.manifestIdx.getByMerkleRoot merkleRoot with
    | some manifest =>
        match faults.cborFails with
        | none => .manifestData merkleRoot (manifestToCbor manifest) none
        | some e => .manifestData merkleRoot [] (some ("manifest serialization error: " ++ e).toList)
    | none =>
        match store.manifestIdx.getPrivateBytes merkleRoot with
        | some bytes => .manifestData merkleRoot bytes none
        | none =>
            .manifestData merkleRoot [] (some ("manifest not found for root: " ++
              String.ofList (hexEncode merkleRoot.bytes)).toList)

section

variable [Blake3] [AssignmentScore] [ManifestReader]

/-- What a V2 handler leaves, and the root it spawned an attestation run for. -/
structure V2Served where
  dispatcher : V2Dispatcher
  attest : Option Hash

/-- The last step of `handle_manifest_push`: no attestation without an acknowledgement. -/
def ackManifest (net : RespondNet σ) (channelId : Nat) (d : V2Dispatcher) (merkleRoot : Hash) :
    ServeM σ (Option V2Served) := do
  let sent ← respondShardV2 net channelId (.manifestPushAck merkleRoot none)
  if sent then pure (some ⟨d, some merkleRoot⟩) else pure (some ⟨d, none⟩)

/-- A refused manifest. -/
def refuseManifest (net : RespondNet σ) (channelId : Nat) (d : V2Dispatcher) (merkleRoot : Hash)
    (e : ManifestAckError) : ServeM σ (Option V2Served) := do
  let _ ← respondShardV2 net channelId (.manifestPushAck merkleRoot (some e.message.toList))
  pure (some ⟨d, none⟩)

/-- `handle_manifest_push`. -/
def V2Dispatcher.serveManifestPush (net : RespondNet σ) (rpc : ChainRpc) (io : Io)
    (d : V2Dispatcher) (channelId : Nat) (merkleRoot : Hash) (manifestBytes : Bytes) :
    ServeM σ (Option V2Served) :=
  match fetchFileShape rpc merkleRoot with
  | .error e => refuseManifest net channelId d merkleRoot (.chainProbe e)
  | .ok shape =>
      if shape.visibility.isPrivate then
        match d.store.manifestIdx.getPrivateBytes merkleRoot with
        | some _ => ackManifest net channelId d merkleRoot
        | none =>
            match d.store.manifestIdx.insertPrivate io merkleRoot manifestBytes with
            | (idx, .error e) =>
                refuseManifest net channelId
                  { d with store := { d.store with manifestIdx := idx } } merkleRoot
                  (.privatePersistence e)
            | (idx, .ok ()) =>
                ackManifest net channelId
                  { d with store := { d.store with manifestIdx := idx } } merkleRoot
      else
        match validateManifestPush (hexEncode merkleRoot.bytes) manifestBytes with
        | .error reason => refuseManifest net channelId d merkleRoot (.refused reason)
        | .ok manifest =>
            match d.store.manifestIdx.getByMerkleRoot merkleRoot with
            | some _ => ackManifest net channelId d merkleRoot
            | none =>
                match d.store.manifestIdx.insert io manifest with
                | (idx, .error e) =>
                    refuseManifest net channelId
                      { d with store := { d.store with manifestIdx := idx } } merkleRoot
                      (.persistence e)
                | (idx, .ok ()) =>
                    ackManifest net channelId
                      { d with store := { d.store with manifestIdx := idx } } merkleRoot

/-- `V2Dispatcher::handle`. -/
def V2Dispatcher.handle (net : RespondNet σ) (acl : AccessChecker) (rpc : ChainRpc)
    (clock : Nat → Nat) (faults : ServeFaults) (io : ServeIo) (d : V2Dispatcher) (peerId : PeerId)
    (channelId : Nat) : ShardRequestV2 → ServeM σ (Option V2Served)
  | .pull cid offset maxBytes => do
      match buildPullResponse acl faults d.store peerId cid offset maxBytes with
      | none => pure none
      | some resp =>
          let _ ← respondShardV2 net channelId resp
          pure (some ⟨d, none⟩)
  | .push data merkleRoot chunkIndex merklePath => do
      let (d, error) :=
        d.acceptValidated rpc clock io.push data merkleRoot chunkIndex merklePath true
      let _ ← respondShardV2 net channelId
        (.pushAck merkleRoot chunkIndex (error.map fun e => e.message.toList))
      pure (some ⟨d, none⟩)
  | .manifestPush merkleRoot manifestBytes =>
      d.serveManifestPush net rpc io.manifest channelId merkleRoot manifestBytes
  | .manifestPull merkleRoot => do
      let _ ← respondShardV2 net channelId
        (buildManifestPullResponse acl faults d.store peerId merkleRoot)
      pure (some ⟨d, none⟩)

/-- `v2_disabled_response`. -/
def v2DisabledResponse : ShardRequestV2 → ShardResponseV2
  | .pull cid offset _ => .data ⟨cid, offset, 0, [], some v2DisabledError.toList⟩
  | .push _ merkleRoot chunkIndex _ =>
      .pushAck merkleRoot chunkIndex (some v2DisabledError.toList)
  | .manifestPush merkleRoot _ => .manifestPushAck merkleRoot (some v2DisabledError.toList)
  | .manifestPull merkleRoot => .manifestData merkleRoot [] (some v2DisabledError.toList)

/-- `on_v2_request`. -/
def ShardDispatch.onV2Request (net : RespondNet σ) (acl : AccessChecker) (rpc : ChainRpc)
    (clock : Nat → Nat) (faults : ServeFaults) (io : ServeIo) (s : ShardDispatch)
    (peerId : PeerId) (request : ShardRequestV2) (channelId : Nat) :
    ServeM σ (Option ShardDispatch) :=
  match s.v2 with
  | some v2 => do
      let served ← V2Dispatcher.handle net acl rpc clock faults io ⟨s.store, v2.validator, v2.held⟩
        peerId channelId request
      pure (served.map fun served =>
        { s with
          store := served.dispatcher.store
          v2 := some ⟨served.dispatcher.validator, served.dispatcher.held⟩
          attestations := s.attestations ++ served.attest.toList })
  | none => do
      let _ ← respondShardV2 net channelId (v2DisabledResponse request)
      pure (some s)

/-- The events of the serve loop. -/
inductive InboundEvent where
  | shardRequested (peerId : PeerId) (request : WireShardRequest) (channelId : Nat)
  | shardRequestedV2 (peerId : PeerId) (request : ShardRequestV2) (channelId : Nat)
  | other (event : SumNetEvent)

inductive Handled where
  | yes
  | no
deriving DecidableEq

/-- `on_event`. -/
def ShardDispatch.onEvent (net : RespondNet σ) (acl : AccessChecker) (rpc : ChainRpc)
    (clock : Nat → Nat) (faults : ServeFaults) (io : ServeIo) (s : ShardDispatch) :
    InboundEvent → ServeM σ (Option (ShardDispatch × Handled))
  | .shardRequested peerId request channelId => do
      let s ← s.onV1Request net acl faults io.push.put peerId request channelId
      pure (s.map fun s => (s, .yes))
  | .shardRequestedV2 peerId request channelId => do
      let s ← s.onV2Request net acl rpc clock faults io peerId request channelId
      pure (s.map fun s => (s, .yes))
  | .other _ => pure (some (s, .no))

end

end

/-! ### The shifts of the Merkle check -/

/-- `verify_merkle_proof`; a shift of a 32-bit number by 32 or more panics. -/
def merkleWalk? [Blake3] (chunkIndex : Nat) : Nat → Hash → List Hash → Option Hash
  | _, current, [] => some current
  | level, current, sibling :: rest =>
      if level < 32 then
        if (chunkIndex >>> level) &&& 1 = 0 then
          merkleWalk? chunkIndex (level + 1) (hashPair current sibling) rest
        else merkleWalk? chunkIndex (level + 1) (hashPair sibling current) rest
      else none

/-- `verify_merkle_proof_bytes_for_tree`. -/
def verifyForTree? [Blake3] (chunkHash : Hash) (chunkIndex : Nat) (merklePath : List Hash)
    (expectedRoot : Hash) (totalLeaves : Nat) : Option Bool :=
  if totalLeaves = 0 then some false
  else if totalLeaves ≤ chunkIndex then some false
  else if merklePath.length ≠ expectedProofDepth totalLeaves then some false
  else if totalLeaves = 1 then some (chunkHash = expectedRoot)
  else (merkleWalk? chunkIndex 0 chunkHash merklePath).map (· = expectedRoot)

/-- `pushed_proof_verifies`. -/
def pushedProofVerifies? [Blake3] (root : Hash) (chunkIndex : Nat) (proof : PushedProof) :
    Option Bool :=
  if 32 < proof.path.length then some false
  else if chunkIndex >>> proof.path.length ≠ 0 then some false
  else (merkleWalk? chunkIndex 0 proof.leaf proof.path).map (· = root)

end Snip
