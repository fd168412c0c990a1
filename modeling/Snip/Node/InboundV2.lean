/-
The archive's side of the second protocol version: pushes, manifest pushes and
the attestations that follow (`sum-node/src/inbound_v2.rs`,
`assignment_attestor.rs`).

Requests are answered one at a time, so a handler is a function from the
dispatcher to the dispatcher and an answer.  A chunk is acknowledged only behind
four records: the exemption from garbage collection before its bytes are written,
and the push proof, the held index and (for a Private file) the owner of its
identifier after.
-/
import Snip.Store.SumStore
import Snip.Node.PushValidator

namespace Snip

structure V2Dispatcher where
  store : SumStore
  validator : PushValidator
  /-- The chunk indices this archive says it holds, by root. -/
  held : List (Hash × Nat)

/-! ### Push -/

/-- How the five writes of one push end. -/
structure PushIo where
  gcList : Io
  put : Io
  privateChunk : Io
  proof : Io
  held : Io

inductive PushError where
  | rejected (reason : PushReject)
  | privateRefetch
  | gcExemption (e : StoreError)
  | store (e : StoreError)
  | privateMapping (e : StoreError)
  | pushProof (e : StoreError)
  | heldIndex (e : StoreError)

def PushError.message : PushError → String
  | rejected reason => reason.message
  | privateRefetch => "re-fetch of Private data is not authorized"
  | gcExemption e => "gc exemption persistence failed: " ++ e.message
  | store e => "store error: " ++ e.message
  | privateMapping e => "private chunk mapping persistence failed: " ++ e.message
  | pushProof e => "push-proof persistence failed: " ++ e.message
  | heldIndex e => "held-index persistence failed: " ++ e.message

/-- `store_v2_pushed_chunk`: the exemption first, then the bytes. -/
def storeV2PushedChunk [Blake3] (io : PushIo) (s : SumStore) (cid : Str) (data : Bytes) :
    SumStore × Except PushError Unit :=
  match s.manifestIdx.recordV2HeldChunk io.gcList cid with
  | (idx, .error e) => ({ s with manifestIdx := idx }, .error (.gcExemption e))
  | (idx, .ok ()) =>
      match s.files.put io.put cid data with
      | (files, .error e) => (⟨files, idx⟩, .error (.store e))
      | (files, .ok ()) => (⟨files, idx⟩, .ok ())

/-- The records behind the bytes, in the order they are written. -/
def recordAccepted [Blake3] (io : PushIo) (idx : ManifestIndex) (isPrivate : Bool)
    (merkleRoot : Hash) (chunkIndex : Nat) (leafHash : Hash) (merklePath : List Hash)
    (cid : Str) : ManifestIndex × Except PushError Unit :=
  let mapped :=
    if isPrivate then idx.recordPrivateChunkCid io.privateChunk merkleRoot cid else (idx, .ok ())
  match mapped with
  | (idx, .error e) => (idx, .error (.privateMapping e))
  | (idx, .ok ()) =>
      match idx.recordV2PushedProof io.proof merkleRoot chunkIndex leafHash merklePath with
      | (idx, .error e) => (idx, .error (.pushProof e))
      | (idx, .ok ()) =>
          match idx.recordV2HeldIndex io.held merkleRoot chunkIndex cid with
          | (idx, .error e) => (idx, .error (.heldIndex e))
          | (idx, .ok ()) => (idx, .ok ())

/-- `accept_validated`; the result is the error of the acknowledgement, if it has one. -/
def V2Dispatcher.acceptValidated [Blake3] [AssignmentScore] (rpc : ChainRpc) (clock : Nat → Nat)
    (io : PushIo) (d : V2Dispatcher) (data : Bytes) (merkleRoot : Hash) (chunkIndex : Nat)
    (merklePath : List Hash) (allowPrivate : Bool) : V2Dispatcher × Option PushError :=
  match d.validator.validatePush rpc clock merkleRoot chunkIndex data merklePath with
  | (validator, .error reject) => ({ d with validator := validator }, some (.rejected reject))
  | (validator, .ok pushed) =>
      let d := { d with validator := validator }
      let cid := cidFromBlake3Hash pushed.leafHash
      if pushed.visibility.isPrivate && !allowPrivate then (d, some .privateRefetch)
      else
        match storeV2PushedChunk io d.store cid data with
        | (store, .error e) => ({ d with store := store }, some e)
        | (store, .ok ()) =>
            match recordAccepted io store.manifestIdx pushed.visibility.isPrivate merkleRoot
                chunkIndex pushed.leafHash merklePath cid with
            | (idx, .error e) => ({ d with store := { store with manifestIdx := idx } }, some e)
            | (idx, .ok ()) =>
                ({ d with
                    store := { store with manifestIdx := idx }
                    held := (merkleRoot, chunkIndex) :: d.held }, none)

/-! ### The held set -/

/-- `held_for`. -/
def V2Dispatcher.heldFor (d : V2Dispatcher) (merkleRoot : Hash) : List Nat :=
  (d.held.filter fun e => e.1 = merkleRoot).map Prod.snd

/-- `held_from_disk`: recorded pushes and chunks of Public manifests, where the file is there. -/
def heldFromDisk (s : SumStore) : List (Hash × Nat) :=
  let recorded := (s.manifestIdx.v2Held.entries.filter fun e => s.files.has e.2).map fun e => e.1
  let listed := s.manifestIdx.allMerkleRoots.flatMap fun root =>
    match s.manifestIdx.getByMerkleRoot root with
    | none => []
    | some manifest =>
        (manifest.chunks.filter fun c => s.files.has c.cid).map fun c => (root, c.chunkIndex)
  recorded ++ listed

/-- `seed_held_from_disk`. -/
def V2Dispatcher.seedHeldFromDisk (d : V2Dispatcher) : V2Dispatcher :=
  { d with held := heldFromDisk d.store ++ d.held }

/-! ### Attestation -/

/-- `slice::chunks`; as many rounds as there are items are enough for `0 < size`. -/
def chunksOf {α : Type} (size : Nat) : Nat → List α → List (List α)
  | 0, _ => []
  | _ + 1, [] => []
  | fuel + 1, items => items.take size :: chunksOf size fuel (items.drop size)

/-- `attest`: the batches of `AcceptAssignmentV2`, up to the first that does not go through. -/
def attest [AssignmentScore] (params : V2Params) (myAddr : Addr) (merkleRoot : Hash)
    (chunkCount : Nat) (snapshot : List Addr) (held : List Nat) (goesThrough : Nat → Bool) :
    List (List Nat) :=
  if params.maxChunkIndicesPerTx = 0 then []
  else
    let assigned :=
      chunksForArchiveV2 merkleRoot chunkCount snapshot params.assignmentReplicationFactor myAddr
    let attestSet := assigned.filter fun i => i ∈ held
    let batches := chunksOf params.maxChunkIndicesPerTx attestSet.length attestSet
    let sent := (List.range batches.length).findIdx fun k => !goesThrough k
    batches.take (sent + 1)

/-- What one attestation run used and submitted. -/
structure Attestation where
  merkleRoot : Hash
  snapshot : List Addr
  batches : List (List Nat)

/-- `run_attestation` on the held set as it was taken; `none` where it stops before a batch. -/
def runAttestation [AssignmentScore] (rpc : ChainRpc) (params : V2Params) (myAddr : Addr)
    (merkleRoot : Hash) (held : List Nat) (goesThrough : Nat → Bool) : Option Attestation :=
  if held = [] then none
  else
    match rpc.fileInfoV2 merkleRoot with
    | .error _ | .ok none => none
    | .ok (some shape) =>
        match rpc.latestAssignmentEpoch merkleRoot with
        | .error _ => none
        | .ok latest =>
            let epoch := latest.getD shape.assignmentHeight
            if epoch < shape.assignmentHeight then none
            else
              match rpc.activeNodesAtHeight epoch with
              | .error _ => none
              | .ok raw =>
                  (decodeSnapshot raw).map fun snapshot =>
                    ⟨merkleRoot, snapshot,
                      attest params myAddr merkleRoot shape.chunkCount snapshot held goesThrough⟩

/-! ### Manifest push -/

inductive ManifestAckError where
  | chainProbe (e : Str)
  | refused (reason : ManifestPushError)
  | privatePersistence (e : StoreError)
  | persistence (e : StoreError)
  | chainCount (declared registered : Nat)

def ManifestAckError.message : ManifestAckError → String
  | chainProbe e => "chain probe failed: " ++ String.ofList e
  | refused reason => reason.message
  | privatePersistence e => "private manifest persistence failed: " ++ e.message
  | persistence e => "manifest persistence failed: " ++ e.message
  | chainCount declared registered =>
      "manifest declares " ++ toString declared ++ " chunks, the chain registered " ++
        toString registered

/-- `fetch_file_shape`: the row as the chain gives it, or the text of the failed probe. -/
def fetchFileShape (rpc : ChainRpc) (merkleRoot : Hash) : Except Str StorageFileInfoV2 :=
  match rpc.fileInfoV2 merkleRoot with
  | .error e => .error e
  | .ok none => .error (("file not registered on chain: " ++ rootText merkleRoot).toList)
  | .ok (some info) => .ok info

/-- A validated manifest enters the index where the root has none yet. -/
def V2Dispatcher.indexManifest (io : Io) (d : V2Dispatcher) (merkleRoot : Hash)
    (manifest : DataManifest) : V2Dispatcher × Option ManifestAckError :=
  match d.store.manifestIdx.getByMerkleRoot merkleRoot with
  | some _ => (d, none)
  | none =>
      match d.store.manifestIdx.insert io manifest with
      | (idx, .ok ()) => ({ d with store := { d.store with manifestIdx := idx } }, none)
      | (idx, .error e) =>
          ({ d with store := { d.store with manifestIdx := idx } }, some (.persistence e))

/-- `handle_manifest_push` up to its acknowledgement. -/
def V2Dispatcher.handleManifestPush [Blake3] [ManifestReader] (rpc : ChainRpc) (io : Io)
    (d : V2Dispatcher) (merkleRoot : Hash) (manifestBytes : Bytes) :
    V2Dispatcher × Option ManifestAckError :=
  match fetchFileShape rpc merkleRoot with
  | .error e => (d, some (.chainProbe e))
  | .ok shape =>
      if shape.visibility.isPrivate then
        match d.store.manifestIdx.getPrivateBytes merkleRoot with
        | some _ => (d, none)
        | none =>
            match d.store.manifestIdx.insertPrivate io merkleRoot manifestBytes with
            | (idx, .ok ()) => ({ d with store := { d.store with manifestIdx := idx } }, none)
            | (idx, .error e) =>
                ({ d with store := { d.store with manifestIdx := idx } },
                  some (.privatePersistence e))
      else
        match validateManifestPush (hexEncode merkleRoot.bytes) manifestBytes with
        | .error reason => (d, some (.refused reason))
        | .ok manifest => d.indexManifest io merkleRoot manifest

/-- `accept_refetched_manifest`: the declared chunk count must be the chain's. -/
def V2Dispatcher.acceptRefetchedManifest [Blake3] [ManifestReader] (io : Io) (d : V2Dispatcher)
    (merkleRoot : Hash) (chainChunkCount : Nat) (manifestBytes : Bytes) :
    V2Dispatcher × Option ManifestAckError :=
  match validateManifestPush (hexEncode merkleRoot.bytes) manifestBytes with
  | .error reason => (d, some (.refused reason))
  | .ok manifest =>
      if manifest.chunkCount ≠ chainChunkCount then
        (d, some (.chainCount manifest.chunkCount chainChunkCount))
      else d.indexManifest io merkleRoot manifest

end Snip
