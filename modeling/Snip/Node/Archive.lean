/-
A whole archive over time.

The events are everything that may happen to it: pushes and manifest pushes from
any peer, chunks and manifests its re-fetcher accepted, restarts, garbage
collection of the market-sync worker, and attestation runs.  A restart keeps what
is on disk and nothing else.  The answer to a storage challenge
(`sum-node/src/por_worker.rs`) is a function of the state.
-/
import Snip.Node.InboundV2
import Snip.Node.MarketSync

namespace Snip

/-! ### Answering a challenge -/

inductive AnswerSource where
  | publicManifest
  | pushedProof
deriving DecidableEq

structure PorAnswer where
  chunkHash : Hash
  merklePath : List Hash
  source : AnswerSource
deriving DecidableEq

inductive PorError where
  | noChunk (chunkIndex : Nat) (root : Hash)
  | chunkUnreadable (e : StoreError)
  | noPushedProof (chunkIndex : Nat) (root : Hash)
  | noHeldRecord (chunkIndex : Nat) (root : Hash)
  | heldUnreadable (chunkIndex : Nat) (root : Hash) (cid : Str) (e : StoreError)
  | leafMismatch (chunkIndex : Nat) (root : Hash) (cid : Str)

def PorError.message : PorError → String
  | noChunk chunkIndex root =>
      "no chunk at index " ++ toString chunkIndex ++ " for root " ++ rootText root
  | chunkUnreadable e => e.message
  | noPushedProof chunkIndex root =>
      "not answering: no Public manifest and no recorded push proof for chunk " ++
        toString chunkIndex ++ " of root " ++ rootText root ++
        " (chunk not pushed to this archive, or pushed before push proofs were recorded)"
  | noHeldRecord chunkIndex root =>
      "not answering: chunk " ++ toString chunkIndex ++ " of root " ++ rootText root ++
        " has a recorded push proof but no held-index record"
  | heldUnreadable chunkIndex root cid e =>
      "not answering: chunk " ++ toString chunkIndex ++ " of root " ++ rootText root ++ " (" ++
        String.ofList cid ++ ") unreadable: " ++ e.message
  | leafMismatch chunkIndex root cid =>
      "not answering: chunk " ++ toString chunkIndex ++ " of root " ++ rootText root ++ " (" ++
        String.ofList cid ++ ") does not hash to its recorded push leaf"

/-- `answer_from_pushed_proof`. -/
def answerFromPushedProof [Blake3] (idx : ManifestIndex) (files : ChunkStore) (root : Hash)
    (chunkIndex : Nat) : Except PorError (Hash × List Hash) :=
  match idx.v2PushedProof root chunkIndex with
  | none => .error (.noPushedProof chunkIndex root)
  | some proof =>
      match idx.v2HeldRecord root chunkIndex with
      | none => .error (.noHeldRecord chunkIndex root)
      | some cid =>
          match files.get cid with
          | .error e => .error (.heldUnreadable chunkIndex root cid e)
          | .ok bytes =>
              if Blake3.hash bytes ≠ proof.leaf then .error (.leafMismatch chunkIndex root cid)
              else .ok (proof.leaf, proof.path)

/-- `build_answer`: a Public manifest is read first, whoever sent it. -/
def buildAnswer [Blake3] (idx : ManifestIndex) (files : ChunkStore) (root : Hash)
    (chunkIndex : Nat) : Except PorError PorAnswer :=
  match idx.getByMerkleRoot root with
  | none =>
      match answerFromPushedProof idx files root chunkIndex with
      | .error e => .error e
      | .ok (chunkHash, merklePath) => .ok ⟨chunkHash, merklePath, .pushedProof⟩
  | some manifest =>
      match idx.chunkCid root chunkIndex with
      | none => .error (.noChunk chunkIndex root)
      | some chunkCid =>
          match files.get chunkCid with
          | .error e => .error (.chunkUnreadable e)
          | .ok chunkData =>
              match (MerkleTree.build manifest.leaves).generateProof chunkIndex with
              -- The manifest has a chunk at this index, so the tree has a leaf there.
              | none => .error (.noChunk chunkIndex root)
              | some merklePath => .ok ⟨Blake3.hash chunkData, merklePath, .publicManifest⟩

/-! ### The archive and what happens to it -/

structure Archive where
  dispatcher : V2Dispatcher
  worker : MarketSyncWorker

/-- A chunk that was sent to the archive, with its proof. -/
structure PushRequest where
  data : Bytes
  merkleRoot : Hash
  chunkIndex : Nat
  merklePath : List Hash
deriving DecidableEq

inductive ArchiveEvent where
  /-- A Push of a peer, or a chunk the re-fetcher got (no Private ones). -/
  | push (request : PushRequest) (allowPrivate : Bool) (rpc : ChainRpc) (clock : Nat → Nat)
      (io : PushIo)
  | manifestPush (merkleRoot : Hash) (manifestBytes : Bytes) (rpc : ChainRpc) (io : Io)
  | refetchedManifest (merkleRoot : Hash) (manifestBytes : Bytes) (rpc : ChainRpc) (io : Io)
  | restart (order : List Hash) (rewrite : Bool)
  | gcSweep (files : List StorageFileInfo) (nodeAddrs : List Addr) (pollAge now : Nat)
      (deletes : Str → Bool)
  | attestation (merkleRoot : Hash) (rpc : ChainRpc) (goesThrough : Nat → Bool)

/-- What an event sends out. -/
inductive ArchiveOutput where
  | pushAck (request : PushRequest) (error : Option PushError)
  | manifestPushAck (merkleRoot : Hash) (error : Option ManifestAckError)
  | attested (run : Option Attestation)
  | nothing

/-- The archive as it comes up over what is on disk. -/
def Archive.start [Blake3] (myAddr : Addr) (params : V2Params) (worker : MarketSyncWorker)
    (files : ChunkStore) (dir : ManifestDir) (order : List Hash) (rewrite : Bool) : Archive :=
  let dispatcher : V2Dispatcher :=
    ⟨SumStore.new files dir order rewrite, PushValidator.new myAddr params, []⟩
  ⟨dispatcher.seedHeldFromDisk, worker⟩

/-- The archive's first start, with nothing on disk. -/
def Archive.fresh [Blake3] (myAddr : Addr) (params : V2Params) (worker : MarketSyncWorker) :
    Archive :=
  Archive.start myAddr params worker ∅ ManifestDir.fresh [] true

def Archive.step [Blake3] [ManifestReader] [AssignmentScore] (a : Archive) :
    ArchiveEvent → Archive × ArchiveOutput
  | .push request allowPrivate rpc clock io =>
      let (d, error) := a.dispatcher.acceptValidated rpc clock io request.data request.merkleRoot
        request.chunkIndex request.merklePath allowPrivate
      ({ a with dispatcher := d }, .pushAck request error)
  | .manifestPush merkleRoot manifestBytes rpc io =>
      let (d, error) := a.dispatcher.handleManifestPush rpc io merkleRoot manifestBytes
      ({ a with dispatcher := d }, .manifestPushAck merkleRoot error)
  | .refetchedManifest merkleRoot manifestBytes rpc io =>
      match fetchFileShape rpc merkleRoot with
      | .error _ => (a, .nothing)
      | .ok shape =>
          let (d, _) := a.dispatcher.acceptRefetchedManifest io merkleRoot shape.chunkCount
            manifestBytes
          ({ a with dispatcher := d }, .nothing)
  | .restart order rewrite =>
      (Archive.start a.dispatcher.validator.myAddr a.dispatcher.validator.params
        { a.worker with gc := { a.worker.gc with unassignedSince := ∅ } }
        a.dispatcher.store.files a.dispatcher.store.manifestIdx.dir order rewrite, .nothing)
  | .gcSweep files nodeAddrs pollAge now deletes =>
      let store := a.dispatcher.store
      let candidates := a.worker.computeGcCandidates files nodeAddrs store.manifestIdx
      let (gc, chunks) := a.worker.gc.sweepCandidates store.files candidates pollAge now deletes
      (⟨{ a.dispatcher with store := { store with files := chunks } },
        { a.worker with gc := gc }⟩, .nothing)
  | .attestation merkleRoot rpc goesThrough =>
      let v := a.dispatcher.validator
      (a, .attested (runAttestation rpc v.params v.myAddr merkleRoot
        (a.dispatcher.heldFor merkleRoot) goesThrough))

/-- The state after a run. -/
def Archive.run [Blake3] [ManifestReader] [AssignmentScore] (a : Archive)
    (events : List ArchiveEvent) : Archive :=
  events.foldl (fun a e => (a.step e).1) a

end Snip
