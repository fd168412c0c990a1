/-
Garbage collection of the market-sync worker (`sum-node/src/market_sync.rs`,
`sum-store/src/gc.rs`).

A candidate is a chunk that some funded first-version file lists for another node
and that nothing else wants.  A candidate is deleted once it has been one for the
grace period.
-/
import Snip.Node.PushValidator
import Snip.Store.SumStore
import Snip.Store.Assignment

namespace Snip

/-- The row of a funded first-version file, as far as it is read here. -/
structure StorageFileInfo where
  merkleRoot : Str
  totalSizeBytes : Nat

structure GarbageCollector where
  unassignedSince : Map Str Nat
  gracePeriod : Nat

def GarbageCollector.new (gracePeriod : Nat) : GarbageCollector := ⟨∅, gracePeriod⟩

structure MarketSyncWorker where
  l1Address : Addr
  replicationFactor : Nat
  gc : GarbageCollector

/-- The node list of a cycle: filtered, decoded and sorted, an address that fails left out. -/
def activeNodeAddrs (records : List NodeRecordInfo) : List Addr :=
  ((records.filter NodeRecordInfo.isActiveArchive).filterMap NodeRecordInfo.address).insertionSort
    (· ≤ ·)

/-- The worker's own `hex_to_32`, which takes either case. -/
def hexTo32AnyCase (hex : Str) : Option Hash :=
  if hex.length ≠ 64 then none else (hexPairs hex).bind Hash.ofBytes?

def stripHexPrefix : Str → Str
  | '0' :: 'x' :: rest => rest
  | text => text

/-- The chunks of one funded file: those assigned here, and the others. -/
def MarketSyncWorker.partition [Blake3] (w : MarketSyncWorker) (idx : ManifestIndex)
    (nodeAddrs : List Addr) (root : Hash) (chunkCount : Nat) : List Str × List Str :=
  let mine := chunksForNode
    (computeChunkAssignment root chunkCount nodeAddrs w.replicationFactor) w.l1Address
  match idx.getByMerkleRoot root with
  | none => ([], [])
  | some manifest =>
      let chunks := manifest.chunks.zipIdx
      ((chunks.filter fun c => c.2 ∈ mine).map fun c => c.1.cid,
        (chunks.filter fun c => c.2 ∉ mine).map fun c => c.1.cid)

/-- `compute_gc_candidates`. -/
def MarketSyncWorker.computeGcCandidates [Blake3] (w : MarketSyncWorker)
    (files : List StorageFileInfo) (nodeAddrs : List Addr) (idx : ManifestIndex) : List Str :=
  if idx.gcProtectionIntact ≠ some true then []
  else
    let funded := files.filterMap fun f =>
      (hexTo32AnyCase (stripHexPrefix f.merkleRoot)).map fun root => (root, f.totalSizeBytes)
    let parts := (funded.filter fun f => f.2 ≠ 0).map fun f =>
      w.partition idx nodeAddrs f.1 ((f.2 + chunkSize - 1) / chunkSize)
    let fundedRoots := funded.map Prod.fst
    let others := (idx.allMerkleRoots.filter fun r => r ∉ fundedRoots).flatMap fun r =>
      match idx.getByMerkleRoot r with
      | none => []
      | some manifest => manifest.chunks.map ChunkDescriptor.cid
    let keep := parts.flatMap Prod.fst ++ others
    (parts.flatMap Prod.snd).filter fun cid =>
      cid ∉ keep && !idx.isPrivateChunkCid cid && !idx.isGcProtected cid

/-- One name of the directory in `sweep_where`; `deletes` says whether the file goes. -/
def sweepOne (deletable : Str → Bool) (deletes : Str → Bool) (now : Nat)
    (s : GarbageCollector × ChunkStore) (cid : Str) : GarbageCollector × ChunkStore :=
  if !deletable cid then s
  else
    let firstSeen := (s.1.unassignedSince.lookup cid).getD now
    let gc := { s.1 with unassignedSince := s.1.unassignedSince.insert cid firstSeen }
    if s.1.gracePeriod ≤ now - firstSeen && deletes cid && s.2.has cid then
      ({ gc with unassignedSince := gc.unassignedSince.erase cid }, s.2.erase cid)
    else (gc, s.2)

/-- The keys that are still deletable. -/
def retainDeletable (deletable : Str → Bool) (since : Map Str Nat) : Map Str Nat :=
  since.keys.foldl (fun acc cid => if deletable cid then acc else acc.erase cid) since

/-- `sweep_where`, times in milliseconds: nothing is deleted on a poll older than five minutes. -/
def GarbageCollector.sweepWhere (gc : GarbageCollector) (files : ChunkStore) (pollAge now : Nat)
    (deletable deletes : Str → Bool) : GarbageCollector × ChunkStore :=
  if 300000 < pollAge then (gc, files)
  else
    let gc := { gc with unassignedSince := retainDeletable deletable gc.unassignedSince }
    files.listAllCids.foldl (sweepOne deletable deletes now) (gc, files)

/-- `mark_and_sweep`. -/
def GarbageCollector.markAndSweep (gc : GarbageCollector) (files : ChunkStore)
    (assignedCids : List Str) (pollAge now : Nat) (deletes : Str → Bool) :
    GarbageCollector × ChunkStore :=
  gc.sweepWhere files pollAge now (fun cid => cid ∉ assignedCids) deletes

/-- `sweep_candidates`. -/
def GarbageCollector.sweepCandidates (gc : GarbageCollector) (files : ChunkStore)
    (candidates : List Str) (pollAge now : Nat) (deletes : Str → Bool) :
    GarbageCollector × ChunkStore :=
  gc.sweepWhere files pollAge now (fun cid => cid ∈ candidates) deletes

end Snip
