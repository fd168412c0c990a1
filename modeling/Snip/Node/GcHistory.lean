/-
A store root over time, with its list of protected chunks as the file it is
(`sum-store/src/lib.rs`, `manifest_index.rs`, `sum-node/src/inbound_v2.rs`,
`market_sync.rs`).

`store_v2_pushed_chunk` takes the store's lock twice, so it is two steps: the exemption
is recorded, and the chunk is written.  A sweep holds the lock and is one.  The process
may end between any two of them and within each.  The list and its marker are in
`GcFiles`; the fields of `ManifestDir` that stand for them elsewhere are not used here.
-/
import Snip.Store.GcList
import Snip.Node.MarketSync

namespace Snip

structure StoreRoot where
  files : ChunkStore
  /-- What is on disk under `manifests/` and, while the store is open, the index of it. -/
  idx : ManifestIndex
  gcFiles : GcFiles
  worker : MarketSyncWorker
  isOpen : Bool
  /-- The pushes whose exemption is recorded. -/
  recorded : List Str
  /-- A write to the list has failed since the store was opened. -/
  writeFailed : Bool

/-- How the system calls of an open end. -/
structure OpenIo where
  order : List Hash
  rewrite : Bool
  migrates : Io
  gc : GcLoadIo
  /-- The directory can be listed. -/
  loads : Bool
  /-- The chunk files can be listed. -/
  lists : Bool
  seed : GcSeedIo

namespace StoreRoot

/-- `SumStore::new`; where it returns an error the store stays closed. -/
def new [Blake3] (legacy : Option DataManifest) (io : OpenIo) (s : StoreRoot) : StoreRoot :=
  let (gcFiles, cids, intact) := s.gcFiles.load io.gc
  let idx := { ManifestIndex.loadWith legacy s.idx.dir io.order io.rewrite io.migrates with
    gcProtected := cids
    gcProtectionIntact := intact }
  let s := { s with
    idx := idx
    gcFiles := gcFiles
    worker := { s.worker with gc := { s.worker.gc with unassignedSince := ∅ } }
    recorded := []
    writeFailed := false }
  if !io.loads then s
  else if intact = none then
    if !io.lists then s
    else
      match gcFiles.seed io.seed s.files.listAllCids with
      | (gcFiles, .error _) => { s with gcFiles := gcFiles }
      | (gcFiles, .ok ()) =>
          { s with
            gcFiles := gcFiles
            idx := { idx with
              gcProtected := s.files.listAllCids ++ idx.gcProtected
              gcProtectionIntact := some true }
            isOpen := true }
  else { s with isOpen := true }

/-- `record_v2_held_chunk`. -/
def recordV2HeldChunk (io : GcAppendIo) (s : StoreRoot) (root : Hash) (cid : Str) :
    StoreRoot × Except StoreError Unit :=
  if cid ∈ s.idx.gcProtected then ({ s with recorded := cid :: s.recorded }, .ok ())
  else if s.idx.gcProtectionIntact = none then (s, .error .gcListNotInitialized)
  else if s.idx.gcProtectionIntact ≠ some true then (s, .error .gcListUnavailable)
  else
    match s.gcFiles.append io (GcEntry.v2 root cid).line with
    | (gcFiles, .error e) =>
        ({ s with
            gcFiles := gcFiles
            idx := { s.idx with gcProtectionIntact := some false }
            writeFailed := true }, .error e)
    | (gcFiles, .ok ()) =>
        ({ s with
            gcFiles := gcFiles
            idx := { s.idx with gcProtected := cid :: s.idx.gcProtected }
            recorded := cid :: s.recorded }, .ok ())

/-- The end of `sync_cycle`. -/
def sweep [Blake3] (s : StoreRoot) (rows : List StorageFileInfo) (nodeAddrs : List Addr)
    (pollAge now : Nat) (deletes : Str → Bool) : StoreRoot :=
  let candidates := s.worker.computeGcCandidates rows nodeAddrs s.idx
  let (gc, files) := s.worker.gc.sweepCandidates s.files candidates pollAge now deletes
  { s with files := files, worker := { s.worker with gc := gc } }

end StoreRoot

inductive StoreEvent [Blake3] where
  | new (io : OpenIo)
  | close
  | crash (kept : Nat) (keepsList keepsMarker : Bool)
  /-- The first half of `store_v2_pushed_chunk`, on a chunk with this leaf. -/
  | record (root leaf : Hash) (io : GcAppendIo)
  /-- The second half. -/
  | put (leaf : Hash) (data : Bytes) (io : Io)
  /-- A chunk that is stored in any other way. -/
  | otherPut (cid : Str) (data : Bytes) (io : Io)
  | call (c : IndexCall)
  | sweep (rows : List StorageFileInfo) (nodeAddrs : List Addr) (pollAge now : Nat)
      (deletes : Str → Bool)
  /-- Between two opens the list is lost, or what is there does not parse. -/
  | damage (list : Option Str)

/-- One event; `none` where it cannot happen. -/
def StoreRoot.step [Blake3] (legacy : Option DataManifest) (s : StoreRoot) :
    StoreEvent → Option StoreRoot
  | .new io => if s.isOpen then none else some (s.new legacy io)
  | .close => some { s with isOpen := false }
  | .crash kept keepsList keepsMarker =>
      some { s with isOpen := false, gcFiles := s.gcFiles.crash kept keepsList keepsMarker }
  | .record root leaf io =>
      if s.isOpen then some (s.recordV2HeldChunk io root (cidFromBlake3Hash leaf)).1 else none
  | .put leaf data io =>
      if s.isOpen ∧ cidFromBlake3Hash leaf ∈ s.recorded then
        some { s with files := (s.files.put io (cidFromBlake3Hash leaf) data).1 }
      else none
  | .otherPut cid data io =>
      if s.isOpen then some { s with files := (s.files.put io cid data).1 } else none
  | .call c => if s.isOpen then some { s with idx := s.idx.call c } else none
  | .sweep rows nodeAddrs pollAge now deletes =>
      if s.isOpen then some (s.sweep rows nodeAddrs pollAge now deletes) else none
  | .damage list =>
      if s.isOpen = false ∧ list.bind parseGcLines = none then
        some { s with gcFiles := { s.gcFiles with list := list.map fun text => ⟨text, []⟩ } }
      else none

end Snip
