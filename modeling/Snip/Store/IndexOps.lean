/-
Operations on a manifest index, one after the other (`sum-store/src/manifest_index.rs`).

`Store/SumStore` has each operation.  Here are the operations as values, so that a
history of an index is a list of them.  A reload is one of them: it keeps what is on
disk and reads it in whatever order the directory lists it.  A call that fails before
it writes changes nothing and is no operation.
-/
import Snip.Store.SumStore

namespace Snip

/-- `ValidatedManifest`: a manifest that passed the check of a pushed one. -/
structure ValidatedManifest [Blake3] where
  manifest : DataManifest
  rootHex : Str
  expectedRoot : Hash
  checked : checkManifest rootHex expectedRoot manifest = .ok manifest

inductive AcceptOutcome where
  | indexed (manifest : DataManifest)
  | alreadyPresent (manifest : DataManifest)

namespace ManifestIndex

/-- `commit_validated`. -/
def commitValidated [Blake3] (io : Io) (idx : ManifestIndex) (validated : ValidatedManifest) :
    ManifestIndex × Except StoreError AcceptOutcome :=
  match idx.getByMerkleRoot validated.manifest.merkleRoot with
  | some _ => (idx, .ok (.alreadyPresent validated.manifest))
  | none =>
      match idx.insert io validated.manifest with
      | (idx, .ok ()) => (idx, .ok (.indexed validated.manifest))
      | (idx, .error e) => (idx, .error e)

/-- `write_manifest`, as far as the disk goes. -/
def writeManifest (io : Io) (idx : ManifestIndex) (manifest : DataManifest) : ManifestIndex :=
  { idx with dir := { idx.dir with
      cbor := match io with
        | .lost => idx.dir.cbor.erase manifest.merkleRoot
        | .done | .unsynced => idx.dir.cbor.insert manifest.merkleRoot manifest } }

/-- The end of `load_with`: an index with no manifest takes over `manifest.cbor`.  An error of
the write is ignored. -/
def migrateLegacy (io : Io) (legacy : Option DataManifest) (idx : ManifestIndex) : ManifestIndex :=
  match legacy with
  | none => idx
  | some manifest =>
      if idx.byRoot.keys = [] ∧ idx.privateBytes.keys = [] then
        (idx.writeManifest io manifest).addToMaps manifest
      else idx

/-- `load`, with the manifest of an earlier version beside the directory. -/
def loadWith [Blake3] (legacy : Option DataManifest) (dir : ManifestDir) (order : List Hash)
    (rewrite : Bool) (io : Io) : ManifestIndex :=
  (load dir order rewrite).migrateLegacy io legacy

end ManifestIndex

/-- A call of the running node. -/
inductive IndexCall [Blake3] where
  | insert (manifest : DataManifest) (io : Io)
  | commitValidated (validated : ValidatedManifest) (io : Io)
  | insertPrivate (root : Hash) (bytes : Bytes) (io : Io)
  | recordPrivateChunkCid (root : Hash) (cid : Str) (io : Io)
  | recordV2HeldIndex (root : Hash) (chunkIndex : Nat) (cid : Str) (io : Io)
  | recordV2PushedProof (root : Hash) (chunkIndex : Nat) (leaf : Hash) (path : List Hash) (io : Io)

/-- The index after a call. -/
def ManifestIndex.call [Blake3] (idx : ManifestIndex) : IndexCall → ManifestIndex
  | .insert manifest io => (idx.insert io manifest).1
  | .commitValidated validated io => (idx.commitValidated io validated).1
  | .insertPrivate root bytes io => (idx.insertPrivate io root bytes).1
  | .recordPrivateChunkCid root cid io => (idx.recordPrivateChunkCid io root cid).1
  | .recordV2HeldIndex root chunkIndex cid io => (idx.recordV2HeldIndex io root chunkIndex cid).1
  | .recordV2PushedProof root chunkIndex leaf path io =>
      (idx.recordV2PushedProof io root chunkIndex leaf path).1

/-- A call, or a load of the directory as it is. -/
inductive IndexOp [Blake3] where
  | call (c : IndexCall)
  | reload (order : List Hash) (rewrite : Bool) (io : Io)

/-- The index after an operation. -/
def ManifestIndex.apply [Blake3] (legacy : Option DataManifest) (idx : ManifestIndex) :
    IndexOp → ManifestIndex
  | .call c => idx.call c
  | .reload order rewrite io => ManifestIndex.loadWith legacy idx.dir order rewrite io

end Snip
