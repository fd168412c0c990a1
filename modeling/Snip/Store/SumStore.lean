/-
The archive's store: chunk files, the manifest directory with its sidecar files,
and the index of it in memory (`sum-store/src/store.rs`, `publication.rs`,
`manifest_index.rs`, `lib.rs`).

A write may fail, and a failed write may still have reached the disk: every
writing operation takes an `Io` that says which of the three happened.  Reading
returns what is there.

The `.v2_held` and `.v2_proofs` files of all roots are kept as one list of lines
each, tagged with their root.  A line is modelled by the record it parses to, so a
torn last line, which every reader and every later append cuts off, is no line.  A
`.private_chunks` file is its lines as they are, for its reader takes more than one text
for the same identifier.
-/
import Mathlib.Data.List.DropRight
import Snip.Lib.Ledger
import Snip.Lib.Maps
import Snip.Store.Manifest

namespace Snip

/-- A finite map. -/
abbrev Map (κ β : Type) := AList fun _ : κ => β

/-- How a write ended. -/
inductive Io where
  /-- Written and synced. -/
  | done
  /-- Reported as failed, and nothing usable was written. -/
  | lost
  /-- Reported as failed, though all of it was written. -/
  | unsynced
deriving DecidableEq

/-- The Merkle leaf and path that a validated V2 Push carried. -/
structure PushedProof where
  leaf : Hash
  path : List Hash
deriving DecidableEq

inductive StoreError where
  | io
  | notFound (cid : Str)
  | integrityMismatch (expected actual : Str)
  | rebindPrivateChunk (cid : Str) (existing root : Hash)
  | gcListNotInitialized
  | gcListUnavailable
  | rebindHeldIndex (chunkIndex : Nat) (root : Hash) (existing cid : Str)
  | rebindPushedProof (chunkIndex : Nat) (root existing leaf : Hash)
  | pushProofNotRecorded (chunkIndex : Nat) (root : Hash)

/-- The root with its `0x` prefix. -/
def rootText (root : Hash) : String := "0x" ++ String.ofList (hexEncode root.bytes)

def StoreError.message : StoreError → String
  | io => "I/O error"
  | notFound cid => "chunk not found: " ++ String.ofList cid
  | integrityMismatch expected actual =>
      "integrity check failed: expected " ++ String.ofList expected ++ ", got " ++ String.ofList actual
  | rebindPrivateChunk cid existing root =>
      "cid " ++ String.ofList cid ++ " already mapped to root " ++ rootText existing ++
        " — refusing rebind to " ++ rootText root
  | gcListNotInitialized =>
      "GC-protected chunk list not initialized (open the store via SumStore::new)"
  | gcListUnavailable => "GC-protected chunk list is unavailable; refusing to accept a V2 chunk"
  | rebindHeldIndex chunkIndex root existing cid =>
      "chunk " ++ toString chunkIndex ++ " of root " ++ rootText root ++ " is recorded as " ++
        String.ofList existing ++ "; refusing to rebind it to " ++ String.ofList cid
  | rebindPushedProof chunkIndex root existing leaf =>
      "chunk " ++ toString chunkIndex ++ " of root " ++ rootText root ++
        " has a recorded push proof for leaf " ++ String.ofList (hexEncode existing.bytes) ++
        "; refusing to rebind it to leaf " ++ String.ofList (hexEncode leaf.bytes)
  | pushProofNotRecorded chunkIndex root =>
      "push proof for chunk " ++ toString chunkIndex ++ " does not lead to root " ++
        rootText root ++ "; not recorded"

/-! ### Chunk files -/

/-- The `.chunk` files by name. -/
abbrev ChunkStore := Map Str Bytes

namespace ChunkStore

def has (s : ChunkStore) (cid : Str) : Bool := (s.lookup cid).isSome

def get (s : ChunkStore) (cid : Str) : Except StoreError Bytes :=
  match s.lookup cid with
  | some data => .ok data
  | none => .error (.notFound cid)

/--
`put`: the bytes must hash to the name.  (The name is then a canonical identifier,
so `canonical_cid` refuses nothing that this check lets through.)  A file that is
already there is never written again, only checked.
-/
def put [Blake3] (io : Io) (s : ChunkStore) (cid : Str) (data : Bytes) :
    ChunkStore × Except StoreError Unit :=
  if cidFromData data ≠ cid then (s, .error (.integrityMismatch cid (cidFromData data)))
  else
    match s.lookup cid with
    | some existing =>
        if cidFromData existing ≠ cid then
          (s, .error (.integrityMismatch cid (cidFromData existing)))
        else (s, if io = .done then .ok () else .error .io)
    | none =>
        match io with
        | .done => (s.insert cid data, .ok ())
        | .lost => (s, .error .io)
        | .unsynced => (s.insert cid data, .error .io)

def listAllCids (s : ChunkStore) : List Str := s.keys

end ChunkStore

/-! ### The manifest directory and its index -/

/-- What is on disk under `manifests/`. -/
structure ManifestDir where
  /-- `<root>.cbor` -/
  cbor : Map Hash DataManifest
  /-- `<root>.opaque` -/
  opaqueFiles : Map Hash Bytes
  /-- `<root>.private_chunks`, by its lines -/
  privateChunks : Map Hash (List Str)
  /-- `<root>.v2_held`, one chunk index and content identifier a line -/
  v2Held : List ((Hash × Nat) × Str)
  /-- `<root>.v2_proofs`, one chunk index, leaf and path a line -/
  v2Proofs : List ((Hash × Nat) × PushedProof)
  /-- `gc_protected.list`, one content identifier a line -/
  gcList : Option (List Str)
  /-- `gc_protected.initialized` -/
  gcMarker : Bool

/-- `ManifestIndex`: the directory and what of it is in memory. -/
structure ManifestIndex where
  dir : ManifestDir
  byRoot : Map Hash DataManifest
  cidToRoot : Map Str Hash
  privateBytes : Map Hash Bytes
  privateCidToRoot : Map Str Hash
  gcProtected : List Str
  v2Held : Map (Hash × Nat) Str
  v2Proofs : Map (Hash × Nat) PushedProof
  gcProtectionIntact : Option Bool

/-! ### Lines of text -/

/-- `char::is_whitespace`. -/
def isWhitespace (c : Char) : Bool :=
  let n := c.toNat
  (9 ≤ n && n ≤ 13) || n = 32 || n = 0x85 || n = 0xa0 || n = 0x1680 || (0x2000 ≤ n && n ≤ 0x200a) ||
    n = 0x2028 || n = 0x2029 || n = 0x202f || n = 0x205f || n = 0x3000

/-- `str::trim`. -/
def trim (s : Str) : Str := (s.dropWhile isWhitespace).rdropWhile isWhitespace

/-- The identifier a line of `<root>.private_chunks` stands for. -/
def readPrivateChunk (line : Str) : Option Str := if trim line = [] then none else some (trim line)

/-- `line` and a newline after all that is written; a text with newlines in it is more lines
than one.  Of a text that is written in part nothing is read. -/
def appendText (io : Io) (lines : List Str) (line : Str) : List Str × Except StoreError Unit :=
  match io with
  | .done => (lines ++ line.splitOn '\n', .ok ())
  | .lost => (lines, .error .io)
  | .unsynced => (lines ++ line.splitOn '\n', .error .io)

/-! ### The index -/

/-- One more line of a sidecar file. -/
def appendLine {α : Type} (io : Io) (lines : List α) (line : α) :
    List α × Except StoreError Unit :=
  match io with
  | .done => (lines ++ [line], .ok ())
  | .lost => (lines, .error .io)
  | .unsynced => (lines ++ [line], .error .io)

/-- `pushed_proof_verifies`: the path is a possible one and leads to the root. -/
def pushedProofVerifies [Blake3] (root : Hash) (chunkIndex : Nat) (proof : PushedProof) : Bool :=
  proof.path.length ≤ 32 && chunkIndex >>> proof.path.length = 0 &&
    verifyMerkleProofBytes proof.leaf chunkIndex proof.path root

namespace ManifestIndex

def getByMerkleRoot (idx : ManifestIndex) (root : Hash) : Option DataManifest :=
  idx.byRoot.lookup root

def getPrivateBytes (idx : ManifestIndex) (root : Hash) : Option Bytes :=
  idx.privateBytes.lookup root

def chunkCid (idx : ManifestIndex) (root : Hash) (chunkIndex : Nat) : Option Str :=
  (idx.byRoot.lookup root).bind fun m => (m.chunks[chunkIndex]?).map ChunkDescriptor.cid

def merkleRootForCid (idx : ManifestIndex) (cid : Str) : Option Hash :=
  (idx.cidToRoot.lookup cid).or (idx.privateCidToRoot.lookup cid)

def isPrivateChunkCid (idx : ManifestIndex) (cid : Str) : Bool :=
  (idx.privateCidToRoot.lookup cid).isSome

def isGcProtected (idx : ManifestIndex) (cid : Str) : Bool := cid ∈ idx.gcProtected

def v2PushedProof (idx : ManifestIndex) (root : Hash) (chunkIndex : Nat) : Option PushedProof :=
  idx.v2Proofs.lookup (root, chunkIndex)

def v2HeldRecord (idx : ManifestIndex) (root : Hash) (chunkIndex : Nat) : Option Str :=
  idx.v2Held.lookup (root, chunkIndex)

def allMerkleRoots (idx : ManifestIndex) : List Hash :=
  idx.byRoot.keys ++ idx.privateBytes.keys

/-- A later manifest takes over the identifiers it shares with an earlier one. -/
def addToMaps (idx : ManifestIndex) (manifest : DataManifest) : ManifestIndex :=
  { idx with
    cidToRoot := manifest.chunks.foldl (fun acc c => acc.insert c.cid manifest.merkleRoot)
      idx.cidToRoot
    byRoot := idx.byRoot.insert manifest.merkleRoot manifest }

/-- `insert`: a file that was only written in part does not decode when it is read again. -/
def insert (io : Io) (idx : ManifestIndex) (manifest : DataManifest) :
    ManifestIndex × Except StoreError Unit :=
  let onDisk := fun cbor => { idx with dir := { idx.dir with cbor := cbor } }
  match io with
  | .done =>
      ((onDisk (idx.dir.cbor.insert manifest.merkleRoot manifest)).addToMaps manifest, .ok ())
  | .lost => (onDisk (idx.dir.cbor.erase manifest.merkleRoot), .error .io)
  | .unsynced => (onDisk (idx.dir.cbor.insert manifest.merkleRoot manifest), .error .io)

def insertPrivate (io : Io) (idx : ManifestIndex) (root : Hash) (bytes : Bytes) :
    ManifestIndex × Except StoreError Unit :=
  let onDisk := fun files => { idx with dir := { idx.dir with opaqueFiles := files } }
  match io with
  | .done =>
      ({ onDisk (idx.dir.opaqueFiles.insert root bytes) with
          privateBytes := idx.privateBytes.insert root bytes }, .ok ())
  -- The file is cut to nothing before it is written, and bytes that no one decodes are read again.
  | .lost => (onDisk (idx.dir.opaqueFiles.insert root []), .error .io)
  | .unsynced => (onDisk (idx.dir.opaqueFiles.insert root bytes), .error .io)

def recordPrivateChunkCid (io : Io) (idx : ManifestIndex) (root : Hash) (cid : Str) :
    ManifestIndex × Except StoreError Unit :=
  match idx.privateCidToRoot.lookup cid with
  | some existing =>
      if existing = root then (idx, .ok ())
      else (idx, .error (.rebindPrivateChunk cid existing root))
  | none =>
      let (lines, result) := appendText io ((idx.dir.privateChunks.lookup root).getD []) cid
      let files := idx.dir.privateChunks.insert root lines
      let idx := { idx with dir := { idx.dir with privateChunks := files } }
      match result with
      | .ok () => ({ idx with privateCidToRoot := idx.privateCidToRoot.insert cid root }, .ok ())
      | .error e => (idx, .error e)

/-- `record_v2_held_chunk`: the exemption from garbage collection, before the chunk is written. -/
def recordV2HeldChunk (io : Io) (idx : ManifestIndex) (cid : Str) :
    ManifestIndex × Except StoreError Unit :=
  if cid ∈ idx.gcProtected then (idx, .ok ())
  else if idx.gcProtectionIntact = none then (idx, .error .gcListNotInitialized)
  else if idx.gcProtectionIntact ≠ some true then (idx, .error .gcListUnavailable)
  else
    match idx.dir.gcList with
    -- The list is opened for appending only; a missing one is not created.
    | none => ({ idx with gcProtectionIntact := some false }, .error .io)
    | some list =>
        let (lines, result) := appendLine io list cid
        let idx := { idx with dir := { idx.dir with gcList := some lines } }
        match result with
        | .ok () => ({ idx with gcProtected := cid :: idx.gcProtected }, .ok ())
        | .error e => ({ idx with gcProtectionIntact := some false }, .error e)

def recordV2HeldIndex (io : Io) (idx : ManifestIndex) (root : Hash) (chunkIndex : Nat)
    (cid : Str) : ManifestIndex × Except StoreError Unit :=
  match idx.v2Held.lookup (root, chunkIndex) with
  | some existing =>
      if existing = cid then (idx, .ok ())
      else (idx, .error (.rebindHeldIndex chunkIndex root existing cid))
  | none =>
      let (lines, result) := appendLine io idx.dir.v2Held ((root, chunkIndex), cid)
      let idx := { idx with dir := { idx.dir with v2Held := lines } }
      match result with
      | .ok () => ({ idx with v2Held := idx.v2Held.insert (root, chunkIndex) cid }, .ok ())
      | .error e => (idx, .error e)

def recordV2PushedProof [Blake3] (io : Io) (idx : ManifestIndex) (root : Hash)
    (chunkIndex : Nat) (leaf : Hash) (path : List Hash) :
    ManifestIndex × Except StoreError Unit :=
  match idx.v2Proofs.lookup (root, chunkIndex) with
  | some existing =>
      if existing.leaf = leaf ∧ existing.path = path then (idx, .ok ())
      else (idx, .error (.rebindPushedProof chunkIndex root existing.leaf leaf))
  | none =>
      let proof : PushedProof := ⟨leaf, path⟩
      if !pushedProofVerifies root chunkIndex proof then
        (idx, .error (.pushProofNotRecorded chunkIndex root))
      else
        let (lines, result) := appendLine io idx.dir.v2Proofs ((root, chunkIndex), proof)
        let idx := { idx with dir := { idx.dir with v2Proofs := lines } }
        match result with
        | .ok () => ({ idx with v2Proofs := idx.v2Proofs.insert (root, chunkIndex) proof }, .ok ())
        | .error e => (idx, .error e)

/-- What `load_gc_protected` makes of the list and its marker. -/
def loadGcProtected (dir : ManifestDir) : List Str × Option Bool × Bool :=
  match dir.gcList with
  | none => ([], if dir.gcMarker then some false else none, dir.gcMarker)
  | some list => (list, some true, true)

/-- The lines a rewrite after the load of a damaged sidecar keeps. -/
def soundLines {κ β : Type} [DecidableEq κ] [DecidableEq β] (lines : List (κ × β)) :
    List (κ × β) :=
  lines.filter fun l => l.1 ∉ (Ledger.recover lines).conflicted

/-- The `.cbor` files in the order the directory gives them, `order` first. -/
def readDir (dir : ManifestDir) (order : List Hash) : List DataManifest :=
  ((order.filter fun r => r ∈ dir.cbor.keys) ++ dir.cbor.keys.filter fun r => r ∉ order).filterMap
    fun r => dir.cbor.lookup r

/-- The identifiers of a `.private_chunks` file, each once. -/
def privateChunkCids (lines : List Str) : List Str :=
  (lines.filterMap readPrivateChunk).reverse.dedup.reverse

/-- The identifiers of the `.private_chunks` files, file after file as the directory gives them. -/
def readPrivateChunks (dir : ManifestDir) (order : List Hash) : List (Hash × Str) :=
  let roots := dir.privateChunks.keys
  ((order.filter fun r => r ∈ roots) ++ roots.filter fun r => r ∉ order).flatMap fun r =>
    (privateChunkCids ((dir.privateChunks.lookup r).getD [])).map fun cid => (r, cid)

/-- The lines of a `.private_chunks` file after a load that may rewrite it.  (A torn end alone
is a reason too: the lines it leaves are then read as the same identifiers.) -/
def soundPrivateChunks (rewrite : Bool) (lines : List Str) : List Str :=
  if lines.any (fun line => (readPrivateChunk line).isNone) ∧ rewrite then privateChunkCids lines
  else lines

/-- `load`; `rewrite` says whether damaged sidecars could be rewritten. -/
def load [Blake3] (dir : ManifestDir) (order : List Hash) (rewrite : Bool) : ManifestIndex :=
  let (gcProtected, intact, marker) := loadGcProtected dir
  let proofLines := dir.v2Proofs.filter fun l => pushedProofVerifies l.1.1 l.1.2 l.2
  let base : ManifestIndex :=
    { dir := { dir with
        gcMarker := marker
        privateChunks := Maps.mapValues (fun _ => soundPrivateChunks rewrite) dir.privateChunks
        v2Held := if rewrite then soundLines dir.v2Held else dir.v2Held
        v2Proofs := if rewrite then soundLines proofLines else dir.v2Proofs }
      byRoot := ∅
      cidToRoot := ∅
      privateBytes := dir.opaqueFiles
      privateCidToRoot := (readPrivateChunks dir order).foldl (fun acc l => acc.insert l.2 l.1) ∅
      gcProtected := gcProtected
      v2Held := Ledger.records dir.v2Held
      v2Proofs := Ledger.records proofLines
      gcProtectionIntact := intact }
  (readDir dir order).foldl addToMaps base

/-- `seed_gc_protected_legacy`: every chunk that is already on disk stays. -/
def seedGcProtectedLegacy (idx : ManifestIndex) (cidsOnDisk : List Str) : ManifestIndex :=
  { idx with
    dir := { idx.dir with gcList := some cidsOnDisk, gcMarker := true }
    gcProtected := cidsOnDisk ++ idx.gcProtected
    gcProtectionIntact := some true }

end ManifestIndex

/-! ### The store as it is opened -/

structure SumStore where
  files : ChunkStore
  manifestIdx : ManifestIndex

/-- `SumStore::new` on what is on disk. -/
def SumStore.new [Blake3] (files : ChunkStore) (dir : ManifestDir) (order : List Hash)
    (rewrite : Bool) : SumStore :=
  let idx := ManifestIndex.load dir order rewrite
  ⟨files,
    if idx.gcProtectionIntact = none then idx.seedGcProtectedLegacy files.listAllCids else idx⟩

/-- A directory that nothing was ever written to. -/
def ManifestDir.fresh : ManifestDir := ⟨∅, ∅, ∅, [], [], none, false⟩

end Snip
