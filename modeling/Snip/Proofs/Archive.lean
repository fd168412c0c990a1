/-
One invariant for a whole archive, over every run.

The chain registers each root once, with a chunk count and a visibility that never
change; everything else it answers may differ from query to query.  Under one
condition on the run, the invariant below holds of one file in every state: its
records, its manifest and the held set all speak of the chunks the chain means.

The condition is there because the archive does not check it: a manifest that is
pushed for a Public root is compared with the root, and its chunk count with the
length of its own list, but not with the registered count.  (The re-fetcher's way
into the same index does compare them.)
-/
import Snip.Node.Archive
import Snip.Proofs.PushValidator
import Snip.Proofs.SumStore

namespace Snip

/-! ### What one operation leaves in place -/

/-- Files and records of `s` are still there in `t`. -/
structure StoreMono (s t : SumStore) : Prop where
  files : ∀ cid d, s.files.lookup cid = some d → t.files.lookup cid = some d
  records : Extends s.manifestIdx t.manifestIdx

theorem StoreMono.refl (s : SumStore) : StoreMono s s := ⟨fun _ _ h => h, Extends.refl _⟩

theorem StoreMono.trans {s t u : SumStore} (h : StoreMono s t) (k : StoreMono t u) :
    StoreMono s u :=
  ⟨fun cid d hl => k.files cid d (h.files cid d hl), h.records.trans k.records⟩

/-- The list of exemptions and the memory of it are the same. -/
structure SameGc (a b : ManifestIndex) : Prop where
  list : b.dir.gcList = a.dir.gcList
  intact : b.gcProtectionIntact = a.gcProtectionIntact
  memory : b.gcProtected = a.gcProtected

theorem SameGc.trans {a b c : ManifestIndex} (h : SameGc a b) (k : SameGc b c) : SameGc a c :=
  ⟨k.list.trans h.list, k.intact.trans h.intact, k.memory.trans h.memory⟩

theorem recordPrivateChunkCid_sameGc (io : Io) (idx : ManifestIndex) (root : Hash) (cid : Str) :
    SameGc idx (idx.recordPrivateChunkCid io root cid).1 := by
  unfold ManifestIndex.recordPrivateChunkCid
  split
  · split
    · exact ⟨rfl, rfl, rfl⟩
    · exact ⟨rfl, rfl, rfl⟩
  · dsimp only
    split
    · exact ⟨rfl, rfl, rfl⟩
    · exact ⟨rfl, rfl, rfl⟩

theorem recordV2HeldIndex_sameGc (io : Io) (idx : ManifestIndex) (root : Hash) (i : Nat)
    (cid : Str) : SameGc idx (idx.recordV2HeldIndex io root i cid).1 := by
  unfold ManifestIndex.recordV2HeldIndex
  split
  · split
    · exact ⟨rfl, rfl, rfl⟩
    · exact ⟨rfl, rfl, rfl⟩
  · dsimp only
    split
    · exact ⟨rfl, rfl, rfl⟩
    · exact ⟨rfl, rfl, rfl⟩

/-- The records of an accepted chunk are in memory. -/
structure Recorded (idx : ManifestIndex) (root : Hash) (i : Nat) (leaf : Hash)
    (path : List Hash) : Prop where
  proof : idx.v2PushedProof root i = some ⟨leaf, path⟩
  held : idx.v2HeldRecord root i = some (cidFromBlake3Hash leaf)

theorem Recorded.extend {a b : ManifestIndex} {root : Hash} {i : Nat} {leaf : Hash}
    {path : List Hash} (h : Recorded a root i leaf path) (hext : Extends a b) :
    Recorded b root i leaf path :=
  ⟨hext.proofs _ _ h.proof, hext.held _ _ h.held⟩

variable [Blake3]

/-! ### Chunk files -/

/-- Every file holds what its name says. -/
def FilesOk (files : ChunkStore) : Prop :=
  ∀ cid d, files.lookup cid = some d → cid = cidFromData d

/-- Some file holds bytes that verify as chunk `i` of the file with root `R` and `n` chunks. -/
def Stored (R : Hash) (n : Nat) (files : ChunkStore) (i : Nat) : Prop :=
  ∃ cid d path, files.lookup cid = some d ∧
    verifyMerkleProofBytesForTree (Blake3.hash d) i path R n = true

theorem FilesOk.hash {files : ChunkStore} (h : FilesOk files) {leaf : Hash} {d : Bytes}
    (hl : files.lookup (cidFromBlake3Hash leaf) = some d) : Blake3.hash d = leaf :=
  (cidFromBlake3Hash_inj (h _ d hl)).symm

/-- What `put` does to the files. -/
theorem put_cases (io : Io) (files : ChunkStore) (cid : Str) (data : Bytes) :
    ((files.put io cid data).1 = files ∨
      (files.put io cid data).1 = files.insert cid data ∧ files.lookup cid = none ∧
        cidFromData data = cid) ∧
    ((files.put io cid data).2 = .ok () → ∃ d, (files.put io cid data).1.lookup cid = some d) := by
  unfold ChunkStore.put
  by_cases hcid : cidFromData data ≠ cid
  · rw [if_pos hcid]
    exact ⟨Or.inl rfl, fun h => by cases h⟩
  rw [if_neg hcid]
  have hcid : cidFromData data = cid := not_not.mp hcid
  cases hl : files.lookup cid with
  | some existing =>
      dsimp only
      split
      · exact ⟨Or.inl rfl, fun h => by cases h⟩
      · exact ⟨Or.inl rfl, fun _ => ⟨existing, hl⟩⟩
  | none =>
      cases io with
      | done => exact ⟨Or.inr ⟨rfl, rfl, hcid⟩, fun _ => ⟨data, AList.lookup_insert _⟩⟩
      | lost => exact ⟨Or.inl rfl, fun h => by cases h⟩
      | unsynced => exact ⟨Or.inr ⟨rfl, rfl, hcid⟩, fun h => by cases h⟩

theorem FilesOk.put {files : ChunkStore} (h : FilesOk files) (io : Io) (cid : Str)
    (data : Bytes) : FilesOk (files.put io cid data).1 := by
  obtain ⟨hcase, -⟩ := put_cases io files cid data
  rcases hcase with heq | ⟨heq, -, hcid⟩
  · rw [heq]
    exact h
  · rw [heq]
    intro c d hl
    by_cases hc : c = cid
    · subst hc
      rw [AList.lookup_insert, Option.some.injEq] at hl
      rw [← hl, hcid]
    · rw [AList.lookup_insert_ne hc] at hl
      exact h c d hl

theorem put_mono {files : ChunkStore} {io : Io} {cid c : Str} {data d : Bytes}
    (hl : files.lookup c = some d) : (files.put io cid data).1.lookup c = some d := by
  obtain ⟨hcase, -⟩ := put_cases io files cid data
  rcases hcase with heq | ⟨heq, hnone, -⟩
  · rw [heq]
    exact hl
  · have hne : c ≠ cid := by
      rintro rfl
      rw [hnone] at hl
      cases hl
    rw [heq, AList.lookup_insert_ne hne]
    exact hl

theorem GcInv.put {files : ChunkStore} {idx : ManifestIndex} (h : GcInv files idx) (io : Io)
    {cid : Str} (data : Bytes) (hc : cid ∈ idx.gcProtected) :
    GcInv (files.put io cid data).1 idx := by
  obtain ⟨hcase, -⟩ := put_cases io files cid data
  rcases hcase with heq | ⟨heq, -, -⟩
  · rw [heq]
    exact h
  · rw [heq]
    exact h.addFile data hc

/-! ### The invariant -/

/-- The store's files, its records of one file, and its exemptions are all right. -/
structure StoreInv (R : Hash) (n : Nat) (S : List Bytes) (s : SumStore) : Prop where
  files : FilesOk s.files
  index : IndexInv R n S s.manifestIdx
  gc : GcInv s.files s.manifestIdx

structure Archive.Inv (chain : Registry) (R : Hash) (n : Nat) (S : List Bytes) (a : Archive) :
    Prop where
  store : StoreInv R n S a.dispatcher.store
  validator : a.dispatcher.validator.Agrees chain
  held : ∀ i, (R, i) ∈ a.dispatcher.held → Stored R n a.dispatcher.store.files i

theorem StoreMono.stored {R : Hash} {n : Nat} {s t : SumStore} (h : StoreMono s t) {i : Nat}
    (hs : Stored R n s.files i) : Stored R n t.files i := by
  obtain ⟨cid, d, path, hl, hv⟩ := hs
  exact ⟨cid, d, path, h.files cid d hl, hv⟩

/-- Every answer of the chain in this event is about the registered rows. -/
def ArchiveEvent.Agrees (chain : Registry) : ArchiveEvent → Prop
  | .push _ _ rpc _ _ => rpc.Agrees chain
  | .manifestPush _ _ rpc _ => rpc.Agrees chain
  | .refetchedManifest _ _ rpc _ => rpc.Agrees chain
  | .attestation _ rpc _ => rpc.Agrees chain
  | .restart .. | .gcSweep .. => True

/--
A manifest that a ManifestPush offers for the Public root `R`, and that passes the
push check, declares `n` chunks.
-/
def ArchiveEvent.DeclaresCount [ManifestReader] (R : Hash) (n : Nat) : ArchiveEvent → Prop
  | .manifestPush merkleRoot manifestBytes rpc _ =>
      merkleRoot = R → ∀ shape, fetchFileShape rpc R = .ok shape → shape.visibility.isPrivate = false →
        ∀ m, validateManifestPush (hexEncode R.bytes) manifestBytes = .ok m → m.chunkCount = n
  | _ => True

/-- The strings that are hashed to check what an event carries. -/
def ArchiveEvent.strings [ManifestReader] : ArchiveEvent → List Bytes
  | .push request _ _ _ _ =>
      walkPreimages request.chunkIndex (Blake3.hash request.data) request.merklePath
  | .manifestPush _ manifestBytes _ _ | .refetchedManifest _ manifestBytes _ _ =>
      match ManifestReader.fromCbor manifestBytes with
      | .ok m => treePreimages m.leaves
      | .error _ => []
  | _ => []

variable {chain : Registry} {R : Hash} {n : Nat} {S : List Bytes}

/-! ### What is read back from disk is stored -/

theorem stored_of_held {files : ChunkStore} {i : Nat} {cid : Str} (hfiles : FilesOk files)
    (hheld : HeldOk R n S i cid) (hhas : files.has cid = true) : Stored R n files i := by
  obtain ⟨proof, hproof, rfl⟩ := hheld
  obtain ⟨d, hd⟩ := Option.isSome_iff_exists.mp hhas
  exact ⟨_, d, proof.path, hd, by rw [hfiles.hash hd]; exact hproof.verifies⟩

theorem stored_of_manifest {files : ChunkStore} {m : DataManifest} {c : ChunkDescriptor}
    (hn : n < 2 ^ 32) (hfiles : FilesOk files) (hm : ManifestOk R n S m) (hc : c ∈ m.chunks)
    (hhas : files.has c.cid = true) : Stored R n files c.chunkIndex := by
  obtain ⟨i, hi⟩ := List.getElem?_of_mem hc
  obtain rfl : c.chunkIndex = i := hm.valid.index i c hi
  obtain ⟨d, hd⟩ := Option.isSome_iff_exists.mp hhas
  have hlen : m.leaves.length = n := by rw [leaves_length, hm.valid.count, hm.count]
  have hleaf : m.leaves[c.chunkIndex]? = some c.blake3Hash := by rw [leaves_getElem?, hi]; rfl
  obtain ⟨hlt, -⟩ := List.getElem?_eq_some_iff.mp hleaf
  have hne : m.leaves ≠ [] := List.ne_nil_of_length_pos (by omega)
  obtain ⟨path, hpath, -⟩ := HashTree.path_isSome hashPair
    (Nat.clog 2 m.leaves.length) m.leaves c.chunkIndex hlt
  have hver := verify_own_proof (by rw [hlen]; exact hn) hleaf
    (by rw [generateProof_build hne]; exact hpath)
  rw [hm.valid.tree, hlen] at hver
  rw [hm.valid.cid c hc] at hd
  exact ⟨_, d, path, hd, by rw [hfiles.hash hd]; exact hver⟩

theorem stored_of_heldFromDisk {s : SumStore} {i : Nat} (hn : n < 2 ^ 32)
    (hfiles : FilesOk s.files) (hidx : IndexInv R n S s.manifestIdx)
    (h : (R, i) ∈ heldFromDisk s) : Stored R n s.files i := by
  rcases List.mem_append.mp h with hrec | hlist
  · obtain ⟨⟨k, cid⟩, hmem, hk⟩ := List.mem_map.mp hrec
    obtain ⟨hentry, hhas⟩ := List.mem_filter.mp hmem
    dsimp only at hk
    subst hk
    have hlook : s.manifestIdx.v2Held.lookup (R, i) = some cid :=
      AList.mem_lookup_iff.mpr hentry
    exact stored_of_held hfiles (hidx.heldLine i cid (hidx.held i cid hlook)) hhas
  · obtain ⟨root, -, hroot⟩ := List.mem_flatMap.mp hlist
    cases hm : s.manifestIdx.getByMerkleRoot root with
    | none =>
        rw [hm] at hroot
        cases hroot
    | some m =>
        rw [hm] at hroot
        obtain ⟨c, hc, hpair⟩ := List.mem_map.mp hroot
        obtain ⟨hcm, hhas⟩ := List.mem_filter.mp hc
        obtain ⟨rfl, rfl⟩ := Prod.mk.inj hpair
        exact stored_of_manifest hn hfiles (hidx.indexed m hm) hcm hhas

theorem Archive.inv_start (myAddr : Addr) (params : V2Params) (worker : MarketSyncWorker)
    {files : ChunkStore} {idx : ManifestIndex} (hn : n < 2 ^ 32) (hfiles : FilesOk files)
    (hdir : DirInv R n S idx.dir) (hgc : GcInv files idx) (order : List Hash) (rewrite : Bool) :
    Archive.Inv chain R n S (Archive.start myAddr params worker files idx.dir order rewrite) := by
  have hidx := hdir.sumStoreNew files order rewrite
  refine ⟨⟨hfiles, hidx, hgc.sumStoreNew order rewrite⟩,
    PushValidator.new_agrees myAddr params chain, fun i hi => ?_⟩
  have hi' : (R, i) ∈ heldFromDisk (SumStore.new files idx.dir order rewrite) := by
    simpa [Archive.start, V2Dispatcher.seedHeldFromDisk] using hi
  exact stored_of_heldFromDisk hn hfiles hidx hi'

/-- The invariant holds of an archive that has just been set up. -/
theorem Archive.inv_fresh (myAddr : Addr) (params : V2Params) (worker : MarketSyncWorker)
    (hn : n < 2 ^ 32) : Archive.Inv chain R n S (Archive.fresh myAddr params worker) := by
  let idx := ManifestIndex.load ManifestDir.fresh [] true
  have hgc : GcInv ∅ { idx with dir := ManifestDir.fresh, gcProtected := [] } :=
    ⟨fun _ h => absurd h (by simp), fun _ _ h => absurd h (by simp), fun _ h => by cases h⟩
  exact Archive.inv_start myAddr params worker hn (fun _ _ h => by cases h) dirInv_fresh hgc [] true

/-! ### Pushes -/

theorem storeV2PushedChunk_spec {s : SumStore} (h : StoreInv R n S s) (io : PushIo) (cid : Str)
    (data : Bytes) : StoreInv R n S (storeV2PushedChunk io s cid data).1 ∧
      StoreMono s (storeV2PushedChunk io s cid data).1 ∧
      ((storeV2PushedChunk io s cid data).2 = .ok () →
        ∃ d, (storeV2PushedChunk io s cid data).1.files.lookup cid = some d) := by
  obtain ⟨hgc, hprot⟩ := h.gc.recordV2HeldChunk io.gcList cid
  have hidx := h.index.recordV2HeldChunk io.gcList cid
  have hext := extends_recordV2HeldChunk io.gcList s.manifestIdx cid
  unfold storeV2PushedChunk
  split
  · rename_i hrec
    rw [hrec] at hgc hidx hext
    exact ⟨⟨h.files, hidx, hgc⟩, ⟨fun _ _ hl => hl, hext⟩, fun hr => by cases hr⟩
  · rename_i hrec
    rw [hrec] at hgc hidx hext hprot
    have hfiles := h.files.put io.put cid data
    have hgc' := hgc.put io.put data (hprot rfl)
    obtain ⟨-, hthere⟩ := put_cases io.put s.files cid data
    have hmono : ∀ c d, s.files.lookup c = some d → (s.files.put io.put cid data).1.lookup c
        = some d := fun c d hl => put_mono hl
    split
    · rename_i hput
      rw [hput] at hfiles hgc' hmono
      exact ⟨⟨hfiles, hidx, hgc'⟩, ⟨hmono, hext⟩, fun hr => by cases hr⟩
    · rename_i hput
      rw [hput] at hfiles hgc' hthere hmono
      exact ⟨⟨hfiles, hidx, hgc'⟩, ⟨hmono, hext⟩, fun _ => hthere rfl⟩

theorem recordV2PushedProof_sameGc (io : Io) (idx : ManifestIndex) (root : Hash) (i : Nat)
    (leaf : Hash) (path : List Hash) :
    SameGc idx (idx.recordV2PushedProof io root i leaf path).1 := by
  unfold ManifestIndex.recordV2PushedProof
  split
  · split
    · exact ⟨rfl, rfl, rfl⟩
    · exact ⟨rfl, rfl, rfl⟩
  · dsimp only
    split
    · exact ⟨rfl, rfl, rfl⟩
    split
    · exact ⟨rfl, rfl, rfl⟩
    · exact ⟨rfl, rfl, rfl⟩

theorem recordAccepted_spec {idx : ManifestIndex} (h : IndexInv R n S idx) (io : PushIo)
    (isPrivate : Bool) {root : Hash} {i : Nat} {leaf : Hash} {path : List Hash}
    (hproof : root = R → ProofOk R n S i ⟨leaf, path⟩) :
    let out := recordAccepted io idx isPrivate root i leaf path (cidFromBlake3Hash leaf)
    IndexInv R n S out.1 ∧ Extends idx out.1 ∧ SameGc idx out.1 ∧
      (out.2 = .ok () → Recorded out.1 root i leaf path) := by
  have hfirst : ∀ out, out = (if isPrivate then
        idx.recordPrivateChunkCid io.privateChunk root (cidFromBlake3Hash leaf)
        else (idx, .ok ())) →
      IndexInv R n S out.1 ∧ Extends idx out.1 ∧ SameGc idx out.1 := by
    rintro out rfl
    cases isPrivate with
    | false => exact ⟨h, Extends.refl idx, rfl, rfl, rfl⟩
    | true =>
        exact ⟨h.recordPrivateChunkCid _ _ _, extends_recordPrivateChunkCid _ _ _ _,
          recordPrivateChunkCid_sameGc _ _ _ _⟩
  dsimp only
  unfold recordAccepted
  dsimp only
  split
  · rename_i idx1 e h1
    obtain ⟨hi, hx, hg⟩ := hfirst _ h1.symm
    exact ⟨hi, hx, hg, fun hr => by cases hr⟩
  rename_i idx1 h1
  obtain ⟨hi1, hx1, hg1⟩ := hfirst _ h1.symm
  have hi2 := hi1.recordV2PushedProof io.proof hproof
  obtain ⟨hx2, hrec2⟩ := extends_recordV2PushedProof io.proof idx1 root i leaf path
  have hg2 := recordV2PushedProof_sameGc io.proof idx1 root i leaf path
  split
  · rename_i h2
    rw [h2] at hi2 hx2 hg2
    exact ⟨hi2, hx1.trans hx2, hg1.trans hg2, fun hr => by cases hr⟩
  rename_i idx2 h2
  rw [h2] at hi2 hx2 hg2 hrec2
  have hheld : root = R → HeldOk R n S i (cidFromBlake3Hash leaf) :=
    fun hr => ⟨_, hproof hr, rfl⟩
  have hi3 := hi2.recordV2HeldIndex io.held hheld
  obtain ⟨hx3, hrec3⟩ := extends_recordV2HeldIndex io.held idx2 root i (cidFromBlake3Hash leaf)
  have hg3 := recordV2HeldIndex_sameGc io.held idx2 root i (cidFromBlake3Hash leaf)
  split
  · rename_i h3
    rw [h3] at hi3 hx3 hg3
    exact ⟨hi3, (hx1.trans hx2).trans hx3, (hg1.trans hg2).trans hg3, fun hr => by cases hr⟩
  · rename_i h3
    rw [h3] at hi3 hx3 hg3 hrec3
    exact ⟨hi3, (hx1.trans hx2).trans hx3, (hg1.trans hg2).trans hg3,
      fun _ => ⟨hx3.proofs _ _ (hrec2 rfl), hrec3 rfl⟩⟩

/--
**A push keeps the invariant, and what it acknowledges is recorded and stored.**
The strings of its proof's walk have to be among `S`.
-/
theorem acceptValidated_spec [AssignmentScore] {a : Archive} (h : Archive.Inv chain R n S a)
    (hreg : ∃ vis, chain R = some (n, vis)) {rpc : ChainRpc} (hrpc : rpc.Agrees chain)
    (clock : Nat → Nat) (io : PushIo) (req : PushRequest) (allowPrivate : Bool)
    (hS : walkPreimages req.chunkIndex (Blake3.hash req.data) req.merklePath ⊆ S) :
    let out := a.dispatcher.acceptValidated rpc clock io req.data req.merkleRoot
      req.chunkIndex req.merklePath allowPrivate
    Archive.Inv chain R n S { a with dispatcher := out.1 } ∧
    StoreMono a.dispatcher.store out.1.store ∧
    (out.2 = none → Recorded out.1.store.manifestIdx req.merkleRoot req.chunkIndex
      (Blake3.hash req.data) req.merklePath) := by
  obtain ⟨hagrees, hvalid⟩ := PushValidator.validatePush_spec h.validator hrpc clock
    req.merkleRoot req.chunkIndex req.data req.merklePath
  dsimp only
  unfold V2Dispatcher.acceptValidated
  split
  · rename_i hres
    rw [hres] at hagrees
    exact ⟨⟨h.store, hagrees, h.held⟩, StoreMono.refl _, fun hr => by cases hr⟩
  rename_i w pushed hres
  rw [hres] at hagrees hvalid
  obtain ⟨n', hchain, -, hleaf, hver⟩ := hvalid pushed rfl
  have hproof : req.merkleRoot = R →
      ProofOk R n S req.chunkIndex ⟨pushed.leafHash, req.merklePath⟩ := by
    rintro rfl
    obtain ⟨vis, hreg⟩ := hreg
    rw [hchain, Option.some.injEq, Prod.mk.injEq] at hreg
    obtain ⟨rfl, -⟩ := hreg
    exact ⟨by rw [hleaf]; exact hver, by rw [hleaf]; exact hS⟩
  dsimp only
  split
  · exact ⟨⟨h.store, hagrees, h.held⟩, StoreMono.refl _, fun hr => by cases hr⟩
  obtain ⟨hinv1, hmono1, hthere⟩ := storeV2PushedChunk_spec h.store io
    (cidFromBlake3Hash pushed.leafHash) req.data
  split
  · rename_i h1
    rw [h1] at hinv1 hmono1
    exact ⟨⟨hinv1, hagrees, fun i hi => hmono1.stored (h.held i hi)⟩, hmono1,
      fun hr => by cases hr⟩
  rename_i store h1
  rw [h1] at hinv1 hmono1 hthere
  obtain ⟨hidx, hext, hgc, hrec⟩ := recordAccepted_spec hinv1.index io
    pushed.visibility.isPrivate hproof
  have hmono2 : StoreMono a.dispatcher.store { store with
      manifestIdx := (recordAccepted io store.manifestIdx pushed.visibility.isPrivate
        req.merkleRoot req.chunkIndex pushed.leafHash req.merklePath
        (cidFromBlake3Hash pushed.leafHash)).1 } :=
    hmono1.trans ⟨fun _ _ hl => hl, hext⟩
  split
  · rename_i h2
    rw [h2] at hidx hgc hmono2
    exact ⟨⟨⟨hinv1.files, hidx, hinv1.gc.of_eq hgc.list hgc.intact hgc.memory⟩, hagrees,
      fun i hi => hmono2.stored (h.held i hi)⟩, hmono2, fun hr => by cases hr⟩
  · rename_i h2
    rw [h2] at hidx hgc hmono2 hrec
    refine ⟨⟨⟨hinv1.files, hidx, hinv1.gc.of_eq hgc.list hgc.intact hgc.memory⟩, hagrees,
      fun i hi => ?_⟩, hmono2, fun _ => by rw [← hleaf]; exact hrec rfl⟩
    rcases List.mem_cons.mp hi with heq | hold
    · -- The new index: its bytes are in the file named by the leaf.
      obtain ⟨rfl, rfl⟩ := Prod.mk.inj heq
      obtain ⟨d, hd⟩ := hthere rfl
      exact ⟨_, d, req.merklePath, hd, by rw [hinv1.files.hash hd]; exact (hproof rfl).verifies⟩
    · exact hmono2.stored (h.held i hold)

/-! ### Manifest pushes -/

theorem indexManifest_spec {a : Archive} (h : Archive.Inv chain R n S a) (io : Io)
    {root : Hash} {m : DataManifest} (hm : m.merkleRoot = R → ManifestOk R n S m) :
    Archive.Inv chain R n S { a with dispatcher := (a.dispatcher.indexManifest io root m).1 } ∧
    StoreMono a.dispatcher.store (a.dispatcher.indexManifest io root m).1.store := by
  have hidx := h.store.index.insert io hm
  have hext := extends_insert io a.dispatcher.store.manifestIdx m
  have hgc : SameGc a.dispatcher.store.manifestIdx
      (a.dispatcher.store.manifestIdx.insert io m).1 := by
    cases io with
    | done => exact ⟨rfl, rfl, rfl⟩
    | lost => exact ⟨rfl, rfl, rfl⟩
    | unsynced => exact ⟨rfl, rfl, rfl⟩
  have hgc' := h.store.gc.of_eq hgc.list hgc.intact hgc.memory
  unfold V2Dispatcher.indexManifest
  split
  · exact ⟨h, StoreMono.refl _⟩
  split
  · rename_i hins
    rw [hins] at hidx hext hgc'
    exact ⟨⟨⟨h.store.files, hidx, hgc'⟩, h.validator, h.held⟩, fun _ _ hl => hl, hext⟩
  · rename_i hins
    rw [hins] at hidx hext hgc'
    exact ⟨⟨⟨h.store.files, hidx, hgc'⟩, h.validator, h.held⟩, fun _ _ hl => hl, hext⟩

/-- A manifest that passed the push check for `R` and declares `n` chunks. -/
theorem manifestOk_of_validate [ManifestReader] {root : Hash} {bytes : Bytes} {m : DataManifest}
    (hok : validateManifestPush (hexEncode root.bytes) bytes = .ok m)
    (hcount : root = R → m.chunkCount = n)
    (hS : ∀ m', ManifestReader.fromCbor bytes = .ok m' → treePreimages m'.leaves ⊆ S) :
    m.merkleRoot = R → ManifestOk R n S m := by
  obtain ⟨hdec, hvalid⟩ := validateManifestPush_ok_iff.mp hok
  intro hroot
  obtain rfl : root = R := hvalid.merkleRoot.symm.trans hroot
  exact ⟨hvalid, hcount rfl, hS m hdec⟩

theorem handleManifestPush_spec [ManifestReader] {a : Archive} (h : Archive.Inv chain R n S a)
    {root : Hash} {bytes : Bytes} {rpc : ChainRpc} {io : Io}
    (hcount : (ArchiveEvent.manifestPush root bytes rpc io).DeclaresCount R n)
    (hS : (ArchiveEvent.manifestPush root bytes rpc io).strings ⊆ S) :
    Archive.Inv chain R n S
      { a with dispatcher := (a.dispatcher.handleManifestPush rpc io root bytes).1 } ∧
    StoreMono a.dispatcher.store (a.dispatcher.handleManifestPush rpc io root bytes).1.store := by
  have hidx := h.store.index.insertPrivate io root bytes
  have hext := extends_insertPrivate io a.dispatcher.store.manifestIdx root bytes
  have hgc : SameGc a.dispatcher.store.manifestIdx
      (a.dispatcher.store.manifestIdx.insertPrivate io root bytes).1 := by
    cases io with
    | done => exact ⟨rfl, rfl, rfl⟩
    | lost => exact ⟨rfl, rfl, rfl⟩
    | unsynced => exact ⟨rfl, rfl, rfl⟩
  have hgc' := h.store.gc.of_eq hgc.list hgc.intact hgc.memory
  unfold V2Dispatcher.handleManifestPush
  split
  · exact ⟨h, StoreMono.refl _⟩
  rename_i shape hshape
  by_cases hprivate : shape.visibility.isPrivate = true
  · rw [if_pos hprivate]
    split
    · exact ⟨h, StoreMono.refl _⟩
    split
    · rename_i hins
      rw [hins] at hidx hext hgc'
      exact ⟨⟨⟨h.store.files, hidx, hgc'⟩, h.validator, h.held⟩, fun _ _ hl => hl, hext⟩
    · rename_i hins
      rw [hins] at hidx hext hgc'
      exact ⟨⟨⟨h.store.files, hidx, hgc'⟩, h.validator, h.held⟩, fun _ _ hl => hl, hext⟩
  · rw [if_neg hprivate]
    split
    · exact ⟨h, StoreMono.refl _⟩
    · rename_i m hok
      refine indexManifest_spec h io (manifestOk_of_validate hok ?_ ?_)
      · rintro rfl
        exact hcount rfl shape hshape (by simpa using hprivate) m hok
      · intro m' hdec
        simpa [ArchiveEvent.strings, hdec] using hS

/-- The re-fetcher compares the declared count with the chain's itself. -/
theorem acceptRefetchedManifest_spec [ManifestReader] {a : Archive}
    (h : Archive.Inv chain R n S a) {root : Hash} {bytes : Bytes} {count : Nat} {io : Io}
    (hcount : root = R → count = n)
    (hS : ∀ m', ManifestReader.fromCbor bytes = .ok m' → treePreimages m'.leaves ⊆ S) :
    Archive.Inv chain R n S
      { a with dispatcher := (a.dispatcher.acceptRefetchedManifest io root count bytes).1 } ∧
    StoreMono a.dispatcher.store
      (a.dispatcher.acceptRefetchedManifest io root count bytes).1.store := by
  unfold V2Dispatcher.acceptRefetchedManifest
  split
  · exact ⟨h, StoreMono.refl _⟩
  rename_i m hok
  split
  · exact ⟨h, StoreMono.refl _⟩
  · rename_i hdeclared
    have hdeclared : m.chunkCount = count := not_not.mp hdeclared
    exact indexManifest_spec h io
      (manifestOk_of_validate hok (fun hr => hdeclared.trans (hcount hr)) hS)

/-! ### Garbage collection -/

omit [Blake3] in
/-- A sweep over names none of which may be deleted deletes nothing. -/
theorem foldl_sweepOne {deletable deletes : Str → Bool} {now : Nat} :
    ∀ (cids : List Str) (s : GarbageCollector × ChunkStore),
      (∀ cid ∈ cids, deletable cid = false) →
      cids.foldl (sweepOne deletable deletes now) s = s := by
  intro cids
  induction cids with
  | nil => intro s _; rfl
  | cons cid cids ih =>
      intro s h
      have hone : sweepOne deletable deletes now s cid = s := by
        simp [sweepOne, h cid (by simp)]
      rw [List.foldl_cons, hone]
      exact ih s fun c hc => h c (by simp [hc])

/-- **No chunk file is a candidate while every one of them is exempt.** -/
theorem GcInv.not_candidate {files : ChunkStore} {idx : ManifestIndex} (h : GcInv files idx)
    (w : MarketSyncWorker) (rows : List StorageFileInfo) (nodeAddrs : List Addr) :
    ∀ cid ∈ files, cid ∉ w.computeGcCandidates rows nodeAddrs idx := by
  intro cid hc hcand
  unfold MarketSyncWorker.computeGcCandidates at hcand
  by_cases hintact : idx.gcProtectionIntact = some true
  · rw [if_neg (by simpa using hintact)] at hcand
    obtain ⟨-, hkeep⟩ := List.mem_filter.mp hcand
    have hprot : idx.isGcProtected cid = true := by
      simpa [ManifestIndex.isGcProtected] using h.inMemory hintact cid hc
    simp [hprot] at hkeep
  · rw [if_pos hintact] at hcand
    cases hcand

theorem GcInv.sweep_files {files : ChunkStore} {idx : ManifestIndex} (h : GcInv files idx)
    (w : MarketSyncWorker) (rows : List StorageFileInfo) (nodeAddrs : List Addr)
    (pollAge now : Nat) (deletes : Str → Bool) :
    (w.gc.sweepCandidates files (w.computeGcCandidates rows nodeAddrs idx) pollAge now
      deletes).2 = files := by
  unfold GarbageCollector.sweepCandidates GarbageCollector.sweepWhere
  split
  · rfl
  · dsimp only
    rw [foldl_sweepOne]
    intro cid hc
    simpa using h.not_candidate w rows nodeAddrs cid hc

/-! ### Steps and runs -/

/-- An event that is not a restart. -/
def ArchiveEvent.keepsMemory : ArchiveEvent → Bool
  | .restart .. => false
  | _ => true

/--
**One event keeps the invariant.**  Unless it is a restart it also keeps every
file and every record.
-/
theorem Archive.Inv.step [ManifestReader] [AssignmentScore] {a : Archive}
    (h : Archive.Inv chain R n S a) (hn : n < 2 ^ 32) (hreg : ∃ vis, chain R = some (n, vis))
    {e : ArchiveEvent} (hagrees : e.Agrees chain) (hcount : e.DeclaresCount R n)
    (hS : e.strings ⊆ S) : Archive.Inv chain R n S (a.step e).1 ∧
      (e.keepsMemory = true → StoreMono a.dispatcher.store (a.step e).1.dispatcher.store) := by
  cases e with
  | push req allowPrivate rpc clock io =>
      obtain ⟨hinv, hmono, -⟩ := acceptValidated_spec h hreg hagrees clock io req allowPrivate hS
      exact ⟨hinv, fun _ => hmono⟩
  | manifestPush root bytes rpc io =>
      obtain ⟨hinv, hmono⟩ := handleManifestPush_spec h hcount hS
      exact ⟨hinv, fun _ => hmono⟩
  | refetchedManifest root bytes rpc io =>
      unfold Archive.step
      dsimp only
      split
      · exact ⟨h, fun _ => StoreMono.refl _⟩
      · rename_i shape hshape
        have hrow : rpc.fileInfoV2 root = .ok (some shape) := by
          unfold fetchFileShape at hshape
          split at hshape
          · cases hshape
          · cases hshape
          · rename_i info hinfo
            rw [hinfo, Except.ok.inj hshape]
        have hcount' : root = R → shape.chunkCount = n := by
          rintro rfl
          obtain ⟨vis, hreg⟩ := hreg
          obtain ⟨hrow, -⟩ := hagrees root shape hrow
          rw [hrow, Option.some.injEq, Prod.mk.injEq] at hreg
          exact hreg.1
        have hstrings : ∀ m, ManifestReader.fromCbor bytes = .ok m → treePreimages m.leaves ⊆ S := by
          intro m hdec
          simpa [ArchiveEvent.strings, hdec] using hS
        obtain ⟨hinv, hmono⟩ := acceptRefetchedManifest_spec h hcount' hstrings
        exact ⟨hinv, fun _ => hmono⟩
  | restart order rewrite =>
      exact ⟨Archive.inv_start _ _ _ hn h.store.files h.store.index.toDirInv h.store.gc order
        rewrite, fun hk => by cases hk⟩
  | gcSweep rows nodeAddrs pollAge now deletes =>
      have hfiles := h.store.gc.sweep_files a.worker rows nodeAddrs pollAge now deletes
      refine ⟨?_, fun _ => ?_⟩
      · unfold Archive.step
        dsimp only
        rw [hfiles]
        exact ⟨h.store, h.validator, h.held⟩
      · unfold Archive.step
        dsimp only
        rw [hfiles]
        exact StoreMono.refl _
  | attestation root rpc goesThrough => exact ⟨h, fun _ => StoreMono.refl _⟩

/-- **Every run keeps the invariant.** -/
theorem Archive.Inv.run [ManifestReader] [AssignmentScore] (hn : n < 2 ^ 32)
    (hreg : ∃ vis, chain R = some (n, vis)) :
    ∀ (events : List ArchiveEvent) {a : Archive}, Archive.Inv chain R n S a →
      (∀ e ∈ events, e.Agrees chain ∧ e.DeclaresCount R n ∧ e.strings ⊆ S) →
      Archive.Inv chain R n S (a.run events) := by
  intro events
  induction events with
  | nil => intro a h _; exact h
  | cons e events ih =>
      intro a h hall
      obtain ⟨h1, h2, h3⟩ := hall e (by simp)
      exact ih (h.step hn hreg h1 h2 h3).1 fun e' he' => hall e' (by simp [he'])

end Snip
