/-
A manifest under a root, and the answer to a challenge.

The root does not fix the leaf list: a valid manifest can be written over the
inner nodes of a tree, and it is valid for the same root.  Since the archive takes
the first manifest that fits the root, and reads a manifest before the proof that
came with the chunk, such a manifest takes the place of the file's own and hides
the chunks that were accepted for it.  Where the declared chunk count is the
registered one, neither can happen, over any run.
-/
import Snip.Proofs.Acceptance
import Snip.Blake3

namespace Snip

section

variable [Blake3]

/-! ### What is recorded of a chunk -/

/-- Records of a chunk that are right survive a restart, or a collision. -/
theorem recorded_load {R : Hash} {n : Nat} {S : List Bytes} {idx : ManifestIndex}
    (h : IndexInv R n S idx) (hn : n < 2 ^ 32) {i : Nat} {leaf : Hash} {path : List Hash}
    (hrec : Recorded idx R i leaf path) (order : List Hash) (rewrite : Bool) :
    Recorded (ManifestIndex.load idx.dir order rewrite) R i leaf path ∨ Collision S := by
  obtain ⟨byRoot, cidToRoot, -, -, gcMarker, privateCidToRoot, heq⟩ := load_eq idx.dir order rewrite
  have hline := h.proof i _ hrec.proof
  have hok := h.proofLine i _ hline
  by_cases hcoll : Collision S
  · exact Or.inr hcoll
  refine Or.inl ⟨?_, ?_⟩
  · rw [heq]
    refine Ledger.lookup_records.mpr ⟨List.mem_filter.mpr ⟨hline, ?_⟩, fun p hp => ?_⟩
    · exact hok.pushedProofVerifies hn
    · exact ((h.proofLine i p (List.mem_of_mem_filter hp)).unique hn hok).resolve_right hcoll
  · rw [heq]
    refine Ledger.lookup_records.mpr ⟨h.held i _ hrec.held, fun cid hcid => ?_⟩
    obtain ⟨q, hq, rfl⟩ := h.heldLine i cid hcid
    rw [(hq.unique hn hok).resolve_right hcoll]

/-- A recorded chunk whose file is there is answered for, whichever source is read. -/
theorem buildAnswer_of_recorded {R : Hash} {n : Nat} {S : List Bytes} {s : SumStore}
    (h : StoreInv R n S s) (hn : n < 2 ^ 32) {i : Nat} {leaf : Hash} {path : List Hash}
    (hrec : Recorded s.manifestIdx R i leaf path)
    (hfile : s.files.has (cidFromBlake3Hash leaf) = true) :
    (∃ answer, buildAnswer s.manifestIdx s.files R i = .ok answer ∧
      verifyMerkleProofBytesForTree answer.chunkHash i answer.merklePath R n = true) ∨
    Collision S := by
  obtain ⟨d, hd⟩ := Option.isSome_iff_exists.mp hfile
  have hget : s.files.get (cidFromBlake3Hash leaf) = .ok d := by
    unfold ChunkStore.get
    rw [hd]
  have hok := h.index.proofLine i _ (h.index.proof i _ hrec.proof)
  cases hm : s.manifestIdx.getByMerkleRoot R with
  | none =>
      refine Or.inl ⟨⟨leaf, path, .pushedProof⟩, ?_, hok.verifies⟩
      simp [buildAnswer, hm, answerFromPushedProof, hrec.proof, hrec.held, hget, h.files.hash hd]
  | some m =>
      have hman := h.index.indexed m hm
      have hlen : m.leaves.length = n := by rw [leaves_length, hman.valid.count, hman.count]
      have hver : verifyMerkleProofBytesForTree leaf i path (MerkleTree.build m.leaves).root
          m.leaves.length = true := by
        rw [hman.valid.tree, hlen]
        exact hok.verifies
      rcases verify_unique (by rw [hlen]; exact hn) hver with ⟨hleaf, -⟩ | hcoll
      · obtain ⟨hlt, -⟩ := List.getElem?_eq_some_iff.mp hleaf
        have hne : m.leaves ≠ [] := List.ne_nil_of_length_pos (by omega)
        obtain ⟨own, hown, -⟩ := HashTree.path_isSome hashPair
          (Nat.clog 2 m.leaves.length) m.leaves i hlt
        rw [← generateProof_build hne] at hown
        have hcid : s.manifestIdx.chunkCid R i = some (cidFromBlake3Hash leaf) := by
          rw [leaves_getElem?, Option.map_eq_some_iff] at hleaf
          obtain ⟨c, hc, rfl⟩ := hleaf
          have hm' : s.manifestIdx.byRoot.lookup R = some m := hm
          simp [ManifestIndex.chunkCid, hm', hc, hman.valid.cid c (List.mem_of_getElem? hc)]
        refine Or.inl ⟨⟨leaf, own, .publicManifest⟩, ?_, ?_⟩
        · simp [buildAnswer, hm, hcid, hget, hown, h.files.hash hd]
        · have := verify_own_proof (by rw [hlen]; exact hn) hleaf hown
          rwa [hman.valid.tree, hlen] at this
      · refine Or.inr (hcoll.mono fun x hx => ?_)
        rcases List.mem_append.mp hx with hx | hx
        · exact hok.strings hx
        · exact hman.strings hx

variable [ManifestReader] [AssignmentScore]

/-! ### The manifest in the index -/

/-- All strings that were hashed to check what the events of a run carry. -/
def runStrings (events : List ArchiveEvent) : List Bytes :=
  events.flatMap ArchiveEvent.strings

/-- The invariant at the end of a run of a new archive. -/
theorem fresh_run_inv {chain : Registry} {R : Hash} {n : Nat} {vis : VisibilityV2}
    (hreg : chain R = some (n, vis)) (hn : n < 2 ^ 32) (myAddr : Addr) (params : V2Params)
    (worker : MarketSyncWorker) {events : List ArchiveEvent}
    (hagrees : ∀ e ∈ events, e.Agrees chain) (hcount : ∀ e ∈ events, e.DeclaresCount R n) :
    Archive.Inv chain R n (runStrings events)
      ((Archive.fresh myAddr params worker).run events) :=
  Archive.Inv.run hn ⟨vis, hreg⟩ events (Archive.inv_fresh myAddr params worker hn)
    fun e he => ⟨hagrees e he, hcount e he, fun _ hs => List.mem_flatMap.mpr ⟨e, he, hs⟩⟩

/--
**The manifest in the index is the file's own,** in every run in which each pushed
manifest of the root that passes the push check declares the registered chunk
count.  The escape is a collision between two nodes of the two trees.
-/
theorem indexed_manifest_is_the_files {chain : Registry} {R : Hash} {n : Nat} {L : List Hash}
    (hreg : chain R = some (n, 0)) (hn : n < 2 ^ 32) (hlen : L.length = n)
    (hroot : (MerkleTree.build L).root = R) (myAddr : Addr) (params : V2Params)
    (worker : MarketSyncWorker) (events : List ArchiveEvent)
    (hagrees : ∀ e ∈ events, e.Agrees chain) (hcount : ∀ e ∈ events, e.DeclaresCount R n)
    (m : DataManifest)
    (hm : ((Archive.fresh myAddr params worker).run events).dispatcher.store.manifestIdx.getByMerkleRoot
      R = some m) :
    (m.chunks.length = n ∧
      ∀ i < n, (m.chunks[i]?).map ChunkDescriptor.blake3Hash = L[i]?) ∨
    Collision (treePreimages m.leaves ++ treePreimages L) := by
  have hok := (fresh_run_inv hreg hn myAddr params worker hagrees hcount).store.index.indexed m hm
  subst hroot
  rcases hok.valid.leaves_eq (hok.count.trans hlen.symm) with hleaves | hcoll
  · refine Or.inl ⟨hok.valid.count.trans hok.count, fun i _ => ?_⟩
    rw [← hleaves, leaves_getElem?]
  · exact Or.inr hcoll

end

/-! #### A manifest over the root itself

Of a file with two chunks, the root is the digest of the two leaves.  A manifest
that lists this one node is valid for the root, and it is taken. -/

section

variable [Blake3]

/-- The leaves of a file with two chunks, the second of which is the byte 7. -/
def pairLeaves : List Hash := [Hash.fill 1, Blake3.hash [7]]

/-- The root of the file with two chunks. -/
def pairRoot : Hash := hashPair (Hash.fill 1) (Blake3.hash [7])

theorem build_pairLeaves : (MerkleTree.build pairLeaves).root = pairRoot := rfl

/-- The manifest over the file's own leaves. -/
def pairManifest : DataManifest := manifestOver pairRoot pairLeaves

/-- The manifest whose only chunk is the root. -/
def rootManifest : DataManifest := manifestOver pairRoot [pairRoot]

theorem rootManifest_valid : ValidManifest pairRoot rootManifest := manifestOver_valid rfl

/-- One ManifestPush for the registered root. -/
def pushManifest (m : DataManifest) : List ArchiveEvent :=
  [.manifestPush pairRoot (manifestToCbor m) (soloRpc [(pairRoot, 2)] 0) .done]

theorem pushManifest_agrees (m : DataManifest) :
    ∀ e ∈ pushManifest m, e.Agrees (soloRegistry [(pairRoot, 2)]) := by
  intro e he
  obtain rfl := List.mem_singleton.mp he
  exact soloRpc_agrees 0 (by simp)

theorem pushManifest_indexed [AssignmentScore] {m : DataManifest}
    (hm : ValidManifest pairRoot m) (params : V2Params) (worker : MarketSyncWorker) :
    letI := ManifestReader.only m
    ((Archive.fresh 0 params worker).run
      (pushManifest m)).dispatcher.store.manifestIdx.getByMerkleRoot pairRoot = some m := by
  let _ := ManifestReader.only m
  have hrow : countOf [(pairRoot, 2)] pairRoot = some 2 := by simp [countOf]
  obtain ⟨-, hbyRoot, -⟩ := handleManifestPush_indexes 0
    (Archive.fresh 0 params worker).dispatcher hrow hm rfl
  have hlook : (((Archive.fresh 0 params worker).dispatcher.handleManifestPush
      (soloRpc [(pairRoot, 2)] 0) .done pairRoot (manifestToCbor m)).1.store.manifestIdx.byRoot).lookup
        pairRoot = some m := by
    rw [hbyRoot]
    exact AList.lookup_insert _
  exact hlook

theorem pushManifest_declares :
    letI := ManifestReader.only pairManifest
    ∀ e ∈ pushManifest pairManifest, e.DeclaresCount pairRoot 2 := by
  let _ := ManifestReader.only pairManifest
  intro e he
  obtain rfl := List.mem_singleton.mp he
  intro _ shape _ _ m hok
  obtain ⟨hdec, -⟩ := validateManifestPush_ok_iff.mp hok
  have hm : pairManifest = m := Except.ok.inj ((if_pos rfl).symm.trans hdec)
  rw [← hm]
  rfl

end

/-- Replicated once, in batches of at most eight. -/
def soloParams : V2Params := ⟨1, 8⟩

/-- A worker with an empty collector. -/
def idleWorker : MarketSyncWorker := ⟨0, 1, ⟨∅, 0⟩⟩

/-- The file's own manifest is indexed, and it has the file's leaves. -/
theorem indexed_pair_manifest :
    letI := Blake3.reference
    letI := ManifestReader.only pairManifest
    letI := AssignmentScore.flat
    (pairManifest.chunks.length = 2 ∧
      ∀ i < 2, (pairManifest.chunks[i]?).map ChunkDescriptor.blake3Hash = pairLeaves[i]?) ∨
    Collision (treePreimages pairManifest.leaves ++ treePreimages pairLeaves) := by
  -- The digests are not computed: the argument is the same for every hash function.
  generalize Blake3.reference = b
  let _ := ManifestReader.only pairManifest
  let _ := AssignmentScore.flat
  have hreg : soloRegistry [(pairRoot, 2)] pairRoot = some (2, 0) := by
    simp [soloRegistry, countOf]
  refine indexed_manifest_is_the_files hreg (by decide) rfl build_pairLeaves 0 soloParams
    idleWorker (pushManifest pairManifest) (pushManifest_agrees _) pushManifest_declares
    pairManifest ?_
  exact pushManifest_indexed (manifestOver_valid build_pairLeaves) soloParams idleWorker

/--
The manifest over the root is indexed for the file with two chunks, though it has
one, and no two of the hashed strings collide.
-/
theorem root_manifest_indexed :
    letI := Blake3.reference
    letI := ManifestReader.only rootManifest
    letI := AssignmentScore.flat
    soloRegistry [(pairRoot, 2)] pairRoot = some (2, 0) ∧
    (MerkleTree.build pairLeaves).root = pairRoot ∧ pairLeaves.length = 2 ∧
    (∀ e ∈ pushManifest rootManifest, e.Agrees (soloRegistry [(pairRoot, 2)])) ∧
    ((Archive.fresh 0 soloParams idleWorker).run
      (pushManifest rootManifest)).dispatcher.store.manifestIdx.getByMerkleRoot pairRoot
        = some rootManifest ∧
    ¬ ((rootManifest.chunks.length = 2 ∧
        ∀ i < 2, (rootManifest.chunks[i]?).map ChunkDescriptor.blake3Hash = pairLeaves[i]?) ∨
      Collision (treePreimages rootManifest.leaves ++ treePreimages pairLeaves)) := by
  generalize Blake3.reference = b
  let _ := ManifestReader.only rootManifest
  let _ := AssignmentScore.flat
  refine ⟨by simp [soloRegistry, countOf], build_pairLeaves, rfl, pushManifest_agrees _,
    pushManifest_indexed rootManifest_valid soloParams idleWorker, ?_⟩
  have hone : treePreimages rootManifest.leaves ++ treePreimages pairLeaves
      = [pairBytes (Hash.fill 1, Blake3.hash [7])] := by
    rw [rootManifest, manifestOver_leaves]
    rfl
  rintro (⟨hlen, -⟩ | ⟨x, hx, y, hy, hne, -⟩)
  · simp [rootManifest, manifestOver] at hlen
  · rw [hone] at hx hy
    exact hne ((List.mem_singleton.mp hx).trans (List.mem_singleton.mp hy).symm)

section

variable [Blake3] [ManifestReader] [AssignmentScore]

/-! ### The answer to a challenge -/

theorem recorded_step {chain : Registry} {R : Hash} {n : Nat} {S : List Bytes} {a : Archive}
    (h : Archive.Inv chain R n S a) (hn : n < 2 ^ 32) (hreg : ∃ vis, chain R = some (n, vis))
    {e : ArchiveEvent} (hagrees : e.Agrees chain) (hcount : e.DeclaresCount R n)
    (hS : e.strings ⊆ S) {i : Nat} {leaf : Hash} {path : List Hash}
    (hrec : Recorded a.dispatcher.store.manifestIdx R i leaf path) :
    Recorded (a.step e).1.dispatcher.store.manifestIdx R i leaf path ∨ Collision S := by
  by_cases hkeep : e.keepsMemory = true
  · exact Or.inl (hrec.extend ((h.step hn hreg hagrees hcount hS).2 hkeep).records)
  · cases e with
    | restart order rewrite =>
        refine (recorded_load h.store.index hn hrec order rewrite).imp_left fun hload => ?_
        have hnew : Extends
            (ManifestIndex.load a.dispatcher.store.manifestIdx.dir order rewrite)
            (SumStore.new a.dispatcher.store.files a.dispatcher.store.manifestIdx.dir order
              rewrite).manifestIdx := by
          unfold SumStore.new
          dsimp only
          split
          · exact extends_of_eq rfl rfl
          · exact Extends.refl _
        exact hload.extend hnew
    | push => exact absurd rfl hkeep
    | manifestPush => exact absurd rfl hkeep
    | refetchedManifest => exact absurd rfl hkeep
    | gcSweep => exact absurd rfl hkeep
    | attestation => exact absurd rfl hkeep

theorem recorded_run {chain : Registry} {R : Hash} {n : Nat} {S : List Bytes} (hn : n < 2 ^ 32)
    (hreg : ∃ vis, chain R = some (n, vis)) {i : Nat} {leaf : Hash} {path : List Hash} :
    ∀ (events : List ArchiveEvent) {a : Archive}, Archive.Inv chain R n S a →
      (∀ e ∈ events, e.Agrees chain ∧ e.DeclaresCount R n ∧ e.strings ⊆ S) →
      Recorded a.dispatcher.store.manifestIdx R i leaf path →
      Recorded (a.run events).dispatcher.store.manifestIdx R i leaf path ∨ Collision S := by
  intro events
  induction events with
  | nil => intro a _ _ hrec; exact Or.inl hrec
  | cons e events ih =>
      intro a h hall hrec
      obtain ⟨h1, h2, h3⟩ := hall e (by simp)
      rcases recorded_step h hn hreg h1 h2 h3 hrec with hrec' | hcoll
      · exact ih (h.step hn hreg h1 h2 h3).1 (fun e' he' => hall e' (by simp [he'])) hrec'
      · exact Or.inr hcoll

/--
**An acknowledged chunk that is on disk is answered for in every later state,** in
every run in which each pushed manifest of the root that passes the push check
declares the registered chunk count.  The escape is a collision among the strings
that were hashed to check what the run's messages carried.
-/
theorem acked_chunk_is_answered {chain : Registry} {n : Nat} {vis : VisibilityV2}
    (req : PushRequest) (hreg : chain req.merkleRoot = some (n, vis)) (hn : n < 2 ^ 32)
    (myAddr : Addr) (params : V2Params) (worker : MarketSyncWorker)
    (before after : List ArchiveEvent) (allowPrivate : Bool) (rpc : ChainRpc)
    (clock : Nat → Nat) (io : PushIo) (events : List ArchiveEvent)
    (hevents : events = before ++ .push req allowPrivate rpc clock io :: after)
    (hagrees : ∀ e ∈ events, e.Agrees chain)
    (hcount : ∀ e ∈ events, e.DeclaresCount req.merkleRoot n)
    (hack : (((Archive.fresh myAddr params worker).run before).step
      (.push req allowPrivate rpc clock io)).2 = .pushAck req none)
    (hfile : ((Archive.fresh myAddr params worker).run events).dispatcher.store.files.has
      (cidFromData req.data) = true) :
    (∃ answer,
      buildAnswer ((Archive.fresh myAddr params worker).run events).dispatcher.store.manifestIdx
        ((Archive.fresh myAddr params worker).run events).dispatcher.store.files req.merkleRoot
        req.chunkIndex = .ok answer ∧
      verifyMerkleProofBytesForTree answer.chunkHash req.chunkIndex answer.merklePath
        req.merkleRoot n = true) ∨
    Collision (runStrings events) := by
  have hall : ∀ e ∈ events, e.Agrees chain ∧ e.DeclaresCount req.merkleRoot n ∧
      e.strings ⊆ runStrings events := fun e he =>
    ⟨hagrees e he, hcount e he, fun _ hs => List.mem_flatMap.mpr ⟨e, he, hs⟩⟩
  have hfinal := fresh_run_inv hreg hn myAddr params worker hagrees hcount
  have hbefore : Archive.Inv chain req.merkleRoot n (runStrings events)
      ((Archive.fresh myAddr params worker).run before) :=
    Archive.Inv.run hn ⟨vis, hreg⟩ before (Archive.inv_fresh myAddr params worker hn)
      fun e he => hall e (by simp [hevents, he])
  obtain ⟨hpush1, -, hpush3⟩ := hall (.push req allowPrivate rpc clock io) (by simp [hevents])
  obtain ⟨hinv, -, hrec⟩ := acceptValidated_spec hbefore ⟨vis, hreg⟩ hpush1 clock io req
    allowPrivate hpush3
  have hnone : (((Archive.fresh myAddr params worker).run before).dispatcher.acceptValidated rpc
      clock io req.data req.merkleRoot req.chunkIndex req.merklePath allowPrivate).2 = none := by
    simpa [Archive.step] using hack
  have hsplit : (Archive.fresh myAddr params worker).run events
      = ((((Archive.fresh myAddr params worker).run before).step
          (.push req allowPrivate rpc clock io)).1).run after := by
    simp [hevents, Archive.run]
  rcases recorded_run hn ⟨vis, hreg⟩ after hinv (fun e he => hall e (by simp [hevents, he]))
    (hrec hnone) with hlate | hcoll
  · have hend : Recorded
        ((Archive.fresh myAddr params worker).run events).dispatcher.store.manifestIdx
        req.merkleRoot req.chunkIndex (Blake3.hash req.data) req.merklePath := by
      rw [hsplit]
      exact hlate
    exact buildAnswer_of_recorded hfinal.store hn hend hfile
  · exact Or.inr hcoll

end

/-! #### The manifest over the root hides an accepted chunk -/

section

variable [Blake3]

/-- The second chunk of the file, with its proof. -/
def secondChunk : PushRequest := ⟨[7], pairRoot, 1, [Hash.fill 1]⟩

theorem secondChunk_verifies : verifyMerkleProofBytesForTree (Blake3.hash secondChunk.data)
    secondChunk.chunkIndex secondChunk.merklePath secondChunk.merkleRoot 2 = true :=
  (verifyForTree_iff (by decide)).mpr ⟨Nat.one_lt_two, rfl, rfl⟩

/-- The push of the second chunk. -/
def pushSecond : ArchiveEvent := .push secondChunk true (soloRpc [(pairRoot, 2)] 0) id .allDone

/-- The second chunk is pushed, then a manifest. -/
def pushThenManifest (m : DataManifest) : List ArchiveEvent := pushSecond :: pushManifest m

theorem pushThenManifest_agrees (m : DataManifest) :
    ∀ e ∈ pushThenManifest m, e.Agrees (soloRegistry [(pairRoot, 2)]) := by
  intro e he
  rcases List.mem_cons.mp he with rfl | he
  · exact soloRpc_agrees 0 (by simp)
  · exact pushManifest_agrees m e he

theorem countOf_pairRoot : countOf [(pairRoot, 2)] pairRoot = some 2 := by simp [countOf]

/-- The chunk is acknowledged, its file stays, and the manifest is indexed. -/
theorem pushThenManifest_state [AssignmentScore] {m : DataManifest}
    (hm : ValidManifest pairRoot m) :
    letI := ManifestReader.only m
    let a := Archive.fresh 0 soloParams idleWorker
    let z := a.run (pushThenManifest m)
    (a.step pushSecond).2 = .pushAck secondChunk none ∧
      z.dispatcher.store.files.has (cidFromData secondChunk.data) = true ∧
      z.dispatcher.store.manifestIdx.byRoot.lookup pairRoot = some m := by
  let _ := ManifestReader.only m
  obtain ⟨hack, hafter⟩ := solo_push_acked 0 (show 0 < soloParams.assignmentReplicationFactor by
    decide) idleWorker secondChunk countOf_pairRoot (by decide) secondChunk_verifies
  have hnone : ((Archive.fresh 0 soloParams idleWorker).step
      pushSecond).1.dispatcher.store.manifestIdx.getByMerkleRoot pairRoot = none := by
    unfold ManifestIndex.getByMerkleRoot
    rw [pushSecond, hafter.byRoot]
    rfl
  obtain ⟨hfiles, hbyRoot, -⟩ := handleManifestPush_indexes 0 _ countOf_pairRoot hm hnone
  refine ⟨hack, ?_, ?_⟩
  · have hlook : (((Archive.fresh 0 soloParams idleWorker).run
        (pushThenManifest m)).dispatcher.store.files).lookup (cidFromData secondChunk.data)
        = some secondChunk.data := by
      rw [show ((Archive.fresh 0 soloParams idleWorker).run
        (pushThenManifest m)).dispatcher.store.files = _ from hfiles, pushSecond, hafter.files]
      exact AList.lookup_insert _
    simp [ChunkStore.has, hlook]
  · rw [show ((Archive.fresh 0 soloParams idleWorker).run
      (pushThenManifest m)).dispatcher.store.manifestIdx.byRoot = _ from hbyRoot]
    exact AList.lookup_insert _

theorem pushThenManifest_declares :
    letI := ManifestReader.only pairManifest
    ∀ e ∈ pushThenManifest pairManifest, e.DeclaresCount pairRoot 2 := by
  let _ := ManifestReader.only pairManifest
  intro e he
  rcases List.mem_cons.mp he with rfl | he
  · trivial
  · exact pushManifest_declares e he

end

/-- With the file's own manifest the accepted chunk is answered for. -/
theorem second_chunk_answered :
    letI := Blake3.reference
    letI := ManifestReader.only pairManifest
    letI := AssignmentScore.flat
    let z := (Archive.fresh 0 soloParams idleWorker).run (pushThenManifest pairManifest)
    (∃ answer,
      buildAnswer z.dispatcher.store.manifestIdx z.dispatcher.store.files pairRoot 1
        = .ok answer ∧
      verifyMerkleProofBytesForTree answer.chunkHash 1 answer.merklePath pairRoot 2 = true) ∨
    Collision (runStrings (pushThenManifest pairManifest)) := by
  generalize Blake3.reference = b
  let _ := ManifestReader.only pairManifest
  let _ := AssignmentScore.flat
  have hreg : soloRegistry [(pairRoot, 2)] pairRoot = some (2, 0) := by
    simp [soloRegistry, countOf]
  obtain ⟨hack, hfile, -⟩ := pushThenManifest_state
    (manifestOver_valid build_pairLeaves)
  exact acked_chunk_is_answered secondChunk hreg (by decide) 0 soloParams idleWorker []
    (pushManifest pairManifest) true (soloRpc [(pairRoot, 2)] 0) id .allDone
    (pushThenManifest pairManifest) rfl (pushThenManifest_agrees _) pushThenManifest_declares
    hack hfile

/--
With the manifest over the root, the acknowledged second chunk is on disk and the
challenge on it is not answered.
-/
theorem second_chunk_hidden :
    letI := Blake3.reference
    letI := ManifestReader.only rootManifest
    letI := AssignmentScore.flat
    let a := Archive.fresh 0 soloParams idleWorker
    let z := a.run (pushThenManifest rootManifest)
    soloRegistry [(pairRoot, 2)] pairRoot = some (2, 0) ∧
    (∀ e ∈ pushThenManifest rootManifest, e.Agrees (soloRegistry [(pairRoot, 2)])) ∧
    (a.step pushSecond).2 = .pushAck secondChunk none ∧
    z.dispatcher.store.files.has (cidFromData secondChunk.data) = true ∧
    ¬ ∃ answer,
      buildAnswer z.dispatcher.store.manifestIdx z.dispatcher.store.files pairRoot 1
        = .ok answer ∧
      verifyMerkleProofBytesForTree answer.chunkHash 1 answer.merklePath pairRoot 2 = true := by
  generalize Blake3.reference = b
  let _ := ManifestReader.only rootManifest
  let _ := AssignmentScore.flat
  obtain ⟨hack, hfile, hlook⟩ := pushThenManifest_state rootManifest_valid
  refine ⟨by simp [soloRegistry, countOf], pushThenManifest_agrees _, hack, hfile, ?_⟩
  rintro ⟨answer, hanswer, -⟩
  have hchunk : rootManifest.chunks[1]? = none := rfl
  simp [buildAnswer, ManifestIndex.getByMerkleRoot, ManifestIndex.chunkCid, hlook, hchunk]
    at hanswer

end Snip
