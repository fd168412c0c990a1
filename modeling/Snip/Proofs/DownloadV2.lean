/-
What a finished download wrote.

The output is the concatenation of chunk files whose names the accepted manifest
lists, and a file's name fixes its digest.  So the output is tied to the file that
was asked for by the manifest's leaves alone, and the root ties these to the file's
own leaves only if there are as many of them: the check of a manifest does not
compare its chunk count with the chain's.
-/
import Snip.Node.DownloadV2
import Snip.Proofs.Chunker
import Snip.Proofs.Acceptance
import Snip.Proofs.ChunkStates

namespace Snip

section

variable [Blake3] [ManifestReader] [PeerOrder]

/-! ### The manifest that is accepted -/

omit [PeerOrder] in
theorem decodeV2ManifestBytes_ok {bytes : Bytes} {root : Hash} {m : DataManifest}
    (h : decodeV2ManifestBytes bytes root = .ok m) :
    ManifestReader.fromCbor bytes = .ok m ∧ ValidManifest root m := by
  unfold decodeV2ManifestBytes at h
  split at h
  · cases h
  rename_i m' hcbor
  split at h
  · cases h
  split at h
  · cases h
  rename_i m'' hvalid
  cases h
  obtain ⟨hcbor', hok⟩ := validateManifestPush_ok_iff.mp hvalid
  rw [hcbor] at hcbor'
  cases hcbor'
  exact ⟨hcbor, hok⟩

/-- The manifest bytes of a response, whoever sent it. -/
def LoopInput.manifestBytes : LoopInput → Option Bytes
  | .event (.shardReceivedV2 _ (.manifestData _ bytes _) _) _ _ => some bytes
  | _ => none

/-- A manifest is accepted out of some response, and only if it passes the check. -/
theorem ManifestFetch.onInput_done {f f' : ManifestFetch} {view : V2AssignmentView} {root : Hash}
    {maxConcurrent : Nat} {input : LoopInput} {m : DataManifest}
    (h : f.onInput view root maxConcurrent input = .done f' m) :
    ∃ bytes, input.manifestBytes = some bytes ∧ decodeV2ManifestBytes bytes root = .ok m := by
  cases input with
  | event e swarmRuns io =>
      unfold ManifestFetch.onInput at h
      dsimp only at h
      split at h
      · cases h
      · cases h
      · rename_i peerId merkleRoot bytes error _
        split at h
        · cases h
        split at h
        · cases h
        split at h
        · cases h
        split at h
        · rename_i hdecode
          cases h
          exact ⟨bytes, rfl, hdecode⟩
        · cases h
      · split at h
        · cases h
        split at h
        · cases h
        · cases h
      · cases h
  | grace swarmRuns => cases h
  | deadline => cases h
  | closed => cases h

theorem ManifestFetch.run_ok {view : V2AssignmentView} {root : Hash} {maxConcurrent : Nat}
    {m : DataManifest} {g : ManifestFetch} : ∀ (inputs : List LoopInput) (f : ManifestFetch),
    f.run view root maxConcurrent inputs = some (.ok (m, g)) →
    ∃ input ∈ inputs, ∃ bytes, input.manifestBytes = some bytes ∧
      decodeV2ManifestBytes bytes root = .ok m := by
  intro inputs
  induction inputs with
  | nil =>
      intro f h
      unfold ManifestFetch.run at h
      split at h
      · cases h
      · cases h
  | cons input inputs ih =>
      intro f h
      unfold ManifestFetch.run at h
      split at h
      · cases h
      dsimp only at h
      split at h
      · obtain ⟨input', hmem, hbytes⟩ := ih _ h
        exact ⟨input', List.mem_cons_of_mem _ hmem, hbytes⟩
      · rename_i hdone
        cases h
        exact ⟨input, List.mem_cons_self .., ManifestFetch.onInput_done hdone⟩
      · cases h

end

/-! ### The files -/

section

variable [Blake3]

/-- The chunk bytes of a response, whoever sent it. -/
def LoopInput.chunkBytes : LoopInput → Option Bytes
  | .event (.shardReceivedV2 _ (.data body) _) _ _ => some body.data
  | _ => none

/-- Every file is named after its content, and its content is one of the given strings. -/
def FilesFrom (strings : List Bytes) (files : ChunkStore) : Prop :=
  FilesOk files ∧ ∀ cid d, files.lookup cid = some d → d ∈ strings

theorem FilesFrom.put {strings : List Bytes} {files : ChunkStore} (h : FilesFrom strings files)
    (io : Io) (cid : Str) {data : Bytes} (hdata : data ∈ strings) :
    FilesFrom strings (files.put io cid data).1 := by
  refine ⟨h.1.put io cid data, fun cid' d hd => ?_⟩
  obtain ⟨hcase, -⟩ := put_cases io files cid data
  rcases hcase with heq | ⟨heq, -, -⟩
  · rw [heq] at hd
    exact h.2 cid' d hd
  · rw [heq] at hd
    by_cases hc : cid' = cid
    · subst hc
      rw [AList.lookup_insert, Option.some.injEq] at hd
      rwa [← hd]
    · rw [AList.lookup_insert_ne hc] at hd
      exact h.2 cid' d hd

namespace ChunkFetchLoop

variable [PeerOrder]

omit [Blake3] in
theorem dispatch_files {f f' : ChunkFetchLoop} {m : DataManifest} {maxConcurrent : Nat}
    {swarmRuns : Bool} {pulls : List Pull}
    (h : f.dispatch m maxConcurrent swarmRuns = .ok (f', pulls)) : f'.files = f.files := by
  unfold dispatch at h
  split at h
  · cases h
  · cases h
    rfl

theorem onInput_files {strings : List Bytes} {f f' : ChunkFetchLoop} {m : DataManifest}
    {maxConcurrent : Nat} {input : LoopInput} {pulls : List Pull}
    (h : f.onInput m maxConcurrent input = .ok (f', pulls)) (hf : FilesFrom strings f.files)
    (hinput : ∀ bytes, input.chunkBytes = some bytes → bytes ∈ strings) :
    FilesFrom strings f'.files := by
  have hadvance : ∀ swarmRuns idx s,
      f.advance m maxConcurrent swarmRuns idx s = .ok (f', pulls) → f'.files = f.files := by
    intro swarmRuns idx s h
    unfold advance at h
    split at h
    · cases h
    · exact dispatch_files (f := f.clearMark idx s) h
  cases input with
  | event e swarmRuns io =>
      unfold onInput at h
      dsimp only at h
      split at h
      · rw [dispatch_files h]
        exact hf
      · rw [dispatch_files h]
        exact hf
      · rename_i peerId body origin
        unfold onData at h
        split at h
        · cases h
          exact hf
        split at h
        · cases h
          exact hf
        split at h
        · cases h
          exact hf
        split at h
        · rename_i cd _ _
          split at h
          · cases h
          · rename_i files hput
            rw [dispatch_files h]
            have hnext := hf.put io cd.cid (hinput body.data rfl)
            rwa [hput] at hnext
        · rw [hadvance _ _ _ h]
          exact hf
      · unfold onRequestFailed at h
        split at h
        · cases h
          exact hf
        split at h
        · cases h
          exact hf
        · rw [hadvance _ _ _ h]
          exact hf
      · cases h
        exact hf
  | grace swarmRuns =>
      unfold onInput at h
      dsimp only at h
      split at h
      · cases h
        exact hf
      · rw [dispatch_files h]
        exact hf
  | deadline => cases h
  | closed => cases h

theorem run_files {strings : List Bytes} {m : DataManifest} {maxConcurrent : Nat}
    {g : ChunkFetchLoop} : ∀ (inputs : List LoopInput) (f : ChunkFetchLoop),
    f.run m maxConcurrent inputs = some (.ok g) → FilesFrom strings f.files →
    (∀ input ∈ inputs, ∀ bytes, input.chunkBytes = some bytes → bytes ∈ strings) →
    FilesFrom strings g.files := by
  intro inputs
  induction inputs with
  | nil =>
      intro f h hf _
      unfold run at h
      split at h
      · cases h
        exact hf
      · cases h
  | cons input inputs ih =>
      intro f h hf hinputs
      unfold run at h
      split at h
      · cases h
        exact hf
      dsimp only at h
      split at h
      · cases h
      · rename_i f' pulls hstep
        exact ih f' h (onInput_files hstep hf (hinputs input (List.mem_cons_self ..)))
          fun i hi => hinputs i (List.mem_cons_of_mem _ hi)

end ChunkFetchLoop

/-! ### The output -/

/-- The output is made of files with the digests that the manifest lists. -/
theorem assemble_ok {strings : List Bytes} {files : ChunkStore} (hfiles : FilesFrom strings files) :
    ∀ (chunks : List ChunkDescriptor) (out : Bytes),
    (∀ c ∈ chunks, c.cid = cidFromBlake3Hash c.blake3Hash) → assemble files chunks = .ok out →
    ∃ pieces : List Bytes, out = pieces.flatten ∧ pieces ⊆ strings ∧
      pieces.map Blake3.hash = chunks.map ChunkDescriptor.blake3Hash := by
  intro chunks
  induction chunks with
  | nil =>
      intro out _ h
      cases h
      exact ⟨[], rfl, fun _ h => (nomatch h), rfl⟩
  | cons c chunks ih =>
      intro out hcid h
      unfold assemble at h
      split at h
      · cases h
      rename_i data hget
      have hlook : files.lookup c.cid = some data := by
        unfold ChunkStore.get at hget
        split at hget
        · rename_i d hd
          cases hget
          exact hd
        · cases hget
      cases hrest : assemble files chunks with
      | error e =>
          rw [hrest] at h
          cases h
      | ok bytes =>
          rw [hrest] at h
          cases h
          obtain ⟨pieces, rfl, hsub, hmap⟩ := ih bytes (fun c hc => hcid c (List.mem_cons_of_mem _ hc))
            hrest
          refine ⟨data :: pieces, rfl, ?_, ?_⟩
          · exact List.cons_subset.mpr ⟨hfiles.2 _ _ hlook, hsub⟩
          · rw [List.map_cons, List.map_cons, hmap]
            rw [hcid c (List.mem_cons_self ..)] at hlook
            rw [hfiles.1.hash hlook]

end

/-! ### The download -/

/-- A manifest in a response that passes the check declares `n` chunks. -/
def LoopInput.DeclaresCount [Blake3] [ManifestReader] (root : Hash) (n : Nat) (input : LoopInput) :
    Prop :=
  ∀ bytes, input.manifestBytes = some bytes →
    ∀ m, decodeV2ManifestBytes bytes root = .ok m → m.chunkCount = n

/-- The strings of a download: what it was served, what was on disk, and the file. -/
def downloadStrings [Blake3] [ManifestReader] (d : PublicDownload) (file : Bytes) : List Bytes :=
  (d.manifestInputs.filterMap LoopInput.manifestBytes).flatMap (fun bytes =>
    match ManifestReader.fromCbor bytes with
    | .ok m => treePreimages m.leaves
    | .error _ => []) ++
  treePreimages ((chunksOfFile file).map Blake3.hash) ++ chunksOfFile file ++
  d.store.files.entries.map Sigma.snd ++ d.chunkInputs.filterMap LoopInput.chunkBytes

/-- The phases of a download that returned. -/
theorem runV2Public_ok [Blake3] [ManifestReader] [AssignmentScore] [PeerOrder] {d : PublicDownload}
    {root : Hash} (hroot : decodeRootHex d.info.merkleRoot = some root) {out : Bytes}
    (h : runV2Public d = some (.ok out)) :
    ∃ m bytes, (∃ input ∈ d.manifestInputs, input.manifestBytes = some bytes) ∧
      decodeV2ManifestBytes bytes root = .ok m ∧
      (m.chunkCount = 0 ∨ ∃ (view : V2AssignmentView) (peers : Map PeerId Addr)
        (loop : ChunkFetchLoop),
        fetchV2PublicChunks view m peers d.store.files d.maxConcurrent d.swarmRuns d.chunkInputs
          = some (.ok loop) ∧ assemble loop.files m.chunks = .ok out) := by
  unfold runV2Public at h
  rw [hroot] at h
  dsimp only at h
  split at h
  · cases h
  rename_i view hview
  split at h
  · cases h
  · cases h
  rename_i m f hmanifest
  obtain ⟨input, hmem, bytes, hbytes, hdecode⟩ := ManifestFetch.run_ok _ _ hmanifest
  refine ⟨m, bytes, ⟨input, hmem, hbytes⟩, hdecode, ?_⟩
  split at h
  · rename_i hzero
    exact Or.inl hzero
  split at h
  · cases h
  split at h
  · cases h
  · cases h
  · rename_i loop hfetch
    exact Or.inr ⟨view, _, loop, hfetch, Option.some.inj h⟩

/--
**A download that returns has written the file,** if every manifest it is served
that passes the check declares the registered chunk count.  The escape is a
collision among the strings of the download.
-/
theorem public_download_is_the_file [Blake3] [ManifestReader] [AssignmentScore] [PeerOrder]
    (fileName : Str) (file : Bytes) (hne : file ≠ []) (hlen : Countable32 file.length)
    (d : PublicDownload)
    (hroot : decodeRootHex d.info.merkleRoot = some (chunkMapped fileName file).merkleRoot)
    (hfiles : FilesOk d.store.files)
    (hcount : ∀ input ∈ d.manifestInputs,
      input.DeclaresCount (chunkMapped fileName file).merkleRoot (chunkMapped fileName file).chunkCount)
    (out : Bytes) (hout : runV2Public d = some (.ok out)) :
    out = file ∨ Collision (downloadStrings d file) := by
  obtain ⟨m, bytes, ⟨input, hmem, hbytes⟩, hdecode, hphase⟩ := runV2Public_ok hroot hout
  obtain ⟨hcbor, hvalid⟩ := decodeV2ManifestBytes_ok hdecode
  have hn : m.chunkCount = chunkCountOf file.length :=
    (hcount input hmem bytes hbytes m hdecode).trans (chunkMapped_chunkCount hne)
  have hpos := chunkCountOf_pos (List.length_pos_iff.mpr hne) hlen
  rcases hphase with hzero | ⟨view, peers, loop, hfetch, hassemble⟩
  · omega
  -- The tree of the manifest is the tree of the file.
  rw [chunkMapped_merkleRoot hne] at hvalid
  have htree : treePreimages m.leaves ⊆ downloadStrings d file := by
    intro s hs
    refine List.mem_append_left _ (List.mem_append_left _ (List.mem_append_left _
      (List.mem_append_left _ (List.mem_flatMap.mpr ⟨bytes, ?_, ?_⟩))))
    · exact List.mem_filterMap.mpr ⟨input, hmem, hbytes⟩
    · rw [hcbor]
      exact hs
  have hleaves := hvalid.leaves_eq (L := (chunksOfFile file).map Blake3.hash) (by
    rw [hn, List.length_map, chunksOfFile, List.length_map, List.length_range])
  rcases hleaves with hleaves | hcoll
  · -- The files are named after digests that the file's chunks have.
    have hstart : FilesFrom (downloadStrings d file) d.store.files := by
      refine ⟨hfiles, fun cid data hdata => ?_⟩
      refine List.mem_append_left _ (List.mem_append_right _ (List.mem_map.mpr ⟨⟨cid, data⟩, ?_, rfl⟩))
      exact AList.mem_lookup_iff.mp hdata
    have hloop : FilesFrom (downloadStrings d file) loop.files := by
      unfold fetchV2PublicChunks at hfetch
      split at hfetch
      · cases hfetch
      rename_i f pulls hfirst
      refine ChunkFetchLoop.run_files _ f hfetch ?_ fun i hi b hb =>
        List.mem_append_right _ (List.mem_filterMap.mpr ⟨i, hi, hb⟩)
      rw [ChunkFetchLoop.dispatch_files hfirst]
      exact hstart
    obtain ⟨pieces, rfl, hsub, hmap⟩ := assemble_ok hloop m.chunks out hvalid.cid hassemble
    have hfile : chunksOfFile file ⊆ downloadStrings d file := fun s hs =>
      List.mem_append_left _ (List.mem_append_left _ (List.mem_append_right _ hs))
    rcases eq_of_map_hash pieces (chunksOfFile file) hsub hfile (hmap.trans hleaves) with
      rfl | hcoll
    · exact Or.inl (chunksOfFile_flatten hlen)
    · exact Or.inr hcoll
  · refine Or.inr (hcoll.mono fun s hs => ?_)
    rcases List.mem_append.mp hs with hs | hs
    · exact htree hs
    · exact List.mem_append_left _ (List.mem_append_left _ (List.mem_append_left _
        (List.mem_append_right _ hs)))

/-! #### Leaves below the leaf

One archive serves a manifest, and all the chunks it lists are on disk already.  If
the manifest is the file's own, the file comes out.  A file of 64 bytes may be two
digests, and then the manifest over the two strings with these digests passes for
it: its root is the digest of the two digests. -/

section

variable [Blake3]

/-- The chunk files are on disk, and archive 0 is identified as peer 7. -/
def soloDownload (root : Hash) (n : Nat) (m : DataManifest) (files : ChunkStore) :
    PublicDownload where
  info := rowOf root n
  nodes := .ok [⟨.archiveNode, .active, .ok 0⟩]
  replicationFactor := .ok 1
  maxConcurrent := 1
  peerAddresses := (∅ : Map PeerId Addr).insert 7 0
  store := SumStore.new files ManifestDir.fresh [] true
  swarmRuns := true
  manifestInputs := [.event (.shardReceivedV2 7 (.manifestData root (manifestToCbor m) none)
    ⟨7, .v2ManifestPull root⟩) true .done]
  insertIo := .done
  chunkInputs := []

omit [Blake3] in
theorem assignChunks_solo [AssignmentScore] (root : Hash) : ∀ (chunks : List Nat)
    (view : V2AssignmentView), view.distinctAssigned ⊆ {0} →
    ∃ view', assignChunks root [0] 1 chunks view = .ok view' ∧ view'.distinctAssigned ⊆ {0} ∧
      (chunks ≠ [] → view'.distinctAssigned = {0}) := by
  intro chunks
  induction chunks with
  | nil => intro view h; exact ⟨view, rfl, h, fun hne => absurd rfl hne⟩
  | cons i chunks ih =>
      intro view h
      have hassigned : assignedArchives root [0] i 1 = [0] :=
        assignedArchives_solo root 0 i Nat.one_pos
      have hunion : view.distinctAssigned ∪ ([0] : List Addr).toFinset = {0} :=
        Finset.union_eq_right.mpr h
      obtain ⟨view', hok, hsub, hne⟩ := ih { view with
        distinctAssigned := view.distinctAssigned ∪ ([0] : List Addr).toFinset
        perChunkAssigned := view.perChunkAssigned.insert i [0] } hunion.subset
      refine ⟨view', ?_, hsub, fun _ => ?_⟩
      · unfold assignChunks
        rw [hassigned]
        exact hok
      · cases chunks with
        | nil =>
            cases hok
            exact hunion
        | cons j chunks => exact hne (List.cons_ne_nil _ _)

/-- The manifest of the one archive is asked of its peer. -/
def soloAsked : ManifestFetch :=
  ⟨(∅ : Map Addr ManifestArchiveStatus).insert 0 .dispatched, (∅ : Map PeerId Addr).insert 7 0,
    (∅ : Map PeerId Addr).insert 7 0, .noResponses⟩

omit [Blake3] in
theorem solo_dispatchWave {view : V2AssignmentView} (hview : view.distinctAssigned = {0}) :
    letI := PeerOrder.keys
    (ManifestFetch.initial view ((∅ : Map PeerId Addr).insert 7 0)).dispatchWave
      (ManifestFetch.fanout view 1) true = (soloAsked, [(7, 0)]) := by
  let _ := PeerOrder.keys
  have hfan : ManifestFetch.fanout view 1 = 1 := by
    unfold ManifestFetch.fanout
    rw [hview]
    rfl
  have hstart : ManifestFetch.initial view ((∅ : Map PeerId Addr).insert 7 0)
      = ⟨(∅ : Map Addr ManifestArchiveStatus).insert 0 .untried, ∅,
          (∅ : Map PeerId Addr).insert 7 0, .noResponses⟩ := by
    unfold ManifestFetch.initial
    rw [hview, Finset.sort_singleton]
    rfl
  rw [hfan, hstart]
  rfl

omit [Blake3] in
/-- Nothing is asked for if everything is done. -/
theorem ChunkStates.selectDispatches_of_received {δ : Type} {state : ChunkStates δ}
    (h : ∀ i s, state.lookup i = some s → s.received.isSome = true) (chunks : List ChunkDescriptor)
    (peers : Addr → Option PeerId) (maxConcurrent : Nat) (skip : Bool) :
    state.selectDispatches chunks peers maxConcurrent skip = [] := by
  apply List.eq_nil_iff_forall_not_mem.mpr
  intro d hd
  obtain ⟨s, hs, hnone, -⟩ := ChunkStates.selectFrom_selects _ _ d hd
  have := h _ s hs
  rw [hnone] at this
  cases this

theorem fetchV2PublicChunks_on_disk [PeerOrder] (view : V2AssignmentView) {m : DataManifest}
    (peerAddresses : Map PeerId Addr) {files : ChunkStore}
    (hfiles : ∀ c ∈ m.chunks, files.has c.cid = true) (maxConcurrent : Nat) (swarmRuns : Bool)
    (inputs : List LoopInput) :
    fetchV2PublicChunks view m peerAddresses files maxConcurrent swarmRuns inputs
      = some (.ok (ChunkFetchLoop.initial view m peerAddresses files)) := by
  have hdone : ∀ i s, (ChunkFetchLoop.initial view m peerAddresses files).state.lookup i = some s →
      s.received.isSome = true := by
    intro i s hs
    rcases ChunkStates.lookup_foldl_insert _ _ _ hs with ⟨c, hc, -, rfl⟩ | hempty
    · rw [if_pos (hfiles c hc)]
      rfl
    · cases hempty
  have hdispatch : (ChunkFetchLoop.initial view m peerAddresses files).dispatch m maxConcurrent
      swarmRuns = .ok (ChunkFetchLoop.initial view m peerAddresses files, []) := by
    unfold ChunkFetchLoop.dispatch ChunkStates.tryDispatch
    rw [ChunkStates.selectDispatches_of_received hdone]
  have hfinished : (ChunkFetchLoop.initial view m peerAddresses files).finished = true := by
    unfold ChunkFetchLoop.finished
    rw [List.all_eq_true]
    rintro ⟨i, s⟩ he
    exact hdone i s (AList.mem_lookup_iff.mpr he)
  unfold fetchV2PublicChunks
  rw [hdispatch]
  dsimp only
  unfold ChunkFetchLoop.run
  rw [if_pos hfinished]

/-- A download of chunks that are all on disk puts them together. -/
theorem solo_download [AssignmentScore] {root : Hash} {n : Nat} (hn : 0 < n) {m : DataManifest}
    (hm : ValidManifest root m) (hcount : m.chunkCount ≠ 0) {files : ChunkStore}
    (hfiles : ∀ c ∈ m.chunks, files.has c.cid = true) :
    letI := ManifestReader.only m
    letI := PeerOrder.keys
    runV2Public (soloDownload root n m files) = some (assemble files m.chunks) := by
  let _ := ManifestReader.only m
  let _ := PeerOrder.keys
  obtain ⟨view, hview, -, hdistinct⟩ := assignChunks_solo root (List.range n) ⟨[0], 1, ∅, ∅⟩
    (Finset.empty_subset _)
  have hdecode : decodeV2ManifestBytes (manifestToCbor m) root = .ok m := by
    unfold decodeV2ManifestBytes
    rw [show ManifestReader.fromCbor (manifestToCbor m) = .ok m from if_pos rfl, validate_only hm]
    exact if_neg fun h => h hm.merkleRoot
  have hrange : List.range n ≠ [] := by
    rw [Ne, List.range_eq_nil]
    omega
  have hopen : (soloAsked.openAt 7) = some 0 := rfl
  have hrun : soloAsked.run view root 1 (soloDownload root n m files).manifestInputs
      = some (.ok (m, soloAsked)) := by
    have hstep : soloAsked.onInput view root 1 (.event (.shardReceivedV2 7
        (.manifestData root (manifestToCbor m) none) ⟨7, .v2ManifestPull root⟩) true .done)
        = .done soloAsked m := by
      unfold ManifestFetch.onInput
      dsimp only
      rw [if_neg (by simp), hopen]
      dsimp only
      rw [hdecode]
    unfold ManifestFetch.run soloDownload
    dsimp only
    rw [if_neg (by decide), hstep]
  unfold runV2Public
  rw [show (soloDownload root n m files).info.merkleRoot = (rowOf root n).merkleRoot from rfl,
    decodeRootHex_rowOf]
  dsimp only
  rw [show buildV2AssignmentView (soloDownload root n m files).nodes
    (soloDownload root n m files).replicationFactor (soloDownload root n m files).info.assignmentHeight
    root (List.range (soloDownload root n m files).info.chunkCount) = .ok view from hview]
  dsimp only
  rw [show (soloDownload root n m files).peerAddresses = (∅ : Map PeerId Addr).insert 7 0 from rfl,
    show (soloDownload root n m files).maxConcurrent = 1 from rfl,
    show (soloDownload root n m files).swarmRuns = true from rfl,
    solo_dispatchWave (hdistinct hrange)]
  dsimp only
  rw [hrun]
  dsimp only
  rw [if_neg hcount, show (soloDownload root n m files).store.files = files from rfl,
    fetchV2PublicChunks_on_disk view _ hfiles]
  rfl

end

theorem assemble_of_lookups {files : ChunkStore} : ∀ (chunks : List ChunkDescriptor)
    (pieces : List Bytes),
    (chunks.map ChunkDescriptor.cid).map (fun cid => files.lookup cid) = pieces.map some →
    assemble files chunks = .ok pieces.flatten := by
  intro chunks
  induction chunks with
  | nil =>
      intro pieces h
      cases pieces with
      | nil => rfl
      | cons p pieces => cases h
  | cons c chunks ih =>
      intro pieces h
      cases pieces with
      | nil => cases h
      | cons p pieces =>
          injection h with hhead hrest
          have hlook : files.lookup c.cid = some p := hhead
          unfold assemble
          rw [show files.get c.cid = .ok p by unfold ChunkStore.get; rw [hlook], ih pieces hrest]
          rfl

/-- The decoder of one manifest decodes to it. -/
theorem only_ok {m m' : DataManifest} {bytes : Bytes}
    (h : (ManifestReader.only m).fromCbor bytes = .ok m') : m' = m := by
  unfold ManifestReader.only at h
  dsimp only at h
  split at h
  · cases h
    rfl
  · cases h

/-- The two chunk files. -/
def twoFiles [Blake3] : ChunkStore :=
  ((∅ : ChunkStore).insert (cidFromData [1]) [1]).insert (cidFromData [2]) [2]

theorem twoFiles_ok [Blake3] : FilesOk twoFiles := by
  intro cid d h
  unfold twoFiles at h
  by_cases h2 : cid = cidFromData [2]
  · subst h2
    rw [AList.lookup_insert, Option.some.injEq] at h
    rw [h]
  · rw [AList.lookup_insert_ne h2] at h
    by_cases h1 : cid = cidFromData [1]
    · subst h1
      rw [AList.lookup_insert, Option.some.injEq] at h
      rw [h]
    · rw [AList.lookup_insert_ne h1] at h
      cases h

theorem twoFiles_lookup [Blake3] (h : Blake3.hash [1] ≠ Blake3.hash [2]) :
    twoFiles.lookup (cidFromData [1]) = some [1] ∧ twoFiles.lookup (cidFromData [2]) = some [2] := by
  have hcids : cidFromData [1] ≠ cidFromData [2] := fun hc => h (cidFromBlake3Hash_inj hc)
  unfold twoFiles
  rw [AList.lookup_insert_ne hcids, AList.lookup_insert, AList.lookup_insert]
  exact ⟨rfl, rfl⟩

/-- The file of the byte 1 comes out if its own manifest is served. -/
theorem byte_download_is_the_file :
    letI := Blake3.reference
    letI := ManifestReader.only (chunkMapped [] [1])
    letI := AssignmentScore.flat
    letI := PeerOrder.keys
    let d := soloDownload (chunkMapped [] [1]).merkleRoot 1 (chunkMapped [] [1]) twoFiles
    runV2Public d = some (.ok [1]) ∧
      (([1] : Bytes) = [1] ∨ Collision (downloadStrings d [1])) := by
  have hbytes : letI := Blake3.reference; Blake3.hash [1] ≠ Blake3.hash [2] := by decide +kernel
  revert hbytes
  generalize Blake3.reference = b
  intro hbytes
  let _ := ManifestReader.only (chunkMapped [] [1])
  let _ := AssignmentScore.flat
  let _ := PeerOrder.keys
  have hne : ([1] : Bytes) ≠ [] := by decide
  have hlen : ([1] : Bytes).length ≤ chunkSize := by decide
  have hcountable : Countable32 ([1] : Bytes).length := by
    unfold Countable32
    decide
  obtain ⟨hroot, hcount, hcids⟩ := chunkMapped_small [] hne hlen
  have hrun : runV2Public (soloDownload (chunkMapped [] [1]).merkleRoot 1 (chunkMapped [] [1]) twoFiles)
      = some (.ok [1]) := by
    rw [solo_download Nat.one_pos (chunkMapped_valid hne) (by rw [hcount]; decide) fun c hc => ?_,
      assemble_of_lookups _ [[1]] (by rw [hcids]; simp [(twoFiles_lookup hbytes).1])]
    · rfl
    · have hcid : c.cid = cidFromData [1] := by
        have hmem : c.cid ∈ (chunkMapped [] [1]).chunks.map ChunkDescriptor.cid :=
          List.mem_map.mpr ⟨c, hc, rfl⟩
        rw [hcids] at hmem
        exact List.mem_singleton.mp hmem
      rw [hcid, ChunkStore.has, (twoFiles_lookup hbytes).1]
      rfl
  refine ⟨hrun, public_download_is_the_file [] [1] hne hcountable _ (decodeRootHex_rowOf _ _)
    twoFiles_ok ?_ [1] hrun⟩
  intro input hinput bytes hbytes m hm
  obtain ⟨hcbor, -⟩ := decodeV2ManifestBytes_ok hm
  rw [only_ok hcbor]

section

variable [Blake3]

/-- The file whose 64 bytes are the digests of the bytes 1 and 2. -/
def twoDigests : Bytes := pairBytes (Blake3.hash [1], Blake3.hash [2])

/-- The manifest over the two bytes, for the root of that file. -/
def twoBytesManifest : DataManifest :=
  manifestOver (chunkMapped [] twoDigests).merkleRoot [Blake3.hash [1], Blake3.hash [2]]

/-- That manifest is served for the file, which has one chunk. -/
def twoBytesDownload : PublicDownload :=
  soloDownload (chunkMapped [] twoDigests).merkleRoot 1 twoBytesManifest twoFiles

theorem twoDigests_length : twoDigests.length = 64 := pairBytes_length _

theorem twoDigests_ne_nil : twoDigests ≠ [] := by
  intro h
  have hlen := twoDigests_length
  rw [h] at hlen
  cases hlen

theorem twoDigests_small : twoDigests.length ≤ chunkSize := by
  rw [twoDigests_length]
  decide

theorem twoBytesManifest_valid :
    ValidManifest (chunkMapped [] twoDigests).merkleRoot twoBytesManifest :=
  manifestOver_valid (chunkMapped_small [] twoDigests_ne_nil twoDigests_small).1.symm

theorem twoBytesDownload_returns [AssignmentScore] (h : Blake3.hash [1] ≠ Blake3.hash [2]) :
    letI := ManifestReader.only twoBytesManifest
    letI := PeerOrder.keys
    runV2Public twoBytesDownload = some (.ok [1, 2]) := by
  let _ := ManifestReader.only twoBytesManifest
  let _ := PeerOrder.keys
  obtain ⟨h1, h2⟩ := twoFiles_lookup h
  have hcids : twoBytesManifest.chunks.map ChunkDescriptor.cid = [cidFromData [1], cidFromData [2]] :=
    rfl
  unfold twoBytesDownload
  rw [solo_download Nat.one_pos twoBytesManifest_valid (show (2 : Nat) ≠ 0 by decide)
    fun c hc => ?_, assemble_of_lookups _ [[1], [2]] (by rw [hcids]; simp [h1, h2])]
  · rfl
  · have hmem : c.cid ∈ [cidFromData [1], cidFromData [2]] :=
      hcids ▸ List.mem_map.mpr ⟨c, hc, rfl⟩
    rcases List.mem_pair.mp hmem with hc | hc
    · rw [hc, ChunkStore.has, h1]
      rfl
    · rw [hc, ChunkStore.has, h2]
      rfl

theorem twoFiles_data {x : Bytes} (h : x ∈ twoFiles.entries.map Sigma.snd) : x = [1] ∨ x = [2] := by
  obtain ⟨⟨cid, y⟩, he, rfl⟩ := List.mem_map.mp h
  have hlook : twoFiles.lookup cid = some y := AList.mem_lookup_iff.mpr he
  unfold twoFiles at hlook
  by_cases h2 : cid = cidFromData [2]
  · rw [h2, AList.lookup_insert, Option.some.injEq] at hlook
    exact Or.inr hlook.symm
  · rw [AList.lookup_insert_ne h2] at hlook
    exact Or.inl (insert_lookup_only hlook)

theorem twoBytesDownload_strings {x : Bytes}
    (h : letI := ManifestReader.only twoBytesManifest; x ∈ downloadStrings twoBytesDownload twoDigests) :
    x = twoDigests ∨ x = [1] ∨ x = [2] := by
  let _ := ManifestReader.only twoBytesManifest
  have hpair : treePreimages twoBytesManifest.leaves = [twoDigests] := by
    unfold treePreimages
    rw [show twoBytesManifest.leaves = [Blake3.hash [1], Blake3.hash [2]] from
      manifestOver_leaves _ _, show Nat.clog 2 [Blake3.hash [1], Blake3.hash [2]].length = 1 from
      Nat.clog_of_two_le (Nat.le_refl 2) (Nat.le_refl 2)]
    rfl
  have hone : treePreimages [Blake3.hash twoDigests] = [] := by
    unfold treePreimages
    rw [show Nat.clog 2 [Blake3.hash twoDigests].length = 0 from Nat.clog_one_right 2]
    rfl
  have hserved : (twoBytesDownload.manifestInputs.filterMap LoopInput.manifestBytes).flatMap
      (fun bytes => match ManifestReader.fromCbor bytes with
        | .ok m => treePreimages m.leaves
        | .error _ => []) = [twoDigests] := by
    rw [show twoBytesDownload.manifestInputs.filterMap LoopInput.manifestBytes
      = [manifestToCbor twoBytesManifest] from rfl, List.flatMap_singleton,
      show ManifestReader.fromCbor (manifestToCbor twoBytesManifest) = .ok twoBytesManifest from
        if_pos rfl]
    exact hpair
  unfold downloadStrings at h
  rw [hserved, chunksOfFile_small twoDigests_ne_nil twoDigests_small, List.map_singleton, hone] at h
  rcases List.mem_append.mp h with h | h
  · rcases List.mem_append.mp h with h | h
    · left
      simpa using h
    · exact Or.inr (twoFiles_data h)
  · cases h

end

/--
The two bytes come out for the file of their digests, whose own manifest has one
chunk, and no two strings of the download collide.
-/
theorem digests_download_wrong :
    letI := Blake3.reference
    letI := ManifestReader.only twoBytesManifest
    letI := AssignmentScore.flat
    letI := PeerOrder.keys
    twoDigests ≠ [] ∧ Countable32 twoDigests.length ∧
      (chunkMapped [] twoDigests).chunkCount = twoBytesDownload.info.chunkCount ∧
      decodeRootHex twoBytesDownload.info.merkleRoot = some (chunkMapped [] twoDigests).merkleRoot ∧
      FilesOk twoBytesDownload.store.files ∧
      runV2Public twoBytesDownload = some (.ok [1, 2]) ∧ [1, 2] ≠ twoDigests ∧
      ¬ Collision (downloadStrings twoBytesDownload twoDigests) := by
  have hdigests : letI := Blake3.reference
      Blake3.hash [1] ≠ Blake3.hash [2] ∧ Blake3.hash twoDigests ≠ Blake3.hash [1] ∧
      Blake3.hash twoDigests ≠ Blake3.hash [2] := by
    decide +kernel
  revert hdigests
  generalize Blake3.reference = b
  rintro ⟨h12, hf1, hf2⟩
  let _ := ManifestReader.only twoBytesManifest
  let _ := AssignmentScore.flat
  let _ := PeerOrder.keys
  refine ⟨twoDigests_ne_nil, ?_, (chunkMapped_small [] twoDigests_ne_nil twoDigests_small).2.1,
    decodeRootHex_rowOf _ _, twoFiles_ok, twoBytesDownload_returns h12, ?_, ?_⟩
  · rw [Countable32, twoDigests_length]
    decide
  · intro h
    have hlen := twoDigests_length
    rw [← h] at hlen
    cases hlen
  · rintro ⟨x, hx, y, hy, hne, hxy⟩
    rcases twoBytesDownload_strings hx with rfl | rfl | rfl
    · rcases twoBytesDownload_strings hy with rfl | rfl | rfl
      · exact hne rfl
      · exact hf1 hxy
      · exact hf2 hxy
    · rcases twoBytesDownload_strings hy with rfl | rfl | rfl
      · exact hf1 hxy.symm
      · exact hne rfl
      · exact h12 hxy
    · rcases twoBytesDownload_strings hy with rfl | rfl | rfl
      · exact hf2 hxy.symm
      · exact h12 hxy.symm
      · exact hne rfl

end Snip
