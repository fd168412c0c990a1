/-
A download of a Private file that returns has written the file.

The key comes out of the caller's own entry.  A manifest is taken if it opens under the key
and its leaves rebuild the root, and a chunk if it has the digest of its leaf; so manifest
and chunks hang on the root, as far as no two strings collide.  What hangs on nothing is how
many leaves there are and which index a chunk is opened under: a manifest that numbers its
chunks otherwise is left to whoever holds the key.
-/
import Snip.Node.PrivateDownload
import Snip.Proofs.Access
import Snip.Proofs.Attestor
import Snip.Proofs.ManifestFanout
import Snip.Proofs.PrivateArtifacts
import Snip.Proofs.PrivateFetch

namespace Snip

/-! ### The key -/

namespace PrivateDownload

section

variable [Blake3] [Bs58] [SumchainWire] [CryptoLib] {d : PrivateDownload}

/-- The entry has no expiry, or the finalized height has not passed it. -/
def InForce (rpc : AccessRpc) (entry : AccessEntryV2) : Prop :=
  entry.expiresAt = none ∨ ∃ height, rpc.chainGetBlockHeight = .ok height ∧ entry.Valid height

omit [Blake3] [Bs58] [SumchainWire] [CryptoLib] in
theorem checkExpiry_ok_iff {rpc : AccessRpc} {entry : AccessEntryV2} :
    checkExpiry rpc entry = .ok () ↔ InForce rpc entry := by
  unfold checkExpiry InForce
  cases hexpires : entry.expiresAt with
  | none => simp
  | some expiresAt =>
      cases hheight : rpc.chainGetBlockHeight with
      | error e => simp
      | ok height => simp [checkAccessExpiry_ok_iff]

/-- **The key is what the bundle of the caller's own entry wraps**, while the entry is in force. -/
theorem openKey_ok {kFile : Hash} (h : d.openKey = .ok kFile) :
    ∃ entry, findMyAccessEntry d.rpc (fileRootHex d.chainRoot) d.myAddrB58 d.info = .ok entry ∧
      InForce d.rpc entry ∧ WrapsFor d.seed entry kFile := by
  unfold openKey at h
  split at h
  · cases h
  rename_i entry hentry
  split at h
  · cases h
  rename_i text htext
  split at h
  · cases h
  rename_i bundle hbundle
  split at h
  · cases h
  rename_i hexpiry
  split at h
  · cases h
  rename_i secret hsecret
  split at h
  · cases h
  rename_i kFile' hkey
  cases h
  exact ⟨entry, hentry, checkExpiry_ok_iff.mp hexpiry, text, bundle, secret, htext,
    bundleOfHex_ok_iff.mp hbundle, hsecret, hkey⟩

end

end PrivateDownload

/-! ### The manifest -/

section

variable [Blake3] [CryptoLib] [ManifestReader]

theorem decryptAndVerifyManifest_ok {kFile root : Hash} {bytes : Bytes} {m : DataManifest}
    (h : decryptAndVerifyManifest kFile bytes root = .ok m) :
    m.merkleRoot = root ∧ (MerkleTree.build m.leaves).root = root := by
  unfold decryptAndVerifyManifest at h
  split at h
  · cases h
  split at h
  · cases h
  split at h
  · cases h
  rename_i hroot
  split at h
  · cases h
  rename_i htree
  cases h
  exact ⟨not_not.mp hroot, not_not.mp htree⟩

namespace PrivateManifestFetch

variable [PeerOrder] {assigned : Finset Addr} {chainRoot kFile : Hash} {timeout : String}
  {maxConcurrent : Nat}

theorem onInput_done {f : PrivateManifestFetch} {m : DataManifest} {input : LoopInput}
    (h : f.onInput assigned chainRoot kFile timeout maxConcurrent input = .done m) :
    ∃ bytes, input.manifestBytes = some bytes ∧
      decryptAndVerifyManifest kFile bytes chainRoot = .ok m := by
  cases input with
  | event e swarmRuns io =>
      unfold onInput at h
      dsimp only at h
      split at h
      · cases h
      · cases h
      · rename_i peerId merkleRoot bytes error _
        split at h
        · cases h
        split at h
        · cases h
        split at h
        · cases h
        split at h
        · rename_i m' hopen
          cases h
          exact ⟨bytes, rfl, hopen⟩
        · cases h
      · cases h
  | grace swarmRuns => cases h
  | deadline => cases h
  | closed => cases h

theorem run_ok {m : DataManifest} {peers : Map PeerId Addr} :
    ∀ (inputs : List LoopInput) (f : PrivateManifestFetch),
    f.run assigned chainRoot kFile timeout maxConcurrent inputs = some (.ok (m, peers)) →
    ∃ input ∈ inputs, ∃ bytes, input.manifestBytes = some bytes ∧
      decryptAndVerifyManifest kFile bytes chainRoot = .ok m := by
  intro inputs
  induction inputs with
  | nil =>
      intro f h
      unfold run at h
      split at h
      · cases h
      · cases h
  | cons input inputs ih =>
      intro f h
      unfold run at h
      split at h
      · cases h
      dsimp only at h
      split at h
      · obtain ⟨input', hmem, hbytes⟩ := ih _ h
        exact ⟨input', List.mem_cons_of_mem _ hmem, hbytes⟩
      · rename_i hdone
        cases h
        exact ⟨input, List.mem_cons_self, onInput_done hdone⟩
      · cases h

end PrivateManifestFetch

/-- The manifest is one that some archive has served. -/
theorem fetchManifestV2_ok [PeerOrder] [AssignmentScore] {nodes : Except Str (List NodeRecordInfo)}
    {replicationFactor : Except Str Nat} {info : StorageFileInfoV2} {chainRoot kFile : Hash}
    {timeout : String} {peerAddresses peers : Map PeerId Addr} {maxConcurrent : Nat}
    {swarmRuns : Bool} {inputs : List LoopInput} {m : DataManifest}
    (h : fetchManifestV2 nodes replicationFactor info chainRoot kFile timeout peerAddresses
      maxConcurrent swarmRuns inputs = some (.ok (m, peers))) :
    ∃ input ∈ inputs, ∃ bytes, input.manifestBytes = some bytes ∧
      decryptAndVerifyManifest kFile bytes chainRoot = .ok m := by
  unfold fetchManifestV2 at h
  split at h
  · cases h
  · exact PrivateManifestFetch.run_ok _ _ h

end

/-! ### The chunks -/

section

variable [Blake3]

/-- The bytes are among the strings and have the digest of the chunk's leaf. -/
def Checked (chunks : List ChunkDescriptor) (strings : List Bytes) (i : Nat) (data : Bytes) :
    Prop :=
  data ∈ strings ∧ ∃ cd, chunkAt chunks i = some cd ∧ Blake3.hash data = cd.blake3Hash

namespace ChunkStates

variable {chunks : List ChunkDescriptor} {strings : List Bytes} {state state' : ChunkStates Bytes}

/-- Whatever is received was checked. -/
def AllChecked (chunks : List ChunkDescriptor) (strings : List Bytes) (state : ChunkStates Bytes) :
    Prop :=
  ∀ i s data, state.lookup i = some s → s.received = some data → Checked chunks strings i data

theorem AllChecked.insert (h : state.AllChecked chunks strings) {i : Nat} {s : CiphertextState}
    (hs : ∀ data, s.received = some data → Checked chunks strings i data) :
    ChunkStates.AllChecked chunks strings (AList.insert i s state) := by
  intro j t data ht hdata
  by_cases hj : j = i
  · subst hj
    rw [AList.lookup_insert, Option.some.injEq] at ht
    exact hs data (ht ▸ hdata)
  · rw [AList.lookup_insert_ne hj] at ht
    exact h j t data ht hdata

theorem AllChecked.wave {pulls : List Pull} (h : state.AllChecked chunks strings)
    (hwave : Wave state state' chunks pulls) : state'.AllChecked chunks strings := by
  intro i s' data hs' hdata
  obtain ⟨s, hs, hsame, -⟩ := hwave.same hs'
  exact h i s data hs (hsame ▸ hdata)

end ChunkStates

theorem assignedStates_checked [AssignmentScore] {root : Hash} {snapshot : List Addr} {r : Nat}
    {all : List ChunkDescriptor} {strings : List Bytes} :
    ∀ (chunks : List ChunkDescriptor) (state state' : ChunkStates Bytes),
    assignedStates root snapshot r chunks state = .ok state' →
    state.AllChecked all strings → state'.AllChecked all strings := by
  intro chunks
  induction chunks with
  | nil =>
      intro state state' h hstate
      cases h
      exact hstate
  | cons cd chunks ih =>
      intro state state' h hstate
      unfold assignedStates at h
      split at h
      · cases h
      · exact ih _ _ h (hstate.insert nofun)

namespace CiphertextFetchLoop

variable {m : DataManifest} {maxConcurrent : Nat} {strings : List Bytes}

theorem initial_checked [AssignmentScore] {nodes : Except Str (List NodeRecordInfo)}
    {replicationFactor : Except Str Nat} {assignmentHeight : Nat} {peerAddresses : Map PeerId Addr}
    {f : CiphertextFetchLoop}
    (h : initial nodes replicationFactor assignmentHeight m peerAddresses = .ok f) :
    f.state.AllChecked m.chunks strings := by
  unfold initial at h
  split at h
  · cases h
  split at h
  · cases h
  dsimp only at h
  split at h
  · cases h
  split at h
  · cases h
  rename_i r
  cases hstates : assignedStates m.merkleRoot _ r m.chunks ∅ with
  | error e =>
      rw [hstates] at h
      cases h
  | ok state =>
      rw [hstates] at h
      cases h
      exact assignedStates_checked _ _ _ hstates nofun

variable [PeerOrder] (hnodup : (m.chunks.map ChunkDescriptor.chunkIndex).Nodup)

include hnodup

theorem dispatch_checked {f f' : CiphertextFetchLoop} {swarmRuns : Bool} {pulls : List Pull}
    (h : f.dispatch m maxConcurrent swarmRuns = .ok (f', pulls))
    (hf : f.state.AllChecked m.chunks strings) : f'.state.AllChecked m.chunks strings := by
  obtain ⟨state, rfl, hok⟩ := dispatch_ok h
  exact hf.wave (ChunkStates.tryDispatch_wave hnodup hok)

theorem onInput_checked {f f' : CiphertextFetchLoop} {input : LoopInput} {pulls : List Pull}
    (h : f.onInput m maxConcurrent input = .ok (f', pulls))
    (hf : f.state.AllChecked m.chunks strings)
    (hinput : ∀ bytes, input.chunkBytes = some bytes → bytes ∈ strings) :
    f'.state.AllChecked m.chunks strings := by
  cases onInput_effect h with
  | ignored same none_sent undelivered =>
      rw [same]
      exact hf
  | refreshed g swarmRuns unanswered state sent undelivered =>
      exact dispatch_checked hnodup sent (by rw [state]; exact hf)
  | received peerId cid idx s data key awaited missing same none_sent delivered bytes checked =>
      rw [same]
      refine hf.insert ?_
      intro data' hdata
      obtain rfl := Option.some.inj hdata
      exact ⟨hinput data bytes, checked⟩
  | refused peerId cid idx s swarmRuns key awaited missing left sent undelivered =>
      refine dispatch_checked hnodup sent (hf.insert ?_)
      intro data hdata
      rw [missing] at hdata
      cases hdata

theorem run_checked {chunks : List (Nat × Bytes)} :
    ∀ (inputs : List LoopInput) (f : CiphertextFetchLoop),
    f.run m maxConcurrent inputs = some (.ok chunks) → f.state.AllChecked m.chunks strings →
    (∀ input ∈ inputs, ∀ bytes, input.chunkBytes = some bytes → bytes ∈ strings) →
    ∀ e ∈ chunks, Checked m.chunks strings e.1 e.2 := by
  intro inputs
  have hdone : ∀ f : CiphertextFetchLoop, f.state.AllChecked m.chunks strings →
      ∀ e ∈ f.state.entries.filterMap (fun e => e.2.received.map fun data => (e.1, data)),
        Checked m.chunks strings e.1 e.2 := by
    intro f hf e he
    obtain ⟨⟨i, s⟩, hentry, hmap⟩ := List.mem_filterMap.mp he
    obtain ⟨data, hdata, rfl⟩ := Option.map_eq_some_iff.mp hmap
    exact hf i s data (AList.mem_lookup_iff.mpr hentry) hdata
  induction inputs with
  | nil =>
      intro f h hf _
      unfold run at h
      split at h
      · cases h
        exact hdone f hf
      · cases h
  | cons input inputs ih =>
      intro f h hf hinputs
      unfold run at h
      split at h
      · cases h
        exact hdone f hf
      dsimp only at h
      split at h
      · cases h
      · rename_i f' pulls hstep
        exact ih f' h
          (onInput_checked hnodup hstep hf (hinputs input List.mem_cons_self))
          fun i hi => hinputs i (List.mem_cons_of_mem _ hi)

end CiphertextFetchLoop

/-- Every chunk that the fetch returns came over the network and has the digest of its leaf. -/
theorem fetchAllCiphertextChunksV2_checked [AssignmentScore] [PeerOrder]
    {nodes : Except Str (List NodeRecordInfo)} {replicationFactor : Except Str Nat}
    {info : StorageFileInfoV2} {m : DataManifest} {peerAddresses : Map PeerId Addr}
    {maxConcurrent : Nat} {swarmRuns : Bool} {inputs : List LoopInput}
    {chunks : List (Nat × Bytes)} (hnodup : (m.chunks.map ChunkDescriptor.chunkIndex).Nodup)
    (h : fetchAllCiphertextChunksV2 nodes replicationFactor info m peerAddresses maxConcurrent
      swarmRuns inputs = some (.ok chunks)) :
    ∀ e ∈ chunks, Checked m.chunks (inputs.filterMap LoopInput.chunkBytes) e.1 e.2 := by
  unfold fetchAllCiphertextChunksV2 at h
  split at h
  · cases h
  rename_i f hinitial
  split at h
  · cases h
  rename_i f' pulls hdispatch
  refine CiphertextFetchLoop.run_checked hnodup inputs f' h
    (CiphertextFetchLoop.dispatch_checked hnodup hdispatch
      (CiphertextFetchLoop.initial_checked hinitial)) ?_
  intro input hinput bytes hbytes
  exact List.mem_filterMap.mpr ⟨input, hinput, hbytes⟩

end

/-! ### The output -/

section

variable [Blake3] [CryptoLib] {kFile : Hash}

theorem decryptAndVerifyChunk_ok {cd : ChunkDescriptor} {ciphertext plaintext : Bytes}
    (h : decryptAndVerifyChunk kFile cd ciphertext = .ok plaintext) :
    decryptChunk kFile cd.chunkIndex ciphertext = .ok plaintext := by
  unfold decryptAndVerifyChunk at h
  split at h
  · cases h
  rename_i plaintext' hopen
  split at h
  · cases h
  split at h
  · cases h
  cases h
  exact hopen

namespace PrivateDownload

/-- The bytes of a chunk among those that were fetched. -/
def bytesOf (ciphertextChunks : List (Nat × Bytes)) (cd : ChunkDescriptor) : Bytes :=
  (ciphertextChunks.lookup cd.chunkIndex).getD []

/-- The output is made of the chunks fetched, each opened under its own index. -/
theorem assemble_ok {ciphertextChunks : List (Nat × Bytes)} :
    ∀ (cds : List ChunkDescriptor) {out : Bytes}, assemble kFile ciphertextChunks cds = .ok out →
    decryptChunks kFile (bytesOf ciphertextChunks) cds = .ok out ∧
      ∀ cd ∈ cds, (cd.chunkIndex, bytesOf ciphertextChunks cd) ∈ ciphertextChunks ∧
        ∃ piece, decryptAndVerifyChunk kFile cd (bytesOf ciphertextChunks cd) = .ok piece := by
  intro cds
  induction cds with
  | nil =>
      intro out h
      cases h
      exact ⟨rfl, nofun⟩
  | cons cd cds ih =>
      intro out h
      unfold assemble at h
      split at h
      · cases h
      rename_i ct hlook
      have hbytes : bytesOf ciphertextChunks cd = ct := by
        unfold bytesOf
        rw [hlook]
        rfl
      have hmem : (cd.chunkIndex, ct) ∈ ciphertextChunks := by
        obtain ⟨before, after, rfl, -⟩ := List.lookup_eq_some_iff.mp hlook
        exact List.mem_append_right _ List.mem_cons_self
      split at h
      · cases h
      rename_i piece hpiece
      cases hrest : assemble kFile ciphertextChunks cds with
      | error e =>
          rw [hrest] at h
          cases h
      | ok rest =>
          rw [hrest] at h
          cases h
          obtain ⟨hchunks, hall⟩ := ih hrest
          refine ⟨?_, List.forall_mem_cons.mpr ⟨⟨?_, piece, ?_⟩, hall⟩⟩
          · unfold decryptChunks
            rw [hbytes, hpiece, hchunks]
            rfl
          · rw [hbytes]
            exact hmem
          · rw [hbytes]
            exact hpiece

theorem write_ok {m m' : DataManifest} {ciphertextChunks : List (Nat × Bytes)} {out : Bytes}
    (h : write kFile m ciphertextChunks = .ok (m', out)) :
    m' = m ∧ Blake3.hash out = m.fileHash ∧
      assemble kFile ciphertextChunks m.chunks = .ok out := by
  unfold write at h
  split at h
  · cases h
  rename_i out' hout
  split at h
  · cases h
  rename_i hhash
  cases h
  unfold checkFileHash at hhash
  split at hhash
  · cases hhash
  · rename_i heq
    exact ⟨rfl, not_not.mp heq, hout⟩

end PrivateDownload

end

/-! ### The download -/

section

variable [Blake3] [CryptoLib]

/-- The descriptors of artifacts that were built. -/
theorem buildPrivateArtifacts_described (haead : CryptoLib.Inverts) {fileName : Str}
    {plaintext : Bytes} {kFile : Hash} {a : PrivateArtifacts}
    (h : buildPrivateArtifacts fileName plaintext kFile = .ok a) :
    a.manifest.merkleRoot = (MerkleTree.build a.manifest.leaves).root ∧
      a.manifest.chunkCount = privateChunkCount plaintext.length ∧
      a.manifest.chunks.map ChunkDescriptor.chunkIndex = List.range a.manifest.chunkCount ∧
      ∀ d ∈ a.manifest.chunks, Describes kFile plaintext a.ciphertext d := by
  obtain ⟨hsmall, l, ct, hrun, -, rfl⟩ := buildPrivateArtifacts_run h
  obtain ⟨l', hrun', hinv⟩ := EncryptLoop.Inv.run haead (privateChunkCount plaintext.length)
    (EncryptLoop.inv_start kFile plaintext) (by omega)
  rw [Nat.zero_add] at hinv
  rw [← List.range_eq_range', hrun] at hrun'
  obtain rfl := Except.ok.inj hrun'
  exact ⟨rfl, rfl, hinv.indices, hinv.described⟩

/-- Chunks with the digests and the numbers of the file's are opened to the file. -/
theorem assemble_published (haead : CryptoLib.Inverts) {fileName : Str} {plaintext : Bytes}
    {kFile : Hash} {a : PrivateArtifacts}
    (hbuild : buildPrivateArtifacts fileName plaintext kFile = .ok a) {m : DataManifest}
    (hnumbered : m.chunks.map ChunkDescriptor.chunkIndex = List.range a.manifest.chunkCount)
    (hleaves : m.leaves = a.manifest.leaves) {strings : List Bytes}
    (hown : a.manifest.chunks.map a.chunkBytes ⊆ strings) {chunks : List (Nat × Bytes)}
    (hchecked : ∀ e ∈ chunks, Checked m.chunks strings e.1 e.2) {out : Bytes}
    (h : PrivateDownload.assemble kFile chunks m.chunks = .ok out) :
    out = plaintext ∨ Collision strings := by
  obtain ⟨-, hcount, hindices, hdescribed⟩ := buildPrivateArtifacts_described haead hbuild
  obtain ⟨hdecrypted, hfetched⟩ := PrivateDownload.assemble_ok m.chunks h
  have hnodup : (m.chunks.map ChunkDescriptor.chunkIndex).Nodup := by
    rw [hnumbered]
    exact List.nodup_range
  have hserved : ∀ cd ∈ m.chunks, PrivateDownload.bytesOf chunks cd ∈ strings ∧
      Blake3.hash (PrivateDownload.bytesOf chunks cd) = cd.blake3Hash := by
    intro cd hcd
    obtain ⟨hmem, cd', hcd', hdigest⟩ := hchecked _ (hfetched cd hcd).1
    rw [ChunkStates.chunkAt_of_mem hnodup hcd] at hcd'
    obtain rfl := Option.some.inj hcd'
    exact ⟨hmem, hdigest⟩
  have hdigests : (m.chunks.map (PrivateDownload.bytesOf chunks)).map Blake3.hash
      = (a.manifest.chunks.map a.chunkBytes).map Blake3.hash :=
    calc (m.chunks.map (PrivateDownload.bytesOf chunks)).map Blake3.hash
        = m.leaves := by
          rw [List.map_map]
          exact List.map_congr_left fun cd hcd => (hserved cd hcd).2
      _ = a.manifest.leaves := hleaves
      _ = (a.manifest.chunks.map a.chunkBytes).map Blake3.hash := by
          rw [List.map_map]
          exact List.map_congr_left fun cd hcd => (hdescribed cd hcd).hash
  have hsub : m.chunks.map (PrivateDownload.bytesOf chunks) ⊆ strings := by
    intro s hs
    obtain ⟨cd, hcd, rfl⟩ := List.mem_map.mp hs
    exact (hserved cd hcd).1
  rcases eq_of_map_hash _ _ hsub hown hdigests with hsame | hcollision
  · refine Or.inl ?_
    -- Each piece is opened under the index that the file's own chunk was sealed under.
    have hpieces : ∀ cd ∈ m.chunks,
        decryptAndVerifyChunk kFile cd (PrivateDownload.bytesOf chunks cd)
          = .ok (privateChunkPlaintext plaintext cd.chunkIndex) := by
      intro cd hcd
      obtain ⟨piece, hpiece⟩ := (hfetched cd hcd).2
      obtain ⟨own, hmem, hidx, hbytes⟩ :=
        Lists.exists_of_map_eq (hnumbered.trans hindices.symm) hsame cd hcd
      have hopens := decryptAndVerifyChunk_ok hpiece
      rw [hbytes, hidx] at hopens
      rw [hpiece, hidx]
      obtain rfl := Except.ok.inj (hopens.symm.trans (hdescribed own hmem).opens)
      rfl
    rw [decryptChunks_eq hpieces, hnumbered, hcount, privateChunkPlaintext_flatten] at hdecrypted
    exact (Except.ok.inj hdecrypted).symm
  · exact Or.inr hcollision

variable [ManifestReader]

/-- A manifest in a response that opens under the key numbers its chunks from 0 to `n - 1`. -/
def LoopInput.NumbersChunks (kFile root : Hash) (n : Nat) (input : LoopInput) : Prop :=
  ∀ bytes, input.manifestBytes = some bytes →
    ∀ m, decryptAndVerifyManifest kFile bytes root = .ok m →
      m.chunks.map ChunkDescriptor.chunkIndex = List.range n

/-- The strings of a download: what it was served, and what the file was published as. -/
def PrivateDownload.strings (d : PrivateDownload) (kFile : Hash) (a : PrivateArtifacts) :
    List Bytes :=
  (d.manifestPhase.inputs.filterMap LoopInput.manifestBytes).flatMap (fun bytes =>
    match decryptAndVerifyManifest kFile bytes d.chainRoot with
    | .ok m => treePreimages m.leaves
    | .error _ => []) ++
  treePreimages a.manifest.leaves ++ a.manifest.chunks.map a.chunkBytes ++
  d.chunkPhase.inputs.filterMap LoopInput.chunkBytes

variable [Bs58] [SumchainWire] [PeerOrder] [AssignmentScore]

/-- The phases of a download that returned. -/
theorem downloadPrivateWithManifest_ok {d : PrivateDownload} {m : DataManifest} {out : Bytes}
    (h : downloadPrivateWithManifest d = some (.ok (m, out))) :
    ∃ kFile peers chunks, d.openKey = .ok kFile ∧
      fetchManifestV2 d.manifestPhase.nodes d.manifestPhase.replicationFactor
        d.info.toStorageFileInfoV2 d.chainRoot kFile d.timeout ∅ d.maxConcurrent
        d.manifestPhase.swarmRuns d.manifestPhase.inputs = some (.ok (m, peers)) ∧
      fetchAllCiphertextChunksV2 d.chunkPhase.nodes d.chunkPhase.replicationFactor
        d.info.toStorageFileInfoV2 m peers (max d.maxConcurrent 1) d.chunkPhase.swarmRuns
        d.chunkPhase.inputs = some (.ok chunks) ∧
      PrivateDownload.write kFile m chunks = .ok (m, out) := by
  unfold downloadPrivateWithManifest at h
  split at h
  · cases h
  rename_i kFile hkey
  split at h
  · cases h
  · cases h
  rename_i m' peers hmanifest
  split at h
  · cases h
  · cases h
  rename_i chunks hchunks
  have hwrite := Option.some.inj h
  obtain ⟨rfl, -⟩ := PrivateDownload.write_ok hwrite
  exact ⟨kFile, peers, chunks, hkey, hmanifest, hchunks, hwrite⟩

/-- What a download that returned stands for: the entry was in force, and the file came out. -/
structure PrivateDownload.Delivers (d : PrivateDownload) (kFile : Hash) (a : PrivateArtifacts)
    (plaintext : Bytes) (m : DataManifest) (out : Bytes) : Prop where
  entitled : ∃ entry,
    findMyAccessEntry d.rpc (fileRootHex d.chainRoot) d.myAddrB58 d.info = .ok entry ∧
      InForce d.rpc entry
  digest : Blake3.hash out = m.fileHash
  /-- The escape is a collision among the strings of the download. -/
  content : out = plaintext ∨ Collision (d.strings kFile a)

/--
**A download that returns has written the file that was published**, for a caller whose entry
wraps its key, if every manifest it is served that opens under the key numbers its chunks from
0 on and has as many.
-/
theorem private_download_is_the_file (haead : CryptoLib.Inverts) {fileName : Str}
    {plaintext : Bytes} {kFile : Hash} {a : PrivateArtifacts}
    (hbuild : buildPrivateArtifacts fileName plaintext kFile = .ok a) (d : PrivateDownload)
    (hroot : d.chainRoot = a.manifest.merkleRoot)
    (hshared : ∀ entry, findMyAccessEntry d.rpc (fileRootHex d.chainRoot) d.myAddrB58 d.info
      = .ok entry → WrapsFor d.seed entry kFile)
    (hnumbers : ∀ input ∈ d.manifestPhase.inputs,
      input.NumbersChunks kFile d.chainRoot a.manifest.chunkCount)
    {m : DataManifest} {out : Bytes}
    (hout : downloadPrivateWithManifest d = some (.ok (m, out))) :
    d.Delivers kFile a plaintext m out := by
  obtain ⟨key, peers, chunks, hkey, hmanifest, hchunks, hwrite⟩ :=
    downloadPrivateWithManifest_ok hout
  obtain ⟨entry, hentry, hforce, hopened⟩ := PrivateDownload.openKey_ok hkey
  obtain rfl := hopened.unique (hshared entry hentry)
  obtain ⟨-, hhash, hassemble⟩ := PrivateDownload.write_ok hwrite
  refine ⟨⟨entry, hentry, hforce⟩, hhash, ?_⟩
  obtain ⟨input, hinput, bytes, hbytes, hopen⟩ := fetchManifestV2_ok hmanifest
  obtain ⟨-, htree⟩ := decryptAndVerifyManifest_ok hopen
  obtain ⟨hown, -, hindices, -⟩ := buildPrivateArtifacts_described haead hbuild
  have hnumbered : m.chunks.map ChunkDescriptor.chunkIndex = List.range a.manifest.chunkCount :=
    hnumbers input hinput bytes hbytes m hopen
  have hlen : m.leaves.length = a.manifest.leaves.length := by
    simpa using congrArg List.length (hnumbered.trans hindices.symm)
  rcases build_root_inj hlen (htree.trans (hroot.trans hown)) with hleaves | hcollision
  · have hnodup : (m.chunks.map ChunkDescriptor.chunkIndex).Nodup := by
      rw [hnumbered]
      exact List.nodup_range
    refine assemble_published haead hbuild hnumbered hleaves ?_ ?_ hassemble
    · intro s hs
      exact List.mem_append_left _ (List.mem_append_right _ hs)
    · intro e he
      obtain ⟨hmem, hdigest⟩ := fetchAllCiphertextChunksV2_checked hnodup hchunks e he
      exact ⟨List.mem_append_right _ hmem, hdigest⟩
  · refine Or.inr (hcollision.mono fun s hs => ?_)
    rcases List.mem_append.mp hs with hs | hs
    · refine List.mem_append_left _ (List.mem_append_left _ (List.mem_append_left _
        (List.mem_flatMap.mpr ⟨bytes, ?_, ?_⟩)))
      · exact List.mem_filterMap.mpr ⟨input, hinput, hbytes⟩
      · rw [hopen]
        exact hs
    · exact List.mem_append_left _ (List.mem_append_left _ (List.mem_append_right _ hs))

end

/-! #### An owner reads a file of three bytes

Two archives hold it, and the first of them answers every request with an error. -/

section

variable [Blake3] [CryptoLib] [ManifestReader]

omit [ManifestReader] in
/-- A decoder that knows one manifest gives no other. -/
theorem decryptAndVerifyManifest_only {known m : DataManifest} {kFile root : Hash} {bytes : Bytes}
    (h : letI := ManifestReader.only known; decryptAndVerifyManifest kFile bytes root = .ok m) :
    m = known := by
  unfold decryptAndVerifyManifest at h
  split at h
  · cases h
  rename_i plaintext _
  by_cases hbytes : plaintext = manifestToCbor known
  · rw [show @ManifestReader.fromCbor (ManifestReader.only known) plaintext = .ok known
      from if_pos hbytes] at h
    dsimp only at h
    split at h
    · cases h
    split at h
    · cases h
    · exact (Except.ok.inj h).symm
  · rw [show @ManifestReader.fromCbor (ManifestReader.only known) plaintext = .error []
      from if_neg hbytes] at h
    cases h

/-- Archives 0 and 1. -/
def twoRecords : Except Str (List NodeRecordInfo) :=
  .ok [⟨.archiveNode, .active, .ok 0⟩, ⟨.archiveNode, .active, .ok 1⟩]

/-- Both archives are identified, the first refuses, and the second serves the manifest. -/
def manifestAnswers (root : Hash) (bytes : Bytes) : List LoopInput :=
  [.event (.peerIdentified 7 0) true .done, .event (.peerIdentified 8 1) true .done,
    .event (.shardReceivedV2 7 (.manifestData root [] (some []))
      ⟨7, .v2ManifestPull root⟩) true .done,
    .event (.shardReceivedV2 8 (.manifestData root bytes none)
      ⟨8, .v2ManifestPull root⟩) true .done]

/-- The first archive refuses the chunk, and the second serves it. -/
def chunkAnswers (cd : ChunkDescriptor) (data : Bytes) : List LoopInput :=
  [.event (.shardReceivedV2 7 (.data ⟨cd.cid, 0, 0, [], some []⟩) ⟨7, .v2Pull cd.cid⟩) true .done,
    .event (.shardReceivedV2 8 (.data ⟨cd.cid, 0, cd.size, data, none⟩) ⟨8, .v2Pull cd.cid⟩)
      true .done]

/-- The peers of the two archives. -/
def servingPeers : Map PeerId Addr := ((∅ : Map PeerId Addr).insert 7 0).insert 8 1

namespace PrivateManifestFetch

variable [PeerOrder] {assigned : Finset Addr} {root kFile : Hash} {timeout : String}
  {maxConcurrent : Nat} {f f' : PrivateManifestFetch} {m : DataManifest}

theorem run_next {input : LoopInput} {pulls : List (PeerId × Addr)} (halive : f.anyAlive = true)
    (h : f.onInput assigned root kFile timeout maxConcurrent input = .next f' pulls)
    (inputs : List LoopInput) :
    f.run assigned root kFile timeout maxConcurrent (input :: inputs)
      = f'.run assigned root kFile timeout maxConcurrent inputs := by
  conv_lhs => unfold run
  simp only [halive, h, Bool.not_true, Bool.false_eq_true, if_false]

theorem run_done {input : LoopInput} (halive : f.anyAlive = true)
    (h : f.onInput assigned root kFile timeout maxConcurrent input = .done m)
    (inputs : List LoopInput) :
    f.run assigned root kFile timeout maxConcurrent (input :: inputs)
      = some (.ok (m, f.peerAddresses)) := by
  unfold run
  simp only [halive, h, Bool.not_true, Bool.false_eq_true, if_false]

variable {peerId : PeerId} {archive : Addr} {bytes : Bytes} {origin : OutboundOrigin}
  {swarmRuns : Bool} {io : Io}

theorem onInput_refused {e : Str} (hopen : f.openAt peerId = some archive) :
    f.onInput assigned root kFile timeout maxConcurrent
      (.event (.shardReceivedV2 peerId (.manifestData root bytes (some e)) origin) swarmRuns io)
      = f.settle (computeManifestFanout maxConcurrent assigned.card) swarmRuns archive
        (.peerError archive e) := by
  unfold onInput
  simp [hopen]

theorem onInput_served (hopen : f.openAt peerId = some archive)
    (hm : decryptAndVerifyManifest kFile bytes root = .ok m) :
    f.onInput assigned root kFile timeout maxConcurrent
      (.event (.shardReceivedV2 peerId (.manifestData root bytes none) origin) swarmRuns io)
      = .done m := by
  unfold onInput
  simp [hopen, hm]

end PrivateManifestFetch

/-- The first archive is known and asked. -/
def oneAsked : PrivateManifestFetch :=
  ⟨firstAsked, (∅ : Map PeerId Addr).insert 7 0, (∅ : Map PeerId Addr).insert 7 0, .noResponses⟩

/-- Both archives are asked, and nothing has come. -/
def bothAsked : PrivateManifestFetch :=
  ⟨firstAsked.insert 1 .dispatched, servingPeers, servingPeers, .noResponses⟩

/-- The first archive has refused. -/
def firstRefused : PrivateManifestFetch :=
  ⟨(firstAsked.insert 1 .dispatched).insert 0 .failed, servingPeers, servingPeers, .peerError 0 []⟩

theorem fetchManifestV2_second {info : StorageFileInfoV2} (hcount : info.chunkCount = 1)
    {root kFile : Hash} {bytes : Bytes} {m : DataManifest} (timeout : String)
    (hopen : decryptAndVerifyManifest kFile bytes root = .ok m) :
    letI := PeerOrder.keys
    letI := AssignmentScore.flat
    fetchManifestV2 twoRecords (.ok 2) info root kFile timeout ∅ 2 true
      (manifestAnswers root bytes) = some (.ok (m, servingPeers)) := by
  let _ := PeerOrder.keys
  let _ := AssignmentScore.flat
  have hassigned : distinctAssignedArchives twoRecords (.ok 2) info root = .ok {0, 1} := by
    unfold distinctAssignedArchives
    rw [hcount]
    rfl
  unfold fetchManifestV2 manifestAnswers
  rw [hassigned]
  dsimp only
  rw [private_initial_twoArchives]
  have hfirst : ∀ inputs, PrivateManifestFetch.run {0, 1} root kFile timeout 2
      ⟨untriedOnes [0, 1], ∅, ∅, .noResponses⟩
      (.event (.peerIdentified 7 0) true .done :: inputs)
      = oneAsked.run {0, 1} root kFile timeout 2 inputs :=
    PrivateManifestFetch.run_next rfl rfl
  have hsecond : ∀ inputs, oneAsked.run {0, 1} root kFile timeout 2
      (.event (.peerIdentified 8 1) true .done :: inputs)
      = bothAsked.run {0, 1} root kFile timeout 2 inputs :=
    PrivateManifestFetch.run_next rfl rfl
  have hrefused : bothAsked.onInput {0, 1} root kFile timeout 2
      (.event (.shardReceivedV2 7 (.manifestData root [] (some [])) ⟨7, .v2ManifestPull root⟩) true
        .done) = .next firstRefused [] := by
    rw [PrivateManifestFetch.onInput_refused (show bothAsked.openAt 7 = some 0 from rfl)]
    rfl
  have hserved : firstRefused.onInput {0, 1} root kFile timeout 2
      (.event (.shardReceivedV2 8 (.manifestData root bytes none) ⟨8, .v2ManifestPull root⟩) true
        .done) = .done m :=
    PrivateManifestFetch.onInput_served rfl hopen
  refine (hfirst _).trans ((hsecond _).trans ?_)
  rw [PrivateManifestFetch.run_next rfl hrefused]
  exact PrivateManifestFetch.run_done rfl hserved _

/-- The chunk is asked of the archive next in turn. -/
def chunkAsked (next : Nat) (peerId : PeerId) (archive : Addr) : CiphertextFetchLoop :=
  ⟨(∅ : ChunkStates Bytes).insert 0 ⟨[0, 1], next, some (peerId, archive), none⟩, servingPeers,
    false⟩

omit [CryptoLib] [ManifestReader] in
theorem CiphertextFetchLoop.run_next [PeerOrder] {m : DataManifest} {maxConcurrent : Nat}
    {f f' : CiphertextFetchLoop} {input : LoopInput} {pulls : List Pull}
    (hleft : f.finished = false) (h : f.onInput m maxConcurrent input = .ok (f', pulls))
    (inputs : List LoopInput) :
    f.run m maxConcurrent (input :: inputs) = f'.run m maxConcurrent inputs := by
  conv_lhs => unfold run
  simp only [hleft, h, Bool.false_eq_true, if_false]

omit [CryptoLib] [ManifestReader] in
theorem fetchAllCiphertextChunksV2_second (info : StorageFileInfoV2) {m : DataManifest}
    {cd : ChunkDescriptor} (hchunks : m.chunks = [cd]) (hidx : cd.chunkIndex = 0) {data : Bytes}
    (hlen : data.length = cd.size) (hhash : Blake3.hash data = cd.blake3Hash) :
    letI := PeerOrder.keys
    letI := AssignmentScore.flat
    fetchAllCiphertextChunksV2 twoRecords (.ok 2) info m servingPeers 2 true (chunkAnswers cd data)
      = some (.ok [(0, data)]) := by
  let _ := PeerOrder.keys
  let _ := AssignmentScore.flat
  obtain ⟨fileName, fileHash, totalSizeBytes, chunkCount, merkleRoot, chunks⟩ := m
  obtain ⟨chunkIndex, offset, size, blake3Hash, cid, plaintextBlake3Hash⟩ := cd
  dsimp only at hchunks hidx hlen hhash
  subst hchunks
  subst hidx
  set cd : ChunkDescriptor := ⟨0, offset, size, blake3Hash, cid, plaintextBlake3Hash⟩
  set m : DataManifest := ⟨fileName, fileHash, totalSizeBytes, chunkCount, merkleRoot, [cd]⟩
  have hinitial : CiphertextFetchLoop.initial twoRecords (.ok 2) info.assignmentHeight m
      servingPeers
      = .ok ⟨(∅ : ChunkStates Bytes).insert 0 ⟨[0, 1], 0, none, none⟩, servingPeers, false⟩ := rfl
  have hdispatch : CiphertextFetchLoop.dispatch
      ⟨(∅ : ChunkStates Bytes).insert 0 ⟨[0, 1], 0, none, none⟩, servingPeers, false⟩ m 2 true
      = .ok (chunkAsked 1 7 0, [⟨0, 7, cid, size⟩]) := rfl
  have hindex : cidToIdx m.chunks cid = some 0 := by simp [cidToIdx, m, cd]
  have hrefused : (chunkAsked 1 7 0).onInput m 2 (.event (.shardReceivedV2 7
      (.data ⟨cid, 0, 0, [], some []⟩) ⟨7, .v2Pull cid⟩) true .done)
      = .ok (chunkAsked 2 8 1, [⟨0, 8, cid, size⟩]) := by
    have hawait : (chunkAsked 1 7 0).state.awaiting m.chunks cid 7
        = some (0, ⟨[0, 1], 1, some (7, 0), none⟩) := by
      unfold ChunkStates.awaiting
      rw [hindex]
      rfl
    show CiphertextFetchLoop.onData _ _ _ _ _ _ = _
    unfold CiphertextFetchLoop.onData
    rw [hawait]
    rfl
  have hserved : (chunkAsked 2 8 1).onInput m 2 (.event (.shardReceivedV2 8
      (.data ⟨cid, 0, size, data, none⟩) ⟨8, .v2Pull cid⟩) true .done)
      = .ok (PrivateFetch.receive (chunkAsked 2 8 1) 0 ⟨[0, 1], 2, some (8, 1), none⟩ data,
        []) := by
    have hawait : (chunkAsked 2 8 1).state.awaiting m.chunks cid 8
        = some (0, ⟨[0, 1], 2, some (8, 1), none⟩) := by
      unfold ChunkStates.awaiting
      rw [hindex]
      rfl
    have hserves : servesChunk cd ⟨cid, 0, size, data, none⟩ = true := by
      simp [servesChunk, cd, hlen, hhash]
    exact PrivateFetch.onData_receive hawait rfl rfl hserves
  unfold fetchAllCiphertextChunksV2 chunkAnswers
  rw [hinitial]
  dsimp only
  rw [hdispatch]
  dsimp only
  rw [CiphertextFetchLoop.run_next rfl hrefused, CiphertextFetchLoop.run_next rfl hserved]
  rfl

omit [CryptoLib] [ManifestReader] in
/-- The owner, address 0 on a chain at height 5, asks for its file of one chunk. -/
def ownersDownload [Bs58] (a : PrivateArtifacts) (cd : ChunkDescriptor) (bundle : Bundle80) :
    PrivateDownload where
  seed := Hash.fill 1
  rpc := ⟨fun _ _ _ => .ok none, fun _ => .ok none, .ok 5⟩
  info := ⟨⟨fileRootHex a.manifest.merkleRoot, 3, a.storedSizeBytes, 1, 0, 1, 1⟩,
    [⟨l1AddressBase58 0, some ('0' :: 'x' :: hexEncode bundle.bytes), some 5⟩]⟩
  chainRoot := a.manifest.merkleRoot
  maxConcurrent := 2
  timeout := "60s"
  manifestPhase := ⟨twoRecords, .ok 2, true,
    manifestAnswers a.manifest.merkleRoot a.encryptedManifestBytes⟩
  chunkPhase := ⟨twoRecords, .ok 2, true, chunkAnswers cd (a.chunkBytes cd)⟩

omit [CryptoLib] [ManifestReader] in
/-- The owner's entry, in its last block. -/
theorem ownersDownload_entry [Bs58] (a : PrivateArtifacts) (cd : ChunkDescriptor)
    (bundle : Bundle80) :
    letI := emptyWire
    findMyAccessEntry (ownersDownload a cd bundle).rpc
      (fileRootHex (ownersDownload a cd bundle).chainRoot) (ownersDownload a cd bundle).myAddrB58
      (ownersDownload a cd bundle).info
      = .ok ⟨l1AddressBase58 0, some ('0' :: 'x' :: hexEncode bundle.bytes), some 5⟩ := by
  let _ := emptyWire
  have haddr : (ownersDownload a cd bundle).myAddrB58 = l1AddressBase58 0 := rfl
  unfold findMyAccessEntry
  rw [haddr]
  simp [ownersDownload]

omit [ManifestReader] in
theorem ownersDownload_openKey [Bs58] {kFile secret : Hash} (a : PrivateArtifacts)
    (cd : ChunkDescriptor) {bundle : Bundle80} (hsecret : x25519Secret (Hash.fill 1) = some secret)
    (hopen : unwrapForSelf bundle secret 0 = .ok kFile) :
    letI := emptyWire
    (ownersDownload a cd bundle).openKey = .ok kFile := by
  let _ := emptyWire
  have hbundle : PrivateDownload.parseBundleHex ('0' :: 'x' :: hexEncode bundle.bytes)
      = .ok bundle := bundleOfHex_ok_iff.mpr (hexDecode_hexEncode bundle.bytes)
  have hexpiry : PrivateDownload.checkExpiry (ownersDownload a cd bundle).rpc
      ⟨l1AddressBase58 0, some ('0' :: 'x' :: hexEncode bundle.bytes), some 5⟩ = .ok () := rfl
  unfold PrivateDownload.openKey
  rw [ownersDownload_entry]
  dsimp only
  rw [hbundle]
  dsimp only
  rw [hexpiry]
  dsimp only
  rw [show (ownersDownload a cd bundle).seed = Hash.fill 1 from rfl, hsecret]
  dsimp only
  rw [show ownAddress (Hash.fill 1) = 0 from rfl, hopen]

/-- The owner gets the file. -/
theorem ownersDownload_returns [Bs58] {kFile secret : Hash} {plaintext : Bytes}
    {a : PrivateArtifacts} {cd : ChunkDescriptor} {bundle : Bundle80}
    (hread : a.Readable kFile plaintext)
    (hopen : decryptAndVerifyManifest kFile a.encryptedManifestBytes a.manifest.merkleRoot
      = .ok a.manifest)
    (hchunks : a.manifest.chunks = [cd]) (hidx : cd.chunkIndex = 0)
    (hdescribed : Describes kFile plaintext a.ciphertext cd)
    (hone : privateChunkPlaintext plaintext 0 = plaintext)
    (hsecret : x25519Secret (Hash.fill 1) = some secret)
    (hkey : unwrapForSelf bundle secret 0 = .ok kFile) :
    letI := emptyWire
    letI := PeerOrder.keys
    letI := AssignmentScore.flat
    downloadPrivateWithManifest (ownersDownload a cd bundle)
      = some (.ok (a.manifest, plaintext)) := by
  let _ := emptyWire
  let _ := PeerOrder.keys
  let _ := AssignmentScore.flat
  have hmanifest := fetchManifestV2_second
    (show (ownersDownload a cd bundle).info.toStorageFileInfoV2.chunkCount = 1 from rfl) "60s" hopen
  have hlen : (a.chunkBytes cd).length = cd.size := by
    have hinside := hdescribed.inside
    unfold PrivateArtifacts.chunkBytes slice
    rw [List.length_take, List.length_drop]
    omega
  have hfetched := fetchAllCiphertextChunksV2_second
    (ownersDownload a cd bundle).info.toStorageFileInfoV2 hchunks hidx hlen hdescribed.hash.symm
  have hpiece : decryptAndVerifyChunk kFile cd (a.chunkBytes cd) = .ok plaintext := by
    have := hdescribed.read
    rw [hidx, hone] at this
    exact this
  have hwritten : PrivateDownload.write kFile a.manifest [(0, a.chunkBytes cd)]
      = .ok (a.manifest, plaintext) := by
    unfold PrivateDownload.write
    rw [hchunks]
    simp [PrivateDownload.assemble, hidx, hpiece, Except.map, hread.fileHash]
  unfold downloadPrivateWithManifest
  rw [ownersDownload_openKey a cd hsecret hkey]
  dsimp only
  rw [show fetchManifestV2 (ownersDownload a cd bundle).manifestPhase.nodes
    (ownersDownload a cd bundle).manifestPhase.replicationFactor
    (ownersDownload a cd bundle).info.toStorageFileInfoV2 (ownersDownload a cd bundle).chainRoot
    kFile (ownersDownload a cd bundle).timeout ∅ (ownersDownload a cd bundle).maxConcurrent
    (ownersDownload a cd bundle).manifestPhase.swarmRuns
    (ownersDownload a cd bundle).manifestPhase.inputs = some (.ok (a.manifest, servingPeers))
    from hmanifest]
  dsimp only
  rw [show fetchAllCiphertextChunksV2 (ownersDownload a cd bundle).chunkPhase.nodes
    (ownersDownload a cd bundle).chunkPhase.replicationFactor
    (ownersDownload a cd bundle).info.toStorageFileInfoV2 a.manifest servingPeers
    (max (ownersDownload a cd bundle).maxConcurrent 1)
    (ownersDownload a cd bundle).chunkPhase.swarmRuns
    (ownersDownload a cd bundle).chunkPhase.inputs = some (.ok [(0, a.chunkBytes cd)])
    from hfetched]
  dsimp only
  rw [hwritten]

end

/-- The theorem where the owner reads the three bytes, each time from the second archive. -/
theorem owner_reads_three_bytes :
    letI := Blake3.reference
    letI := CryptoLib.reference
    letI := Bs58.bitcoin
    letI := emptyWire
    letI := PeerOrder.keys
    letI := AssignmentScore.flat
    ∃ a cd bundle, buildPrivateArtifacts ['f'] [1, 2, 3] (Hash.fill 7) = .ok a ∧
      a.manifest.chunks = [cd] ∧
      letI := ManifestReader.only a.manifest
      let d := ownersDownload a cd bundle
      downloadPrivateWithManifest d = some (.ok (a.manifest, [1, 2, 3])) ∧
      d.Delivers (Hash.fill 7) a [1, 2, 3] a.manifest [1, 2, 3] := by
  let _ := Blake3.reference
  let _ := CryptoLib.reference
  let _ := Bs58.bitcoin
  let _ := emptyWire
  let _ := PeerOrder.keys
  let _ := AssignmentScore.flat
  have haead := CryptoLib.reference_inverts
  obtain ⟨bundle, hkey⟩ := exists_ownerBundle
  have hreadable := fun reader : ManifestReader =>
    private_file_readable haead ['f'] [1, 2, 3] (Hash.fill 7) (by decide) (by decide)
  obtain ⟨a, hbuild, hlaid, -, -⟩ := hreadable ⟨fun _ => .error []⟩
  let _ := ManifestReader.only a.manifest
  obtain ⟨a', hbuild', -, hread, -⟩ := hreadable (ManifestReader.only a.manifest)
  obtain rfl : a = a' := Except.ok.inj (hbuild.symm.trans hbuild')
  obtain ⟨-, hcount, hindices, hdescribed⟩ := buildPrivateArtifacts_described haead hbuild
  have hrange : a.manifest.chunks.map ChunkDescriptor.chunkIndex = [0] := by
    rw [hindices, hcount]
    rfl
  obtain ⟨cd, hchunks, hidx⟩ := List.map_eq_singleton_iff.mp hrange
  have hopen := hread.manifest (if_pos rfl)
  have hrun := ownersDownload_returns hread hopen hchunks hidx
    (hdescribed cd (hchunks ▸ List.mem_cons_self)) rfl x25519Secret_ownersSecret hkey
  refine ⟨a, cd, bundle, hbuild, hchunks, hrun, ?_⟩
  refine private_download_is_the_file haead hbuild _ rfl ?_ ?_ hrun
  · intro entry hentry
    rw [ownersDownload_entry] at hentry
    obtain rfl := Except.ok.inj hentry
    exact ⟨_, bundle, ownersSecret, rfl, hexDecode_hexEncode bundle.bytes,
      x25519Secret_ownersSecret, hkey⟩
  · intro input _ bytes _ m hm
    rw [decryptAndVerifyManifest_only hm]
    exact hindices

end Snip
