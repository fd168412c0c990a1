/-
What a manifest that passed the push check is.

`ValidManifest` is the check read as a property of the decoded value.  It says
that the chunk list is in order, that every content identifier belongs to its
hash and that the leaves build the root, and it does *not* say how many leaves
there are: the count is compared with the length of the manifest's own list only.
-/
import Snip.Store.Manifest
import Snip.Proofs.ContentId
import Snip.Proofs.Merkle

namespace Snip

variable [Blake3]

/-- A manifest as `validate_manifest_push` leaves it. -/
structure ValidManifest (root : Hash) (m : DataManifest) : Prop where
  merkleRoot : m.merkleRoot = root
  count : m.chunks.length = m.chunkCount
  index : ∀ (i : Nat) (c : ChunkDescriptor), m.chunks[i]? = some c → c.chunkIndex = i
  cid : ∀ c ∈ m.chunks, c.cid = cidFromBlake3Hash c.blake3Hash
  tree : (MerkleTree.build m.leaves).root = root

omit [Blake3] in
theorem checkChunks_ok_iff : ∀ (chunks : List ChunkDescriptor) (i : Nat) (hashes : List Hash),
    checkChunks i chunks = .ok hashes ↔
      (∀ (j : Nat) (c : ChunkDescriptor), chunks[j]? = some c → c.chunkIndex = i + j) ∧
      (∀ c ∈ chunks, c.cid = cidFromBlake3Hash c.blake3Hash) ∧
      hashes = chunks.map ChunkDescriptor.blake3Hash := by
  intro chunks
  induction chunks with
  | nil =>
      intro i hashes
      simp [checkChunks, eq_comm]
  | cons chunk rest ih =>
      intro i hashes
      unfold checkChunks
      by_cases hidx : chunk.chunkIndex = i
      · rw [if_neg (by simpa using hidx)]
        by_cases hcid : chunk.cid = cidFromBlake3Hash chunk.blake3Hash
        · rw [if_neg (by simpa using hcid)]
          constructor
          · intro h
            cases hrest : checkChunks (i + 1) rest with
            | error e => rw [hrest] at h; cases h
            | ok hs =>
                rw [hrest] at h
                obtain ⟨h1, h2, h3⟩ := (ih (i + 1) hs).mp hrest
                have hh : chunk.blake3Hash :: hs = hashes := Except.ok.inj h
                refine ⟨fun j c hj => ?_, ?_, by rw [← hh, h3]; rfl⟩
                · rcases j with _ | j
                  · obtain rfl : chunk = c := by simpa using hj
                    exact hidx
                  · have := h1 j c (by simpa using hj)
                    omega
                · simpa [hcid] using h2
          · rintro ⟨h1, h2, rfl⟩
            have hrest := (ih (i + 1) (rest.map ChunkDescriptor.blake3Hash)).mpr
              ⟨fun j c hj => by have := h1 (j + 1) c (by simpa using hj); omega,
                fun c hc => h2 c (by simp [hc]), rfl⟩
            rw [hrest]
            rfl
        · rw [if_pos (by simpa using hcid)]
          refine iff_of_false (by simp) fun h => hcid (h.2.1 chunk (by simp))
      · rw [if_pos (by simpa using hidx)]
        refine iff_of_false (by simp) fun h => hidx ?_
        simpa using h.1 0 chunk rfl

theorem checkManifest_ok_iff {rootHex : Str} {root : Hash} {m m' : DataManifest} :
    checkManifest rootHex root m = .ok m' ↔ m = m' ∧ ValidManifest root m := by
  unfold checkManifest
  by_cases hroot : m.merkleRoot = root
  · rw [if_neg (by simpa using hroot)]
    by_cases hcount : m.chunks.length = m.chunkCount
    · rw [if_neg (by simpa using hcount)]
      cases hchunks : checkChunks 0 m.chunks with
      | error e =>
          refine iff_of_false (by simp) fun ⟨_, hv⟩ => ?_
          have hok := (checkChunks_ok_iff m.chunks 0 m.leaves).mpr
            ⟨fun j c hj => by simpa using hv.index j c hj, hv.cid, rfl⟩
          rw [hchunks] at hok
          cases hok
      | ok hashes =>
          obtain ⟨h1, h2, rfl⟩ := (checkChunks_ok_iff _ _ _).mp hchunks
          by_cases htree : (MerkleTree.build m.leaves).root = m.merkleRoot
          · have htree' : (MerkleTree.build (m.chunks.map ChunkDescriptor.blake3Hash)).root
                = m.merkleRoot := htree
            simp only [htree', ne_eq, not_true_eq_false, if_false, Except.ok.injEq]
            refine ⟨fun h => ⟨h, hroot, hcount, fun i c hi => ?_, h2, htree.trans hroot⟩,
              fun h => h.1⟩
            simpa using h1 i c hi
          · have htree' : (MerkleTree.build (m.chunks.map ChunkDescriptor.blake3Hash)).root
                ≠ m.merkleRoot := htree
            simp only [htree', ne_eq, not_false_eq_true, if_true]
            exact iff_of_false (by simp) fun ⟨_, hv⟩ => htree (hv.tree.trans hv.merkleRoot.symm)
    · rw [if_pos (by simpa using hcount)]
      exact iff_of_false (by simp) fun ⟨_, hv⟩ => hcount hv.count
  · rw [if_pos (by simpa using hroot)]
    exact iff_of_false (by simp) fun ⟨_, hv⟩ => hroot hv.merkleRoot

/-- **The push check accepts exactly the bytes that decode to a valid manifest of the root.** -/
theorem validateManifestPush_ok_iff [ManifestReader] {root : Hash} {data : Bytes}
    {m : DataManifest} :
    validateManifestPush (hexEncode root.bytes) data = .ok m ↔
      ManifestReader.fromCbor data = .ok m ∧ ValidManifest root m := by
  unfold validateManifestPush
  rw [hexTo32_hexEncode]
  cases hdec : ManifestReader.fromCbor data with
  | error e => exact iff_of_false (by simp) (by simp)
  | ok m' =>
      simp only [Except.ok.injEq]
      rw [checkManifest_ok_iff]
      constructor
      · rintro ⟨rfl, hv⟩
        exact ⟨rfl, hv⟩
      · rintro ⟨rfl, hv⟩
        exact ⟨rfl, hv⟩

omit [Blake3] in
@[simp] theorem leaves_length (m : DataManifest) : m.leaves.length = m.chunks.length := by
  simp [DataManifest.leaves]

omit [Blake3] in
theorem leaves_getElem? (m : DataManifest) (i : Nat) :
    m.leaves[i]? = (m.chunks[i]?).map ChunkDescriptor.blake3Hash := by
  simp [DataManifest.leaves]

/-- A valid manifest with the file's chunk count has the file's leaves. -/
theorem ValidManifest.leaves_eq {m : DataManifest} {L : List Hash}
    (hv : ValidManifest (MerkleTree.build L).root m) (hcount : m.chunkCount = L.length) :
    m.leaves = L ∨ Collision (treePreimages m.leaves ++ treePreimages L) :=
  build_root_inj (by rw [leaves_length, hv.count, hcount]) hv.tree

theorem ValidManifest.nodup {root : Hash} {m : DataManifest} (hm : ValidManifest root m) :
    (m.chunks.map ChunkDescriptor.chunkIndex).Nodup := by
  have hrange : m.chunks.map ChunkDescriptor.chunkIndex = List.range m.chunks.length := by
    apply List.ext_getElem?
    intro i
    rw [List.getElem?_map]
    cases hc : m.chunks[i]? with
    | none =>
        rw [List.getElem?_eq_none (by simpa using List.getElem?_eq_none_iff.mp hc)]
        rfl
    | some c =>
        obtain ⟨hlt, -⟩ := List.getElem?_eq_some_iff.mp hc
        rw [List.getElem?_range hlt, Option.map_some, hm.index i c hc]
  rw [hrange]
  exact List.nodup_range

/-! ### Manifests over any list of nodes -/

/-- A descriptor of a node at a position. -/
def nodeDescriptor (i : Nat) (h : Hash) : ChunkDescriptor :=
  ⟨i, 64 * i, 64, h, cidFromBlake3Hash h, none⟩

/-- A manifest that lists the given nodes as the chunks of `root`. -/
def manifestOver (root : Hash) (nodes : List Hash) : DataManifest :=
  ⟨[], Hash.zero, 64 * nodes.length, nodes.length, root, nodes.mapIdx nodeDescriptor⟩

omit [Blake3] in
theorem manifestOver_leaves (root : Hash) (nodes : List Hash) :
    (manifestOver root nodes).leaves = nodes := by
  apply List.ext_getElem?
  intro i
  simp only [DataManifest.leaves, manifestOver, List.getElem?_map, List.getElem?_mapIdx]
  cases nodes[i]? with
  | none => rfl
  | some h => rfl

/-- **Any list of nodes that hashes up to the root gives a valid manifest of it.** -/
theorem manifestOver_valid {root : Hash} {nodes : List Hash}
    (h : (MerkleTree.build nodes).root = root) : ValidManifest root (manifestOver root nodes) := by
  refine ⟨rfl, by simp [manifestOver], fun i c hi => ?_, fun c hc => ?_, ?_⟩
  · simp only [manifestOver, List.getElem?_mapIdx, Option.map_eq_some_iff] at hi
    obtain ⟨h, -, rfl⟩ := hi
    rfl
  · obtain ⟨i, hi⟩ := List.getElem?_of_mem hc
    simp only [manifestOver, List.getElem?_mapIdx, Option.map_eq_some_iff] at hi
    obtain ⟨h, -, rfl⟩ := hi
    rfl
  · rw [manifestOver_leaves]
    exact h

/-- The digest of 64 zero bytes. -/
def blockHash : Hash := Blake3.hash (List.replicate 64 0)

/-- The manifest over equal blocks. -/
def equalBlocks (n : Nat) : DataManifest :=
  manifestOver (MerkleTree.build (List.replicate n blockHash)).root (List.replicate n blockHash)

theorem equalBlocks_valid (n : Nat) :
    ValidManifest (equalBlocks n).merkleRoot (equalBlocks n) := manifestOver_valid rfl

end Snip
