/-
What the check of a pushed manifest accepts.

The manifest of a file that is mapped passes it, for every length that 32 bits of chunks
can count, and every chunk of the file passes the strict proof check with its own proof.
With one chunk more the count would wrap around and the manifest list nothing.

The other way round, a root binds the chunk list only together with its length.  Two
manifests of one root with equally many chunks list the same chunks; a manifest that
lists the nodes of a level further up is accepted under the same root as well.
-/
import Snip.Proofs.Chunker
import Snip.Proofs.Acceptance

namespace Snip

/-! ### The manifest of a file -/

/-- The bytes a descriptor stands for. -/
def ChunkDescriptor.bytesIn (c : ChunkDescriptor) (mapped : Bytes) : Bytes :=
  slice mapped c.offset (c.offset + c.size)

/-- The manifest cuts the file into chunks, is accepted as its own, and its chunks prove. -/
structure ManifestOf [Blake3] [ManifestReader] (mapped : Bytes) (m : DataManifest) : Prop where
  totalSize : m.totalSizeBytes = mapped.length
  count : m.chunkCount = (mapped.length + chunkSize - 1) / chunkSize
  listed : m.chunks.length = m.chunkCount
  /-- One chunk after the other, all full but the last, which is not empty. -/
  placed : ∀ i c, m.chunks[i]? = some c → c.offset = i * chunkSize ∧
    (c.size = chunkSize ∨ i + 1 = m.chunkCount ∧ 0 < c.size ∧ c.size ≤ chunkSize)
  content : (m.chunks.map fun c => c.bytesIn mapped).flatten = mapped
  accepted : validateManifestPush (hexEncode m.merkleRoot.bytes) (manifestToCbor m) = .ok m
  proved : ∀ i c, m.chunks[i]? = some c → ∃ path,
    (MerkleTree.build m.leaves).proofBytes i = some path ∧
    verifyMerkleProofBytesForTree (Blake3.hash (c.bytesIn mapped)) i path m.merkleRoot
      m.chunkCount = true

section

variable [Blake3]

theorem chunkDescriptor_bytesIn (mapped : Bytes) (i : Nat) :
    (chunkDescriptor mapped i).bytesIn mapped = chunkData mapped i := by
  unfold ChunkDescriptor.bytesIn chunkDescriptor chunkData slice
  dsimp only
  rcases Nat.le_total (i * chunkSize) (min (i * chunkSize + chunkSize) mapped.length) with h | h
  · rw [Nat.add_sub_cancel' h]
  · rw [Nat.sub_eq_zero_of_le h, Nat.add_zero, Nat.sub_self]

theorem chunkDescriptors_getElem? {mapped : Bytes} {i : Nat} {c : ChunkDescriptor}
    (h : (chunkDescriptors mapped)[i]? = some c) :
    i < chunkCountOf mapped.length ∧ c = chunkDescriptor mapped i := by
  unfold chunkDescriptors at h
  rw [List.getElem?_map] at h
  obtain ⟨j, hj, rfl⟩ := Option.map_eq_some_iff.mp h
  obtain ⟨hlt, hget⟩ := List.getElem?_eq_some_iff.mp hj
  rw [List.getElem_range] at hget
  rw [List.length_range] at hlt
  exact ⟨hlt, by rw [hget]⟩

theorem chunkDescriptors_flatten (mapped : Bytes) :
    ((chunkDescriptors mapped).map fun c => c.bytesIn mapped) = chunksOfFile mapped := by
  unfold chunkDescriptors chunksOfFile
  rw [List.map_map]
  refine List.map_congr_left ?_
  intro i _
  rw [Function.comp_apply, chunkDescriptor_bytesIn]

/-- An index of a leaf has a proof. -/
theorem proofBytes_isSome {l : List Hash} {i : Nat} (hi : i < l.length) :
    ∃ path, (MerkleTree.build l).proofBytes i = some path := by
  obtain ⟨path, hpath, -⟩ := HashTree.path_isSome hashPair (Nat.clog 2 l.length) l i hi
  refine ⟨path, ?_⟩
  show (MerkleTree.build l).generateProof i = some path
  rw [generateProof_build (List.ne_nil_of_length_pos (by omega))]
  exact hpath

variable [ManifestReader]

/-- The manifest of an empty file lists nothing. -/
theorem manifestOf_nil {fileName : Str}
    (hcbor : ManifestReader.fromCbor (manifestToCbor (chunkMapped fileName []))
      = .ok (chunkMapped fileName [])) :
    ManifestOf [] (chunkMapped fileName []) := by
  refine ⟨rfl, ?_, rfl, ?_, rfl, ?_, ?_⟩
  · show 0 = (0 + chunkSize - 1) / chunkSize
    rw [Nat.div_eq_of_lt (by decide)]
  · intro i c hc
    cases hc
  · refine validateManifestPush_ok_iff.mpr ⟨hcbor, rfl, rfl, ?_, ?_, rfl⟩
    · intro i c hc
      cases hc
    · intro c hc
      cases hc
  · intro i c hc
    cases hc

/-- The manifest of a file whose chunks can be counted. -/
theorem manifestOf_chunkMapped {fileName : Str} {mapped : Bytes} (hcount : Countable32 mapped.length)
    (hcbor : ManifestReader.fromCbor (manifestToCbor (chunkMapped fileName mapped))
      = .ok (chunkMapped fileName mapped)) :
    ManifestOf mapped (chunkMapped fileName mapped) := by
  by_cases hne : mapped = []
  · subst hne
    exact manifestOf_nil hcbor
  have hchunks : (chunkMapped fileName mapped).chunks = chunkDescriptors mapped := by
    rw [chunkMapped_of_ne_nil hne]
  have hchunkCount : (chunkMapped fileName mapped).chunkCount = chunkCountOf mapped.length :=
    chunkMapped_chunkCount hne
  have hlength : (chunkMapped fileName mapped).chunks.length
      = (chunkMapped fileName mapped).chunkCount := (chunkMapped_valid hne).count
  have hsmall : chunkCountOf mapped.length < 2 ^ 32 := Nat.mod_lt _ (by norm_num)
  refine ⟨?_, ?_, hlength, ?_, ?_, ?_, ?_⟩
  · rw [chunkMapped_of_ne_nil hne]
  · rw [hchunkCount, chunkCountOf_eq hcount]
  · intro i c hc
    rw [hchunks] at hc
    obtain ⟨hlt, rfl⟩ := chunkDescriptors_getElem? hc
    refine ⟨rfl, ?_⟩
    have hceil := chunkCountOf_eq hcount
    rw [hchunkCount]
    unfold chunkDescriptor
    dsimp only
    unfold chunkSize at hceil ⊢
    omega
  · rw [hchunks, chunkDescriptors_flatten]
    exact chunksOfFile_flatten hcount
  · exact validateManifestPush_ok_iff.mpr ⟨hcbor, chunkMapped_valid hne⟩
  · intro i c hc
    have hleaf : (chunkMapped fileName mapped).leaves[i]? = some c.blake3Hash := by
      rw [leaves_getElem?, hc]
      rfl
    rw [hchunks] at hc
    obtain ⟨hlt, rfl⟩ := chunkDescriptors_getElem? hc
    obtain ⟨path, hpath⟩ := proofBytes_isSome (List.getElem?_eq_some_iff.mp hleaf).1
    refine ⟨path, hpath, ?_⟩
    have hleaves : (chunkMapped fileName mapped).leaves.length
        = (chunkMapped fileName mapped).chunkCount := by
      rw [leaves_length, hlength]
    have hproof := verify_own_proof (by rw [hleaves, hchunkCount]; exact hsmall) hleaf hpath
    rw [hleaves, (chunkMapped_valid hne).tree] at hproof
    rw [chunkDescriptor_bytesIn]
    exact hproof

/-- One chunk more than 32 bits count, and the manifest says there are none. -/
theorem not_manifestOf_wrapped {fileName : Str} {mapped : Bytes}
    (hlow : 2 ^ 52 - 2 ^ 20 < mapped.length) (hhigh : mapped.length < 2 ^ 52) :
    ¬ ManifestOf mapped (chunkMapped fileName mapped) := by
  intro h
  have hne : mapped ≠ [] := List.ne_nil_of_length_pos (by omega)
  have hcount := h.count
  rw [chunkMapped_chunkCount hne] at hcount
  unfold chunkCountOf chunkSize at hcount
  omega

end

/-- What `chunk_file` gives, if anything, is the file and a right manifest of it. -/
def ChunksInto [Blake3] [ManifestReader] (failure : Option StoreError) (fileName : Str)
    (content : Bytes) : Prop :=
  ∃ m, chunkFile failure fileName content = .ok (content, m) ∧ ManifestOf content m

/--
**A file gets a right manifest exactly if the system maps it and its chunks can be
counted;** of the files below 2^52 bytes the count leaves out the last 2^20 - 1 lengths.  A
file that is not mapped gives that error.
-/
theorem chunkFile_right_iff [Blake3] [ManifestReader] (failure : Option StoreError) (fileName : Str)
    {content : Bytes} (hlen : content.length < 2 ^ 52)
    (hcbor : ManifestReader.fromCbor (manifestToCbor (chunkMapped fileName content))
      = .ok (chunkMapped fileName content)) :
    (ChunksInto failure fileName content ↔ failure = none ∧ content.length ≤ 2 ^ 52 - 2 ^ 20) ∧
      ∀ e, failure = some e → chunkFile failure fileName content = .error e := by
  cases failure with
  | some e =>
      refine ⟨iff_of_false ?_ (fun h => nomatch h.1), fun e' he => ?_⟩
      · rintro ⟨m, hm, -⟩
        cases hm
      · cases he
        rfl
  | none =>
      refine ⟨⟨?_, ?_⟩, fun e he => nomatch he⟩
      · rintro ⟨m, hm, hright⟩
        cases hm
        refine ⟨rfl, ?_⟩
        by_contra hover
        exact not_manifestOf_wrapped (Nat.lt_of_not_le hover) hlen hright
      · rintro ⟨-, hle⟩
        refine ⟨chunkMapped fileName content, rfl, manifestOf_chunkMapped ?_ hcbor⟩
        unfold Countable32 chunkSize
        omega

/-- A file of three bytes. -/
theorem three_byte_manifest_right :
    letI := Blake3.reference
    letI := ManifestReader.only (chunkMapped ['f'] [1, 2, 3])
    ChunksInto none ['f'] [1, 2, 3] := by
  let _ := Blake3.reference
  let _ := ManifestReader.only (chunkMapped ['f'] [1, 2, 3])
  have hcbor : ManifestReader.fromCbor (manifestToCbor (chunkMapped ['f'] [1, 2, 3]))
      = .ok (chunkMapped ['f'] [1, 2, 3]) := if_pos rfl
  obtain ⟨hright, -⟩ := chunkFile_right_iff none ['f'] (by norm_num) hcbor
  exact hright.mpr ⟨rfl, by norm_num⟩

/-- A file of 2^48 zero bytes that the system does not map gets no manifest; one of 2^52 - 1,
were it mapped, would get a manifest without chunks. -/
theorem unmapped_file_has_no_manifest :
    letI := Blake3.reference
    (letI : ManifestReader := ManifestReader.only (chunkMapped ['f'] (List.replicate (2 ^ 48) 0));
      (List.replicate (2 ^ 48) (0 : UInt8)).length < 2 ^ 52 ∧
      ¬ ChunksInto (some .io) ['f'] (List.replicate (2 ^ 48) 0)) ∧
    (letI : ManifestReader :=
        ManifestReader.only (chunkMapped ['f'] (List.replicate (2 ^ 52 - 1) 0));
      (List.replicate (2 ^ 52 - 1) (0 : UInt8)).length < 2 ^ 52 ∧
      ¬ ChunksInto none ['f'] (List.replicate (2 ^ 52 - 1) 0)) := by
  generalize Blake3.reference = b
  have hreplicate : ∀ n, (List.replicate n (0 : UInt8)).length = n := fun n => List.length_replicate
  have hlen := hreplicate (2 ^ 48)
  have hlen' := hreplicate (2 ^ 52 - 1)
  generalize List.replicate (2 ^ 48) (0 : UInt8) = unmapped at hlen ⊢
  generalize List.replicate (2 ^ 52 - 1) (0 : UInt8) = wrapped at hlen' ⊢
  refine ⟨⟨by omega, ?_⟩, by omega, ?_⟩
  · rintro ⟨m, hm, -⟩
    cases hm
  · rintro ⟨m, hm, hright⟩
    cases hm
    let _ := ManifestReader.only (chunkMapped ['f'] wrapped)
    exact not_manifestOf_wrapped (by omega) (by omega) hright

/-! ### Two manifests of one root -/

section

variable [Blake3] [ManifestReader]

theorem validateManifestPush_ok {rootHex : Str} {data : Bytes} {m : DataManifest}
    (h : validateManifestPush rootHex data = .ok m) :
    ∃ root, hexTo32 rootHex = some root ∧ ValidManifest root m := by
  unfold validateManifestPush at h
  split at h
  · cases h
  · rename_i root hroot
    split at h
    · cases h
    · obtain ⟨rfl, hv⟩ := checkManifest_ok_iff.mp h
      exact ⟨root, hroot, hv⟩

omit [ManifestReader] in
/-- The identifiers are those of the leaves. -/
theorem ValidManifest.cids {root : Hash} {m : DataManifest} (h : ValidManifest root m) :
    m.chunks.map ChunkDescriptor.cid = m.leaves.map cidFromBlake3Hash := by
  unfold DataManifest.leaves
  rw [List.map_map]
  exact List.map_congr_left h.cid

/--
**A root binds the chunks of the manifests that have equally many.**  Two accepted
manifests of one root list the same identifiers exactly if they have the same chunk
count, but for a collision among the strings their trees are hashed from.
-/
theorem accepted_manifests_agree_iff {rootHex : Str} {data data' : Bytes} {m m' : DataManifest}
    (h : validateManifestPush rootHex data = .ok m)
    (h' : validateManifestPush rootHex data' = .ok m') :
    m.chunks.map ChunkDescriptor.cid = m'.chunks.map ChunkDescriptor.cid ∨
        Collision (treePreimages m.leaves ++ treePreimages m'.leaves) ↔
      m.chunkCount = m'.chunkCount ∨
        Collision (treePreimages m.leaves ++ treePreimages m'.leaves) := by
  obtain ⟨root, hroot, hv⟩ := validateManifestPush_ok h
  obtain ⟨root', hroot', hv'⟩ := validateManifestPush_ok h'
  obtain rfl : root = root' := by
    rw [hroot] at hroot'
    exact Option.some.inj hroot'
  constructor
  · rintro (hcids | hcollision)
    · refine Or.inl ?_
      rw [← hv.count, ← hv'.count]
      simpa using congrArg List.length hcids
    · exact Or.inr hcollision
  · rintro (hcount | hcollision)
    · have hlength : m.leaves.length = m'.leaves.length := by
        rw [leaves_length, leaves_length, hv.count, hv'.count, hcount]
      rcases build_root_inj hlength (hv.tree.trans hv'.tree.symm) with hleaves | hcollision
      · refine Or.inl ?_
        rw [hv.cids, hv'.cids, hleaves]
      · exact Or.inr hcollision
    · exact Or.inr hcollision

end

/-- The decoder that knows the bytes of two manifests. -/
@[reducible] def ManifestReader.either (m m' : DataManifest) : ManifestReader :=
  ⟨fun bytes =>
    if bytes = manifestToCbor m then .ok m
    else if bytes = manifestToCbor m' then .ok m' else .error []⟩

section

variable [Blake3]

/-- A file of two chunks, by its leaves. -/
def twoLeaves : List Hash := [Hash.fill 1, Hash.fill 2]

/-- The manifest of the file, and the one whose only chunk is the root. -/
def leavesManifest : DataManifest := manifestOver (hashPair (Hash.fill 1) (Hash.fill 2)) twoLeaves

def nodeManifest : DataManifest :=
  manifestOver (hashPair (Hash.fill 1) (Hash.fill 2)) [hashPair (Hash.fill 1) (Hash.fill 2)]

/-- The sizes they declare differ. -/
theorem nodeManifest_bytes_ne : manifestToCbor nodeManifest ≠ manifestToCbor leavesManifest := by
  intro h
  have hnode : nodeManifest.totalSizeBytes = 64 := rfl
  have hleaves : leavesManifest.totalSizeBytes = 128 := rfl
  have hname : nodeManifest.fileName = leavesManifest.fileName := rfl
  have hhash : nodeManifest.fileHash = leavesManifest.fileHash := rfl
  have h64 : cborUnsigned 64 = [24, 64] := by decide
  have h128 : cborUnsigned 128 = [24, 128] := by decide
  unfold manifestToCbor at h
  simp only [List.append_assoc, cborField, hnode, hleaves, hname, hhash, h64, h128] at h
  -- nothing differs before the sizes
  simp only [List.append_cancel_left_eq] at h
  simp at h

theorem twoManifests_accepted :
    letI := ManifestReader.either leavesManifest nodeManifest
    validateManifestPush (hexEncode leavesManifest.merkleRoot.bytes)
      (manifestToCbor leavesManifest) = .ok leavesManifest ∧
    validateManifestPush (hexEncode leavesManifest.merkleRoot.bytes)
      (manifestToCbor nodeManifest) = .ok nodeManifest := by
  let _ := ManifestReader.either leavesManifest nodeManifest
  refine ⟨validateManifestPush_ok_iff.mpr ⟨if_pos rfl, manifestOver_valid rfl⟩,
    validateManifestPush_ok_iff.mpr ⟨?_, manifestOver_valid rfl⟩⟩
  exact (if_neg nodeManifest_bytes_ne).trans (if_pos rfl)

/-- The manifest of the file under another name. -/
def renamedManifest : DataManifest := { leavesManifest with fileName := ['a'] }

theorem renamedManifest_bytes_ne :
    manifestToCbor renamedManifest ≠ manifestToCbor leavesManifest := by
  intro h
  have hname : renamedManifest.fileName = ['a'] := rfl
  have hnone : leavesManifest.fileName = [] := rfl
  have ha : cborText ['a'] = [97, 97] := by decide
  have hempty : cborText [] = [96] := by decide
  unfold manifestToCbor at h
  simp only [List.append_assoc, cborField, hname, hnone, ha, hempty,
    List.append_cancel_left_eq] at h
  simp at h

theorem renamed_accepted :
    letI := ManifestReader.either leavesManifest renamedManifest
    validateManifestPush (hexEncode leavesManifest.merkleRoot.bytes)
      (manifestToCbor leavesManifest) = .ok leavesManifest ∧
    validateManifestPush (hexEncode leavesManifest.merkleRoot.bytes)
      (manifestToCbor renamedManifest) = .ok renamedManifest := by
  let _ := ManifestReader.either leavesManifest renamedManifest
  have hvalid : ValidManifest leavesManifest.merkleRoot leavesManifest := manifestOver_valid rfl
  refine ⟨validateManifestPush_ok_iff.mpr ⟨if_pos rfl, hvalid⟩,
    validateManifestPush_ok_iff.mpr ⟨?_, ?_⟩⟩
  · exact (if_neg renamedManifest_bytes_ne).trans (if_pos rfl)
  · exact ⟨hvalid.merkleRoot, hvalid.count, hvalid.index, hvalid.cid, hvalid.tree⟩

/-- All that is hashed is one string. -/
theorem twoManifests_no_collision :
    ¬ Collision (treePreimages leavesManifest.leaves ++ treePreimages nodeManifest.leaves) := by
  have hone : treePreimages leavesManifest.leaves ++ treePreimages nodeManifest.leaves
      = [pairBytes (Hash.fill 1, Hash.fill 2)] := by
    rw [leavesManifest, nodeManifest, manifestOver_leaves, manifestOver_leaves]
    rfl
  rw [hone]
  rintro ⟨x, hx, y, hy, hne, -⟩
  exact hne ((List.mem_singleton.mp hx).trans (List.mem_singleton.mp hy).symm)

end

/-- A manifest and the same under another name. -/
theorem same_manifest_agrees :
    letI := Blake3.reference
    letI := ManifestReader.either leavesManifest renamedManifest
    leavesManifest ≠ renamedManifest ∧
    (leavesManifest.chunks.map ChunkDescriptor.cid
        = renamedManifest.chunks.map ChunkDescriptor.cid ∨
      Collision (treePreimages leavesManifest.leaves ++ treePreimages renamedManifest.leaves)) := by
  let _ := Blake3.reference
  let _ := ManifestReader.either leavesManifest renamedManifest
  refine ⟨fun h => renamedManifest_bytes_ne (congrArg manifestToCbor h.symm), ?_⟩
  exact (accepted_manifests_agree_iff renamed_accepted.1 renamed_accepted.2).mpr (Or.inl rfl)

/-- The root is accepted as the only chunk of a file of two chunks. -/
theorem node_manifest_accepted :
    letI := Blake3.reference
    letI := ManifestReader.either leavesManifest nodeManifest
    validateManifestPush (hexEncode leavesManifest.merkleRoot.bytes)
      (manifestToCbor leavesManifest) = .ok leavesManifest ∧
    validateManifestPush (hexEncode leavesManifest.merkleRoot.bytes)
      (manifestToCbor nodeManifest) = .ok nodeManifest ∧
    ¬ (leavesManifest.chunks.map ChunkDescriptor.cid = nodeManifest.chunks.map ChunkDescriptor.cid ∨
      Collision (treePreimages leavesManifest.leaves ++ treePreimages nodeManifest.leaves)) := by
  generalize Blake3.reference = b
  refine ⟨twoManifests_accepted.1, twoManifests_accepted.2, ?_⟩
  rintro (hcids | hcollision)
  · have hlength := congrArg List.length hcids
    simp [leavesManifest, nodeManifest, manifestOver, twoLeaves] at hlength
  · exact twoManifests_no_collision hcollision

end Snip
