/-
The chunks of a file are the file: as long as their number is a 32-bit number they
make it up again, one after the other.
-/
import Snip.Store.Chunker
import Snip.Proofs.Manifest

namespace Snip

/-! ### Slices -/

theorem flatten_slices (l : Bytes) (k n : Nat) :
    ((List.range n).map fun i => (l.drop (i * k)).take k).flatten = l.take (n * k) := by
  induction n with
  | zero => simp
  | succ n ih =>
      rw [List.range_succ, List.map_append, List.flatten_append, ih, Nat.succ_mul, List.take_add]
      simp

/-- A piece cut off at the end of the list. -/
theorem slice_piece (l : Bytes) (k i : Nat) :
    slice l (i * k) (min (i * k + k) l.length) = (l.drop (i * k)).take k := by
  unfold slice
  have hlen : (l.drop (i * k)).length = l.length - i * k := List.length_drop
  rcases Nat.le_total (i * k + k) l.length with hle | hle
  · rw [Nat.min_eq_left hle, Nat.add_sub_cancel_left]
  · rw [Nat.min_eq_right hle, List.take_of_length_le (by omega), List.take_of_length_le (by omega)]

theorem chunkData_eq (mapped : Bytes) (i : Nat) :
    chunkData mapped i = (mapped.drop (i * chunkSize)).take chunkSize :=
  slice_piece mapped chunkSize i

/-- The chunks as the manifest lists them. -/
def chunksOfFile (mapped : Bytes) : List Bytes :=
  (List.range (chunkCountOf mapped.length)).map (chunkData mapped)

/-- The chunks of a file of this length can be counted in 32 bits. -/
def Countable32 (fileLen : Nat) : Prop := fileLen ≤ chunkSize * (2 ^ 32 - 1)

theorem chunkCountOf_eq {n : Nat} (h : Countable32 n) :
    chunkCountOf n = (n + chunkSize - 1) / chunkSize := by
  unfold Countable32 chunkSize at h
  unfold chunkCountOf chunkSize
  omega

theorem chunkCountOf_pos {n : Nat} (hpos : 0 < n) (h : Countable32 n) : 0 < chunkCountOf n := by
  rw [chunkCountOf_eq h]
  unfold chunkSize
  omega

theorem le_chunkCountOf_mul {n : Nat} (h : Countable32 n) : n ≤ chunkCountOf n * chunkSize := by
  rw [chunkCountOf_eq h]
  unfold chunkSize
  omega

/-- **The chunks make up the file.** -/
theorem chunksOfFile_flatten {mapped : Bytes} (h : Countable32 mapped.length) :
    (chunksOfFile mapped).flatten = mapped := by
  have hchunks : chunksOfFile mapped = (List.range (chunkCountOf mapped.length)).map
      fun i => (mapped.drop (i * chunkSize)).take chunkSize :=
    List.map_congr_left fun i _ => chunkData_eq mapped i
  rw [hchunks, flatten_slices]
  exact List.take_of_length_le (le_chunkCountOf_mul h)

/-! ### The manifest -/

section

variable [Blake3]

/-- The descriptors of all chunks. -/
def chunkDescriptors (mapped : Bytes) : List ChunkDescriptor :=
  (List.range (chunkCountOf mapped.length)).map (chunkDescriptor mapped)

theorem chunkMapped_of_ne_nil {fileName : Str} {mapped : Bytes} (h : mapped ≠ []) :
    chunkMapped fileName mapped
      = ⟨fileName, Blake3.hash mapped, mapped.length, chunkCountOf mapped.length,
          (MerkleTree.build ((chunkDescriptors mapped).map ChunkDescriptor.blake3Hash)).root,
          chunkDescriptors mapped⟩ :=
  if_neg fun hnil => h (List.length_eq_zero_iff.mp hnil)

theorem chunkDescriptors_hashes (mapped : Bytes) :
    (chunkDescriptors mapped).map ChunkDescriptor.blake3Hash
      = (chunksOfFile mapped).map Blake3.hash := by
  have hhash : ∀ i, (chunkDescriptor mapped i).blake3Hash = Blake3.hash (chunkData mapped i) := by
    intro i
    unfold chunkDescriptor
    rfl
  simp [chunkDescriptors, chunksOfFile, hhash]

theorem chunkMapped_chunkCount {fileName : Str} {mapped : Bytes} (h : mapped ≠ []) :
    (chunkMapped fileName mapped).chunkCount = chunkCountOf mapped.length := by
  rw [chunkMapped_of_ne_nil h]

theorem chunkMapped_leaves {fileName : Str} {mapped : Bytes} (h : mapped ≠ []) :
    (chunkMapped fileName mapped).leaves = (chunksOfFile mapped).map Blake3.hash := by
  rw [chunkMapped_of_ne_nil h]
  exact chunkDescriptors_hashes mapped

theorem chunkMapped_merkleRoot {fileName : Str} {mapped : Bytes} (h : mapped ≠ []) :
    (chunkMapped fileName mapped).merkleRoot
      = (MerkleTree.build ((chunksOfFile mapped).map Blake3.hash)).root := by
  rw [chunkMapped_of_ne_nil h, ← chunkDescriptors_hashes]

/-- **The manifest of a file passes the push check.** -/
theorem chunkMapped_valid {fileName : Str} {mapped : Bytes} (h : mapped ≠ []) :
    ValidManifest (chunkMapped fileName mapped).merkleRoot (chunkMapped fileName mapped) := by
  rw [chunkMapped_of_ne_nil h]
  refine ⟨rfl, ?_, fun i c hi => ?_, fun c hc => ?_, rfl⟩
  · simp [chunkDescriptors]
  · obtain ⟨j, hj, rfl⟩ : ∃ j, (List.range (chunkCountOf mapped.length))[i]? = some j ∧
        chunkDescriptor mapped j = c := by
      simpa [chunkDescriptors, List.getElem?_map] using hi
    obtain ⟨hlt, hget⟩ := List.getElem?_eq_some_iff.mp hj
    rw [List.getElem_range] at hget
    subst hget
    unfold chunkDescriptor
    rfl
  · obtain ⟨j, -, rfl⟩ := List.mem_map.mp hc
    unfold chunkDescriptor
    rfl

omit [Blake3] in
theorem chunkCountOf_small {n : Nat} (hpos : 0 < n) (hle : n ≤ chunkSize) : chunkCountOf n = 1 := by
  unfold chunkSize at hle
  unfold chunkCountOf chunkSize
  omega

omit [Blake3] in
/-- A file that fits in one chunk is its chunk. -/
theorem chunksOfFile_small {mapped : Bytes} (h : mapped ≠ []) (hlen : mapped.length ≤ chunkSize) :
    chunksOfFile mapped = [mapped] := by
  have hdata : chunkData mapped 0 = mapped := by
    rw [chunkData_eq, Nat.zero_mul, List.drop_zero, List.take_of_length_le hlen]
  unfold chunksOfFile
  rw [chunkCountOf_small (List.length_pos_iff.mpr h) hlen, List.range_one, List.map_singleton,
    hdata]

/-- The manifest of a file that fits in one chunk. -/
theorem chunkMapped_small (fileName : Str) {mapped : Bytes} (h : mapped ≠ [])
    (hlen : mapped.length ≤ chunkSize) :
    (chunkMapped fileName mapped).merkleRoot = Blake3.hash mapped ∧
      (chunkMapped fileName mapped).chunkCount = 1 ∧
      (chunkMapped fileName mapped).chunks.map ChunkDescriptor.cid = [cidFromData mapped] := by
  refine ⟨?_, ?_, ?_⟩
  · rw [chunkMapped_merkleRoot h, chunksOfFile_small h hlen]
    rfl
  · rw [chunkMapped_chunkCount h, chunkCountOf_small (List.length_pos_iff.mpr h) hlen]
  · have hcid : ∀ c ∈ (chunkMapped fileName mapped).chunks,
        c.cid = cidFromBlake3Hash c.blake3Hash := (chunkMapped_valid h).cid
    have hleaves : (chunkMapped fileName mapped).chunks.map ChunkDescriptor.blake3Hash
        = [Blake3.hash mapped] := by
      have hall : (chunkMapped fileName mapped).leaves = _ := chunkMapped_leaves h
      rwa [chunksOfFile_small h hlen] at hall
    have hmap : (chunkMapped fileName mapped).chunks.map ChunkDescriptor.cid
        = ((chunkMapped fileName mapped).chunks.map ChunkDescriptor.blake3Hash).map
            cidFromBlake3Hash := by
      rw [List.map_map]
      exact List.map_congr_left hcid
    rw [hmap, hleaves]
    rfl

end

end Snip
