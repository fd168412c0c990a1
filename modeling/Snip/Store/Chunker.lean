/-
How a file becomes chunks (`sum-store/src/chunker.rs`): slices of `CHUNK_SIZE` bytes,
the last one shorter, and a manifest over their digests.
-/
import Snip.Store.Merkle
import Snip.Store.SumStore

namespace Snip

/-- `mapped[offset..end]`. -/
def slice (mapped : Bytes) (offset stop : Nat) : Bytes := (mapped.drop offset).take (stop - offset)

/-- `chunk_count`, a 32-bit number. -/
def chunkCountOf (fileLen : Nat) : Nat := (fileLen + chunkSize - 1) / chunkSize % 2 ^ 32

/-- The bytes of chunk `i`. -/
def chunkData (mapped : Bytes) (i : Nat) : Bytes :=
  slice mapped (i * chunkSize) (min (i * chunkSize + chunkSize) mapped.length)

/-- The descriptor of chunk `i`. -/
def chunkDescriptor [Blake3] (mapped : Bytes) (i : Nat) : ChunkDescriptor :=
  let offset := i * chunkSize
  let stop := min (offset + chunkSize) mapped.length
  let hash := Blake3.hash (chunkData mapped i)
  ⟨i, offset, stop - offset, hash, cidFromBlake3Hash hash, none⟩

/-- The manifest of `chunk_file`, on the last component of the path and what is mapped. -/
def chunkMapped [Blake3] (fileName : Str) (mapped : Bytes) : DataManifest :=
  if mapped.length = 0 then ⟨fileName, Hash.zero, 0, 0, Hash.zero, []⟩
  else
    let chunkCount := chunkCountOf mapped.length
    let chunks := (List.range chunkCount).map (chunkDescriptor mapped)
    let tree := MerkleTree.build (chunks.map ChunkDescriptor.blake3Hash)
    ⟨fileName, Blake3.hash mapped, mapped.length, chunkCount, tree.root, chunks⟩

/-- `mmap_file`, on the content of the file: opening or mapping it may fail. -/
def mmapFile (failure : Option StoreError) (content : Bytes) : Except StoreError Bytes :=
  match failure with
  | some e => .error e
  | none => .ok content

/-- `chunk_file`. -/
def chunkFile [Blake3] (failure : Option StoreError) (fileName : Str) (content : Bytes) :
    Except StoreError (Bytes × DataManifest) := do
  let mapped ← mmapFile failure content
  return (mapped, chunkMapped fileName mapped)

end Snip
