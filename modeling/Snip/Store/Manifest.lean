/-
Manifests on the wire: their CBOR form and the check of a pushed one
(`sum-store/src/manifest.rs`, `sum-store/src/serve.rs`).

Serialization is written out, since what a manifest's bytes *are* decides what is
encrypted and how long a message gets.  Parsing is the library's and is a
parameter; the results below hold whatever it makes of a byte string.
-/
import Snip.Store.Merkle

namespace Snip

/-! ### Serialization -/

/-- A CBOR head: major type and argument, in the shortest form. -/
def cborHead (major n : Nat) : Bytes :=
  let tag := fun k => UInt8.ofNat (32 * major + k)
  let be := fun w => (List.range w).reverse.map fun i => UInt8.ofNat (n / 256 ^ i % 256)
  if n < 24 then [tag n]
  else if n < 2 ^ 8 then tag 24 :: be 1
  else if n < 2 ^ 16 then tag 25 :: be 2
  else if n < 2 ^ 32 then tag 26 :: be 4
  else tag 27 :: be 8

def cborUnsigned (n : Nat) : Bytes := cborHead 0 n

def utf8 (s : Str) : Bytes := s.flatMap String.utf8EncodeChar

def cborText (s : Str) : Bytes := cborHead 3 (utf8 s).length ++ utf8 s

/-- `[u8; 32]` is an array of integers for serde, not a byte string. -/
def cborHash (h : Hash) : Bytes := cborHead 4 32 ++ h.bytes.flatMap fun b => cborUnsigned b.toNat

def cborField (name : String) (value : Bytes) : Bytes := cborText name.toList ++ value

/-- The plaintext hash is left out where there is none. -/
def cborChunk (c : ChunkDescriptor) : Bytes :=
  cborHead 5 (if c.plaintextBlake3Hash.isSome then 6 else 5) ++
  cborField "chunk_index" (cborUnsigned c.chunkIndex) ++
  cborField "offset" (cborUnsigned c.offset) ++
  cborField "size" (cborUnsigned c.size) ++
  cborField "blake3_hash" (cborHash c.blake3Hash) ++
  cborField "cid" (cborText c.cid) ++
  (match c.plaintextBlake3Hash with
    | some h => cborField "plaintext_blake3_hash" (cborHash h)
    | none => [])

/-- `ciborium::ser::into_writer` on a manifest. -/
def manifestToCbor (m : DataManifest) : Bytes :=
  cborHead 5 6 ++
  cborField "file_name" (cborText m.fileName) ++
  cborField "file_hash" (cborHash m.fileHash) ++
  cborField "total_size_bytes" (cborUnsigned m.totalSizeBytes) ++
  cborField "chunk_count" (cborUnsigned m.chunkCount) ++
  cborField "merkle_root" (cborHash m.merkleRoot) ++
  cborField "chunks" (cborHead 4 m.chunks.length ++ m.chunks.flatMap cborChunk)

/-- `ciborium::de::from_reader`, with the text of its error. -/
class ManifestReader where
  fromCbor : Bytes → Except Str DataManifest

/-! ### The check of a pushed manifest -/

/-- Why a pushed manifest is refused. -/
inductive ManifestPushError where
  | invalidRootHex (rootHex : Str)
  | deserialization (e : Str)
  | rootMismatch (rootHex : Str) (actual : Hash)
  | countMismatch (header vector : Nat)
  | outOfOrder (position chunkIndex : Nat)
  | cidMismatch (position : Nat) (cid expectedCid : Str)
  | rootRecomputation (computed : Hash) (rootHex : Str)

/-- The text that goes back on the wire. -/
def ManifestPushError.message : ManifestPushError → String
  | invalidRootHex rootHex => "invalid manifest root hex: " ++ String.ofList rootHex
  | deserialization e => "manifest deserialization failed: " ++ String.ofList e
  | rootMismatch rootHex actual =>
      "manifest merkle_root mismatch: cid says " ++ String.ofList rootHex ++
        ", manifest says " ++ String.ofList (hexEncode actual.bytes)
  | countMismatch header vector =>
      "manifest chunk_count mismatch: header says " ++ toString header ++
        " chunks, vector has " ++ toString vector
  | outOfOrder position chunkIndex =>
      "manifest chunks out of order at position " ++ toString position ++
        ": chunk_index = " ++ toString chunkIndex
  | cidMismatch position cid expectedCid =>
      "manifest chunk " ++ toString position ++ " cid does not match its blake3_hash: cid=" ++
        String.ofList cid ++ " expected_cid=" ++ String.ofList expectedCid
  | rootRecomputation computed rootHex =>
      "manifest merkle root recomputation failed: chunks compute to " ++
        String.ofList (hexEncode computed.bytes) ++ ", manifest claims " ++ String.ofList rootHex

/-- The loop over the chunk list from position `i` on; its result are the leaf hashes. -/
def checkChunks : Nat → List ChunkDescriptor → Except ManifestPushError (List Hash)
  | _, [] => .ok []
  | i, chunk :: rest =>
      if chunk.chunkIndex ≠ i then .error (.outOfOrder i chunk.chunkIndex)
      else if chunk.cid ≠ cidFromBlake3Hash chunk.blake3Hash then
        .error (.cidMismatch i chunk.cid (cidFromBlake3Hash chunk.blake3Hash))
      else (checkChunks (i + 1) rest).map fun hashes => chunk.blake3Hash :: hashes

/-- The checks of `validate_manifest_push` behind parsing. -/
def checkManifest [Blake3] (rootHex : Str) (expectedRoot : Hash) (manifest : DataManifest) :
    Except ManifestPushError DataManifest :=
  if manifest.merkleRoot ≠ expectedRoot then .error (.rootMismatch rootHex manifest.merkleRoot)
  else if manifest.chunks.length ≠ manifest.chunkCount then
    .error (.countMismatch manifest.chunkCount manifest.chunks.length)
  else
    match checkChunks 0 manifest.chunks with
    | .error e => .error e
    | .ok leafHashes =>
        let recomputedRoot := (MerkleTree.build leafHashes).root
        if recomputedRoot ≠ manifest.merkleRoot then
          .error (.rootRecomputation recomputedRoot rootHex)
        else .ok manifest

def validateManifestPush [Blake3] [ManifestReader] (rootHex : Str) (data : Bytes) :
    Except ManifestPushError DataManifest :=
  match hexTo32 rootHex with
  | none => .error (.invalidRootHex rootHex)
  | some expectedRoot =>
      match ManifestReader.fromCbor data with
      | .error e => .error (.deserialization e)
      | .ok manifest => checkManifest rootHex expectedRoot manifest

end Snip
