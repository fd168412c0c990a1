/-
What an ingest has to deliver once its file is registered (`sum-node/src/ingest_v2.rs`):
one push for each chunk and the push of the manifest.

Who gets which request is left out here, and so is how often it is sent.
-/
import Snip.Net.Codec
import Snip.Node.PrivateArtifacts

namespace Snip

/-- The default of `max_chunk_count_per_file`. -/
def maxChunkCountPerFile : Nat := 1048576

/--
The request of `send_one_push`; `mapped` is the file the chunks are cut from.  Without a
descriptor or a proof of this index the source panics.
-/
def pushRequest (manifest : DataManifest) (mapped : Bytes) (tree : MerkleTree) (chunkIndex : Nat) :
    Option ShardRequestV2 := do
  let cd ← manifest.chunks[chunkIndex]?
  let data := slice mapped cd.offset (cd.offset + cd.size)
  let proof ← tree.proofBytes chunkIndex
  return .push data manifest.merkleRoot chunkIndex proof

/-- The request of `s3_push_manifest`. -/
def manifestPushRequest (manifest : DataManifest) (overrideBytes : Option Bytes) :
    ShardRequestV2 :=
  .manifestPush manifest.merkleRoot (overrideBytes.getD (manifestToCbor manifest))

section

variable [Blake3]

/-- Every request of S2 and S3. -/
def deliveries (manifest : DataManifest) (mapped : Bytes) (overrideBytes : Option Bytes) :
    List ShardRequestV2 :=
  let tree := MerkleTree.build manifest.leaves
  (List.range manifest.chunkCount).filterMap (pushRequest manifest mapped tree) ++
    [manifestPushRequest manifest overrideBytes]

/-- `run` on a Public file. -/
def publicDeliveries (fileName : Str) (mapped : Bytes) : List ShardRequestV2 :=
  deliveries (chunkMapped fileName mapped) mapped none

/-- `run_private`: chunks of the ciphertext file, and the manifest encrypted. -/
def PrivateArtifacts.deliveries (a : PrivateArtifacts) : List ShardRequestV2 :=
  Snip.deliveries a.manifest a.ciphertext (some a.encryptedManifestBytes)

end

end Snip
