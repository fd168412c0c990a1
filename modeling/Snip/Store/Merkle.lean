/-
The Merkle tree over a file's chunk hashes and the verifiers of its proofs
(`sum-store/src/merkle.rs`, `sum-store/src/verify.rs`).

The combiner is `blake3(left || right)` over raw digests, for leaves and inner
nodes alike, and an odd level repeats its last node.  Where the source indexes a
level out of range it panics; here the proof of such an index is `none`.
-/
import Snip.Basic
import Snip.Lib.HashTree

namespace Snip

variable [Blake3]

/-- `hash_pair`. -/
def hashPair (left right : Hash) : Hash :=
  Blake3.hash (left.bytes ++ right.bytes)

/-- `levels[0]` are the leaves, the last level is the root alone. -/
structure MerkleTree where
  levels : List (List Hash)

namespace MerkleTree

/-- The `while current.len() > 1` loop: `current` and every level above it. -/
def buildLoop : Nat → List Hash → List (List Hash)
  | 0, current => [current]
  | fuel + 1, current =>
      if 1 < current.length then
        current :: buildLoop fuel (HashTree.nextLevel hashPair current)
      else [current]

/-- The loop halves the level, so as many rounds as there are leaves are enough. -/
def build (leafHashes : List Hash) : MerkleTree :=
  if leafHashes = [] then ⟨[]⟩
  else if leafHashes.length = 1 then ⟨[leafHashes]⟩
  else ⟨buildLoop leafHashes.length leafHashes⟩

def root (t : MerkleTree) : Hash :=
  (t.levels.getLast?.bind List.head?).getD Hash.zero

/-- The loop of `generate_proof` over the levels below the root. -/
def proofLoop : List (List Hash) → Nat → Option (List Hash)
  | [], _ => some []
  | lvl :: above, idx => do
      let sibling ← HashTree.sibling lvl idx
      let rest ← proofLoop above (idx / 2)
      return sibling :: rest

def generateProof (t : MerkleTree) (chunkIndex : Nat) : Option (List Hash) :=
  if t.levels.length ≤ 1 then some []
  else proofLoop t.levels.dropLast chunkIndex

/-- A digest and its wire form are one value here. -/
def proofBytes (t : MerkleTree) (chunkIndex : Nat) : Option (List Hash) :=
  t.generateProof chunkIndex

end MerkleTree

/-! ### Verification -/

/-- The walk of `verify_merkle_proof` from `level` on. -/
def merkleWalk (chunkIndex : Nat) : Nat → Hash → List Hash → Hash
  | _, current, [] => current
  | level, current, sibling :: rest =>
      if (chunkIndex >>> level) &&& 1 = 0 then
        merkleWalk chunkIndex (level + 1) (hashPair current sibling) rest
      else merkleWalk chunkIndex (level + 1) (hashPair sibling current) rest

def verifyMerkleProof (chunkHash : Hash) (chunkIndex : Nat) (merklePath : List Hash)
    (expectedRoot : Hash) : Bool :=
  merkleWalk chunkIndex 0 chunkHash merklePath = expectedRoot

def verifyMerkleProofBytes (chunkHash : Hash) (chunkIndex : Nat) (merklePath : List Hash)
    (expectedRoot : Hash) : Bool :=
  verifyMerkleProof chunkHash chunkIndex merklePath expectedRoot

/-- `u32::leading_zeros`. -/
def leadingZeros32 (n : Nat) : Nat := 32 - Nat.size n

def expectedProofDepth (totalLeaves : Nat) : Nat :=
  if totalLeaves ≤ 1 then 0 else 32 - leadingZeros32 (totalLeaves - 1)

def verifyMerkleProofBytesForTree (chunkHash : Hash) (chunkIndex : Nat)
    (merklePath : List Hash) (expectedRoot : Hash) (totalLeaves : Nat) : Bool :=
  if totalLeaves = 0 then false
  else if totalLeaves ≤ chunkIndex then false
  else if merklePath.length ≠ expectedProofDepth totalLeaves then false
  else if totalLeaves = 1 then chunkHash = expectedRoot
  else verifyMerkleProofBytes chunkHash chunkIndex merklePath expectedRoot

/-! ### The strings that get hashed -/

/-- The 64-byte string of a pair of digests. -/
def pairBytes (p : Hash × Hash) : Bytes := p.1.bytes ++ p.2.bytes

/-- Every string hashed while the tree over `leaves` is built. -/
def treePreimages (leaves : List Hash) : List Bytes :=
  (HashTree.treePairs hashPair (Nat.clog 2 leaves.length) leaves).map pairBytes

/-- Every string hashed while a proof is walked. -/
def walkPreimages (chunkIndex : Nat) (chunkHash : Hash) (merklePath : List Hash) : List Bytes :=
  (HashTree.climbPairs hashPair chunkIndex chunkHash merklePath).map pairBytes

end Snip
