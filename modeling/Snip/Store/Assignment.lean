/-
Which archives a chunk belongs to.

The second version ranks the archives of a snapshot by a score that the chain's
wire library computes from root, chunk and address; the score is a parameter, the
ranking around it is the library's documented one (`sum-store/src/assignment_v2.rs`).
The first version probes the address list from a hashed start
(`sum-store/src/assignment.rs`).
-/
import Mathlib.Data.List.Sort
import Mathlib.Data.List.Dedup
import Mathlib.Data.Prod.Lex
import Mathlib.Order.Fin.Basic
import Snip.Basic

namespace Snip

/-- A 20-byte address, as the number its bytes spell: numbers order as the bytes do. -/
abbrev Addr := Fin (2 ^ 160)

instance Addr.neZero : NeZero (2 ^ 160) := ⟨by decide⟩

instance Addr.lawfulBEq : LawfulBEq Addr := inferInstance

/-! Sets of addresses are listed in this order. -/

instance Addr.leTrans : IsTrans Addr fun a b => a ≤ b := inferInstance

instance Addr.leAntisymm : Std.Antisymm fun a b : Addr => a ≤ b := inferInstance

instance Addr.leTotal : Std.Total fun a b : Addr => a ≤ b := inferInstance

/-- The `k` lowest bytes of a number, highest first. -/
def beBytes (k n : Nat) : Bytes :=
  (List.range k).reverse.map fun i => UInt8.ofNat (n / 256 ^ i % 256)

/-- An address in hexadecimal, as error texts show it. -/
def Addr.hex (a : Addr) : String := String.ofList (hexEncode (beBytes 20 a.val))

/-- `assignment_score` of the wire crate, a 32-byte value compared as a number. -/
class AssignmentScore where
  score : Hash → Nat → Addr → Nat

/-- Sorted by address, each address once. -/
def presortedAddresses (snapshot : List Addr) : List Addr :=
  snapshot.dedup.insertionSort (· ≤ ·)

section

variable [AssignmentScore]

/-- `assigned_archives_presorted`: the `replicationFactor` lowest by score, then address. -/
def assignedArchivesPresorted (merkleRoot : Hash) (candidates : List Addr) (chunkIndex : Nat)
    (replicationFactor : Nat) : List Addr :=
  let key := fun a => toLex (AssignmentScore.score merkleRoot chunkIndex a, a)
  (candidates.insertionSort fun a b => key a ≤ key b).take replicationFactor

def assignedArchives (merkleRoot : Hash) (snapshot : List Addr) (chunkIndex : Nat)
    (replicationFactor : Nat) : List Addr :=
  assignedArchivesPresorted merkleRoot (presortedAddresses snapshot) chunkIndex replicationFactor

/-- `chunks_for_archive_v2`: in ascending order. -/
def chunksForArchiveV2 (merkleRoot : Hash) (chunkCount : Nat) (snapshot : List Addr)
    (replicationFactor : Nat) (archive : Addr) : List Nat :=
  let presorted := presortedAddresses snapshot
  if archive ∉ presorted then []
  else
    (List.range chunkCount).filter fun i =>
      archive ∈ assignedArchivesPresorted merkleRoot presorted i replicationFactor

/-- `compute_assignment_v2`: sorted once, then chunk by chunk. -/
def computeAssignmentV2 (merkleRoot : Hash) (chunkCount : Nat) (snapshot : List Addr)
    (replicationFactor : Nat) : List (List Addr) :=
  let presorted := presortedAddresses snapshot
  (List.range chunkCount).map fun i =>
    assignedArchivesPresorted merkleRoot presorted i replicationFactor

/-- `first_chunk_assigned_to_any`: the scan stops at the first chunk one of them holds. -/
def firstChunkAssignedToAny (merkleRoot : Hash) (chunkCount : Nat) (snapshot : List Addr)
    (replicationFactor : Nat) (targets : List Addr) : Option (Nat × Addr) :=
  let presorted := presortedAddresses snapshot
  let wanted := targets.filter (· ∈ presorted)
  if wanted = [] then none
  else
    (List.range chunkCount).findSome? fun i =>
      ((assignedArchivesPresorted merkleRoot presorted i replicationFactor).find? (· ∈ wanted)).map
        fun hit => (i, hit)

end

/-! ### The first version -/

/-- Linear probing: the first node from `idx` on that is not assigned yet. -/
def probe (nodes assigned : List Addr) : Nat → Nat → Option Addr
  | 0, _ => none
  | fuel + 1, idx =>
      match nodes[idx]? with
      | none => none
      | some a => if a ∉ assigned then some a else probe nodes assigned fuel ((idx + 1) % nodes.length)

/--
`compute_chunk_assignment`.  When the nodes are distinct, fewer are assigned than there
are nodes when a probe starts, so one round over them finds a free one.  A probe that
never ends is given up here; `computeChunkAssignmentWithin` tells when that happens.
-/
def computeChunkAssignment [Blake3] (merkleRoot : Hash) (chunkCount : Nat)
    (activeNodes : List Addr) (replicationFactor : Nat) : List (List Addr) :=
  let n := activeNodes.length
  if n = 0 ∨ chunkCount = 0 then List.replicate chunkCount []
  else
    (List.range chunkCount).map fun chunkIndex =>
      (List.range (min replicationFactor n)).foldl
        (fun assigned replica =>
          let hash := Blake3.hash (merkleRoot.bytes ++ beBytes 4 chunkIndex ++ beBytes 4 replica)
          let start := beValue (hash.bytes.take 8) % n
          match probe activeNodes assigned n start with
          | some a => assigned ++ [a]
          | none => assigned) []

/-- Where the probe for a replica starts. -/
def probeStart [Blake3] (merkleRoot : Hash) (chunkIndex replica n : Nat) : Nat :=
  let hash := Blake3.hash (merkleRoot.bytes ++ beBytes 4 chunkIndex ++ beBytes 4 replica)
  beValue (hash.bytes.take 8) % n

/-- The loop over the replicas of one chunk; `none` when a probe does not end in `steps`. -/
def assignReplicas [Blake3] (steps : Nat) (merkleRoot : Hash) (activeNodes : List Addr)
    (chunkIndex : Nat) : Nat → Option (List Addr)
  | 0 => some []
  | replica + 1 => do
      let assigned ← assignReplicas steps merkleRoot activeNodes chunkIndex replica
      let a ← probe activeNodes assigned steps
        (probeStart merkleRoot chunkIndex replica activeNodes.length)
      return assigned ++ [a]

/--
`compute_chunk_assignment` with at most `steps` rounds of each probe: the source, whose
probe has no bound, returns exactly when some number of rounds is enough.
-/
def computeChunkAssignmentWithin [Blake3] (steps : Nat) (merkleRoot : Hash) (chunkCount : Nat)
    (activeNodes : List Addr) (replicationFactor : Nat) : Option (List (List Addr)) :=
  let n := activeNodes.length
  if n = 0 ∨ chunkCount = 0 then some (List.replicate chunkCount [])
  else
    (List.range chunkCount).mapM fun chunkIndex =>
      assignReplicas steps merkleRoot activeNodes chunkIndex (min replicationFactor n)

def chunksForNode (assignment : List (List Addr)) (nodeAddress : Addr) : List Nat :=
  (List.range assignment.length).filter fun i => nodeAddress ∈ assignment.getD i []

end Snip
