/-
The walk over the chain's missing chunk indices.

`storage_getAssignmentCoverageV2` answers with a page of the indices that no archive
has attested, from an index on.  `collect_missing_indices`
(`sum-node/src/ingest_v2.rs`) asks from zero, then from behind the last index of each
page, until a page is empty.  The chain keeps a state of its own, so the same question
may be answered differently the next time.
-/
import Mathlib.Data.Finset.Basic
import Mathlib.Data.Finset.Dedup
import Snip.Node.Reassign
import Snip.Store.SumStore

namespace Snip

/-- `u32::MAX`. -/
def u32Max : Nat := 2 ^ 32 - 1

/-- `saturating_add(1)` of a 32-bit number. -/
def saturatingNext (n : Nat) : Nat := min (n + 1) u32Max

/-- `storage_get_assignment_coverage_v2`: root, `missing_offset`, `missing_limit`. -/
structure CoverageRpc (σ : Type) where
  storageGetAssignmentCoverageV2 :
    Str → Option Nat → Option Nat → σ → Except Str (Option AssignmentCoverageV2) × σ

namespace CoverageRpc

variable {σ : Type}

/-- One page, from this index on. -/
def page (rpc : CoverageRpc σ) (merkleRoot : Hash) (offset : Nat) (s : σ) :
    Except Str (Option AssignmentCoverageV2) × σ :=
  rpc.storageGetAssignmentCoverageV2 (rootText merkleRoot).toList (some offset) none s

/-- The loop, with at most `calls` calls; `none` when they are used up. -/
def collectLoop (rpc : CoverageRpc σ) (merkleRoot : Hash) :
    Nat → Nat → Finset Nat → σ → Option (Except Str (Option (Finset Nat)))
  | 0, _, _, _ => none
  | calls + 1, offset, missing, s =>
      match rpc.page merkleRoot offset s with
      | (.error e, _) => some (.error e)
      -- The coverage row is gone.
      | (.ok none, _) => some (.ok none)
      | (.ok (some cov), s) =>
          match cov.missingIndices.getLast? with
          | none => some (.ok (some missing))
          | some last =>
              let missing := missing ∪ cov.missingIndices.toFinset
              let offset := saturatingNext last
              if offset = last then some (.ok (some missing))
              else collectLoop rpc merkleRoot calls offset missing s

/-- `collect_missing_indices`, with at most `calls` calls. -/
def collectMissingIndices (rpc : CoverageRpc σ) (merkleRoot : Hash) (calls : Nat) (s : σ) :
    Option (Except Str (Option (Finset Nat))) :=
  rpc.collectLoop merkleRoot calls 0 ∅ s

end CoverageRpc

end Snip
