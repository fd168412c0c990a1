/-
One run of the re-fetch: a bounded pass over the chain's list of pushable files
(`Refetcher::run_once`, `sum-node/src/refetch_v2.rs`).

A run starts at the head of the listing, asks for page after page and examines each row,
until a page is short, a page cannot be read, or one of the two bounds of a run is
reached: rows examined, chunks attempted.  Nothing is kept from one run to the next.
-/
import Snip.Node.MissingIndices
import Snip.Node.PushValidator
import Snip.Node.Refetch

namespace Snip

/-- One row of `storage_getPushableFilesV2`. -/
structure PushableFileInfoV2 where
  merkleRoot : Str
  chunkCount : Nat
  lifecycle : Nat
  createdAt : Nat
deriving DecidableEq

/-- `PushableFilesRpc`: offset and limit of a page. -/
structure PushableFilesRpc (σ : Type) where
  pushableFiles : Nat → Nat → σ → Except Str (List PushableFileInfoV2) × σ

/-- The listing's part of `RefetchLimits`. -/
structure ListingLimits where
  filesPerRun : Nat
  page : Nat

/-- A `RefetchReport` with the rows that `files_checked` counts. -/
structure RunReport where
  checked : List PushableFileInfoV2
  report : RefetchReport

def RunReport.empty : RunReport where
  checked := []
  report :=
    { privateSkipped := 0, errors := 0, planned := 0, fetched := [], failed := []
      corruptRefused := 0, validatorRefused := 0, manifestRefused := 0 }

namespace Refetcher

variable {σ : Type} [Blake3] [AssignmentScore]

/-- What a run does with one row. -/
def examineRow (r : Refetcher σ) (row : PushableFileInfoV2) (run : RunReport) (s : σ) :
    RunReport × σ :=
  let checked := run.checked ++ [row]
  match decodeRootHex row.merkleRoot with
  | some root =>
      let (report, _, s) := r.refetchFile root run.report s
      (⟨checked, report⟩, s)
  | none => (⟨checked, { run.report with errors := run.report.errors + 1 }⟩, s)

omit [Blake3] [AssignmentScore] in
/-- One of the bounds of a run is reached. -/
def full (r : Refetcher σ) (limits : ListingLimits) (run : RunReport) : Bool :=
  decide (limits.filesPerRun ≤ run.checked.length) ||
    decide (r.limits.chunksPerRun ≤ run.report.attempts)

/-- The rows of one page; `true` when a bound ends the run before the last of them. -/
def scanRows (r : Refetcher σ) (limits : ListingLimits) :
    List PushableFileInfoV2 → RunReport → σ → Bool × RunReport × σ
  | [], run, s => (false, run, s)
  | row :: rows, run, s =>
      if r.full limits run then (true, run, s)
      else
        let (run, s) := r.examineRow row run s
        scanRows r limits rows run s

/-- The loop over the pages: every page but the last has rows that are examined. -/
def scanPages (r : Refetcher σ) (chain : PushableFilesRpc σ) (limits : ListingLimits) :
    Nat → Nat → RunReport → σ → RunReport × σ
  | 0, _, run, s => (run, s)
  | fuel + 1, offset, run, s =>
      let page := max limits.page 1
      match chain.pushableFiles offset page s with
      | (.error _, s) => ({ run with report.errors := run.report.errors + 1 }, s)
      | (.ok rows, s) =>
          match r.scanRows limits rows run s with
          | (true, run, s) => (run, s)
          | (false, run, s) =>
              if rows.length < page then (run, s)
              else
                -- `saturating_add` of the 32-bit offset
                scanPages r chain limits fuel (min (offset + rows.length % 2 ^ 32) u32Max) run s

/--
`run_once`.  Every page that another one follows adds a row at least, so the run ends
within one page more than it may examine rows.
-/
def runOnce (r : Refetcher σ) (chain : PushableFilesRpc σ) (limits : ListingLimits) (s : σ) :
    RunReport × σ :=
  r.scanPages chain limits (limits.filesPerRun + 1) 0 .empty s

end Refetcher

end Snip
