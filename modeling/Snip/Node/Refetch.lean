/-
Re-fetch by a newly assigned archive (`sum-node/src/refetch_v2.rs`), Public files only.

A plan lists the chunks to fetch and, for each, the archives to try; `refetch_file` reads
the file's epochs, plans, finds a manifest and pulls.  Chain, network and the archive's own
acceptance path are an environment: each call is answered from its state by then.
-/
import Mathlib.Data.Finset.Basic
import Snip.Lib.Dialogue
import Snip.Node.Reassign
import Snip.Store.Merkle

namespace Snip

/-- `MAX_EPOCHS_CONSULTED`. -/
def maxEpochsConsulted : Nat := 4

structure ChunkPlan where
  chunkIndex : Nat
  sources : List Addr
deriving DecidableEq

section

variable [AssignmentScore]

/-- One more archive to try, unless it is this one or is listed. -/
def addSource (me : Addr) (sources : List Addr) (a : Addr) : List Addr :=
  if a ≠ me ∧ a ∉ sources then sources ++ [a] else sources

/-- The archives of the epochs in the order given. -/
def collectSources (merkleRoot : Hash) (replicationFactor : Nat) (me : Addr) (chunkIndex : Nat)
    (newestFirst : List (Nat × List Addr)) : List Addr :=
  newestFirst.foldl (fun sources epoch =>
    (assignedArchives merkleRoot epoch.2 chunkIndex replicationFactor).foldl (addSource me) sources) []

/-- `plan_refetch`: `epochs` in ascending order of height. -/
def planRefetch (merkleRoot : Hash) (chunkCount : Nat) (epochs : List (Nat × List Addr))
    (replicationFactor : Nat) (me : Addr) (held : Finset Nat) : List ChunkPlan :=
  match epochs.reverse with
  | (_, latest) :: (_, previous) :: _ =>
      if me ∉ latest then []
      else
        let now := chunksForArchiveV2 merkleRoot chunkCount latest replicationFactor me
        let before := chunksForArchiveV2 merkleRoot chunkCount previous replicationFactor me
        (now.filter fun i => i ∉ before ∧ i ∉ held).map fun chunkIndex =>
          ⟨chunkIndex,
            collectSources merkleRoot replicationFactor me chunkIndex epochs.reverse⟩
  | _ => []

end

/-- `RefetchLimits`, less the listing's. -/
structure RefetchLimits where
  chunksPerRun : Nat
  sourcesPerChunk : Nat

structure RefetchReport where
  privateSkipped : Nat
  errors : Nat
  planned : Nat
  fetched : List (Hash × Nat)
  failed : List (Hash × Nat)
  corruptRefused : Nat
  validatorRefused : Nat
  manifestRefused : Nat

/-- `fetched.len() + failed.len()`. -/
def RefetchReport.attempts (r : RefetchReport) : Nat := r.fetched.length + r.failed.length

/-- The chain's queries, `RefetchTransport` and `RefetchSink`. -/
structure RefetchWorld (σ : Type) where
  fetchFileShape : Hash → σ → Except Str StorageFileInfoV2 × σ
  fetchCoverage : Hash → σ → Except Str (Option AssignmentCoverageV2) × σ
  fetchSnapshot : Nat → σ → Except Str (List Addr) × σ
  pullManifest : Addr → Hash → σ → Except Str Bytes × σ
  pullChunk : Addr → Str → Nat → σ → Except Str Bytes × σ
  heldFor : Hash → σ → Finset Nat × σ
  localManifest : Hash → σ → Option DataManifest × σ
  acceptManifest : Hash → Nat → Bytes → σ → Except Str DataManifest × σ
  acceptChunk : Addr → Hash → Nat → Bytes → List Hash → σ → Option Str × σ
  attestRefetched : Hash → σ → Unit × σ

/-- What leaves the archive or enters its store. -/
inductive RefetchCall where
  | chain
  | held
  | pulledManifest (source : Addr) (root : Hash)
  | pulledChunk (source : Addr) (cid : Str)
  | acceptedManifest (root : Hash) (answer : Except Str DataManifest)
  | acceptedChunk (root : Hash) (chunkIndex : Nat) (answer : Option Str)
  | attested (root : Hash)

/-- The parts of a `Refetcher` that a run does not change. -/
structure Refetcher (σ : Type) where
  world : RefetchWorld σ
  me : Addr
  replicationFactor : Nat
  limits : RefetchLimits

abbrev RefetchM (σ : Type) := Dialogue σ RefetchCall

namespace Refetcher

variable {σ : Type}

/-- The snapshots of the heights, or `none` as soon as one cannot be read. -/
def readEpochs (r : Refetcher σ) : List Nat → RefetchM σ (Option (List (Nat × List Addr)))
  | [] => pure (some [])
  | h :: heights => do
      match ← Dialogue.ask (r.world.fetchSnapshot h) (fun _ => .chain) with
      | .error _ => pure none
      | .ok snapshot =>
          let rest ← r.readEpochs heights
          pure (rest.map ((h, snapshot) :: ·))

/-- The sources a manifest is pulled from: each once, up to the limit. -/
def manifestSources (r : Refetcher σ) (plan : List ChunkPlan) : List Addr :=
  ((plan.flatMap ChunkPlan.sources).foldl (fun tried a => if a ∈ tried then tried else tried ++ [a])
    []).take r.limits.sourcesPerChunk

/-- The loop of `manifest_for`. -/
def pullManifestFrom (r : Refetcher σ) (root : Hash) (chunkCount : Nat) :
    List Addr → RefetchReport → RefetchM σ (Option DataManifest × RefetchReport)
  | [], report => pure (none, report)
  | source :: sources, report => do
      match ← Dialogue.ask (r.world.pullManifest source root) (fun _ => .pulledManifest source root)
      with
      | .error _ => r.pullManifestFrom root chunkCount sources report
      | .ok bytes =>
          match ← Dialogue.ask (r.world.acceptManifest root chunkCount bytes)
            (.acceptedManifest root) with
          | .ok manifest => pure (some manifest, report)
          | .error _ =>
              r.pullManifestFrom root chunkCount sources
                { report with manifestRefused := report.manifestRefused + 1 }

/-- `manifest_for`. -/
def manifestFor (r : Refetcher σ) (root : Hash) (chunkCount : Nat) (plan : List ChunkPlan)
    (report : RefetchReport) : RefetchM σ (Option DataManifest × RefetchReport) := do
  match ← Dialogue.ask (r.world.localManifest root) (fun _ => .held) with
  | some manifest => pure (some manifest, report)
  | none => r.pullManifestFrom root chunkCount (r.manifestSources plan) report

section

variable [Blake3]

/-- One chunk, source by source: whether it was accepted. -/
def pullChunkFrom (r : Refetcher σ) (root : Hash) (chunkIndex : Nat) (desc : ChunkDescriptor)
    (path : List Hash) : List Addr → RefetchReport → RefetchM σ (Bool × RefetchReport)
  | [], report => pure (false, report)
  | source :: sources, report => do
      match ← Dialogue.ask (r.world.pullChunk source desc.cid desc.size)
        (fun _ => .pulledChunk source desc.cid) with
      | .error _ => r.pullChunkFrom root chunkIndex desc path sources report
      | .ok data =>
          if Blake3.hash data ≠ desc.blake3Hash then
            r.pullChunkFrom root chunkIndex desc path sources
              { report with corruptRefused := report.corruptRefused + 1 }
          else
            -- a refusal is about the chain's state: no other source is tried
            match ← Dialogue.ask (r.world.acceptChunk source root chunkIndex data path)
              (.acceptedChunk root chunkIndex) with
            | none => pure (true, report)
            | some _ => pure (false, { report with validatorRefused := report.validatorRefused + 1 })

/-- The chunks of a plan, until the run's limit is reached. -/
def fetchChunks (r : Refetcher σ) (root : Hash) (manifest : DataManifest) :
    List ChunkPlan → RefetchReport → RefetchM σ RefetchReport
  | [], report => pure report
  | cp :: plan, report => do
      if r.limits.chunksPerRun ≤ report.attempts then pure report
      else
        match manifest.chunks[cp.chunkIndex]? with
        | none =>
            r.fetchChunks root manifest plan
              { report with failed := report.failed ++ [(root, cp.chunkIndex)] }
        | some desc =>
            let tree := MerkleTree.build (manifest.chunks.map ChunkDescriptor.blake3Hash)
            let path := (tree.proofBytes cp.chunkIndex).getD []
            let (accepted, report) ← r.pullChunkFrom root cp.chunkIndex desc path
              (cp.sources.take r.limits.sourcesPerChunk) report
            r.fetchChunks root manifest plan
              (if accepted then { report with fetched := report.fetched ++ [(root, cp.chunkIndex)] }
                else { report with failed := report.failed ++ [(root, cp.chunkIndex)] })

/-- The part of `refetch_file` after the plan. -/
def performPlan (r : Refetcher σ) (root : Hash) (chunkCount : Nat) (plan : List ChunkPlan)
    (report : RefetchReport) : RefetchM σ RefetchReport := do
  if plan = [] then pure report
  else
    let report := { report with planned := report.planned + plan.length }
    let (manifest, report) ← r.manifestFor root chunkCount plan report
    match manifest with
    | none =>
        pure { report with
          failed := report.failed ++ plan.map fun cp => (root, cp.chunkIndex) }
    | some manifest =>
        let done ← r.fetchChunks root manifest plan report
        if report.fetched.length < done.fetched.length then
          Dialogue.ask (r.world.attestRefetched root) (fun _ => .attested root)
        pure done

variable [AssignmentScore]

/-- The epochs are in order, from the file's own height to the latest. -/
def consistentEpochs (heights : List Nat) (assignmentHeight latest : Nat) : Bool :=
  heights.IsChain (· < ·) ∧ heights.head? = some assignmentHeight ∧
    heights.getLast? = some latest

/-- `refetch_file`. -/
def refetchFile (r : Refetcher σ) (root : Hash) (report : RefetchReport) :
    RefetchM σ RefetchReport := do
  match ← Dialogue.ask (r.world.fetchFileShape root) (fun _ => .chain) with
  | .error _ => pure { report with errors := report.errors + 1 }
  | .ok shape =>
      if shape.lifecycle.isAbandoned then pure report
      else if shape.visibility.isPrivate then
        pure { report with privateSkipped := report.privateSkipped + 1 }
      else
        match ← Dialogue.ask (r.world.fetchCoverage root) (fun _ => .chain) with
        | .error _ => pure { report with errors := report.errors + 1 }
        | .ok none => pure report
        | .ok (some coverage) =>
            let heights := coverage.assignmentEpochs
            if heights.length < 2 then pure report
            else if !consistentEpochs heights shape.assignmentHeight coverage.latestAssignmentEpoch
            then pure { report with errors := report.errors + 1 }
            else
              let consulted := heights.drop (heights.length - maxEpochsConsulted)
              match ← r.readEpochs consulted with
              | none => pure { report with errors := report.errors + 1 }
              | some epochs =>
                  let held ← Dialogue.ask (r.world.heldFor root) (fun _ => .held)
                  r.performPlan root shape.chunkCount
                    (planRefetch root shape.chunkCount epochs r.replicationFactor r.me held) report

end

end Refetcher

end Snip
