/-
Whom `repush` pushes a registered file to (`sum-node/src/ingest_v2.rs`).

`latest_assignment_targets` reads the file's latest assignment epoch and the archives of
that epoch, and gives each chunk its archives.
-/
import Snip.Node.EpochWatcher

namespace Snip

/-- What the chain answers about the assignment of one file. -/
structure AssignmentAnswers where
  coverage : Except Str (Option AssignmentCoverageV2)
  activeNodesAtHeight : Nat → Except Str (List NodeRecordInfo)

/-- Why there are no targets. -/
inductive TargetsError where
  | coverageQuery (e : Str)
  | noCoverageRow (merkleRoot : Hash)
  | epoch (e : String)
  | nodesQuery (e : Str)
  | snapshotAddress
  | emptySnapshot (height : Nat)

/-- The text of the error; an address that does not decode adds its own. -/
def TargetsError.message : TargetsError → Option String
  | coverageQuery e =>
      some ("repush: storage_getAssignmentCoverageV2 failed: " ++ String.ofList e)
  | noCoverageRow merkleRoot =>
      some ("repush: no coverage row for 0x" ++ String.ofList (hexEncode merkleRoot.bytes))
  | epoch e => some e
  | nodesQuery e => some (String.ofList e)
  | snapshotAddress => none
  | emptySnapshot height =>
      some ("repush: the snapshot at assignment epoch " ++ toString height ++
        " holds no eligible archive")

/-- What one chain answers, to whoever asks it. -/
structure L1Chain where
  fileInfoV2 : Hash → Except Str (Option StorageFileInfoV2)
  assignmentCoverageV2 : Hash → Except Str (Option AssignmentCoverageV2)
  activeNodesAtHeight : Nat → Except Str (List NodeRecordInfo)

/-- `L1RpcClient` as the validator of an archive asks it: no coverage row is an error. -/
def L1Chain.v2Rpc (chain : L1Chain) : ChainRpc where
  fileInfoV2 := chain.fileInfoV2
  activeNodesAtHeight := chain.activeNodesAtHeight
  latestAssignmentEpoch root :=
    match chain.assignmentCoverageV2 root with
    | .error e => .error e
    | .ok none =>
        .error ("no coverage row for registered root 0x".toList ++ hexEncode root.bytes)
    | .ok (some coverage) => .ok coverage.resolvedLatestEpoch

/-- The same chain as the owner's `repush` of a file asks it. -/
def L1Chain.answersFor (chain : L1Chain) (merkleRoot : Hash) : AssignmentAnswers where
  coverage := chain.assignmentCoverageV2 merkleRoot
  activeNodesAtHeight := chain.activeNodesAtHeight

variable [AssignmentScore]

/-- The archives of each chunk, in chunk order. -/
def assignmentTargets (merkleRoot : Hash) (chunkCount : Nat) (snapshot : List Addr) (r : Nat) :
    List (Nat × Addr) :=
  (List.range chunkCount).flatMap fun chunkIndex =>
    (assignedArchives merkleRoot snapshot chunkIndex r).map fun archive => (chunkIndex, archive)

/-- `latest_assignment_targets`. -/
def latestAssignmentTargets (answers : AssignmentAnswers) (info : StorageFileInfoV2)
    (merkleRoot : Hash) (r : Nat) : Except TargetsError (Nat × List (Nat × Addr)) :=
  match answers.coverage with
  | .error e => .error (.coverageQuery e)
  | .ok none => .error (.noCoverageRow merkleRoot)
  | .ok (some coverage) =>
      match epochFromCoverage coverage info.assignmentHeight with
      | .error e => .error (.epoch e)
      | .ok epoch =>
          match answers.activeNodesAtHeight epoch with
          | .error e => .error (.nodesQuery e)
          | .ok raw =>
              match decodeSnapshot raw with
              | none => .error .snapshotAddress
              | some snapshot =>
                  if snapshot = [] then .error (.emptySnapshot epoch)
                  else .ok (epoch, assignmentTargets merkleRoot info.chunkCount snapshot r)

end Snip
