/-
The watcher of assignment epochs (`sum-node/src/epoch_watcher.rs`).

At every tick the watcher goes through the files it holds chunks of, reads each one's
latest epoch from the chain, and attests again where the epoch has changed.  What it is
answered on the way to one file is a `RootAnswers`; an answer it does not ask for is not
used.  The run of `run_attestation` is one of them: it may end in any way.
-/
import Snip.Node.Attestor

namespace Snip

/-- `MAX_ATTEMPTS_PER_EPOCH`. -/
def maxAttemptsPerEpoch : Nat := 3

/-- `epoch_from_coverage`. -/
def epochFromCoverage (coverage : AssignmentCoverageV2) (assignmentHeight : Nat) :
    Except String Nat :=
  match coverage.resolvedLatestEpoch with
  | none => .ok assignmentHeight
  | some latest =>
      if latest < assignmentHeight then
        .error ("chain reports latest assignment epoch " ++ toString latest ++
          " below the file's assignment_height " ++ toString assignmentHeight)
      else .ok latest

structure EpochState where
  epoch : Nat
  done : Bool
  attempts : Nat
deriving DecidableEq

structure TickReport where
  checked : Nat
  attested : List (Hash × Nat)
  retry : List Hash

/-- What the watcher is answered about one file. -/
structure RootAnswers where
  coverage : Except String (Option AssignmentCoverageV2)
  shape : Except String StorageFileInfoV2
  snapshot : Except String (List Addr)
  held : Finset Nat
  /-- What `run_attestation` returns, if it is called. -/
  summary : Option AttestSummary

structure EpochWatcher where
  myAddr : Addr
  myAddrBase58 : Str
  params : V2Params
  state : Map Hash EpochState
  notV2 : List Hash

/-- `EpochWatcher::new`. -/
def EpochWatcher.new (myAddr : Addr) (myAddrBase58 : Str) (params : V2Params) : EpochWatcher :=
  ⟨myAddr, myAddrBase58, params, ∅, []⟩

/-- What one check did: the watcher after it, the report, and the run it started. -/
structure CheckOutcome where
  watcher : EpochWatcher
  report : TickReport
  result : Except String Unit
  started : Option (Nat × Option AttestSummary)

namespace EpochWatcher

/-- `Some(s) if s.fully_attested()`. -/
def finishedFully (summary : Option AttestSummary) : Bool :=
  (summary.map AttestSummary.fullyAttested).getD false

/-- The chunks the chain counts as attested by this archive in the epoch. -/
def attestedCount (w : EpochWatcher) (coverage : AssignmentCoverageV2) (epoch : Nat) : Nat :=
  ((((coverage.perEpoch.find? fun e => e.epochHeight = epoch).bind fun e =>
    e.perArchive.find? fun a => a.archive = w.myAddrBase58)).map
      ArchiveCoverageSummaryV2.attestedCount).getD 0

variable [AssignmentScore]

/-- How many chunks it would attest now. -/
def wantedCount (w : EpochWatcher) (root : Hash) (shape : StorageFileInfoV2) (snapshot : List Addr)
    (held : Finset Nat) : Nat :=
  ((chunksForArchiveV2 root shape.chunkCount snapshot w.params.assignmentReplicationFactor
    w.myAddr).filter (· ∈ held)).length

/-- `already_attested`. -/
def alreadyAttested (w : EpochWatcher) (root : Hash) (coverage : AssignmentCoverageV2)
    (shape : StorageFileInfoV2) (epoch : Nat) (answers : RootAnswers) : Except String Bool :=
  let attested := w.attestedCount coverage epoch
  match answers.snapshot with
  | .error e => .error e
  | .ok snapshot =>
      let wanted := w.wantedCount root shape snapshot answers.held
      .ok (wanted = 0 || wanted ≤ attested)

/-- The part of `check` that attests. -/
def attestEpoch (w : EpochWatcher) (root : Hash) (epoch : Nat) (st : EpochState)
    (answers : RootAnswers) (report : TickReport) : CheckOutcome :=
  let st := { st with attempts := st.attempts + 1 }
  if finishedFully answers.summary then
    ⟨{ w with state := w.state.insert root { st with done := true } },
      { report with attested := report.attested ++ [(root, epoch)] }, .ok (),
      some (epoch, answers.summary)⟩
  else
    ⟨{ w with state := w.state.insert root st }, { report with retry := report.retry ++ [root] },
      .ok (), some (epoch, answers.summary)⟩

/-- The part of `check` once the epoch is known. -/
def checkEpoch (w : EpochWatcher) (root : Hash) (coverage : AssignmentCoverageV2)
    (shape : StorageFileInfoV2) (epoch : Nat) (answers : RootAnswers) (report : TickReport) :
    CheckOutcome :=
  let previous := w.state.lookup root
  let same := previous.filter fun st => st.epoch = epoch
  if (same.map EpochState.done).getD false then ⟨w, report, .ok (), none⟩
  else
    let st := same.getD ⟨epoch, false, 0⟩
    if maxAttemptsPerEpoch ≤ st.attempts then ⟨w, report, .ok (), none⟩
    else
      let nothingToDo : Except String Bool :=
        if answers.held = ∅ then .ok true
        else if previous.isNone then w.alreadyAttested root coverage shape epoch answers
        else .ok false
      match nothingToDo with
      | .error e => ⟨w, report, .error e, none⟩
      | .ok true =>
          ⟨{ w with state := w.state.insert root { st with done := true } }, report, .ok (), none⟩
      | .ok false => w.attestEpoch root epoch st answers report

/-- `check`. -/
def check (w : EpochWatcher) (root : Hash) (answers : RootAnswers) (report : TickReport) :
    CheckOutcome :=
  match answers.coverage with
  | .error e => ⟨w, report, .error e, none⟩
  | .ok none => ⟨{ w with notV2 := root :: w.notV2 }, report, .ok (), none⟩
  | .ok (some coverage) =>
      let report := { report with checked := report.checked + 1 }
      if coverage.resolvedLatestEpoch = none then ⟨w, report, .ok (), none⟩
      else
        match answers.shape with
        | .error e => ⟨w, report, .error e, none⟩
        | .ok shape =>
            if shape.lifecycle.isAbandoned then ⟨w, report, .ok (), none⟩
            else
              match epochFromCoverage coverage shape.assignmentHeight with
              | .error e => ⟨w, report, .error e, none⟩
              | .ok epoch => w.checkEpoch root coverage shape epoch answers report

/-- A file that was checked: what was answered and what came of it. -/
structure Visit where
  root : Hash
  answers : RootAnswers
  result : Except String Unit
  started : Option (Nat × Option AttestSummary)

/-- The watcher, its report and the files checked so far in a tick. -/
structure TickState where
  watcher : EpochWatcher
  report : TickReport
  visits : List Visit

/-- The body of the loop in `tick`. -/
def visitRoot (t : TickState) (held : Hash × RootAnswers) : TickState :=
  if held.1 ∈ t.watcher.notV2 then t
  else
    let checked := t.watcher.check held.1 held.2 t.report
    let report :=
      match checked.result with
      | .ok () => checked.report
      | .error _ => { checked.report with retry := checked.report.retry ++ [held.1] }
    ⟨checked.watcher, report, t.visits ++ [⟨held.1, held.2, checked.result, checked.started⟩]⟩

/-- `tick`, over the roots that are held. -/
def tick (w : EpochWatcher) (heldRoots : List (Hash × RootAnswers)) : TickState :=
  heldRoots.foldl visitRoot ⟨w, ⟨0, [], []⟩, []⟩

/-- Tick after tick: the watcher at the end, and every file checked, in order. -/
def ticks (w : EpochWatcher) : List (List (Hash × RootAnswers)) → EpochWatcher × List Visit
  | [] => (w, [])
  | heldRoots :: rest =>
      let now := w.tick heldRoots
      let later := ticks now.watcher rest
      (later.1, now.visits ++ later.2)

end EpochWatcher

end Snip
