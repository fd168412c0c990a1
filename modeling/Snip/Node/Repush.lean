/-
`repush` of a registered file (`sum-node/src/ingest_v2.rs`).

Every chunk goes to every archive of the file's latest epoch, then the manifest to each
of these archives.  Both loops send once to every archive that has a peer, and then read
events until each push is answered or the time is up; a refused push is sent again while
it has retries left.  A label of a loop is what happens to it: a send that returned, an
event it read, or the end of its time.
-/
import Snip.Node.IngestV2
import Snip.Node.Rebuild
import Snip.Node.Targets

namespace Snip

/-- What became of one push. -/
inductive RepushResult where
  | acknowledged
  | refused (e : Str)
  | noAnswer
  | unreachable
deriving DecidableEq

/-- What happens to a loop, as it sees it. -/
inductive RepushEntry (κ : Type) where
  /-- A push was handed to the network layer, or could not be. -/
  | sent (key : κ) (ok : Bool)
  | read (event : SumNetEvent)
  /-- The timer ran out, or there are no events any more. -/
  | deadline

/-- Where a loop is. -/
inductive RepushPhase (τ κ : Type) where
  /-- In the first wave, with these targets left; the first of them has a peer. -/
  | wave (rest : List τ)
  | waiting
  /-- Sending a refused push again. -/
  | resending (key : κ) (archive : Addr) (attempt : Nat) (e : Str)
  | done
  /-- Something was looked up that is not there. -/
  | panicked

/-- What the two loops read of the file and of the pipeline. -/
structure RepushJob where
  file : ReproducedFile
  merkleRoot : Hash
  pushRetries : Nat
  peers : MapPeerResolver

/-- The variables of `repush_chunks`. -/
structure RepushChunks where
  phase : RepushPhase (Nat × Addr) (Nat × PeerId)
  results : Map (Nat × Addr) RepushResult
  byKey : Map (Nat × PeerId) Addr
  attempts : Map (Nat × PeerId) Nat
  awaiting : Finset (Nat × PeerId)

/-- The variables of `repush_manifests`. -/
structure RepushManifests where
  phase : RepushPhase Addr PeerId
  results : Map Addr RepushResult
  byPeer : Map PeerId Addr
  attempts : Map PeerId Nat

/-- Why a call has no outcome: it is not over, or it panicked. -/
inductive RepushPause where
  | running
  | panicked

/-- The results of a loop that is over. -/
def RepushPhase.finish {τ κ ρ : Type} (phase : RepushPhase τ κ) (results : ρ) :
    Except RepushPause ρ :=
  match phase with
  | .done => .ok results
  | .panicked => .error .panicked
  | _ => .error .running

/-! ### The chunks -/

namespace RepushChunks

/-- Nothing sent: no archive is known to have a peer. -/
def idle (targets : List (Nat × Addr)) : RepushChunks where
  phase := .waiting
  results := (targets.map fun t => (⟨t, .unreachable⟩ : Sigma fun _ => RepushResult)).toAList
  byKey := ∅
  attempts := ∅
  awaiting := ∅

/-- The head of the loop. -/
def loopHead (s : RepushChunks) : RepushChunks :=
  if s.awaiting = ∅ then { s with phase := .done } else { s with phase := .waiting }

variable [Blake3] (job : RepushJob)

/-- What `send_one_push` sends, if it does not panic. -/
def request (chunkIndex : Nat) : Option ShardRequestV2 :=
  pushRequest job.file.manifest job.file.mapped job.file.tree chunkIndex

/-- On to the next target that has a peer, or to the loop. -/
def sendRest : List (Nat × Addr) → RepushChunks → RepushChunks
  | [], s => s.loopHead
  | t :: rest, s =>
      match job.peers.resolve t.2 with
      | none => sendRest rest s
      | some _ =>
          match request job t.1 with
          | none => { s with phase := .panicked }
          | some _ => { s with phase := .wave (t :: rest) }

def start (targets : List (Nat × Addr)) : RepushChunks := sendRest job targets (idle targets)

/-- An answer to a push that is waited for. -/
def onAnswer (s : RepushChunks) (key : Nat × PeerId) (archive : Addr) : Option Str → RepushChunks
  | none =>
      loopHead { s with
        results := s.results.insert (key.1, archive) .acknowledged
        awaiting := s.awaiting.erase key }
  | some e =>
      let n := (s.attempts.lookup key).getD 1
      if n ≤ job.pushRetries then
        match request job key.1 with
        | none => { s with phase := .panicked }
        | some _ =>
            { s with
              attempts := s.attempts.insert key n
              phase := .resending key archive n e }
      else
        loopHead { s with
          results := s.results.insert (key.1, archive) (.refused e)
          attempts := s.attempts.insert key n
          awaiting := s.awaiting.erase key }

/-- The body of the loop on one event. -/
def onEvent (s : RepushChunks) : SumNetEvent → RepushChunks
  | .shardReceivedV2 peerId (.pushAck ackedRoot chunkIndex error) _ =>
      let key := (chunkIndex, peerId)
      if ackedRoot ≠ job.merkleRoot ∨ key ∉ s.awaiting then s.loopHead
      else
        match s.byKey.lookup key with
        | none => { s with phase := .panicked }
        | some archive => onAnswer job s key archive error
  | _ => s.loopHead

/-- The first push to a target. -/
def onFirst (s : RepushChunks) (t : Nat × Addr) (key : Nat × PeerId) (ok : Bool) :
    RepushChunks :=
  let tried := { s with
    results := s.results.insert t .noAnswer
    byKey := s.byKey.insert key t.2 }
  if ok then
    { tried with
      attempts := tried.attempts.insert key 1
      awaiting := insert key tried.awaiting }
  else tried

/-- A refused push, sent again. -/
def onAgain (s : RepushChunks) (key : Nat × PeerId) (archive : Addr) (n : Nat) (e : Str)
    (ok : Bool) : RepushChunks :=
  if ok then { s with attempts := s.attempts.insert key (n + 1) }
  else
    { s with
      results := s.results.insert (key.1, archive) (.refused e)
      awaiting := s.awaiting.erase key }

/-- One entry, where the loop is ready for it. -/
def turn (s : RepushChunks) : RepushEntry (Nat × PeerId) → Option RepushChunks
  | .sent key ok =>
      match s.phase with
      | .wave (t :: rest) =>
          if t.1 = key.1 ∧ job.peers.resolve t.2 = some key.2 then
            some (sendRest job rest (s.onFirst t key ok))
          else none
      | .resending k archive n e =>
          if key = k then some (s.onAgain key archive n e ok).loopHead else none
      | _ => none
  | .read event =>
      match s.phase with
      | .waiting => some (onEvent job s event)
      | _ => none
  | .deadline =>
      match s.phase with
      | .waiting => some { s with phase := .done }
      | _ => none

end RepushChunks

/-- `repush_chunks`. -/
def RepushJob.repushChunks [Blake3] (job : RepushJob) (targets : List (Nat × Addr))
    (entries : List (RepushEntry (Nat × PeerId))) :
    Except RepushPause (Map (Nat × Addr) RepushResult) :=
  match entries.foldlM (RepushChunks.turn job) (RepushChunks.start job targets) with
  | none => .error .running
  | some s => s.phase.finish s.results

/-! ### The manifest -/

namespace RepushManifests

/-- Nothing sent. -/
def idle (archives : List Addr) : RepushManifests where
  phase := .waiting
  results := (archives.map fun a => (⟨a, .unreachable⟩ : Sigma fun _ => RepushResult)).toAList
  byPeer := ∅
  attempts := ∅

/-- The head of the loop. -/
def loopHead (s : RepushManifests) : RepushManifests :=
  if s.byPeer.keys = [] then { s with phase := .done } else { s with phase := .waiting }

variable (job : RepushJob)

/-- On to the next archive that has a peer, or to the loop. -/
def sendRest : List Addr → RepushManifests → RepushManifests
  | [], s => s.loopHead
  | a :: rest, s =>
      match job.peers.resolve a with
      | none => sendRest rest s
      | some _ => { s with phase := .wave (a :: rest) }

def start (archives : List Addr) : RepushManifests := sendRest job archives (idle archives)

/-- An answer to a push that is waited for. -/
def onAnswer (s : RepushManifests) (peer : PeerId) (archive : Addr) :
    Option Str → RepushManifests
  | none =>
      loopHead { s with
        results := s.results.insert archive .acknowledged
        byPeer := s.byPeer.erase peer }
  | some e =>
      let n := (s.attempts.lookup peer).getD 1
      if n ≤ job.pushRetries then
        { s with
          attempts := s.attempts.insert peer n
          phase := .resending peer archive n e }
      else
        loopHead { s with
          results := s.results.insert archive (.refused e)
          attempts := s.attempts.insert peer n
          byPeer := s.byPeer.erase peer }

/-- The body of the loop on one event. -/
def onEvent (s : RepushManifests) : SumNetEvent → RepushManifests
  | .shardReceivedV2 peerId (.manifestPushAck ackedRoot error) _ =>
      if ackedRoot ≠ job.merkleRoot then s.loopHead
      else
        match s.byPeer.lookup peerId with
        | none => s.loopHead
        | some archive => onAnswer job s peerId archive error
  | _ => s.loopHead

/-- The first push to an archive: only one that was sent is waited for. -/
def onFirst (s : RepushManifests) (archive : Addr) (peer : PeerId) (ok : Bool) :
    RepushManifests :=
  let tried := { s with results := s.results.insert archive .noAnswer }
  if ok then
    { tried with
      byPeer := tried.byPeer.insert peer archive
      attempts := tried.attempts.insert peer 1 }
  else tried

/-- A refused push, sent again. -/
def onAgain (s : RepushManifests) (peer : PeerId) (archive : Addr) (n : Nat) (e : Str)
    (ok : Bool) : RepushManifests :=
  if ok then { s with attempts := s.attempts.insert peer (n + 1) }
  else
    { s with
      results := s.results.insert archive (.refused e)
      byPeer := s.byPeer.erase peer }

/-- One entry, where the loop is ready for it. -/
def turn (s : RepushManifests) : RepushEntry PeerId → Option RepushManifests
  | .sent peer ok =>
      match s.phase with
      | .wave (a :: rest) =>
          if job.peers.resolve a = some peer then
            some (sendRest job rest (s.onFirst a peer ok))
          else none
      | .resending k archive n e =>
          if peer = k then some (s.onAgain peer archive n e ok).loopHead else none
      | _ => none
  | .read event =>
      match s.phase with
      | .waiting => some (onEvent job s event)
      | _ => none
  | .deadline =>
      match s.phase with
      | .waiting => some { s with phase := .done }
      | _ => none

end RepushManifests

/-- `repush_manifests`. -/
def RepushJob.repushManifests (job : RepushJob) (archives : Finset Addr)
    (entries : List (RepushEntry PeerId)) : Except RepushPause (Map Addr RepushResult) :=
  match entries.foldlM (RepushManifests.turn job)
      (RepushManifests.start job (archives.sort (· ≤ ·))) with
  | none => .error .running
  | some s => s.phase.finish s.results

/-! ### The report -/

structure RepushTarget where
  chunkIndex : Nat
  archive : Addr
  result : RepushResult

/-- The epoch as it was read again after the pushes. -/
inductive EpochCheck where
  | unchanged
  /-- With the pairs of the new epoch that were not acknowledged. -/
  | changed (before now : Nat) (notPushed : List (Nat × Addr))
  | unknown (e : TargetsError)

def EpochCheck.isUnchanged : EpochCheck → Bool
  | unchanged => true
  | changed .. | unknown _ => false

structure RepushReport where
  merkleRoot : Hash
  epoch : Nat
  active : Bool
  targets : List RepushTarget
  manifests : Map Addr RepushResult
  epochCheck : EpochCheck

def RepushReport.complete (report : RepushReport) : Bool :=
  report.targets.all (fun t => t.result = .acknowledged) &&
    report.manifests.entries.all (fun e => e.2 = .acknowledged) && report.epochCheck.isUnchanged

/-- What `RepushOutcome::Failed` carries. -/
inductive RepushFailure where
  | zeroReplication
  | notRegistered (merkleRoot : Hash)
  | rowQuery (e : Str)
  | stopped (stop : RepushStop)
  | targets (e : TargetsError)

def RepushFailure.message [SumchainWire] : RepushFailure → Option String
  | zeroReplication =>
      some "repush: assignment_replication_factor is 0; there are no assignment targets"
  | notRegistered merkleRoot =>
      some ("repush: file " ++ String.ofList (fileRootHex merkleRoot) ++
        " is not registered on chain")
  | rowQuery e => some ("repush: storage_getFileInfoV2 failed: " ++ String.ofList e)
  | stopped stop => stop.message
  | targets e => e.message

inductive RepushOutcome where
  | done (report : RepushReport)
  | abandonedOnChain (merkleRoot : Hash)
  | rootMismatch (expected actual : Hash)
  | identityMismatch (stop : RepushStop)
  | failed (failure : RepushFailure)

/-- The outcome of a call that ends before it asks for the targets. -/
def RepushStop.outcome : RepushStop → RepushOutcome
  | abandonedOnChain merkleRoot => .abandonedOnChain merkleRoot
  | rootMismatch expected actual => .rootMismatch expected actual
  | notOwner operatorB58 ownerB58 => .identityMismatch (.notOwner operatorB58 ownerB58)
  | differs mismatches => .identityMismatch (.differs mismatches)
  | stop => .failed (.stopped stop)

namespace RepushExit

def complete : Nat := 0
def error : Nat := 1
def incomplete : Nat := 3
def abandoned : Nat := 4
def rootMismatch : Nat := 5
def identityMismatch : Nat := 6

end RepushExit

def RepushOutcome.exitCode : RepushOutcome → Nat
  | done report =>
      if report.complete then RepushExit.complete
      else
        match report.epochCheck with
        | .unknown _ => RepushExit.error
        | _ => RepushExit.incomplete
  | abandonedOnChain _ => RepushExit.abandoned
  | rootMismatch .. => RepushExit.rootMismatch
  | identityMismatch _ => RepushExit.identityMismatch
  | failed _ => RepushExit.error

/-! ### The call -/

structure RepushParams where
  assignmentReplicationFactor : Nat
  pushRetries : Nat

/-- What a call meets, in the order in which it asks. -/
structure RepushWorld where
  row : Except Str (Option OwnedFilePage)
  content : Bytes
  first : AssignmentAnswers
  /-- The peers that are known after the wait for the archives. -/
  peers : MapPeerResolver
  chunkEntries : List (RepushEntry (Nat × PeerId))
  manifestEntries : List (RepushEntry PeerId)
  again : AssignmentAnswers

section

variable [AssignmentScore]

/-- The second reading of the epoch, compared with the first. -/
def epochCheck (epoch : Nat) (results : Map (Nat × Addr) RepushResult) :
    Except TargetsError (Nat × List (Nat × Addr)) → EpochCheck
  | .error e => .unknown e
  | .ok (now, newTargets) =>
      if now = epoch then .unchanged
      else
        .changed epoch now
          (newTargets.filter fun pair => results.lookup pair ≠ some .acknowledged)

/-- The results of the targets, each of which the source looks up without a test. -/
def reportTargets (targets : List (Nat × Addr)) (results : Map (Nat × Addr) RepushResult) :
    Except RepushPause (List RepushTarget) :=
  targets.mapM fun t =>
    match results.lookup t with
    | none => .error .panicked
    | some result => .ok ⟨t.1, t.2, result⟩

/-- `repush` with the file rebuilt and its targets known. -/
def repushTargets [Blake3] (params : RepushParams) (info : OwnedFilePage) (merkleRoot : Hash)
    (file : ReproducedFile) (epoch : Nat) (targets : List (Nat × Addr)) (world : RepushWorld) :
    Except RepushPause RepushReport := do
  let job : RepushJob := ⟨file, merkleRoot, params.pushRetries, world.peers⟩
  let results ← job.repushChunks targets world.chunkEntries
  let manifests ← job.repushManifests (targets.map Prod.snd).toFinset world.manifestEntries
  let now := latestAssignmentTargets world.again info.toStorageFileInfoV2 merkleRoot
    params.assignmentReplicationFactor
  let reported ← reportTargets targets results
  return ⟨merkleRoot, epoch, info.lifecycle.isActive, reported, manifests,
    epochCheck epoch results now⟩

/-- `repush`. -/
def IngestPipeline.repush [Blake3] [Bs58] [SumchainWire] [CryptoLib] (p : IngestPipeline)
    (params : RepushParams) (merkleRoot : Hash) (fileName : Str) (world : RepushWorld) :
    Except RepushPause RepushOutcome :=
  if params.assignmentReplicationFactor = 0 then .ok (.failed .zeroReplication)
  else
    match world.row with
    | .error e => .ok (.failed (.rowQuery e))
    | .ok none => .ok (.failed (.notRegistered merkleRoot))
    | .ok (some info) =>
        match p.repushFile info merkleRoot fileName world.content with
        | .error stop => .ok stop.outcome
        | .ok file =>
            match latestAssignmentTargets world.first info.toStorageFileInfoV2 merkleRoot
                params.assignmentReplicationFactor with
            | .error e => .ok (.failed (.targets e))
            | .ok (epoch, targets) =>
                (repushTargets params info merkleRoot file epoch targets world).map .done

end

end Snip
