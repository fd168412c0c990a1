/-
The push wave of an ingest, between the pipeline, the swarm and the archives.

`s2_push_chunks` (`sum-node/src/ingest_v2.rs`) first sends one push for every chunk
and archive it is assigned to, and only then reads events.  Its pushes go to the
swarm task over a channel whose sender waits for room; what the swarm has to report
comes back over a channel whose sender does not (`sum-net/src/swarm.rs`, `try_send`).
Both channels hold `CHANNEL_CAPACITY` items (`sum-net/src/lib.rs`).

A label is one move of one task.  The wait for the archives to be identified comes
before the first label; what it did not find is a field of the job.  Nobody reads the
event channel between the waits, so at the first label it may hold anything that the
swarm reported before.
-/
import Mathlib.Data.Finset.Sort
import Snip.Lib.Chan
import Snip.Lib.Steps
import Snip.Net.Events

namespace Snip

/-- `CHANNEL_CAPACITY`. -/
def channelCapacity : Nat := 256

/-- `MapPeerResolver`: the identified peers and the addresses they report. -/
structure MapPeerResolver where
  peerAddresses : Map PeerId Addr

/-- `resolve`: of several peers with the address, the smallest. -/
def MapPeerResolver.resolve (m : MapPeerResolver) (addr : Addr) : Option PeerId :=
  ((m.peerAddresses.entries.filter fun e => e.2 = addr).map Sigma.fst).min?

/-- `observe`: the peer-identity side of one event. -/
def MapPeerResolver.observe (m : MapPeerResolver) (event : SumNetEvent) : MapPeerResolver :=
  ⟨applyPeerEvent m.peerAddresses event⟩

/-- What `s2_push_chunks` is called with, and what it reads of the pipeline. -/
structure PushJob where
  merkleRoot : Hash
  chunkCount : Nat
  snapshot : List Addr
  chunksToPush : Finset Nat
  assignmentReplicationFactor : Nat
  pushRetries : Nat
  peers : MapPeerResolver
  /-- The archives that were not identified in time, if some were not. -/
  discoveryFailure : Option (List Addr)

namespace PushJob

variable [AssignmentScore]

def assigned (job : PushJob) (chunkIndex : Nat) : List Addr :=
  assignedArchives job.merkleRoot job.snapshot chunkIndex job.assignmentReplicationFactor

/-- The peers a chunk is pushed to. -/
def chunkPeers (job : PushJob) (chunkIndex : Nat) : List PeerId :=
  (job.assigned chunkIndex).filterMap job.peers.resolve

/-- One push for each chunk and each of its archives that has a peer. -/
def targets (job : PushJob) : List (Nat × PeerId) :=
  (List.range job.chunkCount).flatMap fun i =>
    if i ∈ job.chunksToPush then (job.chunkPeers i).map fun peer => (i, peer) else []

/-- Every archive that is assigned to some chunk of the file, pushed now or not. -/
def distinctAssigned (job : PushJob) : Finset Addr :=
  ((List.range job.chunkCount).flatMap job.assigned).toFinset

end PushJob

/-- `PushFailure`. -/
structure PushFailure where
  underReplicated : List Nat
  source : Option (List Addr)

/-- How a push ends: the archive's answer, or a request that failed. -/
inductive PushAnswer where
  | ack (error : Option Str)
  | failed (error : Str)

/-- Where `s2_push_chunks` is. -/
inductive S2Phase where
  /-- In the initial wave, with these pushes not sent yet. -/
  | wave (rest : List (Nat × PeerId))
  /-- In the loop, at `next_event` or the timer. -/
  | waiting
  /-- In the loop, sending a refused push again. -/
  | retrying (key : Nat × PeerId)
  | returned (result : Except PushFailure (Finset Addr))

structure S2State where
  phase : S2Phase
  attempts : Map (Nat × PeerId) Nat
  ackedPerChunk : Map Nat (Finset PeerId)
  /-- From the pipeline to the swarm. -/
  commands : Chan (Nat × PeerId) channelCapacity
  /-- Pushes that left the node and are not answered. -/
  atArchives : List (Nat × PeerId)
  /-- Answers that the swarm has not handled. -/
  onWire : List ((Nat × PeerId) × PushAnswer)
  /-- From the swarm to the pipeline. -/
  events : Chan SumNetEvent channelCapacity

/-- A move of the pipeline, of the swarm or of an archive. -/
inductive S2Label where
  | send
  | receive
  | deadline
  | command
  | response (i : Nat)
  | network (event : SumNetEvent)
  | answer (i : Nat) (answer : PushAnswer)

/-- What happens to the pipeline, as it sees it. -/
inductive S2Entry where
  /-- `send_one_push` returned: the swarm has the command, or is gone. -/
  | sent (key : Nat × PeerId) (ok : Bool)
  | read (event : SumNetEvent)
  /-- The timer ran out, or there are no events any more. -/
  | deadline

/-- `chunks_replicated_in`. -/
def chunksReplicatedIn (acks : Map Nat (Finset PeerId)) (chunks : Finset Nat)
    (replicationFactor : Nat) : Bool :=
  decide (∀ i ∈ chunks,
    ((acks.lookup i).map fun peers => decide (replicationFactor ≤ peers.card)).getD false = true)

/-- The chunks that the last audit reports. -/
def underReplicated (acks : Map Nat (Finset PeerId)) (chunks : Finset Nat)
    (replicationFactor : Nat) : List Nat :=
  (chunks.filter fun i =>
    ((acks.lookup i).map fun peers => decide (peers.card < replicationFactor)).getD true).sort
      (· ≤ ·)

namespace PushJob

variable [AssignmentScore]

/-- The head of the loop: done, or wait. -/
def loopHead (job : PushJob) (s : S2State) : S2State :=
  if chunksReplicatedIn s.ackedPerChunk job.chunksToPush job.assignmentReplicationFactor then
    { s with phase := .returned (.ok job.distinctAssigned) }
  else { s with phase := .waiting }

/-- On to the next push of the wave, or to the loop after the last one. -/
def sendRest (job : PushJob) (rest : List (Nat × PeerId)) (s : S2State) : S2State :=
  match rest with
  | [] => job.loopHead s
  | t :: rest => { s with phase := .wave (t :: rest) }

/-- Nothing sent, nothing heard: these events wait to be read. -/
def idle (job : PushJob) (waiting : Chan SumNetEvent channelCapacity) : S2State where
  phase := .waiting
  attempts := (job.targets.map fun t => (⟨t, 0⟩ : Sigma fun _ => Nat)).toAList
  ackedPerChunk := ∅
  commands := .empty
  atArchives := []
  onWire := []
  events := waiting

def start (job : PushJob) (waiting : Chan SumNetEvent channelCapacity) : S2State :=
  job.sendRest job.targets (job.idle waiting)

/-- The body of the loop on one event. -/
def onEvent (job : PushJob) (s : S2State) : SumNetEvent → S2State
  | .shardReceivedV2 peerId (.pushAck merkleRoot chunkIndex error) _ =>
      if merkleRoot ≠ job.merkleRoot then job.loopHead s
      else
        match s.attempts.lookup (chunkIndex, peerId) with
        -- An acknowledgement of a push that was never planned.
        | none => job.loopHead s
        | some attempt =>
            match error with
            | none =>
                let peers := (s.ackedPerChunk.lookup chunkIndex).getD ∅
                job.loopHead { s with
                  ackedPerChunk := s.ackedPerChunk.insert chunkIndex (insert peerId peers) }
            | some _ =>
                if attempt ≤ job.pushRetries then
                  { s with
                    attempts := s.attempts.insert (chunkIndex, peerId) (attempt + 1)
                    phase := .retrying (chunkIndex, peerId) }
                else job.loopHead s
  | _ => job.loopHead s

/-- The audit after the deadline. -/
def audit (job : PushJob) (s : S2State) : Except PushFailure (Finset Addr) :=
  match underReplicated s.ackedPerChunk job.chunksToPush job.assignmentReplicationFactor with
  | [] => .ok job.distinctAssigned
  | under => .error ⟨under, job.discoveryFailure⟩

/--
What the swarm reports when a push is over.  An answer that names another root or
chunk than the request is dropped before it becomes an event, so the event carries
the request's own.
-/
def eventOf (job : PushJob) (key : Nat × PeerId) : PushAnswer → SumNetEvent
  | .ack error =>
      .shardReceivedV2 key.2 (.pushAck job.merkleRoot key.1 error)
        ⟨key.2, .v2Push job.merkleRoot key.1⟩
  | .failed error => .shardRequestFailed key.2 error ⟨key.2, .v2Push job.merkleRoot key.1⟩

/-- One move, where it is possible. -/
def step (job : PushJob) (s : S2State) : S2Label → Option S2State
  | .send =>
      match s.phase with
      | .wave (t :: rest) =>
          (s.commands.send? t).map fun commands =>
            job.sendRest rest { s with commands, attempts := s.attempts.insert t 1 }
      | .retrying key =>
          (s.commands.send? key).map fun commands => job.loopHead { s with commands }
      | _ => none
  | .receive =>
      match s.phase with
      | .waiting =>
          s.events.recv?.map fun (event, events) => job.onEvent { s with events } event
      | _ => none
  | .deadline =>
      match s.phase with
      | .waiting => some { s with phase := .returned (job.audit s) }
      | _ => none
  | .command =>
      s.commands.recv?.map fun (t, commands) =>
        { s with commands, atArchives := s.atArchives ++ [t] }
  | .response i =>
      s.onWire[i]?.map fun (key, answer) =>
        { s with
          onWire := s.onWire.eraseIdx i
          events := s.events.trySend (job.eventOf key answer) }
  | .network event => some { s with events := s.events.trySend event }
  | .answer i answer =>
      s.atArchives[i]?.map fun t =>
        { s with
          atArchives := s.atArchives.eraseIdx i
          onWire := s.onWire ++ [(t, answer)] }

/-! ### The pipeline by itself

The same code, seen from inside: what it hands to the network layer and whether that
worked, and the events it reads in the order it reads them. -/

/-- The start, seen from inside: what is read comes with the entry, not from the channel. -/
def opening (job : PushJob) : S2State := job.start .empty

/-- One entry, where the pipeline is ready for it. -/
def turn (job : PushJob) (s : S2State) : S2Entry → Option S2State
  | .sent key ok =>
      match s.phase with
      | .wave (t :: rest) =>
          if key = t then
            some (job.sendRest rest
              (if ok then { s with attempts := s.attempts.insert t 1 } else s))
          else none
      -- The attempt is counted before the push is sent, whatever becomes of it.
      | .retrying k => if key = k then some (job.loopHead s) else none
      | _ => none
  | .read event =>
      match s.phase with
      | .waiting => some (job.onEvent s event)
      | _ => none
  | .deadline =>
      match s.phase with
      | .waiting => some { s with phase := .returned (job.audit s) }
      | _ => none

end PushJob

end Snip
