/-
The wait for the archives before a push wave.

`required_archives` says whom the wave is going to push to, `ArchiveDiscovery` counts
which of them are identified and connected (`sum-node/src/peer_discovery.rs`), and
`await_archives` reads network events until none is missing or the deadline has passed
(`sum-node/src/ingest_v2.rs`).  Every event goes into two maps from peers to addresses,
the resolver's and the discovery's own; the discovery starts with one peer for each
required address that the resolver resolves.
-/
import Snip.Node.IngestV2

namespace Snip

/-- `DiscoveryStatus`. -/
inductive DiscoveryStatus where
  | complete
  | waiting (missing : Nat)
  | timedOut (missing : List Addr)
deriving DecidableEq

/-- `DiscoveryFailure`. -/
inductive DiscoveryFailure where
  | timedOut (required : Nat) (missing : List Addr) (waited : Nat)
  | networkClosed (required : Nat) (missing : List Addr)
deriving DecidableEq

/-- The required archives that were never identified. -/
def DiscoveryFailure.missing : DiscoveryFailure → List Addr
  | .timedOut _ missing _ | .networkClosed _ missing => missing

structure ArchiveDiscovery where
  required : Finset Addr
  deadline : Nat
  live : Map PeerId Addr

namespace ArchiveDiscovery

def new (required : Finset Addr) (deadline : Nat) : ArchiveDiscovery := ⟨required, deadline, ∅⟩

/-- A peer that is already known to be identified and connected. -/
def seed (d : ArchiveDiscovery) (peer : PeerId) (address : Addr) : ArchiveDiscovery :=
  { d with live := d.live.insert peer address }

def observe (d : ArchiveDiscovery) (event : SumNetEvent) : ArchiveDiscovery :=
  { d with live := applyPeerEvent d.live event }

/-- Required archives with no live identified peer, in address order. -/
def missing (d : ArchiveDiscovery) : List Addr :=
  let identified := d.live.entries.map Sigma.snd
  (d.required.sort (· ≤ ·)).filter (· ∉ identified)

/-- Completion comes before the deadline. -/
def status (d : ArchiveDiscovery) (now : Nat) : DiscoveryStatus :=
  let missing := d.missing
  if missing = [] then .complete
  else if d.deadline ≤ now then .timedOut missing
  else .waiting missing.length

end ArchiveDiscovery

/-! ### Whom the wave needs -/

section

variable [AssignmentScore]

/-- The loop over the chunks, left when every archive is required. -/
def gatherRequired (merkleRoot : Hash) (snapshot : List Addr) (r : Nat) :
    List Nat → Finset Addr → Finset Addr
  | [], required => required
  | i :: chunks, required =>
      let required := required ∪ (assignedArchives merkleRoot snapshot i r).toFinset
      if required.card = snapshot.toFinset.card then required
      else gatherRequired merkleRoot snapshot r chunks required

/-- `required_archives`. -/
def requiredArchives (merkleRoot : Hash) (snapshot : List Addr) (chunks : List Nat) (r : Nat) :
    Finset Addr :=
  let all := snapshot.toFinset
  if chunks = [] ∨ r = 0 then ∅
  else if all.card ≤ r then all
  else gatherRequired merkleRoot snapshot r chunks ∅

end

/-! ### The wait -/

/-- What ends one turn of the loop: an event, the end of the events, or the timer. -/
inductive Wake where
  | event (event : SumNetEvent)
  | closed
  | timer

/-- One peer for each required address that the resolver resolves. -/
def seededDiscovery (peers : MapPeerResolver) (required : Finset Addr) (deadline : Nat) :
    ArchiveDiscovery :=
  (required.sort (· ≤ ·)).foldl
    (fun d addr =>
      match peers.resolve addr with
      | some peer => d.seed peer addr
      | none => d)
    (.new required deadline)

/--
The loop, with the clock as each turn reads it; `none` while it waits.  The resolver
that comes out is what the push waves resolve with.
-/
def awaitLoop (discoveryTimeout : Nat) (d : ArchiveDiscovery) (peers : MapPeerResolver) (now : Nat)
    (wakes : List (Wake × Nat)) : Option (Except DiscoveryFailure Unit × MapPeerResolver) :=
  match d.status now with
  | .complete => some (.ok (), peers)
  | .timedOut missing => some (.error (.timedOut d.required.card missing discoveryTimeout), peers)
  | .waiting _ =>
      match wakes with
      | [] => none
      | (.timer, now) :: wakes => awaitLoop discoveryTimeout d peers now wakes
      | (.closed, _) :: _ => some (.error (.networkClosed d.required.card d.missing), peers)
      | (.event event, now) :: wakes =>
          awaitLoop discoveryTimeout (d.observe event) (peers.observe event) now wakes

/-- `await_archives`. -/
def awaitArchives (discoveryTimeout : Nat) (peers : MapPeerResolver) (required : Finset Addr)
    (started : Nat) (wakes : List (Wake × Nat)) :
    Option (Except DiscoveryFailure Unit × MapPeerResolver) :=
  awaitLoop discoveryTimeout (seededDiscovery peers required (started + discoveryTimeout)) peers
    started wakes

end Snip
