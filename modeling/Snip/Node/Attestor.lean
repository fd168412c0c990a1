/-
The attestation of held chunks (`sum-node/src/assignment_attestor.rs`).

The chunks that are assigned here and held are cut into batches; each is submitted and
waited for before the next.  `Node/InboundV2` has the batches only; here are the calls
they are submitted with and the report of what became of them.  `AttestorRpc` is the part
of `ReassignRpc` that sends a transaction and asks for its status.
-/
import Mathlib.Data.Finset.Basic
import Snip.Node.InboundV2
import Snip.Node.TxBuilder

namespace Snip

structure AttestRequest where
  merkleRoot : Hash
  chunkCount : Nat
  snapshot : List Addr
  held : Finset Nat
  startingNonce : UInt64
  pollInterval : Nat
  batchTimeout : Nat

structure BatchOutcome where
  chunkIndices : List Nat
  nonce : UInt64
  txHash : Str
  finalizedAtHeight : Nat

inductive AttestError where
  | badParams (reason : String)
  | submit (nonce : UInt64) (chunkIndices : List Nat) (source : String)
  | wait (nonce : UInt64) (chunkIndices : List Nat) (txHash : Str) (source : TxWaitError)

structure AttestSummary where
  batches : List BatchOutcome
  error : Option AttestError

/-- `fully_attested`. -/
def AttestSummary.fullyAttested (s : AttestSummary) : Bool := s.error.isNone

structure AssignmentAttestor (σ : Type) where
  rpc : ReassignRpc σ
  signingKeySeed : Hash
  myAddr : Addr
  chainId : Nat
  feePerTx : Nat
  params : V2Params

namespace AssignmentAttestor

variable {σ : Type}

/-- The chunks to attest, ascending. -/
def attestSet [AssignmentScore] (a : AssignmentAttestor σ) (req : AttestRequest) : List Nat :=
  (chunksForArchiveV2 req.merkleRoot req.chunkCount req.snapshot
    a.params.assignmentReplicationFactor a.myAddr).filter (· ∈ req.held)

variable [SumchainWire] [OperationWire]

/-- The transaction of a batch. -/
def batchTx (a : AssignmentAttestor σ) (req : AttestRequest) (nonce : UInt64) (batch : List Nat) :
    Str :=
  buildAcceptAssignmentV2Tx a.signingKeySeed a.chainId nonce.toNat a.feePerTx req.merkleRoot batch

/--
The loop of `attest`.  The nonces count up in `u64`, and wrap; `clock k` is what the wait for the
`k`-th batch reads of the clock.
-/
def attestBatches (a : AssignmentAttestor σ) (req : AttestRequest) (clock : Nat → List Nat) :
    UInt64 → List (List Nat) → List BatchOutcome → ReassignM σ AttestSummary
  | _, [], batches => pure ⟨batches, none⟩
  | nonce, batch :: rest, batches => do
      let txHex := a.batchTx req nonce batch
      match ← Dialogue.ask (a.rpc.sendRawTransaction txHex) (.sendRaw txHex) with
      | .error e => pure ⟨batches, some (.submit nonce batch e)⟩
      | .ok txHash =>
      let times := clock batches.length
      match ← waitForFinalized a.rpc txHash (times.headD 0 + req.batchTimeout) times.tail with
      | .error e => pure ⟨batches, some (.wait nonce batch txHash e)⟩
      | .ok height =>
          attestBatches a req clock (nonce + 1) rest
            (batches ++ [⟨batch, nonce, txHash, height⟩])

/-- `attest`. -/
def attest [AssignmentScore] (a : AssignmentAttestor σ) (req : AttestRequest) (clock : Nat → List Nat) :
    ReassignM σ AttestSummary :=
  if a.params.maxChunkIndicesPerTx = 0 then
    pure ⟨[], some (.badParams
      "max_chunk_indices_per_tx must be > 0 (chain plan v3.2 default = 65,536)")⟩
  else if a.attestSet req = [] then pure ⟨[], none⟩
  else
    a.attestBatches req clock req.startingNonce
      (chunksOf a.params.maxChunkIndicesPerTx (a.attestSet req).length (a.attestSet req)) []

end AssignmentAttestor

end Snip
