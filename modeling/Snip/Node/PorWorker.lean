/-
The two tasks of an archive that sign transactions with its key, and the chain they
send them to.

`PorWorker` (`sum-node/src/por_worker.rs`) polls for challenges and answers each with a
`SubmitStorageProof`; an attestation run (`sum-node/src/inbound_v2.rs`,
`assignment_attestor.rs`) sends batches of `AcceptAssignmentV2` under a lock of its own.
Both ask the chain for the next nonce and send later.  A label is one move of one task
or of the chain; an answer of the chain is part of the label.  The sleeps of the worker
between two polls are left out: a poll may start whenever the last one has returned.
-/
import Snip.Lib.Steps
import Snip.Node.Archive

namespace Snip

/-- `MAX_RESPONDED`. -/
def maxResponded : Nat := 500

/-- `ChallengeInfo`, as far as it is read. -/
structure ChallengeInfo where
  challengeId : Str
  merkleRoot : Str
  chunkIndex : Nat
deriving DecidableEq

inductive TxPayload where
  | submitStorageProof (challengeId merkleRoot : Hash) (chunkIndex : Nat) (chunkHash : Hash)
      (merklePath : List Hash)
  | acceptAssignmentV2 (merkleRoot : Hash) (chunkIndices : List Nat)
deriving DecidableEq

/-- A transaction; its signature is a function of the rest. -/
structure Tx where
  chainId : Nat
  nonce : Nat
  fee : Nat
  payload : TxPayload
deriving DecidableEq

/-- A transaction that the RPC took, and the listed challenge it answers, if it does. -/
structure Submission where
  tx : Tx
  challengeId : Option Str
deriving DecidableEq

/-- Where `poll_and_respond` is; `rest` are the challenges behind the one it is at. -/
inductive PorPhase where
  | asleep
  /-- At the head of the loop over the listed challenges. -/
  | polling (challenge : ChallengeInfo) (rest : List ChallengeInfo)
  /-- At `get_nonce`. -/
  | nonce (challenge : ChallengeInfo) (payload : TxPayload) (rest : List ChallengeInfo)
  /-- At `get_chain_id`. -/
  | chainId (challenge : ChallengeInfo) (payload : TxPayload) (nonce : Nat)
      (rest : List ChallengeInfo)
  /-- At `send_raw_transaction`. -/
  | send (challenge : ChallengeInfo) (tx : Tx) (rest : List ChallengeInfo)

/-- Where the attestation run that holds the lock is. -/
inductive AttestPhase where
  | unlocked
  /-- Before the file's shape, epoch and snapshot are read. -/
  | shape (merkleRoot : Hash) (held : List Nat)
  /-- At `fetch_nonce`. -/
  | nonce (merkleRoot : Hash) (batches : List (List Nat))
  /-- At `send_raw_transaction` of the first batch. -/
  | send (merkleRoot : Hash) (nonce : Nat) (batch : List Nat) (rest : List (List Nat))
  /-- In `wait_for_finalized`. -/
  | wait (merkleRoot : Hash) (nonce : Nat) (rest : List (List Nat))

structure SigningNode where
  /-- The ids of the challenges answered last, oldest first. -/
  responded : List Str
  por : PorPhase
  attestor : AttestPhase
  /-- Every transaction that the RPC took, oldest first. -/
  submitted : List Submission
  /-- Those the chain has neither included nor given up. -/
  pending : List Tx
  included : List Tx

def SigningNode.start : SigningNode := ⟨[], .asleep, .unlocked, [], [], []⟩

inductive SigningLabel where
  | porPoll (challenges : Except Str (List ChallengeInfo))
  | porConsider (store : SumStore)
  | porNonce (answer : Except Str Nat)
  | porChainId (answer : Except Str Nat)
  | porSend (answer : Except Str Unit)
  | attestLock (merkleRoot : Hash) (held : List Nat)
  | attestShape (rpc : ChainRpc)
  | attestNonce (answer : Except Str Nat)
  | attestSend (answer : Except Str Unit)
  | attestWait (finalized : Bool)
  /-- The chain includes a pending transaction. -/
  | includeTx (i : Nat)
  /-- A pending transaction fails or is dropped. -/
  | discardTx (i : Nat)

/-- What the attestor is built with. -/
structure AttestorConfig where
  params : V2Params
  myAddr : Addr
  chainId : Nat
  feePerTx : Nat

/-- The rest of the poll, or its end. -/
def PorPhase.after : List ChallengeInfo → PorPhase
  | [] => .asleep
  | challenge :: rest => .polling challenge rest

/-- The next batch, or the end of the run, which frees the lock. -/
def AttestPhase.after (merkleRoot : Hash) (nonce : Nat) : List (List Nat) → AttestPhase
  | [] => .unlocked
  | batch :: rest => .send merkleRoot nonce batch rest

/-- `responded`, one id longer: the oldest goes when the list is full. -/
def pushResponded (responded : List Str) (challengeId : Str) : List Str :=
  (if maxResponded ≤ responded.length then responded.drop 1 else responded) ++ [challengeId]

/-- The part of `respond_to_challenge` before the RPC calls: the proof to be sent, if there is one. -/
def proofFor [Blake3] (store : SumStore) (challenge : ChallengeInfo) : Option TxPayload :=
  match decodeRootHex challenge.merkleRoot with
  | none => none
  | some merkleRoot =>
      match decodeRootHex challenge.challengeId with
      | none => none
      | some challengeId =>
          match buildAnswer store.manifestIdx store.files merkleRoot challenge.chunkIndex with
          | .error _ => none
          | .ok answer =>
              some (.submitStorageProof challengeId merkleRoot challenge.chunkIndex
                answer.chunkHash answer.merklePath)

/-- The fee of a proof. -/
def proofFee : Nat := 1000000

/-- `fetch_file_shape`, `latest_assignment_epoch` and `fetch_snapshot` of an attestation run. -/
def attestationInputs (rpc : ChainRpc) (merkleRoot : Hash) : Option (Nat × List Addr) :=
  match rpc.fileInfoV2 merkleRoot with
  | .error _ | .ok none => none
  | .ok (some shape) =>
      match rpc.latestAssignmentEpoch merkleRoot with
      | .error _ => none
      | .ok latest =>
          let epoch := latest.getD shape.assignmentHeight
          if epoch < shape.assignmentHeight then none
          else
            match rpc.activeNodesAtHeight epoch with
            | .error _ => none
            | .ok raw => (decodeSnapshot raw).map fun snapshot => (shape.chunkCount, snapshot)

namespace SigningNode

/-- The RPC took a transaction. -/
def submit (s : SigningNode) (tx : Tx) (challengeId : Option Str) : SigningNode :=
  { s with
    submitted := s.submitted ++ [⟨tx, challengeId⟩]
    pending := s.pending ++ [tx] }

/-- The body of the loop over the challenges, up to the first RPC call. -/
def consider [Blake3] (s : SigningNode) (store : SumStore) (challenge : ChallengeInfo)
    (rest : List ChallengeInfo) : SigningNode :=
  if challenge.challengeId ∈ s.responded then { s with por := .after rest }
  else
    match proofFor store challenge with
    -- `failed to respond to challenge`: the poll goes on with the next one.
    | none => { s with por := .after rest }
    | some payload => { s with por := .nonce challenge payload rest }

/-- One move, where it is possible. -/
def step [Blake3] [AssignmentScore] (config : AttestorConfig) (s : SigningNode) :
    SigningLabel → Option SigningNode
  | .porPoll challenges =>
      match s.por with
      | .asleep =>
          match challenges with
          | .error _ => some s
          | .ok challenges => some { s with por := .after challenges }
      | _ => none
  | .porConsider store =>
      match s.por with
      | .polling challenge rest => some (s.consider store challenge rest)
      | _ => none
  | .porNonce answer =>
      match s.por with
      | .nonce challenge payload rest =>
          match answer with
          | .error _ => some { s with por := .after rest }
          | .ok nonce => some { s with por := .chainId challenge payload nonce rest }
      | _ => none
  | .porChainId answer =>
      match s.por with
      | .chainId challenge payload nonce rest =>
          match answer with
          | .error _ => some { s with por := .after rest }
          | .ok chainId =>
              some { s with por := .send challenge ⟨chainId, nonce, proofFee, payload⟩ rest }
      | _ => none
  | .porSend answer =>
      match s.por with
      | .send challenge tx rest =>
          match answer with
          | .error _ => some { s with por := .after rest }
          | .ok () =>
              some { s.submit tx (some challenge.challengeId) with
                responded := pushResponded s.responded challenge.challengeId
                por := .after rest }
      | _ => none
  | .attestLock merkleRoot held =>
      match s.attestor with
      | .unlocked =>
          -- A run with nothing held returns before it takes the lock.
          if held = [] then some s else some { s with attestor := .shape merkleRoot held }
      | _ => none
  | .attestShape rpc =>
      match s.attestor with
      | .shape merkleRoot held =>
          match attestationInputs rpc merkleRoot with
          | none => some { s with attestor := .unlocked }
          | some (chunkCount, snapshot) =>
              let batches := attest config.params config.myAddr merkleRoot chunkCount snapshot held
                fun _ => true
              some { s with attestor := .nonce merkleRoot batches }
      | _ => none
  | .attestNonce answer =>
      match s.attestor with
      | .nonce merkleRoot batches =>
          match answer with
          | .error _ => some { s with attestor := .unlocked }
          | .ok nonce => some { s with attestor := .after merkleRoot nonce batches }
      | _ => none
  | .attestSend answer =>
      match s.attestor with
      | .send merkleRoot nonce batch rest =>
          match answer with
          | .error _ => some { s with attestor := .unlocked }
          | .ok () =>
              some { s.submit ⟨config.chainId, nonce, config.feePerTx,
                  .acceptAssignmentV2 merkleRoot batch⟩ none with
                attestor := .wait merkleRoot nonce rest }
      | _ => none
  | .attestWait finalized =>
      match s.attestor with
      | .wait merkleRoot nonce rest =>
          if finalized then some { s with attestor := .after merkleRoot (nonce + 1) rest }
          else some { s with attestor := .unlocked }
      | _ => none
  | .includeTx i =>
      s.pending[i]?.map fun tx =>
        { s with pending := s.pending.eraseIdx i, included := s.included ++ [tx] }
  | .discardTx i =>
      s.pending[i]?.map fun _ => { s with pending := s.pending.eraseIdx i }

end SigningNode

end Snip
