/-
What an attestation run submits, and what it says it did.

One batch follows the other only when the node has called the first one final.  So the
log of a run is the logs of its final batches, one after the other, and of at most one
more that failed; `AttestRun` says that, and the report is read off it.
-/
import Snip.Node.Attestor
import Snip.Proofs.Reassign
import Snip.Proofs.Assignment

namespace Snip

open Dialogue

/-! ### Batches -/

theorem flatten_chunksOf {α : Type} {size : Nat} (hsize : 0 < size) : ∀ (fuel : Nat) (items : List α),
    items.length ≤ fuel → (chunksOf size fuel items).flatten = items := by
  intro fuel
  induction fuel with
  | zero =>
      intro items h
      rw [List.length_eq_zero_iff.mp (Nat.le_zero.mp h)]
      rfl
  | succ fuel ih =>
      intro items h
      cases items with
      | nil => rfl
      | cons x items =>
          have hrest := ih ((x :: items).drop size) (by
            rw [List.length_drop, List.length_cons]
            rw [List.length_cons] at h
            omega)
          show (x :: items).take size ++ (chunksOf size fuel ((x :: items).drop size)).flatten = _
          rw [hrest, List.take_append_drop]

/-- The batches are cut at the multiples of the size, and none is empty. -/
theorem getElem?_chunksOf {α : Type} {size : Nat} (hsize : 0 < size) : ∀ (fuel : Nat) (items : List α)
    {k : Nat} {batch : List α}, (chunksOf size fuel items)[k]? = some batch →
      batch = (items.drop (k * size)).take size ∧ batch ≠ [] := by
  intro fuel
  induction fuel with
  | zero =>
      intro items k batch h
      cases h
  | succ fuel ih =>
      intro items k batch h
      cases items with
      | nil => cases h
      | cons x items =>
          cases k with
          | zero =>
              obtain rfl : (x :: items).take size = batch := Option.some.inj h
              refine ⟨by rw [Nat.zero_mul, List.drop_zero], ?_⟩
              rw [Ne, List.take_eq_nil_iff]
              simp only [List.cons_ne_nil, or_false]
              omega
          | succ k =>
              obtain ⟨hbatch, hne⟩ := ih ((x :: items).drop size) h
              refine ⟨?_, hne⟩
              rw [hbatch, List.drop_drop, Nat.succ_mul, Nat.add_comm]

/-! ### The wait for one batch -/

/-- A poll that decides nothing. -/
def Unsettled (txHash : Str) (call : RpcCall) : Prop :=
  ∃ status : TxStatusV2, call = .txStatus txHash (.ok status) ∧ status.settled? = none

theorem settled_ok_iff {status : TxStatusV2} {height : Nat} :
    status.settled? = some (.ok height) ↔ status = .finalized height := by
  cases status <;> simp [TxStatusV2.settled?]

/-- What a wait has seen: nothing that settles it, then the answer it returns. -/
structure Waited (txHash : Str) (log : List RpcCall) (result : Except TxWaitError Nat) : Prop where
  split : ∃ polls last, log = polls ++ [.txStatus txHash last] ∧ (∀ p ∈ polls, Unsettled txHash p) ∧
    ∀ height, result = .ok height ↔ last = .ok (.finalized height)

theorem Waited.later {txHash : Str} {log : List RpcCall} {result : Except TxWaitError Nat}
    {call : RpcCall} (hcall : Unsettled txHash call) (h : Waited txHash log result) :
    Waited txHash (call :: log) result := by
  obtain ⟨polls, last, rfl, hpolls, hlast⟩ := h.split
  refine ⟨call :: polls, last, rfl, ?_, hlast⟩
  intro p hp
  rcases List.mem_cons.mp hp with rfl | hp
  · exact hcall
  · exact hpolls p hp

/-- A submission and its polls are one transaction. -/
theorem sent_polled (tx txHash : Str) (answer : Except String Str) (last : Except String TxStatusV2)
    {polls : List RpcCall} (h : ∀ p ∈ polls, Unsettled txHash p) :
    (RpcCall.sendRaw tx answer :: (polls ++ [.txStatus txHash last])).filterMap RpcCall.sent? = [tx] := by
  have hquiet : Quiet RpcCall.sent? polls := by
    intro p hp
    obtain ⟨status, rfl, -⟩ := h p hp
    rfl
  show tx :: (polls ++ [RpcCall.txStatus txHash last]).filterMap RpcCall.sent? = [tx]
  rw [List.filterMap_append, filterMap_eq_nil_of_quiet hquiet]
  rfl

section

variable {σ : Type}

/-- The last poll of a wait, and the result it gives. -/
theorem Waited.last {txHash : Str} {answer : Except String TxStatusV2} {result : Except TxWaitError Nat}
    (h : ∀ height, result = .ok height ↔ answer = .ok (.finalized height)) :
    Waited txHash [.txStatus txHash answer] result :=
  ⟨[], answer, rfl, (fun _ hp => nomatch hp), h⟩

/-- **A wait returns a height when, and only when, it has seen the transaction final.** -/
theorem waitForFinalized_spec (rpc : ReassignRpc σ) (txHash : Str) (deadline : Nat) (clock : List Nat) :
    Ensures (waitForFinalized rpc txHash deadline clock) (Waited txHash) := by
  induction clock with
  | nil =>
      refine Ensures.ask ?_
      intro answer
      cases answer with
      | error e =>
          refine .pure (Waited.last ?_)
          intro height
          simp
      | ok status =>
          refine .pure (Waited.last ?_)
          intro height
          rw [Except.ok.injEq, ← settled_ok_iff]
          cases status.settled? with
          | none => simp
          | some result => simp
  | cons now clock ih =>
      refine Ensures.ask ?_
      intro answer
      cases answer with
      | error e =>
          refine .pure (Waited.last ?_)
          intro height
          simp
      | ok status =>
          dsimp only
          cases hsettled : status.settled? with
          | some result =>
              refine .pure (Waited.last ?_)
              intro height
              rw [Except.ok.injEq, ← settled_ok_iff, hsettled, Option.some.injEq]
          | none =>
              by_cases hdeadline : deadline ≤ now
              · simp only [if_pos hdeadline]
                refine .pure (Waited.last ?_)
                intro height
                rw [Except.ok.injEq, ← settled_ok_iff, hsettled]
                simp
              · simp only [if_neg hdeadline]
                exact ih.mono fun log result h => h.later ⟨status, rfl, hsettled⟩

end

/-! ### A run -/

/-- How many batches were submitted: the final ones, and the one that failed. -/
def submittedBatches (outcomes : List BatchOutcome) (error : Option AttestError) : Nat :=
  outcomes.length + if error.isSome then 1 else 0

theorem nonce_succ (nonce : UInt64) (k : Nat) :
    nonce + 1 + UInt64.ofNat k = nonce + UInt64.ofNat (k + 1) := by
  rw [UInt64.ofNat_add, UInt64.add_assoc, UInt64.add_comm 1]
  rfl

namespace AssignmentAttestor

variable {σ : Type} [SumchainWire] [OperationWire]

/-- The node's answers about a batch that became final. -/
def Finalizes (a : AssignmentAttestor σ) (req : AttestRequest) (log : List RpcCall) (b : BatchOutcome) :
    Prop :=
  ∃ polls, (∀ p ∈ polls, Unsettled b.txHash p) ∧
    log = .sendRaw (a.batchTx req b.nonce b.chunkIndices) (.ok b.txHash) ::
      (polls ++ [.txStatus b.txHash (.ok (.finalized b.finalizedAtHeight))])

/-- The node's answers about a batch that failed: none of them calls it final. -/
def Fails (a : AssignmentAttestor σ) (req : AttestRequest) (nonce : UInt64) (batch : List Nat)
    (log : List RpcCall) : AttestError → Prop
  | .badParams _ => False
  | .submit nonce' batch' source =>
      nonce' = nonce ∧ batch' = batch ∧ log = [.sendRaw (a.batchTx req nonce batch) (.error source)]
  | .wait nonce' batch' txHash _ =>
      nonce' = nonce ∧ batch' = batch ∧ ∃ polls last, (∀ p ∈ polls, Unsettled txHash p) ∧
        (∀ height, last ≠ .ok (.finalized height)) ∧
        log = .sendRaw (a.batchTx req nonce batch) (.ok txHash) :: (polls ++ [.txStatus txHash last])

/-- What comes after the final batches: nothing if they are all, or the one that failed. -/
def Ends (a : AssignmentAttestor σ) (req : AttestRequest) (nonce : UInt64) (rest : List (List Nat))
    (final : Nat) (log : List RpcCall) : Option AttestError → Prop
  | none => log = [] ∧ final = rest.length
  | some e => ∃ batch, rest[final]? = some batch ∧
      a.Fails req (nonce + UInt64.ofNat final) batch log e

/-- The run over the batches, from a nonce on: the log, the final batches and the error. -/
inductive AttestRun (a : AssignmentAttestor σ) (req : AttestRequest) :
    UInt64 → List (List Nat) → List RpcCall → List BatchOutcome → Option AttestError → Prop where
  | done {nonce : UInt64} : AttestRun a req nonce [] [] [] none
  | final {nonce : UInt64} {batch : List Nat} {rest : List (List Nat)} {segment log : List RpcCall}
      {b : BatchOutcome} {outcomes : List BatchOutcome} {error : Option AttestError}
      (hsegment : a.Finalizes req segment b) (hnonce : b.nonce = nonce) (hbatch : b.chunkIndices = batch)
      (hrest : AttestRun a req (nonce + 1) rest log outcomes error) :
      AttestRun a req nonce (batch :: rest) (segment ++ log) (b :: outcomes) error
  | failed {nonce : UInt64} {batch : List Nat} {rest : List (List Nat)} {log : List RpcCall}
      {error : AttestError} (hfails : a.Fails req nonce batch log error) :
      AttestRun a req nonce (batch :: rest) log [] (some error)

/-- The loop is such a run. -/
theorem attestBatches_spec (a : AssignmentAttestor σ) (req : AttestRequest) (clock : Nat → List Nat) :
    ∀ (rest : List (List Nat)) (nonce : UInt64) (before : List BatchOutcome),
      Ensures (a.attestBatches req clock nonce rest before) fun log summary =>
        ∃ outcomes, summary.batches = before ++ outcomes ∧
          AttestRun a req nonce rest log outcomes summary.error := by
  intro rest
  induction rest with
  | nil =>
      intro nonce before
      exact .pure ⟨[], (List.append_nil _).symm, .done⟩
  | cons batch rest ih =>
      intro nonce before
      refine Ensures.ask ?_
      intro answer
      cases answer with
      | error e => exact .pure ⟨[], (List.append_nil _).symm, .failed ⟨rfl, rfl, rfl⟩⟩
      | ok txHash =>
          refine Ensures.bind (waitForFinalized_spec a.rpc txHash _ _) ?_
          intro waited result hwaited
          obtain ⟨polls, last, rfl, hpolls, hlast⟩ := hwaited.split
          cases result with
          | error e =>
              refine .pure ⟨[], (List.append_nil _).symm, .failed ⟨rfl, rfl, polls, last, hpolls, ?_, ?_⟩⟩
              · intro height hfinal
                cases (hlast height).mpr hfinal
              · rw [List.append_nil]
          | ok height =>
              obtain rfl := (hlast height).mp rfl
              refine (ih (nonce + 1) (before ++ [⟨batch, nonce, txHash, height⟩])).mono ?_
              rintro log summary ⟨outcomes, hbatches, hrun⟩
              refine ⟨⟨batch, nonce, txHash, height⟩ :: outcomes, ?_, ?_⟩
              · rw [hbatches, List.append_assoc]
                rfl
              · rw [← List.cons_append]
                exact .final ⟨polls, hpolls, rfl⟩ rfl rfl hrun

/-- One transaction a batch. -/
theorem Finalizes.sent {a : AssignmentAttestor σ} {req : AttestRequest} {log : List RpcCall}
    {b : BatchOutcome} (h : a.Finalizes req log b) :
    log.filterMap RpcCall.sent? = [a.batchTx req b.nonce b.chunkIndices] := by
  obtain ⟨polls, hpolls, rfl⟩ := h
  exact sent_polled _ _ _ _ hpolls

theorem Fails.sent {a : AssignmentAttestor σ} {req : AttestRequest} {nonce : UInt64} {batch : List Nat}
    {log : List RpcCall} {error : AttestError} (h : a.Fails req nonce batch log error) :
    log.filterMap RpcCall.sent? = [a.batchTx req nonce batch] := by
  cases error with
  | badParams reason => cases h
  | submit nonce' batch' source =>
      obtain ⟨-, -, rfl⟩ := h
      rfl
  | wait nonce' batch' txHash source =>
      obtain ⟨-, -, polls, last, hpolls, -, rfl⟩ := h
      exact sent_polled _ _ _ _ hpolls

namespace AttestRun

variable {a : AssignmentAttestor σ} {req : AttestRequest} {nonce : UInt64} {rest : List (List Nat)}
  {log : List RpcCall} {outcomes : List BatchOutcome} {error : Option AttestError}

/-- The transactions, in order. -/
theorem sent (h : AttestRun a req nonce rest log outcomes error) :
    log.filterMap RpcCall.sent? = (rest.take (submittedBatches outcomes error)).mapIdx fun k batch =>
      a.batchTx req (nonce + UInt64.ofNat k) batch := by
  induction h with
  | done => rfl
  | failed hfails =>
      rw [hfails.sent]
      simp [submittedBatches]
  | @final nonce batch rest segment log b outcomes error hsegment hnonce hbatch hrest ih =>
      have hcount : submittedBatches (b :: outcomes) error = submittedBatches outcomes error + 1 := by
        unfold submittedBatches
        rw [List.length_cons]
        omega
      rw [List.filterMap_append, hsegment.sent, ih, hcount, List.take_succ_cons, List.mapIdx_cons,
        hnonce, hbatch]
      simp [nonce_succ]

/-- What the report says of the final batches. -/
theorem reported (h : AttestRun a req nonce rest log outcomes error) :
    (outcomes.map fun b => (b.nonce, b.chunkIndices))
      = (rest.take outcomes.length).mapIdx fun k batch => (nonce + UInt64.ofNat k, batch) := by
  induction h with
  | done => rfl
  | failed hfails => rfl
  | @final nonce batch rest segment log b outcomes error hsegment hnonce hbatch hrest ih =>
      rw [List.map_cons, ih, List.length_cons, List.take_succ_cons, List.mapIdx_cons, hnonce, hbatch]
      simp [nonce_succ]

/-- The log: the final batches, and then the one that failed. -/
theorem segments (h : AttestRun a req nonce rest log outcomes error) :
    ∃ parts tail, log = parts.flatten ++ tail ∧ List.Forall₂ (a.Finalizes req) parts outcomes ∧
      a.Ends req nonce rest outcomes.length tail error := by
  induction h with
  | done => exact ⟨[], [], rfl, .nil, rfl, rfl⟩
  | @failed nonce batch rest log error hfails =>
      refine ⟨[], log, rfl, .nil, batch, rfl, ?_⟩
      have hzero : nonce + UInt64.ofNat ([] : List BatchOutcome).length = nonce := by simp
      rw [hzero]
      exact hfails
  | @final nonce batch rest segment log b outcomes error hsegment hnonce hbatch hrest ih =>
      obtain ⟨parts, tail, rfl, hparts, hend⟩ := ih
      refine ⟨segment :: parts, tail, ?_, .cons hsegment hparts, ?_⟩
      · rw [List.flatten_cons, List.append_assoc]
      · cases error with
        | none =>
            obtain ⟨htail, hlen⟩ := hend
            exact ⟨htail, by rw [List.length_cons, List.length_cons, hlen]⟩
        | some e =>
            obtain ⟨batch', hget, hfails⟩ := hend
            refine ⟨batch', ?_, ?_⟩
            · rw [List.length_cons, List.getElem?_cons_succ]
              exact hget
            · rw [List.length_cons, ← nonce_succ]
              exact hfails

end AttestRun

end AssignmentAttestor

/-! ### The report -/

namespace AssignmentAttestor

theorem attestSet_ascending {σ : Type} [AssignmentScore] (a : AssignmentAttestor σ)
    (req : AttestRequest) : (a.attestSet req).Pairwise (· < ·) := by
  unfold attestSet chunksForArchiveV2
  dsimp only
  apply List.Pairwise.filter
  split
  · exact .nil
  · exact List.pairwise_lt_range.filter _

/-- The batches, in order. -/
def batches {σ : Type} [AssignmentScore] (a : AssignmentAttestor σ) (req : AttestRequest) :
    List (List Nat) :=
  chunksOf a.params.maxChunkIndicesPerTx (a.attestSet req).length (a.attestSet req)

variable {σ : Type} [SumchainWire] [OperationWire]

theorem AttestRun.chunkIndices {a : AssignmentAttestor σ} {req : AttestRequest} {nonce : UInt64}
    {rest : List (List Nat)} {log : List RpcCall} {outcomes : List BatchOutcome}
    {error : Option AttestError} (h : AttestRun a req nonce rest log outcomes error) :
    outcomes.map BatchOutcome.chunkIndices = rest.take outcomes.length := by
  induction h with
  | done => rfl
  | failed hfails => rfl
  | final hsegment hnonce hbatch hrest ih =>
      rw [List.map_cons, ih, List.length_cons, List.take_succ_cons, hbatch]

variable [AssignmentScore]

/-- The promises of a run, for one node and request. -/
structure AttestReport (a : AssignmentAttestor σ) (req : AttestRequest) (log : List RpcCall)
    (summary : AttestSummary) : Prop where
  /-- The transactions sent, in order: the first batches, with the nonces from the first on. -/
  submitted : log.filterMap RpcCall.sent?
    = ((a.batches req).take (submittedBatches summary.batches summary.error)).mapIdx fun k batch =>
        a.batchTx req (req.startingNonce + UInt64.ofNat k) batch
  /-- What they carry is a prefix of the ascending list of assigned and held chunks, -/
  carried : ((a.batches req).take (submittedBatches summary.batches summary.error)).flatten
    <+: a.attestSet req
  ascending : (a.attestSet req).Pairwise (· < ·)
  /-- cut at the multiples of the cap only. -/
  boundaries : ∀ k batch, (a.batches req)[k]? = some batch →
    batch = ((a.attestSet req).drop (k * a.params.maxChunkIndicesPerTx)).take
      a.params.maxChunkIndicesPerTx ∧ batch ≠ []
  /-- The report lists the first batches with their nonces; -/
  reported : (summary.batches.map fun b => (b.nonce, b.chunkIndices))
    = ((a.batches req).take summary.batches.length).mapIdx fun k batch =>
        (req.startingNonce + UInt64.ofNat k, batch)
  /-- these the node called final, and the one after them failed, or there is none. -/
  finalized : ∃ parts tail, log = parts.flatten ++ tail ∧
    List.Forall₂ (a.Finalizes req) parts summary.batches ∧
    a.Ends req req.startingNonce (a.batches req) summary.batches.length tail summary.error
  complete : summary.error = none ↔
    summary.batches.flatMap BatchOutcome.chunkIndices = a.attestSet req
  nothing : a.attestSet req = [] → log = []

/-- A run over the batches keeps the promises. -/
theorem AttestRun.report {a : AssignmentAttestor σ} {req : AttestRequest} {log : List RpcCall}
    {summary : AttestSummary} (hcap : a.params.maxChunkIndicesPerTx ≠ 0)
    (h : AttestRun a req req.startingNonce (a.batches req) log summary.batches summary.error) :
    a.AttestReport req log summary := by
  have hpos : 0 < a.params.maxChunkIndicesPerTx := Nat.pos_of_ne_zero hcap
  have hflat : (a.batches req).flatten = a.attestSet req :=
    flatten_chunksOf hpos _ _ (Nat.le_refl _)
  have hinit : ∀ n, ((a.batches req).take n).flatten <+: a.attestSet req := by
    intro n
    refine ⟨((a.batches req).drop n).flatten, ?_⟩
    rw [← List.flatten_append, List.take_append_drop, hflat]
  have hbounds : ∀ k batch, (a.batches req)[k]? = some batch →
      batch = ((a.attestSet req).drop (k * a.params.maxChunkIndicesPerTx)).take
        a.params.maxChunkIndicesPerTx ∧ batch ≠ [] := fun k batch hbatch =>
    getElem?_chunksOf hpos _ _ hbatch
  have hdone : summary.batches.flatMap BatchOutcome.chunkIndices
      = ((a.batches req).take summary.batches.length).flatten := by
    rw [← h.chunkIndices, List.flatMap_def]
  obtain ⟨parts, tail, hlog, hparts, hend⟩ := h.segments
  refine ⟨h.sent, hinit _, a.attestSet_ascending req, hbounds, h.reported,
    ⟨parts, tail, hlog, hparts, hend⟩, ⟨?_, ?_⟩, ?_⟩
  · intro hnone
    rw [hnone] at hend
    rw [hdone, hend.2, List.take_length, hflat]
  · intro hall
    cases herror : summary.error with
    | none => rfl
    | some e =>
        rw [herror] at hend
        obtain ⟨batch, hget, -⟩ := hend
        -- what the failed batch carries would be missing
        obtain ⟨hlt, rfl⟩ := List.getElem?_eq_some_iff.mp hget
        have hrest : ((a.batches req).drop summary.batches.length).flatten = [] := by
          have hsplit := congrArg List.flatten
            (List.take_append_drop summary.batches.length (a.batches req))
          rw [List.flatten_append, ← hdone, hall, hflat] at hsplit
          exact List.append_right_eq_self.mp hsplit
        rw [List.drop_eq_getElem_cons hlt, List.flatten_cons, List.append_eq_nil_iff] at hrest
        exact absurd hrest.1 (hbounds _ _ hget).2
  · intro hempty
    have hbatches : a.batches req = [] := by
      unfold batches
      rw [hempty]
      rfl
    rw [hbatches] at h
    generalize summary.batches = outcomes at h
    generalize summary.error = error at h
    cases h
    rfl

theorem attest_keeps (a : AssignmentAttestor σ) (req : AttestRequest) (clock : Nat → List Nat)
    (node : σ) (hcap : a.params.maxChunkIndicesPerTx ≠ 0) :
    a.AttestReport req (a.attest req clock node).2.1 (a.attest req clock node).1 := by
  unfold attest
  rw [if_neg hcap]
  by_cases hempty : a.attestSet req = []
  · rw [if_pos hempty]
    apply AttestRun.report hcap
    have hbatches : a.batches req = [] := by
      unfold batches
      rw [hempty]
      rfl
    rw [hbatches]
    exact .done
  · rw [if_neg hempty]
    obtain ⟨outcomes, hbatches, hrun⟩ :=
      attestBatches_spec a req clock (a.batches req) req.startingNonce [] node
    rw [List.nil_append] at hbatches
    rw [← hbatches] at hrun
    exact AttestRun.report hcap hrun

/--
**An attestation run submits the first batches in order, stops at the first that fails, and
reports exactly the final ones.**  A cap of nothing per transaction is refused before.
-/
theorem attest_report (a : AssignmentAttestor σ) (req : AttestRequest) (clock : Nat → List Nat)
    (node : σ) :
    (a.params.maxChunkIndicesPerTx = 0 → (a.attest req clock node).2.1 = [] ∧
      (a.attest req clock node).1.batches = [] ∧
      ∃ reason, (a.attest req clock node).1.error = some (.badParams reason)) ∧
    (a.params.maxChunkIndicesPerTx ≠ 0 →
      a.AttestReport req (a.attest req clock node).2.1 (a.attest req clock node).1) := by
  refine ⟨?_, a.attest_keeps req clock node⟩
  intro hcap
  unfold attest
  rw [if_pos hcap]
  exact ⟨rfl, rfl, _, rfl⟩

/-- The batches of `Node/InboundV2` are the ones that such a run submits. -/
theorem AttestReport.batches_eq_attest {a : AssignmentAttestor σ} {req : AttestRequest}
    {log : List RpcCall} {summary : AttestSummary} (h : a.AttestReport req log summary)
    (hcap : a.params.maxChunkIndicesPerTx ≠ 0) {held : List Nat} (hheld : ∀ i, i ∈ held ↔ i ∈ req.held) :
    (a.batches req).take (submittedBatches summary.batches summary.error)
      = Snip.attest a.params a.myAddr req.merkleRoot req.chunkCount req.snapshot held
          (fun k => k < summary.batches.length) := by
  have hset : (chunksForArchiveV2 req.merkleRoot req.chunkCount req.snapshot
      a.params.assignmentReplicationFactor a.myAddr).filter (fun i => i ∈ held) = a.attestSet req := by
    unfold attestSet
    apply List.filter_congr
    intro i _
    simp only [hheld]
  obtain ⟨_, tail, _, _, hend⟩ := h.finalized
  unfold Snip.attest
  rw [if_neg hcap]
  dsimp only
  rw [hset]
  change _ = (a.batches req).take ((List.range (a.batches req).length).findIdx _ + 1)
  cases herror : summary.error with
  | none =>
      rw [herror] at hend
      have hidx : (List.range (a.batches req).length).findIdx
          (fun k => !decide (k < summary.batches.length)) = (a.batches req).length := by
        conv_rhs => rw [← @List.length_range (a.batches req).length]
        apply List.findIdx_eq_length_of_false
        intro k hk
        have hlt := List.mem_range.mp hk
        rw [hend.2]
        simpa using hlt
      rw [hidx, List.take_of_length_le (Nat.le_succ _), List.take_of_length_le]
      unfold submittedBatches
      rw [hend.2]
      exact Nat.le_add_right _ _
  | some e =>
      rw [herror] at hend
      obtain ⟨batch, hget, -⟩ := hend
      obtain ⟨hlt, -⟩ := List.getElem?_eq_some_iff.mp hget
      have hidx : (List.range (a.batches req).length).findIdx
          (fun k => !decide (k < summary.batches.length)) = summary.batches.length := by
        rw [List.findIdx_eq (by rw [List.length_range]; exact hlt)]
        simp only [List.getElem_range]
        refine ⟨by simp, ?_⟩
        intro j hj
        simpa using hj
      rw [hidx]
      rfl

end AssignmentAttestor

/-! ### Nothing per transaction -/

/-- A node that answers nothing. -/
def deafRpc : ReassignRpc Unit where
  storageGetFileInfoV2 _ node := (.error "", node)
  storageGetAssignmentCoverageV2 _ node := (.error "", node)
  chainGetChainParams node := (.error "", node)
  getLatestBlockHead node := (.error "", node)
  storageBuildReassignChunksV2 _ _ _ node := (.error "", node)
  sendRawTransaction _ node := (.error "", node)
  getTransactionStatus _ node := (.error "", node)

/-- An attestor whose cap is zero. -/
def cappedAtZero : AssignmentAttestor Unit :=
  ⟨deafRpc, Hash.fill 1, 1, 1, 1, ⟨3, 0⟩⟩

/-- Nothing is held. -/
def nothingHeld : AttestRequest := ⟨Hash.fill 2, 4, [1], ∅, 7, 2, 60⟩

/-- A wire format without content. -/
@[reducible]
def emptyWire : SumchainWire where
  fromBase58 _ := .error []
  toBase58 _ := []
  fromBytes _ := .error []
  toBytes _ := []
  signingHash _ := Hash.fill 0
  verifyingKey seed := seed
  fromPublicKey _ := 0
  sign _ bytes := bytes
  signedHex _ _ _ := []
  hexError text := text
  debugText text := text

/-- **Nothing is left to attest, nothing is sent, and there is an error.** -/
theorem zero_cap_reports_an_error :
    letI := emptyWire
    letI : OperationWire := ⟨fun _ => []⟩
    letI : AssignmentScore := ⟨fun _ _ _ => 0⟩
    cappedAtZero.attestSet nothingHeld = [] ∧
      (cappedAtZero.attest nothingHeld (fun _ => []) ()).1.batches.flatMap BatchOutcome.chunkIndices
        = cappedAtZero.attestSet nothingHeld ∧
      (cappedAtZero.attest nothingHeld (fun _ => []) ()).1.error.isSome = true := by
  let _ := emptyWire
  let _ : OperationWire := ⟨fun _ => []⟩
  let _ : AssignmentScore := ⟨fun _ _ _ => 0⟩
  have hempty : cappedAtZero.attestSet nothingHeld = [] := by
    unfold AssignmentAttestor.attestSet
    simp [nothingHeld]
  exact ⟨hempty, hempty.symm, rfl⟩

end Snip
