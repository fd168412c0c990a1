/-
What the owner's `reassign` command submits.

The transaction costs a fee and cannot be taken back, and everything it rests on comes
from a node that may answer each call differently.  The log of the command is the
evidence: whatever the node says, at most one transaction is submitted, and the calls
before it bear out the owner, a stable read, an archive that has left with a chunk of the
file, and every byte of what is signed.  The search for that archive misses none.
-/
import Snip.Lib.Lists
import Snip.Node.Reassign
import Snip.Proofs.Assignment

namespace Snip

open Dialogue

/-! ### The decision -/

theorem exists_zip_of_mem {α β : Type} {R : α → β → Prop} {as : List α} {bs : List β}
    (h : List.Forall₂ R as bs) {a : α} (ha : a ∈ as) : ∃ b, (a, b) ∈ as.zip bs := by
  induction h with
  | nil => cases ha
  | cons hhead htail ih =>
      rcases List.mem_cons.mp ha with rfl | hmem
      · exact ⟨_, List.mem_cons_self⟩
      · obtain ⟨b, hb⟩ := ih hmem
        exact ⟨b, List.mem_cons_of_mem _ hb⟩

theorem chainCounted_isSome {entry : ArchiveCoverageSummaryV2} :
    (chainCounted entry).isSome = true ↔ ∃ n, entry.assignedCount = some n ∧ 0 < n := by
  unfold chainCounted
  cases entry.assignedCount with
  | none => simp
  | some n =>
      by_cases hn : 0 < n
      · simp [hn]
      · simp [hn]

/-- The search over the uncounted archives, by its answer. -/
theorem uncounted_search [AssignmentScore] (root : Hash) (chunkCount r : Nat) (snapshot targets : List Addr) :
    ((if targets = [] then none
        else chainScorer root chunkCount snapshot r targets).isSome = true) ↔
      ∃ t ∈ targets, ∃ c < chunkCount, t ∈ assignedArchives root snapshot c r := by
  have hscorer : (if targets = [] then none else chainScorer root chunkCount snapshot r targets)
      = firstChunkAssignedToAny root chunkCount snapshot r targets := by
    by_cases htargets : targets = []
    · rw [if_pos htargets, htargets, eq_comm, firstChunkAssignedToAny_eq_none]
      intro t ht
      cases ht
    · rw [if_neg htargets]
      rfl
  rw [hscorer, Option.isSome_iff_ne_none, Ne, firstChunkAssignedToAny_eq_none]
  constructor
  · intro h
    by_contra hnone
    apply h
    intro t ht
    refine List.eq_nil_iff_forall_not_mem.mpr ?_
    intro c hc
    exact hnone ⟨t, ht, c, mem_chunksForArchiveV2.mp hc⟩
  · rintro ⟨t, ht, c, hc⟩ hnone
    have hmem := mem_chunksForArchiveV2.mpr hc
    rw [hnone t ht] at hmem
    cases hmem

section

variable [SumchainWire]

/-- What the decision needs of a response; `latest` and `snapshot` are what it reads of it. -/
structure WellFormedCoverage (coverage : AssignmentCoverageV2) (replicationFactor : Nat)
    (latest : AssignmentEpochCoverageV2) (snapshot : List Addr) : Prop where
  replicated : replicationFactor ≠ 0
  epochs : coverage.assignmentEpochs ≠ []
  sameLength : coverage.perEpoch.length = coverage.assignmentEpochs.length
  last : coverage.perEpoch.getLast? = some latest
  height : latest.epochHeight = coverage.latestAssignmentEpoch
  /-- Every archive of the list is an address. -/
  decoded : List.Forall₂ (fun entry addr => SumchainWire.fromBase58 entry.archive = .ok addr)
    latest.perArchive snapshot

theorem decodeArchive_eq_ok {entry : ArchiveCoverageSummaryV2} {addr : Addr} :
    decodeArchive entry = .ok addr ↔ SumchainWire.fromBase58 entry.archive = .ok addr := by
  unfold decodeArchive
  cases SumchainWire.fromBase58 entry.archive with
  | ok a => simp
  | error e => simp

theorem mapM_decodeArchive {perArchive : List ArchiveCoverageSummaryV2} {snapshot : List Addr} :
    perArchive.mapM decodeArchive = .ok snapshot ↔
      List.Forall₂ (fun entry addr => SumchainWire.fromBase58 entry.archive = .ok addr)
        perArchive snapshot := by
  simp only [Lists.mapM_eq_ok_iff, decodeArchive_eq_ok]

theorem evaluateN2_of_wellFormed {oracle : AssignmentOracle} {coverage : AssignmentCoverageV2}
    {root : Hash} {r : Nat} {latest : AssignmentEpochCoverageV2} {snapshot : List Addr}
    (h : WellFormedCoverage coverage r latest snapshot) :
    evaluateN2 oracle coverage root r
      = judgeSnapshot oracle root coverage.chunkCount r latest.perArchive snapshot := by
  unfold evaluateN2 AssignmentCoverageV2.resolvedLatestEpoch
  rw [if_neg h.replicated, if_neg h.epochs]
  simp only [h.sameLength, h.last, h.height, mapM_decodeArchive.mpr h.decoded]
  simp

/-- A verdict is only given on a well-formed response. -/
theorem wellFormed_of_verdict {oracle : AssignmentOracle} {coverage : AssignmentCoverageV2}
    {root : Hash} {r : Nat} {verdict : N2Verdict}
    (h : evaluateN2 oracle coverage root r = .ok verdict) :
    ∃ latest snapshot, WellFormedCoverage coverage r latest snapshot := by
  unfold evaluateN2 AssignmentCoverageV2.resolvedLatestEpoch at h
  by_cases hr : r = 0
  · rw [if_pos hr] at h
    cases h
  rw [if_neg hr] at h
  by_cases hepochs : coverage.assignmentEpochs = []
  · rw [if_pos hepochs] at h
    cases h
  rw [if_neg hepochs] at h
  by_cases hlength : coverage.perEpoch.length = coverage.assignmentEpochs.length
  · cases hlast : coverage.perEpoch.getLast? with
    | none =>
        simp only [hlength, hlast] at h
        simp at h
    | some latest =>
        by_cases hheight : latest.epochHeight = coverage.latestAssignmentEpoch
        · cases hsnapshot : latest.perArchive.mapM decodeArchive with
          | error e =>
              simp only [hlength, hlast, hheight, hsnapshot] at h
              simp at h
          | ok snapshot =>
              exact ⟨latest, snapshot, hr, hepochs, hlength, hlast, hheight,
                mapM_decodeArchive.mp hsnapshot⟩
        · simp only [hlength, hlast] at h
          simp [hheight] at h
  · simp [hlength] at h

theorem judgeSnapshot_some_gone {oracle : AssignmentOracle} {root : Hash} {chunkCount r : Nat}
    {perArchive : List ArchiveCoverageSummaryV2} {snapshot : List Addr}
    (h : ∃ p ∈ perArchive.zip snapshot, p.1.currentlyActive = false) :
    ∃ verdict, judgeSnapshot oracle root chunkCount r perArchive snapshot = .ok verdict := by
  unfold judgeSnapshot
  dsimp only
  obtain ⟨p, hp, hgone⟩ := h
  have hsome : (perArchive.zip snapshot).filter (fun p => !p.1.currentlyActive) ≠ [] := by
    refine List.ne_nil_of_mem (List.mem_filter.mpr ⟨hp, ?_⟩)
    rw [hgone]
    rfl
  rw [if_neg hsome]
  split
  · exact ⟨_, rfl⟩
  · split
    · exact ⟨_, rfl⟩
    · exact ⟨_, rfl⟩

variable [AssignmentScore]

/-- An archive of the list has left, and a chunk of the file is its own. -/
def HasDepartedAssignee (root : Hash) (chunkCount r : Nat)
    (perArchive : List ArchiveCoverageSummaryV2) (snapshot : List Addr) : Prop :=
  ∃ p ∈ perArchive.zip snapshot, p.1.currentlyActive = false ∧
    ((∃ n, p.1.assignedCount = some n ∧ 0 < n) ∨
      (p.1.assignedCount = none ∧ ∃ c < chunkCount, p.2 ∈ assignedArchives root snapshot c r))

/-- A departed assignee is found where there is one, and only there. -/
theorem judgeSnapshot_departed_iff {root : Hash} {chunkCount r : Nat}
    {perArchive : List ArchiveCoverageSummaryV2} {snapshot : List Addr} :
    (∃ d, judgeSnapshot chainScorer root chunkCount r perArchive snapshot = .ok (.departed d)) ↔
      HasDepartedAssignee root chunkCount r perArchive snapshot := by
  unfold judgeSnapshot HasDepartedAssignee
  dsimp only
  generalize hdeparted : (perArchive.zip snapshot).filter (fun p => !p.1.currentlyActive) = departed
  have hmem : ∀ p, p ∈ departed ↔ p ∈ perArchive.zip snapshot ∧ p.1.currentlyActive = false := by
    intro p
    rw [← hdeparted, List.mem_filter, Bool.not_eq_true']
  by_cases hnone : departed = []
  · rw [if_pos hnone]
    constructor
    · rintro ⟨d, h⟩
      cases h
    · rintro ⟨p, hp, hgone, -⟩
      have := (hmem p).mpr ⟨hp, hgone⟩
      rw [hnone] at this
      cases this
  rw [if_neg hnone]
  cases hcounted : departed.findSome? (fun p => chainCounted p.1) with
  | some d =>
      constructor
      · intro _
        obtain ⟨p, hp, hd⟩ := List.exists_of_findSome?_eq_some hcounted
        obtain ⟨hzip, hgone⟩ := (hmem p).mp hp
        exact ⟨p, hzip, hgone, .inl (chainCounted_isSome.mp (by rw [hd]; rfl))⟩
      · intro _
        exact ⟨d, rfl⟩
  | none =>
      rw [List.findSome?_eq_none_iff] at hcounted
      -- no count is positive, so an assignee is one of the uncounted
      have hsearch := uncounted_search root chunkCount r snapshot
        ((departed.filter fun p => p.1.assignedCount.isNone).map (·.2))
      have htargets : (∃ t ∈ (departed.filter fun p => p.1.assignedCount.isNone).map (·.2),
          ∃ c < chunkCount, t ∈ assignedArchives root snapshot c r) ↔
          ∃ p ∈ perArchive.zip snapshot, p.1.currentlyActive = false ∧
            ((∃ n, p.1.assignedCount = some n ∧ 0 < n) ∨
              (p.1.assignedCount = none ∧
                ∃ c < chunkCount, p.2 ∈ assignedArchives root snapshot c r)) := by
        constructor
        · rintro ⟨t, ht, hc⟩
          obtain ⟨p, hp, rfl⟩ := List.mem_map.mp ht
          obtain ⟨hp, hcount⟩ := List.mem_filter.mp hp
          obtain ⟨hzip, hgone⟩ := (hmem p).mp hp
          exact ⟨p, hzip, hgone, .inr ⟨Option.isNone_iff_eq_none.mp hcount, hc⟩⟩
        · rintro ⟨p, hzip, hgone, hpos | ⟨hcount, hc⟩⟩
          · have hp := (hmem p).mpr ⟨hzip, hgone⟩
            have hsome := chainCounted_isSome.mpr hpos
            rw [hcounted p hp] at hsome
            cases hsome
          · refine ⟨p.2, List.mem_map.mpr ⟨p, ?_, rfl⟩, hc⟩
            refine List.mem_filter.mpr ⟨(hmem p).mpr ⟨hzip, hgone⟩, ?_⟩
            exact Option.isNone_iff_eq_none.mpr hcount
      rw [← htargets, ← hsearch]
      dsimp only
      generalize (if (departed.filter fun p => p.1.assignedCount.isNone).map (·.2) = [] then none
        else chainScorer root chunkCount snapshot r
          ((departed.filter fun p => p.1.assignedCount.isNone).map (·.2))) = found
      cases found with
      | none => simp
      | some hit => simp

end

/-! ### The built transaction -/

section

variable [SumchainWire]

/-- The transaction the owner asked for, up to the nonce. -/
def expectedReassign (seed : Hash) (req : ReassignRequest) (nonce : Nat) : TransactionV2 :=
  ⟨req.chainId, ownAddress seed, nonce, req.fee, .reassignChunksV2 req.merkleRoot⟩

theorem verifyUnsignedReassign_eq_ok {resp : StorageBuildResponse} {seed : Hash}
    {req : ReassignRequest} {tx : TransactionV2}
    (h : verifyUnsignedReassign resp (ownAddress seed) req.merkleRoot req.chainId req.fee
      = .ok tx) :
    tx = expectedReassign seed req resp.nonce ∧
      decodeHexField "unsigned_tx" resp.unsignedTx = .ok (SumchainWire.toBytes tx) := by
  unfold verifyUnsignedReassign at h
  cases hbytes : decodeHexField "unsigned_tx" resp.unsignedTx with
  | error e => simp [hbytes] at h
  | ok bytes =>
  rw [hbytes] at h
  cases htx : SumchainWire.fromBytes bytes with
  | error e => simp [htx] at h
  | ok decoded =>
  simp only [htx] at h
  unfold checkUnsignedReassign at h
  -- one condition after the other, in the order of the checks
  by_cases hcanonical : SumchainWire.toBytes decoded = bytes
  case neg => simp [hcanonical] at h
  by_cases hchain : decoded.chainId = req.chainId
  case neg => simp [hcanonical, hchain] at h
  by_cases hsender : decoded.sender = ownAddress seed
  case neg => simp [hcanonical, hchain, hsender] at h
  by_cases hfee : decoded.fee = req.fee
  case neg => simp [hcanonical, hchain, hsender, hfee] at h
  by_cases hpayload : decoded.payload = .reassignChunksV2 req.merkleRoot
  case neg => simp [hcanonical, hchain, hsender, hfee, hpayload] at h
  by_cases hnonce : resp.nonce = decoded.nonce
  case neg =>
    by_cases hfrom : resp.sender = SumchainWire.toBase58 (ownAddress seed)
    · simp [hcanonical, hchain, hsender, hfee, hpayload, hfrom, hnonce] at h
    · simp [hcanonical, hchain, hsender, hfee, hpayload, hfrom] at h
  have hdecoded : decoded = expectedReassign seed req resp.nonce := by
    cases decoded
    subst hchain hsender hfee hpayload hnonce
    rfl
  have hresult : tx = decoded := by
    simp only [hcanonical, ne_eq, not_true_eq_false, if_false] at h
    repeat
      split at h
      · cases h
    cases h
    rfl
  rw [hresult]
  exact ⟨hdecoded, by rw [hcanonical]⟩

end

/-! ### The calls -/

section

variable {σ : Type}

theorem waitForFinalized_quiet (rpc : ReassignRpc σ) (txHash : Str) (deadline : Nat)
    (clock : List Nat) :
    Ensures (waitForFinalized rpc txHash deadline clock) fun log _ =>
      Quiet RpcCall.sent? log := by
  induction clock with
  | nil =>
      refine Ensures.ask ?_
      intro status
      cases status with
      | error e => exact .pure (quiet_cons.mpr ⟨rfl, quiet_nil⟩)
      | ok status => exact .pure (quiet_cons.mpr ⟨rfl, quiet_nil⟩)
  | cons now clock ih =>
      refine Ensures.ask ?_
      intro status
      cases status with
      | error e => exact .pure (quiet_cons.mpr ⟨rfl, quiet_nil⟩)
      | ok status =>
          dsimp only
          split
          · exact .pure (quiet_cons.mpr ⟨rfl, quiet_nil⟩)
          · by_cases hdeadline : deadline ≤ now
            · rw [if_pos hdeadline]
              exact .pure (quiet_cons.mpr ⟨rfl, quiet_nil⟩)
            · rw [if_neg hdeadline]
              exact ih.mono fun log _ h => quiet_cons.mpr ⟨rfl, h⟩

variable [SumchainWire]

/-- The four answers of an attempt that was used. -/
def stableAttempt (root : Hash) (coverage : AssignmentCoverageV2) (head : BlockHeadInfo) :
    List RpcCall :=
  [.blockHead (.ok head), .coverage (fileRootHex root) (.ok (some coverage)),
    .coverage (fileRootHex root) (.ok (some coverage)), .blockHead (.ok head)]

/-- What is known when the reads have decided. -/
structure StableReadOf (oracle : AssignmentOracle) (root : Hash) (r : Nat) (log : List RpcCall)
    (read : StableRead) : Prop where
  attempt : stableAttempt root read.coverage read.head <:+: log
  needed : read.coverage.reassignmentNeeded = true
  verdict : evaluateN2 oracle read.coverage root r = .ok read.verdict

theorem StableReadOf.append {oracle : AssignmentOracle} {root : Hash} {r : Nat}
    {log : List RpcCall} {read : StableRead} (pre : List RpcCall)
    (h : StableReadOf oracle root r log read) : StableReadOf oracle root r (pre ++ log) read :=
  ⟨h.attempt.trans (List.suffix_append pre log).isInfix, h.needed, h.verdict⟩

/-- Induction on the attempts left: each ends the command, is used, or only adds to the log. -/
theorem readStable_spec (rpc : ReassignRpc σ) (oracle : AssignmentOracle) (root : Hash) (r : Nat)
    (attempts : Nat) (lastReason : String) :
    Ensures (readStable rpc oracle root r attempts lastReason) fun log result =>
      Quiet RpcCall.sent? log ∧
        ∀ read, result = .ok read → StableReadOf oracle root r log read := by
  induction attempts generalizing lastReason with
  | zero =>
      refine .pure ⟨quiet_nil, ?_⟩
      intro read h
      cases h
  | succ attempts ih =>
      unfold readStable
      refine Ensures.ask ?_
      intro head1
      cases head1 with
      | error e =>
          refine .pure ⟨quiet_cons.mpr ⟨rfl, quiet_nil⟩, ?_⟩
          intro read h
          cases h
      | ok head1 =>
      refine Ensures.ask ?_
      intro first
      rcases first with e | _ | first
      · refine .pure ⟨by simp [quiet_cons, quiet_nil, RpcCall.sent?], ?_⟩
        intro read h
        cases h
      · refine .pure ⟨by simp [quiet_cons, quiet_nil, RpcCall.sent?], ?_⟩
        intro read h
        cases h
      dsimp only
      by_cases hneeded : first.reassignmentNeeded = true
      case neg =>
        simp only [hneeded]
        refine .pure ⟨by simp [quiet_cons, quiet_nil, RpcCall.sent?], ?_⟩
        intro read h
        cases h
      simp only [hneeded, Bool.not_true]
      refine Ensures.ask ?_
      intro second
      rcases second with e | _ | second
      · refine .pure ⟨by simp [quiet_cons, quiet_nil, RpcCall.sent?], ?_⟩
        intro read h
        cases h
      · refine .pure ⟨by simp [quiet_cons, quiet_nil, RpcCall.sent?], ?_⟩
        intro read h
        cases h
      refine Ensures.ask ?_
      intro head2
      cases head2 with
      | error e =>
          refine .pure ⟨by simp [quiet_cons, quiet_nil, RpcCall.sent?], ?_⟩
          intro read h
          cases h
      | ok head2 =>
      -- another attempt, behind the four calls of this one
      have hagain : ∀ reason, Ensures (readStable rpc oracle root r attempts reason)
          fun log result =>
            Quiet RpcCall.sent? ([.blockHead (.ok head1),
              .coverage (fileRootHex root) (.ok (some first)),
              .coverage (fileRootHex root) (.ok (some second)), .blockHead (.ok head2)] ++ log) ∧
            ∀ read, result = .ok read → StableReadOf oracle root r ([.blockHead (.ok head1),
              .coverage (fileRootHex root) (.ok (some first)),
              .coverage (fileRootHex root) (.ok (some second)), .blockHead (.ok head2)] ++ log)
              read := by
        intro reason
        refine (ih reason).mono ?_
        intro log result h
        refine ⟨quiet_append.mpr ⟨by simp [quiet_cons, quiet_nil, RpcCall.sent?], h.1⟩, ?_⟩
        intro read hread
        exact (h.2 read hread).append _
      dsimp only
      by_cases hheads : head1 = head2
      case neg =>
        rw [if_pos hheads]
        exact hagain _
      subst hheads
      by_cases hsame : first = second
      case neg =>
        rw [if_neg (by simp), if_pos hsame]
        exact hagain _
      subst hsame
      rw [if_neg (by simp), if_neg (by simp)]
      cases hverdict : evaluateN2 oracle first root r with
      | error e =>
          cases e with
          | inconsistent reason => exact hagain reason
          | unusable reason =>
              refine .pure ⟨by simp [quiet_cons, quiet_nil, RpcCall.sent?], ?_⟩
              intro read h
              cases h
      | ok verdict =>
          refine .pure ⟨by simp [quiet_cons, quiet_nil, RpcCall.sent?], ?_⟩
          intro read h
          cases h
          exact ⟨List.infix_rfl, hneeded, hverdict⟩

theorem submitReassign_spec (rpc : ReassignRpc σ) (seed : Hash) (req : ReassignRequest)
    (clock : List Nat) (departed : DepartedAssignee) (tx : TransactionV2) :
    Ensures (submitReassign rpc seed req clock departed tx) fun log _ =>
      AtMostOnce RpcCall.sent? (fun before hex => before = [] ∧ hex = signV2 seed tx) log := by
  unfold submitReassign
  cases hsigned : signTransactionV2 seed tx with
  | error e => exact .pure (.of_quiet quiet_nil)
  | ok signedHex =>
      have hhex : signedHex = signV2 seed tx := by
        unfold signTransactionV2 at hsigned
        split at hsigned
        · cases hsigned
        · cases hsigned
          rfl
      refine Ensures.ask ?_
      intro answer
      -- from here on the log is the submission and what the wait asks
      have hquiet : ∀ log, Quiet RpcCall.sent? log → AtMostOnce RpcCall.sent?
          (fun before hex => before = [] ∧ hex = signV2 seed tx)
          (.sendRaw signedHex answer :: log) := by
        intro log hlog
        exact .inr ⟨[], _, log, signedHex, rfl, quiet_nil, rfl, hlog, rfl, hhex⟩
      cases answer with
      | error e => exact .pure (hquiet [] quiet_nil)
      | ok txHash =>
          refine Ensures.bind (waitForFinalized_quiet rpc txHash _ _) ?_
          intro log result hlog
          have hend : ∀ outcome : ReassignOutcome,
              Ensures (pure outcome : ReassignM σ ReassignOutcome) fun log' _ =>
                AtMostOnce RpcCall.sent? (fun before hex => before = [] ∧ hex = signV2 seed tx)
                  (.sendRaw signedHex (.ok txHash) :: (log ++ log')) := by
            intro outcome
            refine .pure (hquiet _ ?_)
            rw [List.append_nil]
            exact hlog
          rcases result with e | height
          · cases e with
            | failed blockHeight reason => exact hend _
            | dropped => exact hend _
            | timeout lastStatus => exact hend _
            | rpc e => exact hend _
            | waiting => exact hend _
          · exact hend _

/-- What stands before a submission from `build` on. -/
structure BuiltAsAsked (seed : Hash) (req : ReassignRequest) (before : List RpcCall) (hex : Str) :
    Prop where
  live : req.dryRun = false
  /-- The bytes the chain built are those of the transaction asked for; that one is signed. -/
  transaction : ∃ resp,
    RpcCall.buildReassign (SumchainWire.toBase58 (ownAddress seed)) (fileRootHex req.merkleRoot)
      req.fee (.ok resp) ∈ before ∧
    decodeHexField "unsigned_tx" resp.unsignedTx
      = .ok (SumchainWire.toBytes (expectedReassign seed req resp.nonce)) ∧
    hex = signV2 seed (expectedReassign seed req resp.nonce)

theorem buildReassign_spec (rpc : ReassignRpc σ) (seed : Hash) (req : ReassignRequest)
    (clock : List Nat) (departed : DepartedAssignee) (head : BlockHeadInfo) :
    Ensures (buildReassign rpc seed req clock departed head) fun log _ =>
      AtMostOnce RpcCall.sent? (BuiltAsAsked seed req) log := by
  unfold buildReassign
  refine Ensures.ask ?_
  intro answer
  cases answer with
  | error e => exact .pure (.of_quiet (quiet_cons.mpr ⟨rfl, quiet_nil⟩))
  | ok resp =>
      cases hverify : verifyUnsignedReassign resp (ownAddress seed) req.merkleRoot req.chainId
          req.fee with
      | error reason =>
          simp only [hverify]
          exact .pure (.of_quiet (quiet_cons.mpr ⟨rfl, quiet_nil⟩))
      | ok tx =>
          simp only [hverify]
          by_cases hdry : req.dryRun = true
          · rw [if_pos hdry]
            exact .pure (.of_quiet (quiet_cons.mpr ⟨rfl, quiet_nil⟩))
          · rw [if_neg hdry]
            refine (submitReassign_spec rpc seed req clock departed tx).mono ?_
            intro log _ hlog
            refine AtMostOnce.cons rfl ?_
            obtain ⟨htx, hbytes⟩ := verifyUnsignedReassign_eq_ok hverify
            refine hlog.mono ?_
            rintro before hex ⟨rfl, hhex⟩
            refine ⟨Bool.eq_false_iff.mpr hdry, resp, List.mem_cons_self, ?_, ?_⟩
            · rw [← htx]
              exact hbytes
            · rw [← htx]
              exact hhex

variable [AssignmentScore]

/--
What the calls before a submission bear out.  `latest` is the last entry of the coverage
that one attempt read twice between two reads of one head.
-/
structure SubmissionJustified (seed : Hash) (req : ReassignRequest) (before : List RpcCall)
    (hex : Str) : Prop where
  owner : ∃ info,
    RpcCall.fileInfo (fileRootHex req.merkleRoot) (.ok (some info)) ∈ before ∧
    info.owner = SumchainWire.toBase58 (ownAddress seed)
  read : ∃ r head coverage latest snapshot,
    RpcCall.chainParams (.ok r) ∈ before ∧
    stableAttempt req.merkleRoot coverage head <:+: before ∧
    coverage.reassignmentNeeded = true ∧
    WellFormedCoverage coverage r latest snapshot ∧
    HasDepartedAssignee req.merkleRoot coverage.chunkCount r latest.perArchive snapshot
  built : BuiltAsAsked seed req before hex

theorem reassignChunksV2_spec (rpc : ReassignRpc σ) (seed : Hash) (req : ReassignRequest)
    (clock : List Nat) :
    Ensures (reassignChunksV2 rpc seed req clock) fun log _ =>
      AtMostOnce RpcCall.sent? (SubmissionJustified seed req) log := by
  unfold reassignChunksV2 reassignChunksV2With
  refine Ensures.ask ?_
  intro info
  rcases info with e | _ | info
  · exact .pure (.of_quiet (quiet_cons.mpr ⟨rfl, quiet_nil⟩))
  · exact .pure (.of_quiet (quiet_cons.mpr ⟨rfl, quiet_nil⟩))
  dsimp only
  by_cases howner : info.owner = SumchainWire.toBase58 (ownAddress seed)
  case neg =>
    rw [if_pos howner]
    exact .pure (.of_quiet (quiet_cons.mpr ⟨rfl, quiet_nil⟩))
  rw [if_neg (not_not.mpr howner)]
  refine Ensures.ask ?_
  intro params
  cases params with
  | error e => exact .pure (.of_quiet (by simp [quiet_cons, quiet_nil, RpcCall.sent?]))
  | ok r =>
  refine Ensures.bind (readStable_spec rpc chainScorer req.merkleRoot r readAttempts "") ?_
  rintro log result ⟨hquiet, hread⟩
  cases result with
  | error outcome =>
      refine .pure (.of_quiet ?_)
      rw [List.append_nil]
      exact quiet_cons.mpr ⟨rfl, quiet_cons.mpr ⟨rfl, hquiet⟩⟩
  | ok read =>
  have hstable := hread read rfl
  cases hverdict : read.verdict with
  | noDepartedAssignee departed =>
      simp only [hverdict]
      refine .pure (.of_quiet ?_)
      rw [List.append_nil]
      exact quiet_cons.mpr ⟨rfl, quiet_cons.mpr ⟨rfl, hquiet⟩⟩
  | departed departed =>
      simp only [hverdict]
      have hn2 := hstable.verdict
      rw [hverdict] at hn2
      obtain ⟨latest, snapshot, hformed⟩ := wellFormed_of_verdict hn2
      rw [evaluateN2_of_wellFormed hformed] at hn2
      refine (buildReassign_spec rpc seed req clock departed read.head).mono ?_
      intro log' _ hlog'
      refine AtMostOnce.cons rfl (AtMostOnce.cons rfl (AtMostOnce.append hquiet ?_))
      refine hlog'.mono ?_
      intro before hex hbuilt
      refine ⟨⟨info, List.mem_cons_self, howner⟩, ⟨r, read.head, read.coverage, latest, snapshot,
        by simp, ?_, hstable.needed, hformed, judgeSnapshot_departed_iff.mp ⟨departed, hn2⟩⟩, ?_⟩
      · refine hstable.attempt.trans ?_
        exact ⟨[.fileInfo (fileRootHex req.merkleRoot) (.ok (some info)), .chainParams (.ok r)], before,
          by simp⟩
      · obtain ⟨resp, hmem, hbytes⟩ := hbuilt.transaction
        exact ⟨hbuilt.live, resp, by simp [hmem], hbytes⟩

/-- The promises of the command, for one node, key and request. -/
structure ReassignGuarded (rpc : ReassignRpc σ) (seed : Hash) (req : ReassignRequest)
    (clock : List Nat) (node : σ) : Prop where
  once : ((reassignChunksV2 rpc seed req clock node).2.1.filterMap RpcCall.sent?).length ≤ 1
  dry : req.dryRun = true →
    (reassignChunksV2 rpc seed req clock node).2.1.filterMap RpcCall.sent? = []
  justified : ∀ before hex answer after,
    (reassignChunksV2 rpc seed req clock node).2.1 = before ++ .sendRaw hex answer :: after →
      SubmissionJustified seed req before hex
  /-- The decision misses no departed assignee. -/
  departed : ∀ coverage root r latest snapshot, WellFormedCoverage coverage r latest snapshot →
    HasDepartedAssignee root coverage.chunkCount r latest.perArchive snapshot →
      ∃ d, evaluateN2 chainScorer coverage root r = .ok (.departed d)
  /-- Archives have left, but none with a chunk. -/
  untouched : ∀ coverage root r latest snapshot, WellFormedCoverage coverage r latest snapshot →
    (∃ entry ∈ latest.perArchive, entry.currentlyActive = false) →
    ¬ HasDepartedAssignee root coverage.chunkCount r latest.perArchive snapshot →
      ∃ gone, evaluateN2 chainScorer coverage root r = .ok (.noDepartedAssignee gone)

/--
**A reassignment is submitted once, by the owner, for an archive that left with a chunk.**
The node behind the RPC is any state and any answers out of it.
-/
theorem reassign_guarded (rpc : ReassignRpc σ) (seed : Hash) (req : ReassignRequest)
    (clock : List Nat) (node : σ) : ReassignGuarded rpc seed req clock node := by
  have honce := reassignChunksV2_spec rpc seed req clock node
  refine ⟨honce.length_le, ?_, ?_, ?_, ?_⟩
  · intro hdry
    rcases honce with hquiet | ⟨before, entry, after, hex, -, -, -, -, hjustified⟩
    · exact filterMap_eq_nil_of_quiet hquiet
    · have hlive := hjustified.built.live
      rw [hdry] at hlive
      cases hlive
  · intro before hex answer after hlog
    rw [hlog] at honce
    exact honce.at rfl
  · intro coverage root r latest snapshot hformed hdeparted
    rw [evaluateN2_of_wellFormed hformed]
    exact judgeSnapshot_departed_iff.mpr hdeparted
  · intro coverage root r latest snapshot hformed hgone hnone
    obtain ⟨entry, hentry, hinactive⟩ := hgone
    obtain ⟨addr, hzip⟩ := exists_zip_of_mem hformed.decoded hentry
    obtain ⟨verdict, hverdict⟩ :=
      judgeSnapshot_some_gone ⟨(entry, addr), hzip, hinactive⟩
    rw [evaluateN2_of_wellFormed hformed, hverdict]
    cases verdict with
    | departed d => exact absurd (judgeSnapshot_departed_iff.mp ⟨d, hverdict⟩) hnone
    | noDepartedAssignee gone => exact ⟨gone, rfl⟩

end

/-! #### An archive leaves

Two archives hold every chunk of a file, and the second leaves.  The head moves during the
first attempt to read the chain. -/

/-- Two addresses, and one transaction. -/
@[reducible] def leavingWire : SumchainWire where
  fromBase58 text := if text = ['a'] then .ok 1 else if text = ['b'] then .ok 2 else .error []
  toBase58 a := if a = 1 then ['a'] else ['b']
  fromBytes _ := .ok ⟨7, 1, 4, 3, .reassignChunksV2 Hash.zero⟩
  toBytes _ := [9]
  signingHash _ := Hash.zero
  verifyingKey seed := seed
  fromPublicKey _ := 1
  sign _ bytes := bytes
  signedHex _ _ _ := ['t']
  hexError text := text
  debugText text := text

/-- The second archive is away; the chain may have counted its chunks. -/
def leavingEpoch (counted : Option Nat) : AssignmentEpochCoverageV2 :=
  ⟨100, true, 3, [⟨['a'], none, 3, true⟩, ⟨['b'], counted, 3, false⟩]⟩

def leavingCoverage (counted : Option Nat) : AssignmentCoverageV2 :=
  ⟨3, 3, true, 0, 0, [], [], [100], 100, true, [leavingEpoch counted]⟩

/-- A node by the number of heads it was asked for: the second is not the first. -/
def leavingRpc : ReassignRpc Nat where
  storageGetFileInfoV2 _ n := (.ok (some ⟨⟨fileRootHex Hash.zero, 3, 9, 100, 9, 0, 1⟩, ['a']⟩), n)
  storageGetAssignmentCoverageV2 _ n := (.ok (some (leavingCoverage none)), n)
  chainGetChainParams n := (.ok 2, n)
  getLatestBlockHead n := (.ok ⟨if n = 0 then 200 else 201, [], []⟩, n + 1)
  storageBuildReassignChunksV2 _ _ _ n :=
    (.ok ⟨['0', '9'], hexEncode Hash.zero.bytes, ['a'], 4, 3, 7⟩, n)
  sendRawTransaction _ n := (.ok ['x'], n)
  getTransactionStatus _ n := (.ok (.finalized 202), n)

def leavingRequest : ReassignRequest := ⟨Hash.zero, 7, 3, false, 1, 60⟩

theorem leavingCoverage_wellFormed (counted : Option Nat) :
    letI := leavingWire
    WellFormedCoverage (leavingCoverage counted) 2 (leavingEpoch counted) [1, 2] := by
  let _ := leavingWire
  exact ⟨by decide, by simp [leavingCoverage], rfl, rfl, rfl, .cons rfl (.cons rfl .nil)⟩

/--
The command submits its one transaction, and what it has read justifies it.  With no count
of the chain the archive that left counts as an assignee, and with the count 0 it does not.
-/
theorem departed_archive_reassigned :
    letI := leavingWire
    letI := AssignmentScore.flat
    (∃ before after, (reassignChunksV2 leavingRpc Hash.zero leavingRequest [] 0).2.1
        = before ++ .sendRaw ['t'] (.ok ['x']) :: after ∧
      SubmissionJustified Hash.zero leavingRequest before ['t']) ∧
    (∃ d, evaluateN2 chainScorer (leavingCoverage none) Hash.zero 2 = .ok (.departed d)) ∧
    ∃ gone, evaluateN2 chainScorer (leavingCoverage (some 0)) Hash.zero 2
      = .ok (.noDepartedAssignee gone) := by
  let _ := leavingWire
  let _ := AssignmentScore.flat
  have hguarded := reassign_guarded leavingRpc Hash.zero leavingRequest [] 0
  let log := (reassignChunksV2 leavingRpc Hash.zero leavingRequest [] 0).2.1
  have hlog : log = log.take 11 ++ .sendRaw ['t'] (.ok ['x']) :: log.drop 12 := rfl
  refine ⟨⟨_, _, hlog, hguarded.justified _ _ _ _ hlog⟩, ?_, ?_⟩
  · refine hguarded.departed _ Hash.zero 2 _ _ (leavingCoverage_wellFormed none) ?_
    refine ⟨(⟨['b'], none, 3, false⟩, 2), by simp [leavingEpoch], rfl, .inr ⟨rfl, 0, by decide, ?_⟩⟩
    decide +kernel
  · refine hguarded.untouched _ Hash.zero 2 _ _ (leavingCoverage_wellFormed (some 0))
      ⟨⟨['b'], some 0, 3, false⟩, by simp [leavingEpoch], rfl⟩ ?_
    rintro ⟨p, hp, haway, hassigned⟩
    simp only [leavingEpoch, List.zip_cons_cons, List.zip_nil_right, List.mem_cons,
      List.not_mem_nil, or_false] at hp
    rcases hp with rfl | rfl
    · cases haway
    · rcases hassigned with ⟨n, hn, hpos⟩ | ⟨hnone, -⟩
      · cases hn
        exact absurd hpos (Nat.lt_irrefl 0)
      · cases hnone

end Snip
