/-
The owner and the archives work out the same assignment.

The owner derives from the chain whom to push a chunk to; the validator of an archive
derives from the same chain whether a pushed chunk is its own.  They use different calls,
resolve the epoch in different places and treat the errors apart.  While the chain gives
both the same answers, the archives that are pushed to are those that accept, whatever
their validators have cached by then.
-/
import Snip.Proofs.IngestProgress
import Snip.Proofs.PorWorker
import Snip.Proofs.PushCaches

namespace Snip

/-! ### The epoch and its archives -/

section

variable {chain : L1Chain} {root : Hash} {info : StorageFileInfoV2}

/-- Both sides resolve the epoch alike. -/
theorem epochOf_ok_iff {epoch : Nat} : chain.v2Rpc.epochOf root info = .ok epoch ↔
    ∃ coverage, chain.assignmentCoverageV2 root = .ok (some coverage) ∧
      epochFromCoverage coverage info.assignmentHeight = .ok epoch := by
  unfold ChainRpc.epochOf L1Chain.v2Rpc
  dsimp only
  cases hcoverage : chain.assignmentCoverageV2 root with
  | error e => simp
  | ok row =>
  cases row with
  | none => simp
  | some coverage =>
      simp only [Except.ok.injEq, Option.some.injEq, exists_eq_left']
      unfold epochFromCoverage
      cases coverage.resolvedLatestEpoch with
      | none => simp
      | some latest =>
          simp only [Option.getD_some]
          by_cases hlow : latest < info.assignmentHeight
          · simp [hlow]
          · simp [hlow]

theorem snapshotAt_ok_iff {height : Nat} {snapshot : List Addr} :
    chain.v2Rpc.snapshotAt height = .ok snapshot ↔
      ∃ raw, chain.activeNodesAtHeight height = .ok raw ∧ decodeSnapshot raw = some snapshot := by
  refine ⟨ChainRpc.snapshotAt_ok, ?_⟩
  rintro ⟨raw, hraw, hdecode⟩
  unfold ChainRpc.snapshotAt L1Chain.v2Rpc
  simp [hraw, hdecode]

variable [AssignmentScore]

theorem assigned_ok_iff {rpc : ChainRpc} {archive : Addr} {params : V2Params}
    {epoch chunkIndex : Nat} : rpc.assigned archive params root epoch chunkIndex = .ok () ↔
      ∃ snapshot, rpc.snapshotAt epoch = .ok snapshot ∧
        archive ∈ assignedArchives root snapshot chunkIndex params.assignmentReplicationFactor := by
  refine ⟨ChainRpc.assigned_ok, ?_⟩
  rintro ⟨snapshot, hsnapshot, hmem⟩
  unfold ChainRpc.assigned
  simp [hsnapshot, hmem, mem_snapshot_of_assigned hmem]

/-- What the validator of an archive finds in the end, with its caches or without them. -/
theorem assignedNow_ok_iff {archive : Addr} {params : V2Params} {chunkIndex : Nat} :
    chain.v2Rpc.assignedNow archive params root info chunkIndex = .ok () ↔
      ∃ epoch snapshot, chain.v2Rpc.epochOf root info = .ok epoch ∧
        chain.v2Rpc.snapshotAt epoch = .ok snapshot ∧
        archive ∈ assignedArchives root snapshot chunkIndex params.assignmentReplicationFactor := by
  unfold ChainRpc.assignedNow
  cases hepoch : chain.v2Rpc.epochOf root info with
  | error e => simp
  | ok epoch =>
      simp only [Except.ok.injEq, exists_and_left, exists_eq_left']
      exact assigned_ok_iff

theorem latestAssignmentTargets_ok_iff {r epoch : Nat} {targets : List (Nat × Addr)} :
    latestAssignmentTargets (chain.answersFor root) info root r = .ok (epoch, targets) ↔
      ∃ snapshot, chain.v2Rpc.epochOf root info = .ok epoch ∧
        chain.v2Rpc.snapshotAt epoch = .ok snapshot ∧ snapshot ≠ [] ∧
        targets = assignmentTargets root info.chunkCount snapshot r := by
  rw [epochOf_ok_iff]
  simp only [snapshotAt_ok_iff]
  constructor
  · intro h
    obtain ⟨snapshot, ⟨⟨coverage, hcoverage, hepoch⟩, raw, hraw, hdecode⟩, rfl⟩ :=
      latestAssignmentTargets_ok h
    refine ⟨snapshot, ⟨coverage, hcoverage, hepoch⟩, ⟨raw, hraw, hdecode⟩, ?_, rfl⟩
    intro hempty
    unfold latestAssignmentTargets at h
    simp [hcoverage, hepoch, hraw, hdecode, hempty] at h
  · rintro ⟨snapshot, ⟨coverage, hcoverage, hepoch⟩, ⟨raw, hraw, hdecode⟩, hne, rfl⟩
    unfold latestAssignmentTargets L1Chain.answersFor
    simp [hcoverage, hepoch, hraw, hdecode, hne]

/-- **The owner pushes a chunk to an archive iff the archive finds it assigned to itself.** -/
theorem mem_targets_iff_assignedNow {r maxIndices chunkIndex : Nat} {archive : Addr} :
    (∃ epoch targets, latestAssignmentTargets (chain.answersFor root) info root r
        = .ok (epoch, targets) ∧ (chunkIndex, archive) ∈ targets) ↔
      chunkIndex < info.chunkCount ∧
        chain.v2Rpc.assignedNow archive ⟨r, maxIndices⟩ root info chunkIndex = .ok () := by
  simp only [latestAssignmentTargets_ok_iff]
  rw [assignedNow_ok_iff]
  constructor
  · rintro ⟨epoch, targets, ⟨snapshot, hepoch, hsnapshot, -, rfl⟩, hmem⟩
    obtain ⟨hlt, hassigned⟩ := mem_assignmentTargets.mp hmem
    exact ⟨hlt, epoch, snapshot, hepoch, hsnapshot, hassigned⟩
  · rintro ⟨hlt, epoch, snapshot, hepoch, hsnapshot, hassigned⟩
    refine ⟨epoch, _, ⟨snapshot, hepoch, hsnapshot, ?_, rfl⟩,
      mem_assignmentTargets.mpr ⟨hlt, hassigned⟩⟩
    exact List.ne_nil_of_mem (mem_snapshot_of_assigned hassigned)

/-- Where a validator refuses for an answer that it cannot use, there are no targets at all. -/
theorem latestAssignmentTargets_error {archive : Addr} {params : V2Params} {chunkIndex : Nat}
    {e : PushReject} (h : chain.v2Rpc.assignedNow archive params root info chunkIndex = .error e)
    (hother : e.isAssignment = false) (r : Nat) :
    ∃ e', latestAssignmentTargets (chain.answersFor root) info root r = .error e' := by
  cases htargets : latestAssignmentTargets (chain.answersFor root) info root r with
  | error e' => exact ⟨e', rfl⟩
  | ok found =>
      obtain ⟨epoch, targets⟩ := found
      obtain ⟨snapshot, hepoch, hsnapshot, -, -⟩ := latestAssignmentTargets_ok_iff.mp htargets
      unfold ChainRpc.assignedNow ChainRpc.assigned at h
      simp only [hepoch, hsnapshot] at h
      by_cases hin : archive ∈ snapshot
      · rw [if_neg (not_not.mpr hin)] at h
        by_cases hassigned : archive ∈ assignedArchives root snapshot chunkIndex
            params.assignmentReplicationFactor
        · rw [if_neg (not_not.mpr hassigned)] at h
          cases h
        · rw [if_pos hassigned] at h
          obtain rfl := Except.error.inj h
          cases hother
      · rw [if_pos hin] at h
        obtain rfl := Except.error.inj h
        cases hother

/-- The assignment of the file's first epoch is its only one, and these are its nodes. -/
structure OnlyEpoch (chain : L1Chain) (root : Hash) (info : StorageFileInfoV2)
    (raw : List NodeRecordInfo) : Prop where
  coverage : ∃ coverage, chain.assignmentCoverageV2 root = .ok (some coverage) ∧
    ∀ epoch, coverage.resolvedLatestEpoch = some epoch → epoch = info.assignmentHeight
  nodes : chain.activeNodesAtHeight info.assignmentHeight = .ok raw

/-- With one epoch, its snapshot tells which chunks an archive finds assigned to itself. -/
theorem OnlyEpoch.assignedNow_iff {raw : List NodeRecordInfo} (h : OnlyEpoch chain root info raw)
    {snapshot : List Addr} (hdecode : decodeSnapshot raw = some snapshot) {archive : Addr}
    {params : V2Params} {chunkIndex : Nat} :
    chain.v2Rpc.assignedNow archive params root info chunkIndex = .ok () ↔
      archive ∈ assignedArchives root snapshot chunkIndex params.assignmentReplicationFactor := by
  obtain ⟨coverage, hcoverage, honly⟩ := h.coverage
  have hepoch : chain.v2Rpc.epochOf root info = .ok info.assignmentHeight := by
    refine epochOf_ok_iff.mpr ⟨coverage, hcoverage, ?_⟩
    unfold epochFromCoverage
    cases hresolved : coverage.resolvedLatestEpoch with
    | none => rfl
    | some latest =>
        obtain rfl := honly latest hresolved
        simp
  have hsnapshot : chain.v2Rpc.snapshotAt info.assignmentHeight = .ok snapshot :=
    snapshotAt_ok_iff.mpr ⟨raw, h.nodes, hdecode⟩
  rw [assignedNow_ok_iff]
  constructor
  · rintro ⟨epoch, snapshot', hepoch', hsnapshot', hmem⟩
    obtain rfl := Except.ok.inj (hepoch.symm.trans hepoch')
    obtain rfl := Except.ok.inj (hsnapshot.symm.trans hsnapshot')
    exact hmem
  · intro hmem
    exact ⟨_, _, hepoch, hsnapshot, hmem⟩

/-! ### A push of the file -/

variable [Blake3]

/-- What a validator has been through: how it was set up, and what it was asked. -/
structure ValidatorHistory where
  fileInfoCap : Nat
  snapshotCap : Nat
  ttl : Nat
  recheckMin : Nat
  calls : List PushValidator.PushCall

/-- The validator of an archive after this history, while the chain answers as `rpc` does. -/
def ValidatorHistory.validator (history : ValidatorHistory) (rpc : ChainRpc) (archive : Addr)
    (params : V2Params) : PushValidator :=
  ((PushValidator.withCapacities archive params history.fileInfoCap
    history.snapshotCap).withEpochTiming history.ttl history.recheckMin).after rpc history.calls

/-- Whatever a validator was asked before, it answers as the chain alone says. -/
theorem ValidatorHistory.answer (history : ValidatorHistory) (rpc : ChainRpc) (archive : Addr)
    (params : V2Params) (call : PushValidator.PushCall) :
    ((history.validator rpc archive params).answer rpc call).2
      = rpc.verdict archive params call.merkleRoot call.chunkIndex call.data call.merklePath := by
  have hfresh : ((PushValidator.withCapacities archive params history.fileInfoCap
      history.snapshotCap).withEpochTiming history.ttl history.recheckMin).Remembers rpc :=
    PushValidator.remembers_withCapacities ..
  obtain ⟨hafter, hself⟩ := PushValidator.after_remembers hfresh history.calls
  unfold validator PushValidator.answer
  rw [(PushValidator.validatePush_remembers hafter _ _ _ _ _).2, hself.myAddr, hself.params]
  rfl

/-- A row that the pushes of a file can be accepted under. -/
structure Pushable (chain : L1Chain) (root : Hash) (info : StorageFileInfoV2)
    (file : ReproducedFile) : Prop where
  sound : file.Sound
  same : file.manifest.merkleRoot = root
  row : chain.fileInfoV2 root = .ok (some info)
  named : decodeRootHex info.merkleRoot = some root
  count : file.manifest.chunkCount = info.chunkCount
  alive : info.lifecycle.isPending = true ∨ info.lifecycle.isActive = true

section

variable {file : ReproducedFile} {chunkIndex : Nat} {data : Bytes} {proof : List Hash}

omit [AssignmentScore] in
theorem Pushable.not_abandoned (h : Pushable chain root info file) :
    info.lifecycle.isAbandoned = false := by
  have halive := h.alive
  unfold LifecycleV2.isPending LifecycleV2.isActive at halive
  unfold LifecycleV2.isAbandoned
  rcases halive with h0 | h1
  · rw [of_decide_eq_true h0]
    rfl
  · rw [of_decide_eq_true h1]
    rfl

omit [AssignmentScore] in
/-- What is pushed of a chunk proves, and it is a chunk of the file. -/
theorem Pushable.pushed (h : Pushable chain root info file)
    (hpush : pushRequest file.manifest file.mapped file.tree chunkIndex
      = some (.push data root chunkIndex proof)) :
    chunkIndex < info.chunkCount ∧
      verifyMerkleProofBytesForTree (Blake3.hash data) chunkIndex proof root info.chunkCount
        = true := by
  have hlt : chunkIndex < file.manifest.chunkCount := by
    rw [← h.sound.count]
    by_contra hge
    unfold pushRequest at hpush
    rw [List.getElem?_eq_none (not_lt.mp hge)] at hpush
    cases hpush
  obtain ⟨data', proof', hpush', hverify⟩ := h.sound.proves hlt
  rw [h.same] at hpush' hverify
  obtain ⟨rfl, -, -, rfl⟩ := ShardRequestV2.push.inj (Option.some.inj (hpush.symm.trans hpush'))
  rw [h.count] at hlt hverify
  exact ⟨hlt, hverify⟩

/-- What the chain says of the push of a chunk of the file: the assignment decides. -/
theorem Pushable.verdict (h : Pushable chain root info file)
    (hpush : pushRequest file.manifest file.mapped file.tree chunkIndex
      = some (.push data root chunkIndex proof)) (archive : Addr) (params : V2Params) :
    chain.v2Rpc.verdict archive params root chunkIndex data proof
      = (chain.v2Rpc.assignedNow archive params root info chunkIndex).map
          fun _ => ⟨Blake3.hash data, info.visibility⟩ := by
  obtain ⟨hlt, hverify⟩ := h.pushed hpush
  have hrow : chain.v2Rpc.row root = .ok info := by
    unfold ChainRpc.row L1Chain.v2Rpc
    simp [h.row, h.named]
  have halive : (info.lifecycle.isPending || info.lifecycle.isActive) = true :=
    Bool.or_eq_true_iff.mpr h.alive
  unfold ChainRpc.verdict
  simp only [hrow, h.not_abandoned, halive, Bool.not_true, Bool.false_eq_true, if_false,
    not_le.mpr hlt, hverify]
  cases chain.v2Rpc.assignedNow archive params root info chunkIndex with
  | error e => rfl
  | ok _ => rfl

/-- The validator of the archive accepts the push of the chunk, whatever it was asked before. -/
def Accepts (chain : L1Chain) (root : Hash) (info : StorageFileInfoV2) (file : ReproducedFile)
    (params : V2Params) (chunkIndex : Nat) (archive : Addr) : Prop :=
  ∃ data proof, pushRequest file.manifest file.mapped file.tree chunkIndex
      = some (.push data root chunkIndex proof) ∧
    ∀ (history : ValidatorHistory) (clock : Nat → Nat),
      ((history.validator chain.v2Rpc archive params).answer chain.v2Rpc
        ⟨clock, root, chunkIndex, data, proof⟩).2 = .ok ⟨Blake3.hash data, info.visibility⟩

/-- The same of a validator that was asked nothing before. -/
def AcceptsFresh (chain : L1Chain) (root : Hash) (info : StorageFileInfoV2) (file : ReproducedFile)
    (params : V2Params) (chunkIndex : Nat) (archive : Addr) : Prop :=
  ∃ data proof, pushRequest file.manifest file.mapped file.tree chunkIndex
      = some (.push data root chunkIndex proof) ∧
    ∀ history : ValidatorHistory, history.calls = [] → ∀ clock : Nat → Nat,
      ((history.validator chain.v2Rpc archive params).answer chain.v2Rpc
        ⟨clock, root, chunkIndex, data, proof⟩).2 = .ok ⟨Blake3.hash data, info.visibility⟩

theorem Pushable.acceptsFresh_iff (h : Pushable chain root info file) (params : V2Params)
    (chunkIndex : Nat) (archive : Addr) :
    AcceptsFresh chain root info file params chunkIndex archive ↔
      chunkIndex < info.chunkCount ∧
        chain.v2Rpc.assignedNow archive params root info chunkIndex = .ok () := by
  constructor
  · rintro ⟨data, proof, hpush, haccepts⟩
    refine ⟨(h.pushed hpush).1, ?_⟩
    have hanswer := haccepts ⟨1, 1, 0, 0, []⟩ rfl fun _ => 0
    rw [ValidatorHistory.answer] at hanswer
    dsimp only at hanswer
    rw [h.verdict hpush] at hanswer
    cases hassigned : chain.v2Rpc.assignedNow archive params root info chunkIndex with
    | error e =>
        rw [hassigned] at hanswer
        cases hanswer
    | ok _ => rfl
  · rintro ⟨hlt, hassigned⟩
    rw [← h.count] at hlt
    obtain ⟨data, proof, hpush, -⟩ := h.sound.proves hlt
    rw [h.same] at hpush
    refine ⟨data, proof, hpush, ?_⟩
    intro history _ clock
    rw [ValidatorHistory.answer]
    dsimp only
    rw [h.verdict hpush, hassigned]
    rfl

/-- The caches make no difference. -/
theorem Pushable.accepts_iff_fresh (h : Pushable chain root info file) {params : V2Params}
    {chunkIndex : Nat} {archive : Addr} :
    Accepts chain root info file params chunkIndex archive ↔
      AcceptsFresh chain root info file params chunkIndex archive := by
  constructor
  · rintro ⟨data, proof, hpush, haccepts⟩
    exact ⟨data, proof, hpush, fun history _ => haccepts history⟩
  · intro hfresh
    obtain ⟨-, hassigned⟩ := (h.acceptsFresh_iff params chunkIndex archive).mp hfresh
    obtain ⟨data, proof, hpush, -⟩ := hfresh
    refine ⟨data, proof, hpush, ?_⟩
    intro history clock
    rw [ValidatorHistory.answer]
    dsimp only
    rw [h.verdict hpush, hassigned]
    rfl

theorem Pushable.accepts_iff (h : Pushable chain root info file) (params : V2Params)
    (chunkIndex : Nat) (archive : Addr) :
    Accepts chain root info file params chunkIndex archive ↔
      chunkIndex < info.chunkCount ∧
        chain.v2Rpc.assignedNow archive params root info chunkIndex = .ok () :=
  h.accepts_iff_fresh.trans (h.acceptsFresh_iff params chunkIndex archive)

end

/-! ### The owner's commands -/

omit [AssignmentScore] in
/-- A file that a repush has rebuilt can be accepted under its row. -/
theorem pushable_of_repushed [CryptoLib] [Bs58] [SumchainWire] {p : IngestPipeline}
    {info : OwnedFilePage} {fileName : Str} {content : Bytes} {file : ReproducedFile}
    (hfile : p.repushFile info root fileName content = .ok file)
    (hrow : chain.fileInfoV2 root = .ok (some info.toStorageFileInfoV2))
    (hnamed : decodeRootHex info.merkleRoot = some root) :
    Pushable chain root info.toStorageFileInfoV2 file := by
  obtain ⟨hreproduced, hmismatches⟩ := repushFile_ok hfile
  obtain ⟨hsound, hroot⟩ := sound_of_reproduced hreproduced
  refine ⟨hsound, hroot, hrow, hnamed, chunkCount_of_no_mismatch hmismatches, ?_⟩
  unfold IngestPipeline.repushFile at hfile
  by_cases habandoned : info.lifecycle.isAbandoned = true
  · rw [if_pos habandoned] at hfile
    cases hfile
  rw [if_neg habandoned] at hfile
  by_cases hother : (!info.lifecycle.isActive && !info.lifecycle.isPending) = true
  · rw [if_pos hother] at hfile
    cases hfile
  · cases hpending : info.lifecycle.isPending with
    | true => exact Or.inl rfl
    | false =>
        cases hactive : info.lifecycle.isActive with
        | true => exact Or.inr rfl
        | false => exact absurd (by rw [hpending, hactive]; rfl) hother

/--
**A repush pushes to the archives that accept.**  The pairs of chunk and archive that it
works out from the chain are those whose push the archive's validator accepts, a new one or
whatever it was asked before; and where a validator refuses for another reason than its
assignment, the repush ends with an error of its own.
-/
theorem repush_routes_to_acceptors [CryptoLib] [Bs58] [SumchainWire] {p : IngestPipeline}
    {info : OwnedFilePage} {fileName : Str} {content : Bytes} {file : ReproducedFile}
    (hfile : p.repushFile info root fileName content = .ok file)
    (hrow : chain.fileInfoV2 root = .ok (some info.toStorageFileInfoV2))
    (hnamed : decodeRootHex info.merkleRoot = some root) (params : V2Params) (chunkIndex : Nat)
    (archive : Addr) :
    ((∃ epoch targets, latestAssignmentTargets (chain.answersFor root) info.toStorageFileInfoV2 root
        params.assignmentReplicationFactor = .ok (epoch, targets) ∧
        (chunkIndex, archive) ∈ targets) ↔
      Accepts chain root info.toStorageFileInfoV2 file params chunkIndex archive) ∧
    (Accepts chain root info.toStorageFileInfoV2 file params chunkIndex archive ↔
      AcceptsFresh chain root info.toStorageFileInfoV2 file params chunkIndex archive) ∧
    ∀ (data : Bytes) (proof : List Hash) (history : ValidatorHistory) (clock : Nat → Nat)
      (e : PushReject), pushRequest file.manifest file.mapped file.tree chunkIndex
        = some (.push data root chunkIndex proof) →
      ((history.validator chain.v2Rpc archive params).answer chain.v2Rpc
        ⟨clock, root, chunkIndex, data, proof⟩).2 = .error e →
      e.isAssignment = true ∨ ∃ e', latestAssignmentTargets (chain.answersFor root)
        info.toStorageFileInfoV2 root params.assignmentReplicationFactor = .error e' := by
  have hpushable := pushable_of_repushed hfile hrow hnamed
  refine ⟨?_, hpushable.accepts_iff_fresh, ?_⟩
  · rw [hpushable.accepts_iff]
    exact mem_targets_iff_assignedNow
  · intro data proof history clock e hpush hanswer
    rw [ValidatorHistory.answer] at hanswer
    dsimp only at hanswer
    rw [hpushable.verdict hpush] at hanswer
    cases hother : e.isAssignment with
    | true => exact Or.inl rfl
    | false =>
        refine Or.inr ?_
        cases hassigned : chain.v2Rpc.assignedNow archive params root info.toStorageFileInfoV2
            chunkIndex with
        | ok _ =>
            rw [hassigned] at hanswer
            cases hanswer
        | error e' =>
            rw [hassigned] at hanswer
            obtain rfl := Except.error.inj hanswer
            exact latestAssignmentTargets_error hassigned hother _

/-- Two active archives, and one that is not. -/
def pairNodes : List NodeRecordInfo :=
  [⟨.archiveNode, .active, .ok 1⟩, ⟨.archiveNode, .other, .ok 2⟩, ⟨.archiveNode, .active, .ok 0⟩]

omit [Blake3] [AssignmentScore] in
theorem decodeSnapshot_pair : decodeSnapshot pairNodes = some [0, 1] := rfl

/-- A chain with one pending file and two archives, of which the first has the chunk. -/
def pairChain (info : StorageFileInfoV2) : L1Chain where
  fileInfoV2 := fun _ => .ok (some info)
  assignmentCoverageV2 := fun _ => soloAnswers.coverage
  activeNodesAtHeight := fun _ => .ok pairNodes

omit [AssignmentScore] in
theorem pair_targets [Bs58] [SumchainWire] [CryptoLib] (p : IngestPipeline)
    (merkleRoot : Hash) :
    letI := AssignmentScore.flat
    let info := (soloRow p merkleRoot).toStorageFileInfoV2
    latestAssignmentTargets ((pairChain info).answersFor merkleRoot) info merkleRoot 1
      = .ok (0, [(0, 0)]) := by
  let _ := AssignmentScore.flat
  have hassigned : assignedArchives merkleRoot [0, 1] 0 1 = [0] := rfl
  simp [latestAssignmentTargets, L1Chain.answersFor, pairChain, soloAnswers, epochFromCoverage,
    AssignmentCoverageV2.resolvedLatestEpoch, decodeSnapshot_pair, assignmentTargets, hassigned,
    soloRow]

omit [Blake3] [AssignmentScore] in
/-- The first archive accepts the chunk, and the second refuses it. -/
theorem pair_repush_routed :
    letI := Blake3.reference
    letI := Bs58.bitcoin
    letI := CryptoLib.reference
    letI := emptyWire
    letI := AssignmentScore.flat
    let file := ReproducedFile.ofPublic ['f'] [1, 2, 3]
    let merkleRoot := file.manifest.merkleRoot
    let info := (soloRow ownersPipeline merkleRoot).toStorageFileInfoV2
    latestAssignmentTargets ((pairChain info).answersFor merkleRoot) info merkleRoot 1
        = .ok (0, [(0, 0)]) ∧
      Accepts (pairChain info) merkleRoot info file ⟨1, 1⟩ 0 0 ∧
      AcceptsFresh (pairChain info) merkleRoot info file ⟨1, 1⟩ 0 0 ∧
      ¬ AcceptsFresh (pairChain info) merkleRoot info file ⟨1, 1⟩ 0 1 := by
  let _ := Blake3.reference
  let _ := Bs58.bitcoin
  let _ := CryptoLib.reference
  let _ := emptyWire
  let _ := AssignmentScore.flat
  intro file merkleRoot info
  have htargets := pair_targets ownersPipeline merkleRoot
  have hrow : (pairChain info).fileInfoV2 merkleRoot = .ok (some info) := rfl
  have hroutes := repush_routes_to_acceptors (solo_repushFile ownersPipeline rfl) hrow
    (SigningNode.decodeRootHex_0x merkleRoot) ⟨1, 1⟩ 0
  obtain ⟨hfirst, hfirstFresh, -⟩ := hroutes 0
  obtain ⟨hsecond, hsecondFresh, -⟩ := hroutes 1
  have haccepts := hfirst.mp ⟨0, _, htargets, List.mem_singleton_self _⟩
  refine ⟨htargets, haccepts, hfirstFresh.mp haccepts, ?_⟩
  intro hfresh
  obtain ⟨epoch, targets, heq, hmem⟩ := hsecond.mpr (hsecondFresh.mpr hfresh)
  obtain ⟨-, rfl⟩ := Prod.mk.inj (Except.ok.inj (htargets.symm.trans heq))
  cases List.mem_singleton.mp hmem

/--
**An ingest pushes to the archives that accept**, as long as the assignment of the file's
first epoch is its only one: of the chunks that are to be pushed, to every archive that has
a peer.  Whether its validator is a new one makes no difference.
-/
theorem ingest_routes_to_acceptors {σ : Type} [CryptoLib] (c : Ingest σ) {file : ReproducedFile}
    (hpushable : Pushable chain root info file) {coverage : AssignmentCoverageV2}
    {raw : List NodeRecordInfo} {snapshot : List Addr}
    (hcoverage : chain.assignmentCoverageV2 root = .ok (some coverage))
    (honly : ∀ epoch, coverage.resolvedLatestEpoch = some epoch → epoch = info.assignmentHeight)
    (hnodes : chain.activeNodesAtHeight info.assignmentHeight = .ok raw)
    (hdecode : decodeSnapshot raw = some snapshot) (chunks : Finset Nat) (peers : MapPeerResolver)
    (failure : Option DiscoveryFailure) (maxIndices chunkIndex : Nat) (peer : PeerId) :
    ((chunkIndex, peer) ∈ (c.pushJob file snapshot chunks peers failure).targets ↔
      chunkIndex ∈ chunks ∧ ∃ archive, peers.resolve archive = some peer ∧
        Accepts chain root info file ⟨c.params.assignmentReplicationFactor, maxIndices⟩ chunkIndex
          archive) ∧
    ∀ archive, Accepts chain root info file ⟨c.params.assignmentReplicationFactor, maxIndices⟩
        chunkIndex archive ↔
      AcceptsFresh chain root info file ⟨c.params.assignmentReplicationFactor, maxIndices⟩
        chunkIndex archive := by
  refine ⟨?_, fun _ => hpushable.accepts_iff_fresh⟩
  have hassigned : ∀ archive, chain.v2Rpc.assignedNow archive
      ⟨c.params.assignmentReplicationFactor, maxIndices⟩ root info chunkIndex = .ok () ↔
        archive ∈ assignedArchives root snapshot chunkIndex
          c.params.assignmentReplicationFactor := by
    intro archive
    exact OnlyEpoch.assignedNow_iff ⟨⟨coverage, hcoverage, honly⟩, hnodes⟩ hdecode
  have htargets : (chunkIndex, peer) ∈ (c.pushJob file snapshot chunks peers failure).targets ↔ _ :=
    Ingest.mem_pushTargets
  rw [htargets, hpushable.same, hpushable.count]
  simp only [hpushable.accepts_iff, hassigned]
  constructor
  · rintro ⟨hchunk, hlt, archive, hmem, hpeer⟩
    exact ⟨hchunk, archive, hpeer, hlt, hmem⟩
  · rintro ⟨hchunk, archive, hpeer, hlt, hmem⟩
    exact ⟨hchunk, hlt, archive, hmem, hpeer⟩

/-- The peers of the two archives. -/
def pairPeers : MapPeerResolver := ⟨[⟨10, 0⟩, ⟨11, 1⟩].toAList⟩

omit [Blake3] [AssignmentScore] in
theorem pairPeers_resolve_first : pairPeers.resolve 0 = some 10 := by decide +kernel

omit [Blake3] [AssignmentScore] in
theorem eq_of_pairPeers_resolve {archive : Addr} (h : pairPeers.resolve archive = some 11) :
    archive = 1 := by
  have hentries : pairPeers.peerAddresses.entries = [⟨10, 0⟩, ⟨11, 1⟩] := rfl
  have hmem := List.min?_mem h
  rw [hentries] at hmem
  simp only [List.mem_map, List.mem_filter, decide_eq_true_eq] at hmem
  obtain ⟨e, ⟨he, rfl⟩, hpeer⟩ := hmem
  simp only [List.mem_cons, List.not_mem_nil, or_false] at he
  rcases he with rfl | rfl
  · cases hpeer
  · rfl

omit [Blake3] [AssignmentScore] in
/-- The chunk goes to the peer of the first archive and not to that of the second. -/
theorem pair_ingest_routed :
    letI := Blake3.reference
    letI := Bs58.bitcoin
    letI := CryptoLib.reference
    letI := emptyWire
    letI := AssignmentScore.flat
    let file := ReproducedFile.ofPublic ['f'] [1, 2, 3]
    let merkleRoot := file.manifest.merkleRoot
    let info : RegisteredFilePage := ⟨soloRow ownersPipeline merkleRoot, 0, none, none⟩
    let targets := ((soloIngest ownersPipeline info).pushJob file [0, 1] {0} pairPeers none).targets
    (0, 10) ∈ targets ∧ (0, 11) ∉ targets ∧
      AcceptsFresh (pairChain info.toStorageFileInfoV2) merkleRoot info.toStorageFileInfoV2 file
        ⟨1, 1⟩ 0 0 := by
  let _ := Blake3.reference
  let _ := Bs58.bitcoin
  let _ := CryptoLib.reference
  let _ := emptyWire
  let _ := AssignmentScore.flat
  intro file merkleRoot info targets
  have hpushable : Pushable (pairChain info.toStorageFileInfoV2) merkleRoot
      info.toStorageFileInfoV2 file :=
    pushable_of_repushed (solo_repushFile ownersPipeline rfl) rfl
      (SigningNode.decodeRootHex_0x merkleRoot)
  have honly : ∀ epoch,
      (⟨1, 0, false, 1, 0, [0], [], [], 0, false, []⟩ : AssignmentCoverageV2).resolvedLatestEpoch
        = some epoch → epoch = info.assignmentHeight := by
    intro epoch hepoch
    cases hepoch
  have hroutes := ingest_routes_to_acceptors (soloIngest ownersPipeline info) hpushable rfl honly rfl
    decodeSnapshot_pair {0} pairPeers none 1 0
  -- the assignment of the archives, as the validators find it
  have htargets := pair_targets ownersPipeline merkleRoot
  have haccepts := (hpushable.accepts_iff ⟨1, 1⟩ 0 0).mpr (mem_targets_iff_assignedNow.mp
    ⟨0, _, htargets, List.mem_singleton_self _⟩)
  refine ⟨(hroutes 10).1.mpr ⟨Finset.mem_singleton_self 0, 0, pairPeers_resolve_first, haccepts⟩, ?_,
    ((hroutes 10).2 0).mp haccepts⟩
  intro hmem
  obtain ⟨-, archive, hresolve, hsecond⟩ := (hroutes 11).1.mp hmem
  obtain rfl := eq_of_pairPeers_resolve hresolve
  obtain ⟨epoch, targets', heq, hpair⟩ :=
    mem_targets_iff_assignedNow.mpr ((hpushable.accepts_iff ⟨1, 1⟩ 0 1).mp hsecond)
  obtain ⟨-, rfl⟩ := Prod.mk.inj (Except.ok.inj (htargets.symm.trans heq))
  cases List.mem_singleton.mp hpair

end

end Snip
