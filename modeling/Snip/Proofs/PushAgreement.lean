/-
What is pushed of a file, and what the archives make of it.

A command pushes a chunk to the peers of the archives that find it assigned to themselves:
`repush` at the latest epoch of the file, the others at its first.  `repush` refuses a row
that counts the chunks otherwise than the file does.  The others go on with such a row, and
then the archives refuse the proofs that they send.
-/
import Snip.Proofs.ChunkPushes
import Snip.Proofs.PushRouting
import Snip.Proofs.ResumeDelivery

namespace Snip

open Dialogue

/-! ### A validator that has cached nothing -/

section

variable [AssignmentScore]

/-- What the validator of an archive finds of the assignment of a chunk, with empty caches. -/
def freshCheck (rpc : ChainRpc) (clock : Nat → Nat) (archive : Addr) (params : V2Params)
    (root : Hash) (info : StorageFileInfoV2) (chunkIndex : Nat) : Except PushReject Unit :=
  ((PushValidator.new archive params).checkAssignment rpc clock root info chunkIndex).2

/-- A snapshot that is not cached is read from the chain. -/
theorem checkAssigned_uncached {rpc : ChainRpc} {v : PushValidator} {root : Hash} {epoch : Nat}
    (hsnapshot : v.snapshot.peek epoch = none) (chunkIndex : Nat) :
    (v.checkAssigned rpc root epoch chunkIndex).2
      = rpc.assigned v.myAddr v.params root epoch chunkIndex := by
  unfold PushValidator.checkAssigned PushValidator.fetchSnapshot ChainRpc.assigned
    ChainRpc.snapshotAt
  simp only [hsnapshot]
  cases rpc.activeNodesAtHeight epoch with
  | error e => rfl
  | ok raw =>
      dsimp only
      cases decodeSnapshot raw with
      | none => rfl
      | some snapshot =>
          dsimp only
          by_cases hin : v.myAddr ∈ snapshot
          · rw [if_neg (not_not.mpr hin), if_neg (not_not.mpr hin)]
            by_cases hassigned : v.myAddr ∈ assignedArchives root snapshot chunkIndex
                v.params.assignmentReplicationFactor
            · rw [if_neg (not_not.mpr hassigned), if_neg (not_not.mpr hassigned)]
            · rw [if_pos hassigned, if_pos hassigned]
          · rw [if_pos hin, if_pos hin]

/-- It finds what the chain says now. -/
theorem freshCheck_eq (rpc : ChainRpc) (clock : Nat → Nat) (archive : Addr) (params : V2Params)
    (root : Hash) (info : StorageFileInfoV2) (chunkIndex : Nat) :
    freshCheck rpc clock archive params root info chunkIndex
      = rpc.assignedNow archive params root info chunkIndex := by
  have hread : (PushValidator.new archive params).assignmentEpoch rpc (clock 0) (clock 1) root info
      (PushValidator.new archive params).epochTtl
        = (PushValidator.new archive params).readEpoch rpc (clock 1) root info := rfl
  unfold freshCheck PushValidator.checkAssignment
  rw [hread]
  unfold PushValidator.readEpoch ChainRpc.assignedNow ChainRpc.epochOf
  cases rpc.latestAssignmentEpoch root with
  | error e => rfl
  | ok latest =>
      dsimp only
      by_cases hlow : latest.getD info.assignmentHeight < info.assignmentHeight
      · rw [if_pos hlow, if_pos hlow]
      · rw [if_neg hlow, if_neg hlow]
        dsimp only
        generalize hv : { PushValidator.new archive params with
          epochs := (PushValidator.new archive params).epochs.put root
            (latest.getD info.assignmentHeight, clock 1) } = v
        have hchecked : (v.checkAssigned rpc root (latest.getD info.assignmentHeight)
            chunkIndex).2 = rpc.assigned archive params root
              (latest.getD info.assignmentHeight) chunkIndex := by
          subst hv
          exact checkAssigned_uncached rfl chunkIndex
        rw [← hchecked]
        cases hanswer : v.checkAssigned rpc root (latest.getD info.assignmentHeight)
            chunkIndex with
        | mk w answer =>
            cases answer with
            | ok _ => rfl
            | error refused => simp

end

/-! ### `repush` -/

section

variable [Blake3] [AssignmentScore] [CryptoLib] [Bs58] [SumchainWire]

/--
What a repush of a file comes to on a chain that answers the validators as it answers the
owner: it targets the pairs that new validators find assigned, it ends with an error where one
of them cannot tell, and what it sends to the peers of its targets proves.
-/
structure RepushMatches (p : IngestPipeline) (params : RepushParams) (merkleRoot : Hash)
    (fileName : Str) (info : OwnedFilePage) (content : Bytes) (file : ReproducedFile)
    (chain : L1Chain) : Prop where
  pairs : ∀ clock maxIndices chunkIndex archive,
    (∃ epoch targets, latestAssignmentTargets (chain.answersFor merkleRoot)
        info.toStorageFileInfoV2 merkleRoot params.assignmentReplicationFactor
        = .ok (epoch, targets) ∧ (chunkIndex, archive) ∈ targets) ↔
      chunkIndex < info.chunkCount ∧
        freshCheck chain.v2Rpc clock archive ⟨params.assignmentReplicationFactor, maxIndices⟩
          merkleRoot info.toStorageFileInfoV2 chunkIndex = .ok ()
  refused : ∀ clock maxIndices chunkIndex archive e,
    freshCheck chain.v2Rpc clock archive ⟨params.assignmentReplicationFactor, maxIndices⟩ merkleRoot
      info.toStorageFileInfoV2 chunkIndex = .error e → e.isAssignment = false →
    ∃ failure, ∀ world : RepushWorld, world.row = .ok (some info) → world.content = content →
      world.first = chain.answersFor merkleRoot →
      p.repush params merkleRoot fileName world = .ok (.failed failure)
  proves : ∀ epoch targets (peers : MapPeerResolver)
    (entries : List (RepushEntry (Nat × PeerId))) s,
    latestAssignmentTargets (chain.answersFor merkleRoot) info.toStorageFileInfoV2 merkleRoot
      params.assignmentReplicationFactor = .ok (epoch, targets) →
    let job : RepushJob := ⟨file, merkleRoot, params.pushRetries, peers⟩
    entries.foldlM (RepushChunks.turn job) (RepushChunks.start job targets) = some s →
    ∀ key ok, .sent key ok ∈ entries → ∃ archive data proof, (key.1, archive) ∈ targets ∧
      peers.resolve archive = some key.2 ∧
      RepushChunks.request job key.1 = some (.push data merkleRoot key.1 proof) ∧
      verifyMerkleProofBytesForTree (Blake3.hash data) key.1 proof merkleRoot info.chunkCount = true

theorem repush_matches {p : IngestPipeline} {info : OwnedFilePage} {merkleRoot : Hash}
    {fileName : Str} {content : Bytes} {file : ReproducedFile}
    (hfile : p.repushFile info merkleRoot fileName content = .ok file) (params : RepushParams)
    (chain : L1Chain) :
    RepushMatches p params merkleRoot fileName info content file chain := by
  obtain ⟨hreproduced, hmismatches⟩ := repushFile_ok hfile
  obtain ⟨hsound, hroot⟩ := sound_of_reproduced hreproduced
  have hcount := chunkCount_of_no_mismatch hmismatches
  refine ⟨?_, ?_, ?_⟩
  · intro clock maxIndices chunkIndex archive
    rw [freshCheck_eq]
    exact mem_targets_iff_assignedNow
  · intro clock maxIndices chunkIndex archive e hcheck hother
    rw [freshCheck_eq] at hcheck
    obtain ⟨e', htargets⟩ := latestAssignmentTargets_error hcheck hother
      params.assignmentReplicationFactor
    unfold IngestPipeline.repush
    by_cases hzero : params.assignmentReplicationFactor = 0
    · exact ⟨.zeroReplication, fun _ _ _ _ => if_pos hzero⟩
    · refine ⟨.targets e', ?_⟩
      intro world hrow hcontent hfirst
      rw [if_neg hzero, hrow, hcontent, hfirst]
      simp only [hfile, htargets]
  · intro epoch targets peers entries s htargets job hrun key ok hsent
    obtain ⟨snapshot, -, rfl⟩ := latestAssignmentTargets_ok htargets
    obtain ⟨archive, hmem, hpeer⟩ := RepushChunks.sent_of_run (assignmentTargets_nodup _ _ _ _)
      (requests_of_sound hsound hcount) hrun hsent
    have hlt : key.1 < file.manifest.chunkCount := hcount ▸ (mem_assignmentTargets.mp hmem).1
    obtain ⟨data, proof, hpush, hverify⟩ := hsound.proves hlt
    rw [hroot] at hpush hverify
    rw [hcount] at hverify
    exact ⟨archive, data, proof, hmem, hpeer, hpush, hverify⟩

end

/-! ### The commands that go by the first epoch -/

/-- The chunk was pushed to the peer. -/
def PushedTo (log : List IngestCall) (chunkIndex : Nat) (peer : PeerId) : Prop :=
  ∃ data merkleRoot proof answer,
    .push peer (.push data merkleRoot chunkIndex proof) answer ∈ log

namespace Ingest

section

variable {σ : Type} [Blake3] [AssignmentScore] [CryptoLib]

/-- The row counts every chunk that goes out, and gives their proofs the depth of the file's. -/
def RowCounts (c : Ingest σ) (file : ReproducedFile) (snapshot : List Addr) (chunks : Finset Nat)
    (resolver : MapPeerResolver) (chunkCount : Nat) : Prop :=
  ∀ i ∈ chunks, i < file.manifest.chunkCount →
    (∃ archive ∈ assignedArchives file.manifest.merkleRoot snapshot i
      c.params.assignmentReplicationFactor, (resolver.resolve archive).isSome = true) →
    i < chunkCount ∧ expectedProofDepth chunkCount = expectedProofDepth file.manifest.chunkCount

/-- What new validators make of the pushes of a log, on a chain with one epoch of the file. -/
structure MeetsValidators (c : Ingest σ) (file : ReproducedFile) (chunks : Finset Nat)
    (resolver : MapPeerResolver) (info : RegisteredFilePage) (raw : List NodeRecordInfo)
    (log : List IngestCall) : Prop where
  pairs : ∀ chain : L1Chain,
    OnlyEpoch chain file.manifest.merkleRoot info.toStorageFileInfoV2 raw →
    ∀ clock maxIndices i peer, PushedTo log i peer ↔
      i ∈ chunks ∧ i < file.manifest.chunkCount ∧ ∃ archive, resolver.resolve archive = some peer ∧
        freshCheck chain.v2Rpc clock archive ⟨c.params.assignmentReplicationFactor, maxIndices⟩
          file.manifest.merkleRoot info.toStorageFileInfoV2 i = .ok ()
  proves : ∀ peer data merkleRoot i proof answer,
    .push peer (.push data merkleRoot i proof) answer ∈ log →
    merkleRoot = file.manifest.merkleRoot ∧
      verifyMerkleProofBytesForTree (Blake3.hash data) i proof merkleRoot info.chunkCount = true

/--
The pushes of a log go by the row and the snapshot that were read before them and by the peers
heard of by then.  They meet the validators exactly where the row counts the chunks.
-/
def PushesAgree (c : Ingest σ) (file : ReproducedFile) (chunks : Finset Nat)
    (peers : MapPeerResolver) (info : RegisteredFilePage) (raw : List NodeRecordInfo)
    (log : List IngestCall) : Prop :=
  ∃ snapshot before, decodeSnapshot raw = some snapshot ∧ before <+: log ∧ Pushless before ∧
    List.Sublist [.fileInfo (fileRootHex file.manifest.merkleRoot) (.ok (some info)),
      .activeNodes info.assignmentHeight (.ok raw)] log ∧
    (∀ i peer, PushedTo log i peer ↔ i ∈ chunks ∧ i < file.manifest.chunkCount ∧
      ∃ archive ∈ assignedArchives file.manifest.merkleRoot snapshot i
        c.params.assignmentReplicationFactor, (peers.heard before).resolve archive = some peer) ∧
    (c.MeetsValidators file chunks (peers.heard before) info raw log ↔
      c.RowCounts file snapshot chunks (peers.heard before) info.chunkCount)

variable {c : Ingest σ} {file : ReproducedFile} {chunks : Finset Nat} {log : List IngestCall}

omit [CryptoLib] [AssignmentScore] in
/-- What is pushed of a sound file proves for the leaves that the file has. -/
theorem Pushes.proves {targets : List (Nat × PeerId)} (hsound : file.Sound)
    (h : Pushes file targets log) {peer : PeerId} {data : Bytes} {merkleRoot : Hash} {i : Nat}
    {proof : List Hash} {answer : Except Str Unit}
    (hmem : .push peer (.push data merkleRoot i proof) answer ∈ log)
    (hlt : i < file.manifest.chunkCount) : merkleRoot = file.manifest.merkleRoot ∧
      verifyMerkleProofBytesForTree (Blake3.hash data) i proof merkleRoot file.manifest.chunkCount
        = true := by
  obtain ⟨-, hrequest⟩ := h.own _ _ _ _ _ _ hmem
  obtain ⟨data', proof', hpush, hverify⟩ := hsound.proves hlt
  obtain ⟨rfl, rfl, -, rfl⟩ := ShardRequestV2.push.inj (Option.some.inj (hrequest.symm.trans hpush))
  exact ⟨rfl, hverify⟩

theorem RoutesBy.agree (hsound : file.Sound) {peers : MapPeerResolver} {info : RegisteredFilePage}
    {raw : List NodeRecordInfo} (h : c.RoutesBy file chunks peers info raw log) :
    c.PushesAgree file chunks peers info raw log := by
  obtain ⟨snapshot, hdecode, before, rest, rfl, hbefore, hpushes⟩ := h.routes
  have hrest : ∀ {peer : PeerId} {data : Bytes} {merkleRoot : Hash} {i : Nat}
      {proof : List Hash} {answer : Except Str Unit},
      .push peer (.push data merkleRoot i proof) answer ∈ before ++ rest →
      .push peer (.push data merkleRoot i proof) answer ∈ rest := by
    intro peer data merkleRoot i proof answer hmem
    exact (List.mem_append.mp hmem).resolve_left (mem_chunkPush hbefore)
  have hpushed : ∀ i peer, PushedTo (before ++ rest) i peer ↔ i ∈ chunks ∧
      i < file.manifest.chunkCount ∧ ∃ archive ∈ assignedArchives file.manifest.merkleRoot snapshot
        i c.params.assignmentReplicationFactor,
        (peers.heard before).resolve archive = some peer := by
    intro i peer
    rw [← mem_pushTargets]
    constructor
    · rintro ⟨data, merkleRoot, proof, answer, hmem⟩
      exact (hpushes.own _ _ _ _ _ _ (hrest hmem)).1
    · intro hkey
      obtain ⟨data, merkleRoot, proof, answer, hmem⟩ := hpushes.each _ hkey
      exact ⟨data, merkleRoot, proof, answer, List.mem_append_right _ hmem⟩
  refine ⟨snapshot, before, hdecode, List.prefix_append _ _, hbefore, h.read, hpushed, ?_, ?_⟩
  · intro hmeets i hi hlt hpeer
    obtain ⟨archive, hassigned, hsome⟩ := hpeer
    obtain ⟨peer, hpeer⟩ := Option.isSome_iff_exists.mp hsome
    obtain ⟨data, merkleRoot, proof, answer, hmem⟩ :=
      (hpushed i peer).mpr ⟨hi, hlt, archive, hassigned, hpeer⟩
    obtain ⟨-, hverify⟩ := hpushes.proves hsound (hrest hmem) hlt
    exact (verifyForTree_recount hverify _).mp (hmeets.proves _ _ _ _ _ _ hmem).2
  · intro hcounts
    refine ⟨?_, ?_⟩
    · intro chain honly clock maxIndices i peer
      rw [hpushed]
      simp only [freshCheck_eq, honly.assignedNow_iff hdecode, and_comm]
    · intro peer data merkleRoot i proof answer hmem
      obtain ⟨hi, hlt, archive, hassigned, hpeer⟩ :=
        (hpushed i peer).mp ⟨data, merkleRoot, proof, answer, hmem⟩
      obtain ⟨hroot, hverify⟩ := hpushes.proves hsound (hrest hmem) hlt
      refine ⟨hroot, (verifyForTree_recount hverify _).mpr (hcounts i hi hlt ⟨archive, hassigned, ?_⟩)⟩
      rw [hpeer]
      rfl

variable [Bs58] [SumchainWire] [FileLifecycleWire]

/-- How a command that registers what was made of a file pushes all its chunks. -/
def IngestAgrees (c : Ingest σ) (made : Except IngestOutcome Registration)
    (peers : MapPeerResolver) (log : List IngestCall) : Prop :=
  ∃ r info raw, made = .ok r ∧
    c.PushesAgree r.file (Finset.range r.file.manifest.chunkCount) peers info raw log

/-- How a resume pushes the chunks of a file that the pages of its coverage list as missing. -/
def ResumeAgrees (c : Ingest σ) (merkleRoot : Hash) (peers : MapPeerResolver)
    (log : List IngestCall) : Prop :=
  ∃ file missing pages info raw, file.Sound ∧ file.manifest.merkleRoot = merkleRoot ∧
    Listed (fileRootHex merkleRoot) pages missing ∧ pages.Sublist log ∧
    c.PushesAgree file missing peers info raw log

omit [Bs58] [SumchainWire] [FileLifecycleWire] in
theorem IngestRoutes.agree {made : Except IngestOutcome Registration} {peers : MapPeerResolver}
    (hsound : ∀ r, made = .ok r → r.file.Sound) (h : c.IngestRoutes made peers log) :
    c.IngestAgrees made peers log := by
  obtain ⟨r, info, raw, hmade, hroutes⟩ := h
  exact ⟨r, info, raw, hmade, hroutes.agree (hsound r hmade)⟩

omit [Bs58] [SumchainWire] [FileLifecycleWire] in
theorem ResumeRoutes.agree {merkleRoot : Hash} {peers : MapPeerResolver}
    (h : c.ResumeRoutes merkleRoot peers log) : c.ResumeAgrees merkleRoot peers log := by
  obtain ⟨file, missing, pages, info, raw, hsound, hroot, hlisted, hpages, hroutes⟩ := h
  exact ⟨file, missing, pages, info, raw, hsound, hroot, hlisted, hpages, hroutes.agree hsound⟩

omit [Blake3] [AssignmentScore] [CryptoLib] [Bs58] [SumchainWire] [FileLifecycleWire] in
theorem PushesOrStops.imp {Routed Routed' : List IngestCall → Prop}
    (h : ∀ log, Routed log → Routed' log) {out : Except Pause IngestOutcome}
    (hlog : PushesOrStops Routed log out) : PushesOrStops Routed' log out :=
  hlog.imp_left (h log)

end

end Ingest

/--
**What is pushed of a file meets the validators of its archives**, by `repush` always, and by
the other commands exactly where the row that they go by counts the chunks that they push and
asks for proofs of the depth that the file has.
-/
theorem pushes_meet_validators [Blake3] [AssignmentScore] [CryptoLib] [Bs58] [SumchainWire]
    [FileLifecycleWire] :
    (∀ (p : IngestPipeline) info merkleRoot fileName content file params chain,
      p.repushFile info merkleRoot fileName content = .ok file →
      RepushMatches p params merkleRoot fileName info content file chain) ∧
    ∀ (σ : Type) (c : Ingest σ),
      (∀ fileName content peers clock, Ensures (c.run fileName content peers clock)
        (Ingest.PushesOrStops
          (c.IngestAgrees (c.publicRegistration fileName content) peers))) ∧
      (∀ kFile ephSeeds fileName content recipients peers clock,
        Ensures (c.runPrivately kFile ephSeeds fileName content recipients peers clock)
          (Ingest.PushesOrStops (c.IngestAgrees
            (c.privateRegistration kFile ephSeeds fileName content recipients) peers))) ∧
      ∀ merkleRoot fileName content peers calls clock,
        Ensures (c.resume merkleRoot fileName content peers calls clock)
          (Ingest.PushesOrStops (c.ResumeAgrees merkleRoot peers)) := by
  refine ⟨fun p info merkleRoot fileName content file params chain hfile =>
    repush_matches hfile params chain, fun σ c => ⟨?_, ?_, ?_⟩⟩
  · intro fileName content peers clock
    refine Ensures.mono (c.run_routes fileName content peers clock) fun _ _ => ?_
    refine Ingest.PushesOrStops.imp fun _ => Ingest.IngestRoutes.agree ?_
    intro r hmade
    obtain ⟨-, -, -, hsound, -⟩ := Ingest.publicRegistration_ok hmade
    exact hsound
  · intro kFile ephSeeds fileName content recipients peers clock
    refine Ensures.mono (c.runPrivately_routes kFile ephSeeds fileName content recipients peers
      clock) fun _ _ => ?_
    refine Ingest.PushesOrStops.imp fun _ => Ingest.IngestRoutes.agree ?_
    intro r hmade
    obtain ⟨-, -, -, -, -, hsound, -⟩ := Ingest.privateRegistration_ok hmade
    exact hsound
  · intro merkleRoot fileName content peers calls clock
    exact Ensures.mono (c.resume_routes merkleRoot fileName content peers calls clock)
      fun _ _ => Ingest.PushesOrStops.imp fun _ => Ingest.ResumeRoutes.agree

/-! #### A row that counts two chunks

The file has one chunk, and a resume of it goes by a row that says two. -/

section

variable [Blake3] [CryptoLib]

/-- The coverage lists the first chunk as missing, and nothing on the page behind it. -/
def oneMissing (offset : Option Nat) : AssignmentCoverageV2 :=
  ⟨2, 0, false, 1, 0, if offset = some 1 then [] else [0], [], [], 0, false, []⟩

/-- The archive is known and silent, and the chunk has not been attested. -/
def miscountedIngest (p : IngestPipeline) (info : RegisteredFilePage) : Ingest SoloState where
  toIngestPipeline := p
  params := (soloIngest p info).params
  env :=
    { soloEnv info with
      coverage := ⟨fun _ offset _ s => (.ok (some (oneMissing offset)), s)⟩
      push := fun _ _ s => (.ok (), s) }

def miscountedRun [Bs58] [SumchainWire] [FileLifecycleWire] [AssignmentScore] (p : IngestPipeline)
    (info : RegisteredFilePage) : Except Pause IngestOutcome × List IngestCall × SoloState :=
  (miscountedIngest p info).resume unheardFile.manifest.merkleRoot ['f'] (.ok [1, 2, 3]) soloPeers 3
    soloClock ⟨[], true, false⟩

end

/-- What is pushed of a chunk, if the call is the push of one. -/
def IngestCall.pushed? : IngestCall → Option (Bytes × Hash × Nat × List Hash)
  | .push _ (.push data merkleRoot chunkIndex proof) _ => some (data, merkleRoot, chunkIndex, proof)
  | _ => none

theorem IngestCall.of_pushed {call : IngestCall} {data : Bytes} {merkleRoot : Hash} {i : Nat}
    {proof : List Hash} (h : call.pushed? = some (data, merkleRoot, i, proof)) :
    ∃ peer answer, call = .push peer (.push data merkleRoot i proof) answer := by
  cases call with
  | push peer request answer =>
      cases request with
      | push data' root j proof' =>
          cases h
          exact ⟨peer, answer, rfl⟩
      | _ => cases h
  | _ => cases h

/-- The chunk goes out with a path that proves for one leaf and not for the two of the row. -/
theorem miscounted_row_pushed :
    letI := Blake3.reference
    letI := Bs58.bitcoin
    letI := CryptoLib.reference
    letI := emptyWire
    letI := AssignmentScore.flat
    letI : FileLifecycleWire := ⟨fun _ => []⟩
    let merkleRoot := unheardFile.manifest.merkleRoot
    let info : RegisteredFilePage := ⟨⟨⟨⟨[], 3, 3, 2, 0, 0, 0⟩, []⟩, []⟩, 0, none, none⟩
    ∃ peer data proof answer, .push peer (.push data merkleRoot 0 proof) answer
        ∈ (miscountedRun ownersPipeline info).2.1 ∧
      verifyMerkleProofBytesForTree (Blake3.hash data) 0 proof merkleRoot info.chunkCount
        = false := by
  let _ := Blake3.reference
  let _ := Bs58.bitcoin
  let _ := CryptoLib.reference
  let _ := emptyWire
  let _ := AssignmentScore.flat
  let _ : FileLifecycleWire := ⟨fun _ => []⟩
  intro merkleRoot info
  have hpushed : (miscountedRun ownersPipeline info).2.1.filterMap IngestCall.pushed?
      = [([1, 2, 3], merkleRoot, 0, [])] := by decide +kernel
  generalize (miscountedRun ownersPipeline info).2.1 = log at hpushed ⊢
  obtain ⟨call, hcall, hpush⟩ := List.mem_filterMap.mp (hpushed ▸ List.mem_singleton_self _)
  obtain ⟨peer, answer, rfl⟩ := IngestCall.of_pushed hpush
  refine ⟨peer, _, _, answer, hcall, ?_⟩
  -- two leaves ask for a path of one step
  have hdepth : expectedProofDepth 2 = 1 := by decide
  refine Bool.eq_false_iff.mpr fun hverify => ?_
  have hlength : 0 = expectedProofDepth 2 := (verifyForTree_iff_walk.mp hverify).2.1
  rw [hdepth] at hlength
  cases hlength

end Snip
