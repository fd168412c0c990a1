/-
The report of `repush`.

The pairs it pushes are those of the epoch that was read first.  Each loop leaves an exact
result for each of its targets, so the report, which only looks them up, is exact as well,
and its exit code is the one of a complete run when it is one.
-/
import Snip.Proofs.Acceptance
import Snip.Proofs.Assignment
import Snip.Proofs.PrivateCalls
import Snip.Proofs.Rebuild
import Snip.Proofs.RepushChunks
import Snip.Proofs.RepushManifests

namespace Snip

/-! ### The targets -/

section

variable [AssignmentScore]

theorem mem_assignmentTargets {merkleRoot : Hash} {chunkCount r : Nat} {snapshot : List Addr}
    {t : Nat × Addr} :
    t ∈ assignmentTargets merkleRoot chunkCount snapshot r ↔
      t.1 < chunkCount ∧ t.2 ∈ assignedArchives merkleRoot snapshot t.1 r := by
  unfold assignmentTargets
  rw [List.mem_flatMap]
  constructor
  · rintro ⟨i, hi, ht⟩
    obtain ⟨archive, harchive, rfl⟩ := List.mem_map.mp ht
    exact ⟨List.mem_range.mp hi, harchive⟩
  · intro ⟨hi, harchive⟩
    exact ⟨t.1, List.mem_range.mpr hi, List.mem_map.mpr ⟨t.2, harchive, rfl⟩⟩

theorem assignmentTargets_nodup (merkleRoot : Hash) (chunkCount : Nat) (snapshot : List Addr)
    (r : Nat) : (assignmentTargets merkleRoot chunkCount snapshot r).Nodup := by
  unfold assignmentTargets
  rw [List.nodup_flatMap]
  constructor
  · intro i _
    exact (assignedArchives_nodup merkleRoot snapshot i r).map fun a b h => (Prod.mk.inj h).2
  · refine List.Pairwise.imp ?_ List.nodup_range
    intro i j hne t hi hj
    obtain ⟨a, -, rfl⟩ := List.mem_map.mp hi
    obtain ⟨b, -, hb⟩ := List.mem_map.mp hj
    exact hne (Prod.mk.inj hb).1.symm

/-- What the chain answers about the latest epoch of a file, with its snapshot. -/
structure AssignmentAnswers.Reads (answers : AssignmentAnswers) (info : StorageFileInfoV2)
    (epoch : Nat) (snapshot : List Addr) : Prop where
  coverage : ∃ coverage, answers.coverage = .ok (some coverage) ∧
    epochFromCoverage coverage info.assignmentHeight = .ok epoch
  nodes : ∃ raw, answers.activeNodesAtHeight epoch = .ok raw ∧ decodeSnapshot raw = some snapshot

theorem latestAssignmentTargets_ok {answers : AssignmentAnswers} {info : StorageFileInfoV2}
    {merkleRoot : Hash} {r epoch : Nat} {targets : List (Nat × Addr)}
    (h : latestAssignmentTargets answers info merkleRoot r = .ok (epoch, targets)) :
    ∃ snapshot, answers.Reads info epoch snapshot ∧
      targets = assignmentTargets merkleRoot info.chunkCount snapshot r := by
  unfold latestAssignmentTargets at h
  cases hanswer : answers.coverage with
  | error e => simp [hanswer] at h
  | ok row =>
  cases row with
  | none => simp [hanswer] at h
  | some coverage =>
  cases hepoch : epochFromCoverage coverage info.assignmentHeight with
  | error e => simp [hanswer, hepoch] at h
  | ok now =>
  cases hnodes : answers.activeNodesAtHeight now with
  | error e => simp [hanswer, hepoch, hnodes] at h
  | ok raw =>
  cases hsnapshot : decodeSnapshot raw with
  | none => simp [hanswer, hepoch, hnodes, hsnapshot] at h
  | some snapshot =>
  simp only [hanswer, hepoch, hnodes, hsnapshot] at h
  by_cases hempty : snapshot = []
  · rw [if_pos hempty] at h
    cases h
  · rw [if_neg hempty] at h
    obtain ⟨rfl, rfl⟩ := Prod.mk.inj (Except.ok.inj h)
    exact ⟨snapshot, ⟨⟨coverage, hanswer, hepoch⟩, raw, hnodes, hsnapshot⟩, rfl⟩

end

/-! ### The report -/

def RepushTarget.pair (t : RepushTarget) : Nat × Addr := (t.chunkIndex, t.archive)

def RepushReport.pairs (report : RepushReport) : List (Nat × Addr) :=
  report.targets.map RepushTarget.pair

/-- Every result is there, so the report is one. -/
theorem reportTargets_ok {results : Map (Nat × Addr) RepushResult} (targets : List (Nat × Addr))
    (hknown : ∀ t ∈ targets, (results.lookup t).isSome = true) :
    ∃ reported, reportTargets targets results = .ok reported ∧
      reported.map RepushTarget.pair = targets ∧
      ∀ t ∈ reported, results.lookup t.pair = some t.result := by
  induction targets with
  | nil => exact ⟨[], rfl, rfl, nofun⟩
  | cons t targets ih =>
      obtain ⟨reported, hreported, hpairs, hresults⟩ :=
        ih fun u hu => hknown u (List.mem_cons_of_mem _ hu)
      obtain ⟨result, hresult⟩ := Option.isSome_iff_exists.mp (hknown t List.mem_cons_self)
      refine ⟨⟨t.1, t.2, result⟩ :: reported, ?_, ?_, ?_⟩
      · unfold reportTargets at hreported ⊢
        rw [List.mapM_cons, hreported, hresult]
        rfl
      · rw [List.map_cons, hpairs]
        rfl
      · intro u hu
        rcases List.mem_cons.mp hu with rfl | hu
        · exact hresult
        · exact hresults u hu

theorem RepushReport.complete_iff (report : RepushReport) :
    report.complete = true ↔ (∀ t ∈ report.targets, t.result = .acknowledged) ∧
      (∀ a result, report.manifests.lookup a = some result → result = .acknowledged) ∧
      report.epochCheck.isUnchanged = true := by
  have hmanifests : report.manifests.entries.all (fun e => e.2 = .acknowledged) = true ↔
      ∀ a result, report.manifests.lookup a = some result → result = .acknowledged := by
    rw [List.all_eq_true]
    constructor
    · intro h a result hlookup
      simpa using h ⟨a, result⟩ (AList.mem_lookup_iff.mp hlookup)
    · intro h e he
      simpa using h e.1 e.2 (AList.mem_lookup_iff.mpr he)
  unfold RepushReport.complete
  rw [Bool.and_eq_true, Bool.and_eq_true, hmanifests, List.all_eq_true, and_assoc]
  simp

theorem RepushOutcome.exitCode_eq_complete (outcome : RepushOutcome) :
    outcome.exitCode = RepushExit.complete ↔
      ∃ report, outcome = .done report ∧ report.complete = true := by
  cases outcome with
  | done report =>
      unfold RepushOutcome.exitCode
      dsimp only
      by_cases hcomplete : report.complete = true
      · rw [if_pos hcomplete]
        exact iff_of_true rfl ⟨report, rfl, hcomplete⟩
      · rw [if_neg hcomplete]
        refine iff_of_false ?_ ?_
        · cases report.epochCheck with
          | unchanged => nofun
          | changed before now notPushed => nofun
          | unknown e => nofun
        · rintro ⟨_, hsame, hyes⟩
          cases hsame
          exact hcomplete hyes
  | abandonedOnChain merkleRoot => exact iff_of_false nofun nofun
  | rootMismatch expected actual => exact iff_of_false nofun nofun
  | identityMismatch stop => exact iff_of_false nofun nofun
  | failed failure => exact iff_of_false nofun nofun

theorem epochCheck_isUnchanged {epoch : Nat} {results : Map (Nat × Addr) RepushResult}
    {now : Except TargetsError (Nat × List (Nat × Addr))} :
    (epochCheck epoch results now).isUnchanged = true ↔ ∃ targets, now = .ok (epoch, targets) := by
  cases now with
  | error e => exact iff_of_false nofun nofun
  | ok reading =>
      obtain ⟨now, targets⟩ := reading
      unfold epochCheck
      dsimp only
      by_cases hsame : now = epoch
      · rw [if_pos hsame]
        exact iff_of_true rfl ⟨targets, by rw [hsame]⟩
      · rw [if_neg hsame]
        refine iff_of_false nofun ?_
        rintro ⟨_, heq⟩
        exact hsame (Prod.mk.inj (Except.ok.inj heq)).1

/-! ### A whole call -/

/-- What the report of a call says is so. -/
structure RepushReport.Faithful [AssignmentScore] (report : RepushReport) (params : RepushParams)
    (merkleRoot : Hash) (info : StorageFileInfoV2) (world : RepushWorld) : Prop where
  /-- The pairs are those of the epoch that was read first. -/
  pairs : ∃ snapshot, world.first.Reads info report.epoch snapshot ∧ ∀ c a,
    (c, a) ∈ report.pairs ↔ c < info.chunkCount ∧
      a ∈ assignedArchives merkleRoot snapshot c params.assignmentReplicationFactor
  once : report.pairs.Nodup
  chunks : ∀ t ∈ report.targets,
    Exact params.pushRetries (RepushChunks.ackOf merkleRoot) world.chunkEntries
      (RepushChunks.key? world.peers t.pair) t.result
  archives : ∀ a, (report.manifests.lookup a).isSome = true ↔ ∃ c, (c, a) ∈ report.pairs
  manifests : ∀ a result, report.manifests.lookup a = some result →
    Exact params.pushRetries (RepushManifests.ackOf merkleRoot) world.manifestEntries
      (RepushManifests.key? world.peers a) result

section

variable [Blake3] [AssignmentScore]

/-- There is something to push to every target of a file that fits its row. -/
theorem requests_of_sound {job : RepushJob} (hsound : job.file.Sound) {chunkCount r : Nat}
    {merkleRoot : Hash} {snapshot : List Addr}
    (hcount : job.file.manifest.chunkCount = chunkCount) :
    RepushChunks.Requests job (assignmentTargets merkleRoot chunkCount snapshot r) := by
  intro t ht
  obtain ⟨request, hrequest⟩ := hsound.request (hcount ▸ (mem_assignmentTargets.mp ht).1)
  exact Option.isSome_iff_exists.mpr ⟨request, hrequest⟩

/-- A call with its targets known has a faithful report, once it is over. -/
theorem repushTargets_spec (params : RepushParams) {info : OwnedFilePage} (merkleRoot : Hash)
    (world : RepushWorld) {file : ReproducedFile} {epoch : Nat} {snapshot : List Addr}
    (hsound : file.Sound) (hcount : file.manifest.chunkCount = info.chunkCount)
    (hreads : world.first.Reads info.toStorageFileInfoV2 epoch snapshot) :
    let targets := assignmentTargets merkleRoot info.chunkCount snapshot
      params.assignmentReplicationFactor
    repushTargets params info merkleRoot file epoch targets world = .error .running ∨
      ∃ report, repushTargets params info merkleRoot file epoch targets world = .ok report ∧
        report.Faithful params merkleRoot info.toStorageFileInfoV2 world ∧
        (report.epochCheck.isUnchanged = true ↔ ∃ targets,
          latestAssignmentTargets world.again info.toStorageFileInfoV2 merkleRoot
            params.assignmentReplicationFactor = .ok (report.epoch, targets)) := by
  intro targets
  have hnodup : targets.Nodup := assignmentTargets_nodup _ _ _ _
  have hrequests : RepushChunks.Requests
      (⟨file, merkleRoot, params.pushRetries, world.peers⟩ : RepushJob) targets :=
    requests_of_sound hsound hcount
  unfold repushTargets
  dsimp only [bind, Except.bind]
  rcases RepushChunks.repushChunks_spec hnodup hrequests world.chunkEntries with
    hrunning | ⟨results, hresults, hchunks⟩
  · rw [hrunning]
    exact Or.inl rfl
  rw [hresults]
  dsimp only
  rcases RepushManifests.repushManifests_spec
      (⟨file, merkleRoot, params.pushRetries, world.peers⟩ : RepushJob)
      (targets.map Prod.snd).toFinset world.manifestEntries with
    hrunning | ⟨manifests, hmanifests, harchives⟩
  · rw [hrunning]
    exact Or.inl rfl
  obtain ⟨reported, hreported, hpairs, htargets⟩ :=
    reportTargets_ok targets fun t ht => (hchunks.known t).mpr ht
  rw [hmanifests]
  dsimp only
  rw [hreported]
  refine Or.inr ⟨_, rfl, ⟨⟨snapshot, hreads, ?_⟩, ?_, ?_, ?_, ?_⟩, epochCheck_isUnchanged⟩
  · intro c a
    show (c, a) ∈ reported.map RepushTarget.pair ↔ _
    rw [hpairs]
    exact mem_assignmentTargets
  · show (reported.map RepushTarget.pair).Nodup
    rw [hpairs]
    exact hnodup
  · intro t ht
    refine hchunks.exact t.pair ?_ t.result (htargets t ht)
    rw [← hpairs]
    exact List.mem_map_of_mem ht
  · intro a
    show (manifests.lookup a).isSome = true ↔ ∃ c, (c, a) ∈ reported.map RepushTarget.pair
    rw [harchives.known, hpairs, Finset.mem_sort, List.mem_toFinset, List.mem_map]
    constructor
    · rintro ⟨t, ht, rfl⟩
      exact ⟨t.1, ht⟩
    · rintro ⟨c, hc⟩
      exact ⟨(c, a), hc, rfl⟩
  · intro a result hresult
    refine harchives.exact a ?_ result hresult
    rw [← harchives.known, hresult]
    rfl

variable [Bs58] [SumchainWire] [CryptoLib]

/-- A call is over before its pushes, or it pushes a file that fits the row. -/
theorem repush_cases (p : IngestPipeline) (params : RepushParams) (merkleRoot : Hash)
    (fileName : Str) (world : RepushWorld) :
    (∃ outcome, p.repush params merkleRoot fileName world = .ok outcome ∧
        ∀ report, outcome ≠ .done report) ∨
      ∃ info file epoch snapshot, world.row = .ok (some info) ∧ file.Sound ∧
        file.manifest.chunkCount = info.chunkCount ∧
        world.first.Reads info.toStorageFileInfoV2 epoch snapshot ∧
        p.repush params merkleRoot fileName world
          = (repushTargets params info merkleRoot file epoch
              (assignmentTargets merkleRoot info.chunkCount snapshot
                params.assignmentReplicationFactor) world).map .done := by
  unfold IngestPipeline.repush
  by_cases hzero : params.assignmentReplicationFactor = 0
  · rw [if_pos hzero]
    exact Or.inl ⟨_, rfl, nofun⟩
  rw [if_neg hzero]
  cases hrow : world.row with
  | error e => exact Or.inl ⟨_, rfl, nofun⟩
  | ok row =>
  cases row with
  | none => exact Or.inl ⟨_, rfl, nofun⟩
  | some info =>
  dsimp only
  cases hfile : p.repushFile info merkleRoot fileName world.content with
  | error stop =>
      refine Or.inl ⟨_, rfl, ?_⟩
      cases stop with
      | abandonedOnChain root => nofun
      | unexpectedLifecycle lifecycle => nofun
      | notOwner operator owner => nofun
      | keyRecovery e => nofun
      | encryption e => nofun
      | rootMismatch expected actual => nofun
      | differs mismatches => nofun
  | ok file =>
  obtain ⟨hreproduced, hmismatches⟩ := repushFile_ok hfile
  dsimp only
  cases hfirst : latestAssignmentTargets world.first info.toStorageFileInfoV2 merkleRoot
      params.assignmentReplicationFactor with
  | error e => exact Or.inl ⟨_, rfl, nofun⟩
  | ok reading =>
      obtain ⟨epoch, targets⟩ := reading
      obtain ⟨snapshot, hreads, rfl⟩ := latestAssignmentTargets_ok hfirst
      exact Or.inr ⟨info, file, epoch, snapshot, rfl, (sound_of_reproduced hreproduced).1,
        chunkCount_of_no_mismatch hmismatches, hreads, rfl⟩

/--
**The report of a repush is exact.**  A call never panics.  The report of one that ends
says what has happened, and its exit code is that of a complete run where every pair and
the manifest of every assigned archive is acknowledged and the epoch reads the same again.
-/
theorem repush_report_exact (p : IngestPipeline) (params : RepushParams) (merkleRoot : Hash)
    (fileName : Str) (world : RepushWorld) :
    p.repush params merkleRoot fileName world ≠ .error .panicked ∧
      ∀ outcome, p.repush params merkleRoot fileName world = .ok outcome →
        (∀ report, outcome = .done report → ∃ info, world.row = .ok (some info) ∧
          report.Faithful params merkleRoot info.toStorageFileInfoV2 world) ∧
        (outcome.exitCode = RepushExit.complete ↔
          ∃ report info, outcome = .done report ∧ world.row = .ok (some info) ∧
            (∀ t ∈ report.targets, t.result = .acknowledged) ∧
            (∀ c a, (c, a) ∈ report.pairs → report.manifests.lookup a = some .acknowledged) ∧
            ∃ targets, latestAssignmentTargets world.again info.toStorageFileInfoV2 merkleRoot
              params.assignmentReplicationFactor = .ok (report.epoch, targets)) := by
  rcases repush_cases p params merkleRoot fileName world with
    ⟨early, hearly, hnone⟩ | ⟨info, file, epoch, snapshot, hrow, hsound, hcount, hreads, hcall⟩
  · rw [hearly]
    refine ⟨nofun, ?_⟩
    rintro outcome heq
    obtain rfl := Except.ok.inj heq
    refine ⟨fun report hdone => absurd hdone (hnone report), ?_⟩
    rw [RepushOutcome.exitCode_eq_complete]
    refine iff_of_false ?_ ?_
    · rintro ⟨report, hdone, -⟩
      exact hnone report hdone
    · rintro ⟨report, _, hdone, -⟩
      exact hnone report hdone
  · rw [hcall]
    rcases repushTargets_spec params merkleRoot world hsound hcount hreads
      with hrunning | ⟨report, hreport, hfaithful, hsame⟩
    · rw [hrunning]
      exact ⟨nofun, nofun⟩
    rw [hreport]
    refine ⟨nofun, ?_⟩
    rintro outcome heq
    obtain rfl := Except.ok.inj heq
    refine ⟨?_, ?_⟩
    · rintro _ hdone
      obtain rfl := RepushOutcome.done.inj hdone
      exact ⟨info, hrow, hfaithful⟩
    rw [RepushOutcome.exitCode_eq_complete]
    constructor
    · rintro ⟨_, hdone, hcomplete⟩
      obtain rfl := RepushOutcome.done.inj hdone
      obtain ⟨hchunks, hmanifests, hepoch⟩ := (RepushReport.complete_iff report).mp hcomplete
      refine ⟨report, info, rfl, hrow, hchunks, ?_, hsame.mp hepoch⟩
      intro c a hpair
      obtain ⟨result, hresult⟩ :=
        Option.isSome_iff_exists.mp ((hfaithful.archives a).mpr ⟨c, hpair⟩)
      rw [hresult, hmanifests a result hresult]
    · rintro ⟨_, info', hdone, hrow', hchunks, hmanifests, hepoch⟩
      obtain rfl := RepushOutcome.done.inj hdone
      obtain rfl := Option.some.inj (Except.ok.inj (hrow.symm.trans hrow'))
      refine ⟨report, rfl, (RepushReport.complete_iff report).mpr ⟨hchunks, ?_, hsame.mpr hepoch⟩⟩
      intro a result hresult
      obtain ⟨c, hpair⟩ := (hfaithful.archives a).mp (by rw [hresult]; rfl)
      exact Option.some.inj (hresult.symm.trans (hmanifests c a hpair))

end

/-! #### A file of one chunk, and one archive

The archive refuses the chunk once.  The chunk is sent again, and acknowledged, and so is
the manifest. -/

def soloPeers : MapPeerResolver := ⟨[⟨10, 0⟩].toAList⟩

theorem soloPeers_resolve : soloPeers.resolve 0 = some 10 := by decide +kernel

def soloAnswers : AssignmentAnswers where
  coverage := .ok (some ⟨1, 0, false, 1, 0, [0], [], [], 0, false, []⟩)
  activeNodesAtHeight := fun _ => .ok [⟨.archiveNode, .active, .ok 0⟩]

def soloChunkEntries (merkleRoot : Hash) : List (RepushEntry (Nat × PeerId)) :=
  let origin := ⟨10, .v2Push merkleRoot 0⟩
  [.sent (0, 10) true, RepushChunks.ackOf merkleRoot (0, 10) (some ['e']) origin,
    .sent (0, 10) true, RepushChunks.ackOf merkleRoot (0, 10) none origin]

def soloManifestEntries (merkleRoot : Hash) : List (RepushEntry PeerId) :=
  [.sent 10 true, RepushManifests.ackOf merkleRoot 10 none ⟨10, .v2ManifestPush merkleRoot⟩]

theorem solo_repushChunks [Blake3] {file : ReproducedFile} (hsound : file.Sound)
    (hcount : file.manifest.chunkCount = 1) (merkleRoot : Hash) :
    RepushJob.repushChunks ⟨file, merkleRoot, 1, soloPeers⟩ [(0, 0)] (soloChunkEntries merkleRoot)
      = .ok [⟨(0, 0), .acknowledged⟩].toAList := by
  obtain ⟨request, hrequest⟩ := hsound.request (i := 0) (by omega)
  have hsome : RepushChunks.request ⟨file, merkleRoot, 1, soloPeers⟩ 0 = some request := hrequest
  have hresults : AList.insert (0, 0) .acknowledged
      ([⟨(0, 0), .unreachable⟩].toAList : Map (Nat × Addr) RepushResult)
        = [⟨(0, 0), .acknowledged⟩].toAList := rfl
  simp [-AList.insert_empty, RepushJob.repushChunks, soloChunkEntries, RepushChunks.ackOf,
    RepushChunks.start, RepushChunks.sendRest, soloPeers_resolve, hsome, RepushChunks.turn,
    RepushChunks.idle, RepushChunks.onFirst, RepushChunks.loopHead, RepushChunks.onEvent,
    RepushChunks.onAnswer, RepushChunks.onAgain, RepushPhase.finish, hresults]

theorem solo_repushManifests (file : ReproducedFile) (merkleRoot : Hash) :
    RepushJob.repushManifests ⟨file, merkleRoot, 1, soloPeers⟩ {0} (soloManifestEntries merkleRoot)
      = .ok [⟨0, .acknowledged⟩].toAList := by
  have hresults : AList.insert 0 .acknowledged
      ([⟨0, .unreachable⟩].toAList : Map Addr RepushResult) = [⟨0, .acknowledged⟩].toAList := rfl
  simp [-AList.insert_empty, RepushJob.repushManifests, soloManifestEntries,
    RepushManifests.ackOf, RepushManifests.start, RepushManifests.sendRest, soloPeers_resolve,
    RepushManifests.turn, RepushManifests.idle, RepushManifests.onFirst, RepushManifests.loopHead,
    RepushManifests.onEvent, RepushManifests.onAnswer, RepushPhase.finish, hresults]

section

variable [CryptoLib] [Blake3] [Bs58] [SumchainWire] (p : IngestPipeline)

/-- A pending Public file of three bytes, as its owner has registered it. -/
def soloRow (merkleRoot : Hash) : OwnedFilePage where
  merkleRoot := fileRootHex merkleRoot
  plaintextSizeBytes := 3
  storedSizeBytes := 3
  chunkCount := 1
  assignmentHeight := 0
  visibility := 0
  lifecycle := 0
  accessList := []
  owner := p.myAddrBase58

def soloRun (merkleRoot : Hash) : RepushWorld where
  row := .ok (some (soloRow p merkleRoot))
  content := [1, 2, 3]
  first := soloAnswers
  peers := soloPeers
  chunkEntries := soloChunkEntries merkleRoot
  manifestEntries := soloManifestEntries merkleRoot
  again := soloAnswers

theorem solo_repushFile {merkleRoot : Hash}
    (hroot : (chunkMapped ['f'] [1, 2, 3]).merkleRoot = merkleRoot) :
    p.repushFile (soloRow p merkleRoot) merkleRoot ['f'] [1, 2, 3]
      = .ok (.ofPublic ['f'] [1, 2, 3]) := by
  have hcount : (chunkMapped ['f'] [1, 2, 3]).chunkCount = 1 :=
    (chunkMapped_small ['f'] (by decide) (by decide)).2.1
  have hsize : (chunkMapped ['f'] [1, 2, 3]).totalSizeBytes = 3 := rfl
  have hroot' : (ReproducedFile.ofPublic ['f'] [1, 2, 3]).manifest.merkleRoot = merkleRoot := hroot
  have hmismatches : rebuildMismatches (soloRow p merkleRoot).toStorageFileInfoV2
      (.ofPublic ['f'] [1, 2, 3]) = [] := by
    simp [rebuildMismatches, soloRow, ReproducedFile.ofPublic, hcount, hsize]
  have hreproduced : p.reproduceRegistered (soloRow p merkleRoot) merkleRoot ['f'] [1, 2, 3]
      = .ok (.ofPublic ['f'] [1, 2, 3]) := by
    simp [IngestPipeline.reproduceRegistered, soloRow, VisibilityV2.isPrivate, hroot']
  unfold IngestPipeline.repushFile
  rw [hreproduced]
  dsimp only
  rw [hmismatches]
  simp [soloRow, LifecycleV2.isAbandoned, LifecycleV2.isActive, LifecycleV2.isPending]

theorem solo_targets [AssignmentScore] (merkleRoot : Hash) :
    latestAssignmentTargets soloAnswers (soloRow p merkleRoot).toStorageFileInfoV2 merkleRoot 1
      = .ok (0, [(0, 0)]) := by
  simp [latestAssignmentTargets, soloAnswers, epochFromCoverage,
    AssignmentCoverageV2.resolvedLatestEpoch, decodeSnapshot_solo, assignmentTargets,
    assignedArchives_solo, soloRow]

def soloReport (merkleRoot : Hash) : RepushReport where
  merkleRoot := merkleRoot
  epoch := 0
  active := false
  targets := [⟨0, 0, .acknowledged⟩]
  manifests := [⟨0, .acknowledged⟩].toAList
  epochCheck := .unchanged

theorem solo_repush [AssignmentScore] {merkleRoot : Hash}
    (hroot : (chunkMapped ['f'] [1, 2, 3]).merkleRoot = merkleRoot) :
    p.repush ⟨1, 1⟩ merkleRoot ['f'] (soloRun p merkleRoot)
      = .ok (.done (soloReport merkleRoot)) := by
  have hcount : (ReproducedFile.ofPublic ['f'] [1, 2, 3]).manifest.chunkCount = 1 :=
    (chunkMapped_small ['f'] (by decide) (by decide)).2.1
  have hchunks := solo_repushChunks (sound_ofPublic ['f'] [1, 2, 3]) hcount merkleRoot
  have hmanifests := solo_repushManifests (.ofPublic ['f'] [1, 2, 3]) merkleRoot
  have hreported : reportTargets [(0, 0)] [⟨(0, 0), .acknowledged⟩].toAList
      = .ok (soloReport merkleRoot).targets := rfl
  unfold IngestPipeline.repush soloRun
  simp [solo_repushFile p hroot, solo_targets, repushTargets, hchunks, hmanifests, hreported, bind,
    Except.bind, epochCheck]
  rfl

end

theorem solo_repush_report_exact :
    letI := Blake3.reference
    letI := Bs58.bitcoin
    letI := CryptoLib.reference
    letI := emptyWire
    letI := AssignmentScore.flat
    let merkleRoot := (chunkMapped ['f'] [1, 2, 3]).merkleRoot
    let world := soloRun ownersPipeline merkleRoot
    ownersPipeline.repush ⟨1, 1⟩ merkleRoot ['f'] world = .ok (.done (soloReport merkleRoot)) ∧
      (RepushOutcome.done (soloReport merkleRoot)).exitCode = RepushExit.complete ∧
      (soloReport merkleRoot).Faithful ⟨1, 1⟩ merkleRoot
        (soloRow ownersPipeline merkleRoot).toStorageFileInfoV2 world := by
  let _ := Blake3.reference
  let _ := Bs58.bitcoin
  let _ := CryptoLib.reference
  let _ := emptyWire
  let _ := AssignmentScore.flat
  intro merkleRoot world
  have hrun : ownersPipeline.repush ⟨1, 1⟩ merkleRoot ['f'] world
      = .ok (.done (soloReport merkleRoot)) := solo_repush ownersPipeline rfl
  obtain ⟨-, hends⟩ := repush_report_exact ownersPipeline ⟨1, 1⟩ merkleRoot ['f'] world
  obtain ⟨hdone, hcode⟩ := hends _ hrun
  obtain ⟨info, hrow, hfaithful⟩ := hdone _ rfl
  obtain rfl := Option.some.inj (Except.ok.inj hrow)
  refine ⟨hrun, hcode.mpr ⟨soloReport merkleRoot, _, rfl, rfl, ?_, ?_, _, solo_targets _ _⟩,
    hfaithful⟩
  · intro t ht
    rw [List.mem_singleton.mp ht]
  · intro c a hpair
    obtain ⟨-, rfl⟩ := Prod.mk.inj (List.mem_singleton.mp hpair)
    rfl

end Snip
