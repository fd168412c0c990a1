/-
Which reassigned chunks a re-fetch goes for.

The owner pushes the placement of the first epoch and no other.  What a later epoch adds,
an archive has to fetch by itself, and `plan_refetch` takes what the previous epoch did not
already assign to it.  A chunk that an epoch in between assigned is neither pushed nor
planned: the plan is complete exactly for the histories without such a chunk.  The sources
of a planned chunk are right in all of them.  What a re-fetch then does is in its log: it
asks these sources only, and attests if it took something in.
-/
import Snip.Blake3
import Snip.Node.Refetch
import Snip.Proofs.Assignment

namespace Snip

/-! ### Sources -/

section

variable {me : Addr}

/-- What the loop over archives adds to a list of sources. -/
theorem foldl_addSource (archives sources : List Addr) :
    ∃ rest, archives.foldl (addSource me) sources = sources ++ rest ∧ rest.Nodup ∧
      (∀ a ∈ rest, a ∈ archives ∧ a ≠ me ∧ a ∉ sources) ∧
      ∀ a ∈ archives, a ≠ me → a ∈ sources ++ rest := by
  induction archives generalizing sources with
  | nil =>
      refine ⟨[], by simp, List.nodup_nil, ?_, ?_⟩
      · intro a ha
        simp at ha
      · intro a ha
        simp at ha
  | cons b archives ih =>
      obtain ⟨rest, heq, hnodup, hnew, hall⟩ := ih (addSource me sources b)
      by_cases hb : b ≠ me ∧ b ∉ sources
      · have hadd : addSource me sources b = sources ++ [b] := by
          unfold addSource
          rw [if_pos hb]
        rw [hadd] at heq hnew hall
        refine ⟨b :: rest, ?_, ?_, ?_, ?_⟩
        · rw [List.foldl_cons, hadd, heq, List.append_assoc]
          simp
        · refine List.nodup_cons.mpr ⟨?_, hnodup⟩
          intro hmem
          have hout := (hnew b hmem).2.2
          simp at hout
        · intro a ha
          rcases List.mem_cons.mp ha with rfl | ha
          · exact ⟨List.mem_cons_self, hb⟩
          · obtain ⟨hmem, hme, hout⟩ := hnew a ha
            refine ⟨List.mem_cons_of_mem _ hmem, hme, ?_⟩
            intro hsource
            exact hout (List.mem_append_left _ hsource)
        · intro a ha hme
          rcases List.mem_cons.mp ha with rfl | ha
          · simp
          · simpa using hall a ha hme
      · have hadd : addSource me sources b = sources := by
          unfold addSource
          rw [if_neg hb]
        rw [hadd] at heq hnew hall
        refine ⟨rest, ?_, hnodup, ?_, ?_⟩
        · rw [List.foldl_cons, hadd, heq]
        · intro a ha
          obtain ⟨hmem, hme, hout⟩ := hnew a ha
          exact ⟨List.mem_cons_of_mem _ hmem, hme, hout⟩
        · intro a ha hme
          rcases List.mem_cons.mp ha with rfl | ha
          · refine List.mem_append_left _ ?_
            by_contra hout
            exact hb ⟨hme, hout⟩
          · exact hall a ha hme

end

section

variable [AssignmentScore]

/-- Some of the epochs assigns the chunk to the archive. -/
def Assignee (merkleRoot : Hash) (replicationFactor chunkIndex : Nat)
    (epochs : List (Nat × List Addr)) (a : Addr) : Prop :=
  ∃ e ∈ epochs, a ∈ assignedArchives merkleRoot e.2 chunkIndex replicationFactor

/-- What the sources of a planned chunk are to be; `epochs` from the newest on. -/
structure GoodSources (merkleRoot : Hash) (replicationFactor : Nat) (me : Addr)
    (epochs : List (Nat × List Addr)) (cp : ChunkPlan) : Prop where
  nodup : cp.sources.Nodup
  others : me ∉ cp.sources
  complete : ∀ a, Assignee merkleRoot replicationFactor cp.chunkIndex epochs a → a ≠ me →
    a ∈ cp.sources
  /-- Wherever the epochs are cut, the newer ones' archives stand before the older ones'. -/
  newestFirst : ∀ newer older, epochs = newer ++ older → ∃ first rest,
    cp.sources = first ++ rest ∧
      (∀ a, a ∈ first ↔ a ≠ me ∧ Assignee merkleRoot replicationFactor cp.chunkIndex newer a) ∧
      ∀ a ∈ rest, Assignee merkleRoot replicationFactor cp.chunkIndex older a ∧
        ¬ Assignee merkleRoot replicationFactor cp.chunkIndex newer a

variable {merkleRoot : Hash} {replicationFactor chunkIndex : Nat} {me : Addr}

theorem collectSources_eq (epochs : List (Nat × List Addr)) :
    collectSources merkleRoot replicationFactor me chunkIndex epochs
      = (epochs.flatMap fun e =>
          assignedArchives merkleRoot e.2 chunkIndex replicationFactor).foldl (addSource me) [] := by
  unfold collectSources
  rw [List.foldl_flatMap]

theorem mem_assignees {epochs : List (Nat × List Addr)} {a : Addr} :
    a ∈ epochs.flatMap (fun e => assignedArchives merkleRoot e.2 chunkIndex replicationFactor) ↔
      Assignee merkleRoot replicationFactor chunkIndex epochs a :=
  List.mem_flatMap

theorem mem_collectSources {epochs : List (Nat × List Addr)} {a : Addr} :
    a ∈ collectSources merkleRoot replicationFactor me chunkIndex epochs ↔
      a ≠ me ∧ Assignee merkleRoot replicationFactor chunkIndex epochs a := by
  obtain ⟨rest, heq, -, hnew, hall⟩ := @foldl_addSource me (epochs.flatMap fun e =>
    assignedArchives merkleRoot e.2 chunkIndex replicationFactor) []
  rw [collectSources_eq, heq, List.nil_append]
  constructor
  · intro h
    obtain ⟨hmem, hme, -⟩ := hnew a h
    exact ⟨hme, mem_assignees.mp hmem⟩
  · intro h
    simpa using hall a (mem_assignees.mpr h.2) h.1

theorem goodSources_collect (epochs : List (Nat × List Addr)) :
    GoodSources merkleRoot replicationFactor me epochs
      ⟨chunkIndex, collectSources merkleRoot replicationFactor me chunkIndex epochs⟩ := by
  refine ⟨?_, ?_, ?_, ?_⟩
  · obtain ⟨rest, heq, hnodup, -, -⟩ := @foldl_addSource me (epochs.flatMap fun e =>
      assignedArchives merkleRoot e.2 chunkIndex replicationFactor) []
    show (collectSources merkleRoot replicationFactor me chunkIndex epochs).Nodup
    rw [collectSources_eq, heq]
    exact hnodup
  · intro hmem
    exact (mem_collectSources.mp hmem).1 rfl
  · intro a hassigned hme
    exact mem_collectSources.mpr ⟨hme, hassigned⟩
  · intro newer older hcut
    obtain ⟨rest, heq, -, hnew, -⟩ := @foldl_addSource me (older.flatMap fun e =>
      assignedArchives merkleRoot e.2 chunkIndex replicationFactor)
      (collectSources merkleRoot replicationFactor me chunkIndex newer)
    refine ⟨collectSources merkleRoot replicationFactor me chunkIndex newer, rest, ?_, ?_, ?_⟩
    · show collectSources merkleRoot replicationFactor me chunkIndex epochs = _
      rw [hcut, collectSources_eq, List.flatMap_append, List.foldl_append, ← collectSources_eq, heq]
    · intro a
      exact mem_collectSources
    · intro a ha
      obtain ⟨hmem, hme, hout⟩ := hnew a ha
      refine ⟨mem_assignees.mp hmem, ?_⟩
      intro hnewer
      exact hout (mem_collectSources.mpr ⟨hme, hnewer⟩)

end

/-! ### Histories -/

/-- The epochs of a file that was reassigned at least once. -/
structure EpochHistory where
  original : Nat × List Addr
  between : List (Nat × List Addr)
  latest : Nat × List Addr

namespace EpochHistory

def epochs (h : EpochHistory) : List (Nat × List Addr) := h.original :: (h.between ++ [h.latest])

/-- The epoch before the latest. -/
def previous (h : EpochHistory) : Nat × List Addr := h.between.getLast?.getD h.original

/-- The epochs that `refetch_file` reads. -/
def consulted (h : EpochHistory) : List (Nat × List Addr) :=
  h.epochs.drop (h.epochs.length - maxEpochsConsulted)

/-- The two newest epochs are among them. -/
theorem consulted_reverse (h : EpochHistory) :
    ∃ older, h.consulted.reverse = h.latest :: h.previous :: older := by
  unfold consulted
  rw [← List.take_reverse]
  have hreverse : h.epochs.reverse = h.latest :: (h.between.reverse ++ [h.original]) := by
    unfold epochs
    simp
  rw [hreverse]
  unfold previous
  rw [List.getLast?_eq_head?_reverse]
  cases h.between.reverse with
  | nil => exact ⟨[], rfl⟩
  | cons e older => exact ⟨(older ++ [h.original]).take 2, rfl⟩

end EpochHistory

section

variable [AssignmentScore] {merkleRoot : Hash} {chunkCount replicationFactor : Nat} {me : Addr}
  {held : Finset Nat}

/-- A plan has the chunks of the latest epoch that the previous one did not assign. -/
theorem mem_planRefetch {h : EpochHistory} {cp : ChunkPlan} :
    cp ∈ planRefetch merkleRoot chunkCount h.consulted replicationFactor me held ↔
      cp.chunkIndex < chunkCount ∧
      me ∈ assignedArchives merkleRoot h.latest.2 cp.chunkIndex replicationFactor ∧
      me ∉ assignedArchives merkleRoot h.previous.2 cp.chunkIndex replicationFactor ∧
      cp.chunkIndex ∉ held ∧
      cp.sources = collectSources merkleRoot replicationFactor me cp.chunkIndex
        h.consulted.reverse := by
  obtain ⟨older, hnewest⟩ := h.consulted_reverse
  unfold planRefetch
  rw [hnewest]
  dsimp only
  split
  · -- outside the latest snapshot nothing is assigned
    rename_i hout
    constructor
    · intro hmem
      simp at hmem
    · intro hassigned
      exact absurd (mem_snapshot_of_assigned hassigned.2.1) hout
  · simp only [List.mem_map, List.mem_filter, decide_eq_true_iff, mem_chunksForArchiveV2]
    constructor
    · rintro ⟨i, ⟨⟨hlt, hnow⟩, hbefore, hheld⟩, rfl⟩
      exact ⟨hlt, hnow, fun hprevious => hbefore ⟨hlt, hprevious⟩, hheld, rfl⟩
    · intro ⟨hlt, hnow, hbefore, hheld, hsources⟩
      refine ⟨cp.chunkIndex, ⟨⟨hlt, hnow⟩, fun hprevious => hbefore hprevious.2, hheld⟩, ?_⟩
      rw [← hsources]

/-- What a plan is to be, on every history. -/
structure RefetchesReassigned (merkleRoot : Hash) (chunkCount replicationFactor : Nat) (me : Addr)
    (held : Finset Nat) (h : EpochHistory) (plan : List ChunkPlan) : Prop where
  /-- A chunk that the owner does not push here and that is missing is fetched. -/
  complete : ∀ i < chunkCount,
    me ∈ assignedArchives merkleRoot h.latest.2 i replicationFactor → i ∉ held →
    me ∉ assignedArchives merkleRoot h.original.2 i replicationFactor →
    ∃ cp ∈ plan, cp.chunkIndex = i
  sources : ∀ cp ∈ plan, GoodSources merkleRoot replicationFactor me h.consulted.reverse cp

end

/--
The plan is what it is to be exactly when every missing chunk that the two newest epochs
both assign to the archive was assigned to it from the start.
-/
theorem refetch_plan_complete_iff [AssignmentScore] (merkleRoot : Hash)
    (chunkCount replicationFactor : Nat) (me : Addr) (held : Finset Nat) (h : EpochHistory) :
    RefetchesReassigned merkleRoot chunkCount replicationFactor me held h
        (planRefetch merkleRoot chunkCount h.consulted replicationFactor me held) ↔
      ∀ i < chunkCount, i ∉ held →
        me ∈ assignedArchives merkleRoot h.latest.2 i replicationFactor →
        me ∈ assignedArchives merkleRoot h.previous.2 i replicationFactor →
        me ∈ assignedArchives merkleRoot h.original.2 i replicationFactor := by
  constructor
  · intro hplan i hlt hheld hnow hprevious
    by_contra horiginal
    obtain ⟨cp, hmem, rfl⟩ := hplan.complete i hlt hnow hheld horiginal
    exact (mem_planRefetch.mp hmem).2.2.1 hprevious
  · intro hsettled
    refine ⟨?_, ?_⟩
    · intro i hlt hnow hheld horiginal
      have hbefore : me ∉ assignedArchives merkleRoot h.previous.2 i replicationFactor := by
        intro hprevious
        exact horiginal (hsettled i hlt hheld hnow hprevious)
      refine ⟨⟨i, collectSources merkleRoot replicationFactor me i h.consulted.reverse⟩, ?_, rfl⟩
      exact mem_planRefetch.mpr ⟨hlt, hnow, hbefore, hheld, rfl⟩
    · intro cp hmem
      have hsources := (mem_planRefetch.mp hmem).2.2.2.2
      have hgood := @goodSources_collect _ merkleRoot replicationFactor cp.chunkIndex me
        h.consulted.reverse
      rw [← hsources] at hgood
      exact hgood

/-! ### What becomes of a plan -/

open Dialogue

namespace RefetchReport

/-- Only entries and counts were added, and nothing was planned. -/
structure Extends (r r' : RefetchReport) : Prop where
  planned : r'.planned = r.planned
  fetched : r.fetched <+: r'.fetched
  failed : r.failed <+: r'.failed

theorem Extends.refl (r : RefetchReport) : Extends r r := ⟨rfl, List.prefix_refl _, List.prefix_refl _⟩

theorem Extends.trans {r r' r'' : RefetchReport} (h : Extends r r') (h' : Extends r' r'') :
    Extends r r'' :=
  ⟨h'.planned.trans h.planned, h.fetched.trans h'.fetched, h.failed.trans h'.failed⟩

/-- The chunk was fetched or has failed, or the run has no attempt left. -/
def Attempted (r : RefetchReport) (limits : RefetchLimits) (entry : Hash × Nat) : Prop :=
  entry ∈ r.fetched ∨ entry ∈ r.failed ∨ limits.chunksPerRun ≤ r.attempts

theorem Attempted.extend {r r' : RefetchReport} {limits : RefetchLimits} {entry : Hash × Nat}
    (h : r.Attempted limits entry) (hext : Extends r r') : r'.Attempted limits entry := by
  rcases h with h | h | h
  · exact .inl (hext.fetched.subset h)
  · exact .inr (.inl (hext.failed.subset h))
  · refine .inr (.inr (Nat.le_trans h ?_))
    exact Nat.add_le_add hext.fetched.length_le hext.failed.length_le

end RefetchReport

namespace Refetcher

variable {σ : Type} {r : Refetcher σ}

/-- Looking for a manifest adds no chunk to the report. -/
theorem pullManifestFrom_extends {root : Hash} {chunkCount : Nat} (sources : List Addr)
    (report : RefetchReport) :
    Ensures (r.pullManifestFrom root chunkCount sources report) fun _ out =>
      report.Extends out.2 := by
  induction sources generalizing report with
  | nil => exact .pure (.refl report)
  | cons source sources ih =>
      refine Ensures.ask ?_
      intro bytes
      cases bytes with
      | error e => exact ih report
      | ok bytes =>
          refine Ensures.ask ?_
          intro answer
          cases answer with
          | ok manifest => exact .pure (.refl report)
          | error e => exact (ih _).mono fun _ _ h => ⟨h.planned, h.fetched, h.failed⟩

theorem manifestFor_extends {root : Hash} {chunkCount : Nat} {plan : List ChunkPlan}
    (report : RefetchReport) :
    Ensures (r.manifestFor root chunkCount plan report) fun _ out => report.Extends out.2 := by
  refine Ensures.ask ?_
  intro known
  cases known with
  | some manifest => exact .pure (.refl report)
  | none => exact pullManifestFrom_extends _ report

/-- The chain has this history for a Public file, and the archive holds these chunks of it. -/
structure Knows (r : Refetcher σ) (root : Hash) (shape : StorageFileInfoV2) (h : EpochHistory)
    (held : Finset Nat) : Prop where
  row : ∀ s, (r.world.fetchFileShape root s).1 = .ok shape
  stored : shape.lifecycle.isAbandoned = false
  shared : shape.visibility.isPrivate = false
  coverage : ∃ c : AssignmentCoverageV2, (∀ s, (r.world.fetchCoverage root s).1 = .ok (some c)) ∧
    c.assignmentEpochs = h.epochs.map Prod.fst ∧
    consistentEpochs c.assignmentEpochs shape.assignmentHeight c.latestAssignmentEpoch = true
  snapshots : ∀ e ∈ h.epochs, ∀ s, (r.world.fetchSnapshot e.1 s).1 = .ok e.2
  holds : ∀ s, (r.world.heldFor root s).1 = held

theorem readEpochs_known (epochs : List (Nat × List Addr))
    (h : ∀ e ∈ epochs, ∀ s, (r.world.fetchSnapshot e.1 s).1 = .ok e.2) :
    Ensures (r.readEpochs (epochs.map Prod.fst)) fun log out =>
      out = some epochs ∧ ∀ e ∈ log, e = .chain := by
  induction epochs with
  | nil => exact .pure ⟨rfl, nofun⟩
  | cons e epochs ih =>
      refine Ensures.ask_known (h e List.mem_cons_self) ?_
      refine Ensures.bind (ih fun e he => h e (List.mem_cons_of_mem _ he)) ?_
      rintro log out ⟨rfl, hlog⟩
      refine .pure ⟨rfl, ?_⟩
      rw [List.append_nil]
      exact List.forall_mem_cons.mpr ⟨rfl, hlog⟩

variable [Blake3]

theorem pullChunkFrom_extends {root : Hash} {chunkIndex : Nat} {desc : ChunkDescriptor}
    {path : List Hash} (sources : List Addr) (report : RefetchReport) :
    Ensures (r.pullChunkFrom root chunkIndex desc path sources report) fun _ out =>
      report.Extends out.2 := by
  induction sources generalizing report with
  | nil => exact .pure (.refl report)
  | cons source sources ih =>
      refine Ensures.ask ?_
      intro data
      cases data with
      | error e => exact ih report
      | ok data =>
          by_cases hhash : Blake3.hash data ≠ desc.blake3Hash
          · simp only [if_pos hhash]
            exact (ih _).mono fun _ _ h => ⟨h.planned, h.fetched, h.failed⟩
          · simp only [if_neg hhash]
            refine Ensures.ask ?_
            intro answer
            cases answer with
            | none => exact .pure (.refl report)
            | some reason =>
                exact .pure ⟨rfl, List.prefix_refl _, List.prefix_refl _⟩

/-- The loop over a plan deals with every chunk of it. -/
theorem fetchChunks_attempts {root : Hash} {manifest : DataManifest} (plan : List ChunkPlan)
    (report : RefetchReport) :
    Ensures (r.fetchChunks root manifest plan report) fun _ done =>
      report.Extends done ∧ ∀ cp ∈ plan, done.Attempted r.limits (root, cp.chunkIndex) := by
  induction plan generalizing report with
  | nil =>
      refine .pure ⟨.refl report, ?_⟩
      intro cp hcp
      simp at hcp
  | cons cp plan ih =>
      unfold fetchChunks
      -- the report after this chunk, whatever it came to
      have hrest : ∀ next : RefetchReport, report.Extends next →
          next.Attempted r.limits (root, cp.chunkIndex) →
          Ensures (r.fetchChunks root manifest plan next) fun _ done =>
            report.Extends done ∧
              ∀ cp' ∈ cp :: plan, done.Attempted r.limits (root, cp'.chunkIndex) := by
        intro next hext hattempted
        refine (ih next).mono ?_
        intro _ done h
        refine ⟨hext.trans h.1, ?_⟩
        intro cp' hcp'
        rcases List.mem_cons.mp hcp' with rfl | hcp'
        · exact hattempted.extend h.1
        · exact h.2 cp' hcp'
      by_cases hlimit : r.limits.chunksPerRun ≤ report.attempts
      · simp only [if_pos hlimit]
        exact .pure ⟨.refl report, fun _ _ => .inr (.inr hlimit)⟩
      · simp only [if_neg hlimit]
        cases manifest.chunks[cp.chunkIndex]? with
        | none =>
            refine hrest _ ⟨rfl, List.prefix_refl _, List.prefix_append _ _⟩ (.inr (.inl ?_))
            simp
        | some desc =>
            refine Ensures.bind (pullChunkFrom_extends _ report) ?_
            rintro _ ⟨accepted, next⟩ hext
            dsimp only
            cases accepted with
            | true =>
                refine hrest _ ⟨hext.planned, ?_, hext.failed⟩ (.inl ?_)
                · exact hext.fetched.trans (List.prefix_append _ _)
                · simp
            | false =>
                refine hrest _ ⟨hext.planned, hext.fetched, ?_⟩ (.inr (.inl ?_))
                · exact hext.failed.trans (List.prefix_append _ _)
                · simp

/-- Every planned chunk is counted, and fetched, reported as failed or left to the next run. -/
theorem performPlan_attempts {root : Hash} {chunkCount : Nat} (plan : List ChunkPlan)
    (report : RefetchReport) :
    Ensures (r.performPlan root chunkCount plan report) fun _ done =>
      done.planned = report.planned + plan.length ∧
        ∀ cp ∈ plan, done.Attempted r.limits (root, cp.chunkIndex) := by
  unfold performPlan
  by_cases hempty : plan = []
  · simp only [if_pos hempty]
    rw [hempty]
    refine .pure ⟨rfl, ?_⟩
    intro cp hcp
    simp at hcp
  · simp only [if_neg hempty]
    refine Ensures.bind (manifestFor_extends _) ?_
    rintro _ ⟨found, report'⟩ hext
    cases found with
    | none =>
        refine .pure ⟨hext.planned, ?_⟩
        intro cp hcp
        refine .inr (.inl (List.mem_append_right _ ?_))
        exact List.mem_map_of_mem hcp
    | some manifest =>
        refine Ensures.bind (fetchChunks_attempts plan report') ?_
        rintro _ done ⟨hdone, hall⟩
        have hout : done.planned = report.planned + plan.length ∧
            ∀ cp ∈ plan, done.Attempted r.limits (root, cp.chunkIndex) :=
          ⟨hdone.planned.trans hext.planned, hall⟩
        by_cases hnew : report'.fetched.length < done.fetched.length
        · simp only [if_pos hnew]
          refine Ensures.ask ?_
          intro _
          exact .pure hout
        · simp only [if_neg hnew]
          exact .pure hout

/-- `refetch_file` reads the history it knows, and goes through the plan for it. -/
theorem refetchFile_known [AssignmentScore] {root : Hash} {shape : StorageFileInfoV2}
    {h : EpochHistory} {held : Finset Nat} (hknows : r.Knows root shape h held)
    (report : RefetchReport) {P : List RefetchCall → RefetchReport → Prop}
    (hreads : ∀ e log done, e = .chain ∨ e = .held → P log done → P (e :: log) done)
    (hplan : Ensures (r.performPlan root shape.chunkCount (planRefetch root shape.chunkCount
      h.consulted r.replicationFactor r.me held) report) P) :
    Ensures (r.refetchFile root report) P := by
  obtain ⟨c, hcoverage, hheights, hconsistent⟩ := hknows.coverage
  have hchain : ∀ {log done}, P log done → P (.chain :: log) done := hreads _ _ _ (.inl rfl)
  refine Ensures.ask_known hknows.row ?_
  simp only [hknows.stored, hknows.shared, Bool.false_eq_true, if_false]
  refine Ensures.ask_known hcoverage ?_
  have htwo : ¬ c.assignmentEpochs.length < 2 := by
    rw [hheights]
    unfold EpochHistory.epochs
    simp
  have hconsulted : c.assignmentEpochs.drop (c.assignmentEpochs.length - maxEpochsConsulted)
      = h.consulted.map Prod.fst := by
    rw [hheights, List.length_map, ← List.map_drop]
    rfl
  simp only [if_neg htwo, hconsistent, Bool.not_true, Bool.false_eq_true, if_false, hconsulted]
  have hsnapshots : ∀ e ∈ h.consulted, ∀ s, (r.world.fetchSnapshot e.1 s).1 = .ok e.2 :=
    fun e he => hknows.snapshots e (List.mem_of_mem_drop he)
  refine Ensures.bind (readEpochs_known _ hsnapshots) ?_
  rintro log out ⟨rfl, hlog⟩
  refine Ensures.ask_known hknows.holds (hplan.mono ?_)
  intro log' done hdone
  refine hchain (hchain ?_)
  clear hsnapshots
  induction log with
  | nil => exact hreads _ _ _ (.inr rfl) hdone
  | cons e log ih =>
      rw [List.forall_mem_cons] at hlog
      exact hreads _ _ _ (.inl hlog.1) (ih hlog.2)

end Refetcher

/-! ### What a re-fetch takes in, and from whom -/

namespace RefetchCall

/-- The chunk that a call took into the store. -/
def taken : RefetchCall → Option (Hash × Nat)
  | acceptedChunk root chunkIndex none => some (root, chunkIndex)
  | _ => none

/-- The archive that a call asked. -/
def asks : RefetchCall → Option Addr
  | pulledManifest source _ => some source
  | pulledChunk source _ => some source
  | _ => none

/-- The file whose new chunks a call attested. -/
def attests : RefetchCall → Option Hash
  | attested root => some root
  | _ => none

end RefetchCall

/-- What the log of a plan's loop bears out. -/
structure PlanLog (root : Hash) (plan : List ChunkPlan) (report done : RefetchReport)
    (log : List RefetchCall) : Prop where
  fetched : done.fetched = report.fetched ++ log.filterMap RefetchCall.taken
  planned : ∀ entry ∈ log.filterMap RefetchCall.taken, ∃ cp ∈ plan, entry = (root, cp.chunkIndex)
  asked : ∀ a ∈ log.filterMap RefetchCall.asks, ∃ cp ∈ plan, a ∈ cp.sources
  unattested : log.filterMap RefetchCall.attests = []

namespace PlanLog

variable {root : Hash} {plan : List ChunkPlan} {report next done : RefetchReport}
  {log log' : List RefetchCall}

theorem nil (h : done.fetched = report.fetched) : PlanLog root plan report done [] := by
  refine ⟨by simp [h], ?_, ?_, rfl⟩
  · intro entry hentry
    cases hentry
  · intro a ha
    cases ha

theorem append (h : PlanLog root plan report next log) (h' : PlanLog root plan next done log') :
    PlanLog root plan report done (log ++ log') := by
  refine ⟨?_, ?_, ?_, ?_⟩
  · rw [h'.fetched, h.fetched, List.filterMap_append, List.append_assoc]
  · intro entry hentry
    rw [List.filterMap_append, List.mem_append] at hentry
    exact hentry.elim (h.planned entry) (h'.planned entry)
  · intro a ha
    rw [List.filterMap_append, List.mem_append] at ha
    exact ha.elim (h.asked a) (h'.asked a)
  · rw [List.filterMap_append, h.unattested, h'.unattested, List.nil_append]

/-- A call to a source of the plan, which leaves the list of fetched chunks alone. -/
theorem cons {e : RefetchCall} (htaken : e.taken = none) (hattests : e.attests = none)
    (hasks : ∀ a, e.asks = some a → ∃ cp ∈ plan, a ∈ cp.sources)
    (h : PlanLog root plan report done log) : PlanLog root plan report done (e :: log) := by
  refine ⟨?_, ?_, ?_, ?_⟩
  · rw [List.filterMap_cons_none htaken]
    exact h.fetched
  · rw [List.filterMap_cons_none htaken]
    exact h.planned
  · intro a ha
    cases hask : e.asks with
    | none =>
        rw [List.filterMap_cons_none hask] at ha
        exact h.asked a ha
    | some b =>
        rw [List.filterMap_cons_some hask] at ha
        rcases List.mem_cons.mp ha with rfl | ha
        · exact hasks _ hask
        · exact h.asked a ha
  · rw [List.filterMap_cons_none hattests]
    exact h.unattested

theorem mono {plan' : List ChunkPlan} (h : PlanLog root plan report done log)
    (hplan : ∀ cp ∈ plan, cp ∈ plan') : PlanLog root plan' report done log := by
  refine ⟨h.fetched, ?_, ?_, h.unattested⟩
  · intro entry hentry
    obtain ⟨cp, hcp, heq⟩ := h.planned entry hentry
    exact ⟨cp, hplan cp hcp, heq⟩
  · intro a ha
    obtain ⟨cp, hcp, hsource⟩ := h.asked a ha
    exact ⟨cp, hplan cp hcp, hsource⟩

theorem of_fetched (h : PlanLog root plan report done log) {report' done' : RefetchReport}
    (hreport : report'.fetched = report.fetched) (hdone : done'.fetched = done.fetched) :
    PlanLog root plan report' done' log :=
  ⟨by rw [hreport, hdone, h.fetched], h.planned, h.asked, h.unattested⟩

end PlanLog

namespace Refetcher

variable {σ : Type} {r : Refetcher σ}

theorem mem_manifestSources {plan : List ChunkPlan} {a : Addr} (h : a ∈ r.manifestSources plan) :
    ∃ cp ∈ plan, a ∈ cp.sources := by
  have hfold : ∀ sources tried : List Addr,
      a ∈ sources.foldl (fun tried a => if a ∈ tried then tried else tried ++ [a]) tried →
        a ∈ tried ∨ a ∈ sources := by
    intro sources
    induction sources with
    | nil => exact fun tried h => .inl h
    | cons b sources ih =>
        intro tried h
        rcases ih _ h with h | h
        · simp only at h
          split at h
          · exact .inl h
          · rcases List.mem_append.mp h with h | h
            · exact .inl h
            · exact .inr (List.mem_cons.mpr (.inl (List.mem_singleton.mp h)))
        · exact .inr (List.mem_cons_of_mem _ h)
  rcases hfold _ [] (List.mem_of_mem_take h) with h | h
  · cases h
  · exact List.mem_flatMap.mp h

/-- A manifest is asked of sources of the plan only, and no chunk is taken in. -/
theorem pullManifestFrom_log {root : Hash} {chunkCount : Nat} {plan : List ChunkPlan}
    (sources : List Addr) (hsources : ∀ a ∈ sources, ∃ cp ∈ plan, a ∈ cp.sources)
    (report : RefetchReport) :
    Ensures (r.pullManifestFrom root chunkCount sources report) fun log out =>
      out.2.fetched = report.fetched ∧ PlanLog root plan report out.2 log := by
  induction sources generalizing report with
  | nil => exact .pure ⟨rfl, .nil rfl⟩
  | cons source sources ih =>
      have hsource : ∀ a, (RefetchCall.pulledManifest source root).asks = some a →
          ∃ cp ∈ plan, a ∈ cp.sources := by
        rintro a ⟨⟩
        exact hsources _ List.mem_cons_self
      have hrest := ih fun a ha => hsources a (List.mem_cons_of_mem _ ha)
      refine Ensures.ask ?_
      intro bytes
      cases bytes with
      | error e => exact (hrest report).mono fun _ _ h => ⟨h.1, .cons rfl rfl hsource h.2⟩
      | ok bytes =>
          refine Ensures.ask ?_
          intro answer
          cases answer with
          | ok manifest =>
              exact .pure ⟨rfl, .cons rfl rfl hsource (.cons rfl rfl nofun (.nil rfl))⟩
          | error e =>
              refine (hrest _).mono ?_
              intro _ _ h
              exact ⟨h.1, .cons rfl rfl hsource (.cons rfl rfl nofun (h.2.of_fetched rfl rfl))⟩

theorem manifestFor_log {root : Hash} {chunkCount : Nat} (plan : List ChunkPlan)
    (report : RefetchReport) :
    Ensures (r.manifestFor root chunkCount plan report) fun log out =>
      out.2.fetched = report.fetched ∧ PlanLog root plan report out.2 log := by
  refine Ensures.ask ?_
  intro known
  cases known with
  | some manifest => exact .pure ⟨rfl, .cons rfl rfl nofun (.nil rfl)⟩
  | none =>
      refine (pullManifestFrom_log _ (fun _ => mem_manifestSources) report).mono ?_
      intro _ _ h
      exact ⟨h.1, .cons rfl rfl nofun h.2⟩

variable [Blake3]

/-- A chunk is taken in once at most, and exactly if it is reported as accepted. -/
theorem pullChunkFrom_log {root : Hash} {desc : ChunkDescriptor} {path : List Hash}
    {cp : ChunkPlan} (sources : List Addr) (hsources : ∀ a ∈ sources, a ∈ cp.sources)
    (report : RefetchReport) :
    Ensures (r.pullChunkFrom root cp.chunkIndex desc path sources report) fun log out =>
      ∀ done : RefetchReport,
        done.fetched = (if out.1 then out.2.fetched ++ [(root, cp.chunkIndex)] else out.2.fetched) →
        PlanLog root [cp] report done log := by
  induction sources generalizing report with
  | nil => exact .pure fun done hdone => .nil hdone
  | cons source sources ih =>
      have hsource : ∀ a, (RefetchCall.pulledChunk source desc.cid).asks = some a →
          ∃ cp' ∈ [cp], a ∈ cp'.sources := by
        rintro a ⟨⟩
        exact ⟨cp, List.mem_singleton_self cp, hsources _ List.mem_cons_self⟩
      have hrest := ih fun a ha => hsources a (List.mem_cons_of_mem _ ha)
      refine Ensures.ask ?_
      intro data
      cases data with
      | error e =>
          refine (hrest report).mono ?_
          intro _ _ h done hdone
          exact .cons rfl rfl hsource (h done hdone)
      | ok data =>
          by_cases hhash : Blake3.hash data ≠ desc.blake3Hash
          · simp only [if_pos hhash]
            refine (hrest _).mono ?_
            intro _ _ h done hdone
            exact .cons rfl rfl hsource ((h done hdone).of_fetched rfl rfl)
          · simp only [if_neg hhash]
            refine Ensures.ask ?_
            intro answer
            cases answer with
            | some reason =>
                refine .pure ?_
                intro done hdone
                exact .cons rfl rfl hsource (.cons rfl rfl nofun (.nil hdone))
            | none =>
                refine .pure ?_
                intro done hdone
                refine .cons rfl rfl hsource ⟨hdone, ?_, nofun, rfl⟩
                intro entry hentry
                exact ⟨cp, List.mem_singleton_self cp, List.mem_singleton.mp hentry⟩

theorem fetchChunks_log {root : Hash} {manifest : DataManifest} (plan : List ChunkPlan)
    (report : RefetchReport) :
    Ensures (r.fetchChunks root manifest plan report) fun log done =>
      PlanLog root plan report done log := by
  induction plan generalizing report with
  | nil => exact .pure (.nil rfl)
  | cons cp plan ih =>
      have hlater : ∀ {next done log}, PlanLog root plan next done log →
          PlanLog root (cp :: plan) next done log :=
        fun h => h.mono fun _ => List.mem_cons_of_mem _
      unfold fetchChunks
      by_cases hlimit : r.limits.chunksPerRun ≤ report.attempts
      · simp only [if_pos hlimit]
        exact .pure (.nil rfl)
      · simp only [if_neg hlimit]
        cases manifest.chunks[cp.chunkIndex]? with
        | none => exact (ih _).mono fun _ _ h => (hlater h).of_fetched rfl rfl
        | some desc =>
            refine Ensures.bind (pullChunkFrom_log _ (fun _ => List.mem_of_mem_take) report) ?_
            rintro _ ⟨accepted, next⟩ hpull
            have hfirst : ∀ {done log}, PlanLog root [cp] report done log →
                PlanLog root (cp :: plan) report done log :=
              fun h => h.mono fun _ hcp => List.mem_singleton.mp hcp ▸ List.mem_cons_self
            refine (ih _).mono ?_
            intro _ done h
            refine PlanLog.append (hfirst (hpull _ ?_)) (hlater h)
            cases accepted with
            | true => rfl
            | false => rfl

/-- What the log of a whole plan bears out: the attestation is asked for when it is due. -/
structure PlanDone (root : Hash) (plan : List ChunkPlan) (report done : RefetchReport)
    (log : List RefetchCall) : Prop where
  fetched : done.fetched = report.fetched ++ log.filterMap RefetchCall.taken
  planned : ∀ entry ∈ log.filterMap RefetchCall.taken, ∃ cp ∈ plan, entry = (root, cp.chunkIndex)
  asked : ∀ a ∈ log.filterMap RefetchCall.asks, ∃ cp ∈ plan, a ∈ cp.sources
  attested : log.filterMap RefetchCall.attests
    = if log.filterMap RefetchCall.taken = [] then [] else [root]

omit [Blake3] in
/-- A plan's loop that took nothing in is done, whatever else is reported. -/
theorem PlanDone.of_idle {root : Hash} {plan : List ChunkPlan} {report done : RefetchReport}
    {log : List RefetchCall} (h : PlanLog root plan report done log)
    (hidle : done.fetched.length ≤ report.fetched.length) : PlanDone root plan report done log := by
  have hnone : log.filterMap RefetchCall.taken = [] := by
    rw [h.fetched, List.length_append] at hidle
    exact List.length_eq_zero_iff.mp (by omega)
  exact ⟨h.fetched, h.planned, h.asked, by rw [if_pos hnone, h.unattested]⟩

omit [Blake3] in
/-- A plan's loop that took something in is done once that is attested. -/
theorem PlanDone.of_attested {root : Hash} {plan : List ChunkPlan} {report done : RefetchReport}
    {log : List RefetchCall} (h : PlanLog root plan report done log)
    (hnew : report.fetched.length < done.fetched.length) :
    PlanDone root plan report done (log ++ [RefetchCall.attested root]) := by
  have hsome : log.filterMap RefetchCall.taken ≠ [] := by
    intro hnone
    rw [h.fetched, hnone, List.append_nil] at hnew
    exact Nat.lt_irrefl _ hnew
  have htaken : (log ++ [RefetchCall.attested root]).filterMap RefetchCall.taken
      = log.filterMap RefetchCall.taken := by simp [RefetchCall.taken]
  have hasks : (log ++ [RefetchCall.attested root]).filterMap RefetchCall.asks
      = log.filterMap RefetchCall.asks := by simp [RefetchCall.asks]
  refine ⟨htaken ▸ h.fetched, htaken ▸ h.planned, hasks ▸ h.asked, ?_⟩
  rw [htaken, if_neg hsome, List.filterMap_append, h.unattested]
  rfl

theorem performPlan_log {root : Hash} {chunkCount : Nat} (plan : List ChunkPlan)
    (report : RefetchReport) :
    Ensures (r.performPlan root chunkCount plan report) fun log done =>
      PlanDone root plan report done log := by
  unfold performPlan
  by_cases hempty : plan = []
  · simp only [if_pos hempty]
    exact .pure ⟨by simp, nofun, nofun, rfl⟩
  · simp only [if_neg hempty]
    refine Ensures.bind (manifestFor_log plan _) ?_
    rintro log ⟨found, next⟩ ⟨hsame, hfound⟩
    cases found with
    | none =>
        refine .pure (.of_idle ?_ (Nat.le_of_eq (congrArg List.length hsame)))
        rw [List.append_nil]
        exact hfound.of_fetched rfl rfl
    | some manifest =>
        refine Ensures.bind (fetchChunks_log plan next) ?_
        intro log' done hdone
        have hall : PlanLog root plan report done (log ++ log') :=
          (hfound.append hdone).of_fetched rfl rfl
        dsimp only at hsame
        by_cases hnew : next.fetched.length < done.fetched.length
        · simp only [if_pos hnew]
          refine Ensures.ask ?_
          intro _
          refine .pure ?_
          rw [hsame] at hnew
          rw [← List.append_assoc]
          exact .of_attested hall hnew
        · simp only [if_neg hnew]
          refine .pure ?_
          rw [hsame, Nat.not_lt] at hnew
          rw [List.append_nil]
          exact .of_idle hall hnew

variable [AssignmentScore]

/-- A chunk that a run is to fetch: new with the latest epoch, and not held. -/
def Due (r : Refetcher σ) (root : Hash) (chunkCount : Nat) (h : EpochHistory) (held : Finset Nat)
    (i : Nat) : Prop :=
  i < chunkCount ∧ r.me ∈ assignedArchives root h.latest.2 i r.replicationFactor ∧
    r.me ∉ assignedArchives root h.previous.2 i r.replicationFactor ∧ i ∉ held

/-- What a re-fetch of one file comes to, by its log. -/
structure Accounts (r : Refetcher σ) (root : Hash) (chunkCount : Nat) (h : EpochHistory)
    (held : Finset Nat) (report done : RefetchReport) (log : List RefetchCall) : Prop where
  planned : done.planned = report.planned
    + (planRefetch root chunkCount h.consulted r.replicationFactor r.me held).length
  fetched : done.fetched = report.fetched ++ log.filterMap RefetchCall.taken
  due : ∀ entry ∈ log.filterMap RefetchCall.taken, ∃ i, r.Due root chunkCount h held i ∧
    entry = (root, i)
  /-- Only another archive that some epoch assigned such a chunk to is asked. -/
  asked : ∀ a ∈ log.filterMap RefetchCall.asks, a ≠ r.me ∧ ∃ i, r.Due root chunkCount h held i ∧
    ∃ e ∈ h.epochs, a ∈ assignedArchives root e.2 i r.replicationFactor
  attempted : ∀ i, r.Due root chunkCount h held i → done.Attempted r.limits (root, i)
  attested : log.filterMap RefetchCall.attests
    = if log.filterMap RefetchCall.taken = [] then [] else [root]

omit [Blake3] in
theorem due_iff_planned {root : Hash} {chunkCount : Nat} {h : EpochHistory} {held : Finset Nat}
    {i : Nat} : r.Due root chunkCount h held i ↔
      ∃ cp ∈ planRefetch root chunkCount h.consulted r.replicationFactor r.me held,
        cp.chunkIndex = i := by
  constructor
  · rintro ⟨hlt, hlatest, hprevious, hheld⟩
    refine ⟨⟨i, collectSources root r.replicationFactor r.me i h.consulted.reverse⟩, ?_, rfl⟩
    exact mem_planRefetch.mpr ⟨hlt, hlatest, hprevious, hheld, rfl⟩
  · rintro ⟨cp, hcp, rfl⟩
    obtain ⟨hlt, hlatest, hprevious, hheld, -⟩ := mem_planRefetch.mp hcp
    exact ⟨hlt, hlatest, hprevious, hheld⟩

/--
**A re-fetch goes for what the latest epoch added, asks the archives that may have it, and
attests what it took in.**
-/
theorem refetchFile_accounts {root : Hash} {shape : StorageFileInfoV2} {h : EpochHistory}
    {held : Finset Nat} (hknows : r.Knows root shape h held) (report : RefetchReport) :
    Ensures (r.refetchFile root report) fun log done =>
      r.Accounts root shape.chunkCount h held report done log := by
  refine refetchFile_known hknows report ?_ ?_
  · -- a question to the chain or to the store takes nothing in
    rintro e log done (rfl | rfl) hdone
    · exact ⟨hdone.planned, hdone.fetched, hdone.due, hdone.asked, hdone.attempted, hdone.attested⟩
    · exact ⟨hdone.planned, hdone.fetched, hdone.due, hdone.asked, hdone.attempted, hdone.attested⟩
  · refine ((performPlan_attempts _ report).and (performPlan_log _ report)).mono ?_
    rintro log done ⟨⟨hplanned, hattempts⟩, hdone⟩
    refine ⟨hplanned, hdone.fetched, ?_, ?_, ?_, hdone.attested⟩
    · intro entry hentry
      obtain ⟨cp, hcp, rfl⟩ := hdone.planned entry hentry
      exact ⟨cp.chunkIndex, due_iff_planned.mpr ⟨cp, hcp, rfl⟩, rfl⟩
    · intro a ha
      obtain ⟨cp, hcp, hsource⟩ := hdone.asked a ha
      obtain ⟨-, -, -, -, hsources⟩ := mem_planRefetch.mp hcp
      rw [hsources, mem_collectSources] at hsource
      obtain ⟨hme, e, he, hassigned⟩ := hsource
      have hepoch : e ∈ h.epochs := List.mem_of_mem_drop (List.mem_reverse.mp he)
      exact ⟨hme, cp.chunkIndex, due_iff_planned.mpr ⟨cp, hcp, rfl⟩, e, hepoch, hassigned⟩
    · intro i hdue
      obtain ⟨cp, hcp, rfl⟩ := due_iff_planned.mp hdue
      exact hattempts cp hcp

end Refetcher

/-- Archive 9 leaves, and archives 5 and 6 come. -/
def firstReassignment : EpochHistory := ⟨(100, [9]), [], (200, [5, 6])⟩

/-- A file of one chunk, of which archive 9 has everything and archive 6 nothing yet. -/
def joiningRefetcher [Blake3] : Refetcher Unit where
  world :=
    { fetchFileShape := fun _ s => (.ok ⟨[], 1, 1, 1, 100, 0, 1⟩, s)
      fetchCoverage := fun _ s =>
        (.ok (some ⟨1, 0, false, 1, 0, [0], [], [100, 200], 200, false, []⟩), s)
      fetchSnapshot := fun height s => (.ok (if height = 100 then [9] else [5, 6]), s)
      pullManifest := fun source _ s => (if source = 9 then .ok [7] else .error [], s)
      pullChunk := fun source _ _ s => (if source = 9 then .ok [1] else .error [], s)
      heldFor := fun _ s => (∅, s)
      localManifest := fun _ s => (none, s)
      acceptManifest := fun root _ _ s =>
        (.ok ⟨[], root, 1, 1, root, [⟨0, 0, 1, Blake3.hash [1], ['c'], none⟩]⟩, s)
      acceptChunk := fun _ _ _ _ _ s => (none, s)
      attestRefetched := fun _ s => ((), s) }
  me := 5
  replicationFactor := 2
  limits := { chunksPerRun := 1024, sourcesPerChunk := 3 }

theorem joining_knows [Blake3] :
    joiningRefetcher.Knows (Hash.fill 1) ⟨[], 1, 1, 1, 100, 0, 1⟩ firstReassignment ∅ := by
  refine ⟨fun _ => rfl, rfl, rfl, ⟨_, fun _ => rfl, rfl, by decide⟩, ?_, fun _ => rfl⟩
  intro e he _
  rcases List.mem_cons.mp he with rfl | he
  · rfl
  · obtain rfl := List.mem_singleton.mp he
    rfl

def joiningReport : RefetchReport := ⟨0, 0, 0, [], [], 0, 0, 0⟩

/-- Archive 5 takes the chunk in from archive 9 and attests it. -/
theorem joining_archive_fetches :
    letI := Blake3.reference
    letI := AssignmentScore.flat
    joiningRefetcher.Accounts (Hash.fill 1) 1 firstReassignment ∅ joiningReport
      (joiningRefetcher.refetchFile (Hash.fill 1) joiningReport ()).1
      (joiningRefetcher.refetchFile (Hash.fill 1) joiningReport ()).2.1 ∧
    (joiningRefetcher.refetchFile (Hash.fill 1) joiningReport ()).1.fetched = [(Hash.fill 1, 0)] ∧
    (joiningRefetcher.refetchFile (Hash.fill 1) joiningReport ()).2.1.filterMap RefetchCall.asks
      = [6, 9, 6, 9] ∧
    (joiningRefetcher.refetchFile (Hash.fill 1) joiningReport ()).2.1.filterMap RefetchCall.attests
      = [Hash.fill 1] := by
  have haccounts := @Refetcher.refetchFile_accounts _ _ Blake3.reference AssignmentScore.flat _ _ _ _
    (@joining_knows Blake3.reference) joiningReport ()
  exact ⟨haccounts, by decide +kernel⟩

/-! ### A chunk that is dropped for good -/

/-- With no more archives than replicas, every archive is assigned every chunk. -/
theorem mem_assignedArchives_of_few [AssignmentScore] {merkleRoot : Hash} {snapshot : List Addr}
    {chunkIndex replicationFactor : Nat} (hfew : snapshot.length ≤ replicationFactor) {a : Addr} :
    a ∈ assignedArchives merkleRoot snapshot chunkIndex replicationFactor ↔ a ∈ snapshot := by
  obtain ⟨ranked, hperm, htake⟩ :=
    assignedArchives_eq_take merkleRoot snapshot chunkIndex replicationFactor
  have hlength : ranked.length ≤ replicationFactor := by
    rw [hperm.length_eq]
    exact Nat.le_trans (List.dedup_sublist snapshot).length_le hfew
  rw [htake, List.take_of_length_le hlength, hperm.mem_iff, List.mem_dedup]

/-- Then archive 6 leaves, and archive 7 comes. -/
def secondReassignment : EpochHistory := ⟨(100, [9]), [(200, [5, 6])], (300, [5, 7])⟩

/--
Archive 5 is to fetch chunk 0 after the first reassignment.  If it could not, the second
one drops the chunk from its plan, though the archive is still assigned it.
-/
theorem missed_chunk_dropped :
    letI : AssignmentScore := ⟨fun _ _ _ => 0⟩
    (∃ cp ∈ planRefetch (Hash.fill 1) 1 firstReassignment.consulted 2 5 ∅, cp.chunkIndex = 0) ∧
      5 ∈ assignedArchives (Hash.fill 1) secondReassignment.latest.2 0 2 ∧
      5 ∉ assignedArchives (Hash.fill 1) secondReassignment.original.2 0 2 ∧
      planRefetch (Hash.fill 1) 1 secondReassignment.consulted 2 5 ∅ = [] ∧
      ¬ RefetchesReassigned (Hash.fill 1) 1 2 5 ∅ secondReassignment
        (planRefetch (Hash.fill 1) 1 secondReassignment.consulted 2 5 ∅) := by
  let _ : AssignmentScore := ⟨fun _ _ _ => 0⟩
  have hnow : 5 ∈ assignedArchives (Hash.fill 1) secondReassignment.latest.2 0 2 :=
    (mem_assignedArchives_of_few (Nat.le_refl 2)).mpr (by decide)
  have horiginal : 5 ∉ assignedArchives (Hash.fill 1) [9] 0 2 := by
    rw [mem_assignedArchives_of_few (by decide)]
    decide
  have hbetween : 5 ∈ assignedArchives (Hash.fill 1) [5, 6] 0 2 :=
    (mem_assignedArchives_of_few (Nat.le_refl 2)).mpr (by decide)
  have hempty : planRefetch (Hash.fill 1) 1 secondReassignment.consulted 2 5 ∅ = [] := by
    refine List.eq_nil_iff_forall_not_mem.mpr ?_
    intro cp hmem
    obtain ⟨hlt, -, hprevious, -, -⟩ := mem_planRefetch.mp hmem
    rw [Nat.lt_one_iff.mp hlt] at hprevious
    exact hprevious hbetween
  refine ⟨?_, hnow, horiginal, hempty, ?_⟩
  · refine ⟨⟨0, collectSources (Hash.fill 1) 2 5 0 firstReassignment.consulted.reverse⟩, ?_, rfl⟩
    exact mem_planRefetch.mpr ⟨Nat.one_pos, hbetween, horiginal, Finset.notMem_empty 0, rfl⟩
  · intro hplan
    obtain ⟨cp, hmem, -⟩ := hplan.complete 0 Nat.one_pos hnow (Finset.notMem_empty 0) horiginal
    rw [hempty] at hmem
    simp at hmem

end Snip
