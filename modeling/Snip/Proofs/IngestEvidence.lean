/-
What an ingest that ends `Activated` has to show.

Each stage of a run adds its own part to the log, and a run goes on from one to the next
only with that part complete.  So the log of an activated file splits into the parts, in
the order of the stages.
-/
import Snip.Proofs.IngestPushes
import Snip.Proofs.Rebuild

namespace Snip

open Dialogue

namespace Ingest

section

variable {σ ε : Type} [CryptoLib] {c : Ingest σ} {file : ReproducedFile}

/-! ### S3 -/

/-- The manifest was pushed to the peer, and the peer acknowledged it afterwards. -/
def ManifestAcked (file : ReproducedFile) (peer : PeerId) (log : List IngestCall) : Prop :=
  ∃ origin, List.Sublist
    [.push peer (manifestPushRequest file.manifest (some file.manifestBytes)) (.ok ()),
      .wake (.event
        (.shardReceivedV2 peer (.manifestPushAck file.manifest.merkleRoot none) origin))]
    log

theorem s3Wave_spec (request : ShardRequestV2) (peers : List PeerId) :
    Gathers IngestCall.submission? (c.s3Wave request peers) fun log _ =>
      log = peers.map fun peer => .push peer request (.ok ()) := by
  induction peers with
  | nil => exact Gathers.pure rfl
  | cons peer peers ih =>
      refine Gathers.bind (Gathers.query fun _ => rfl) ?_
      intro log _ hlog
      subst hlog
      refine Gathers.mono ih ?_
      intro log _ hlog
      subst hlog
      rfl

omit [CryptoLib] in
theorem noteManifestAck_cases (merkleRoot : Hash) (needed : Finset PeerId) (event : SumNetEvent)
    (acked : Finset PeerId) :
    noteManifestAck merkleRoot needed event acked = acked ∨
      ∃ peer origin, event = .shardReceivedV2 peer (.manifestPushAck merkleRoot none) origin ∧
        peer ∈ needed ∧ noteManifestAck merkleRoot needed event acked = insert peer acked := by
  unfold noteManifestAck
  split
  · rename_i peer root origin
    by_cases hack : root = merkleRoot ∧ peer ∈ needed
    · rw [if_pos hack]
      exact Or.inr ⟨peer, origin, by rw [hack.1], hack.2, rfl⟩
    · rw [if_neg hack]
      exact Or.inl rfl
  · exact Or.inl rfl

/-- The loop only reads; who is new among the acknowledged has said so. -/
theorem s3Loop_spec (merkleRoot : Hash) (needed : Finset PeerId) (deadline : Nat)
    (clock : List Nat) : ∀ acked : Finset PeerId, acked ⊆ needed →
      Gathers IngestCall.submission?
        (c.s3Loop merkleRoot needed deadline clock acked : Stage σ ε (Finset PeerId))
        fun log acked' => (∀ call ∈ log, ∃ w, call = .wake w) ∧ acked' ⊆ needed ∧
          ∀ peer ∈ acked', peer ∈ acked ∨ ∃ origin, IngestCall.wake (.event
            (.shardReceivedV2 peer (.manifestPushAck merkleRoot none) origin)) ∈ log := by
  induction clock with
  | nil =>
      intro acked hacked
      unfold s3Loop
      by_cases hdone : needed.card ≤ acked.card
      · simp only [if_pos hdone]
        exact Gathers.pure ⟨nofun, hacked, fun _ hp => Or.inl hp⟩
      · simp only [if_neg hdone]
        exact Gathers.throw
  | cons now clock ih =>
      intro acked hacked
      have hstop : ∀ w : Wake, (∀ call ∈ [IngestCall.wake w], ∃ w, call = .wake w) ∧
          acked ⊆ needed ∧ ∀ peer ∈ acked, peer ∈ acked ∨ ∃ origin, IngestCall.wake (.event
            (.shardReceivedV2 peer (.manifestPushAck merkleRoot none) origin)) ∈ [.wake w] :=
        fun w => ⟨fun call hcall => ⟨w, List.mem_singleton.mp hcall⟩, hacked, fun _ hp => Or.inl hp⟩
      unfold s3Loop
      by_cases hdone : needed.card ≤ acked.card
      · simp only [if_pos hdone]
        exact Gathers.pure ⟨nofun, hacked, fun _ hp => Or.inl hp⟩
      simp only [if_neg hdone]
      by_cases hdeadline : deadline ≤ now
      · simp only [if_pos hdeadline]
        exact Gathers.pure ⟨nofun, hacked, fun _ hp => Or.inl hp⟩
      simp only [if_neg hdeadline]
      refine Gathers.bind nextEvent_spec ?_
      intro log w hlog
      subst hlog
      cases w with
      | timer => exact Gathers.pure (hstop .timer)
      | closed => exact Gathers.pure (hstop .closed)
      | event event =>
          have hsub : noteManifestAck merkleRoot needed event acked ⊆ needed := by
            rcases noteManifestAck_cases merkleRoot needed event acked with h | ⟨p, _, _, hp, h⟩
            · rw [h]
              exact hacked
            · rw [h]
              exact Finset.insert_subset hp hacked
          refine Gathers.mono (ih _ hsub) ?_
          intro log acked' hlog
          obtain ⟨hwakes, hneeded, hnew⟩ := hlog
          refine ⟨?_, hneeded, ?_⟩
          · intro call hcall
            rcases List.mem_cons.mp hcall with rfl | hcall
            · exact ⟨_, rfl⟩
            · exact hwakes call hcall
          · intro peer hpeer
            rcases hnew peer hpeer with hold | ⟨origin, hmem⟩
            · rcases noteManifestAck_cases merkleRoot needed event acked with
                h | ⟨p, origin, rfl, -, h⟩
              · rw [h] at hold
                exact Or.inl hold
              · rw [h] at hold
                rcases Finset.mem_insert.mp hold with rfl | hold
                · exact Or.inr ⟨origin, List.mem_cons_self ..⟩
                · exact Or.inl hold
            · exact Or.inr ⟨origin, List.mem_cons_of_mem _ hmem⟩

/-- **S3 goes on only when every peer it pushed to has acknowledged the manifest.** -/
theorem s3PushManifest_spec (distinctAssigned : Finset Addr) (peers : MapPeerResolver)
    (clock : List Nat) :
    Gathers IngestCall.submission? (c.s3PushManifest file distinctAssigned peers clock)
      fun log _ => (∀ peer ∈ manifestTargets distinctAssigned peers, ManifestAcked file peer log) ∧
        ∀ peer request answer, .push peer request answer ∈ log →
          peer ∈ manifestTargets distinctAssigned peers ∧
            request = manifestPushRequest file.manifest (some file.manifestBytes) := by
  refine Gathers.bind (s3Wave_spec _ _) ?_
  intro log _ hlog
  subst hlog
  refine Gathers.bind (s3Loop_spec _ _ _ _ ∅ (Finset.empty_subset _)) ?_
  intro log acked hlog
  obtain ⟨hwakes, hneeded, hacked⟩ := hlog
  by_cases hfew : acked.card < (manifestTargets distinctAssigned peers).card
  · simp only [if_pos hfew]
    exact Gathers.throw
  · simp only [if_neg hfew]
    have heq : acked = manifestTargets distinctAssigned peers :=
      Finset.eq_of_subset_of_card_le hneeded (not_lt.mp hfew)
    refine Gathers.pure ⟨?_, ?_⟩
    · intro peer hpeer
      obtain hnone | ⟨origin, hmem⟩ := hacked peer (by rw [heq]; exact hpeer)
      · exact absurd hnone (Finset.notMem_empty peer)
      · refine ⟨origin, ?_⟩
        rw [List.append_nil]
        have hsent := List.mem_map_of_mem
          (f := fun peer => IngestCall.push peer
            (manifestPushRequest file.manifest (some file.manifestBytes)) (.ok ()))
          ((Finset.mem_sort (· ≤ ·)).mpr hpeer)
        exact (List.singleton_sublist.mpr hsent).append (List.singleton_sublist.mpr hmem)
    · intro peer request answer hmem
      rw [List.append_nil] at hmem
      rcases List.mem_append.mp hmem with hmem | hmem
      · obtain ⟨p, hp, heq⟩ := List.mem_map.mp hmem
        injection heq with hsame hrequest _
        rw [← hsame, ← hrequest]
        exact ⟨(Finset.mem_sort _).mp hp, rfl⟩
      · obtain ⟨w, hw⟩ := hwakes _ hmem
        cases hw

/-- The manifest is no chunk. -/
theorem s3Wave_pushless (peers : List PeerId) : Gathers IngestCall.chunkPush?
    (c.s3Wave (manifestPushRequest file.manifest (some file.manifestBytes)) peers)
    fun _ _ => True := by
  induction peers with
  | nil => exact Gathers.pure trivial
  | cons peer peers ih => exact Gathers.bind (Gathers.query fun _ => rfl) fun _ _ _ => ih

theorem s3Loop_pushless (merkleRoot : Hash) (needed : Finset PeerId) (deadline : Nat)
    (clock : List Nat) : ∀ acked : Finset PeerId, Gathers IngestCall.chunkPush?
      (c.s3Loop merkleRoot needed deadline clock acked : Stage σ ε (Finset PeerId))
      fun _ _ => True := by
  induction clock with
  | nil =>
      intro acked
      unfold s3Loop
      by_cases hdone : needed.card ≤ acked.card
      · simp only [if_pos hdone]
        exact Gathers.pure trivial
      · simp only [if_neg hdone]
        exact Gathers.throw
  | cons now clock ih =>
      intro acked
      unfold s3Loop
      by_cases hdone : needed.card ≤ acked.card
      · simp only [if_pos hdone]
        exact Gathers.pure trivial
      simp only [if_neg hdone]
      by_cases hdeadline : deadline ≤ now
      · simp only [if_pos hdeadline]
        exact Gathers.pure trivial
      simp only [if_neg hdeadline]
      refine Gathers.bind (Gathers.ask fun _ => rfl) ?_
      intro _ w _
      cases w with
      | timer => exact Gathers.pure trivial
      | closed => exact Gathers.pure trivial
      | event event => exact ih _

theorem s3PushManifest_pushless (distinctAssigned : Finset Addr) (peers : MapPeerResolver)
    (clock : List Nat) :
    Gathers IngestCall.chunkPush? (c.s3PushManifest file distinctAssigned peers clock)
      fun _ _ => True := by
  refine Gathers.bind (s3Wave_pushless _) ?_
  intro _ _ _
  refine Gathers.bind (s3Loop_pushless _ _ _ _ _) ?_
  intro _ acked _
  by_cases hfew : acked.card < (manifestTargets distinctAssigned peers).card
  · simp only [if_pos hfew]
    exact Gathers.throw
  · simp only [if_neg hfew]
    exact Gathers.pure trivial

/-! ### S4 -/

omit [CryptoLib] in
theorem pollCoverage_done {last : Option AssignmentCoverageV2}
    {answer : Except Str (Option AssignmentCoverageV2)} {cov : AssignmentCoverageV2}
    (h : pollCoverage last answer = .done cov) :
    answer = .ok (some cov) ∧ cov.canActivateNow = true := by
  unfold pollCoverage at h
  split at h
  · rename_i cov'
    by_cases hactivate : cov'.canActivateNow = true
    · rw [if_pos hactivate] at h
      cases h
      exact ⟨rfl, hactivate⟩
    · rw [if_neg hactivate] at h
      cases h
  · cases h
  · cases h

/-- The loop ends with a coverage that activates, and that is what it has read last. -/
theorem s4Loop_spec (merkleRoot : Hash) (deadline : Nat) (clock : List Nat) :
    ∀ last, Gathers IngestCall.submission? (c.s4Loop merkleRoot deadline clock last)
      fun log cov => cov.canActivateNow = true ∧ ∃ before,
        log = before ++ [.coverage (fileRootHex merkleRoot) none (.ok (some cov))] ∧
          ∀ call ∈ before, ∃ answer, call = .coverage (fileRootHex merkleRoot) none answer := by
  induction clock with
  | nil =>
      intro last
      unfold s4Loop
      refine Gathers.bind (Gathers.ask fun _ => rfl) ?_
      intro log answer hlog
      subst hlog
      cases hpoll : pollCoverage last answer with
      | done cov =>
          obtain ⟨rfl, hactivate⟩ := pollCoverage_done hpoll
          exact Gathers.pure ⟨hactivate, [], rfl, nofun⟩
      | gone => exact Gathers.throw
      | again last => exact Gathers.throw
  | cons now clock ih =>
      intro last
      unfold s4Loop
      refine Gathers.bind (Gathers.ask fun _ => rfl) ?_
      intro log answer hlog
      subst hlog
      cases hpoll : pollCoverage last answer with
      | done cov =>
          obtain ⟨rfl, hactivate⟩ := pollCoverage_done hpoll
          exact Gathers.pure ⟨hactivate, [], rfl, nofun⟩
      | gone => exact Gathers.throw
      | again last' =>
          dsimp only
          by_cases hdeadline : deadline ≤ now
          · simp only [if_pos hdeadline]
            exact Gathers.throw
          · simp only [if_neg hdeadline]
            refine Gathers.mono (ih last') ?_
            intro log cov hlog
            obtain ⟨hactivate, before, rfl, hpolls⟩ := hlog
            refine ⟨hactivate, .coverage (fileRootHex merkleRoot) none answer :: before, rfl, ?_⟩
            intro call hcall
            rcases List.mem_cons.mp hcall with rfl | hcall
            · exact ⟨answer, rfl⟩
            · exact hpolls call hcall

theorem s4WaitCoverage_spec (merkleRoot : Hash) (clock : List Nat) :
    Gathers IngestCall.submission? (c.s4WaitCoverage merkleRoot clock)
      fun log cov => cov.canActivateNow = true ∧ ∃ before,
        log = before ++ [.coverage (fileRootHex merkleRoot) none (.ok (some cov))] ∧
          ∀ call ∈ before, ∃ answer, call = .coverage (fileRootHex merkleRoot) none answer :=
  s4Loop_spec merkleRoot _ _ none

theorem s4Loop_pushless (merkleRoot : Hash) (deadline : Nat) (clock : List Nat) :
    ∀ last, Gathers IngestCall.chunkPush? (c.s4Loop merkleRoot deadline clock last)
      fun _ _ => True := by
  induction clock with
  | nil =>
      intro last
      unfold s4Loop
      refine Gathers.bind (Gathers.ask fun _ => rfl) ?_
      intro _ answer _
      cases pollCoverage last answer with
      | done cov => exact Gathers.pure trivial
      | gone => exact Gathers.throw
      | again last => exact Gathers.throw
  | cons now clock ih =>
      intro last
      unfold s4Loop
      refine Gathers.bind (Gathers.ask fun _ => rfl) ?_
      intro _ answer _
      cases pollCoverage last answer with
      | done cov => exact Gathers.pure trivial
      | gone => exact Gathers.throw
      | again last =>
          dsimp only
          by_cases hdeadline : deadline ≤ now
          · simp only [if_pos hdeadline]
            exact Gathers.throw
          · simp only [if_neg hdeadline]
            exact ih last

theorem s4WaitCoverage_pushless (merkleRoot : Hash) (clock : List Nat) :
    Gathers IngestCall.chunkPush? (c.s4WaitCoverage merkleRoot clock) fun _ _ => True :=
  s4Loop_pushless merkleRoot _ _ none

/-! ### From S2 to S4 -/

variable [Blake3] [AssignmentScore]

/--
What the stages from S2 to S4 have to show for a coverage that activates: the chunks are
replicated, every peer that some archive of the file resolves to has the manifest, and
nobody else was sent it.
-/
def Covered (c : Ingest σ) (file : ReproducedFile) (snapshot : List Addr) (chunks : Finset Nat)
    (peers : MapPeerResolver) (log : List IngestCall) (cov : AssignmentCoverageV2) : Prop :=
  ∃ pushes manifests polls,
    log = pushes ++ (manifests ++
      (polls ++ [.coverage (fileRootHex file.manifest.merkleRoot) none (.ok (some cov))])) ∧
    Replicated c file snapshot chunks peers pushes ∧
    (∀ a ∈ fileArchives c file snapshot, ∀ peer, peers.resolve a = some peer →
      ManifestAcked file peer manifests) ∧
    (∀ peer request answer, .push peer request answer ∈ manifests →
      ∃ a ∈ fileArchives c file snapshot, peers.resolve a = some peer) ∧
    cov.canActivateNow = true

omit [CryptoLib] [Blake3] [AssignmentScore] in
theorem mem_manifestTargets {distinctAssigned : Finset Addr} {peers : MapPeerResolver}
    {peer : PeerId} : peer ∈ manifestTargets distinctAssigned peers ↔
      ∃ a ∈ distinctAssigned, peers.resolve a = some peer := by
  unfold manifestTargets
  rw [List.mem_toFinset, List.mem_filterMap]
  simp only [Finset.mem_sort]

/-- The outcome leaves the file `Pending`. -/
def LeavesPending (file : ReproducedFile) (outcome : IngestOutcome) : Prop :=
  ∃ left, outcome = .pendingNeedsAction left ∧ left.manifest = file.manifest

omit [CryptoLib] [Blake3] [AssignmentScore] in
theorem leavesPending_uncovered (e : S4WaitError) : LeavesPending file (leftUncovered file e) := by
  cases e with
  | timeout lastCoverage => exact ⟨_, rfl, rfl⟩
  | notFound => exact ⟨_, rfl, rfl⟩

/--
The resolver of the pushes is what was heard before the first of them, in the wait.  An early
end leaves the file `Pending`, with every target pushed unless the wait is not over.
-/
theorem pushUntilCovered_spec (hr : 0 < c.params.assignmentReplicationFactor)
    (snapshot : List Addr) (chunks : Finset Nat) (probed : Option AssignmentCoverageV2)
    (peers : MapPeerResolver) (clock : IngestClock) :
    Exits (c.pushUntilCovered file snapshot chunks probed peers clock)
      (fun log cov => Silent log ∧ ∃ waits rest, log = waits ++ rest ∧
        c.PushesAll file snapshot chunks peers waits rest ∧
        Covered c file snapshot chunks (peers.heard waits) log cov)
      fun log stop => Silent log ∧
        (∀ outcome, stop = .early outcome → LeavesPending file outcome) ∧
        (stop = .waiting ∧ Hears log ∨
          (∃ waits rest, log = waits ++ rest ∧
            c.PushesAll file snapshot chunks peers waits rest) ∨
          ∃ key, key.1 < file.manifest.chunkCount ∧ Unsendable file key) := by
  refine Exits.bind (Exits.adapt (s2PushChunks_spec hr snapshot chunks peers clock)
    fun log stop hlog => ?_) (fun _ _ h => h) ?_
  · obtain ⟨hquiet, hends⟩ := hlog
    refine ⟨hquiet, ?_, ?_⟩
    · intro outcome hearly
      cases stop with
      | early e =>
          obtain rfl := Stop.early.inj hearly
          exact ⟨_, rfl, rfl⟩
      | waiting => cases hearly
      | panicked => cases hearly
    · rcases hends with ⟨rfl, hhears⟩ | hends
      · exact Or.inl ⟨rfl, hhears⟩
      · exact Or.inr hends
  rintro pushes ⟨distinct, -⟩ ⟨hquiet, rfl, hreplicated, waits, rest, rfl, rfl, hall⟩
  have hpushed : ∀ {log : List IngestCall}, Pushless log → ∃ waits' rest',
      waits ++ rest ++ log = waits' ++ rest' ∧
        c.PushesAll file snapshot chunks peers waits' rest' := by
    intro log hlog
    exact ⟨waits, rest ++ log, List.append_assoc _ _ _, hall.hears, hall.pushes.append hlog⟩
  refine Exits.bind ((orReturn_quiet (s3PushManifest_spec _ (peers.heard waits)
    clock.manifestPush) _).and (Gathers.exits ((s3PushManifest_pushless _ _ _).adapt _))) ?_ ?_
  · rintro log stop ⟨⟨hquiet', hearly⟩, hpushless⟩
    refine ⟨quiet_append.mpr ⟨hquiet, hquiet'⟩, ?_, Or.inr (Or.inl (hpushed hpushless))⟩
    intro outcome houtcome
    obtain ⟨e, rfl⟩ := hearly outcome houtcome
    exact ⟨_, rfl, rfl⟩
  rintro manifests _ ⟨⟨hquiet', hacked, honly⟩, hpushless, -⟩
  refine Exits.mono ((orReturn_quiet (s4WaitCoverage_spec file.manifest.merkleRoot clock.coverage)
    _).and (Gathers.exits ((s4WaitCoverage_pushless _ _).adapt _))) ?_ ?_
  · rintro log cov ⟨⟨hquiet'', hactivate, polls, rfl, hpolls⟩, hpushless', -⟩
    have hlater := quiet_append.mpr ⟨hpushless, hpushless'⟩
    refine ⟨quiet_append.mpr ⟨hquiet, quiet_append.mpr ⟨hquiet', hquiet''⟩⟩, waits, _,
      List.append_assoc _ _ _, ⟨hall.hears, hall.pushes.append hlater⟩, waits ++ rest, manifests,
      polls, rfl, hreplicated, ?_, ?_, hactivate⟩
    · intro a ha peer hpeer
      exact hacked peer (mem_manifestTargets.mpr ⟨a, ha, hpeer⟩)
    · intro peer request answer hmem
      exact mem_manifestTargets.mp (honly peer request answer hmem).1
  · rintro log stop ⟨⟨hquiet'', hearly⟩, hpushless'⟩
    refine ⟨quiet_append.mpr ⟨hquiet, quiet_append.mpr ⟨hquiet', hquiet''⟩⟩, ?_,
      Or.inr (Or.inl (hpushed (quiet_append.mpr ⟨hpushless, hpushless'⟩)))⟩
    intro outcome houtcome
    obtain ⟨e, rfl⟩ := hearly outcome houtcome
    exact leavesPending_uncovered e

end

end Ingest

end Snip
