/-
The stages of an ingest that everyone helps with.

What is promised for the phase takes each stage through, and brings the ingest one phase
further.  Only the clock can stop a stage then: each loop needs at most one reading for
every event that is still to come, and one for every poll.
-/
import Snip.Proofs.IngestCooperation
import Snip.Proofs.Repush

namespace Snip

open Dialogue

/-! ### The chain -/

theorem pollCoverage_gone {last : Option AssignmentCoverageV2}
    {answer : Except Str (Option AssignmentCoverageV2)} (h : pollCoverage last answer = .gone) :
    answer = .ok none := by
  cases answer with
  | error e => cases h
  | ok row =>
      cases row with
      | none => rfl
      | some cov =>
          unfold pollCoverage at h
          cases hdone : cov.canActivateNow with
          | true => simp [hdone] at h
          | false => simp [hdone] at h

section

variable {σ ε : Type} [CryptoLib] [AssignmentScore] [Blake3] [Bs58] [SumchainWire]
  [FileLifecycleWire] {c : Ingest σ} {r : Registration} {peers : MapPeerResolver}
  {queue : σ → List SumNetEvent} {polls : σ → Nat} {start : σ}

/-- By induction on the readings: each poll that settles nothing leaves one less to make. -/
theorem Cooperates.waitForFinalized (h : Cooperates c r peers queue polls start) {txHex txHash : Str}
    (hown : c.Own r txHex) {deadline : Nat} {clock : List Nat}
    (hearly : ∀ now ∈ clock, now < deadline) :
    ∀ m : c.env.Moment start, .submission (.sendRaw txHex (.ok txHash)) ∈ m.past →
      polls m.state ≤ clock.length → ∃ height m',
        Gives (Dialogue.relabel .submission
          (Snip.waitForFinalized c.env.submission txHash deadline clock)) m (.ok height) m' ∧
        Calm queue polls m.state m'.state := by
  induction clock with
  | nil =>
      intro m hsent hpolls
      obtain ⟨status, s', hstatus, hcalm, ⟨height, rfl⟩ | ⟨-, hless⟩⟩ :=
        h.finalizes m txHex txHash hown hsent
      · refine ⟨height, m.next hstatus, ?_, hcalm⟩
        unfold Snip.waitForFinalized
        rw [Dialogue.relabel_bind, Dialogue.relabel_ask]
        exact Gives.bind (Gives.ask hstatus hstatus) (Gives.pure _ _)
      · have hpolls : polls m.state ≤ 0 := hpolls
        omega
  | cons now clock ih =>
      intro m hsent hpolls
      have hpolls : polls m.state ≤ clock.length + 1 := hpolls
      obtain ⟨status, s', hstatus, hcalm, ⟨height, rfl⟩ | ⟨hagain, hless⟩⟩ :=
        h.finalizes m txHex txHash hown hsent
      · refine ⟨height, m.next hstatus, ?_, hcalm⟩
        unfold Snip.waitForFinalized
        rw [Dialogue.relabel_bind, Dialogue.relabel_ask]
        exact Gives.bind (Gives.ask hstatus hstatus) (Gives.pure _ _)
      · have hnow := not_le.mpr (hearly now (List.mem_cons_self ..))
        obtain ⟨height, m', hrest, hcalm'⟩ :=
          ih (fun now hmem => hearly now (List.mem_cons_of_mem _ hmem)) (m.next hstatus)
            (List.mem_append_left _ hsent) (by show polls s' ≤ _; omega)
        refine ⟨height, m', ?_, hcalm.trans hcalm'⟩
        unfold Snip.waitForFinalized
        rw [Dialogue.relabel_bind, Dialogue.relabel_ask]
        refine Gives.bind (Gives.ask hstatus hstatus) ?_
        simp only [hagain, if_neg hnow]
        exact hrest

/-- A transaction that the chain takes becomes final. -/
theorem Cooperates.submit (h : Cooperates c r peers queue polls start) (buildTx : Nat → Str)
    (hown : ∀ nonce, c.Own r (buildTx nonce)) {clock : List Nat} {m : c.env.Moment start}
    (hclock : InTime clock c.params.finalityTimeout (polls m.state))
    (htakes : ∀ (m' : c.env.Moment start) (nonce : Nat),
      m'.past = m.past ++ [.nonce c.myAddrBase58 (.ok nonce)] → ∃ txHash s',
        c.env.Answers m'.state (.submission (.sendRaw (buildTx nonce) (.ok txHash))) s' ∧
          Calm queue polls m'.state s') :
    ∃ done m', Goes (c.submit buildTx clock) m done m' ∧ Calm queue polls m.state m'.state := by
  obtain ⟨nonce, s₁, hnonce, hcalm₁⟩ := h.nonce m
  obtain ⟨txHash, s₂, hsent, hcalm₂⟩ := htakes (m.next hnonce) nonce rfl
  have hpolls := (hcalm₁.trans hcalm₂).polls
  obtain ⟨height, m₃, hfinal, hcalm₃⟩ := h.waitForFinalized (hown nonce)
    hclock.early ((m.next hnonce).next hsent) (List.mem_append_right _ (List.mem_singleton_self _))
    (hpolls.trans hclock.enough)
  refine ⟨(txHash, height), m₃, ?_, (hcalm₁.trans hcalm₂).trans hcalm₃⟩
  refine Goes.bind (Goes.query hnonce hnonce) (Goes.bind (Goes.query hsent hsent) ?_)
  exact Goes.bind (Goes.lift hfinal) (Goes.pure _ m₃)

/-- By induction on the readings, as for a transaction. -/
theorem Cooperates.s4Loop (h : Cooperates c r peers queue polls start) {deadline : Nat}
    {clock : List Nat} (hearly : ∀ now ∈ clock, now < deadline) :
    ∀ (m : c.env.Moment start) last, c.Distributed r m.past → polls m.state ≤ clock.length →
      ∃ cov m', Goes (c.s4Loop r.file.manifest.merkleRoot deadline clock last) m cov m' ∧
        Calm queue polls m.state m'.state := by
  induction clock with
  | nil =>
      intro m last hdistributed hpolls
      obtain ⟨answer, s', hanswer, hcalm, hpatient⟩ := h.covers m hdistributed
      have hstep : c.env.Answers m.state
          (.coverage (fileRootHex r.file.manifest.merkleRoot) none answer) s' := ⟨none, hanswer⟩
      rcases hpatient with ⟨cov, rfl, hdone⟩ | ⟨-, hless⟩
      · refine ⟨cov, m.next hstep, ?_, hcalm⟩
        unfold Ingest.s4Loop
        refine Goes.bind (Goes.ask hanswer hstep) ?_
        simp only [pollCoverage, hdone, if_true]
        exact Goes.pure cov _
      · have hpolls : polls m.state ≤ 0 := hpolls
        omega
  | cons now clock ih =>
      intro m last hdistributed hpolls
      have hpolls : polls m.state ≤ clock.length + 1 := hpolls
      obtain ⟨answer, s', hanswer, hcalm, hpatient⟩ := h.covers m hdistributed
      have hstep : c.env.Answers m.state
          (.coverage (fileRootHex r.file.manifest.merkleRoot) none answer) s' := ⟨none, hanswer⟩
      rcases hpatient with ⟨cov, rfl, hdone⟩ | ⟨hagain, hless⟩
      · refine ⟨cov, m.next hstep, ?_, hcalm⟩
        unfold Ingest.s4Loop
        refine Goes.bind (Goes.ask hanswer hstep) ?_
        simp only [pollCoverage, hdone, if_true]
        exact Goes.pure cov _
      · have hnow := not_le.mpr (hearly now (List.mem_cons_self ..))
        cases hpoll : pollCoverage last answer with
        | done cov =>
            refine ⟨cov, m.next hstep, ?_, hcalm⟩
            unfold Ingest.s4Loop
            refine Goes.bind (Goes.ask hanswer hstep) ?_
            simp only [hpoll]
            exact Goes.pure cov _
        | gone => exact absurd (pollCoverage_gone hpoll) hagain
        | again last' =>
            obtain ⟨cov, m', hloop, hcalm'⟩ :=
              ih (fun now hmem => hearly now (List.mem_cons_of_mem _ hmem)) (m.next hstep) last'
                (hdistributed.later (.call rfl)) (by show polls s' ≤ _; omega)
            refine ⟨cov, m', ?_, hcalm.trans hcalm'⟩
            unfold Ingest.s4Loop
            refine Goes.bind (Goes.ask hanswer hstep) ?_
            simp only [hpoll, if_neg hnow]
            exact hloop

/-! ### The archives -/

omit [AssignmentScore] [Blake3] [Bs58] [SumchainWire] [FileLifecycleWire] in
theorem awaitTurns_complete {d : ArchiveDiscovery} (h : d.missing = []) (resolver : MapPeerResolver)
    (now : Nat) (clock : List Nat) : (c.awaitTurns d resolver now clock :
      Stage σ ε (Except DiscoveryFailure Unit × MapPeerResolver)) = pure (.ok (), resolver) := by
  cases clock with
  | nil =>
      unfold Ingest.awaitTurns
      rw [ArchiveDiscovery.status_complete h]
  | cons next clock =>
      unfold Ingest.awaitTurns
      rw [ArchiveDiscovery.status_complete h]

omit [CryptoLib] [AssignmentScore] [Blake3] [Bs58] [SumchainWire] [FileLifecycleWire] in
/-- Where discovery misses nothing, everything resolves. -/
theorem resolves_of_missing {resolver : MapPeerResolver} {required : Finset Addr} {deadline : Nat}
    {heard : List (Wake × Nat)}
    (h : ((seededDiscovery resolver required deadline).after heard).missing = []) :
    ∀ a ∈ required, ((resolver.after heard).resolve a).isSome = true := by
  intro a ha
  by_contra hres
  have hmissing := (@mem_missing_after_iff resolver required deadline heard a).mpr
    ⟨ha, Or.inl hres⟩
  rw [h] at hmissing
  cases hmissing

/--
By induction on the events after which nothing is missing: the wait ends there, or before.
-/
theorem Cooperates.awaitTurns (h : Cooperates c r peers queue polls start)
    (before : List SumNetEvent) : ∀ {d : ArchiveDiscovery} (resolver : MapPeerResolver)
      (now : Nat) {clock : List Nat} {m : c.env.Moment start} {after : List SumNetEvent},
      queue m.state = before ++ after → (d.after (turnsOf before)).missing = [] →
      before.length ≤ clock.length → now < d.deadline → (∀ next ∈ clock, next < d.deadline) →
      ∃ heard m', Goes (c.awaitTurns d resolver now clock :
          Stage σ ε (Except DiscoveryFailure Unit × MapPeerResolver)) m
          (.ok (), resolver.after (turnsOf heard)) m' ∧
        (d.after (turnsOf heard)).missing = [] ∧ polls m'.state ≤ polls m.state ∧
        toHear (queue m'.state) ≤ toHear (queue m.state) ∧
        m'.past = m.past ++ heard.map fun e => .wake (.event e) := by
  induction before with
  | nil =>
      intro d resolver now clock m after _ hmissing _ _ _
      have hnone : d.missing = [] := hmissing
      refine ⟨[], m, ?_, hmissing, le_refl _, le_refl _, (List.append_nil _).symm⟩
      rw [awaitTurns_complete hnone]
      exact Goes.pure _ m
  | cons event before ih =>
      intro d resolver now clock m after hqueue hmissing hlength hnow hearly
      obtain ⟨next, clock, rfl⟩ : ∃ next clock', clock = next :: clock' :=
        List.exists_cons_of_length_pos (Nat.lt_of_lt_of_le (Nat.succ_pos _) hlength)
      by_cases hnone : d.missing = []
      · refine ⟨[], m, ?_, hnone, le_refl _, le_refl _, (List.append_nil _).symm⟩
        rw [awaitTurns_complete hnone]
        exact Goes.pure _ m
      · obtain ⟨s₁, htold, hpolls, hlater⟩ := h.tells m event (before ++ after) hqueue
        obtain ⟨heard, m', hturns, hfound, hpolls', htoHear, hpast⟩ :=
          ih (d := d.observe event) (resolver.observe event) next (m := m.next htold) hlater hmissing
            (Nat.le_of_succ_le_succ hlength) (hearly next (List.mem_cons_self ..))
            (fun now hmem => hearly now (List.mem_cons_of_mem _ hmem))
        refine ⟨event :: heard, m', ?_, hfound, hpolls'.trans hpolls, ?_, ?_⟩
        · unfold Ingest.awaitTurns
          rw [ArchiveDiscovery.status_waiting hnone hnow]
          exact Goes.bind (Goes.ask htold htold) hturns
        · have hless := toHear_cons event (before ++ after)
          have htoHear : toHear (queue m'.state) ≤ toHear (queue s₁) := htoHear
          rw [hlater] at htoHear
          rw [hqueue, List.cons_append]
          omega
        · rw [hpast]
          exact List.append_assoc _ _ _

/-- The wait finds all of them, and the resolver is what was heard by then. -/
theorem Cooperates.awaitArchives (h : Cooperates c r peers queue polls start)
    (htimeout : 0 < c.params.discoveryTimeout) {required : Finset Addr} {m : c.env.Moment start}
    {before after : List SumNetEvent} (hqueue : queue m.state = before ++ after)
    (hfound : ∀ a ∈ required,
      (((peers.heard m.past).after (turnsOf before)).resolve a).isSome = true ∧
        ¬ Orphaned (peers.heard m.past) (turnsOf before) a)
    {clock : List Nat}
    (hclock : InTime clock c.params.discoveryTimeout (toHear (queue m.state))) :
    ∃ m', Goes (c.awaitArchives required (peers.heard m.past) clock :
        Stage σ ε (Except DiscoveryFailure Unit × MapPeerResolver)) m (.ok (), peers.heard m'.past)
        m' ∧
      (∀ a ∈ required, ((peers.heard m'.past).resolve a).isSome = true) ∧
      polls m'.state ≤ polls m.state ∧ toHear (queue m'.state) ≤ toHear (queue m.state) ∧
      ∃ heard : List SumNetEvent, m'.past = m.past ++ heard.map fun e => .wake (.event e) := by
  generalize hdeadline : clock.headD 0 + c.params.discoveryTimeout = deadline
  have hmissing : ((seededDiscovery (peers.heard m.past) required deadline).after
      (turnsOf before)).missing = [] := by
    refine List.eq_nil_iff_forall_not_mem.mpr ?_
    intro a ha
    obtain ⟨hmem, hlost⟩ := mem_missing_after_iff.mp ha
    obtain ⟨hres, hown⟩ := hfound a hmem
    rcases hlost with hlost | hlost
    · exact hlost hres
    · exact hown hlost
  have hlength : before.length ≤ clock.tail.length := by
    refine le_trans ?_ hclock.enough
    rw [hqueue]
    unfold toHear
    rw [List.length_append]
    omega
  obtain ⟨-, hseeded, -⟩ := seededDiscovery_spec (peers.heard m.past) required deadline
  obtain ⟨heard, m', hturns, hnone, hpolls, htoHear, hpast⟩ := h.awaitTurns (ε := ε) before
    (peers.heard m.past) (clock.headD 0) hqueue hmissing hlength
    (by rw [hseeded, ← hdeadline]; exact Nat.lt_add_of_pos_right htimeout)
    (by rw [hseeded, ← hdeadline]; exact hclock.early)
  have hheard : peers.heard m'.past = (peers.heard m.past).after (turnsOf heard) := by
    rw [hpast, MapPeerResolver.heard_append, ← wakesOf_events]
    rfl
  refine ⟨m', ?_, ?_, hpolls, htoHear, heard, hpast⟩
  · unfold Ingest.awaitArchives
    dsimp only
    rw [hdeadline, hheard]
    exact hturns
  · rw [hheard]
    exact resolves_of_missing hnone

/-! ### S2 -/

/-- An acknowledgement of the push is to come. -/
def AckComes (job : PushJob) (queue : List SumNetEvent) (t : Nat × PeerId) : Prop :=
  ∃ event ∈ queue, job.IsAck event t none

theorem Cooperates.sendOnePush (h : Cooperates c r peers queue polls start)
    (hsound : r.file.Sound) {job : PushJob} (hjob : job.merkleRoot = r.file.manifest.merkleRoot)
    {key : Nat × PeerId} {m : c.env.Moment start} (hwanted : c.Wanted r peers key m.past) :
    ∃ m', Goes (c.sendOnePush r.file key : Stage σ ε Bool) m true m' ∧
      Sends queue polls 1 m.state m'.state ∧ AckComes job (queue m'.state) key ∧
      Later m.past m'.past := by
  obtain ⟨-, -, hkey, -⟩ := id hwanted
  obtain ⟨data, proof, hrequest, -⟩ := hsound.proves hkey
  obtain ⟨s', hpush, hpolls, hdelivers⟩ := h.acksChunk m key _ hwanted hrequest
  refine ⟨m.next hpush, ?_, hdelivers.sends hpolls fun _ => rfl, ?_, .call rfl⟩
  · unfold Ingest.sendOnePush
    rw [hrequest]
    exact Goes.bind (Goes.ask hpush hpush) (Goes.pure _ _)
  · obtain ⟨origin, hmem⟩ := hdelivers.mem
    exact ⟨_, hmem, origin, by rw [hjob]⟩

/-- After the wave every push of it is going to be acknowledged. -/
theorem Cooperates.s2Wave (h : Cooperates c r peers queue polls start) (hsound : r.file.Sound)
    (job : PushJob) (hjob : job.merkleRoot = r.file.manifest.merkleRoot)
    (rest : List (Nat × PeerId)) :
    ∀ (st : S2State) (m : c.env.Moment start), (∀ t ∈ rest, c.Wanted r peers t m.past) →
      ∃ st' m', Goes (c.s2Wave r.file job rest (job.sendRest rest st) : Stage σ ε S2State) m
          (job.loopHead st') m' ∧ Sends queue polls rest.length m.state m'.state ∧
        (∀ t, (st'.attempts.lookup t).isSome = true ↔
          (st.attempts.lookup t).isSome = true ∨ t ∈ rest) ∧
        (∀ t ∈ rest, AckComes job (queue m'.state) t) ∧ Later m.past m'.past := by
  induction rest with
  | nil =>
      intro st m _
      refine ⟨st, m, Goes.pure _ m, Sends.refl _, fun t => ?_, nofun, .refl _⟩
      rw [or_iff_left List.not_mem_nil]
  | cons t rest ih =>
      intro st m hwanted
      obtain ⟨m₁, hsent, hsends₁, hack, hlater₁⟩ :=
        h.sendOnePush (ε := ε) hsound hjob (hwanted t (List.mem_cons_self ..))
      obtain ⟨st', m₂, hgoes, hsends₂, hattempts, hacks, hlater₂⟩ :=
        ih { st with phase := .wave (t :: rest), attempts := st.attempts.insert t 1 } m₁
          fun u hu => (hwanted u (List.mem_cons_of_mem _ hu)).later hlater₁
      refine ⟨st', m₂, Goes.bind hsent hgoes, ?_, ?_, ?_, hlater₁.trans hlater₂⟩
      · rw [List.length_cons, Nat.add_comm]
        exact hsends₁.trans hsends₂
      · intro u
        rw [hattempts u, List.mem_cons]
        by_cases hut : u = t
        · rw [hut, AList.lookup_insert]
          simp
        · rw [AList.lookup_insert_ne hut]
          simp [hut]
      · intro u hu
        rcases List.mem_cons.mp hu with rfl | hu
        · obtain ⟨event, hevent, hisack⟩ := hack
          exact ⟨event, hsends₂.keeps event hevent, hisack⟩
        · exact hacks u hu

/--
Every target is acknowledged, or its acknowledgement is still to come; the counters are
those of the targets.
-/
structure Hopeful (job : PushJob) (queue : List SumNetEvent) (st : S2State) : Prop where
  known : ∀ t, (st.attempts.lookup t).isSome = true ↔ t ∈ job.targets
  hope : ∀ t ∈ job.targets, Acked st.ackedPerChunk t ∨ AckComes job queue t

omit [CryptoLib] [Blake3] [Bs58] [SumchainWire] [FileLifecycleWire] in
/-- While chunks lack acknowledgements, something is to come. -/
theorem Hopeful.queue_ne_nil {job : PushJob} (hid : job.Identified) {queue : List SumNetEvent}
    {st : S2State} (h : Hopeful job queue st)
    (hopen : ¬ chunksReplicatedIn st.ackedPerChunk job.chunksToPush
      job.assignmentReplicationFactor = true) : queue ≠ [] := by
  intro hempty
  refine hopen (hid.replicated_of_acked ?_)
  intro t ht
  rcases h.hope t ht with hacked | ⟨event, hmem, -⟩
  · exact hacked
  · rw [hempty] at hmem
    cases hmem

/--
One event.  A refused push is sent again, which adds an acknowledgement to what is to
come; that is what a refusal counts twice for.
-/
theorem Cooperates.s2Resend (h : Cooperates c r peers queue polls start) (hsound : r.file.Sound)
    {job : PushJob} (hjob : job.merkleRoot = r.file.manifest.merkleRoot) {event : SumNetEvent}
    {later : List SumNetEvent} {st : S2State} (hhopeful : Hopeful job (event :: later) st)
    {m : c.env.Moment start} (hwanted : ∀ t ∈ job.targets, c.Wanted r peers t m.past)
    (hqueue : queue m.state = later) :
    ∃ st' m', Goes (c.s2Resend r.file job (job.onEvent st event) : Stage σ ε S2State) m
        (job.loopHead st') m' ∧ polls m'.state ≤ polls m.state ∧
      Hopeful job (queue m'.state) st' ∧
      toHear (queue m'.state) + 1 ≤ toHear (event :: later) ∧ Later m.past m'.past := by
  have hheard := job.heard_onEvent st event
  generalize job.onEvent st event = u at hheard ⊢
  have hone := toHear_cons event later
  cases hheard with
  | nothing hnothing =>
      refine ⟨st, m, ?_, le_refl _, ⟨hhopeful.known, ?_⟩, by rw [hqueue]; exact hone, .refl _⟩
      · rw [Ingest.s2Resend_loopHead]
        exact Goes.pure _ m
      · intro t ht
        rcases hhopeful.hope t ht with hacked | ⟨e, hmem, hack⟩
        · exact Or.inl hacked
        · rcases List.mem_cons.mp hmem with rfl | hmem
          · rcases hnothing t none hack with hnone | ⟨hne, -⟩
            · have hknown := (hhopeful.known t).mpr ht
              rw [hnone] at hknown
              cases hknown
            · exact absurd rfl hne
          · exact Or.inr ⟨e, by rw [hqueue]; exact hmem, hack⟩
  | @acked key hack hsome =>
      refine ⟨{ st with
        ackedPerChunk := st.ackedPerChunk.insert key.1
          (insert key.2 ((st.ackedPerChunk.lookup key.1).getD ∅)) }, m, ?_, le_refl _,
        ⟨hhopeful.known, ?_⟩, by rw [hqueue]; exact hone, .refl _⟩
      · rw [Ingest.s2Resend_loopHead]
        exact Goes.pure _ m
      · intro t ht
        rcases hhopeful.hope t ht with hacked | ⟨e, hmem, hack'⟩
        · exact Or.inl (hacked.add key.1 key.2)
        · rcases List.mem_cons.mp hmem with rfl | hmem
          · obtain ⟨rfl, -⟩ := hack.unique hack'
            exact Or.inl ⟨_, AList.lookup_insert _, Finset.mem_insert_self _ _⟩
          · exact Or.inr ⟨e, by rw [hqueue]; exact hmem, hack'⟩
  | @refused key error n hack hlook hle =>
      have hkey : key ∈ job.targets := (hhopeful.known key).mp (by rw [hlook]; rfl)
      obtain ⟨m', hgoes, hsends, -, hlater⟩ :=
        h.sendOnePush (ε := ε) hsound hjob (hwanted key hkey)
      refine ⟨_, m', Goes.bind hgoes (Goes.pure _ m'), hsends.polls, ⟨?_, ?_⟩, ?_, hlater⟩
      · intro t
        by_cases htk : t = key
        · rw [htk, AList.lookup_insert]
          simp [hkey]
        · rw [AList.lookup_insert_ne htk]
          exact hhopeful.known t
      · intro t ht
        rcases hhopeful.hope t ht with hacked | ⟨e, hmem, hack'⟩
        · exact Or.inl hacked
        · rcases List.mem_cons.mp hmem with rfl | hmem
          · cases (hack.unique hack').2
          · exact Or.inr ⟨e, hsends.keeps e (by rw [hqueue]; exact hmem), hack'⟩
      · have hadded := hsends.toHear
        obtain ⟨origin, rfl⟩ := hack
        rw [hqueue] at hadded
        refine (Nat.add_le_add_right hadded 1).trans ?_
        unfold toHear
        rw [List.length_cons, List.countP_cons]
        simp only [SumNetEvent.refusal, if_true]
        omega

/-- By induction on the readings. -/
theorem Cooperates.s2Loop (h : Cooperates c r peers queue polls start) (hsound : r.file.Sound)
    {job : PushJob} (hid : job.Identified) (hjob : job.merkleRoot = r.file.manifest.merkleRoot)
    (failure : Option DiscoveryFailure) {deadline : Nat} {clock : List Nat}
    (hearly : ∀ now ∈ clock, now < deadline) :
    ∀ (st : S2State) (m : c.env.Moment start), (∀ t ∈ job.targets, c.Wanted r peers t m.past) →
      Hopeful job (queue m.state) st → toHear (queue m.state) ≤ clock.length →
      ∃ m', Goes (c.s2Loop r.file job failure deadline clock (job.loopHead st)) m
          job.distinctAssigned m' ∧ polls m'.state ≤ polls m.state ∧
        toHear (queue m'.state) ≤ toHear (queue m.state) ∧ Later m.past m'.past := by
  induction clock with
  | nil =>
      intro st m _ hhopeful hroom
      by_cases hdone : chunksReplicatedIn st.ackedPerChunk job.chunksToPush
          job.assignmentReplicationFactor = true
      · refine ⟨m, ?_, le_refl _, le_refl _, .refl _⟩
        unfold PushJob.loopHead
        rw [if_pos hdone, Ingest.s2Loop_returned rfl]
        exact Goes.pure _ m
      · have hpos := List.length_pos_iff.mpr (hhopeful.queue_ne_nil hid hdone)
        have hroom : toHear (queue m.state) ≤ 0 := hroom
        unfold toHear at hroom
        omega
  | cons now clock ih =>
      intro st m hwanted hhopeful hroom
      by_cases hdone : chunksReplicatedIn st.ackedPerChunk job.chunksToPush
          job.assignmentReplicationFactor = true
      · refine ⟨m, ?_, le_refl _, le_refl _, .refl _⟩
        unfold PushJob.loopHead
        rw [if_pos hdone, Ingest.s2Loop_returned rfl]
        exact Goes.pure _ m
      · have hnow := not_le.mpr (hearly now (List.mem_cons_self ..))
        have hroom : toHear (queue m.state) ≤ clock.length + 1 := hroom
        obtain ⟨event, later, hqueue⟩ :=
          List.exists_cons_of_ne_nil (hhopeful.queue_ne_nil hid hdone)
        obtain ⟨s₁, htold, hpolls₁, hlater⟩ := h.tells m event later hqueue
        rw [hqueue] at hhopeful hroom
        have hwaiting : Hopeful job (event :: later) { st with phase := .waiting } :=
          ⟨hhopeful.known, hhopeful.hope⟩
        have hwanted' : ∀ t ∈ job.targets, c.Wanted r peers t (m.next htold).past :=
          fun t ht => (hwanted t ht).later (.call rfl)
        obtain ⟨st', m₂, hresend, hpolls₂, hhopeful', hless, hlater₂⟩ :=
          h.s2Resend (ε := S2Failure) hsound hjob hwaiting hwanted' hlater
        obtain ⟨m₃, hloop, hpolls₃, htoHear₃, hlater₃⟩ :=
          ih (fun now hmem => hearly now (List.mem_cons_of_mem _ hmem)) st' m₂
            (fun t ht => (hwanted' t ht).later hlater₂) hhopeful' (by omega)
        refine ⟨m₃, ?_, hpolls₃.trans (hpolls₂.trans hpolls₁), ?_,
          (Later.call rfl).trans (hlater₂.trans hlater₃)⟩
        · unfold PushJob.loopHead
          rw [if_neg hdone]
          unfold Ingest.s2Loop
          dsimp only
          simp only [if_neg hnow]
          exact Goes.bind (Goes.ask htold htold) (Goes.bind hresend hloop)
        · rw [hqueue]
          omega

omit [Blake3] [Bs58] [SumchainWire] [FileLifecycleWire] in
/-- The archives of a chunk are archives of the file. -/
theorem Ingest.mem_archivesOf {file : ReproducedFile} {snapshot : List Addr} {a : Addr} :
    a ∈ c.archivesOf file snapshot ↔ ∃ i < file.manifest.chunkCount,
      a ∈ assignedArchives file.manifest.merkleRoot snapshot i
        c.params.assignmentReplicationFactor := by
  unfold Ingest.archivesOf
  rw [requiredArchives_eq]
  unfold assignedUnion
  rw [List.mem_toFinset, List.mem_flatMap]
  simp only [List.mem_range]

/-- The whole file, pushed to these peers. -/
abbrev Ingest.wholeJob (c : Ingest σ) (file : ReproducedFile) (snapshot : List Addr)
    (resolver : MapPeerResolver) : PushJob :=
  c.pushJob file snapshot (Finset.range file.manifest.chunkCount) resolver none

omit [Blake3] [Bs58] [SumchainWire] [FileLifecycleWire] in
theorem wholeJob_identified {file : ReproducedFile} {snapshot : List Addr}
    {resolver : MapPeerResolver} (hr : 0 < c.params.assignmentReplicationFactor)
    (harchives : c.params.assignmentReplicationFactor ≤ snapshot.toFinset.card)
    (hresolves : ∀ a ∈ c.archivesOf file snapshot, (resolver.resolve a).isSome = true) :
    (c.wholeJob file snapshot resolver).Identified := by
  refine ⟨hr, harchives, fun i hi => Finset.mem_range.mp hi, ?_⟩
  intro i hi a ha
  exact hresolves a (Ingest.mem_archivesOf.mpr ⟨i, Finset.mem_range.mp hi, ha⟩)

omit [Blake3] [Bs58] [SumchainWire] [FileLifecycleWire] in
theorem wholeJob_targets_length {file : ReproducedFile} {snapshot : List Addr}
    {resolver : MapPeerResolver} (hid : (c.wholeJob file snapshot resolver).Identified) :
    (c.wholeJob file snapshot resolver).targets.length = pushesOf c file := by
  refine hid.targets_length.trans ?_
  show (Finset.range file.manifest.chunkCount).card * _ = _
  rw [Finset.card_range]
  rfl

/-- What S2 leaves behind: every chunk at its archives, in the words of the log. -/
structure Pushed (c : Ingest σ) (r : Registration) (snapshot : List Addr)
    (resolver : MapPeerResolver) (peers : MapPeerResolver) (past : List IngestCall) : Prop where
  opened : c.Opened r snapshot past
  replicated : Ingest.Replicated c r.file snapshot (Finset.range r.file.manifest.chunkCount)
    resolver past
  found : ∀ a peer, resolver.resolve a = some peer → Found peers a peer past

/-- **S2 ends with every archive of the file.** -/
theorem Cooperates.s2PushChunks (h : Cooperates c r peers queue polls start)
    (hsound : r.file.Sound) (hr : 0 < c.params.assignmentReplicationFactor)
    {snapshot : List Addr} {m : c.env.Moment start} (hopened : c.Opened r snapshot m.past)
    (hplace : Placeable c r.file (peers.heard m.past) snapshot (queue m.state))
    {clock : IngestClock}
    (hclock : ClocksSuffice c r.file clock (polls m.state) (toHear (queue m.state))) :
    ∃ resolver m', Goes (c.s2PushChunks r.file snapshot (Finset.range r.file.manifest.chunkCount)
          (peers.heard m.past) clock) m (Ingest.fileArchives c r.file snapshot, resolver) m' ∧
      Pushed c r snapshot resolver peers m'.past ∧ polls m'.state ≤ polls m.state ∧
      toHear (queue m'.state) ≤ toHear (queue m.state) + pushesOf c r.file := by
  obtain ⟨before, after, hqueue, hfound⟩ := hplace.found
  obtain ⟨m₁, hwait, hresolves, hpolls₁, htoHear₁, heard, hpast⟩ :=
    h.awaitArchives (ε := S2Failure) hclock.patience hqueue hfound hclock.pushDiscovery
  have hlater₁ : Later m.past m₁.past := Later.of_goes hwait (Ingest.awaitArchives_spec _ _ _)
  have hid := wholeJob_identified hr hplace.archives hresolves
  have htargets := wholeJob_targets_length hid
  have hwanted : ∀ t ∈ (c.wholeJob r.file snapshot (peers.heard m₁.past)).targets,
      c.Wanted r peers t m₁.past := by
    intro t ht
    obtain ⟨hlt, -, hpushed⟩ := PushJob.mem_targets.mp ht
    obtain ⟨a, ha, hpeer⟩ := List.mem_filterMap.mp hpushed
    exact ⟨snapshot, hopened.later hlater₁, hlt, a, ha, m₁.past, List.prefix_refl _, hpeer⟩
  obtain ⟨st, m₂, hwave, hsends, hattempts, hacks, hlater₂⟩ := h.s2Wave (ε := S2Failure) hsound
    (c.wholeJob r.file snapshot (peers.heard m₁.past)) rfl _
    ((c.wholeJob r.file snapshot (peers.heard m₁.past)).idle .empty) m₁ hwanted
  have hhopeful : Hopeful (c.wholeJob r.file snapshot (peers.heard m₁.past)) (queue m₂.state) st := by
    refine ⟨?_, fun t ht => Or.inr (hacks t ht)⟩
    intro t
    rw [hattempts t, PushJob.lookup_idle]
    by_cases ht : t ∈ (c.wholeJob r.file snapshot (peers.heard m₁.past)).targets
    · simp [ht]
    · simp [ht]
  have htoHear₂ := hsends.toHear
  rw [htargets] at htoHear₂
  obtain ⟨m₃, hloop, hpolls₃, htoHear₃, hlater₃⟩ := h.s2Loop hsound hid rfl none hclock.push.early
    st m₂ (fun t ht => (hwanted t ht).later hlater₂) hhopeful
    (by have hroom := hclock.push.enough; omega)
  have hgoes : Goes (c.s2PushChunks r.file snapshot (Finset.range r.file.manifest.chunkCount)
      (peers.heard m.past) clock) m
      ((c.wholeJob r.file snapshot (peers.heard m₁.past)).distinctAssigned,
        peers.heard m₁.past) m₃ := by
    unfold Ingest.s2PushChunks
    rw [Finset.sort_range]
    exact Goes.bind hwait (Goes.bind hwave (Goes.bind hloop (Goes.pure _ m₃)))
  obtain ⟨log, hlog, -, hdistinct, hreplicated, -⟩ :=
    hgoes.exits (Ingest.s2PushChunks_spec hr snapshot _ _ clock)
  refine ⟨peers.heard m₁.past, m₃, ?_, ⟨?_, ?_, ?_⟩, ?_, ?_⟩
  · rw [← hdistinct]
    exact hgoes
  · exact hopened.later (hlater₁.trans (hlater₂.trans hlater₃))
  · rw [hlog]
    exact hreplicated.of_sublist (List.sublist_append_right _ _)
  · intro a peer hpeer
    exact ⟨m₁.past, (hlater₂.trans hlater₃).isPrefix, hpeer⟩
  · exact hpolls₃.trans (hsends.polls.trans hpolls₁)
  · omega

/-! ### S3 -/

/-- The acknowledgement of the manifest is to come. -/
def ManifestAckComes (file : ReproducedFile) (queue : List SumNetEvent) (peer : PeerId) : Prop :=
  ∃ origin, .shardReceivedV2 peer (.manifestPushAck file.manifest.merkleRoot none) origin ∈ queue

theorem Cooperates.s3Wave (h : Cooperates c r peers queue polls start) (targets : List PeerId) :
    ∀ m : c.env.Moment start, (∀ peer ∈ targets, c.WantsManifest r peers peer m.past) →
      ∃ m', Goes (c.s3Wave (manifestPushRequest r.file.manifest (some r.file.manifestBytes)) targets)
          m () m' ∧ Sends queue polls targets.length m.state m'.state ∧
        ∀ peer ∈ targets, ManifestAckComes r.file (queue m'.state) peer := by
  induction targets with
  | nil =>
      intro m _
      exact ⟨m, Goes.pure _ m, Sends.refl _, nofun⟩
  | cons peer targets ih =>
      intro m hwants
      obtain ⟨s₁, hpush, hpolls, hdelivers⟩ :=
        h.acksManifest m peer (hwants peer (List.mem_cons_self ..))
      obtain ⟨m₂, hwave, hsends, hacks⟩ := ih (m.next hpush)
        fun p hp => (hwants p (List.mem_cons_of_mem _ hp)).later (.call rfl)
      refine ⟨m₂, Goes.bind (Goes.query hpush hpush) hwave, ?_, ?_⟩
      · rw [List.length_cons, Nat.add_comm]
        exact (hdelivers.sends hpolls fun _ => rfl).trans hsends
      · intro p hp
        rcases List.mem_cons.mp hp with rfl | hp
        · obtain ⟨origin, hmem⟩ := hdelivers.mem
          exact ⟨origin, hsends.keeps _ hmem⟩
        · exact hacks p hp

/-- By induction on the readings; whatever else is read changes nothing. -/
theorem Cooperates.s3Loop (h : Cooperates c r peers queue polls start) {needed : Finset PeerId}
    {deadline : Nat} {clock : List Nat} (hearly : ∀ now ∈ clock, now < deadline) :
    ∀ (acked : Finset PeerId) (m : c.env.Moment start),
      (∀ peer ∈ needed, peer ∈ acked ∨ ManifestAckComes r.file (queue m.state) peer) →
      toHear (queue m.state) ≤ clock.length →
      ∃ acked' m', Goes (c.s3Loop r.file.manifest.merkleRoot needed deadline clock acked :
          Stage σ ε (Finset PeerId)) m acked' m' ∧ needed.card ≤ acked'.card ∧
        polls m'.state ≤ polls m.state := by
  -- while an acknowledgement is missing, it is to come
  have hne : ∀ (acked : Finset PeerId) (m : c.env.Moment start),
      (∀ peer ∈ needed, peer ∈ acked ∨ ManifestAckComes r.file (queue m.state) peer) →
      ¬ needed.card ≤ acked.card → queue m.state ≠ [] := by
    intro acked m hhope hopen hempty
    refine hopen (Finset.card_le_card ?_)
    intro peer hpeer
    rcases hhope peer hpeer with hacked | ⟨origin, hmem⟩
    · exact hacked
    · rw [hempty] at hmem
      cases hmem
  induction clock with
  | nil =>
      intro acked m hhope hroom
      by_cases hdone : needed.card ≤ acked.card
      · refine ⟨acked, m, ?_, hdone, le_refl _⟩
        unfold Ingest.s3Loop
        simp only [if_pos hdone]
        exact Goes.pure _ m
      · have hpos := List.length_pos_iff.mpr (hne acked m hhope hdone)
        have hroom : toHear (queue m.state) ≤ 0 := hroom
        unfold toHear at hroom
        omega
  | cons now clock ih =>
      intro acked m hhope hroom
      by_cases hdone : needed.card ≤ acked.card
      · refine ⟨acked, m, ?_, hdone, le_refl _⟩
        unfold Ingest.s3Loop
        simp only [if_pos hdone]
        exact Goes.pure _ m
      · have hnow := not_le.mpr (hearly now (List.mem_cons_self ..))
        have hroom : toHear (queue m.state) ≤ clock.length + 1 := hroom
        obtain ⟨event, later, hqueue⟩ := List.exists_cons_of_ne_nil (hne acked m hhope hdone)
        obtain ⟨s₁, htold, hpolls₁, hlater⟩ := h.tells m event later hqueue
        have hless := toHear_cons event later
        have hhope' : ∀ peer ∈ needed,
            peer ∈ noteManifestAck r.file.manifest.merkleRoot needed event acked ∨
              ManifestAckComes r.file (queue s₁) peer := by
          intro peer hpeer
          have hkeeps : acked ⊆ noteManifestAck r.file.manifest.merkleRoot needed event acked := by
            rcases Ingest.noteManifestAck_cases r.file.manifest.merkleRoot needed event acked with
              hsame | ⟨p, _, _, _, hsame⟩
            · rw [hsame]
            · rw [hsame]
              exact Finset.subset_insert p acked
          rcases hhope peer hpeer with hacked | ⟨origin, hmem⟩
          · exact Or.inl (hkeeps hacked)
          · rw [hqueue] at hmem
            rcases List.mem_cons.mp hmem with rfl | hmem
            · refine Or.inl ?_
              show peer ∈ if _ = _ ∧ _ then insert peer acked else acked
              rw [if_pos ⟨rfl, hpeer⟩]
              exact Finset.mem_insert_self _ _
            · exact Or.inr ⟨origin, by rw [hlater]; exact hmem⟩
        rw [hqueue] at hroom
        obtain ⟨acked', m₂, hloop, hcard, hpolls₂⟩ :=
          ih (fun now hmem => hearly now (List.mem_cons_of_mem _ hmem)) _ (m.next htold) hhope'
            (by show toHear (queue s₁) ≤ _; rw [hlater]; omega)
        refine ⟨acked', m₂, ?_, hcard, hpolls₂.trans hpolls₁⟩
        unfold Ingest.s3Loop
        simp only [if_neg hdone, if_neg hnow]
        exact Goes.bind (Goes.ask htold htold) hloop

omit [Blake3] [Bs58] [SumchainWire] [FileLifecycleWire] in
/-- The manifest goes to no more peers than the chunks do. -/
theorem card_manifestTargets_le (c : Ingest σ) (file : ReproducedFile) (snapshot : List Addr)
    (resolver : MapPeerResolver) :
    (Ingest.manifestTargets (Ingest.fileArchives c file snapshot) resolver).card
      ≤ pushesOf c file := by
  have harchives : (Ingest.fileArchives c file snapshot).card ≤ pushesOf c file := by
    refine (List.toFinset_card_le _).trans ?_
    rw [List.length_flatMap]
    refine (List.sum_le_card_nsmul _ c.params.assignmentReplicationFactor ?_).trans ?_
    · intro n hn
      obtain ⟨i, -, rfl⟩ := List.mem_map.mp hn
      rw [assignedArchives_length_eq_min]
      exact Nat.min_le_left _ _
    · rw [List.length_map, List.length_range]
      exact le_refl _
  refine (List.toFinset_card_le _).trans ((List.length_filterMap_le _ _).trans ?_)
  rw [Finset.length_sort]
  exact harchives

/-- **S3 ends with the manifest at every peer it was for.** -/
theorem Cooperates.s3PushManifest (h : Cooperates c r peers queue polls start)
    (hsound : r.file.Sound) {snapshot : List Addr} {resolver : MapPeerResolver}
    {m : c.env.Moment start} (hpushed : Pushed c r snapshot resolver peers m.past)
    {clock : List Nat} (hclock : InTime clock c.params.manifestPushWaitSecs
      (toHear (queue m.state) + pushesOf c r.file)) :
    ∃ m', Goes (c.s3PushManifest r.file (Ingest.fileArchives c r.file snapshot) resolver clock) m ()
        m' ∧ c.Distributed r m'.past ∧ polls m'.state ≤ polls m.state := by
  have hcardle := card_manifestTargets_le c r.file snapshot resolver
  have hwants : ∀ peer ∈ (Ingest.manifestTargets (Ingest.fileArchives c r.file snapshot)
      resolver).sort (· ≤ ·), c.WantsManifest r peers peer m.past := by
    intro peer hpeer
    obtain ⟨a, ha, hres⟩ := Ingest.mem_manifestTargets.mp ((Finset.mem_sort _).mp hpeer)
    exact ⟨snapshot, resolver, hpushed.opened, hpushed.replicated, a, ha, hpushed.found a peer hres⟩
  obtain ⟨m₁, hwave, hsends, hacks⟩ := h.s3Wave _ m hwants
  have hroom : toHear (queue m₁.state) ≤ clock.tail.length := by
    have htoHear := hsends.toHear
    rw [Finset.length_sort] at htoHear
    exact (htoHear.trans (Nat.add_le_add_left hcardle _)).trans hclock.enough
  obtain ⟨acked, m₂, hloop, hcard, hpolls⟩ := h.s3Loop (ε := IngestError) hclock.early ∅ m₁
    (fun peer hpeer => Or.inr (hacks peer ((Finset.mem_sort _).mpr hpeer))) hroom
  have hgoes : Goes (c.s3PushManifest r.file (Ingest.fileArchives c r.file snapshot) resolver clock)
      m () m₂ := by
    refine Goes.bind hwave (Goes.bind hloop ?_)
    rw [if_neg (not_lt.mpr hcard)]
    exact Goes.pure _ m₂
  obtain ⟨log, hlog, hquiet, hacked, -⟩ := hgoes.gathers (Ingest.s3PushManifest_spec _ _ clock)
  refine ⟨m₂, hgoes, ?_, hpolls.trans hsends.polls⟩
  refine ⟨snapshot, resolver, hpushed.opened.later ⟨log, hlog, hquiet⟩, ?_⟩
  rw [hlog]
  refine hpushed.replicated.placed hsound ?_
  intro a ha peer hpeer
  exact hacked peer (Ingest.mem_manifestTargets.mpr ⟨a, ha, hpeer⟩)

end

end Snip
