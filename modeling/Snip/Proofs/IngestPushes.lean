/-
What S2 of an ingest has seen when it returns without a failure.

The stage runs the machine of `Node/IngestV2` on the entries of its own log.  Along every
run of the machine an acknowledgement counts only for a push that was planned, and the
first push to each target comes before anything is read.  There are never more targets
for a chunk than the replication factor, so a chunk with enough acknowledgements has one
from every archive it is assigned to.
-/
import Snip.Lib.Lists
import Snip.Proofs.IngestStages
import Snip.Proofs.PushRetry

namespace Snip

open Dialogue

namespace PushJob

variable [AssignmentScore]

/-- One entry, as a step. -/
def Turns (job : PushJob) (s : S2State) (e : S2Entry) (t : S2State) : Prop := job.turn s e = some t

/-- The push of a chunk, and after it the acknowledgement. -/
def Answered (job : PushJob) (key : Nat × PeerId) (past : List S2Entry) : Prop :=
  ∃ ok event, job.IsAck event key none ∧
    List.Sublist [.sent key ok, .read event] past

/-- What the machine has in its hands, by its past. -/
structure Evidenced (job : PushJob) (past : List S2Entry) (s : S2State) : Prop where
  planned : ∀ key, (s.attempts.lookup key).isSome = true → key ∈ job.targets
  ahead : ∀ key ∈ s.phase.rest, key ∈ job.targets
  /-- In the wave a target is still ahead, or it was tried. -/
  tried : ∀ key ∈ job.targets, key ∈ s.phase.rest ∨ ∃ ok, .sent key ok ∈ past
  acked : ∀ key, Acked s.ackedPerChunk key → key ∈ job.targets ∧ job.Answered key past
  returned : ∀ distinct, s.phase = .returned (.ok distinct) →
    distinct = job.distinctAssigned ∧
      chunksReplicatedIn s.ackedPerChunk job.chunksToPush job.assignmentReplicationFactor = true

omit [AssignmentScore] in
theorem Answered.later {job : PushJob} {key : Nat × PeerId} {past : List S2Entry}
    (h : job.Answered key past) (e : S2Entry) : job.Answered key (past ++ [e]) := by
  obtain ⟨ok, event, hack, hsub⟩ := h
  exact ⟨ok, event, hack, hsub.trans (List.sublist_append_left past [e])⟩

section

variable {job : PushJob} {past : List S2Entry} {s t : S2State}

/-- The head of the loop keeps what there is. -/
theorem Evidenced.loopHead
    (hplanned : ∀ key, (s.attempts.lookup key).isSome = true → key ∈ job.targets)
    (htried : ∀ key ∈ job.targets, ∃ ok, .sent key ok ∈ past)
    (hacked : ∀ key, Acked s.ackedPerChunk key → key ∈ job.targets ∧ job.Answered key past) :
    job.Evidenced past (job.loopHead s) := by
  have hmaybe : ∀ (rest : List (Nat × PeerId)), ∀ key ∈ job.targets,
      key ∈ rest ∨ ∃ ok, .sent key ok ∈ past := fun _ key hkey => Or.inr (htried key hkey)
  rcases job.loopHead_eq s with h | ⟨hdone, h⟩
  · rw [h]
    exact ⟨hplanned, nofun, hmaybe [], hacked, nofun⟩
  · rw [h]
    refine ⟨hplanned, nofun, hmaybe [], hacked, ?_⟩
    intro distinct hphase
    cases hphase
    exact ⟨rfl, hdone⟩

/-- After the last push of the wave the loop begins, before it the wave goes on. -/
theorem Evidenced.sendRest {rest : List (Nat × PeerId)}
    (hplanned : ∀ key, (s.attempts.lookup key).isSome = true → key ∈ job.targets)
    (hahead : ∀ key ∈ rest, key ∈ job.targets)
    (htried : ∀ key ∈ job.targets, key ∈ rest ∨ ∃ ok, .sent key ok ∈ past)
    (hacked : ∀ key, Acked s.ackedPerChunk key → key ∈ job.targets ∧ job.Answered key past) :
    job.Evidenced past (job.sendRest rest s) := by
  rcases job.sendRest_eq rest s with ⟨-, h⟩ | ⟨rfl, h⟩
  · rw [h]
    exact ⟨hplanned, hahead, htried, hacked, nofun⟩
  · rw [h]
    refine Evidenced.loopHead hplanned ?_ hacked
    intro key hkey
    exact (htried key hkey).resolve_left List.not_mem_nil

theorem opening_evidenced (job : PushJob) : job.Evidenced [] job.opening := by
  refine Evidenced.sendRest ?_ (fun _ hkey => hkey) (fun _ hkey => Or.inl hkey) ?_
  · intro key hkey
    by_contra hnot
    rw [job.lookup_idle key] at hkey
    simp [hnot] at hkey
  · intro key hkey
    obtain ⟨peers, hlook, -⟩ := hkey
    cases hlook

/-- The keys of the counters stay the planned ones. -/
theorem planned_insert {key : Nat × PeerId} {n : Nat} (hkey : key ∈ job.targets)
    (h : ∀ k, (s.attempts.lookup k).isSome = true → k ∈ job.targets) :
    ∀ k, ((s.attempts.insert key n).lookup k).isSome = true → k ∈ job.targets := by
  intro k hk
  by_cases heq : k = key
  · rw [heq]
    exact hkey
  · rw [AList.lookup_insert_ne heq] at hk
    exact h k hk

theorem Evidenced.read {event : SumNetEvent} (h : job.Evidenced past s)
    (htried : ∀ key ∈ job.targets, ∃ ok, .sent key ok ∈ past)
    (hafter : ∀ key ∈ job.targets, ∃ ok, .sent key ok ∈ past ++ [.read event])
    (hacked : ∀ key, Acked s.ackedPerChunk key →
      key ∈ job.targets ∧ job.Answered key (past ++ [.read event])) :
    job.Evidenced (past ++ [.read event]) (job.onEvent s event) := by
  have hheard := job.heard_onEvent s event
  generalize job.onEvent s event = s' at hheard ⊢
  cases hheard with
  | nothing _ => exact Evidenced.loopHead h.planned hafter hacked
  | @acked key hack hsome =>
      refine Evidenced.loopHead h.planned hafter ?_
      intro k hk
      rcases Acked.of_add hk with hold | hnew
      · exact hacked k hold
      · obtain rfl : k = key := hnew
        have hplanned := h.planned k hsome
        obtain ⟨ok, hmem⟩ := htried k hplanned
        refine ⟨hplanned, ok, event, hack, ?_⟩
        exact List.Sublist.append (List.singleton_sublist.mpr hmem) (List.Sublist.refl [_])
  | @refused key error n hack hlook hle =>
      have hkey : key ∈ job.targets := h.planned key (by rw [hlook]; rfl)
      exact ⟨planned_insert hkey h.planned, nofun, fun k hk => Or.inr (hafter k hk), hacked, nofun⟩

/-- **One entry keeps the evidence.** -/
theorem Evidenced.turns {e : S2Entry} (h : job.Evidenced past s) (hturn : job.Turns s e t) :
    job.Evidenced (past ++ [e]) t := by
  have hacked : ∀ key, Acked s.ackedPerChunk key →
      key ∈ job.targets ∧ job.Answered key (past ++ [e]) := by
    intro key hkey
    exact ⟨(h.acked key hkey).1, (h.acked key hkey).2.later e⟩
  -- out of the wave every target has been tried
  have htried : s.phase.rest = [] → ∀ key ∈ job.targets, ∃ ok, .sent key ok ∈ past := by
    intro hrest key hkey
    rcases h.tried key hkey with hmem | hmem
    · rw [hrest] at hmem
      cases hmem
    · exact hmem
  have hafter : s.phase.rest = [] → ∀ key ∈ job.targets, ∃ ok, .sent key ok ∈ past ++ [e] := by
    intro hrest key hkey
    obtain ⟨ok, hmem⟩ := htried hrest key hkey
    exact ⟨ok, List.mem_append_left _ hmem⟩
  cases turned_of_turn hturn with
  | @first x rest ok hphase =>
      have hrest : s.phase.rest = x :: rest := by rw [hphase]; rfl
      have hx : x ∈ job.targets := h.ahead x (by rw [hrest]; exact List.mem_cons_self ..)
      have hplanned : ∀ key, ((if ok then { s with attempts := s.attempts.insert x 1 }
          else s).attempts.lookup key).isSome = true → key ∈ job.targets := by
        cases ok with
        | true => exact planned_insert hx h.planned
        | false => exact h.planned
      have hsame : (if ok then { s with attempts := s.attempts.insert x 1 } else s).ackedPerChunk
          = s.ackedPerChunk := by
        cases ok <;> rfl
      refine Evidenced.sendRest hplanned ?_ ?_ (by rw [hsame]; exact hacked)
      · intro key hkey
        exact h.ahead key (by rw [hrest]; exact List.mem_cons_of_mem _ hkey)
      · intro key hkey
        rcases h.tried key hkey with hmem | ⟨sent, hmem⟩
        · rw [hrest] at hmem
          rcases List.mem_cons.mp hmem with rfl | hmem
          · exact Or.inr ⟨ok, List.mem_append_right _ (List.mem_singleton_self _)⟩
          · exact Or.inl hmem
        · exact Or.inr ⟨sent, List.mem_append_left _ hmem⟩
  | @again key ok hphase =>
      exact Evidenced.loopHead h.planned (hafter (by rw [hphase]; rfl)) hacked
  | read event hphase =>
      have hrest : s.phase.rest = [] := by rw [hphase]; rfl
      exact h.read (htried hrest) (hafter hrest) hacked
  | deadline hphase =>
      have hrest : s.phase.rest = [] := by rw [hphase]; rfl
      refine ⟨h.planned, nofun, fun key hkey => Or.inr (hafter hrest key hkey), hacked, ?_⟩
      intro distinct hreturned
      have haudit : job.audit s = .ok distinct := S2Phase.returned.inj hreturned
      unfold audit at haudit
      cases hunder : underReplicated s.ackedPerChunk job.chunksToPush
          job.assignmentReplicationFactor with
      | nil =>
          simp only [hunder] at haudit
          exact ⟨(Except.ok.inj haudit).symm, underReplicated_eq_nil_iff.mp hunder⟩
      | cons i under =>
          simp only [hunder] at haudit
          cases haudit

/-- Along every run. -/
theorem run_evidenced {entries : List S2Entry} (h : Run job.Turns job.opening entries s) :
    job.Evidenced entries s :=
  Run.invariant h (fun _ _ _ _ hp hturn => hp.turns hturn) [] job.opening_evidenced

/-- Only targets are sent to, and what is sent again is one of them. -/
structure Planned (job : PushJob) (past : List S2Entry) (s : S2State) : Prop where
  sent : ∀ key ok, .sent key ok ∈ past → key ∈ job.targets
  again : ∀ key, s.phase = .retrying key → key ∈ job.targets

theorem loopHead_not_retrying (s : S2State) (key : Nat × PeerId) :
    (job.loopHead s).phase ≠ .retrying key := by
  rcases job.loopHead_eq s with h | ⟨-, h⟩
  · rw [h]
    exact nofun
  · rw [h]
    exact nofun

theorem sendRest_not_retrying (rest : List (Nat × PeerId)) (s : S2State) (key : Nat × PeerId) :
    (job.sendRest rest s).phase ≠ .retrying key := by
  rcases job.sendRest_eq rest s with ⟨-, h⟩ | ⟨-, h⟩
  · rw [h]
    exact nofun
  · rw [h]
    exact loopHead_not_retrying s key

theorem Planned.turns {e : S2Entry} (h : job.Planned past s) (hevidence : job.Evidenced past s)
    (hturn : job.Turns s e t) : job.Planned (past ++ [e]) t := by
  have hsent : (∀ key ok, e = .sent key ok → key ∈ job.targets) →
      ∀ key ok, .sent key ok ∈ past ++ [e] → key ∈ job.targets := by
    intro hnew key ok hmem
    rcases List.mem_append.mp hmem with hmem | hmem
    · exact h.sent key ok hmem
    · exact hnew key ok (List.mem_singleton.mp hmem).symm
  cases turned_of_turn hturn with
  | @first x rest ok hphase =>
      refine ⟨hsent ?_, fun key hkey => absurd hkey (sendRest_not_retrying rest _ key)⟩
      intro key ok' hkey
      obtain ⟨rfl, -⟩ := S2Entry.sent.inj hkey
      exact hevidence.ahead _ (by rw [hphase]; exact List.mem_cons_self ..)
  | @again x ok hphase =>
      refine ⟨hsent ?_, fun key hkey => absurd hkey (loopHead_not_retrying s key)⟩
      intro key ok' hkey
      obtain ⟨rfl, -⟩ := S2Entry.sent.inj hkey
      exact h.again _ hphase
  | read event hphase =>
      refine ⟨hsent nofun, ?_⟩
      intro key hkey
      have hheard := job.heard_onEvent s event
      generalize job.onEvent s event = s' at hheard hkey
      cases hheard with
      | nothing _ => exact absurd hkey (loopHead_not_retrying _ key)
      | acked _ _ => exact absurd hkey (loopHead_not_retrying _ key)
      | @refused x error n _ hlook _ =>
          obtain rfl : x = key := S2Phase.retrying.inj hkey
          exact hevidence.planned x (by rw [hlook]; rfl)
  | deadline hphase => exact ⟨hsent nofun, nofun⟩

/-- Along every run. -/
theorem run_planned {entries : List S2Entry} (h : Run job.Turns job.opening entries s) :
    job.Planned entries s := by
  have hstart : job.Planned [] job.opening :=
    ⟨nofun, fun key hkey => absurd hkey (sendRest_not_retrying _ _ key)⟩
  exact (Run.invariant (P := fun past s => job.Evidenced past s ∧ job.Planned past s) h
    (fun _ _ _ _ hp hturn => ⟨hp.1.turns hturn, hp.2.turns hp.1 hturn⟩) []
    ⟨job.opening_evidenced, hstart⟩).2

/-! ### Enough acknowledgements -/

/-- **A chunk with enough acknowledgements has one from every archive it is assigned to.** -/
theorem Evidenced.replicated (h : job.Evidenced past s) {distinct : Finset Addr}
    (hreturned : s.phase = .returned (.ok distinct)) (hr : 0 < job.assignmentReplicationFactor)
    {i : Nat} (hi : i ∈ job.chunksToPush) :
    i < job.chunkCount ∧ (job.assigned i).length = job.assignmentReplicationFactor ∧
      ∀ a ∈ job.assigned i, ∃ peer, job.peers.resolve a = some peer ∧
        job.Answered (i, peer) past := by
  obtain ⟨-, hall⟩ := h.returned distinct hreturned
  obtain ⟨peers, hlook, hcard⟩ := chunksReplicatedIn_iff.mp hall i hi
  have hmem : ∀ peer ∈ peers, (i, peer) ∈ job.targets ∧ job.Answered (i, peer) past :=
    fun peer hp => h.acked (i, peer) ⟨peers, hlook, hp⟩
  obtain ⟨first, hfirst⟩ : peers.Nonempty := Finset.card_pos.mp (by omega)
  have hsub : peers ⊆ (job.chunkPeers i).toFinset := by
    intro peer hp
    exact List.mem_toFinset.mpr (mem_targets.mp (hmem peer hp).1).2.2
  -- as many peers as archives, and no more archives than asked for: all of these are one number
  have hpeers : (job.chunkPeers i).toFinset.card = (job.chunkPeers i).length :=
    List.toFinset_card_of_nodup (job.chunkPeers_nodup i)
  have hle := Finset.card_le_card hsub
  have hassigned : (job.assigned i).length ≤ job.assignmentReplicationFactor := by
    unfold assigned
    rw [assignedArchives_length_eq_min]
    exact Nat.min_le_left _ _
  have hfilter : (job.chunkPeers i).length ≤ (job.assigned i).length :=
    List.length_filterMap_le _ _
  have hall : ∀ a ∈ job.assigned i, (job.peers.resolve a).isSome = true :=
    List.filterMap_length_eq_length.mp (by show (job.chunkPeers i).length = _; omega)
  have heq : peers = (job.chunkPeers i).toFinset :=
    Finset.eq_of_subset_of_card_le hsub (by omega)
  refine ⟨(mem_targets.mp (hmem first hfirst).1).1, by omega, ?_⟩
  intro a ha
  obtain ⟨peer, hpeer⟩ := Option.isSome_iff_exists.mp (hall a ha)
  refine ⟨peer, hpeer, (hmem peer ?_).2⟩
  rw [heq]
  exact List.mem_toFinset.mpr (List.mem_filterMap.mpr ⟨a, ha, hpeer⟩)

end

end PushJob

/-! ### The stage runs the machine -/

/-- What the machine sees of a call. -/
def s2Entry? : IngestCall → Option S2Entry
  | .push peer (.push _ _ chunkIndex _) answer => some (.sent (chunkIndex, peer) answer.isOk)
  | .wake (.event event) => some (.read event)
  | .wake .closed | .wake .timer => some .deadline
  | _ => none

theorem s2Entry?_sent {call : IngestCall} {i : Nat} {peer : PeerId} {ok : Bool}
    (h : s2Entry? call = some (.sent (i, peer) ok)) :
    ∃ data root proof answer, call = .push peer (.push data root i proof) answer := by
  cases call with
  | push p request answer =>
      cases request with
      | push data root j proof =>
          injection h with h
          injection h with hkey _
          injection hkey with hi hp
          exact ⟨data, root, proof, answer, by rw [hi, hp]⟩
      | _ => cases h
  | wake w =>
      cases w with
      | event event => injection h with h; cases h
      | _ => injection h with h; cases h
  | _ => cases h

theorem s2Entry?_read {call : IngestCall} {event : SumNetEvent}
    (h : s2Entry? call = some (.read event)) : call = .wake (.event event) := by
  cases call with
  | push p request answer =>
      cases request with
      | push data root j proof => injection h with h; cases h
      | _ => cases h
  | wake w =>
      cases w with
      | event event =>
          injection h with h
          injection h with h
          rw [h]
      | _ => injection h with h; cases h
  | _ => cases h

section

variable [Blake3]

/-- Every push of the log is one of the file's own. -/
def PushesOwn (file : ReproducedFile) (log : List IngestCall) : Prop :=
  ∀ peer request answer, .push peer request answer ∈ log →
    ∃ i, pushRequest file.manifest file.mapped file.tree i = some request

theorem PushesOwn.append {file : ReproducedFile} {log log' : List IngestCall}
    (h : PushesOwn file log) (h' : PushesOwn file log') : PushesOwn file (log ++ log') := by
  intro peer request answer hmem
  rcases List.mem_append.mp hmem with hmem | hmem
  · exact h peer request answer hmem
  · exact h' peer request answer hmem

theorem pushesOwn_of_no_push {file : ReproducedFile} {log : List IngestCall}
    (h : ∀ peer request answer, .push peer request answer ∉ log) : PushesOwn file log :=
  fun peer request answer hmem => absurd hmem (h peer request answer)

omit [Blake3] in
/-- The request of a chunk names the chunk and the root. -/
theorem pushRequest_eq {manifest : DataManifest} {mapped : Bytes} {tree : MerkleTree} {i : Nat}
    {request : ShardRequestV2} (h : pushRequest manifest mapped tree i = some request) :
    ∃ data proof, request = .push data manifest.merkleRoot i proof := by
  unfold pushRequest at h
  cases hchunk : manifest.chunks[i]? with
  | none => simp [hchunk] at h
  | some cd =>
      cases hproof : tree.proofBytes i with
      | none => simp [hchunk, hproof] at h
      | some proof =>
          simp only [hchunk, hproof, Option.bind_eq_bind, Option.bind_some] at h
          exact ⟨_, proof, (Option.some.inj h).symm⟩

end

namespace Ingest

section

variable {σ ε : Type} [CryptoLib] [Blake3] {c : Ingest σ} {file : ReproducedFile}

/-- There is no push to send: a failure that a sound file does not have. -/
def Unsendable (file : ReproducedFile) (key : Nat × PeerId) : Prop :=
  pushRequest file.manifest file.mapped file.tree key.1 = none

theorem sendOnePush_spec (key : Nat × PeerId) :
    Exits (c.sendOnePush file key : Stage σ ε Bool)
      (fun log ok => Silent log ∧ PushesOwn file log ∧ log.filterMap s2Entry? = [.sent key ok])
      fun log stop => log = [] ∧ stop = .panicked ∧ Unsendable file key := by
  unfold sendOnePush
  cases hrequest : pushRequest file.manifest file.mapped file.tree key.1 with
  | none => exact Exits.throw ⟨rfl, rfl, hrequest⟩
  | some request =>
      refine Exits.bind (E := fun _ _ => False) Exits.ask (fun _ _ h => h.elim) ?_
      intro log answer hlog
      subst hlog
      obtain ⟨data, proof, rfl⟩ := pushRequest_eq hrequest
      refine Exits.pure ⟨quiet_cons.mpr ⟨rfl, quiet_nil⟩, ?_, rfl⟩
      intro peer request answer' hmem
      rw [List.append_nil, List.mem_singleton] at hmem
      injection hmem with _ hsame _
      exact ⟨key.1, by rw [hsame]; exact hrequest⟩

variable [AssignmentScore] {job : PushJob}

/-- A log of S2 that takes the machine from one state to the other. -/
structure Drives (file : ReproducedFile) (job : PushJob) (s : S2State) (log : List IngestCall)
    (t : S2State) : Prop where
  silent : Silent log
  own : PushesOwn file log
  run : Run job.Turns s (log.filterMap s2Entry?) t

section

variable {s t u : S2State} {log log' : List IngestCall}

omit [CryptoLib] in
theorem Drives.nil (s : S2State) : Drives file job s [] s :=
  ⟨quiet_nil, pushesOwn_of_no_push nofun, .nil s⟩

omit [CryptoLib] in
theorem Drives.append (h : Drives file job s log t) (h' : Drives file job t log' u) :
    Drives file job s (log ++ log') u := by
  refine ⟨quiet_append.mpr ⟨h.silent, h'.silent⟩, h.own.append h'.own, ?_⟩
  rw [List.filterMap_append]
  exact h.run.append h'.run

omit [CryptoLib] in
theorem Drives.wake {w : Wake} {e : S2Entry} (hentry : s2Entry? (.wake w) = some e)
    (hturn : job.Turns s e t) : Drives file job s [.wake w] t := by
  refine ⟨quiet_cons.mpr ⟨rfl, quiet_nil⟩, pushesOwn_of_no_push (by simp), ?_⟩
  rw [List.filterMap_cons_some hentry]
  exact Run.single hturn

end

/-- The wave, from where the machine is about to send these. -/
theorem s2Wave_spec (rest : List (Nat × PeerId)) : ∀ s : S2State,
    Exits (c.s2Wave file job rest (job.sendRest rest s) : Stage σ ε S2State)
      (fun log t => Drives file job (job.sendRest rest s) log t ∧ ∃ s', t = job.loopHead s')
      fun log stop => Silent log ∧ stop = .panicked ∧ ∃ key ∈ rest, Unsendable file key := by
  induction rest with
  | nil =>
      intro s
      exact Exits.pure ⟨Drives.nil _, s, rfl⟩
  | cons x rest ih =>
      intro s
      refine Exits.bind (sendOnePush_spec x) ?_ ?_
      · rintro log stop ⟨rfl, rfl, hnone⟩
        exact ⟨quiet_nil, rfl, x, List.mem_cons_self .., hnone⟩
      rintro log ok ⟨hsilent, hown, hentry⟩
      refine Exits.mono (ih _) ?_ ?_
      · rintro log' t ⟨hdrives, hend⟩
        refine ⟨Drives.append ⟨hsilent, hown, ?_⟩ hdrives, hend⟩
        rw [hentry]
        refine Run.single ?_
        show job.turn { s with phase := .wave (x :: rest) } (.sent x ok) = _
        unfold PushJob.turn
        exact if_pos rfl
      · rintro log' stop ⟨hsilent', hstop, key, hkey, hnone⟩
        exact ⟨quiet_append.mpr ⟨hsilent, hsilent'⟩, hstop, key, List.mem_cons_of_mem _ hkey, hnone⟩

/-- Where the loop waits or has returned, nothing is sent again. -/
theorem s2Resend_loopHead (s : S2State) :
    (c.s2Resend file job (job.loopHead s) : Stage σ ε S2State) = pure (job.loopHead s) := by
  unfold s2Resend
  rcases job.loopHead_eq s with h | ⟨-, h⟩
  · rw [h]
  · rw [h]

/-- Where a stage of S2 leaves before its end: after the wave, or with a push it cannot send. -/
def Leaves (file : ReproducedFile) (job : PushJob) (s : S2State) (log : List IngestCall)
    (panicked : Prop) : Prop :=
  ∃ t, Drives file job s log t ∧ t.phase.rest = [] ∧
    (panicked → ∃ key, t.phase = .retrying key ∧ Unsendable file key)

/-- One event: the machine reads it, and a refused push goes out at once. -/
theorem s2Resend_spec {s : S2State} (hphase : s.phase = .waiting) (event : SumNetEvent) :
    Exits (c.s2Resend file job (job.onEvent s event) : Stage σ ε S2State)
      (fun log t => Drives file job s (.wake (.event event) :: log) t ∧ ∃ s', t = job.loopHead s')
      fun log _ => Leaves file job s (.wake (.event event) :: log) True := by
  have hread : job.Turns s (.read event) (job.onEvent s event) := by
    show job.turn s (.read event) = _
    unfold PushJob.turn
    simp only [hphase]
  have hheard := job.heard_onEvent s event
  generalize job.onEvent s event = u at hheard hread ⊢
  have hevent : Drives file job s [.wake (.event event)] u := Drives.wake rfl hread
  have hhead : ∀ s', u = job.loopHead s' → Exits (c.s2Resend file job u : Stage σ ε S2State)
      (fun log t => Drives file job s (.wake (.event event) :: log) t ∧ ∃ s', t = job.loopHead s')
      fun log _ => Leaves file job s (.wake (.event event) :: log) True := by
    intro s' hs'
    rw [hs', s2Resend_loopHead s', ← hs']
    exact Exits.pure ⟨hevent, s', hs'⟩
  cases hheard with
  | nothing _ => exact hhead _ rfl
  | acked _ _ => exact hhead _ rfl
  | @refused key error n _ _ _ =>
      refine Exits.bind (sendOnePush_spec key) ?_ ?_
      · rintro log stop ⟨rfl, -, hnone⟩
        exact ⟨_, hevent, rfl, fun _ => ⟨key, rfl, hnone⟩⟩
      rintro log ok ⟨hsilent, hown, hentry⟩
      refine Exits.pure ⟨?_, _, rfl⟩
      rw [List.append_nil]
      refine Drives.append hevent ⟨hsilent, hown, ?_⟩
      rw [hentry]
      exact Run.single (if_pos rfl)

section

variable {failure : Option DiscoveryFailure} {deadline : Nat} {s : S2State}

theorem s2Loop_returned {result : Except PushFailure (Finset Addr)}
    (h : s.phase = .returned result) (clock : List Nat) :
    c.s2Loop file job failure deadline clock s = s2Return failure result := by
  unfold s2Loop
  simp only [h]

theorem s2Loop_nil (h : s.phase = .waiting) :
    c.s2Loop file job failure deadline [] s = throw .waiting := by
  unfold s2Loop
  simp only [h]

end

/-- The machine is over with this result, if only after its deadline. -/
def Returns (job : PushJob) (t : S2State) (distinct : Finset Addr) : Prop :=
  t.phase.rest = [] ∧ ∃ ends u, (∀ e ∈ ends, e = .deadline) ∧ Run job.Turns t ends u ∧
    u.phase = .returned (.ok distinct)

omit [CryptoLib] in
/-- The loop returns: with the archives, or short of replicas. -/
theorem s2Return_spec {failure : Option DiscoveryFailure} {s t : S2State}
    {result : Except PushFailure (Finset Addr)} (log : List IngestCall)
    (hdrives : Drives file job s log t) (hrest : t.phase.rest = [])
    (hresult : ∀ distinct, result = .ok distinct → Returns job t distinct) :
    Exits (s2Return failure result : Stage σ S2Failure (Finset Addr))
      (fun log' distinct => ∃ t, Drives file job s (log ++ log') t ∧ Returns job t distinct)
      fun log' stop => Leaves file job s (log ++ log') (stop = .panicked) := by
  cases result with
  | ok distinct =>
      refine Exits.pure ⟨t, ?_, hresult distinct rfl⟩
      rw [List.append_nil]
      exact hdrives
  | error e =>
      refine Exits.throw ⟨t, ?_, hrest, nofun⟩
      rw [List.append_nil]
      exact hdrives

omit [CryptoLib] [Blake3] in
/-- The machine that waits is over with the audit. -/
theorem returns_audit {s : S2State} (hphase : s.phase = .waiting) {distinct : Finset Addr}
    (h : job.audit s = .ok distinct) : Returns job s distinct := by
  refine ⟨by rw [hphase]; rfl, [.deadline], { s with phase := .returned (job.audit s) }, by simp,
    Run.single ?_, ?_⟩
  · show job.turn s .deadline = _
    unfold PushJob.turn
    simp only [hphase]
  · show S2Phase.returned (job.audit s) = _
    rw [h]

/-- The loop, from where the machine waits or has returned. -/
theorem s2Loop_spec (failure : Option DiscoveryFailure) (deadline : Nat) (clock : List Nat) :
    ∀ s : S2State, Exits (c.s2Loop file job failure deadline clock (job.loopHead s))
      (fun log distinct => ∃ t, Drives file job (job.loopHead s) log t ∧ Returns job t distinct)
      fun log stop => Leaves file job (job.loopHead s) log (stop = .panicked) := by
  have hover : ∀ s : S2State, Exits (s2Return failure (.ok job.distinctAssigned) :
      Stage σ S2Failure (Finset Addr))
      (fun log distinct => ∃ t,
        Drives file job { s with phase := .returned (.ok job.distinctAssigned) } log t ∧
          Returns job t distinct)
      fun log stop => Leaves file job { s with phase := .returned (.ok job.distinctAssigned) } log
        (stop = .panicked) := by
    intro s
    refine s2Return_spec [] (Drives.nil _) rfl ?_
    intro distinct hdistinct
    exact ⟨rfl, [], _, nofun, .nil _, congrArg S2Phase.returned hdistinct⟩
  induction clock with
  | nil =>
      intro s
      rcases job.loopHead_eq s with h | ⟨-, h⟩
      · rw [h, s2Loop_nil rfl]
        exact Exits.throw ⟨_, Drives.nil _, rfl, nofun⟩
      · rw [h, s2Loop_returned rfl]
        exact hover s
  | cons now clock ih =>
      intro s
      rcases job.loopHead_eq s with h | ⟨-, h⟩
      · rw [h]
        have haudit : ∀ {u : S2State}, u.phase = .waiting → ∀ w : Wake,
            s2Entry? (.wake w) = some .deadline → Exits (s2Return failure (job.audit u) :
              Stage σ S2Failure (Finset Addr))
              (fun log distinct => ∃ t, Drives file job u ([.wake w] ++ log) t ∧
                Returns job t distinct)
              fun log stop => Leaves file job u ([.wake w] ++ log) (stop = .panicked) := by
          intro u hphase w hw
          have hturn : job.Turns u .deadline { u with phase := .returned (job.audit u) } := by
            show job.turn u .deadline = _
            unfold PushJob.turn
            simp only [hphase]
          refine s2Return_spec [.wake w] (Drives.wake hw hturn) rfl ?_
          intro distinct hdistinct
          exact ⟨rfl, [], _, nofun, .nil _, congrArg S2Phase.returned hdistinct⟩
        unfold s2Loop
        dsimp only
        by_cases hdeadline : deadline ≤ now
        · simp only [if_pos hdeadline]
          exact s2Return_spec [] (Drives.nil _) rfl fun _ => returns_audit rfl
        simp only [if_neg hdeadline]
        refine Exits.bind (E := fun _ _ => False) Exits.ask (fun _ _ h => h.elim) ?_
        rintro log w rfl
        cases w with
        | timer => exact haudit rfl .timer rfl
        | closed => exact haudit rfl .closed rfl
        | event event =>
            refine Exits.bind (s2Resend_spec rfl event) ?_ ?_
            · rintro log stop ⟨t, hdrives, hrest, hnone⟩
              exact ⟨t, hdrives, hrest, fun _ => hnone trivial⟩
            rintro log u ⟨hdrives, s', rfl⟩
            refine Exits.mono (ih s') ?_ ?_
            · rintro log' distinct ⟨t, hdrives', hreturns⟩
              exact ⟨t, hdrives.append hdrives', hreturns⟩
            · rintro log' stop ⟨t, hdrives', hrest⟩
              exact ⟨t, hdrives.append hdrives', hrest⟩
      · rw [h, s2Loop_returned rfl]
        exact hover s

/-! ### What the log shows -/

/-- The chunk was pushed to the peer, and the peer acknowledged it afterwards. -/
def ChunkAcked (file : ReproducedFile) (i : Nat) (peer : PeerId) (log : List IngestCall) : Prop :=
  ∃ request answer origin,
    pushRequest file.manifest file.mapped file.tree i = some request ∧
    List.Sublist [.push peer request answer, .wake (.event (.shardReceivedV2 peer
      (.pushAck file.manifest.merkleRoot i none) origin))] log

/-- Each of these chunks has the archives it needs, and all of them acknowledged it. -/
def Replicated (c : Ingest σ) (file : ReproducedFile) (snapshot : List Addr)
    (chunks : Finset Nat) (peers : MapPeerResolver) (log : List IngestCall) : Prop :=
  ∀ i ∈ chunks, i < file.manifest.chunkCount ∧
    let assigned := assignedArchives file.manifest.merkleRoot snapshot i
      c.params.assignmentReplicationFactor
    assigned.length = c.params.assignmentReplicationFactor ∧
      ∀ a ∈ assigned, ∃ peer, peers.resolve a = some peer ∧ ChunkAcked file i peer log

/-- Every archive that the assignment gives some chunk of the file. -/
def fileArchives (c : Ingest σ) (file : ReproducedFile) (snapshot : List Addr) : Finset Addr :=
  ((List.range file.manifest.chunkCount).flatMap fun i =>
    assignedArchives file.manifest.merkleRoot snapshot i
      c.params.assignmentReplicationFactor).toFinset

omit [CryptoLib] [AssignmentScore] in
theorem ChunkAcked.of_answered {i : Nat} {peer : PeerId} {log : List IngestCall}
    {ends : List S2Entry} (hroot : job.merkleRoot = file.manifest.merkleRoot)
    (hown : PushesOwn file log) (hends : ∀ e ∈ ends, e = .deadline)
    (h : job.Answered (i, peer) (log.filterMap s2Entry? ++ ends)) :
    ChunkAcked file i peer log := by
  obtain ⟨ok, event, ⟨origin, rfl⟩, hsub⟩ := h
  have hin := Lists.sublist_of_append hsub fun x hx hmem => by
    rw [hends x hmem] at hx
    simp at hx
  obtain ⟨call, call', hsent, hread, hpair⟩ := Lists.sublist_pair_of_filterMap hin
  obtain ⟨data, root, proof, answer, rfl⟩ := s2Entry?_sent hsent
  obtain rfl := s2Entry?_read hread
  obtain ⟨j, hrequest⟩ := hown _ _ _ (hpair.subset (List.mem_cons_self ..))
  obtain ⟨data', proof', heq⟩ := pushRequest_eq hrequest
  injection heq with _ _ hindex _
  subst hindex
  rw [hroot] at hpair
  exact ⟨_, answer, origin, hrequest, hpair⟩

/-- What a log shows, every longer one does. -/
theorem Replicated.of_sublist {snapshot : List Addr} {chunks : Finset Nat}
    {peers : MapPeerResolver} {log log' : List IngestCall}
    (h : Replicated c file snapshot chunks peers log) (hsub : List.Sublist log log') :
    Replicated c file snapshot chunks peers log' := by
  intro i hi
  obtain ⟨hlt, hlength, hall⟩ := h i hi
  refine ⟨hlt, hlength, ?_⟩
  intro a ha
  obtain ⟨peer, hpeer, request, answer, origin, hrequest, hacked⟩ := hall a ha
  exact ⟨peer, hpeer, request, answer, origin, hrequest, hacked.trans hsub⟩

/-- No other chunk is pushed. -/
def PushesOnly (chunks : Finset Nat) (log : List IngestCall) : Prop :=
  ∀ peer data merkleRoot i proof answer,
    .push peer (.push data merkleRoot i proof) answer ∈ log → i ∈ chunks

/-- These chunks are pushed to these peers, with what the file has for them, and no others. -/
structure Pushes (file : ReproducedFile) (targets : List (Nat × PeerId)) (log : List IngestCall) :
    Prop where
  own : ∀ peer data merkleRoot i proof answer,
    .push peer (.push data merkleRoot i proof) answer ∈ log → (i, peer) ∈ targets ∧
      pushRequest file.manifest file.mapped file.tree i = some (.push data merkleRoot i proof)
  each : ∀ key ∈ targets, ∃ data merkleRoot proof answer,
    .push key.2 (.push data merkleRoot key.1 proof) answer ∈ log

omit [CryptoLib] in
/-- The pushes of a run of the machine that is past the wave. -/
theorem Drives.pushes {log : List IngestCall} {t : S2State}
    (h : Drives file job job.opening log t) (hrest : t.phase.rest = []) :
    Pushes file job.targets log := by
  refine ⟨?_, ?_⟩
  · intro peer data merkleRoot i proof answer hmem
    have hentry : S2Entry.sent (i, peer) answer.isOk ∈ log.filterMap s2Entry? :=
      List.mem_filterMap.mpr ⟨_, hmem, rfl⟩
    refine ⟨(PushJob.run_planned h.run).sent _ _ hentry, ?_⟩
    obtain ⟨j, hrequest⟩ := h.own _ _ _ hmem
    obtain ⟨data', proof', hsame⟩ := pushRequest_eq hrequest
    injection hsame with _ _ hindex _
    subst hindex
    exact hrequest
  · intro key hkey
    rcases (PushJob.run_evidenced h.run).tried key hkey with hmem | ⟨ok, hmem⟩
    · rw [hrest] at hmem
      cases hmem
    · obtain ⟨call, hcall, hsent⟩ := List.mem_filterMap.mp hmem
      obtain ⟨data, merkleRoot, proof, answer, rfl⟩ := s2Entry?_sent hsent
      exact ⟨data, merkleRoot, proof, answer, hcall⟩

omit [CryptoLib] [AssignmentScore] [Blake3] in
theorem mem_chunkPush {log : List IngestCall} (hquiet : Pushless log) {peer : PeerId}
    {data : Bytes} {merkleRoot : Hash} {i : Nat} {proof : List Hash} {answer : Except Str Unit} :
    .push peer (.push data merkleRoot i proof) answer ∉ log := by
  intro hmem
  cases hquiet _ hmem

omit [CryptoLib] [AssignmentScore] in
theorem Pushes.append {targets : List (Nat × PeerId)} {log log' : List IngestCall}
    (h : Pushes file targets log) (hquiet : Pushless log') : Pushes file targets (log ++ log') := by
  refine ⟨?_, ?_⟩
  · intro peer data merkleRoot i proof answer hmem
    rcases List.mem_append.mp hmem with hmem | hmem
    · exact h.own _ _ _ _ _ _ hmem
    · exact absurd hmem (mem_chunkPush hquiet)
  · intro key hkey
    obtain ⟨data, merkleRoot, proof, answer, hmem⟩ := h.each key hkey
    exact ⟨data, merkleRoot, proof, answer, List.mem_append_left _ hmem⟩

/-- The targets of S2, with the peers that it knows by then. -/
def pushTargets (c : Ingest σ) (file : ReproducedFile) (snapshot : List Addr)
    (chunks : Finset Nat) (peers : MapPeerResolver) : List (Nat × PeerId) :=
  (c.pushJob file snapshot chunks peers none).targets

omit [Blake3] in
theorem mem_pushTargets {snapshot : List Addr} {chunks : Finset Nat} {peers : MapPeerResolver}
    {i : Nat} {peer : PeerId} : (i, peer) ∈ c.pushTargets file snapshot chunks peers ↔
      i ∈ chunks ∧ i < file.manifest.chunkCount ∧ ∃ archive ∈ assignedArchives
        file.manifest.merkleRoot snapshot i c.params.assignmentReplicationFactor,
        peers.resolve archive = some peer := by
  unfold pushTargets
  rw [PushJob.mem_targets]
  unfold PushJob.chunkPeers
  rw [List.mem_filterMap, and_left_comm]
  rfl

/-- What S2 has pushed when it is past its wave: every target that it knew when it began. -/
structure PushesAll (c : Ingest σ) (file : ReproducedFile) (snapshot : List Addr)
    (chunks : Finset Nat) (peers : MapPeerResolver) (waits rest : List IngestCall) : Prop where
  hears : Hears waits
  pushes : Pushes file (c.pushTargets file snapshot chunks (peers.heard waits)) rest

theorem PushesAll.only {snapshot : List Addr} {chunks : Finset Nat} {peers : MapPeerResolver}
    {waits rest : List IngestCall} (h : c.PushesAll file snapshot chunks peers waits rest) :
    PushesOnly chunks (waits ++ rest) := by
  intro peer data merkleRoot i proof answer hmem
  rcases List.mem_append.mp hmem with hmem | hmem
  · exact absurd hmem (mem_chunkPush h.hears.pushless)
  · exact (PushJob.mem_targets.mp (h.pushes.own _ _ _ _ _ _ hmem).1).2.1

/--
**S2 goes on only when every archive of the chunks has acknowledged them.**  The resolver that
it leaves is what was heard before the first push.  Where it ends early it has pushed nothing
yet, or every target, or it could not send one of them.
-/
theorem s2PushChunks_spec (hr : 0 < c.params.assignmentReplicationFactor) (snapshot : List Addr)
    (chunks : Finset Nat) (peers : MapPeerResolver) (clock : IngestClock) :
    Exits (c.s2PushChunks file snapshot chunks peers clock)
      (fun log out => Silent log ∧ out.1 = fileArchives c file snapshot ∧
        Replicated c file snapshot chunks out.2 log ∧ ∃ before rest, log = before ++ rest ∧
          out.2 = peers.heard before ∧ c.PushesAll file snapshot chunks peers before rest)
      fun log stop => Silent log ∧ (stop = .waiting ∧ Hears log ∨
        (∃ before rest, log = before ++ rest ∧
          c.PushesAll file snapshot chunks peers before rest) ∨
        ∃ key, key.1 < file.manifest.chunkCount ∧ Unsendable file key) := by
  refine Exits.bind ((awaitArchives_spec _ _ _).exits.and (awaitArchives_waits _ _ _)) ?_ ?_
  · rintro waited stop ⟨hsilent, hwaiting, hhears⟩
    exact ⟨hsilent, Or.inl ⟨hwaiting, hhears⟩⟩
  rintro waited ⟨found, peers'⟩ ⟨⟨hquiet, -, -, -, rfl⟩, hhears⟩
  refine Exits.bind (s2Wave_spec _ _) ?_ ?_
  · rintro waved stop ⟨hsilent, -, key, hkey, hnone⟩
    exact ⟨quiet_append.mpr ⟨hquiet, hsilent⟩,
      Or.inr (Or.inr ⟨key, (PushJob.mem_targets.mp hkey).1, hnone⟩)⟩
  rintro waved s ⟨hwave, s', rfl⟩
  refine Exits.bind (s2Loop_spec _ _ _ s') ?_ ?_
  · rintro looped stop ⟨t, hloop, hrest, hnone⟩
    have hdrives := hwave.append hloop
    refine ⟨quiet_append.mpr ⟨hquiet, hdrives.silent⟩, Or.inr (Or.inl ?_)⟩
    exact ⟨waited, _, rfl, ⟨hhears, hdrives.pushes hrest⟩⟩
  rintro looped distinct ⟨t, hloop, hrest, ends, u, hends, hend, hphase⟩
  have hdrives := hwave.append hloop
  have hevidence := PushJob.run_evidenced (hdrives.run.append hend)
  refine Exits.pure ?_
  rw [List.append_nil]
  refine ⟨quiet_append.mpr ⟨hquiet, hdrives.silent⟩, (hevidence.returned distinct hphase).1, ?_,
    waited, _, rfl, rfl, ⟨hhears, hdrives.pushes hrest⟩⟩
  intro i hi
  obtain ⟨hlt, hlength, hall⟩ := hevidence.replicated hphase hr hi
  refine ⟨hlt, hlength, ?_⟩
  intro a ha
  obtain ⟨peer, hpeer, hanswered⟩ := hall a ha
  refine ⟨peer, hpeer, ?_⟩
  obtain ⟨request, answer, origin, hrequest, hsub⟩ :=
    ChunkAcked.of_answered rfl hdrives.own hends hanswered
  exact ⟨request, answer, origin, hrequest, hsub.trans (List.sublist_append_right _ _)⟩

end

end Ingest

end Snip
