/-
Whom an ingest pushes to, and when the acknowledgements are enough.

The assignment gives each chunk as many archives as the replication factor asks
for, and a peer stands for one archive only.  So a wave has exactly chunks times
replication factor pushes, no two alike, and a single missing acknowledgement is
one too few for its chunk.
-/
import Snip.Node.IngestV2
import Snip.Proofs.Assignment

namespace Snip

/-! ### The targets -/

/-- A peer stands for one address only: the map is keyed by the peer. -/
theorem MapPeerResolver.lookup_of_resolve {m : MapPeerResolver} {a : Addr} {peer : PeerId}
    (h : m.resolve a = some peer) : m.peerAddresses.lookup peer = some a := by
  have hmem := List.min?_mem h
  obtain ⟨⟨p, b⟩, he, hp⟩ := List.mem_map.mp hmem
  obtain ⟨hentry, hb⟩ := List.mem_filter.mp he
  obtain rfl : b = a := by simpa using hb
  obtain rfl : p = peer := hp
  exact AList.mem_lookup_iff.mpr hentry

namespace PushJob

variable [AssignmentScore]

/-- What the claimed situation is: archives enough, and each of them has a peer. -/
structure Identified (job : PushJob) : Prop where
  replicated : 0 < job.assignmentReplicationFactor
  archives : job.assignmentReplicationFactor ≤ job.snapshot.toFinset.card
  chunks : ∀ i ∈ job.chunksToPush, i < job.chunkCount
  peers : ∀ i ∈ job.chunksToPush, ∀ a ∈ job.assigned i, (job.peers.resolve a).isSome = true

theorem chunkPeers_nodup (job : PushJob) (i : Nat) : (job.chunkPeers i).Nodup := by
  refine (assignedArchives_nodup _ _ _ _).filterMap ?_
  intro a b peer ha hb
  have hla := MapPeerResolver.lookup_of_resolve ha
  have hlb := MapPeerResolver.lookup_of_resolve hb
  exact Option.some.inj (hla.symm.trans hlb)

theorem Identified.chunkPeers_length {job : PushJob} (h : job.Identified) {i : Nat}
    (hi : i ∈ job.chunksToPush) :
    (job.chunkPeers i).length = job.assignmentReplicationFactor := by
  have hall : (job.chunkPeers i).length = (job.assigned i).length := by
    have hpeers := h.peers i hi
    unfold chunkPeers
    generalize job.assigned i = l at hpeers ⊢
    induction l with
    | nil => rfl
    | cons a l ih =>
        obtain ⟨peer, hpeer⟩ := Option.isSome_iff_exists.mp (hpeers a (List.mem_cons_self ..))
        rw [List.filterMap_cons_some hpeer, List.length_cons, List.length_cons,
          ih fun b hb => hpeers b (List.mem_cons_of_mem _ hb)]
  rw [hall]
  exact assignedArchives_length h.archives

theorem mem_targets {job : PushJob} {i : Nat} {peer : PeerId} :
    (i, peer) ∈ job.targets ↔ i < job.chunkCount ∧ i ∈ job.chunksToPush ∧
      peer ∈ job.chunkPeers i := by
  unfold targets
  rw [List.mem_flatMap]
  constructor
  · rintro ⟨j, hj, hmem⟩
    split at hmem
    · rename_i hpush
      obtain ⟨p, hp, hpair⟩ := List.mem_map.mp hmem
      cases hpair
      exact ⟨List.mem_range.mp hj, hpush, hp⟩
    · cases hmem
  · rintro ⟨hlt, hpush, hp⟩
    refine ⟨i, List.mem_range.mpr hlt, ?_⟩
    rw [if_pos hpush]
    exact List.mem_map_of_mem hp

theorem targets_nodup (job : PushJob) : job.targets.Nodup := by
  refine List.nodup_flatMap.mpr ⟨?_, ?_⟩
  · intro i _
    split
    · exact (job.chunkPeers_nodup i).map fun p q h => congrArg Prod.snd h
    · exact List.nodup_nil
  · refine List.nodup_range.imp fun {i j} hne => ?_
    intro t hi hj
    dsimp only at hi hj
    split at hi
    · split at hj
      · obtain ⟨p, -, rfl⟩ := List.mem_map.mp hi
        obtain ⟨q, -, hq⟩ := List.mem_map.mp hj
        exact hne (congrArg Prod.fst hq).symm
      · cases hj
    · cases hi

/-- A wave is as long as chunks times replication factor. -/
theorem Identified.targets_length {job : PushJob} (h : job.Identified) :
    job.targets.length = job.chunksToPush.card * job.assignmentReplicationFactor := by
  have hrow : ∀ i, (if i ∈ job.chunksToPush then (job.chunkPeers i).map fun peer => (i, peer)
      else []).length = if i ∈ job.chunksToPush then job.assignmentReplicationFactor else 0 := by
    intro i
    split
    · rename_i hi
      rw [List.length_map, h.chunkPeers_length hi]
    · rfl
  have hsum : ∀ n, ((List.range n).map fun i =>
      if i ∈ job.chunksToPush then job.assignmentReplicationFactor else 0).sum
        = ((Finset.range n).filter (· ∈ job.chunksToPush)).card
          * job.assignmentReplicationFactor := by
    intro n
    induction n with
    | zero => simp
    | succ n ih =>
        rw [List.range_succ, List.map_append, List.sum_append, ih, Finset.range_add_one,
          Finset.filter_insert]
        split
        · rw [Finset.card_insert_of_notMem (by simp)]
          simp [*, Nat.succ_mul]
        · simp [*]
  have hall : (Finset.range job.chunkCount).filter (· ∈ job.chunksToPush) = job.chunksToPush := by
    ext i
    simp only [Finset.mem_filter, Finset.mem_range, and_iff_right_iff_imp]
    exact h.chunks i
  unfold targets
  rw [List.length_flatMap]
  simp only [hrow]
  rw [hsum, hall]

end PushJob

/-! ### Acknowledgements -/

/-- The push of this chunk to this peer is acknowledged. -/
def Acked (acks : Map Nat (Finset PeerId)) (t : Nat × PeerId) : Prop :=
  ∃ peers, acks.lookup t.1 = some peers ∧ t.2 ∈ peers

/-- One acknowledgement more keeps those there are. -/
theorem Acked.add {acks : Map Nat (Finset PeerId)} {t : Nat × PeerId} (h : Acked acks t)
    (i : Nat) (peer : PeerId) :
    Acked (acks.insert i (insert peer ((acks.lookup i).getD ∅))) t := by
  obtain ⟨peers, hlook, hmem⟩ := h
  by_cases hi : t.1 = i
  · subst hi
    refine ⟨_, AList.lookup_insert _, Finset.mem_insert_of_mem ?_⟩
    rw [hlook]
    exact hmem
  · exact ⟨peers, (AList.lookup_insert_ne hi).trans hlook, hmem⟩

theorem Acked.of_add {acks : Map Nat (Finset PeerId)} {i : Nat} {peer : PeerId}
    {t : Nat × PeerId}
    (h : Acked (acks.insert i (insert peer ((acks.lookup i).getD ∅))) t) :
    Acked acks t ∨ t = (i, peer) := by
  obtain ⟨peers, hlook, hmem⟩ := h
  by_cases hi : t.1 = i
  · subst hi
    rw [AList.lookup_insert] at hlook
    cases hlook
    rcases Finset.mem_insert.mp hmem with hpeer | hold
    · exact Or.inr (Prod.ext rfl hpeer)
    · refine Or.inl ?_
      cases hprev : acks.lookup t.1 with
      | none =>
          rw [hprev] at hold
          simp at hold
      | some prev =>
          rw [hprev] at hold
          exact ⟨prev, hprev, hold⟩
  · exact Or.inl ⟨peers, (AList.lookup_insert_ne hi).symm.trans hlook, hmem⟩

theorem chunksReplicatedIn_iff {acks : Map Nat (Finset PeerId)} {chunks : Finset Nat} {r : Nat} :
    chunksReplicatedIn acks chunks r = true ↔
      ∀ i ∈ chunks, ∃ peers, acks.lookup i = some peers ∧ r ≤ peers.card := by
  unfold chunksReplicatedIn
  rw [decide_eq_true_iff]
  refine forall₂_congr fun i _ => ?_
  cases acks.lookup i with
  | none => simp
  | some peers => simp

/-- The audit reports what the head of the loop misses. -/
theorem underReplicated_eq_nil_iff {acks : Map Nat (Finset PeerId)} {chunks : Finset Nat}
    {r : Nat} : underReplicated acks chunks r = [] ↔ chunksReplicatedIn acks chunks r = true := by
  rw [chunksReplicatedIn_iff]
  unfold underReplicated
  rw [← List.length_eq_zero_iff, Finset.length_sort, Finset.card_eq_zero,
    Finset.filter_eq_empty_iff]
  refine forall₂_congr fun i _ => ?_
  cases acks.lookup i with
  | none => simp
  | some peers => simp

namespace PushJob

variable [AssignmentScore]

theorem Identified.replicated_of_acked {job : PushJob} (h : job.Identified)
    {acks : Map Nat (Finset PeerId)} (hacked : ∀ t ∈ job.targets, Acked acks t) :
    chunksReplicatedIn acks job.chunksToPush job.assignmentReplicationFactor = true := by
  refine chunksReplicatedIn_iff.mpr fun i hi => ?_
  have hmem : ∀ peer ∈ job.chunkPeers i, Acked acks (i, peer) := fun peer hp =>
    hacked _ (mem_targets.mpr ⟨h.chunks i hi, hi, hp⟩)
  have hlen := h.chunkPeers_length hi
  obtain ⟨first, hfirst⟩ : ∃ peer, peer ∈ job.chunkPeers i :=
    List.exists_mem_of_length_pos (hlen ▸ h.replicated)
  obtain ⟨peers, hlook, -⟩ := hmem first hfirst
  refine ⟨peers, hlook, ?_⟩
  have hsub : (job.chunkPeers i).toFinset ⊆ peers := by
    intro peer hp
    obtain ⟨peers', hlook', hin⟩ := hmem peer (List.mem_toFinset.mp hp)
    obtain rfl := Option.some.inj (hlook.symm.trans hlook')
    exact hin
  calc job.assignmentReplicationFactor = (job.chunkPeers i).toFinset.card := by
        rw [List.toFinset_card_of_nodup (job.chunkPeers_nodup i), hlen]
    _ ≤ peers.card := Finset.card_le_card hsub

/-- Only planned pushes are acknowledged, and one of them is not. -/
def Misses (job : PushJob) (lost : Nat × PeerId) (acks : Map Nat (Finset PeerId)) : Prop :=
  ∀ t, Acked acks t → t ∈ job.targets ∧ t ≠ lost

theorem Identified.not_replicated_of_misses {job : PushJob} (h : job.Identified)
    {lost : Nat × PeerId} (hlost : lost ∈ job.targets) {acks : Map Nat (Finset PeerId)}
    (hmiss : job.Misses lost acks) :
    chunksReplicatedIn acks job.chunksToPush job.assignmentReplicationFactor ≠ true := by
  intro hall
  obtain ⟨-, hpush, hpeer⟩ := mem_targets.mp hlost
  obtain ⟨peers, hlook, hcard⟩ := chunksReplicatedIn_iff.mp hall lost.1 hpush
  have hsub : peers ⊆ (job.chunkPeers lost.1).toFinset.erase lost.2 := by
    intro peer hp
    obtain ⟨hmem, hne⟩ := hmiss (lost.1, peer) ⟨peers, hlook, hp⟩
    obtain ⟨-, -, hin⟩ := mem_targets.mp hmem
    refine Finset.mem_erase.mpr ⟨?_, List.mem_toFinset.mpr hin⟩
    rintro rfl
    exact hne rfl
  have hle := Finset.card_le_card hsub
  rw [Finset.card_erase_of_mem (List.mem_toFinset.mpr hpeer),
    List.toFinset_card_of_nodup (job.chunkPeers_nodup lost.1), h.chunkPeers_length hpush] at hle
  have hpos := h.replicated
  omega

end PushJob

end Snip
