/-
The assignment of the first version ends, unless addresses repeat.

A probe walks the node list in a circle until it meets a node that the chunk does not have
yet.  It ends exactly when there is one.  The number of replicas is taken from the length
of the list, so a list with repeated addresses can ask for more replicas than there are
nodes, and then the last probe goes round for ever.  In all other cases each chunk gets the
replicas asked for, distinct and eligible, and more replicas only add to the list.
-/
import Mathlib.Data.Finset.Card
import Mathlib.Data.List.Nodup
import Snip.Blake3
import Snip.Lib.Lists
import Snip.Node.MarketSync

namespace Snip

/-! ### One probe -/

section

variable {nodes assigned : List Addr}

theorem probe_succ {idx : Nat} (hidx : idx < nodes.length) (steps : Nat) :
    probe nodes assigned (steps + 1) idx
      = if nodes[idx] ∉ assigned then some nodes[idx]
        else probe nodes assigned steps ((idx + 1) % nodes.length) := by
  rw [probe, List.getElem?_eq_getElem hidx]

/-- What a probe finds is a node that was free. -/
theorem probe_sound {steps idx : Nat} {a : Addr} (h : probe nodes assigned steps idx = some a) :
    a ∈ nodes ∧ a ∉ assigned := by
  induction steps generalizing idx with
  | zero => simp [probe] at h
  | succ steps ih =>
      by_cases hidx : idx < nodes.length
      · rw [probe_succ hidx] at h
        by_cases hfree : nodes[idx] ∉ assigned
        · rw [if_pos hfree] at h
          rw [← Option.some.inj h]
          exact ⟨List.getElem_mem hidx, hfree⟩
        · rw [if_neg hfree] at h
          exact ih h
      · simp [probe, List.getElem?_eq_none (Nat.not_lt.mp hidx)] at h

/-- More rounds do not change what is found. -/
theorem probe_mono {steps idx : Nat} {a : Addr} (h : probe nodes assigned steps idx = some a)
    (extra : Nat) : probe nodes assigned (steps + extra) idx = some a := by
  induction steps generalizing idx with
  | zero => simp [probe] at h
  | succ steps ih =>
      by_cases hidx : idx < nodes.length
      · rw [Nat.succ_add]
        rw [probe_succ hidx] at h ⊢
        by_cases hfree : nodes[idx] ∉ assigned
        · rw [if_pos hfree] at h ⊢
          exact h
        · rw [if_neg hfree] at h ⊢
          exact ih h
      · simp [probe, List.getElem?_eq_none (Nat.not_lt.mp hidx)] at h

/-- The probe ends at the latest at a free node `d` places ahead. -/
theorem probe_reaches {steps idx d j : Nat} (hidx : idx < nodes.length) (hj : j < nodes.length)
    (hahead : (idx + d) % nodes.length = j) (hfree : nodes[j] ∉ assigned) (hd : d < steps) :
    (probe nodes assigned steps idx).isSome = true := by
  induction steps generalizing idx d with
  | zero => omega
  | succ steps ih =>
      rw [probe_succ hidx]
      by_cases hhere : nodes[idx] ∉ assigned
      · rw [if_pos hhere]
        rfl
      · rw [if_neg hhere]
        cases d with
        | zero =>
            -- the free node is here
            rw [Nat.add_zero, Nat.mod_eq_of_lt hidx] at hahead
            subst hahead
            exact absurd hfree hhere
        | succ d =>
            have hnext : (idx + 1) % nodes.length < nodes.length :=
              Nat.mod_lt _ (Nat.zero_lt_of_lt hidx)
            refine ih hnext ?_ (Nat.lt_of_succ_lt_succ hd)
            rw [Nat.mod_add_mod, Nat.add_assoc, Nat.add_comm 1 d]
            exact hahead

/-- One round over the list is enough when some node is free. -/
theorem probe_complete {idx : Nat} (hidx : idx < nodes.length) {a : Addr} (ha : a ∈ nodes)
    (hfree : a ∉ assigned) : (probe nodes assigned nodes.length idx).isSome = true := by
  obtain ⟨j, hj, rfl⟩ := List.getElem_of_mem ha
  by_cases hle : idx ≤ j
  · refine probe_reaches (d := j - idx) hidx hj ?_ hfree (by omega)
    rw [Nat.add_sub_cancel' hle, Nat.mod_eq_of_lt hj]
  · refine probe_reaches (d := j + nodes.length - idx) hidx hj ?_ hfree (by omega)
    have hsum : idx + (j + nodes.length - idx) = j + nodes.length := by omega
    rw [hsum, Nat.add_mod_right, Nat.mod_eq_of_lt hj]

end

/-! ### The replicas of a chunk -/

section

variable [Blake3] {steps : Nat} {merkleRoot : Hash} {nodes : List Addr} {chunkIndex : Nat}

theorem probeStart_lt (hnodes : nodes ≠ []) (replica : Nat) :
    probeStart merkleRoot chunkIndex replica nodes.length < nodes.length :=
  Nat.mod_lt _ (List.length_pos_of_ne_nil hnodes)

theorem assignReplicas_succ {replica : Nat} {assigned : List Addr} :
    assignReplicas steps merkleRoot nodes chunkIndex (replica + 1) = some assigned ↔
      ∃ before a, assignReplicas steps merkleRoot nodes chunkIndex replica = some before ∧
        probe nodes before steps (probeStart merkleRoot chunkIndex replica nodes.length) = some a ∧
        before ++ [a] = assigned := by
  simp [assignReplicas, Option.bind_eq_some_iff]

/-- Whatever is returned has the replicas asked for, each node once. -/
theorem assignReplicas_sound {replicas : Nat} {assigned : List Addr}
    (h : assignReplicas steps merkleRoot nodes chunkIndex replicas = some assigned) :
    assigned.length = replicas ∧ assigned.Nodup ∧ ∀ a ∈ assigned, a ∈ nodes := by
  induction replicas generalizing assigned with
  | zero =>
      have hnil : [] = assigned := Option.some.inj h
      subst hnil
      simp
  | succ replica ih =>
      obtain ⟨before, a, hbefore, hprobe, rfl⟩ := assignReplicas_succ.mp h
      obtain ⟨hlength, hnodup, hmem⟩ := ih hbefore
      obtain ⟨hnode, hfree⟩ := probe_sound hprobe
      refine ⟨?_, ?_, ?_⟩
      · simp [hlength]
      · refine List.nodup_append.mpr ⟨hnodup, List.nodup_singleton a, ?_⟩
        intro b hb c hc
        rw [List.mem_singleton.mp hc]
        intro heq
        exact hfree (heq ▸ hb)
      · intro b hb
        rcases List.mem_append.mp hb with hb | hb
        · exact hmem b hb
        · rw [List.mem_singleton.mp hb]
          exact hnode

/-- Fewer replicas are the first ones of more. -/
theorem assignReplicas_prefix {replicas : Nat} {assigned : List Addr}
    (h : assignReplicas steps merkleRoot nodes chunkIndex replicas = some assigned) {fewer : Nat}
    (hle : fewer ≤ replicas) :
    ∃ first, assignReplicas steps merkleRoot nodes chunkIndex fewer = some first ∧
      first <+: assigned := by
  induction replicas generalizing assigned with
  | zero =>
      rw [Nat.le_zero.mp hle]
      exact ⟨assigned, h, List.prefix_refl _⟩
  | succ replica ih =>
      by_cases hlast : fewer = replica + 1
      · rw [hlast]
        exact ⟨assigned, h, List.prefix_refl _⟩
      · obtain ⟨before, a, hbefore, -, rfl⟩ := assignReplicas_succ.mp h
        obtain ⟨first, hfirst, hinit⟩ := ih hbefore (by omega)
        exact ⟨first, hfirst, hinit.trans (List.prefix_append _ _)⟩

theorem assignReplicas_mono {replicas : Nat} {assigned : List Addr}
    (h : assignReplicas steps merkleRoot nodes chunkIndex replicas = some assigned) (extra : Nat) :
    assignReplicas (steps + extra) merkleRoot nodes chunkIndex replicas = some assigned := by
  induction replicas generalizing assigned with
  | zero => exact h
  | succ replica ih =>
      obtain ⟨before, a, hbefore, hprobe, hassigned⟩ := assignReplicas_succ.mp h
      exact assignReplicas_succ.mpr ⟨before, a, ih hbefore, probe_mono hprobe extra, hassigned⟩

/-- The result does not depend on the number of rounds. -/
theorem assignReplicas_unique {steps' replicas : Nat} {assigned assigned' : List Addr}
    (h : assignReplicas steps merkleRoot nodes chunkIndex replicas = some assigned)
    (h' : assignReplicas steps' merkleRoot nodes chunkIndex replicas = some assigned') :
    assigned = assigned' := by
  have hmore := assignReplicas_mono h steps'
  have hmore' := assignReplicas_mono h' steps
  rw [Nat.add_comm, hmore] at hmore'
  exact Option.some.inj hmore'

/-- No number of rounds gives a chunk more nodes than there are. -/
theorem assignReplicas_stuck {replicas : Nat} (h : nodes.toFinset.card < replicas) (steps : Nat) :
    assignReplicas steps merkleRoot nodes chunkIndex replicas = none := by
  by_contra hsome
  obtain ⟨assigned, hassigned⟩ := Option.ne_none_iff_exists'.mp hsome
  obtain ⟨hlength, hnodup, hmem⟩ := assignReplicas_sound hassigned
  have hsubset : assigned.toFinset ⊆ nodes.toFinset := by
    intro a ha
    exact List.mem_toFinset.mpr (hmem a (List.mem_toFinset.mp ha))
  have hcard := Finset.card_le_card hsubset
  rw [List.toFinset_card_of_nodup hnodup, hlength] at hcard
  omega

/-- As many as there are, it gives. -/
theorem assignReplicas_complete {replicas : Nat} (h : replicas ≤ nodes.toFinset.card) :
    ∃ assigned, assignReplicas nodes.length merkleRoot nodes chunkIndex replicas = some assigned := by
  induction replicas with
  | zero => exact ⟨[], rfl⟩
  | succ replica ih =>
      obtain ⟨before, hbefore⟩ := ih (by omega)
      obtain ⟨hlength, hnodup, -⟩ := assignReplicas_sound hbefore
      have hfree : ∃ a ∈ nodes.toFinset, a ∉ before.toFinset := by
        refine Finset.exists_mem_notMem_of_card_lt_card ?_
        rw [List.toFinset_card_of_nodup hnodup, hlength]
        omega
      obtain ⟨a, ha, hfree⟩ := hfree
      rw [List.mem_toFinset] at ha hfree
      have hstart := @probeStart_lt _ merkleRoot nodes chunkIndex (List.ne_nil_of_mem ha) replica
      have hfound := probe_complete hstart ha hfree
      obtain ⟨b, hb⟩ := Option.isSome_iff_exists.mp hfound
      exact ⟨before ++ [b], assignReplicas_succ.mpr ⟨before, b, hbefore, hb, rfl⟩⟩

end

/-! ### All chunks -/

section

variable [Blake3] {steps : Nat} {merkleRoot : Hash} {nodes : List Addr} {chunkCount r : Nat}

theorem computeChunkAssignmentWithin_eq (hnodes : nodes ≠ []) :
    computeChunkAssignmentWithin steps merkleRoot chunkCount nodes r
      = (List.range chunkCount).mapM fun i =>
          assignReplicas steps merkleRoot nodes i (min r nodes.length) := by
  have hlength : nodes.length ≠ 0 := fun h => hnodes (List.length_eq_zero_iff.mp h)
  unfold computeChunkAssignmentWithin
  by_cases hcount : chunkCount = 0
  · subst hcount
    simp
  · simp [hlength, hcount]

end

/-! ### The step of a cycle -/

/-- The addresses of the records that may be assigned chunks. -/
def eligibleAddrs (records : List NodeRecordInfo) : List Addr :=
  (records.filter NodeRecordInfo.isActiveArchive).filterMap NodeRecordInfo.address

theorem activeNodeAddrs_perm (records : List NodeRecordInfo) :
    (activeNodeAddrs records).Perm (eligibleAddrs records) :=
  List.perm_insertionSort _ _

theorem card_activeNodeAddrs (records : List NodeRecordInfo) :
    (activeNodeAddrs records).toFinset.card = (eligibleAddrs records).toFinset.card := by
  rw [List.toFinset_eq_of_perm _ _ (activeNodeAddrs_perm records)]

theorem length_activeNodeAddrs (records : List NodeRecordInfo) :
    (activeNodeAddrs records).length = (eligibleAddrs records).length :=
  (activeNodeAddrs_perm records).length_eq

/-- The nodes of one chunk: as many as asked for or as there are, distinct and eligible. -/
structure AssignsEligible (eligible : Finset Addr) (r : Nat) (assigned : List Addr) : Prop where
  length : assigned.length = min r eligible.card
  nodup : assigned.Nodup
  eligible : ∀ a ∈ assigned, a ∈ eligible

/-- The step returns, each chunk has its nodes, and one more replica only adds to them. -/
def MarketAssigns [Blake3] (records : List NodeRecordInfo) (merkleRoot : Hash)
    (chunkCount r : Nat) : Prop :=
  ∃ steps assignment,
    computeChunkAssignmentWithin steps merkleRoot chunkCount (activeNodeAddrs records) r
      = some assignment ∧
    assignment.length = chunkCount ∧
    (∀ assigned ∈ assignment, AssignsEligible (eligibleAddrs records).toFinset r assigned) ∧
    ∀ steps' next,
      computeChunkAssignmentWithin steps' merkleRoot chunkCount (activeNodeAddrs records) (r + 1)
        = some next →
      List.Forall₂ (· <+: ·) assignment next

section

variable [Blake3] {records : List NodeRecordInfo} {merkleRoot : Hash} {chunkCount r : Nat}

/-- Without nodes every chunk gets the empty list. -/
theorem MarketAssigns.of_nil (hnodes : activeNodeAddrs records = []) :
    MarketAssigns records merkleRoot chunkCount r := by
  have hnone : (eligibleAddrs records).toFinset = ∅ := by
    have hperm := activeNodeAddrs_perm records
    rw [hnodes] at hperm
    rw [← hperm.nil_eq]
    rfl
  have hwithin : ∀ steps r, computeChunkAssignmentWithin steps merkleRoot chunkCount
      (activeNodeAddrs records) r = some (List.replicate chunkCount []) := by
    intro steps r
    unfold computeChunkAssignmentWithin
    simp [hnodes]
  refine ⟨0, List.replicate chunkCount [], hwithin 0 r, List.length_replicate, ?_, ?_⟩
  · intro assigned hmem
    rw [(List.mem_replicate.mp hmem).2, hnone]
    refine ⟨?_, List.nodup_nil, ?_⟩
    · simp
    · intro a ha
      simp at ha
  · intro steps' next hnext
    rw [hwithin, Option.some.injEq] at hnext
    rw [← hnext]
    exact List.forall₂_refl _

/-- As long as there are as many nodes as replicas, all chunks get theirs. -/
theorem MarketAssigns.of_enough (hnodes : activeNodeAddrs records ≠ [])
    (hreplicas : min r (eligibleAddrs records).length = min r (eligibleAddrs records).toFinset.card) :
    MarketAssigns records merkleRoot chunkCount r := by
  have hcomplete : ∀ i, ∃ assigned, assignReplicas (activeNodeAddrs records).length merkleRoot
      (activeNodeAddrs records) i (min r (activeNodeAddrs records).length) = some assigned := by
    intro i
    refine assignReplicas_complete ?_
    rw [length_activeNodeAddrs, card_activeNodeAddrs, hreplicas]
    exact Nat.min_le_right _ _
  choose assignedTo hassigned using hcomplete
  refine ⟨(activeNodeAddrs records).length, (List.range chunkCount).map assignedTo, ?_, ?_, ?_, ?_⟩
  · rw [computeChunkAssignmentWithin_eq hnodes]
    refine Lists.mapM_eq_some_iff.mpr (List.forall₂_map_right_iff.mpr ?_)
    refine List.forall₂_same.mpr ?_
    intro i _
    exact hassigned i
  · rw [List.length_map, List.length_range]
  · intro assigned hmem
    obtain ⟨i, -, rfl⟩ := List.mem_map.mp hmem
    obtain ⟨hlength, hnodup, hall⟩ := assignReplicas_sound (hassigned i)
    refine ⟨?_, hnodup, ?_⟩
    · rw [hlength, length_activeNodeAddrs, hreplicas]
    · intro a ha
      exact List.mem_toFinset.mpr ((activeNodeAddrs_perm records).mem_iff.mp (hall a ha))
  · intro steps' next hnext
    rw [computeChunkAssignmentWithin_eq hnodes] at hnext
    refine List.forall₂_map_left_iff.mpr ((Lists.mapM_eq_some_iff.mp hnext).imp ?_)
    intro i assigned hmore
    obtain ⟨first, hfirst, hinit⟩ := assignReplicas_prefix hmore
      (Nat.le_min.mpr ⟨Nat.le_trans (Nat.min_le_left r _) (Nat.le_succ r), Nat.min_le_right r _⟩)
    rw [assignReplicas_unique (hassigned i) hfirst]
    exact hinit

end

/--
The step returns, with the nodes each chunk should have, exactly when there is no chunk, or
there are as many distinct addresses as replicas, or no eligible address is repeated.
-/
theorem market_assignment_iff [Blake3] (records : List NodeRecordInfo) (merkleRoot : Hash)
    (chunkCount r : Nat) :
    MarketAssigns records merkleRoot chunkCount r ↔
      chunkCount = 0 ∨ r ≤ (eligibleAddrs records).toFinset.card ∨ (eligibleAddrs records).Nodup := by
  have hcard : (eligibleAddrs records).toFinset.card ≤ (eligibleAddrs records).length :=
    List.toFinset_card_le _
  constructor
  · rintro ⟨steps, assignment, hassignment, -⟩
    by_contra hnot
    rw [not_or, not_or] at hnot
    obtain ⟨hcount, hfew, hrepeated⟩ := hnot
    have hlt : (eligibleAddrs records).toFinset.card < (eligibleAddrs records).length := by
      refine Nat.lt_of_le_of_ne hcard ?_
      intro heq
      exact hrepeated (Multiset.coe_nodup.mp (Multiset.toFinset_card_eq_card_iff_nodup.mp heq))
    have hnodes : activeNodeAddrs records ≠ [] := by
      intro hnil
      rw [← length_activeNodeAddrs, hnil] at hlt
      simp at hlt
    -- the first chunk already never gets its last replica
    rw [computeChunkAssignmentWithin_eq hnodes] at hassignment
    obtain ⟨count, rfl⟩ := Nat.exists_eq_succ_of_ne_zero hcount
    rw [List.range_succ_eq_map, List.mapM_cons, assignReplicas_stuck] at hassignment
    · simp at hassignment
    · rw [card_activeNodeAddrs, length_activeNodeAddrs]
      omega
  · intro hcondition
    by_cases hnodes : activeNodeAddrs records = []
    · exact .of_nil hnodes
    · rcases hcondition with hcount | hfew | hnodup
      · subst hcount
        refine ⟨0, [], ?_, rfl, ?_, ?_⟩
        · rw [computeChunkAssignmentWithin_eq hnodes]
          rfl
        · intro assigned hmem
          simp at hmem
        · intro steps' next hnext
          rw [computeChunkAssignmentWithin_eq hnodes] at hnext
          have hnil : [] = next := Option.some.inj hnext
          rw [← hnil]
          exact .nil
      · refine .of_enough hnodes ?_
        omega
      · refine .of_enough hnodes ?_
        rw [List.toFinset_card_of_nodup hnodup]

/-- An active archive at address 3. -/
def archiveThree : NodeRecordInfo := ⟨.archiveNode, .active, .ok 3⟩

/-- The same address twice and two replicas: the second probe never ends. -/
theorem repeated_address_never_returns :
    letI := Blake3.reference
    (∀ steps, computeChunkAssignmentWithin steps (Hash.fill 1) 1
      (activeNodeAddrs [archiveThree, archiveThree]) 2 = none) ∧
    ¬ MarketAssigns [archiveThree, archiveThree] (Hash.fill 1) 1 2 := by
  generalize Blake3.reference = b
  have hstuck : ∀ steps, computeChunkAssignmentWithin steps (Hash.fill 1) 1
      (activeNodeAddrs [archiveThree, archiveThree]) 2 = none := by
    intro steps
    have hlength : (activeNodeAddrs [archiveThree, archiveThree]).length = 2 := rfl
    have hcard : (activeNodeAddrs [archiveThree, archiveThree]).toFinset.card = 1 := by decide
    have hnodes : activeNodeAddrs [archiveThree, archiveThree] ≠ [] := by
      intro hnil
      rw [hnil] at hlength
      simp at hlength
    rw [computeChunkAssignmentWithin_eq hnodes, List.range_succ_eq_map, List.mapM_cons,
      assignReplicas_stuck]
    · rfl
    · rw [hcard, hlength]
      decide
  refine ⟨hstuck, ?_⟩
  rintro ⟨steps, assignment, hassignment, -⟩
  rw [hstuck steps] at hassignment
  simp at hassignment

end Snip
