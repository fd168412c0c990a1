/-
The bookkeeping of a fetch.

What one dispatch does to the chunks: it picks chunks that are neither done nor in
flight and have an archive that may be asked, in the order of the manifest and as
many as the bound leaves room for, and puts each in flight.  So right after it the
bound is reached or no chunk is left that could be asked for.
-/
import Snip.Node.V2Routing

namespace Snip

/-! ### The next archive -/

theorem scanArchives_some {peers : Addr → Option PeerId} {skip : Bool} {pos : Nat} {peerId : PeerId} :
    ∀ (order : List Addr) (start : Nat), scanArchives peers skip start order = some (pos, peerId) →
    ∃ k addr, pos = start + k ∧ order[k]? = some addr ∧ peers addr = some peerId := by
  intro order
  induction order with
  | nil =>
      intro start h
      cases h
  | cons addr order ih =>
      intro start h
      unfold scanArchives at h
      split at h
      · rename_i hpeer
        cases h
        exact ⟨0, addr, rfl, rfl, hpeer⟩
      · split at h
        · obtain ⟨k, a, hpos, hget, hpeer⟩ := ih (start + 1) h
          exact ⟨k + 1, a, by omega, hget, hpeer⟩
        · cases h

theorem nextAssignedArchive_some {order : List Addr} {next : Nat} {peers : Addr → Option PeerId}
    {skip : Bool} {pos : Nat} {peerId : PeerId}
    (h : nextAssignedArchive order next peers skip = some (pos, peerId)) :
    ∃ addr, next ≤ pos ∧ order[pos]? = some addr ∧ peers addr = some peerId := by
  obtain ⟨k, addr, hpos, hget, hpeer⟩ := scanArchives_some _ _ h
  rw [List.getElem?_drop, ← hpos] at hget
  exact ⟨addr, by omega, hget, hpeer⟩

/-- An archive that is left and has a peer may be asked. -/
theorem nextAssignedArchive_isSome {order : List Addr} {next : Nat} {peers : Addr → Option PeerId}
    (skip : Bool) (hlt : next < order.length) (hpeers : ∀ a ∈ order, (peers a).isSome = true) :
    (nextAssignedArchive order next peers skip).isSome = true := by
  unfold nextAssignedArchive
  rw [List.drop_eq_getElem_cons hlt]
  unfold scanArchives
  obtain ⟨peerId, hpeer⟩ := Option.isSome_iff_exists.mp (hpeers _ (List.getElem_mem hlt))
  rw [hpeer]
  rfl

/-- The archives stay the same, in another order. -/
theorem markArchiveAsked_perm {order : List Addr} {next pos : Nat} (hle : next ≤ pos)
    (hlt : pos < order.length) : List.Perm (markArchiveAsked order next pos).1 order := by
  have hsplit : order = order.take next ++ ((order.drop next).take (pos - next) ++
      (order[pos] :: order.drop (pos + 1))) := by
    rw [← List.drop_eq_getElem_cons hlt]
    have hdrop : order.drop pos = (order.drop next).drop (pos - next) := by
      rw [List.drop_drop, Nat.add_sub_cancel' hle]
    rw [hdrop, List.take_append_drop, List.take_append_drop]
  unfold markArchiveAsked
  rw [List.getElem?_eq_getElem hlt, Option.toList_some]
  conv => rhs; rw [hsplit]
  rw [List.append_assoc, List.append_assoc, List.singleton_append]
  exact List.Perm.append_left _ List.perm_middle.symm

/-- One element less is counted. -/
theorem countP_lt_countP {α : Type} {p q : α → Bool} {l : List α}
    (h : ∀ x ∈ l, p x = true → q x = true) {a : α} (ha : a ∈ l) (hp : p a = false)
    (hq : q a = true) : l.countP p < l.countP q := by
  obtain ⟨l₁, l₂, rfl⟩ := List.append_of_mem ha
  have h₁ : l₁.countP p ≤ l₁.countP q :=
    List.countP_mono_left fun x hx => h x (List.mem_append_left _ hx)
  have h₂ : l₂.countP p ≤ l₂.countP q :=
    List.countP_mono_left fun x hx => h x (List.mem_append_right _ (List.mem_cons_of_mem _ hx))
  simp only [List.countP_append, List.countP_cons, hp, hq, Bool.false_eq_true, if_false, if_true]
  omega

namespace ChunkStates

variable {δ : Type}

/-! ### The state before the first dispatch -/

theorem lookup_foldl_insert (entry : ChunkDescriptor → ChunkFetch δ) {i : Nat} {s : ChunkFetch δ} :
    ∀ (chunks : List ChunkDescriptor) (state : ChunkStates δ),
    (chunks.foldl (fun state cd => state.insert cd.chunkIndex (entry cd)) state).lookup i = some s →
    (∃ cd ∈ chunks, cd.chunkIndex = i ∧ s = entry cd) ∨ state.lookup i = some s := by
  intro chunks
  induction chunks with
  | nil => intro state h; exact Or.inr h
  | cons cd chunks ih =>
      intro state h
      rw [List.foldl_cons] at h
      rcases ih _ h with ⟨c, hc, hidx, hs⟩ | hlook
      · exact Or.inl ⟨c, List.mem_cons_of_mem _ hc, hidx, hs⟩
      · by_cases hi : i = cd.chunkIndex
        · subst hi
          rw [AList.lookup_insert, Option.some.injEq] at hlook
          exact Or.inl ⟨cd, List.mem_cons_self .., rfl, hlook.symm⟩
        · rw [AList.lookup_insert_ne hi] at hlook
          exact Or.inr hlook

theorem lookup_foldl_insert_of_not_mem (entry : ChunkDescriptor → ChunkFetch δ) {i : Nat} :
    ∀ (chunks : List ChunkDescriptor) (state : ChunkStates δ),
    i ∉ chunks.map ChunkDescriptor.chunkIndex →
    (chunks.foldl (fun state cd => state.insert cd.chunkIndex (entry cd)) state).lookup i
      = state.lookup i := by
  intro chunks
  induction chunks with
  | nil => intro state _; rfl
  | cons cd chunks ih =>
      intro state hi
      rw [List.map_cons, List.mem_cons, not_or] at hi
      rw [List.foldl_cons, ih _ hi.2, AList.lookup_insert_ne hi.1]

theorem lookup_foldl_insert_of_mem (entry : ChunkDescriptor → ChunkFetch δ) :
    ∀ (chunks : List ChunkDescriptor) (state : ChunkStates δ),
    (chunks.map ChunkDescriptor.chunkIndex).Nodup → ∀ cd ∈ chunks,
    (chunks.foldl (fun state cd => state.insert cd.chunkIndex (entry cd)) state).lookup
      cd.chunkIndex = some (entry cd) := by
  intro chunks
  induction chunks with
  | nil => intro state _ cd hcd; cases hcd
  | cons c chunks ih =>
      intro state hnodup cd hcd
      rw [List.map_cons, List.nodup_cons] at hnodup
      rw [List.foldl_cons]
      rcases List.mem_cons.mp hcd with rfl | hcd
      · rw [lookup_foldl_insert_of_not_mem entry chunks _ hnodup.1, AList.lookup_insert]
      · exact ih _ hnodup.2 cd hcd

/-! ### Counting -/

theorem inFlight_insert {state : ChunkStates δ} {i : Nat} {s : ChunkFetch δ}
    (h : state.lookup i = some s) (s' : ChunkFetch δ) :
    inFlight (state.insert i s') + (if s.inFlightTo.isSome then 1 else 0)
      = state.inFlight + (if s'.inFlightTo.isSome then 1 else 0) := by
  have hkey : i ∈ state.entries.keys := AList.mem_keys.mp (AList.lookup_isSome.mp (by rw [h]; rfl))
  obtain ⟨b, l₁, l₂, hnot, hsplit, herase⟩ := List.exists_of_kerase hkey
  have hb : b = s := by
    have hmem : (⟨i, b⟩ : Sigma fun _ : Nat => ChunkFetch δ) ∈ state.entries := by
      rw [hsplit]
      simp
    exact Option.some.inj ((AList.mem_lookup_iff.mpr hmem).symm.trans h)
  subst hb
  unfold inFlight
  rw [AList.entries_insert, herase, hsplit]
  simp only [List.countP_cons, List.countP_append]
  omega

/-- The chunk is not done. -/
def isLeft (state : ChunkStates δ) (i : Nat) : Bool :=
  match state.lookup i with
  | some s => s.received.isNone
  | none => false

theorem isLeft_iff {state : ChunkStates δ} {i : Nat} :
    state.isLeft i = true ↔ ∃ s, state.lookup i = some s ∧ s.received = none := by
  unfold isLeft
  constructor
  · intro h
    split at h
    · rename_i s hs
      exact ⟨s, hs, Option.isNone_iff_eq_none.mp h⟩
    · cases h
  · rintro ⟨s, hs, hr⟩
    rw [hs]
    exact Option.isNone_iff_eq_none.mpr hr

/-- How many of the chunks are not done. -/
def pending (state : ChunkStates δ) (chunks : List ChunkDescriptor) : Nat :=
  chunks.countP fun c => state.isLeft c.chunkIndex

/-! ### What is selected -/

/-- The chunk is neither done nor in flight, and there is an archive that may be asked. -/
def Askable (state : ChunkStates δ) (peers : Addr → Option PeerId) (skip : Bool) (i : Nat) : Prop :=
  ∃ s, state.lookup i = some s ∧ s.received = none ∧ s.inFlightTo = none ∧
    (nextAssignedArchive s.assigned s.nextAttemptIdx peers skip).isSome = true

/-- The dispatch asks a chunk of an archive that may be asked for it. -/
def Selects (state : ChunkStates δ) (peers : Addr → Option PeerId) (skip : Bool) (d : Dispatch) :
    Prop :=
  ∃ s, state.lookup d.chunkIndex = some s ∧ s.received = none ∧ s.inFlightTo = none ∧
    nextAssignedArchive s.assigned s.nextAttemptIdx peers skip = some (d.assignedPos, d.peerId)

section

variable {state : ChunkStates δ} {peers : Addr → Option PeerId} {cap : Nat} {skip : Bool}

theorem selectFrom_selects : ∀ (chunks : List ChunkDescriptor) (n : Nat),
    ∀ d ∈ state.selectFrom peers cap skip n chunks, state.Selects peers skip d := by
  intro chunks
  induction chunks with
  | nil =>
      intro n d hd
      cases hd
  | cons cd chunks ih =>
      intro n d hd
      unfold selectFrom at hd
      split at hd
      · cases hd
      split at hd
      · exact ih n d hd
      rename_i s hlook
      split at hd
      · exact ih n d hd
      rename_i hfree
      split at hd
      · exact ih n d hd
      rename_i pos peerId hnext
      rcases List.mem_cons.mp hd with rfl | hd
      · rw [Bool.or_eq_true, not_or, Option.not_isSome_iff_eq_none,
          Option.not_isSome_iff_eq_none] at hfree
        exact ⟨s, hlook, hfree.1, hfree.2, hnext⟩
      · exact ih (n + 1) d hd

theorem selectFrom_sublist : ∀ (chunks : List ChunkDescriptor) (n : Nat),
    List.Sublist ((state.selectFrom peers cap skip n chunks).map Dispatch.chunkIndex)
      (chunks.map ChunkDescriptor.chunkIndex) := by
  intro chunks
  induction chunks with
  | nil => intro n; exact .slnil
  | cons cd chunks ih =>
      intro n
      unfold selectFrom
      rw [List.map_cons]
      split
      · exact List.nil_sublist _
      split
      · exact (ih n).cons _
      split
      · exact (ih n).cons _
      split
      · exact (ih n).cons _
      · rw [List.map_cons]
        exact (ih (n + 1)).cons_cons _

theorem selectFrom_length : ∀ (chunks : List ChunkDescriptor) (n : Nat), n ≤ cap →
    n + (state.selectFrom peers cap skip n chunks).length ≤ cap := by
  intro chunks
  induction chunks with
  | nil => intro n hn; exact hn
  | cons cd chunks ih =>
      intro n hn
      unfold selectFrom
      split
      · exact hn
      split
      · exact ih n hn
      split
      · exact ih n hn
      split
      · exact ih n hn
      · have := ih (n + 1) (by omega)
        rw [List.length_cons]
        omega

/-- **The selection stops only at the bound:** else every chunk that could be asked is selected. -/
theorem selectFrom_full_or_all : ∀ (chunks : List ChunkDescriptor) (n : Nat),
    cap ≤ n + (state.selectFrom peers cap skip n chunks).length ∨
    ∀ cd ∈ chunks, state.Askable peers skip cd.chunkIndex →
      cd.chunkIndex ∈ (state.selectFrom peers cap skip n chunks).map Dispatch.chunkIndex := by
  intro chunks
  induction chunks with
  | nil => intro n; exact Or.inr fun cd hcd => nomatch hcd
  | cons cd chunks ih =>
      intro n
      -- A chunk that is passed over could not be asked.
      have hpass : ¬ state.Askable peers skip cd.chunkIndex →
          cap ≤ n + (state.selectFrom peers cap skip n chunks).length ∨
          ∀ c ∈ cd :: chunks, state.Askable peers skip c.chunkIndex →
            c.chunkIndex ∈ (state.selectFrom peers cap skip n chunks).map Dispatch.chunkIndex := by
        intro hnot
        refine (ih n).imp id fun hall c hc hask => ?_
        rcases List.mem_cons.mp hc with rfl | hc
        · exact absurd hask hnot
        · exact hall c hc hask
      unfold selectFrom
      split
      · rename_i hcap
        exact Or.inl hcap
      split
      · rename_i hnone
        apply hpass
        rintro ⟨s, hs, -⟩
        rw [hnone] at hs
        cases hs
      rename_i s hlook
      split
      · rename_i hbusy
        apply hpass
        rintro ⟨s', hs', hr, hf, -⟩
        rw [hlook, Option.some.injEq] at hs'
        subst hs'
        simp [hr, hf] at hbusy
      split
      · rename_i hnext
        apply hpass
        rintro ⟨s', hs', -, -, hsome⟩
        rw [hlook, Option.some.injEq] at hs'
        subst hs'
        rw [hnext] at hsome
        cases hsome
      · rcases ih (n + 1) with hfull | hall
        · left
          rw [List.length_cons]
          omega
        · right
          intro c hc hask
          rw [List.map_cons]
          rcases List.mem_cons.mp hc with rfl | hc
          · exact List.mem_cons_self ..
          · exact List.mem_cons_of_mem _ (hall c hc hask)

end

/-! ### What a dispatch leaves behind -/

/-- A chunk once it was asked for. -/
def asked (s : ChunkFetch δ) (d : Dispatch) : ChunkFetch δ :=
  { s with
    assigned := (markArchiveAsked s.assigned s.nextAttemptIdx d.assignedPos).1
    nextAttemptIdx := s.nextAttemptIdx + 1
    inFlightTo := s.assigned[d.assignedPos]?.map fun addr => (d.peerId, addr) }

theorem mark_of_lookup {state : ChunkStates δ} {d : Dispatch} {s : ChunkFetch δ}
    (h : state.lookup d.chunkIndex = some s) :
    state.mark d = state.insert d.chunkIndex (asked s d) := by
  unfold mark
  rw [h]
  rfl

theorem lookup_mark_ne {state : ChunkStates δ} {d : Dispatch} {i : Nat} (h : i ≠ d.chunkIndex) :
    (state.mark d).lookup i = state.lookup i := by
  unfold mark
  split
  · rfl
  · exact AList.lookup_insert_ne h

theorem lookup_foldl_mark_of_not_mem : ∀ (ds : List Dispatch) (state : ChunkStates δ) {i : Nat},
    i ∉ ds.map Dispatch.chunkIndex → (ds.foldl mark state).lookup i = state.lookup i := by
  intro ds
  induction ds with
  | nil => intro state i _; rfl
  | cons d ds ih =>
      intro state i hi
      rw [List.map_cons, List.mem_cons, not_or] at hi
      rw [List.foldl_cons, ih _ hi.2, lookup_mark_ne hi.1]

theorem lookup_foldl_mark_of_mem : ∀ (ds : List Dispatch) (state : ChunkStates δ),
    (ds.map Dispatch.chunkIndex).Nodup → ∀ d ∈ ds, ∀ s, state.lookup d.chunkIndex = some s →
    (ds.foldl mark state).lookup d.chunkIndex = some (asked s d) := by
  intro ds
  induction ds with
  | nil => intro state _ d hd; cases hd
  | cons e ds ih =>
      intro state hnodup d hd s hs
      rw [List.map_cons, List.nodup_cons] at hnodup
      rw [List.foldl_cons]
      rcases List.mem_cons.mp hd with rfl | hd
      · rw [lookup_foldl_mark_of_not_mem ds _ hnodup.1, mark_of_lookup hs, AList.lookup_insert]
      · have hne : d.chunkIndex ≠ e.chunkIndex :=
          fun h => hnodup.1 (h ▸ List.mem_map.mpr ⟨d, hd, rfl⟩)
        exact ih _ hnodup.2 d hd s (by rw [lookup_mark_ne hne, hs])

section

variable {peers : Addr → Option PeerId} {skip : Bool}

/-- A selected chunk is in flight afterwards, to the peer that was asked. -/
theorem Selects.asked_inFlightTo {state : ChunkStates δ} {d : Dispatch}
    (h : state.Selects peers skip d) {s : ChunkFetch δ} (hs : state.lookup d.chunkIndex = some s) :
    ∃ addr, (asked s d).inFlightTo = some (d.peerId, addr) ∧ s.assigned[d.assignedPos]? = some addr ∧
      s.nextAttemptIdx ≤ d.assignedPos := by
  obtain ⟨s', hs', -, -, hnext⟩ := h
  rw [hs, Option.some.injEq] at hs'
  subst hs'
  obtain ⟨addr, hle, hget, -⟩ := nextAssignedArchive_some hnext
  exact ⟨addr, by simp [asked, hget], hget, hle⟩

theorem inFlight_foldl_mark : ∀ (ds : List Dispatch) (state : ChunkStates δ),
    (ds.map Dispatch.chunkIndex).Nodup → (∀ d ∈ ds, state.Selects peers skip d) →
    (ds.foldl mark state).inFlight = state.inFlight + ds.length := by
  intro ds
  induction ds with
  | nil => intro state _ _; rfl
  | cons d ds ih =>
      intro state hnodup hsel
      rw [List.map_cons, List.nodup_cons] at hnodup
      have hd := hsel d (List.mem_cons_self ..)
      obtain ⟨s, hs, -, hfree, -⟩ := hd
      obtain ⟨addr, hflight, -, -⟩ := (hsel d (List.mem_cons_self ..)).asked_inFlightTo hs
      have hmark : (state.mark d).inFlight = state.inFlight + 1 := by
        have h := inFlight_insert hs (asked s d)
        rw [hfree, hflight] at h
        rw [mark_of_lookup hs]
        simpa using h
      rw [List.foldl_cons, ih _ hnodup.2, hmark, List.length_cons]
      · omega
      · intro e he
        have hne : e.chunkIndex ≠ d.chunkIndex :=
          fun h => hnodup.1 (h ▸ List.mem_map.mpr ⟨e, he, rfl⟩)
        obtain ⟨s', hs', hrest⟩ := hsel e (List.mem_cons_of_mem _ he)
        exact ⟨s', by rw [lookup_mark_ne hne, hs'], hrest⟩

end

/-! ### One dispatch -/

/-- The bound is reached, or no chunk is left that could be asked for. -/
def Conserving (state : ChunkStates δ) (chunks : List ChunkDescriptor)
    (peers : Addr → Option PeerId) (maxConcurrent : Nat) (skip : Bool) : Prop :=
  state.inFlight = max maxConcurrent 1 ∨ ∀ cd ∈ chunks, ¬ state.Askable peers skip cd.chunkIndex

variable {state state' : ChunkStates δ} {chunks : List ChunkDescriptor}
  {peers : Addr → Option PeerId} {maxConcurrent : Nat} {skip swarmRuns : Bool} {pulls : List Pull}

theorem tryDispatch_ok
    (h : state.tryDispatch chunks peers maxConcurrent skip swarmRuns = .ok (state', pulls)) :
    state' = (state.selectDispatches chunks peers maxConcurrent skip).foldl mark state ∧
      pulls = (state.selectDispatches chunks peers maxConcurrent skip).filterMap (pullOf chunks) := by
  unfold tryDispatch at h
  dsimp only at h
  split at h
  · rename_i hnil
    cases h
    rw [hnil]
    exact ⟨rfl, rfl⟩
  · split at h
    · cases h
      exact ⟨rfl, rfl⟩
    · cases h

theorem selectDispatches_nodup (state : ChunkStates δ) (peers : Addr → Option PeerId)
    (maxConcurrent : Nat) (skip : Bool) (hnodup : (chunks.map ChunkDescriptor.chunkIndex).Nodup) :
    ((state.selectDispatches chunks peers maxConcurrent skip).map Dispatch.chunkIndex).Nodup :=
  hnodup.sublist (selectFrom_sublist _ _)

/-- **After a dispatch the bound is reached or no chunk is left that could be asked for.** -/
theorem tryDispatch_conserving (hnodup : (chunks.map ChunkDescriptor.chunkIndex).Nodup)
    (h : state.tryDispatch chunks peers maxConcurrent skip swarmRuns = .ok (state', pulls))
    (hle : state.inFlight ≤ max maxConcurrent 1) :
    state'.inFlight ≤ max maxConcurrent 1 ∧
      state'.Conserving chunks peers maxConcurrent skip := by
  obtain ⟨rfl, -⟩ := tryDispatch_ok h
  have hds := selectDispatches_nodup state peers maxConcurrent skip hnodup
  have hsel : ∀ d ∈ state.selectDispatches chunks peers maxConcurrent skip,
      state.Selects peers skip d := selectFrom_selects _ _
  have hcount := inFlight_foldl_mark _ state hds hsel
  have hbound : state.inFlight + (state.selectDispatches chunks peers maxConcurrent skip).length
      ≤ max maxConcurrent 1 := selectFrom_length _ _ hle
  refine ⟨by omega, ?_⟩
  have hselect : max maxConcurrent 1
        ≤ state.inFlight + (state.selectDispatches chunks peers maxConcurrent skip).length ∨
      ∀ cd ∈ chunks, state.Askable peers skip cd.chunkIndex → cd.chunkIndex ∈
        (state.selectDispatches chunks peers maxConcurrent skip).map Dispatch.chunkIndex :=
    selectFrom_full_or_all chunks state.inFlight
  rcases hselect with hfull | hall
  · left
    omega
  · right
    rintro cd hcd ⟨s, hs, hr, hf, hnext⟩
    by_cases hmem : cd.chunkIndex ∈
        (state.selectDispatches chunks peers maxConcurrent skip).map Dispatch.chunkIndex
    · obtain ⟨d, hd, hidx⟩ := List.mem_map.mp hmem
      obtain ⟨s₀, hs₀, -⟩ := hsel d hd
      obtain ⟨addr, hflight, -, -⟩ := (hsel d hd).asked_inFlightTo hs₀
      have hlook := lookup_foldl_mark_of_mem _ state hds d hd s₀ hs₀
      rw [hidx, hs, Option.some.injEq] at hlook
      rw [hlook, hflight] at hf
      cases hf
    · rw [lookup_foldl_mark_of_not_mem _ _ hmem] at hs
      exact hmem (hall cd hcd ⟨s, hs, hr, hf, hnext⟩)

/-! ### The requests of a dispatch -/

theorem chunkAt_of_mem (hnodup : (chunks.map ChunkDescriptor.chunkIndex).Nodup)
    {c : ChunkDescriptor} (hc : c ∈ chunks) : chunkAt chunks c.chunkIndex = some c := by
  have hsome : (chunkAt chunks c.chunkIndex).isSome = true :=
    List.find?_isSome.mpr ⟨c, hc, by simp⟩
  obtain ⟨d, hd⟩ := Option.isSome_iff_exists.mp hsome
  have hidx : d.chunkIndex = c.chunkIndex := by simpa using List.find?_some hd
  rw [hd, List.inj_on_of_nodup_map hnodup (List.mem_of_find?_eq_some hd) hc hidx]

/-- The chunk was free, and now it is in flight to the peer that was asked. -/
structure AskedOf (state state' : ChunkStates δ) (p : Pull) : Prop where
  was : ∃ s, state.lookup p.chunkIndex = some s ∧ s.received = none ∧ s.inFlightTo = none ∧
    ∃ s' addr, state'.lookup p.chunkIndex = some s' ∧ s'.received = none ∧
      s'.inFlightTo = some (p.peerId, addr) ∧ s'.nextAttemptIdx = s.nextAttemptIdx + 1 ∧
      List.Perm s'.assigned s.assigned

/-- All that a dispatch does: each chunk it pulls is put in flight, and no other changes. -/
structure Wave (state state' : ChunkStates δ) (chunks : List ChunkDescriptor) (pulls : List Pull) :
    Prop where
  asked : ∀ p ∈ pulls, AskedOf state state' p
  other : ∀ i, i ∉ pulls.map Pull.chunkIndex → state'.lookup i = state.lookup i
  once : (pulls.map Pull.chunkIndex).Nodup
  chunk : ∀ p ∈ pulls, ∃ c ∈ chunks, c.chunkIndex = p.chunkIndex ∧ c.cid = p.cid

/-- A chunk keeps its bytes and, in some order, its archives. -/
theorem Wave.same (h : Wave state state' chunks pulls) {i : Nat} {s' : ChunkFetch δ}
    (hs' : state'.lookup i = some s') :
    ∃ s, state.lookup i = some s ∧ s'.received = s.received ∧ List.Perm s'.assigned s.assigned := by
  by_cases hi : i ∈ pulls.map Pull.chunkIndex
  · obtain ⟨p, hp, rfl⟩ := List.mem_map.mp hi
    obtain ⟨s, hs, hr, -, t, addr, ht, hr', -, -, hperm⟩ := (h.asked p hp).was
    cases hs'.symm.trans ht
    exact ⟨s, hs, hr'.trans hr.symm, hperm⟩
  · exact ⟨s', by rw [← h.other i hi]; exact hs', rfl, .refl _⟩

/-- A dispatch finishes no chunk and adds none. -/
theorem Wave.isLeft_iff (h : Wave state state' chunks pulls) (i : Nat) :
    state'.isLeft i = true ↔ state.isLeft i = true := by
  rw [ChunkStates.isLeft_iff, ChunkStates.isLeft_iff]
  constructor
  · rintro ⟨s', hs', hr⟩
    obtain ⟨s, hs, hsame, -⟩ := h.same hs'
    exact ⟨s, hs, hsame ▸ hr⟩
  · rintro ⟨s, hs, hr⟩
    by_cases hi : i ∈ pulls.map Pull.chunkIndex
    · obtain ⟨p, hp, rfl⟩ := List.mem_map.mp hi
      obtain ⟨-, -, -, -, s', addr, hs', hr', -⟩ := (h.asked p hp).was
      exact ⟨s', hs', hr'⟩
    · exact ⟨s, by rw [h.other i hi, hs], hr⟩

theorem pullOf_selected (hnodup : (chunks.map ChunkDescriptor.chunkIndex).Nodup) {d : Dispatch}
    (hd : d.chunkIndex ∈ chunks.map ChunkDescriptor.chunkIndex) :
    ∃ c ∈ chunks, c.chunkIndex = d.chunkIndex ∧
      pullOf chunks d = some ⟨d.chunkIndex, d.peerId, c.cid, c.size⟩ := by
  obtain ⟨c, hc, hidx⟩ := List.mem_map.mp hd
  refine ⟨c, hc, hidx, ?_⟩
  unfold pullOf
  rw [← hidx, chunkAt_of_mem hnodup hc]
  rfl

theorem map_pullOf_selected (hnodup : (chunks.map ChunkDescriptor.chunkIndex).Nodup) :
    ∀ ds : List Dispatch, (∀ d ∈ ds, d.chunkIndex ∈ chunks.map ChunkDescriptor.chunkIndex) →
    (ds.filterMap (pullOf chunks)).map Pull.chunkIndex = ds.map Dispatch.chunkIndex := by
  intro ds
  induction ds with
  | nil => intro _; rfl
  | cons d ds ih =>
      intro hds
      obtain ⟨c, -, -, hp⟩ := pullOf_selected hnodup (hds d (List.mem_cons_self ..))
      rw [List.filterMap_cons_some hp, List.map_cons, List.map_cons,
        ih fun e he => hds e (List.mem_cons_of_mem _ he)]

theorem tryDispatch_wave (hnodup : (chunks.map ChunkDescriptor.chunkIndex).Nodup)
    (h : state.tryDispatch chunks peers maxConcurrent skip swarmRuns = .ok (state', pulls)) :
    Wave state state' chunks pulls := by
  obtain ⟨rfl, rfl⟩ := tryDispatch_ok h
  have hds := selectDispatches_nodup state peers maxConcurrent skip hnodup
  have hsub : ∀ d ∈ state.selectDispatches chunks peers maxConcurrent skip,
      d.chunkIndex ∈ chunks.map ChunkDescriptor.chunkIndex := fun d hd =>
    (selectFrom_sublist chunks state.inFlight).subset (List.mem_map.mpr ⟨d, hd, rfl⟩)
  have hsel : ∀ d ∈ state.selectDispatches chunks peers maxConcurrent skip,
      state.Selects peers skip d := selectFrom_selects _ _
  generalize state.selectDispatches chunks peers maxConcurrent skip = ds at hds hsel hsub ⊢
  have hpulls := map_pullOf_selected hnodup ds hsub
  have hmem : ∀ p ∈ ds.filterMap (pullOf chunks), ∃ d ∈ ds, ∃ c ∈ chunks,
      c.chunkIndex = d.chunkIndex ∧ p = ⟨d.chunkIndex, d.peerId, c.cid, c.size⟩ := by
    intro p hp
    obtain ⟨d, hd, hp⟩ := List.mem_filterMap.mp hp
    obtain ⟨c, hc, hidx, hp'⟩ := pullOf_selected hnodup (hsub d hd)
    rw [hp', Option.some.injEq] at hp
    exact ⟨d, hd, c, hc, hidx, hp.symm⟩
  refine ⟨fun p hp => ?_, fun i hi => ?_, by rw [hpulls]; exact hds, fun p hp => ?_⟩
  · obtain ⟨d, hd, c, -, -, rfl⟩ := hmem p hp
    obtain ⟨s, hs, hr, hf, -⟩ := hsel d hd
    obtain ⟨addr, hflight, hget, hle⟩ := (hsel d hd).asked_inFlightTo hs
    obtain ⟨hlt, -⟩ := List.getElem?_eq_some_iff.mp hget
    exact ⟨s, hs, hr, hf, ChunkStates.asked s d, addr, lookup_foldl_mark_of_mem ds state hds d hd s hs,
      hr, hflight, rfl, markArchiveAsked_perm hle hlt⟩
  · rw [hpulls] at hi
    exact lookup_foldl_mark_of_not_mem ds state hi
  · obtain ⟨d, -, c, hc, hidx, rfl⟩ := hmem p hp
    exact ⟨c, hc, hidx, rfl⟩

/-- **A chunk that is done lowers the number of chunks left.** -/
theorem pending_insert_lt {c : ChunkDescriptor} (hc : c ∈ chunks) {s s' : ChunkFetch δ}
    (hs : state.lookup c.chunkIndex = some s) (hr : s.received = none)
    (hr' : s'.received.isSome = true) :
    pending (state.insert c.chunkIndex s') chunks < state.pending chunks := by
  refine countP_lt_countP ?_ hc ?_ ?_
  · intro d _ hleft
    obtain ⟨t, ht, hnone⟩ := isLeft_iff.mp hleft
    by_cases hi : d.chunkIndex = c.chunkIndex
    · rw [hi, AList.lookup_insert, Option.some.injEq] at ht
      rw [← ht] at hnone
      rw [hnone] at hr'
      cases hr'
    · rw [AList.lookup_insert_ne hi] at ht
      exact isLeft_iff.mpr ⟨t, ht, hnone⟩
  · apply Bool.eq_false_iff.mpr
    intro hleft
    obtain ⟨t, ht, hnone⟩ := isLeft_iff.mp hleft
    rw [AList.lookup_insert, Option.some.injEq] at ht
    rw [← ht] at hnone
    rw [hnone] at hr'
    cases hr'
  · exact isLeft_iff.mpr ⟨s, hs, hr⟩

theorem Wave.pending_eq (h : Wave state state' chunks pulls) :
    state'.pending chunks = state.pending chunks :=
  List.countP_congr fun c _ => h.isLeft_iff c.chunkIndex

end ChunkStates

/-! ### Marks and pulls -/

section

variable {δ : Type}

/-- No two chunks that have to be fetched share an identifier. -/
def FetchedOnce (chunks : List ChunkDescriptor) (files : ChunkStore) : Prop :=
  ∀ c ∈ chunks, ∀ d ∈ chunks, files.has c.cid = false → d.cid = c.cid → d.chunkIndex = c.chunkIndex

theorem cidToIdx_some {chunks : List ChunkDescriptor} {cid : Str} {idx : Nat}
    (h : cidToIdx chunks cid = some idx) : ∃ c ∈ chunks, c.cid = cid ∧ c.chunkIndex = idx := by
  obtain ⟨c, hc, rfl⟩ := Option.map_eq_some_iff.mp h
  obtain ⟨hmem, hcid⟩ := List.mem_filter.mp (List.mem_of_getLast? hc)
  exact ⟨c, hmem, by simpa using hcid, rfl⟩

theorem cidToIdx_eq {chunks : List ChunkDescriptor} {c : ChunkDescriptor} (hc : c ∈ chunks)
    (huniq : ∀ d ∈ chunks, d.cid = c.cid → d.chunkIndex = c.chunkIndex) :
    cidToIdx chunks c.cid = some c.chunkIndex := by
  have hsome : (cidToIdx chunks c.cid).isSome = true := by
    unfold cidToIdx
    rw [Option.isSome_map, List.getLast?_isSome]
    exact List.ne_nil_of_mem (List.mem_filter.mpr ⟨hc, by simp⟩)
  obtain ⟨idx, hidx⟩ := Option.isSome_iff_exists.mp hsome
  obtain ⟨d, hd, hcid, rfl⟩ := cidToIdx_some hidx
  rw [hidx, huniq d hd hcid]

/-- What waits for an answer is a chunk that is in flight and found by the identifier. -/
theorem ChunkStates.awaiting_some {state : ChunkStates δ} {chunks : List ChunkDescriptor} {cid : Str}
    {peerId : PeerId} {idx : Nat} {s : ChunkFetch δ}
    (h : state.awaiting chunks cid peerId = some (idx, s)) :
    cidToIdx chunks cid = some idx ∧ state.lookup idx = some s ∧
      ∃ addr, s.inFlightTo = some (peerId, addr) := by
  unfold ChunkStates.awaiting at h
  split at h
  · cases h
  rename_i idx' hidx
  split at h
  · cases h
  rename_i s' hs
  split at h
  · rename_i hpeer
    cases h
    obtain ⟨⟨p, addr⟩, hflight, rfl⟩ := Option.map_eq_some_iff.mp hpeer
    exact ⟨hidx, hs, addr, hflight⟩
  · cases h

/--
The marks of the chunks are the pulls that are outstanding: one pull for each mark,
to the peer that is marked.  `files` is what was on disk at the start.
-/
structure Tracked (chunks : List ChunkDescriptor) (files : ChunkStore) (state : ChunkStates δ)
    (outstanding : List Pull) : Prop where
  keys : ∀ i, (state.lookup i).isSome = true ↔ i ∈ chunks.map ChunkDescriptor.chunkIndex
  onDisk : ∀ c ∈ chunks, files.has c.cid = true → ∀ s, state.lookup c.chunkIndex = some s →
    s.received.isSome = true
  marks : ∀ i s peerId addr, state.lookup i = some s → s.inFlightTo = some (peerId, addr) →
    s.received = none ∧ ∃ p ∈ outstanding, p.chunkIndex = i ∧ p.peerId = peerId
  pulls : ∀ p ∈ outstanding,
    (∃ s addr, state.lookup p.chunkIndex = some s ∧ s.inFlightTo = some (p.peerId, addr)) ∧
    ∃ c ∈ chunks, c.chunkIndex = p.chunkIndex ∧ c.cid = p.cid
  once : (outstanding.map Pull.chunkIndex).Nodup
  left : ∀ i s, state.lookup i = some s → s.received = none → s.inFlightTo = none →
    s.assigned = [] ∨ s.nextAttemptIdx < s.assigned.length

namespace Tracked

variable {chunks : List ChunkDescriptor} {files : ChunkStore} {state state' : ChunkStates δ}
  {outstanding : List Pull}

/-- Before the first dispatch nothing is in flight. -/
theorem initial (hnodup : (chunks.map ChunkDescriptor.chunkIndex).Nodup) (files : ChunkStore)
    (entry : ChunkDescriptor → ChunkFetch δ)
    (hentry : ∀ c ∈ chunks, (entry c).inFlightTo = none ∧ (entry c).nextAttemptIdx = 0)
    (honDisk : ∀ c ∈ chunks, files.has c.cid = true → (entry c).received.isSome = true) :
    Tracked chunks files
      (chunks.foldl (fun state cd => state.insert cd.chunkIndex (entry cd)) (∅ : ChunkStates δ)) [] := by
  have hlook := ChunkStates.lookup_foldl_insert_of_mem entry chunks ∅ hnodup
  have hinv : ∀ i s, (chunks.foldl (fun state cd => state.insert cd.chunkIndex (entry cd))
      (∅ : ChunkStates δ)).lookup i = some s → ∃ c ∈ chunks, c.chunkIndex = i ∧ s = entry c := by
    intro i s hs
    rcases ChunkStates.lookup_foldl_insert entry chunks ∅ hs with h | hempty
    · exact h
    · cases hempty
  refine ⟨fun i => ⟨fun hsome => ?_, fun hmem => ?_⟩, ?_, ?_, fun p hp => (nomatch hp),
    List.nodup_nil, ?_⟩
  · obtain ⟨s, hs⟩ := Option.isSome_iff_exists.mp hsome
    obtain ⟨c, hc, rfl, -⟩ := hinv i s hs
    exact List.mem_map.mpr ⟨c, hc, rfl⟩
  · obtain ⟨c, hc, rfl⟩ := List.mem_map.mp hmem
    exact Option.isSome_iff_exists.mpr ⟨_, hlook c hc⟩
  · intro c hc hfile s hs
    cases hs.symm.trans (hlook c hc)
    exact honDisk c hc hfile
  · intro i s peerId addr hs hflight
    obtain ⟨c, hc, -, rfl⟩ := hinv i s hs
    rw [(hentry c hc).1] at hflight
    cases hflight
  · intro i s hs _ _
    obtain ⟨c, hc, -, rfl⟩ := hinv i s hs
    rw [(hentry c hc).2]
    rcases Nat.eq_zero_or_pos (entry c).assigned.length with hzero | hpos
    · exact Or.inl (List.length_eq_zero_iff.mp hzero)
    · exact Or.inr hpos

/-- Without outstanding pulls no chunk is in flight. -/
theorem free_of_idle (h : Tracked chunks files state []) {i : Nat} {s : ChunkFetch δ}
    (hs : state.lookup i = some s) : s.inFlightTo = none := by
  cases hflight : s.inFlightTo with
  | none => rfl
  | some mark =>
      obtain ⟨-, p, hp, -⟩ := h.marks i s mark.1 mark.2 hs hflight
      cases hp

theorem inFlight_of_idle (h : Tracked chunks files state []) : state.inFlight = 0 := by
  unfold ChunkStates.inFlight
  rw [List.countP_eq_zero]
  rintro ⟨i, s⟩ he hflight
  have hfree : s.inFlightTo = none := h.free_of_idle (AList.mem_lookup_iff.mpr he)
  dsimp only at hflight
  rw [hfree] at hflight
  cases hflight

/-- Without outstanding pulls no chunk is left that could be asked for. -/
theorem next_of_idle (h : Tracked chunks files state []) {peers : Addr → Option PeerId}
    {maxConcurrent : Nat} {skip : Bool}
    (hcons : state.Conserving chunks peers maxConcurrent skip) {c : ChunkDescriptor}
    (hc : c ∈ chunks) {s : ChunkFetch δ} (hs : state.lookup c.chunkIndex = some s)
    (hr : s.received = none) :
    nextAssignedArchive s.assigned s.nextAttemptIdx peers skip = none := by
  have hzero := h.inFlight_of_idle
  rcases hcons with hfull | hnone
  · omega
  · cases hnext : nextAssignedArchive s.assigned s.nextAttemptIdx peers skip with
    | none => rfl
    | some next => exact absurd ⟨s, hs, hr, h.free_of_idle hs, by rw [hnext]; rfl⟩ (hnone c hc)

/-- If all archives are identified, then no chunk is left at all. -/
theorem received_of_idle (h : Tracked chunks files state []) {peers : Addr → Option PeerId}
    {maxConcurrent : Nat} {skip : Bool}
    (hcons : state.Conserving chunks peers maxConcurrent skip)
    (hid : ∀ i s, state.lookup i = some s → s.assigned ≠ [] ∧
      ∀ a ∈ s.assigned, (peers a).isSome = true) {i : Nat} {s : ChunkFetch δ}
    (hs : state.lookup i = some s) : s.received.isSome = true := by
  cases hr : s.received with
  | some data => rfl
  | none =>
      obtain ⟨c, hc, rfl⟩ := List.mem_map.mp ((h.keys i).mp (by rw [hs]; rfl))
      have hnext := h.next_of_idle hcons hc hs hr
      obtain ⟨hne, hall⟩ := hid _ s hs
      rcases h.left _ s hs hr (h.free_of_idle hs) with hnil | hlt
      · exact absurd hnil hne
      · have hsome := nextAssignedArchive_isSome skip hlt hall
        rw [hnext] at hsome
        cases hsome

/-- A dispatch adds a mark and a pull for each chunk that it asks for. -/
theorem dispatch (h : Tracked chunks files state outstanding) {pulls : List Pull}
    (hwave : ChunkStates.Wave state state' chunks pulls) :
    Tracked chunks files state' (outstanding ++ pulls) := by
  -- An outstanding pull is not sent again: its chunk is not free.
  have hfresh : ∀ p ∈ outstanding, p.chunkIndex ∉ pulls.map Pull.chunkIndex := by
    intro p hp hmem
    obtain ⟨q, hq, hidx⟩ := List.mem_map.mp hmem
    obtain ⟨⟨s, addr, hs, hflight⟩, -⟩ := h.pulls p hp
    obtain ⟨s', hs', -, hfree, -⟩ := (hwave.asked q hq).was
    rw [hidx, hs, Option.some.injEq] at hs'
    rw [← hs', hflight] at hfree
    cases hfree
  constructor
  · intro i
    rw [← h.keys i]
    by_cases hi : i ∈ pulls.map Pull.chunkIndex
    · obtain ⟨p, hp, rfl⟩ := List.mem_map.mp hi
      obtain ⟨s, hs, -, -, s', addr, hs', -⟩ := (hwave.asked p hp).was
      rw [hs, hs']
      exact Iff.rfl
    · rw [hwave.other i hi]
  · intro c hc hfile s hs
    by_cases hi : c.chunkIndex ∈ pulls.map Pull.chunkIndex
    · obtain ⟨p, hp, hidx⟩ := List.mem_map.mp hi
      obtain ⟨s₀, hs₀, hr, -⟩ := (hwave.asked p hp).was
      have hdone := h.onDisk c hc hfile s₀ (hidx ▸ hs₀)
      rw [hr] at hdone
      cases hdone
    · rw [hwave.other _ hi] at hs
      exact h.onDisk c hc hfile s hs
  · intro i s peerId addr hs hflight
    by_cases hi : i ∈ pulls.map Pull.chunkIndex
    · obtain ⟨p, hp, rfl⟩ := List.mem_map.mp hi
      obtain ⟨-, -, -, -, s', addr', hs', hr', hflight', -⟩ := (hwave.asked p hp).was
      cases hs.symm.trans hs'
      rw [hflight'] at hflight
      cases hflight
      exact ⟨hr', p, List.mem_append_right _ hp, rfl, rfl⟩
    · rw [hwave.other i hi] at hs
      obtain ⟨hr, p, hp, hidx, hpeer⟩ := h.marks i s peerId addr hs hflight
      exact ⟨hr, p, List.mem_append_left _ hp, hidx, hpeer⟩
  · intro p hp
    rcases List.mem_append.mp hp with hp | hp
    · obtain ⟨⟨s, addr, hs, hflight⟩, hchunk⟩ := h.pulls p hp
      exact ⟨⟨s, addr, by rw [hwave.other _ (hfresh p hp), hs], hflight⟩, hchunk⟩
    · obtain ⟨-, -, -, -, s', addr, hs', -, hflight, -⟩ := (hwave.asked p hp).was
      exact ⟨⟨s', addr, hs', hflight⟩, hwave.chunk p hp⟩
  · rw [List.map_append]
    refine List.nodup_append.mpr ⟨h.once, hwave.once, ?_⟩
    rintro i hi _ hj rfl
    obtain ⟨p, hp, rfl⟩ := List.mem_map.mp hi
    exact hfresh p hp hj
  · intro i s hs hr hf
    by_cases hi : i ∈ pulls.map Pull.chunkIndex
    · obtain ⟨p, hp, rfl⟩ := List.mem_map.mp hi
      obtain ⟨-, -, -, -, s', addr, hs', -, hflight, -⟩ := (hwave.asked p hp).was
      cases hs.symm.trans hs'
      rw [hflight] at hf
      cases hf
    · rw [hwave.other i hi] at hs
      exact h.left i s hs hr hf

/-- The chunk of an outstanding pull is found by its identifier. -/
theorem cidToIdx_pull (h : Tracked chunks files state outstanding) (honce : FetchedOnce chunks files)
    {p : Pull} (hp : p ∈ outstanding) : cidToIdx chunks p.cid = some p.chunkIndex := by
  obtain ⟨⟨s, addr, hs, hflight⟩, c, hc, hidx, hcid⟩ := h.pulls p hp
  have hmissing : files.has c.cid = false := by
    apply Bool.eq_false_iff.mpr
    intro hfile
    have hdone := h.onDisk c hc hfile s (hidx ▸ hs)
    rw [(h.marks _ s _ addr hs hflight).1] at hdone
    cases hdone
  rw [← hcid, ← hidx]
  exact cidToIdx_eq hc fun d hd hd' => honce c hc d hd hmissing hd'

/-- The chunk that an answered pull was for is the one that waits for it. -/
theorem awaiting_pull (h : Tracked chunks files state outstanding) (honce : FetchedOnce chunks files)
    {p : Pull} (hp : p ∈ outstanding) :
    ∃ s addr, state.lookup p.chunkIndex = some s ∧ s.inFlightTo = some (p.peerId, addr) ∧
      s.received = none ∧ state.awaiting chunks p.cid p.peerId = some (p.chunkIndex, s) := by
  obtain ⟨⟨s, addr, hs, hflight⟩, -⟩ := h.pulls p hp
  refine ⟨s, addr, hs, hflight, (h.marks _ s _ addr hs hflight).1, ?_⟩
  unfold ChunkStates.awaiting
  rw [h.cidToIdx_pull honce hp]
  dsimp only
  rw [hs]
  dsimp only
  rw [if_pos (by rw [hflight]; rfl)]

/-- The pull of a chunk, found by its peer and identifier, is no longer outstanding. -/
theorem mem_eraseP (h : Tracked chunks files state outstanding)
    (hnodup : (chunks.map ChunkDescriptor.chunkIndex).Nodup) (honce : FetchedOnce chunks files)
    {idx : Nat} {s : ChunkFetch δ} {peerId : PeerId} {cid : Str} {addr : Addr}
    (hidx : cidToIdx chunks cid = some idx) (hs : state.lookup idx = some s)
    (hflight : s.inFlightTo = some (peerId, addr)) (p : Pull) :
    p ∈ outstanding.eraseP (fun p => p.peerId = peerId ∧ p.cid = cid) ↔
      p ∈ outstanding ∧ p.chunkIndex ≠ idx := by
  obtain ⟨-, p₀, hp₀, hidx₀, hpeer₀⟩ := h.marks idx s peerId addr hs hflight
  -- The pull of the chunk carries the identifier that it was found by.
  have hcid₀ : p₀.cid = cid := by
    obtain ⟨c, hc, hcid, hci⟩ := cidToIdx_some hidx
    obtain ⟨-, c₀, hc₀, hci₀, hcid₀⟩ := h.pulls p₀ hp₀
    rw [← hcid₀, ← hcid, List.inj_on_of_nodup_map hnodup hc₀ hc (by rw [hci₀, hci, hidx₀])]
  -- Every pull with this identifier is for the chunk.
  have hall : ∀ q ∈ outstanding, q.cid = cid → q.chunkIndex = idx := by
    intro q hq hq'
    have := h.cidToIdx_pull honce hq
    rw [hq', hidx, Option.some.injEq] at this
    exact this.symm
  obtain ⟨a, l₁, l₂, hno, ha, hsplit, herase⟩ := List.exists_of_eraseP hp₀
    (p := fun p => p.peerId = peerId ∧ p.cid = cid) (by simp [hpeer₀, hcid₀])
  have haidx : a.chunkIndex = idx := by
    have ha' : a.peerId = peerId ∧ a.cid = cid := by simpa using ha
    exact hall a (hsplit ▸ List.mem_append_right _ (List.mem_cons_self ..)) ha'.2
  have hndp := h.once
  rw [hsplit, List.map_append, List.map_cons, List.nodup_middle, List.nodup_cons] at hndp
  rw [herase, hsplit]
  simp only [List.mem_append, List.mem_cons]
  constructor
  · intro hp
    refine ⟨hp.imp id Or.inr, ?_⟩
    rintro rfl
    refine hndp.1 ?_
    rw [← List.map_append, haidx]
    exact List.mem_map.mpr ⟨p, List.mem_append.mpr hp, rfl⟩
  · rintro ⟨hp | rfl | hp, hne⟩
    · exact Or.inl hp
    · exact absurd haidx hne
    · exact Or.inr hp

/-- An answer to a chunk's pull releases the chunk. -/
theorem release (h : Tracked chunks files state outstanding)
    (hnodup : (chunks.map ChunkDescriptor.chunkIndex).Nodup) (honce : FetchedOnce chunks files)
    {idx : Nat} {s : ChunkFetch δ} {peerId : PeerId} {cid : Str} {addr : Addr}
    (hidx : cidToIdx chunks cid = some idx) (hs : state.lookup idx = some s)
    (hflight : s.inFlightTo = some (peerId, addr)) {received : Option δ}
    (hleft : received.isSome = true ∨ s.nextAttemptIdx < s.assigned.length) :
    Tracked chunks files
      (state.insert idx { s with inFlightTo := none, received := received })
      (outstanding.eraseP fun p => p.peerId = peerId ∧ p.cid = cid) := by
  have hmem := h.mem_eraseP hnodup honce hidx hs hflight
  have hnone := (h.marks idx s peerId addr hs hflight).1
  constructor
  · intro i
    rw [← h.keys i]
    by_cases hi : i = idx
    · subst hi
      rw [AList.lookup_insert, hs]
      exact Iff.rfl
    · rw [AList.lookup_insert_ne hi]
  · intro c hc hfile s' hs'
    by_cases hi : c.chunkIndex = idx
    · have hdone := h.onDisk c hc hfile s (hi ▸ hs)
      rw [hnone] at hdone
      cases hdone
    · rw [AList.lookup_insert_ne hi] at hs'
      exact h.onDisk c hc hfile s' hs'
  · intro i s' peer a hs' hfl
    by_cases hi : i = idx
    · rw [hi, AList.lookup_insert, Option.some.injEq] at hs'
      rw [← hs'] at hfl
      cases hfl
    · rw [AList.lookup_insert_ne hi] at hs'
      obtain ⟨hr, p, hp, hpi, hpp⟩ := h.marks i s' peer a hs' hfl
      exact ⟨hr, p, (hmem p).mpr ⟨hp, by rw [hpi]; exact hi⟩, hpi, hpp⟩
  · intro p hp
    obtain ⟨hp, hne⟩ := (hmem p).mp hp
    rw [AList.lookup_insert_ne hne]
    exact h.pulls p hp
  · exact h.once.sublist (List.eraseP_sublist.map _)
  · intro i s' hs' hr hf
    by_cases hi : i = idx
    · rw [hi, AList.lookup_insert, Option.some.injEq] at hs'
      rcases hleft with hsome | hlt
      · rw [← hs'] at hr
        have hr' : received = none := hr
        rw [hr'] at hsome
        cases hsome
      · rw [← hs']
        exact Or.inr hlt
    · rw [AList.lookup_insert_ne hi] at hs'
      exact h.left i s' hs' hr hf

end Tracked

end

end Snip
