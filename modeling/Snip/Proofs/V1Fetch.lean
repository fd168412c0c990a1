/-
No chunk of a download over the first protocol is lost, as long as no request fails.

One fact carries it: the identifiers to fetch are, up to order, those in the queue,
those in flight and those stored, each once.  A refusal, a wrong piece or a write that
fails moves an identifier from the second group to the first, a chunk that is whole to
the third.  A request that fails breaks it: its identifier goes back to the queue but
stays in the fetch manager, so it is skipped when its turn comes.
-/
import Snip.Lib.Steps
import Snip.Proofs.Archive
import Snip.Proofs.ChunkStates
import Snip.Node.DownloadV1

namespace Snip

/-- The phase, and the requests that nothing has answered yet. -/
structure V1Fetch where
  phase : ChunkPhase
  outstanding : List ShardRequest

/-- The peer and the identifier of a response to a request for a chunk. -/
def PhaseInput.responded : PhaseInput → Option (PeerId × Str)
  | .event (.shardReceived peerId response origin) _ _ _ =>
      if origin.requestedManifestRootHex.isSome then none else some (peerId, response.cid)
  | _ => none

/-- The peer and the identifier of a request that failed. -/
def PhaseInput.failed : PhaseInput → Option (PeerId × Str)
  | .event (.shardRequestFailed peerId _ origin) _ _ _ =>
      origin.requestedCid.map fun cid => (peerId, cid)
  | _ => none

namespace V1Fetch

/-- The answered request is no longer outstanding. -/
def settle (outstanding : List ShardRequest) : Option (PeerId × Str) → List ShardRequest
  | none => outstanding
  | some (peerId, cid) => outstanding.eraseP fun r => r.peerId = peerId ∧ r.cid = cid

variable [Blake3]

/-- Before the first event. -/
def start (cfg : ChunkPhaseConfig) (files : ChunkStore) (maxChunkMsgBytes : Nat)
    (discoveredPeers : List PeerId) (peerAddresses : Map PeerId Addr) (sends : List Bool) : V1Fetch :=
  let (phase, requests) := ChunkPhase.fillFetches cfg
    (ChunkPhase.initial cfg.manifest files maxChunkMsgBytes discoveredPeers peerAddresses) sends
  ⟨phase, requests⟩

/-- One input. -/
def next (cfg : ChunkPhaseConfig) (g : V1Fetch) (input : PhaseInput) :
    Except ChunkPhaseError V1Fetch :=
  (ChunkPhase.onInput cfg g.phase input).map fun (phase, requests) =>
    ⟨phase, settle g.outstanding (input.responded.or input.failed) ++ requests⟩

/-- The loop waits for an input and takes it.  A response answers a request that is outstanding. -/
def Step (cfg : ChunkPhaseConfig) (g : V1Fetch) (input : PhaseInput) (g' : V1Fetch) : Prop :=
  g.phase.chunksFetched ≠ cfg.totalToFetch ∧
    (∀ peerId cid, input.responded = some (peerId, cid) →
      ∃ r ∈ g.outstanding, r.peerId = peerId ∧ r.cid = cid) ∧
    g.next cfg input = .ok g'

/-- No request for a chunk in flight has failed. -/
def Unfailed (g : V1Fetch) (input : PhaseInput) : Prop :=
  ∀ peerId cid, input.failed = some (peerId, cid) → g.phase.inFlight.lookup cid = none

def UnfailedStep (cfg : ChunkPhaseConfig) (g : V1Fetch) (input : PhaseInput) (g' : V1Fetch) : Prop :=
  g.Unfailed input ∧ Step cfg g input g'

end V1Fetch

/-! ### The balance -/

/-- The identifier of a chunk by its index. -/
def cidOf (m : DataManifest) (i : Nat) : Str :=
  match m.chunks[i]? with
  | some c => c.cid
  | none => []

theorem cidOf_eq {m : DataManifest} {i : Nat} {c : ChunkDescriptor} (h : m.chunks[i]? = some c) :
    cidOf m i = c.cid := by
  unfold cidOf
  rw [h]

/-- The identifiers are those in the queue, those in flight and those stored, each once. -/
structure Balanced (m : DataManifest) (cids stored : List Str) (p : ChunkPhase) : Prop where
  perm : List.Perm (p.remaining.map (cidOf m) ++ p.inFlight.keys ++ stored) cids
  active : ∀ cid, p.fetcher.isActive cid = true ↔ cid ∈ p.inFlight.keys
  valid : ∀ i ∈ p.remaining, ∃ c, m.chunks[i]? = some c

namespace Balanced

variable {m : DataManifest} {cids stored : List Str} {p : ChunkPhase}

/-- What is in the queue is neither in flight nor active. -/
theorem queued_not_inFlight (h : Balanced m cids stored p) (hnodup : cids.Nodup) {i : Nat}
    (hi : i ∈ p.remaining) : cidOf m i ∉ p.inFlight.keys := by
  have hall := h.perm.nodup_iff.mpr hnodup
  rw [List.append_assoc, List.nodup_append] at hall
  intro hmem
  exact hall.2.2 _ (List.mem_map.mpr ⟨i, hi, rfl⟩) _ (List.mem_append_left _ hmem) rfl

/-- The head of the queue goes to its end. -/
theorem rotate (h : Balanced m cids stored p) {i : Nat} {rest : List Nat}
    (hq : p.remaining = i :: rest) : Balanced m cids stored { p with remaining := rest ++ [i] } := by
  have hrot : List.Perm (rest ++ [i]) p.remaining := by
    rw [hq]
    exact List.perm_append_singleton i rest
  refine ⟨?_, h.active, fun j hj => h.valid j (hrot.mem_iff.mp hj)⟩
  exact (((hrot.map (cidOf m)).append_right _).append_right _).trans h.perm

end Balanced

theorem startFetch_ok {f f' : FetchManager} {sent : Bool} {peerId : PeerId} {cid : Str}
    {size : Option Nat} {request : ShardRequest}
    (h : f.startFetchWithExpectedSize sent peerId cid size = .ok (f', request)) :
    request = ⟨peerId, cid, 0, f.chunkSize⟩ ∧
      f' = { f with active := f.active.insert cid ⟨peerId, none, 0, [], size⟩ } := by
  unfold FetchManager.startFetchWithExpectedSize at h
  split at h
  · cases h
  split at h
  · cases h
  · cases h
    exact ⟨rfl, rfl⟩

/-- The head of the queue goes in flight. -/
theorem Balanced.launch {m : DataManifest} {cids stored : List Str} {p : ChunkPhase}
    (h : Balanced m cids stored p) {i : Nat} {rest : List Nat} {c : ChunkDescriptor}
    (hq : p.remaining = i :: rest) (hc : m.chunks[i]? = some c) (peerId : PeerId)
    (state : FetchState) (hkeys : (p.inFlight.insert c.cid peerId).keys = c.cid :: p.inFlight.keys) :
    Balanced m cids stored
      { p with
        fetcher := { p.fetcher with active := p.fetcher.active.insert c.cid state }
        remaining := rest
        inFlight := p.inFlight.insert c.cid peerId } := by
  refine ⟨?_, ?_, ?_⟩
  · have hperm := h.perm
    rw [hq, List.map_cons, cidOf_eq hc] at hperm
    dsimp only
    rw [hkeys]
    exact (List.perm_middle.append_right _).trans hperm
  · intro cid
    dsimp only
    rw [hkeys, List.mem_cons, ← h.active cid]
    unfold FetchManager.isActive
    by_cases hcid : cid = c.cid
    · subst hcid
      simp
    · simp [hcid, AList.lookup_insert_ne hcid]
  · intro j hj
    apply h.valid j
    rw [hq]
    exact List.mem_cons_of_mem _ hj

/-- **A refill keeps the balance:** what it takes from the queue is in flight and requested. -/
theorem fillFetches_balanced {cids stored : List Str} (hnodup : cids.Nodup) (cfg : ChunkPhaseConfig)
    (p : ChunkPhase) (sends : List Bool) (h : Balanced cfg.manifest cids stored p) :
    let out := ChunkPhase.fillFetches cfg p sends
    Balanced cfg.manifest cids stored out.1 ∧
      List.Perm (out.2.map ShardRequest.cid ++ p.inFlight.keys) out.1.inFlight.keys ∧
      out.1.files = p.files ∧ out.1.chunksFetched = p.chunksFetched := by
  fun_induction ChunkPhase.fillFetches cfg p sends with
  | case1 p sends hroom hq => exact ⟨h, .refl _, rfl, rfl⟩
  | case2 p sends hroom i rest hq hnone => exact ⟨h, .refl _, rfl, rfl⟩
  | case3 p sends hroom i rest hq chunk hchunk hactive ih =>
      -- A chunk in the queue is not active.
      have hmem : i ∈ p.remaining := by rw [hq]; exact List.mem_cons_self ..
      have hfree := h.queued_not_inFlight hnodup hmem
      rw [cidOf_eq hchunk] at hfree
      exact absurd ((h.active _).mp hactive) hfree
  | case4 p sends hroom i rest hq chunk hchunk hactive hpeer =>
      exact ⟨h.rotate hq, .refl _, rfl, rfl⟩
  | case5 p sends hroom i rest hq chunk hchunk hactive peerId hpeer e hstart ih =>
      exact ih (h.rotate hq)
  | case6 p sends hroom i rest hq chunk hchunk hactive peerId hpeer fetcher request hstart p' requests
      hfill ih =>
      obtain ⟨rfl, rfl⟩ := startFetch_ok hstart
      have hmem : i ∈ p.remaining := by rw [hq]; exact List.mem_cons_self ..
      have hfree := h.queued_not_inFlight hnodup hmem
      rw [cidOf_eq hchunk] at hfree
      have hkeys : (p.inFlight.insert chunk.cid peerId).keys = chunk.cid :: p.inFlight.keys := by
        rw [AList.keys_insert]
        congr 1
        convert List.erase_of_not_mem hfree
      obtain ⟨hbal, hperm, hfiles, hcount⟩ := ih (h.launch hq hchunk peerId _ hkeys)
      rw [hfill] at hbal hperm hfiles hcount
      refine ⟨hbal, ?_, hfiles, hcount⟩
      rw [hkeys] at hperm
      exact List.perm_middle.symm.trans hperm
  | case7 p sends hroom => exact ⟨h, .refl _, rfl, rfl⟩

/-! ### One response -/

section Received

variable [Blake3]

/-- What a response to a fetch that is active can lead to. -/
inductive FetchManager.Leads (f : FetchManager) (files : ChunkStore) (cid : Str) :
    FetchManager.Received → Prop
  | failed (files' : ChunkStore) (error : String)
      (hfiles : ∀ c, files.has c = true → files'.has c = true) :
      Leads f files cid ⟨{ f with active := f.active.erase cid }, files', none, .failed cid error⟩
  | inProgress (state : FetchState) (request : ShardRequest) (hcid : request.cid = cid) :
      Leads f files cid ⟨{ f with active := f.active.insert cid state }, files, some request, .inProgress⟩
  | complete (files' : ChunkStore) (size : Nat)
      (hfiles : ∀ c, files.has c = true → files'.has c = true) (hstored : files'.has cid = true) :
      Leads f files cid ⟨{ f with active := f.active.erase cid }, files', none, .complete cid size⟩

theorem put_has (io : Io) {files : ChunkStore} {c : Str} (cid : Str) (data : Bytes)
    (h : files.has c = true) : (files.put io cid data).1.has c = true := by
  obtain ⟨d, hd⟩ := Option.isSome_iff_exists.mp h
  unfold ChunkStore.has
  rw [put_mono hd]
  rfl

theorem FetchManager.finish_leads (f : FetchManager) (files : ChunkStore) (io : Io) (cid : Str)
    (buffer : Bytes) :
    f.Leads files cid ⟨{ f with active := f.active.erase cid }, (finish files io cid buffer).1, none,
      (finish files io cid buffer).2⟩ := by
  unfold FetchManager.finish
  split
  · exact .failed files _ fun c hc => hc
  · have hhas : ∀ c, files.has c = true → (files.put io cid buffer).1.has c = true :=
      fun c hc => put_has io cid buffer hc
    have hok := (put_cases io files cid buffer).2
    split
    · rename_i files' e hput
      rw [hput] at hhas
      exact .failed files' _ hhas
    · rename_i files' hput
      rw [hput] at hhas hok
      obtain ⟨d, hd⟩ := hok rfl
      refine .complete files' _ hhas ?_
      unfold ChunkStore.has
      rw [hd]
      rfl

/-- **A response settles its fetch or asks for its next piece.** -/
theorem FetchManager.onChunkReceived_leads {f : FetchManager} {response : ShardResponse}
    (hactive : f.isActive response.cid = true) (sent : Bool) (io : Io) (files : ChunkStore) :
    f.Leads files response.cid (f.onChunkReceived sent io files response) := by
  obtain ⟨state, hstate⟩ := Option.isSome_iff_exists.mp hactive
  unfold FetchManager.onChunkReceived
  cases response.error with
  | some err => exact .failed files _ fun c hc => hc
  | none =>
      dsimp only
      rw [hstate]
      dsimp only
      split
      · exact .failed files _ fun c hc => hc
      · split
        · split
          · exact .inProgress _ _ rfl
          · exact .failed files _ fun c hc => hc
        · exact f.finish_leads files io response.cid _

end Received

/-! ### What leaves flight -/

theorem keys_erase_perm {α : Type} {map : Map Str α} {cid : Str} (h : cid ∈ map.keys) :
    List.Perm (cid :: (map.erase cid).keys) map.keys := by
  rw [AList.keys_erase]
  convert (List.perm_cons_erase h).symm

theorem isActive_erase (f : FetchManager) (cid c : Str) :
    FetchManager.isActive { f with active := f.active.erase cid } c = true ↔
      c ≠ cid ∧ f.isActive c = true := by
  unfold FetchManager.isActive
  by_cases hc : c = cid
  · subst hc
    simp
  · simp [hc, AList.lookup_erase_ne hc]

namespace Balanced

variable {m : DataManifest} {cids stored : List Str} {p : ChunkPhase} {cid : Str}

/-- What is active after a fetch has left the manager and the map. -/
theorem active_erase (h : Balanced m cids stored p) (c : Str) :
    FetchManager.isActive { p.fetcher with active := p.fetcher.active.erase cid } c = true ↔
      c ∈ (p.inFlight.erase cid).keys := by
  rw [isActive_erase, h.active c, ← AList.mem_keys, ← AList.mem_keys, AList.mem_erase]

/-- A chunk in flight is stored. -/
theorem store (h : Balanced m cids stored p) (hcid : cid ∈ p.inFlight.keys) {q : ChunkPhase}
    (hfetcher : q.fetcher = { p.fetcher with active := p.fetcher.active.erase cid })
    (hremaining : q.remaining = p.remaining) (hinFlight : q.inFlight = p.inFlight.erase cid) :
    Balanced m cids (cid :: stored) q := by
  refine ⟨?_, ?_, ?_⟩
  · rw [hremaining, hinFlight]
    refine List.Perm.trans ?_ h.perm
    have hmove : List.Perm ((p.inFlight.erase cid).keys ++ cid :: stored) (p.inFlight.keys ++ stored) :=
      List.perm_middle.trans ((keys_erase_perm hcid).append_right stored)
    rw [List.append_assoc, List.append_assoc]
    exact hmove.append_left _
  · intro c
    rw [hfetcher, hinFlight]
    exact h.active_erase c
  · rw [hremaining]
    exact h.valid

/-- A chunk in flight goes back to the queue. -/
theorem requeue {root : Hash} [Blake3] {cfg : ChunkPhaseConfig} (hvalid : ValidManifest root cfg.manifest)
    (h : Balanced cfg.manifest cids stored p) (hcid : cid ∈ p.inFlight.keys)
    (hcids : ∀ c ∈ cids, ∃ d ∈ cfg.manifest.chunks, d.cid = c) {q : ChunkPhase}
    (hfetcher : q.fetcher = { p.fetcher with active := p.fetcher.active.erase cid })
    (hremaining : q.remaining = p.remaining) (hinFlight : q.inFlight = p.inFlight) :
    Balanced cfg.manifest cids stored (ChunkPhase.requeue cfg q cid) := by
  have hmem : cid ∈ cids :=
    h.perm.mem_iff.mp (List.mem_append_left _ (List.mem_append_right _ hcid))
  obtain ⟨d, hd, hdcid⟩ := hcids cid hmem
  -- The search by identifier finds a chunk, and its index is its place.
  obtain ⟨c, hfind⟩ := Option.isSome_iff_exists.mp
    (List.find?_isSome.mpr ⟨d, hd, decide_eq_true hdcid⟩ :
      (cfg.manifest.chunks.find? fun c => decide (c.cid = cid)).isSome = true)
  have hccid : c.cid = cid := by simpa using List.find?_some hfind
  obtain ⟨i, hi⟩ := List.getElem?_of_mem (List.mem_of_find?_eq_some hfind)
  have hidx := hvalid.index i c hi
  have hq : (ChunkPhase.requeue cfg q cid).remaining = p.remaining ++ [i] := by
    unfold ChunkPhase.requeue
    dsimp only
    rw [hfind, hremaining, ← hidx]
    rfl
  have hflight : (ChunkPhase.requeue cfg q cid).inFlight = p.inFlight.erase cid := by
    unfold ChunkPhase.requeue
    rw [hinFlight]
  have hmanager : (ChunkPhase.requeue cfg q cid).fetcher =
      { p.fetcher with active := p.fetcher.active.erase cid } := hfetcher
  refine ⟨?_, ?_, ?_⟩
  · rw [hq, hflight, List.map_append, List.map_singleton, cidOf_eq hi, hccid]
    refine List.Perm.trans ?_ h.perm
    rw [List.append_assoc (p.remaining.map _), List.singleton_append]
    exact ((keys_erase_perm hcid).append_left _).append_right _
  · intro c'
    rw [hmanager, hflight]
    exact h.active_erase c'
  · intro j hj
    rw [hq, List.mem_append, List.mem_singleton] at hj
    rcases hj with hj | rfl
    · exact h.valid j hj
    · exact ⟨c, hi⟩

end Balanced

/-! ### One step and every run -/

/-- What a run keeps: the balance, the counter and the requests for what is in flight. -/
structure V1Fetch.Kept (cfg : ChunkPhaseConfig) (cids : List Str) (g : V1Fetch) (stored : List Str) :
    Prop where
  balanced : Balanced cfg.manifest cids stored g.phase
  counted : g.phase.chunksFetched = stored.length
  onDisk : ∀ cid ∈ stored, g.phase.files.has cid = true
  requested : List.Perm (g.outstanding.map ShardRequest.cid) g.phase.inFlight.keys

/-- The answered request leaves the others. -/
theorem V1Fetch.settle_perm {outstanding : List ShardRequest} {peerId : PeerId} {cid : Str}
    (h : ∃ r ∈ outstanding, r.peerId = peerId ∧ r.cid = cid) :
    List.Perm (cid :: (settle outstanding (some (peerId, cid))).map ShardRequest.cid)
      (outstanding.map ShardRequest.cid) := by
  obtain ⟨r, hr, hpeer, hcid⟩ := h
  obtain ⟨a, before, after, -, ha, rfl, herase⟩ :=
    List.exists_of_eraseP (p := fun r : ShardRequest => decide (r.peerId = peerId ∧ r.cid = cid)) hr
      (decide_eq_true ⟨hpeer, hcid⟩)
  have hacid : a.cid = cid := (of_decide_eq_true ha).2
  unfold settle
  dsimp only
  rw [herase, List.map_append, List.map_append, List.map_cons, hacid]
  exact List.perm_middle.symm

/-- A request that is not outstanding leaves all. -/
theorem V1Fetch.settle_absent {outstanding : List ShardRequest} {peerId : PeerId} {cid : Str}
    (h : cid ∉ outstanding.map ShardRequest.cid) :
    settle outstanding (some (peerId, cid)) = outstanding := by
  apply List.eraseP_of_forall_not
  intro r hr hmatch
  have hcid : r.cid = cid := (of_decide_eq_true hmatch).2
  exact h (List.mem_map.mpr ⟨r, hr, hcid⟩)

section Run

variable {cfg : ChunkPhaseConfig} {root : Hash} {cids : List Str}

/-- A refill after an answer keeps what a run keeps. -/
theorem V1Fetch.Kept.refill (hnodup : cids.Nodup) {q : ChunkPhase} {stored : List Str}
    {outstanding : List ShardRequest} (h : Kept cfg cids ⟨q, outstanding⟩ stored) (sends : List Bool) :
    Kept cfg cids ⟨(ChunkPhase.fillFetches cfg q sends).1,
      outstanding ++ (ChunkPhase.fillFetches cfg q sends).2⟩ stored := by
  obtain ⟨hbal, hperm, hfiles, hcount⟩ := fillFetches_balanced hnodup cfg q sends h.balanced
  refine ⟨hbal, hcount.trans h.counted, ?_, ?_⟩
  · intro cid hcid
    dsimp only
    rw [hfiles]
    exact h.onDisk cid hcid
  · dsimp only
    rw [List.map_append]
    exact List.perm_append_comm.trans ((h.requested.append_left _).trans hperm)

variable [Blake3]

/-- A response to an outstanding request keeps what a run keeps. -/
theorem V1Fetch.Kept.received (hvalid : ValidManifest root cfg.manifest) (hnodup : cids.Nodup)
    (hcids : ∀ c ∈ cids, ∃ d ∈ cfg.manifest.chunks, d.cid = c) {g : V1Fetch} {stored : List Str}
    (h : g.Kept cfg cids stored) {peerId : PeerId} {response : ShardResponse} {origin : OutboundOrigin}
    (hchunk : ¬ origin.requestedManifestRootHex.isSome = true)
    (hr : ∃ r ∈ g.outstanding, r.peerId = peerId ∧ r.cid = response.cid) (sent : Bool)
    (sends : List Bool) (io : Io) :
    ∃ stored', Kept cfg cids
      ⟨(ChunkPhase.onReceived cfg g.phase sent sends io peerId response origin).1,
        settle g.outstanding (some (peerId, response.cid)) ++
          (ChunkPhase.onReceived cfg g.phase sent sends io peerId response origin).2⟩ stored' := by
  have hsettle := (settle_perm hr).trans h.requested
  have hflight : response.cid ∈ g.phase.inFlight.keys := hsettle.mem_iff.mp (List.mem_cons_self ..)
  have hactive := (h.balanced.active _).mpr hflight
  have hleft : List.Perm ((settle g.outstanding (some (peerId, response.cid))).map ShardRequest.cid)
      (g.phase.inFlight.erase response.cid).keys :=
    (hsettle.trans (keys_erase_perm hflight).symm).cons_inv
  have hleads := FetchManager.onChunkReceived_leads hactive sent io g.phase.files
  unfold ChunkPhase.onReceived
  rw [if_neg hchunk]
  dsimp only
  revert hleads
  generalize g.phase.fetcher.onChunkReceived sent io g.phase.files response = r
  intro hleads
  cases hleads with
  | failed files' error hfiles =>
      have hbal := h.balanced.requeue hvalid hflight hcids
        (q := { g.phase with
          fetcher := { g.phase.fetcher with active := g.phase.fetcher.active.erase response.cid }
          files := files' }) rfl rfl rfl
      have hkept : Kept cfg cids ⟨_, settle g.outstanding (some (peerId, response.cid))⟩ stored :=
        ⟨hbal, h.counted, fun cid hcid => hfiles cid (h.onDisk cid hcid), hleft⟩
      exact ⟨stored, hkept.refill hnodup sends⟩
  | inProgress state request hcid =>
      refine ⟨stored, ⟨h.balanced.perm, ?_, h.balanced.valid⟩, h.counted, h.onDisk, ?_⟩
      · intro c
        dsimp only
        rw [← h.balanced.active c]
        unfold FetchManager.isActive at hactive ⊢
        by_cases hc : c = response.cid
        · subst hc
          simp [hactive]
        · simp [AList.lookup_insert_ne hc]
      · dsimp only [Option.toList]
        rw [List.map_append, List.map_singleton, hcid]
        exact (List.perm_append_singleton ..).trans hsettle
  | complete files' size hfiles hstored =>
      have honDisk : ∀ cid ∈ response.cid :: stored, files'.has cid = true := by
        intro cid hcid
        rcases List.mem_cons.mp hcid with rfl | hcid
        · exact hstored
        · exact hfiles cid (h.onDisk cid hcid)
      have hcounted : g.phase.chunksFetched + 1 = (response.cid :: stored).length := by
        rw [h.counted, List.length_cons]
      let q : ChunkPhase :=
        { g.phase with
          fetcher := { g.phase.fetcher with active := g.phase.fetcher.active.erase response.cid }
          files := files'
          inFlight := g.phase.inFlight.erase response.cid
          chunksFetched := g.phase.chunksFetched + 1
          chunkPeerAttribution := g.phase.chunkPeerAttribution.insert peerId
            ((g.phase.chunkPeerAttribution.lookup peerId).getD 0 + 1)
          peersContacted := insert peerId g.phase.peersContacted }
      have hbal := h.balanced.store hflight (q := q) rfl rfl rfl
      have hkept : Kept cfg cids ⟨q, settle g.outstanding (some (peerId, response.cid))⟩
          (response.cid :: stored) := ⟨hbal, hcounted, honDisk, hleft⟩
      exact ⟨response.cid :: stored, hkept.refill hnodup sends⟩

/-- **One step keeps it.** -/
theorem V1Fetch.Kept.step (hvalid : ValidManifest root cfg.manifest) (hnodup : cids.Nodup)
    (hcids : ∀ c ∈ cids, ∃ d ∈ cfg.manifest.chunks, d.cid = c) {g g' : V1Fetch} {stored : List Str}
    {input : PhaseInput} (h : g.Kept cfg cids stored) (hstep : UnfailedStep cfg g input g') :
    ∃ stored', g'.Kept cfg cids stored' := by
  obtain ⟨hunfailed, -, hresponded, hnext⟩ := hstep
  unfold V1Fetch.next at hnext
  cases input with
  | deadline => cases hnext
  | closed => cases hnext
  | event e sent sends io =>
      cases e with
      | shardReceived peerId response origin =>
          by_cases hchunk : origin.requestedManifestRootHex.isSome = true
          · have hsame : ChunkPhase.onReceived cfg g.phase sent sends io peerId response origin =
                (g.phase, []) := if_pos hchunk
            simp only [ChunkPhase.onInput, hsame, PhaseInput.responded, PhaseInput.failed, if_pos hchunk,
              Option.or_none, settle, List.append_nil, Except.map] at hnext
            cases hnext
            exact ⟨stored, h⟩
          · simp only [PhaseInput.responded, if_neg hchunk] at hresponded
            have hout := h.received hvalid hnodup hcids hchunk (hresponded _ _ rfl) sent sends io
            simp only [ChunkPhase.onInput, PhaseInput.responded, if_neg hchunk, Option.some_or,
              Except.map] at hnext
            cases hnext
            exact hout
      | shardRequestFailed peerId error origin =>
          simp only [ChunkPhase.onInput, PhaseInput.responded, PhaseInput.failed, Option.none_or,
            ChunkPhase.onRequestFailed] at hnext
          cases hcid : origin.requestedCid with
          | none =>
              simp only [hcid, Option.map_none, settle, List.append_nil, Except.map] at hnext
              cases hnext
              exact ⟨stored, h⟩
          | some cid =>
              have hfree := hunfailed peerId cid (by simp [PhaseInput.failed, hcid])
              have hout : cid ∉ g.outstanding.map ShardRequest.cid := by
                intro hmem
                have hkey := AList.mem_keys.mpr (h.requested.mem_iff.mp hmem)
                have hsome := AList.lookup_isSome.mpr hkey
                rw [hfree] at hsome
                cases hsome
              simp only [hcid, Option.map_some, hfree, Option.isNone_none, if_true, settle_absent hout,
                List.append_nil, Except.map] at hnext
              cases hnext
              exact ⟨stored, h⟩
      | peerDiscovered peerId =>
          simp only [ChunkPhase.onInput, PhaseInput.responded, PhaseInput.failed, Option.none_or,
            settle, Except.map] at hnext
          split at hnext
          · rename_i hok
            split at hok <;> cases hok
          · rename_i out hok
            split at hok
            · cases hok
              cases hnext
              rw [List.append_nil]
              exact ⟨stored, h⟩
            · cases hok
              cases hnext
              rw [List.append_nil]
              exact ⟨stored, ⟨h.balanced.perm, h.balanced.active, h.balanced.valid⟩, h.counted, h.onDisk,
                h.requested⟩
      | peerIdentified peerId l1Address =>
          cases hnext
          exact ⟨stored, ⟨h.balanced.perm, h.balanced.active, h.balanced.valid⟩, h.counted, h.onDisk,
            by simpa [PhaseInput.responded, PhaseInput.failed, settle] using h.requested⟩
      | peerDisconnected peerId =>
          cases hnext
          exact ⟨stored, ⟨h.balanced.perm, h.balanced.active, h.balanced.valid⟩, h.counted, h.onDisk,
            by simpa [PhaseInput.responded, PhaseInput.failed, settle] using h.requested⟩
      | shardReceivedV2 peerId response origin =>
          cases hnext
          exact ⟨stored, ⟨h.balanced.perm, h.balanced.active, h.balanced.valid⟩, h.counted, h.onDisk,
            by simpa [PhaseInput.responded, PhaseInput.failed, settle] using h.requested⟩
      | other =>
          cases hnext
          exact ⟨stored, ⟨h.balanced.perm, h.balanced.active, h.balanced.valid⟩, h.counted, h.onDisk,
            by simpa [PhaseInput.responded, PhaseInput.failed, settle] using h.requested⟩

/-- **Every run keeps it.** -/
theorem V1Fetch.Kept.run (hvalid : ValidManifest root cfg.manifest) (hnodup : cids.Nodup)
    (hcids : ∀ c ∈ cids, ∃ d ∈ cfg.manifest.chunks, d.cid = c) {g g' : V1Fetch} {stored : List Str}
    {inputs : List PhaseInput} (h : g.Kept cfg cids stored)
    (hrun : Run (UnfailedStep cfg) g inputs g') : ∃ stored', g'.Kept cfg cids stored' := by
  refine hrun.invariant (P := fun _ g => ∃ stored, g.Kept cfg cids stored) ?_ [] ⟨stored, h⟩
  rintro _ g input g' ⟨stored, hkept⟩ hstep
  exact hkept.step hvalid hnodup hcids hstep

end Run

/-! ### From the start -/

section Start

variable [Blake3] {root : Hash} {m : DataManifest} {files : ChunkStore}

theorem mem_toFetch (hvalid : ValidManifest root m) {i : Nat} :
    i ∈ ChunkPhase.toFetch m files ↔ ∃ c, m.chunks[i]? = some c ∧ files.has c.cid = false := by
  unfold ChunkPhase.toFetch
  simp only [List.mem_map, List.mem_filter, Bool.not_eq_eq_eq_not, Bool.not_true]
  constructor
  · rintro ⟨c, ⟨hc, hmissing⟩, rfl⟩
    obtain ⟨j, hj⟩ := List.getElem?_of_mem hc
    rw [hvalid.index j c hj]
    exact ⟨c, hj, hmissing⟩
  · rintro ⟨c, hc, hmissing⟩
    exact ⟨c, ⟨List.mem_of_getElem? hc, hmissing⟩, hvalid.index i c hc⟩

/-- The identifiers to fetch, without the chunks that share one. -/
theorem toFetch_cids_nodup (hvalid : ValidManifest root m) (honce : FetchedOnce m.chunks files) :
    ((ChunkPhase.toFetch m files).map (cidOf m)).Nodup := by
  apply List.Nodup.map_on
  · intro i hi j hj heq
    obtain ⟨c, hc, hmissing⟩ := (mem_toFetch hvalid).mp hi
    obtain ⟨d, hd, -⟩ := (mem_toFetch hvalid).mp hj
    rw [cidOf_eq hc, cidOf_eq hd] at heq
    have hsame := honce c (List.mem_of_getElem? hc) d (List.mem_of_getElem? hd) hmissing heq.symm
    rw [hvalid.index i c hc, hvalid.index j d hd] at hsame
    exact hsame.symm
  · have hsub : List.Sublist (ChunkPhase.toFetch m files) (m.chunks.map ChunkDescriptor.chunkIndex) :=
      List.filter_sublist.map _
    exact hsub.nodup hvalid.nodup

/-- What does not change during the phase, for the files that are on disk when it starts. -/
def V1Fetch.config (m : DataManifest) (files : ChunkStore) (maxConcurrent : Nat)
    (holderMap : Map Nat (List PeerId)) : ChunkPhaseConfig :=
  ⟨m, maxConcurrent, holderMap, (ChunkPhase.toFetch m files).length⟩

theorem V1Fetch.Kept.start (hvalid : ValidManifest root m) (honce : FetchedOnce m.chunks files)
    (maxConcurrent : Nat) (holderMap : Map Nat (List PeerId)) (maxChunkMsgBytes : Nat)
    (discoveredPeers : List PeerId) (peerAddresses : Map PeerId Addr) (sends : List Bool) :
    Kept (V1Fetch.config m files maxConcurrent holderMap)
      ((ChunkPhase.toFetch m files).map (cidOf m))
      (V1Fetch.start (V1Fetch.config m files maxConcurrent holderMap) files maxChunkMsgBytes
        discoveredPeers peerAddresses sends) [] := by
  let phase := ChunkPhase.initial m files maxChunkMsgBytes discoveredPeers peerAddresses
  have hbal : Balanced m ((ChunkPhase.toFetch m files).map (cidOf m)) [] phase := by
    refine ⟨?_, ?_, ?_⟩
    · show List.Perm ((ChunkPhase.toFetch m files).map (cidOf m) ++ [] ++ []) _
      rw [List.append_nil, List.append_nil]
    · intro cid
      exact iff_of_false (fun h => nomatch h) (List.not_mem_nil)
    · intro i hi
      obtain ⟨c, hc, -⟩ := (mem_toFetch hvalid).mp hi
      exact ⟨c, hc⟩
  have hkept : Kept (V1Fetch.config m files maxConcurrent holderMap)
      ((ChunkPhase.toFetch m files).map (cidOf m)) ⟨phase, []⟩ [] :=
    ⟨hbal, rfl, fun cid hcid => absurd hcid List.not_mem_nil, .refl _⟩
  exact hkept.refill (toFetch_cids_nodup hvalid honce) sends

/--
**No chunk is dropped while no request fails,** if no two chunks that have to be
fetched share an identifier.  A chunk that was not on disk is stored, or queued, or in
flight with an active fetch whose request is outstanding; and with nothing outstanding
and nothing queued, the counter has reached its end.
-/
theorem v1_fetch_drops_no_chunk (hvalid : ValidManifest root m) (honce : FetchedOnce m.chunks files)
    (maxConcurrent : Nat) (holderMap : Map Nat (List PeerId)) (maxChunkMsgBytes : Nat)
    (discoveredPeers : List PeerId) (peerAddresses : Map PeerId Addr) (sends : List Bool)
    (inputs : List PhaseInput) (g : V1Fetch)
    (hrun : Run (V1Fetch.UnfailedStep (V1Fetch.config m files maxConcurrent holderMap))
      (V1Fetch.start (V1Fetch.config m files maxConcurrent holderMap) files maxChunkMsgBytes
        discoveredPeers peerAddresses sends) inputs g) :
    (∀ i c, m.chunks[i]? = some c → files.has c.cid = false →
      g.phase.files.has c.cid = true ∨ i ∈ g.phase.remaining ∨
        ((g.phase.inFlight.lookup c.cid).isSome = true ∧ g.phase.fetcher.isActive c.cid = true ∧
          ∃ r ∈ g.outstanding, r.cid = c.cid)) ∧
    g.phase.chunksFetched + g.phase.remaining.length + g.outstanding.length
      = (ChunkPhase.toFetch m files).length ∧
    (g.outstanding = [] → g.phase.remaining = [] →
      g.phase.chunksFetched = (ChunkPhase.toFetch m files).length) := by
  have hnodup := toFetch_cids_nodup hvalid honce
  have hcids : ∀ cid ∈ (ChunkPhase.toFetch m files).map (cidOf m), ∃ d ∈ m.chunks, d.cid = cid := by
    intro cid hcid
    obtain ⟨i, hi, rfl⟩ := List.mem_map.mp hcid
    obtain ⟨c, hc, -⟩ := (mem_toFetch hvalid).mp hi
    exact ⟨c, List.mem_of_getElem? hc, (cidOf_eq hc).symm⟩
  have hstart := V1Fetch.Kept.start hvalid honce maxConcurrent holderMap maxChunkMsgBytes
    discoveredPeers peerAddresses sends
  obtain ⟨stored, hkept⟩ := hstart.run hvalid hnodup hcids hrun
  have hcount : g.phase.chunksFetched + g.phase.remaining.length + g.outstanding.length
      = (ChunkPhase.toFetch m files).length := by
    have hlen := hkept.balanced.perm.length_eq
    have hout := hkept.requested.length_eq
    simp only [List.length_append, List.length_map] at hlen hout
    have hcounted := hkept.counted
    omega
  refine ⟨?_, hcount, ?_⟩
  · intro i c hc hmissing
    have hmem : c.cid ∈ (ChunkPhase.toFetch m files).map (cidOf m) :=
      List.mem_map.mpr ⟨i, (mem_toFetch hvalid).mpr ⟨c, hc, hmissing⟩, cidOf_eq hc⟩
    rcases List.mem_append.mp (hkept.balanced.perm.mem_iff.mpr hmem) with hopen | hstored
    · rcases List.mem_append.mp hopen with hqueued | hflight
      · -- Only one index has this identifier.
        obtain ⟨j, hj, hcid⟩ := List.mem_map.mp hqueued
        obtain ⟨d, hd⟩ := hkept.balanced.valid j hj
        have hdcid : d.cid = c.cid := (cidOf_eq hd).symm.trans hcid
        have hsame := honce c (List.mem_of_getElem? hc) d (List.mem_of_getElem? hd) hmissing hdcid
        rw [hvalid.index i c hc, hvalid.index j d hd] at hsame
        exact .inr (.inl (hsame ▸ hj))
      · obtain ⟨r, hr, hcid⟩ := List.mem_map.mp (hkept.requested.mem_iff.mpr hflight)
        exact .inr (.inr ⟨AList.lookup_isSome.mpr (AList.mem_keys.mpr hflight),
          (hkept.balanced.active _).mpr hflight, r, hr, hcid⟩)
    · exact .inl (hkept.onDisk _ hstored)
  · intro hidle hempty
    rw [hidle, hempty] at hcount
    simpa using hcount

end Start

/-! ### A refill, one chunk at a time -/

section Refill

variable (cfg : ChunkPhaseConfig) (p : ChunkPhase)

/-- A refill with an empty queue. -/
theorem fillFetches_nil (hq : p.remaining = []) (sends : List Bool) :
    ChunkPhase.fillFetches cfg p sends = (p, []) := by
  rw [ChunkPhase.fillFetches]
  split
  · split
    · rfl
    · rename_i h
      rw [hq] at h
      cases h
  · rfl

/-- A refill that skips a chunk that is active. -/
theorem fillFetches_active {i : Nat} {rest : List Nat} (c : ChunkDescriptor)
    (hroom : p.inFlight.entries.length < cfg.maxConcurrent) (hq : p.remaining = i :: rest)
    (hc : cfg.manifest.chunks[i]? = some c) (hactive : p.fetcher.isActive c.cid = true)
    (sends : List Bool) :
    ChunkPhase.fillFetches cfg p sends
      = ChunkPhase.fillFetches cfg { p with remaining := rest } sends := by
  rw [ChunkPhase.fillFetches, if_pos hroom]
  split
  · rename_i h
    rw [hq] at h
    cases h
  · rename_i h
    rw [hq] at h
    cases h
    rw [hc]
    dsimp only
    rw [dif_pos hactive]

/-- A refill that asks for the head of the queue. -/
theorem fillFetches_launch {i : Nat} {rest : List Nat} (c : ChunkDescriptor) (peerId : PeerId)
    (hroom : p.inFlight.entries.length < cfg.maxConcurrent) (hq : p.remaining = i :: rest)
    (hc : cfg.manifest.chunks[i]? = some c) (hinactive : p.fetcher.isActive c.cid = false)
    (hpeer : ChunkPhase.choosePeer cfg p i c.cid = some peerId) :
    let q : ChunkPhase :=
      { p with
        fetcher := { p.fetcher with
          active := p.fetcher.active.insert c.cid ⟨peerId, none, 0, [], some c.size⟩ }
        remaining := rest
        inFlight := p.inFlight.insert c.cid peerId }
    ChunkPhase.fillFetches cfg p [] = ((ChunkPhase.fillFetches cfg q []).1,
      ⟨peerId, c.cid, 0, p.fetcher.chunkSize⟩ :: (ChunkPhase.fillFetches cfg q []).2) := by
  intro q
  have hstart : p.fetcher.startFetchWithExpectedSize true peerId c.cid (some c.size)
      = .ok (q.fetcher, ⟨peerId, c.cid, 0, p.fetcher.chunkSize⟩) := by
    unfold FetchManager.startFetchWithExpectedSize
    rw [hinactive]
    rfl
  rw [ChunkPhase.fillFetches, if_pos hroom]
  split
  · rename_i h
    rw [hq] at h
    cases h
  · rename_i h
    rw [hq] at h
    cases h
    rw [hc]
    dsimp only
    rw [dif_neg (by rw [hinactive]; exact Bool.false_ne_true), hpeer]
    dsimp only [List.headD, List.tail]
    split
    · rename_i h
      rw [hstart] at h
      cases h
    · rename_i h
      rw [hstart] at h
      cases h
      rfl

end Refill

/-! #### A piece that is refused

Two blocks, one peer and one slot.  The peer refuses the first block: it goes behind the
second in the queue, and is asked for again once the second is stored. -/

section

variable [Blake3]

/-- The bytes of a block. -/
def filledBlock (b : UInt8) : Bytes := List.replicate 64 b

/-- The file of a block of zeros and a block of ones. -/
def pairOfBlocks : DataManifest :=
  let nodes := [Blake3.hash (filledBlock 0), Blake3.hash (filledBlock 1)]
  manifestOver (MerkleTree.build nodes).root nodes

/-- The configuration for its download, one block at a time. -/
def pairOfBlocksConfig : ChunkPhaseConfig := V1Fetch.config pairOfBlocks ∅ 1 ∅

/-- The download starts with peer 7 known. -/
def startTwoBlocks : V1Fetch := V1Fetch.start pairOfBlocksConfig ∅ 64 [7] ∅ []

/-- Peer 7 has an error for the block. -/
def blockRefused (b : UInt8) : ShardResponse :=
  ⟨cidFromData (filledBlock b), 0, 0, [], some "chunk not found".toList⟩

/-- Peer 7 has the block. -/
def blockSent (b : UInt8) : ShardResponse :=
  ⟨cidFromData (filledBlock b), 0, 64, filledBlock b, none⟩

/-- The answer of peer 7, as the loop reads it. -/
def answered (response : ShardResponse) : PhaseInput :=
  .event (.shardReceived 7 response ⟨7, .v1Chunk response.cid⟩) true [] .done

/-- After an answer of peer 7. -/
def V1Fetch.afterAnswer (cfg : ChunkPhaseConfig) (g : V1Fetch) (response : ShardResponse) : V1Fetch :=
  let (phase, requests) := ChunkPhase.onReceived cfg g.phase true [] .done 7 response
    ⟨7, .v1Chunk response.cid⟩
  ⟨phase, settle g.outstanding (some (7, response.cid)) ++ requests⟩

/-- A request of this answer is outstanding at peer 7. -/
def V1Fetch.Asks (g : V1Fetch) (response : ShardResponse) : Prop :=
  ∃ r ∈ g.outstanding, r.peerId = 7 ∧ r.cid = response.cid

theorem V1Fetch.step_answered {cfg : ChunkPhaseConfig} {g : V1Fetch} {response : ShardResponse}
    (hcount : g.phase.chunksFetched ≠ cfg.totalToFetch)
    (hasked : g.Asks response) :
    UnfailedStep cfg g (answered response) (g.afterAnswer cfg response) := by
  refine ⟨(fun _ _ h => nomatch h), hcount, fun peerId cid h => ?_, rfl⟩
  obtain ⟨rfl, rfl⟩ : peerId = 7 ∧ cid = response.cid := by simpa using (Option.some.inj h).symm
  exact hasked

end

/-- The first block is refused and queued again; in the end both blocks are stored. -/
theorem refused_block_is_fetched_again :
    letI := Blake3.reference
    FetchedOnce pairOfBlocks.chunks ∅ ∧
    ∃ g g' : V1Fetch,
      Run (V1Fetch.UnfailedStep pairOfBlocksConfig) startTwoBlocks [answered (blockRefused 0)] g ∧
      Run (V1Fetch.UnfailedStep pairOfBlocksConfig) startTwoBlocks
        [answered (blockRefused 0), answered (blockSent 1), answered (blockSent 0)] g' ∧
      g.phase.remaining = [0] ∧ g.phase.files.has (cidFromData (filledBlock 0)) = false ∧
      g.phase.chunksFetched + g.phase.remaining.length + g.outstanding.length = 2 ∧
      g'.phase.files.has (cidFromData (filledBlock 0)) = true ∧
      g'.phase.files.has (cidFromData (filledBlock 1)) = true ∧ g'.phase.chunksFetched = 2 := by
  let _ := Blake3.reference
  let g₁ := startTwoBlocks.afterAnswer pairOfBlocksConfig (blockRefused 0)
  let g₂ := g₁.afterAnswer pairOfBlocksConfig (blockSent 1)
  let g₃ := g₂.afterAnswer pairOfBlocksConfig (blockSent 0)
  have honce : FetchedOnce pairOfBlocks.chunks ∅ := by
    unfold FetchedOnce
    decide +kernel
  obtain ⟨⟨hcount₀, hasked₀⟩, ⟨hcount₁, hasked₁, hqueued, hmissing⟩, ⟨hcount₂, hasked₂⟩, hzeros, hones,
      hidle, hempty⟩ :
      (startTwoBlocks.phase.chunksFetched ≠ pairOfBlocksConfig.totalToFetch ∧
        startTwoBlocks.Asks (blockRefused 0)) ∧
      (g₁.phase.chunksFetched ≠ pairOfBlocksConfig.totalToFetch ∧ g₁.Asks (blockSent 1) ∧
        g₁.phase.remaining = [0] ∧ g₁.phase.files.has (cidFromData (filledBlock 0)) = false) ∧
      (g₂.phase.chunksFetched ≠ pairOfBlocksConfig.totalToFetch ∧ g₂.Asks (blockSent 0)) ∧
      g₃.phase.files.has (cidFromData (filledBlock 0)) = true ∧
      g₃.phase.files.has (cidFromData (filledBlock 1)) = true ∧
      g₃.outstanding = [] ∧ g₃.phase.remaining = [] := by
    unfold V1Fetch.Asks
    decide +kernel
  have hrefused := V1Fetch.step_answered hcount₀ hasked₀
  have hrun := Run.cons hrefused (.cons (V1Fetch.step_answered hcount₁ hasked₁)
    (.single (V1Fetch.step_answered hcount₂ hasked₂)))
  have hvalid : ValidManifest pairOfBlocks.merkleRoot pairOfBlocks := manifestOver_valid rfl
  obtain ⟨-, hcount, -⟩ := v1_fetch_drops_no_chunk hvalid honce 1 ∅ 64 [7] ∅ [] _ g₁
    (.single hrefused)
  obtain ⟨-, -, hended⟩ := v1_fetch_drops_no_chunk hvalid honce 1 ∅ 64 [7] ∅ [] _ g₃ hrun
  exact ⟨honce, g₁, g₃, .single hrefused, hrun, hqueued, hmissing, hcount, hzeros, hones,
    hended hidle hempty⟩

/-! #### A request that fails

A file of one block, one peer, and nothing on disk.  The request for the block fails:
the block goes back to the queue, is found active when the queue is refilled, and is
skipped. -/

section

variable [Blake3]

/-- The configuration for the download of `n` equal blocks, one at a time. -/
def blocksConfig (n : Nat) : ChunkPhaseConfig := V1Fetch.config (equalBlocks n) ∅ 1 ∅

/-- The download starts with peer 7 known. -/
def startV1Blocks (n : Nat) : V1Fetch := V1Fetch.start (blocksConfig n) ∅ 64 [7] ∅ []

/-- The block is asked for. -/
def blockRequested (discoveredPeers : List PeerId) : V1Fetch where
  phase :=
    { ChunkPhase.initial (equalBlocks 1) ∅ 64 discoveredPeers ∅ with
      fetcher := ⟨64, (∅ : Map Str FetchState).insert (cidFromBlake3Hash blockHash)
        ⟨7, none, 0, [], some 64⟩⟩
      remaining := []
      inFlight := (∅ : Map Str PeerId).insert (cidFromBlake3Hash blockHash) 7 }
  outstanding := [⟨7, cidFromBlake3Hash blockHash, 0, 64⟩]

theorem startV1Blocks_one : startV1Blocks 1 = blockRequested [7] := by
  have hfill := fillFetches_launch (blocksConfig 1) (ChunkPhase.initial (equalBlocks 1) ∅ 64 [7] ∅)
    (nodeDescriptor 0 blockHash) 7 Nat.zero_lt_one rfl rfl rfl rfl
  unfold startV1Blocks V1Fetch.start
  show (match ChunkPhase.fillFetches (blocksConfig 1)
      (ChunkPhase.initial (equalBlocks 1) ∅ 64 [7] ∅) [] with
    | (phase, requests) => V1Fetch.mk phase requests) = _
  rw [hfill, fillFetches_nil _ _ rfl]
  rfl

/-- The network reports that the request for the block failed. -/
def blockFailed : PhaseInput :=
  .event (.shardRequestFailed 7 [] ⟨7, .v1Chunk (cidFromBlake3Hash blockHash)⟩) true [] .done

theorem next_blockFailed : ∃ g : V1Fetch,
    (blockRequested [7]).next (blocksConfig 1) blockFailed = .ok g ∧
      g.outstanding = [] ∧ g.phase.remaining = [] ∧ g.phase.inFlight = ∅ ∧ g.phase.chunksFetched = 0 ∧
      g.phase.files = ∅ := by
  let q := ChunkPhase.requeue (blocksConfig 1) (blockRequested [7]).phase (cidFromBlake3Hash blockHash)
  have hqueued : q.remaining = [0] := by
    simp [q, ChunkPhase.requeue, blockRequested, blocksConfig, V1Fetch.config, equalBlocks, manifestOver,
      nodeDescriptor]
  have hfree : q.inFlight = ∅ := by
    apply AList.ext
    exact List.kerase_cons_eq rfl
  have hfill := fillFetches_active (blocksConfig 1) q (nodeDescriptor 0 blockHash)
    (by rw [hfree]; exact Nat.zero_lt_one) hqueued rfl
    (Option.isSome_iff_exists.mpr ⟨_, AList.lookup_insert _⟩) []
  rw [fillFetches_nil _ { q with remaining := [] } rfl] at hfill
  have hin : ChunkPhase.onInput (blocksConfig 1) (blockRequested [7]).phase blockFailed
      = .ok ({ q with remaining := [] }, []) := by
    simp only [ChunkPhase.onInput, blockFailed, ChunkPhase.onRequestFailed, OutboundOrigin.requestedCid]
    have hflight : (blockRequested [7]).phase.inFlight.lookup (cidFromBlake3Hash blockHash) = some 7 :=
      AList.lookup_insert _
    rw [if_neg (by rw [hflight]; exact Bool.false_ne_true)]
    exact congrArg _ hfill
  have hsettle : V1Fetch.settle (blockRequested [7]).outstanding
      (blockFailed.responded.or blockFailed.failed) = [] := by
    simp [V1Fetch.settle, blockFailed, PhaseInput.responded, PhaseInput.failed, blockRequested,
      OutboundOrigin.requestedCid]
  refine ⟨⟨{ q with remaining := [] }, []⟩, ?_, rfl, rfl, hfree, rfl, rfl⟩
  unfold V1Fetch.next
  rw [hin, hsettle]
  rfl

end

/-- After the request for the only block has failed, the block is nowhere and the loop still waits. -/
theorem failed_request_drops_chunk :
    letI := Blake3.reference
    ∃ g : V1Fetch, ValidManifest (equalBlocks 1).merkleRoot (equalBlocks 1) ∧
      Run (V1Fetch.Step (blocksConfig 1)) (startV1Blocks 1) [blockFailed] g ∧
      g.outstanding = [] ∧ g.phase.remaining = [] ∧ g.phase.inFlight = ∅ ∧ g.phase.files = ∅ ∧
      g.phase.chunksFetched = 0 ∧ (blocksConfig 1).totalToFetch = 1 := by
  generalize Blake3.reference = b
  obtain ⟨g, hnext, hidle, hempty, hflight, hcount, hfiles⟩ := next_blockFailed
  refine ⟨g, equalBlocks_valid 1, ?_, hidle, hempty, hflight, hfiles, hcount, rfl⟩
  rw [startV1Blocks_one]
  apply Run.single
  exact ⟨Nat.zero_ne_one, (fun _ _ h => nomatch h), hnext⟩

end Snip
