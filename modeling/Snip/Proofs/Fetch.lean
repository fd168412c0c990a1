/-
A chunk that is fetched piece by piece.

Whatever a peer sends, a fetch holds the bytes before its next offset and nothing
else, and what reaches the disk hashes to its name.  A peer that answers from a store
that has the chunk brings the fetch to its end in as many rounds as there are windows
in the chunk.  A peer that answers with pieces that have no bytes in them never does:
such a piece passes every check, moves nothing, and is followed by the same request
again.
-/
import Snip.Store.Serve
import Snip.Lib.Maps
import Snip.Lib.Steps
import Snip.Blake3
import Snip.Proofs.Archive

namespace Snip

/-! ### Pieces that pass -/

/-- What the checks on a piece establish. -/
structure PieceFits (response : ShardResponse) (state : FetchState) : Prop where
  total_pos : 0 < response.totalBytes
  total_le : response.totalBytes ≤ maxChunkBytes
  expected : ∀ size, state.expectedSize = some size → response.totalBytes = size
  declared : ∀ total, state.totalBytes = some total → response.totalBytes = total
  offset : response.offset = state.nextOffset
  fits : state.nextOffset + response.data.length ≤ response.totalBytes

/-- The first piece sets the total, the others repeat it. -/
theorem PieceFits.total_eq {response : ShardResponse} {state : FetchState}
    (h : PieceFits response state) :
    state.totalBytes.getD response.totalBytes = response.totalBytes := by
  cases hdeclared : state.totalBytes with
  | none => rfl
  | some total => exact (h.declared total hdeclared).symm

/-- The bound the pieces of a fetch are checked against. -/
def FetchState.maxTotal (state : FetchState) : Nat :=
  (state.expectedSize.map fun s => min s maxChunkBytes).getD maxChunkBytes

theorem FetchState.maxTotal_le (state : FetchState) : state.maxTotal ≤ maxChunkBytes := by
  unfold maxTotal
  cases state.expectedSize with
  | none => simp
  | some size => simp

theorem validateResponseMetadata_ok_iff {response : ShardResponse} {state : FetchState} :
    validateResponseMetadata response state.nextOffset state.totalBytes state.expectedSize
      state.maxTotal = .ok () ↔ PieceFits response state := by
  have hany : ∀ {o : Option Nat}, (o.any fun x => response.totalBytes ≠ x) = true ↔
      ∃ x, o = some x ∧ response.totalBytes ≠ x := by
    intro o
    cases o with
    | none => simp
    | some x => simp
  have hmax := state.maxTotal_le
  have hsmall : maxChunkBytes < 2 ^ 64 := by decide
  unfold validateResponseMetadata
  dsimp only
  constructor
  · intro h
    split at h
    · cases h
    rename_i hzero
    split at h
    · cases h
    rename_i hbound
    split at h
    · cases h
    rename_i hexpected
    split at h
    · cases h
    rename_i hdeclared
    split at h
    · cases h
    split at h
    · cases h
    rename_i hoffset
    split at h
    · cases h
    split at h
    · cases h
    rename_i hfits
    rw [hany] at hexpected hdeclared
    simp only [not_exists, not_and, not_not] at hexpected hdeclared
    exact ⟨Nat.pos_of_ne_zero hzero, by omega, hexpected, hdeclared, not_not.mp hoffset, by omega⟩
  · intro h
    have hle : ¬ response.totalBytes > state.maxTotal := by
      have htotal := h.total_le
      unfold FetchState.maxTotal
      cases hsize : state.expectedSize with
      | none => simpa using htotal
      | some size =>
          have := h.expected size hsize
          simp only [Option.map_some, Option.getD_some]
          omega
    have hexpected : ¬ (state.expectedSize.any fun x => response.totalBytes ≠ x) = true := by
      rw [hany]
      rintro ⟨x, hx, hne⟩
      exact hne (h.expected x hx)
    have hdeclared : ¬ (state.totalBytes.any fun x => response.totalBytes ≠ x) = true := by
      rw [hany]
      rintro ⟨x, hx, hne⟩
      exact hne (h.declared x hx)
    have hpos := h.total_pos
    have hfits := h.fits
    have htotal := h.total_le
    rw [if_neg (by omega), if_neg hle, if_neg hexpected, if_neg hdeclared, if_neg (by omega),
      if_neg (not_not.mpr h.offset), if_neg (by omega), if_neg (by omega)]

/-! ### What a response can do -/

namespace FetchManager

/-- The manager without the fetch of `cid`. -/
def drop (f : FetchManager) (cid : Str) : FetchManager := { f with active := f.active.erase cid }

/-- A fetch after one more piece. -/
def advance (state : FetchState) (response : ShardResponse) : FetchState :=
  ⟨state.peerId, some response.totalBytes, state.nextOffset + response.data.length,
    state.buffer ++ response.data, state.expectedSize⟩

/-- The manager after one more piece of the fetch of `response.cid`. -/
def keep (f : FetchManager) (state : FetchState) (response : ShardResponse) : FetchManager :=
  { f with active := f.active.insert response.cid (advance state response) }

variable [Blake3]

/-- The four ways a response is dealt with. -/
inductive Deals (f : FetchManager) (io : Io) (files : ChunkStore) (response : ShardResponse) :
    Received → Prop
  | unknown (msg : String) (hnone : f.active.lookup response.cid = none) :
      Deals f io files response ⟨f, files, none, .failed response.cid msg⟩
  | dropped (msg : String) :
      Deals f io files response ⟨f.drop response.cid, files, none, .failed response.cid msg⟩
  | continued (state : FetchState) (hstate : f.active.lookup response.cid = some state)
      (herror : response.error = none) (hfits : PieceFits response state)
      (hmore : state.nextOffset + response.data.length < response.totalBytes) :
      Deals f io files response ⟨f.keep state response, files,
        some ⟨state.peerId, response.cid, state.nextOffset + response.data.length, f.chunkSize⟩,
        .inProgress⟩
  | finished (state : FetchState) (hstate : f.active.lookup response.cid = some state)
      (herror : response.error = none) (hfits : PieceFits response state)
      (hdone : state.nextOffset + response.data.length = response.totalBytes) :
      Deals f io files response ⟨f.drop response.cid,
        (finish files io response.cid (state.buffer ++ response.data)).1, none,
        (finish files io response.cid (state.buffer ++ response.data)).2⟩

/-- **Every response is dealt with in one of the four ways.** -/
theorem onChunkReceived_deals (f : FetchManager) (sent : Bool) (io : Io) (files : ChunkStore)
    (response : ShardResponse) :
    Deals f io files response (f.onChunkReceived sent io files response) := by
  unfold onChunkReceived
  cases herror : response.error with
  | some err => exact .dropped _
  | none =>
      dsimp only
      cases hstate : f.active.lookup response.cid with
      | none => exact .unknown _ hstate
      | some state =>
          dsimp only
          cases hcheck : validateResponseMetadata response state.nextOffset state.totalBytes
              state.expectedSize
              ((state.expectedSize.map fun s => min s maxChunkBytes).getD maxChunkBytes) with
          | error msg => exact .dropped _
          | ok u =>
              have hfits : PieceFits response state := validateResponseMetadata_ok_iff.mp hcheck
              dsimp only
              rw [hfits.total_eq, hfits.offset]
              by_cases hmore : state.nextOffset + response.data.length < response.totalBytes
              · rw [if_pos hmore]
                cases sent with
                | true => exact .continued state hstate herror hfits hmore
                | false => exact .dropped _
              · rw [if_neg hmore]
                exact .finished state hstate herror hfits
                  (Nat.le_antisymm hfits.fits (Nat.not_lt.mp hmore))

/-- Where the swarm takes the next request, a fitting piece is not dropped. -/
theorem onChunkReceived_fits {f : FetchManager} (io : Io) (files : ChunkStore)
    {response : ShardResponse} {state : FetchState}
    (hstate : f.active.lookup response.cid = some state) (herror : response.error = none)
    (hfits : PieceFits response state) :
    f.onChunkReceived true io files response =
      if state.nextOffset + response.data.length < response.totalBytes then
        ⟨f.keep state response, files,
          some ⟨state.peerId, response.cid, state.nextOffset + response.data.length, f.chunkSize⟩,
          .inProgress⟩
      else
        ⟨f.drop response.cid, (finish files io response.cid (state.buffer ++ response.data)).1, none,
          (finish files io response.cid (state.buffer ++ response.data)).2⟩ := by
  have hcheck := validateResponseMetadata_ok_iff.mpr hfits
  unfold onChunkReceived
  rw [herror, hstate]
  dsimp only
  unfold FetchState.maxTotal at hcheck
  rw [hcheck]
  dsimp only
  rw [hfits.total_eq, hfits.offset]
  rfl

end FetchManager

/-! ### The two ends of an honest fetch -/

/-- A fetch and the request that is out for it, with what was said of the answers so far. -/
structure Exchange where
  manager : FetchManager
  files : ChunkStore
  request : Option ShardRequest
  outcomes : List FetchOutcome

namespace Exchange

variable [Blake3]

/-- One round: the request is answered from `remote`, and the answer is taken in. -/
def round (remote : ChunkStore) (x : Exchange) : Exchange :=
  match x.request with
  | none => x
  | some request =>
      let got := x.manager.onChunkReceived true .done x.files
        (handleChunkRequest remote none request.wire)
      ⟨got.manager, got.files, got.request, x.outcomes ++ [got.outcome]⟩

def rounds (remote : ChunkStore) : Nat → Exchange → Exchange
  | 0, x => x
  | n + 1, x => rounds remote n (x.round remote)

omit [Blake3] in
/-- The answer to a request inside the chunk is the window, as far as the chunk goes. -/
theorem handleChunkRequest_inside {remote : ChunkStore} {cid : Str} {d : Bytes}
    (hremote : remote.lookup cid = some d) (hsize : d.length ≤ maxChunkBytes) {offset : Nat}
    (hoffset : offset < d.length) (peerId : PeerId) (w : Nat) :
    handleChunkRequest remote none (ShardRequest.wire ⟨peerId, cid, offset, w⟩)
      = ⟨cid, offset, d.length, (d.drop offset).take w, none⟩ := by
  have hsmall : maxChunkBytes < 2 ^ 64 - 1 := by decide
  have hstart : min offset d.length = offset := Nat.min_eq_left (Nat.le_of_lt hoffset)
  have hstop : min (saturatingAdd64 offset w) d.length = min (offset + w) d.length := by
    unfold saturatingAdd64
    omega
  have hslice : slice d offset (min (offset + w) d.length) = (d.drop offset).take w := by
    unfold slice
    rw [List.take_eq_take_iff, List.length_drop]
    omega
  unfold handleChunkRequest ShardRequest.wire resolveChunkWindow
  simp only [hremote, Option.getD_some, hstart, hstop, hslice]

/-- The fetch of `d` has everything before `offset` and asks for the next window. -/
structure Fetching (x : Exchange) (d : Bytes) (offset : Nat) : Prop where
  state : ∃ peerId total expected,
    x.manager.active.lookup (cidFromData d) = some ⟨peerId, total, offset, d.take offset, expected⟩ ∧
    x.request = some ⟨peerId, cidFromData d, offset, x.manager.chunkSize⟩ ∧
    (∀ t, total = some t → t = d.length) ∧ ∀ e, expected = some e → e = d.length
  local_ok : ∀ e, x.files.lookup (cidFromData d) = some e → e = d

variable {remote : ChunkStore} {d : Bytes} {x : Exchange} {offset : Nat}

omit [Blake3] in
theorem window_fits (peerId : PeerId) (cid : Str) {total expected : Option Nat}
    (hsize : d.length ≤ maxChunkBytes) (hoffset : offset < d.length)
    (htotal : ∀ t, total = some t → t = d.length) (hexpected : ∀ e, expected = some e → e = d.length)
    (w : Nat) :
    PieceFits ⟨cid, offset, d.length, (d.drop offset).take w, none⟩
      ⟨peerId, total, offset, d.take offset, expected⟩ := by
  refine ⟨by dsimp only; omega, hsize, ?_, ?_, rfl, ?_⟩
  · intro size h
    exact (hexpected size h).symm
  · intro t h
    exact (htotal t h).symm
  · show offset + ((d.drop offset).take w).length ≤ d.length
    rw [List.length_take, List.length_drop]
    omega

/-- What a round makes of the next window. -/
theorem round_eq {peerId : PeerId} {total expected : Option Nat}
    (hstate : x.manager.active.lookup (cidFromData d)
      = some ⟨peerId, total, offset, d.take offset, expected⟩)
    (hrequest : x.request = some ⟨peerId, cidFromData d, offset, x.manager.chunkSize⟩)
    (htotal : ∀ t, total = some t → t = d.length) (hexpected : ∀ e, expected = some e → e = d.length)
    (hremote : remote.lookup (cidFromData d) = some d) (hsize : d.length ≤ maxChunkBytes)
    (hoffset : offset < d.length) :
    let piece := (d.drop offset).take x.manager.chunkSize
    x.round remote =
      if offset + piece.length < d.length then
        ⟨x.manager.keep ⟨peerId, total, offset, d.take offset, expected⟩
            ⟨cidFromData d, offset, d.length, piece, none⟩,
          x.files, some ⟨peerId, cidFromData d, offset + piece.length, x.manager.chunkSize⟩,
          x.outcomes ++ [.inProgress]⟩
      else
        ⟨x.manager.drop (cidFromData d),
          (FetchManager.finish x.files .done (cidFromData d) (d.take offset ++ piece)).1, none,
          x.outcomes ++
            [(FetchManager.finish x.files .done (cidFromData d) (d.take offset ++ piece)).2]⟩ := by
  intro piece
  have hfits := window_fits peerId (cidFromData d) hsize hoffset htotal hexpected
    x.manager.chunkSize
  have hreceived := FetchManager.onChunkReceived_fits .done x.files hstate rfl hfits
  unfold round
  rw [hrequest]
  dsimp only
  rw [handleChunkRequest_inside hremote hsize hoffset, hreceived]
  split
  · rfl
  · rfl

/-- A window that ends before the chunk does leads to the next one. -/
theorem Fetching.continues (h : x.Fetching d offset)
    (hremote : remote.lookup (cidFromData d) = some d) (hsize : d.length ≤ maxChunkBytes)
    (hmore : offset + x.manager.chunkSize < d.length) :
    (x.round remote).Fetching d (offset + x.manager.chunkSize) ∧
      (x.round remote).outcomes = x.outcomes ++ [.inProgress] ∧
      (x.round remote).manager.chunkSize = x.manager.chunkSize ∧
      ∀ c, c ≠ cidFromData d →
        (x.round remote).manager.active.lookup c = x.manager.active.lookup c := by
  obtain ⟨peerId, total, expected, hstate, hrequest, htotal, hexpected⟩ := h.state
  have hlen : ((d.drop offset).take x.manager.chunkSize).length = x.manager.chunkSize := by
    rw [List.length_take, List.length_drop]
    omega
  have hround := round_eq hstate hrequest htotal hexpected hremote hsize (by omega)
  dsimp only at hround
  rw [hlen, if_pos hmore] at hround
  rw [hround]
  refine ⟨⟨⟨peerId, some d.length, expected, ?_, rfl, ?_, hexpected⟩, h.local_ok⟩, rfl, rfl, ?_⟩
  · unfold FetchManager.keep FetchManager.advance
    rw [AList.lookup_insert]
    dsimp only
    rw [hlen, List.take_add]
  · intro t ht
    exact (Option.some.inj ht).symm
  · intro c hc
    exact AList.lookup_insert_ne hc

/-- The last window completes the fetch. -/
theorem Fetching.completes (h : x.Fetching d offset)
    (hremote : remote.lookup (cidFromData d) = some d) (hsize : d.length ≤ maxChunkBytes)
    (hoffset : offset < d.length) (hlast : d.length ≤ offset + x.manager.chunkSize) :
    (x.round remote).outcomes = x.outcomes ++ [.complete (cidFromData d) d.length] ∧
      (x.round remote).request = none ∧
      (x.round remote).files.lookup (cidFromData d) = some d ∧
      (x.round remote).manager = x.manager.drop (cidFromData d) := by
  obtain ⟨peerId, total, expected, hstate, hrequest, htotal, hexpected⟩ := h.state
  have hpiece : (d.drop offset).take x.manager.chunkSize = d.drop offset :=
    List.take_of_length_le (by rw [List.length_drop]; omega)
  have hround := round_eq hstate hrequest htotal hexpected hremote hsize hoffset
  dsimp only at hround
  rw [hpiece, List.length_drop, if_neg (by omega), List.take_append_drop] at hround
  have hfinish : ∃ files, FetchManager.finish x.files .done (cidFromData d) d
      = (files, .complete (cidFromData d) d.length) ∧ files.lookup (cidFromData d) = some d := by
    unfold FetchManager.finish ChunkStore.put
    rw [if_neg (not_not.mpr rfl), if_neg (not_not.mpr rfl)]
    cases hlook : x.files.lookup (cidFromData d) with
    | none => exact ⟨_, rfl, AList.lookup_insert _⟩
    | some e =>
        obtain rfl := h.local_ok e hlook
        dsimp only
        rw [if_neg (not_not.mpr rfl)]
        exact ⟨_, rfl, hlook⟩
  obtain ⟨files, hfinish, hfiles⟩ := hfinish
  rw [hround, hfinish]
  exact ⟨rfl, rfl, hfiles, rfl⟩

/-- All rounds: `m` windows and a last one that is not empty. -/
theorem Fetching.rounds_complete (m : Nat) :
    ∀ {x : Exchange} {offset : Nat}, x.Fetching d offset →
      remote.lookup (cidFromData d) = some d → d.length ≤ maxChunkBytes →
      m * x.manager.chunkSize < d.length - offset →
      d.length - offset ≤ (m + 1) * x.manager.chunkSize →
      (x.rounds remote (m + 1)).outcomes
          = x.outcomes ++ (List.replicate m .inProgress ++ [.complete (cidFromData d) d.length]) ∧
        (x.rounds remote (m + 1)).request = none ∧
        (x.rounds remote (m + 1)).files.lookup (cidFromData d) = some d ∧
        ∀ c, (x.rounds remote (m + 1)).manager.active.lookup c
          = if c = cidFromData d then none else x.manager.active.lookup c := by
  induction m with
  | zero =>
      intro x offset h hremote hsize hlow hhigh
      obtain ⟨hout, hreq, hfiles, hman⟩ := h.completes hremote hsize (by omega) (by omega)
      refine ⟨hout, hreq, hfiles, fun c => ?_⟩
      show (x.round remote).manager.active.lookup c = _
      rw [hman]
      exact Maps.lookup_erase _ _ _
  | succ m ih =>
      intro x offset h hremote hsize hlow hhigh
      rw [Nat.add_mul, Nat.one_mul] at hlow hhigh
      obtain ⟨hnext, hout, hchunk, hother⟩ := h.continues hremote hsize (by omega)
      obtain ⟨houts, hreq, hfiles, hman⟩ := ih hnext hremote hsize (by rw [hchunk]; omega)
        (by rw [hchunk]; omega)
      refine ⟨?_, hreq, hfiles, fun c => ?_⟩
      · show (rounds remote (m + 1) (x.round remote)).outcomes = _
        rw [houts, hout, List.replicate_succ]
        simp
      · show (rounds remote (m + 1) (x.round remote)).manager.active.lookup c = _
        rw [hman]
        by_cases hc : c = cidFromData d
        · rw [if_pos hc, if_pos hc]
        · rw [if_neg hc, if_neg hc, hother c hc]

end Exchange

/--
**A fetch from a peer that has the chunk completes in as many rounds as there are
windows.**  All answers but the last lead on, the last one completes the fetch, no
request is out after it, the chunk is on the disk and the other fetches are as they
were.
-/
theorem honest_fetch_completes [Blake3] {f : FetchManager} (files remote : ChunkStore) {d : Bytes}
    {expectedSize : Option Nat} (peerId : PeerId) (hd : d ≠ []) (hsize : d.length ≤ maxChunkBytes)
    (hwindow : 1 ≤ f.chunkSize) (hidle : f.isActive (cidFromData d) = false)
    (hremote : remote.lookup (cidFromData d) = some d)
    (hlocal : ∀ e, files.lookup (cidFromData d) = some e → e = d)
    (hexpected : expectedSize = none ∨ expectedSize = some d.length) :
    ∃ g request,
      f.startFetchWithExpectedSize true peerId (cidFromData d) expectedSize = .ok (g, request) ∧
      let n := (d.length + f.chunkSize - 1) / f.chunkSize
      let done := Exchange.rounds remote n ⟨g, files, some request, []⟩
      done.outcomes = List.replicate (n - 1) .inProgress ++ [.complete (cidFromData d) d.length] ∧
      done.request = none ∧
      done.files.lookup (cidFromData d) = some d ∧
      ∀ c, done.manager.active.lookup c = f.active.lookup c := by
  have hpos : 0 < d.length := List.length_pos_iff.mpr hd
  have hnone : f.active.lookup (cidFromData d) = none := by
    unfold FetchManager.isActive at hidle
    simpa using hidle
  let started : FetchState := ⟨peerId, none, 0, [], expectedSize⟩
  let g : FetchManager := { f with active := f.active.insert (cidFromData d) started }
  have hstart : f.startFetchWithExpectedSize true peerId (cidFromData d) expectedSize
      = .ok (g, ⟨peerId, cidFromData d, 0, f.chunkSize⟩) := by
    unfold FetchManager.startFetchWithExpectedSize
    rw [hidle]
    rfl
  refine ⟨g, _, hstart, ?_⟩
  intro n done
  -- the last window holds byte `d.length - 1`
  obtain ⟨m, hm, hlow, hhigh⟩ : ∃ m, n = m + 1 ∧ m * f.chunkSize < d.length ∧
      d.length ≤ (m + 1) * f.chunkSize := by
    refine ⟨(d.length - 1) / f.chunkSize, ?_, ?_, ?_⟩
    · show (d.length + f.chunkSize - 1) / f.chunkSize = _
      rw [show d.length + f.chunkSize - 1 = d.length - 1 + f.chunkSize by omega,
        Nat.add_div_right _ hwindow]
    · have := Nat.div_mul_le_self (d.length - 1) f.chunkSize
      omega
    · have := Nat.lt_div_mul_add (a := d.length - 1) hwindow
      rw [Nat.add_mul]
      omega
  have hfetching : Exchange.Fetching
      ⟨g, files, some ⟨peerId, cidFromData d, 0, f.chunkSize⟩, []⟩ d 0 := by
    refine ⟨⟨peerId, none, expectedSize, AList.lookup_insert _, rfl, ?_, ?_⟩, hlocal⟩
    · intro t ht
      cases ht
    · intro e he
      rcases hexpected with h | h
      · rw [h] at he
        cases he
      · rw [h] at he
        exact (Option.some.inj he).symm
  obtain ⟨houts, hreq, hfiles, hman⟩ := Exchange.Fetching.rounds_complete m hfetching hremote hsize
    (by simpa using hlow) (by simpa using hhigh)
  rw [← hm] at houts hreq hfiles hman
  refine ⟨?_, hreq, hfiles, ?_⟩
  · rw [houts, hm]
    rfl
  · intro c
    rw [hman]
    by_cases hc : c = cidFromData d
    · rw [if_pos hc, hc, hnone]
    · rw [if_neg hc]
      exact AList.lookup_insert_ne hc

/-- Three bytes through a window of two: one answer leads on, the second completes. -/
theorem three_bytes_in_two_rounds :
    letI := Blake3.reference
    ∃ g request, (⟨2, ∅⟩ : FetchManager).startFetchWithExpectedSize true 7 (cidFromData [1, 2, 3])
        (some 3) = .ok (g, request) ∧
      (Exchange.rounds ((∅ : ChunkStore).insert (cidFromData [1, 2, 3]) [1, 2, 3]) 2
        ⟨g, ∅, some request, []⟩).outcomes = [.inProgress, .complete (cidFromData [1, 2, 3]) 3] := by
  let := Blake3.reference
  obtain ⟨g, request, hstart, houts, -⟩ := honest_fetch_completes (f := ⟨2, ∅⟩) (d := [1, 2, 3]) ∅ _
    7 (by decide) (by decide) (by decide) rfl (AList.lookup_insert _) (fun e he => by cases he)
    (Or.inr rfl)
  exact ⟨g, request, hstart, houts⟩

/-! ### Runs with any peer -/

/-- A manager and the files it writes to. -/
structure FetchSystem where
  manager : FetchManager
  files : ChunkStore

inductive FetchCall where
  | start (sent : Bool) (peerId : PeerId) (cid : Str) (expectedSize : Option Nat)
  | response (sent : Bool) (io : Io) (response : ShardResponse)

namespace FetchSystem

variable [Blake3]

/-- A call, and the request it sends. -/
def step (s : FetchSystem) : FetchCall → FetchSystem × Option ShardRequest
  | .start sent peerId cid expectedSize =>
      match s.manager.startFetchWithExpectedSize sent peerId cid expectedSize with
      | .ok (manager, request) => (⟨manager, s.files⟩, some request)
      | .error _ => (s, none)
  | .response sent io response =>
      let got := s.manager.onChunkReceived sent io s.files response
      (⟨got.manager, got.files⟩, got.request)

/-- Calls one after the other, and the requests they send. -/
def run (s : FetchSystem) : List FetchCall → FetchSystem × List ShardRequest
  | [] => (s, [])
  | call :: calls =>
      let (next, request) := s.step call
      let (last, requests) := run next calls
      (last, request.toList ++ requests)

end FetchSystem

/-- What a fetch holds: nothing, or the bytes before its next offset. -/
structure FetchState.Sound (state : FetchState) : Prop where
  fresh : state.totalBytes = none → state.nextOffset = 0 ∧ state.buffer = []
  begun : ∀ total, state.totalBytes = some total →
    state.buffer.length = state.nextOffset ∧ state.nextOffset < total ∧ total ≤ maxChunkBytes

theorem FetchState.Sound.length_eq {state : FetchState} (h : state.Sound) :
    state.buffer.length = state.nextOffset := by
  cases htotal : state.totalBytes with
  | none =>
      rw [(h.fresh htotal).1, (h.fresh htotal).2]
      rfl
  | some total => exact (h.begun total htotal).1

theorem FetchState.sound_fresh (peerId : PeerId) (expectedSize : Option Nat) :
    FetchState.Sound ⟨peerId, none, 0, [], expectedSize⟩ := by
  refine ⟨fun _ => ⟨rfl, rfl⟩, ?_⟩
  intro total htotal
  cases htotal

/-- Every fetch is sound. -/
def FetchManager.Sound (f : FetchManager) : Prop :=
  ∀ cid state, f.active.lookup cid = some state → state.Sound

namespace FetchManager

variable {f : FetchManager}

theorem Sound.drop (h : f.Sound) (cid : Str) : (f.drop cid).Sound := by
  intro c state hc
  exact h c state (Maps.lookup_erase_some.mp hc).2

theorem Sound.insert (h : f.Sound) {state : FetchState} (hstate : state.Sound) (cid : Str) :
    Sound { f with active := f.active.insert cid state } := by
  intro c found hc
  rcases Maps.lookup_insert_some.mp hc with ⟨-, rfl⟩ | ⟨-, hold⟩
  · exact hstate
  · exact h c found hold

theorem advance_sound {state : FetchState} {response : ShardResponse} (h : state.Sound)
    (hfits : PieceFits response state)
    (hmore : state.nextOffset + response.data.length < response.totalBytes) :
    (advance state response).Sound := by
  refine ⟨fun hnone => (nomatch hnone), fun total htotal => ?_⟩
  obtain rfl : response.totalBytes = total := Option.some.inj htotal
  refine ⟨?_, hmore, hfits.total_le⟩
  show (state.buffer ++ response.data).length = state.nextOffset + response.data.length
  rw [List.length_append, h.length_eq]

theorem startFetch_cases (f : FetchManager) (sent : Bool) (peerId : PeerId) (cid : Str)
    (expectedSize : Option Nat) :
    (∃ e, f.startFetchWithExpectedSize sent peerId cid expectedSize = .error e) ∨
    f.startFetchWithExpectedSize sent peerId cid expectedSize
      = .ok ({ f with active := f.active.insert cid ⟨peerId, none, 0, [], expectedSize⟩ },
        ⟨peerId, cid, 0, f.chunkSize⟩) := by
  unfold startFetchWithExpectedSize
  split
  · exact Or.inl ⟨_, rfl⟩
  · split
    · exact Or.inl ⟨_, rfl⟩
    · exact Or.inr rfl

variable [Blake3]

variable {io : Io} {files : ChunkStore} {response : ShardResponse} {got : Received}

theorem Deals.sound (hdeals : Deals f io files response got) (h : f.Sound) : got.manager.Sound := by
  cases hdeals with
  | unknown msg hnone => exact h
  | dropped msg => exact h.drop _
  | continued state hstate herror hfits hmore =>
      exact h.insert (advance_sound (h _ _ hstate) hfits hmore) _
  | finished state hstate herror hfits hdone => exact h.drop _

/-- A response is about one fetch only. -/
theorem Deals.others (hdeals : Deals f io files response got) {cid : Str} (hc : cid ≠ response.cid) :
    got.manager.active.lookup cid = f.active.lookup cid := by
  cases hdeals with
  | unknown msg hnone => rfl
  | dropped msg => exact AList.lookup_erase_ne hc
  | continued state hstate herror hfits hmore => exact AList.lookup_insert_ne hc
  | finished state hstate herror hfits hdone => exact AList.lookup_erase_ne hc

/-- The end of a fetch writes nothing but bytes under their own name. -/
theorem finish_written (files : ChunkStore) (io : Io) (cid : Str) (buffer : Bytes) {c : Str}
    {data : Bytes} (h : (finish files io cid buffer).1.lookup c = some data) :
    files.lookup c = some data ∨ (c = cid ∧ cidFromData data = c) := by
  unfold finish at h
  split at h
  · exact Or.inl h
  · have hput : (files.put io cid buffer).1.lookup c = some data := by
      split at h
      · rename_i hres
        rw [hres]
        exact h
      · rename_i hres
        rw [hres]
        exact h
    rcases (put_cases io files cid buffer).1 with hsame | ⟨hins, -, hcid⟩
    · rw [hsame] at hput
      exact Or.inl hput
    · rw [hins] at hput
      rcases Maps.lookup_insert_some.mp hput with ⟨rfl, rfl⟩ | ⟨-, hold⟩
      · exact Or.inr ⟨rfl, hcid⟩
      · exact Or.inl hold

theorem Deals.written (hdeals : Deals f io files response got) {c : Str} {data : Bytes}
    (h : got.files.lookup c = some data) :
    files.lookup c = some data ∨ (c = response.cid ∧ cidFromData data = c) := by
  cases hdeals with
  | unknown msg hnone => exact Or.inl h
  | dropped msg => exact Or.inl h
  | continued state hstate herror hfits hmore => exact Or.inl h
  | finished state hstate herror hfits hdone => exact finish_written files io _ _ h

/-- The outcome of a finished fetch is final. -/
theorem finish_ne_inProgress (files : ChunkStore) (io : Io) (cid : Str) (buffer : Bytes) :
    (finish files io cid buffer).2 ≠ .inProgress := by
  unfold finish
  split
  · exact fun h => nomatch h
  · split
    · exact fun h => nomatch h
    · exact fun h => nomatch h

/-- A response that leads on moves the fetch by the bytes it carries. -/
theorem Deals.progress (hdeals : Deals f io files response got) (h : got.outcome = .inProgress) :
    ∃ before after, f.active.lookup response.cid = some before ∧
      got.manager.active.lookup response.cid = some after ∧
      after.nextOffset = before.nextOffset + response.data.length := by
  cases hdeals with
  | unknown msg hnone => cases h
  | dropped msg => cases h
  | continued state hstate herror hfits hmore =>
      exact ⟨state, _, hstate, AList.lookup_insert _, rfl⟩
  | finished state hstate herror hfits hdone => exact absurd h (finish_ne_inProgress _ _ _ _)

end FetchManager

/-! ### How often a fetch asks -/

/-- The bytes a fetch may still ask for; the largest chunk while the total is not known. -/
def FetchManager.budget (f : FetchManager) (cid : Str) : Nat :=
  match f.active.lookup cid with
  | none => 0
  | some state => state.totalBytes.getD maxChunkBytes - state.nextOffset

/-- An answer in the fetch of `cid` that is not an error carries bytes, and `cid` is not started. -/
def FetchCall.Feeds (cid : Str) : FetchCall → Prop
  | .start _ _ c _ => c ≠ cid
  | .response _ _ piece => piece.cid = cid → piece.error = none → piece.data ≠ []

/-- How many of the requests are for `cid`. -/
def requestsFor (cid : Str) (requests : List ShardRequest) : Nat :=
  requests.countP fun r => r.cid = cid

namespace FetchSystem

variable [Blake3] {s : FetchSystem} {cid : Str}

theorem step_sound (h : s.manager.Sound) (call : FetchCall) : (s.step call).1.manager.Sound := by
  cases call with
  | start sent peerId c expectedSize =>
      rcases s.manager.startFetch_cases sent peerId c expectedSize with ⟨e, herror⟩ | hok
      · simp only [step, herror]
        exact h
      · simp only [step, hok]
        exact h.insert (FetchState.sound_fresh peerId expectedSize) c
  | response sent io response =>
      exact (FetchManager.onChunkReceived_deals s.manager sent io s.files response).sound h

theorem run_sound (h : s.manager.Sound) (calls : List FetchCall) :
    (s.run calls).1.manager.Sound := by
  induction calls generalizing s with
  | nil => exact h
  | cons call calls ih => exact ih (step_sound h call)

/-- A request for `cid` is paid for with a byte. -/
theorem step_budget {call : FetchCall} (hfeeds : call.Feeds cid) :
    (s.step call).1.manager.budget cid + requestsFor cid (s.step call).2.toList
      ≤ s.manager.budget cid := by
  cases call with
  | start sent peerId c expectedSize =>
      have hc : c ≠ cid := hfeeds
      rcases s.manager.startFetch_cases sent peerId c expectedSize with ⟨e, herror⟩ | hok
      · simp [step, herror, requestsFor]
      · simp [step, hok, requestsFor, FetchManager.budget, AList.lookup_insert_ne hc.symm, hc]
  | response sent io response =>
      have hdeals := FetchManager.onChunkReceived_deals s.manager sent io s.files response
      show (s.manager.onChunkReceived sent io s.files response).manager.budget cid +
        requestsFor cid (s.manager.onChunkReceived sent io s.files response).request.toList ≤ _
      generalize s.manager.onChunkReceived sent io s.files response = got at hdeals
      by_cases hc : cid = response.cid
      · subst hc
        cases hdeals with
        | unknown msg hnone => simp [requestsFor]
        | dropped msg => simp [requestsFor, FetchManager.budget, FetchManager.drop]
        | continued state hstate herror hfits hmore =>
            have hdata : 0 < response.data.length :=
              List.length_pos_iff.mpr (hfeeds rfl herror)
            have htotal : response.totalBytes ≤ state.totalBytes.getD maxChunkBytes := by
              cases hdeclared : state.totalBytes with
              | none => exact hfits.total_le
              | some total => exact Nat.le_of_eq (hfits.declared total hdeclared)
            simp only [FetchManager.budget, FetchManager.keep, FetchManager.advance,
              AList.lookup_insert, hstate, Option.getD_some, Option.toList_some, requestsFor,
              List.countP_singleton, decide_true, if_true]
            omega
        | finished state hstate herror hfits hdone =>
            simp [requestsFor, FetchManager.budget, FetchManager.drop]
      · have hsame := hdeals.others hc
        have hnone : requestsFor cid got.request.toList = 0 := by
          cases hdeals with
          | continued state hstate herror hfits hmore => simp [requestsFor, Ne.symm hc]
          | _ => simp [requestsFor]
        rw [hnone]
        unfold FetchManager.budget
        rw [hsame]
        exact Nat.le_refl _

/-- Over a whole run, the requests for `cid` stay within the budget it starts with. -/
theorem run_budget {s : FetchSystem} {calls : List FetchCall}
    (hfeeds : ∀ call ∈ calls, call.Feeds cid) :
    (s.run calls).1.manager.budget cid + requestsFor cid (s.run calls).2 ≤ s.manager.budget cid := by
  induction calls generalizing s with
  | nil => simp [run, requestsFor]
  | cons call calls ih =>
      have hstep := step_budget (s := s) (hfeeds call (by simp))
      have hrest := ih (s := (s.step call).1) fun c hc => hfeeds c (by simp [hc])
      show ((s.step call).1.run calls).1.manager.budget cid +
        requestsFor cid ((s.step call).2.toList ++ ((s.step call).1.run calls).2) ≤ _
      have happend : requestsFor cid ((s.step call).2.toList ++ ((s.step call).1.run calls).2)
          = requestsFor cid (s.step call).2.toList
            + requestsFor cid ((s.step call).1.run calls).2 := List.countP_append
      omega

end FetchSystem

/--
**A fetch is bounded, touches nothing else, and moves by the bytes it is given.**  In
every state that calls lead to from a new manager, a fetch holds the bytes before its
next offset, below a total of at most one chunk.  A response leaves every other fetch
as it is and writes bytes under their own name only; when it leads on, the next offset
grows exactly if the response carries bytes.  While the answers to one fetch carry
bytes, it asks no more often than there are bytes left in its total.
-/
theorem fetch_bounded [Blake3] (w : Nat) (files : ChunkStore) (calls : List FetchCall) :
    let s := (FetchSystem.run ⟨⟨w, ∅⟩, files⟩ calls).1
    (∀ cid state total, s.manager.active.lookup cid = some state → state.totalBytes = some total →
      state.buffer.length = state.nextOffset ∧ state.nextOffset ≤ total ∧ total ≤ maxChunkBytes) ∧
    (∀ sent io response,
      let got := s.manager.onChunkReceived sent io s.files response
      (∀ cid, cid ≠ response.cid →
        got.manager.active.lookup cid = s.manager.active.lookup cid) ∧
      (∀ cid data, got.files.lookup cid = some data →
        s.files.lookup cid = some data ∨ (cid = response.cid ∧ cidFromData data = cid)) ∧
      (got.outcome = .inProgress → ∃ before after,
        s.manager.active.lookup response.cid = some before ∧
        got.manager.active.lookup response.cid = some after ∧
        (before.nextOffset < after.nextOffset ↔ response.data ≠ []))) ∧
    ∀ cid state total more, s.manager.active.lookup cid = some state →
      state.totalBytes = some total → (∀ call ∈ more, call.Feeds cid) →
      requestsFor cid (s.run more).2 ≤ total := by
  intro s
  have hsound : s.manager.Sound := by
    refine FetchSystem.run_sound ?_ calls
    intro cid state hstate
    cases hstate
  refine ⟨?_, ?_, ?_⟩
  · intro cid state total hstate htotal
    obtain ⟨hlen, hlt, hmax⟩ := (hsound cid state hstate).begun total htotal
    exact ⟨hlen, Nat.le_of_lt hlt, hmax⟩
  · intro sent io response got
    have hdeals := FetchManager.onChunkReceived_deals s.manager sent io s.files response
    refine ⟨fun cid hc => hdeals.others hc, fun cid data h => hdeals.written h, fun h => ?_⟩
    obtain ⟨before, after, hbefore, hafter, hnext⟩ := hdeals.progress h
    refine ⟨before, after, hbefore, hafter, ?_⟩
    rw [hnext, ← List.length_pos_iff]
    omega
  · intro cid state total more hstate htotal hfeeds
    have hrun := FetchSystem.run_budget (s := s) hfeeds
    have hbudget : s.manager.budget cid = total - state.nextOffset := by
      unfold FetchManager.budget
      rw [hstate]
      dsimp only
      rw [htotal]
      rfl
    omega

/-- A piece at the start of a chunk of one byte, without the byte. -/
def emptyPiece : ShardResponse := ⟨['c'], 0, 1, [], none⟩

/--
An empty piece leads on and leaves the fetch where it was; three of them after the
first make three requests for a chunk of one byte.
-/
theorem empty_pieces_ask_again :
    letI := Blake3.reference
    let s := (FetchSystem.run ⟨⟨1, ∅⟩, ∅⟩
      [.start true 7 ['c'] none, .response true .done emptyPiece]).1
    let got := s.manager.onChunkReceived true .done s.files emptyPiece
    s.manager.active.lookup ['c'] = some ⟨7, some 1, 0, [], none⟩ ∧
    got.outcome = .inProgress ∧
    got.manager.active.lookup ['c'] = some ⟨7, some 1, 0, [], none⟩ ∧
    requestsFor ['c'] (s.run (List.replicate 3 (.response true .done emptyPiece))).2 = 3 := by
  intro s got
  exact ⟨rfl, rfl, rfl, rfl⟩

end Snip
