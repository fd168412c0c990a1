/-
Every inbound request gets its answer.

The serve loop has some thirty places where a response is built by hand.  Whatever the
request, the store, the access decision, the chain and the network, exactly one of them
is reached, its response is on the protocol of the request and the requester takes it for
the answer to what it asked.  No window, slice, assertion or shift on the way panics.
-/
import Snip.Blake3
import Snip.Node.ShardDispatch

namespace Snip

open Dialogue

/-! ### What the requester accepts -/

/-- One answer, on the channel and protocol of the request, and one that it is taken for. -/
def AnsweredBy (request : ShardRequestVersioned) (channelId : Nat) (log : List Answer) : Prop :=
  ∃ response, log = [⟨channelId, response⟩] ∧ response.protocol = request.protocol ∧
    request.kind.check response = .ok ()

theorem answeredBy_v1 {request : WireShardRequest} {channelId : Nat} {resp : ShardResponse}
    (h : resp.cid = request.cid) : AnsweredBy (.v1 request) channelId [⟨channelId, .v1 resp⟩] := by
  refine ⟨.v1 resp, rfl, rfl, ?_⟩
  show (OutboundRequestKind.fromV1 request).check (.v1 resp) = .ok ()
  unfold OutboundRequestKind.fromV1
  have hcid : cidEq request.cid resp.cid = .ok () := by
    unfold cidEq
    rw [if_pos h.symm]
  split
  · exact hcid
  · split
    · exact hcid
    · exact hcid

theorem answeredBy_pull {cid : Str} {offset maxBytes channelId : Nat} {body : ShardResponse}
    (h : body.cid = cid) :
    AnsweredBy (.v2 (.pull cid offset maxBytes)) channelId [⟨channelId, .v2 (.data body)⟩] := by
  refine ⟨.v2 (.data body), rfl, rfl, ?_⟩
  show cidEq cid body.cid = .ok ()
  unfold cidEq
  rw [if_pos h.symm]

theorem answeredBy_push {data : Bytes} {root : Hash} {chunkIndex channelId : Nat}
    {path : List Hash} {error : Option Str} :
    AnsweredBy (.v2 (.push data root chunkIndex path)) channelId
      [⟨channelId, .v2 (.pushAck root chunkIndex error)⟩] := by
  refine ⟨_, rfl, rfl, ?_⟩
  simp [ShardRequestVersioned.kind, OutboundRequestKind.fromV2, OutboundRequestKind.check, rootEq,
    bind, Except.bind]

theorem answeredBy_manifestPush {root : Hash} {bytes : Bytes} {channelId : Nat}
    {error : Option Str} :
    AnsweredBy (.v2 (.manifestPush root bytes)) channelId
      [⟨channelId, .v2 (.manifestPushAck root error)⟩] := by
  refine ⟨_, rfl, rfl, ?_⟩
  simp [ShardRequestVersioned.kind, OutboundRequestKind.fromV2, OutboundRequestKind.check, rootEq]

theorem answeredBy_manifestPull {root : Hash} {bytes : Bytes} {channelId : Nat}
    {error : Option Str} :
    AnsweredBy (.v2 (.manifestPull root)) channelId
      [⟨channelId, .v2 (.manifestData root bytes error)⟩] := by
  refine ⟨_, rfl, rfl, ?_⟩
  simp [ShardRequestVersioned.kind, OutboundRequestKind.fromV2, OutboundRequestKind.check, rootEq]

/-! ### Handlers that answer -/

section

variable {σ α β : Type}

/-- The handler answers the request and returns. -/
def SentOnce (request : ShardRequestVersioned) (channelId : Nat) (m : ServeM σ (Option α)) : Prop :=
  Ensures m fun log result => AnsweredBy request channelId log ∧ result.isSome = true

theorem SentOnce.map {request : ShardRequestVersioned} {channelId : Nat} {m : ServeM σ (Option α)}
    (h : SentOnce request channelId m) (f : α → β) :
    SentOnce request channelId (m >>= fun result => pure (result.map f)) := by
  refine Ensures.bind h ?_
  rintro log result ⟨hlog, hsome⟩
  refine .pure ?_
  rw [List.append_nil, Option.isSome_map]
  exact ⟨hlog, hsome⟩

/-- The last step of most branches: respond, then return whatever the network said. -/
theorem answers_respondShard {net : RespondNet σ} {request : ShardRequestVersioned}
    {channelId : Nat} {resp : ShardResponse} {a : α}
    (h : AnsweredBy request channelId [⟨channelId, .v1 resp⟩]) :
    SentOnce request channelId (respondShard net channelId resp >>= fun _ => pure (some a)) := by
  refine Ensures.ask ?_
  intro _
  exact .pure ⟨h, rfl⟩

theorem answers_respondShardV2 {net : RespondNet σ} {request : ShardRequestVersioned}
    {channelId : Nat} {resp : ShardResponseV2} {a : α}
    (h : AnsweredBy request channelId [⟨channelId, .v2 resp⟩]) :
    SentOnce request channelId (respondShardV2 net channelId resp >>= fun _ => pure (some a)) := by
  refine Ensures.ask ?_
  intro _
  exact .pure ⟨h, rfl⟩

end

/-! ### Windows and slices -/

theorem le_saturatingAdd64 {start len : Nat} (h : start < 2 ^ 64) :
    start ≤ saturatingAdd64 start len := by
  unfold saturatingAdd64
  omega

theorem resolveChunkWindow_bounds {total : Nat} {offset maxBytes : Option Nat}
    (h : offset.getD 0 < 2 ^ 64) :
    (resolveChunkWindow total offset maxBytes).1 ≤ (resolveChunkWindow total offset maxBytes).2 ∧
      (resolveChunkWindow total offset maxBytes).2 ≤ total := by
  unfold resolveChunkWindow
  dsimp only
  have hstart := @le_saturatingAdd64 (min (offset.getD 0) total) (maxBytes.getD total) (by omega)
  omega

theorem resolveChunkWindow?_eq {total : Nat} {offset maxBytes : Option Nat}
    (h : offset.getD 0 < 2 ^ 64) :
    resolveChunkWindow? total offset maxBytes
      = some (resolveChunkWindow total offset maxBytes) := by
  obtain ⟨hle, htotal⟩ := @resolveChunkWindow_bounds total offset maxBytes h
  unfold resolveChunkWindow? debugAssert?
  simp [hle, htotal]

theorem index?_eq {data : Bytes} {start stop : Nat} (hle : start ≤ stop)
    (hstop : stop ≤ data.length) : index? data start stop = some (slice data start stop) := by
  unfold index?
  rw [if_pos ⟨hle, hstop⟩]

theorem strFrom?_utf8 (pre text : Str) : strFrom? (utf8 pre).length (pre ++ text) = some text := by
  induction pre with
  | nil =>
      cases text with
      | nil => rfl
      | cons c text => rfl
  | cons c pre ih =>
      have hlength : (utf8 (c :: pre)).length = c.utf8Size + (utf8 pre).length := by
        simp [utf8, String.length_utf8EncodeChar]
      have hpos : 0 < c.utf8Size := Char.utf8Size_pos c
      rw [List.cons_append, strFrom?, hlength, if_neg (by omega), if_pos (by omega),
        Nat.add_sub_cancel_left, ih]

/-! ### The first protocol -/

section

variable {σ : Type}

/-- The chunk request is answered with what `handle_chunk_request` selects. -/
theorem serveChunkRequest_spec (net : RespondNet σ) (store : ChunkStore) (faults : ServeFaults)
    (request : WireShardRequest) (channelId : Nat) (h : request.offset.getD 0 < 2 ^ 64) :
    Ensures (serveChunkRequest net store faults request channelId) fun log result =>
      log = [⟨channelId, .v1 (handleChunkRequest store faults.mapFails request)⟩] ∧
        result = some () := by
  unfold serveChunkRequest handleChunkRequest
  dsimp only
  cases hlook : store.lookup request.cid with
  | none =>
      refine Ensures.ask ?_
      intro _
      exact .pure ⟨rfl, rfl⟩
  | some mapped =>
  cases hmap : faults.mapFails with
  | some e =>
      refine Ensures.ask ?_
      intro _
      exact .pure ⟨rfl, rfl⟩
  | none =>
      obtain ⟨hle, hstop⟩ :=
        @resolveChunkWindow_bounds mapped.length request.offset request.maxBytes h
      simp only [resolveChunkWindow?_eq h, index?_eq hle hstop]
      refine Ensures.ask ?_
      intro _
      exact .pure ⟨rfl, rfl⟩

theorem handleChunkRequest_cid (store : ChunkStore) (mapFails : Option String)
    (request : WireShardRequest) :
    (handleChunkRequest store mapFails request).cid = request.cid := by
  unfold handleChunkRequest
  split
  · rfl
  · split
    · rfl
    · rfl

theorem serveChunkRequest_answers (net : RespondNet σ) (store : ChunkStore) (faults : ServeFaults)
    (request : WireShardRequest) (channelId : Nat) (h : request.offset.getD 0 < 2 ^ 64) :
    SentOnce (.v1 request) channelId (serveChunkRequest net store faults request channelId) := by
  refine (serveChunkRequest_spec net store faults request channelId h).mono ?_
  rintro log result ⟨rfl, rfl⟩
  exact ⟨answeredBy_v1 (handleChunkRequest_cid _ _ _), rfl⟩

theorem serveManifestRequest_answers (net : RespondNet σ) (manifestIdx : ManifestIndex)
    (faults : ServeFaults) (request : WireShardRequest) (channelId : Nat)
    (h : manifestCidPrefix.isPrefixOf request.cid = true) :
    SentOnce (.v1 request) channelId
      (serveManifestRequest net manifestIdx faults request channelId) := by
  obtain ⟨rootHex, hcid⟩ := List.isPrefixOf_iff_prefix.mp h
  have hfrom : strFrom? (utf8 manifestCidPrefix).length request.cid = some rootHex := by
    rw [← hcid]
    exact strFrom?_utf8 _ _
  unfold serveManifestRequest
  simp only [hfrom]
  split
  · exact answers_respondShard (answeredBy_v1 rfl)
  · split
    · split
      · exact answers_respondShard (answeredBy_v1 rfl)
      · exact answers_respondShard (answeredBy_v1 rfl)
    · split
      · exact answers_respondShard (answeredBy_v1 rfl)
      · exact answers_respondShard (answeredBy_v1 rfl)

/-- A request that is no push: the files stay as they are. -/
theorem handleRequest_answers [Blake3] (net : RespondNet σ) (store : SumStore)
    (faults : ServeFaults) (io : Io) (request : WireShardRequest) (channelId : Nat)
    (h : request.offset.getD 0 < 2 ^ 64) (hpull : request.pushData.isSome = false) :
    SentOnce (.v1 request) channelId
      (handleRequest net store faults io request channelId) := by
  unfold handleRequest
  rw [hpull]
  cases hmanifest : manifestCidPrefix.isPrefixOf request.cid with
  | true => exact (serveManifestRequest_answers net _ faults request channelId hmanifest).map _
  | false => exact (serveChunkRequest_answers net _ faults request channelId h).map _

theorem onV1Request_answers [Blake3] (net : RespondNet σ) (acl : AccessChecker)
    (faults : ServeFaults) (io : Io) (s : ShardDispatch) (peerId : PeerId)
    (request : WireShardRequest) (channelId : Nat) (h : request.offset.getD 0 < 2 ^ 64) :
    SentOnce (.v1 request) channelId
      (s.onV1Request net acl faults io peerId request channelId) := by
  unfold ShardDispatch.onV1Request
  dsimp only
  cases hpush : request.pushData.isSome with
  | true => exact answers_respondShard (answeredBy_v1 rfl)
  | false =>
      simp only [Bool.false_eq_true, if_false]
      split
      · exact (handleRequest_answers net s.store faults io request channelId h hpush).map _
      · exact answers_respondShard (answeredBy_v1 rfl)

/-- A push is refused, and the store is the one before. -/
theorem onV1Request_push [Blake3] (net : RespondNet σ) (acl : AccessChecker)
    (faults : ServeFaults) (io : Io) (s : ShardDispatch) (peerId : PeerId)
    (request : WireShardRequest) (channelId : Nat) (hpush : request.pushData.isSome = true) :
    Ensures (s.onV1Request net acl faults io peerId request channelId) fun log result =>
      log = [⟨channelId, .v1 (.refusal request.cid v1PushRetiredError)⟩] ∧
        ∃ s', result = some s' ∧ s'.store = s.store := by
  unfold ShardDispatch.onV1Request
  simp only [hpush, if_true]
  refine Ensures.ask ?_
  intro _
  exact .pure ⟨rfl, _, rfl, rfl⟩

end

/-! ### The second protocol -/

section

variable {σ : Type}

theorem resolvePullWindow?_isSome {total offset maxBytes : Nat} (h : offset < 2 ^ 64) :
    resolvePullWindow? total offset maxBytes = some none ∨
      ∃ stop, resolvePullWindow? total offset maxBytes = some (some (offset, stop)) ∧
        offset ≤ stop ∧ stop ≤ total := by
  unfold resolvePullWindow?
  by_cases hpast : total < offset
  · rw [if_pos hpast]
    exact .inl rfl
  · have hstart := @le_saturatingAdd64 offset maxBytes h
    have hle : offset ≤ min (saturatingAdd64 offset maxBytes) total := by omega
    have hstop : min (saturatingAdd64 offset maxBytes) total ≤ total := Nat.min_le_right _ _
    rw [if_neg hpast]
    refine .inr ⟨min (saturatingAdd64 offset maxBytes) total, ?_, hle, hstop⟩
    unfold debugAssert?
    simp only [hle, hstop, decide_true, Bool.and_self, if_true, Option.map_some]

theorem buildPullResponse_eq {acl : AccessChecker} {faults : ServeFaults} {store : SumStore}
    {peerId : PeerId} {cid : Str} {offset maxBytes : Nat} (h : offset < 2 ^ 64) :
    ∃ body, buildPullResponse acl faults store peerId cid offset maxBytes = some (.data body) ∧
      body.cid = cid := by
  unfold buildPullResponse
  split
  · exact ⟨_, rfl, rfl⟩
  · cases store.files.get cid with
    | error e => exact ⟨_, rfl, rfl⟩
    | ok full =>
        cases faults.getFails with
        | some e => exact ⟨_, rfl, rfl⟩
        | none =>
            rcases @resolvePullWindow?_isSome full.length offset maxBytes h with
              hwindow | ⟨stop, hwindow, hle, hstop⟩
            · simp only [hwindow]
              exact ⟨_, rfl, rfl⟩
            · simp only [hwindow, index?_eq hle hstop]
              exact ⟨_, rfl, rfl⟩

theorem buildManifestPullResponse_eq (acl : AccessChecker) (faults : ServeFaults)
    (store : SumStore) (peerId : PeerId) (root : Hash) :
    ∃ bytes error,
      buildManifestPullResponse acl faults store peerId root = .manifestData root bytes error := by
  unfold buildManifestPullResponse
  split
  · exact ⟨_, _, rfl⟩
  · split
    · split
      · exact ⟨_, _, rfl⟩
      · exact ⟨_, _, rfl⟩
    · split
      · exact ⟨_, _, rfl⟩
      · exact ⟨_, _, rfl⟩

/-- One acknowledgement with this error, and this dispatcher after it. -/
def AcksManifest (channelId : Nat) (root : Hash) (d : V2Dispatcher) (error : Option ManifestAckError)
    (log : List Answer) (result : Option V2Served) : Prop :=
  log = [⟨channelId, .v2 (.manifestPushAck root (error.map fun e => e.message.toList))⟩] ∧
    ∃ attest, result = some ⟨d, attest⟩

theorem ackManifest_spec (net : RespondNet σ) (channelId : Nat) (d : V2Dispatcher) (root : Hash) :
    Ensures (ackManifest net channelId d root) (AcksManifest channelId root d none) := by
  refine Ensures.ask ?_
  intro sent
  cases sent with
  | true => exact .pure ⟨rfl, _, rfl⟩
  | false => exact .pure ⟨rfl, _, rfl⟩

theorem refuseManifest_spec (net : RespondNet σ) (channelId : Nat) (d : V2Dispatcher) (root : Hash)
    (e : ManifestAckError) :
    Ensures (refuseManifest net channelId d root e) (AcksManifest channelId root d (some e)) := by
  refine Ensures.ask ?_
  intro _
  exact .pure ⟨rfl, _, rfl⟩

theorem v2DisabledResponse_answers (request : ShardRequestV2) (channelId : Nat) :
    AnsweredBy (.v2 request) channelId [⟨channelId, .v2 (v2DisabledResponse request)⟩] := by
  cases request with
  | pull cid offset maxBytes => exact answeredBy_pull rfl
  | push data root chunkIndex path => exact answeredBy_push
  | manifestPush root bytes => exact answeredBy_manifestPush
  | manifestPull root => exact answeredBy_manifestPull

/-- The manifest push is answered with the outcome of `handle_manifest_push`. -/
theorem serveManifestPush_spec [Blake3] [ManifestReader] (net : RespondNet σ) (rpc : ChainRpc) (io : Io) (d : V2Dispatcher)
    (channelId : Nat) (root : Hash) (bytes : Bytes) :
    Ensures (d.serveManifestPush net rpc io channelId root bytes)
      (AcksManifest channelId root (d.handleManifestPush rpc io root bytes).1
        (d.handleManifestPush rpc io root bytes).2) := by
  unfold V2Dispatcher.serveManifestPush V2Dispatcher.handleManifestPush
  cases fetchFileShape rpc root with
  | error e => exact refuseManifest_spec net channelId d root _
  | ok shape =>
      dsimp only
      by_cases hprivate : shape.visibility.isPrivate = true
      · rw [if_pos hprivate, if_pos hprivate]
        cases d.store.manifestIdx.getPrivateBytes root with
        | some _ => exact ackManifest_spec net channelId d root
        | none =>
            rcases d.store.manifestIdx.insertPrivate io root bytes with ⟨idx, e | _⟩
            · exact refuseManifest_spec net channelId _ root _
            · exact ackManifest_spec net channelId _ root
      · rw [if_neg hprivate, if_neg hprivate]
        cases validateManifestPush (hexEncode root.bytes) bytes with
        | error reason => exact refuseManifest_spec net channelId d root _
        | ok manifest =>
            unfold V2Dispatcher.indexManifest
            dsimp only
            cases d.store.manifestIdx.getByMerkleRoot root with
            | some _ => exact ackManifest_spec net channelId d root
            | none =>
                rcases d.store.manifestIdx.insert io manifest with ⟨idx, e | _⟩
                · exact refuseManifest_spec net channelId _ root _
                · exact ackManifest_spec net channelId _ root

variable [Blake3] [AssignmentScore] [ManifestReader]

theorem handle_answers (net : RespondNet σ) (acl : AccessChecker) (rpc : ChainRpc)
    (clock : Nat → Nat) (faults : ServeFaults) (io : ServeIo) (d : V2Dispatcher) (peerId : PeerId)
    (channelId : Nat) (request : ShardRequestV2)
    (h : ShardRequestVersioned.Fits64 (.v2 request)) :
    SentOnce (.v2 request) channelId
      (d.handle net acl rpc clock faults io peerId channelId request) := by
  cases request with
  | pull cid offset maxBytes =>
      obtain ⟨body, hbuild, hcid⟩ :=
        @buildPullResponse_eq acl faults d.store peerId cid offset maxBytes h.1
      unfold V2Dispatcher.handle
      simp only [hbuild]
      exact answers_respondShardV2 (answeredBy_pull hcid)
  | push data root chunkIndex path => exact answers_respondShardV2 answeredBy_push
  | manifestPush root bytes =>
      refine (serveManifestPush_spec net rpc io.manifest d channelId root bytes).mono ?_
      rintro log result ⟨rfl, attest, rfl⟩
      exact ⟨answeredBy_manifestPush, rfl⟩
  | manifestPull root =>
      obtain ⟨bytes, error, hbuild⟩ := buildManifestPullResponse_eq acl faults d.store peerId root
      unfold V2Dispatcher.handle
      simp only [hbuild]
      exact answers_respondShardV2 answeredBy_manifestPull

theorem onV2Request_answers (net : RespondNet σ) (acl : AccessChecker) (rpc : ChainRpc)
    (clock : Nat → Nat) (faults : ServeFaults) (io : ServeIo) (s : ShardDispatch)
    (peerId : PeerId) (request : ShardRequestV2) (channelId : Nat)
    (h : ShardRequestVersioned.Fits64 (.v2 request)) :
    SentOnce (.v2 request) channelId
      (s.onV2Request net acl rpc clock faults io peerId request channelId) := by
  unfold ShardDispatch.onV2Request
  cases s.v2 with
  | some v2 => exact (handle_answers net acl rpc clock faults io _ peerId channelId request h).map _
  | none => exact answers_respondShardV2 (v2DisabledResponse_answers request channelId)

end

/-! ### The shifts -/

theorem expectedProofDepth_le (totalLeaves : Nat) : expectedProofDepth totalLeaves ≤ 32 := by
  unfold expectedProofDepth
  split
  · exact Nat.zero_le 32
  · exact Nat.sub_le _ _

section

variable [Blake3]

theorem merkleWalk?_eq (chunkIndex : Nat) (path : List Hash) (level : Nat) (current : Hash)
    (h : level + path.length ≤ 32) :
    merkleWalk? chunkIndex level current path = some (merkleWalk chunkIndex level current path) := by
  induction path generalizing level current with
  | nil => rfl
  | cons sibling rest ih =>
      rw [List.length_cons] at h
      unfold merkleWalk? merkleWalk
      rw [if_pos (by omega)]
      split
      · exact ih (level + 1) _ (by omega)
      · exact ih (level + 1) _ (by omega)

/-- The length of the path is checked before the walk, so no shift is too wide. -/
theorem verifyForTree?_eq (chunkHash : Hash) (chunkIndex : Nat) (path : List Hash) (root : Hash)
    (totalLeaves : Nat) :
    verifyForTree? chunkHash chunkIndex path root totalLeaves
      = some (verifyMerkleProofBytesForTree chunkHash chunkIndex path root totalLeaves) := by
  unfold verifyForTree? verifyMerkleProofBytesForTree
  split
  · rfl
  split
  · rfl
  split
  · rfl
  rename_i hdepth
  split
  · rfl
  · have hle := expectedProofDepth_le totalLeaves
    rw [merkleWalk?_eq chunkIndex path 0 chunkHash (by omega)]
    rfl

theorem pushedProofVerifies?_eq (root : Hash) (chunkIndex : Nat) (proof : PushedProof) :
    pushedProofVerifies? root chunkIndex proof
      = some (pushedProofVerifies root chunkIndex proof) := by
  unfold pushedProofVerifies? pushedProofVerifies
  by_cases hlength : 32 < proof.path.length
  · rw [if_pos hlength, decide_eq_false (by omega)]
    rfl
  · rw [if_neg hlength, decide_eq_true (by omega)]
    by_cases hshift : chunkIndex >>> proof.path.length = 0
    · rw [if_neg (not_not.mpr hshift), merkleWalk?_eq chunkIndex proof.path 0 proof.leaf (by omega)]
      simp [hshift, verifyMerkleProofBytes, verifyMerkleProof]
    · rw [if_pos hshift]
      simp [hshift]

end

/-! ### Every event -/

/-- The request of an event, with the channel it waits on. -/
def InboundEvent.request? : InboundEvent → Option (ShardRequestVersioned × Nat)
  | .shardRequested _ request channelId => some (.v1 request, channelId)
  | .shardRequestedV2 _ request channelId => some (.v2 request, channelId)
  | .other _ => none

/-- What the serve loop owes a request. -/
structure ServedOnce [Blake3] (s : ShardDispatch) (request : ShardRequestVersioned)
    (channelId : Nat) (log : List Answer) (result : Option (ShardDispatch × Handled)) : Prop where
  answered : AnsweredBy request channelId log
  /-- No panic. -/
  returned : ∃ s', result = some (s', .yes)
  /-- Neither does the Merkle check of a push panic, nor that of its record. -/
  checked : (∀ chunkHash chunkIndex path root totalLeaves,
      (verifyForTree? chunkHash chunkIndex path root totalLeaves).isSome = true) ∧
    ∀ root chunkIndex proof, (pushedProofVerifies? root chunkIndex proof).isSome = true
  pushRefused : ∀ push, request = .v1 push → push.pushData.isSome = true →
    log = [⟨channelId, .v1 (.refusal push.cid v1PushRetiredError)⟩] ∧
      ∃ s', result = some (s', .yes) ∧ s'.store = s.store

section

variable {σ : Type} [Blake3] [AssignmentScore] [ManifestReader]

theorem onEvent_answers (net : RespondNet σ) (acl : AccessChecker) (rpc : ChainRpc)
    (clock : Nat → Nat) (faults : ServeFaults) (io : ServeIo) (s : ShardDispatch)
    (event : InboundEvent) (request : ShardRequestVersioned) (channelId : Nat)
    (hevent : event.request? = some (request, channelId)) (h : request.Fits64) :
    Ensures (s.onEvent net acl rpc clock faults io event) fun log result =>
      AnsweredBy request channelId log ∧ ∃ s', result = some (s', .yes) := by
  cases event with
  | shardRequested peerId req chan =>
      cases hevent
      refine Ensures.bind (onV1Request_answers net acl faults io.push.put s peerId req channelId h.1) ?_
      rintro log result ⟨hlog, hsome⟩
      obtain ⟨s', rfl⟩ := Option.isSome_iff_exists.mp hsome
      refine .pure ⟨?_, s', rfl⟩
      rw [List.append_nil]
      exact hlog
  | shardRequestedV2 peerId req chan =>
      cases hevent
      refine Ensures.bind (onV2Request_answers net acl rpc clock faults io s peerId req channelId h) ?_
      rintro log result ⟨hlog, hsome⟩
      obtain ⟨s', rfl⟩ := Option.isSome_iff_exists.mp hsome
      refine .pure ⟨?_, s', rfl⟩
      rw [List.append_nil]
      exact hlog
  | other event => cases hevent

theorem onEvent_push (net : RespondNet σ) (acl : AccessChecker) (rpc : ChainRpc)
    (clock : Nat → Nat) (faults : ServeFaults) (io : ServeIo) (s : ShardDispatch)
    (event : InboundEvent) (push : WireShardRequest) (channelId : Nat)
    (hevent : event.request? = some (.v1 push, channelId))
    (hpush : push.pushData.isSome = true) :
    Ensures (s.onEvent net acl rpc clock faults io event) fun log result =>
      log = [⟨channelId, .v1 (.refusal push.cid v1PushRetiredError)⟩] ∧
        ∃ s', result = some (s', .yes) ∧ s'.store = s.store := by
  cases event with
  | shardRequested peerId req chan =>
      cases hevent
      refine Ensures.bind
        (onV1Request_push net acl faults io.push.put s peerId push channelId hpush) ?_
      rintro log result ⟨rfl, s', rfl, hstore⟩
      exact .pure ⟨rfl, s', rfl, hstore⟩
  | shardRequestedV2 peerId req chan => cases hevent
  | other event => cases hevent

/--
**Every inbound request is answered once.**  The answer goes out on the channel and the
protocol of the request, and the record the requester made of it accepts the answer.
-/
theorem request_served_once (net : RespondNet σ) (acl : AccessChecker) (rpc : ChainRpc)
    (clock : Nat → Nat) (faults : ServeFaults) (io : ServeIo) (s : ShardDispatch)
    (event : InboundEvent) (request : ShardRequestVersioned) (channelId : Nat) (peers : σ)
    (hevent : event.request? = some (request, channelId)) (h : request.Fits64) :
    ServedOnce s request channelId (s.onEvent net acl rpc clock faults io event peers).2.1
      (s.onEvent net acl rpc clock faults io event peers).1 := by
  obtain ⟨hanswered, hreturned⟩ :=
    onEvent_answers net acl rpc clock faults io s event request channelId hevent h peers
  refine ⟨hanswered, hreturned, ⟨?_, ?_⟩, ?_⟩
  · intro chunkHash chunkIndex path root totalLeaves
    rw [verifyForTree?_eq]
    rfl
  · intro root chunkIndex proof
    rw [pushedProofVerifies?_eq]
    rfl
  · intro push hrequest hpush
    subst hrequest
    exact onEvent_push net acl rpc clock faults io s event push channelId hevent hpush peers

end

/-- An archive without a key that stores one chunk of three bytes. -/
def keylessDispatch : ShardDispatch where
  store :=
    { files := AList.singleton ['c'] [1, 2, 3]
      manifestIdx := ⟨⟨∅, ∅, ∅, [], [], some [], true⟩, ∅, ∅, ∅, ∅, [], ∅, ∅, some true⟩ }
  v2 := none
  refusals := ⟨0, 0⟩
  attestations := []

/-- The largest window there is. -/
def widestPull : WireShardRequest := ⟨['c'], some (2 ^ 64 - 1), some (2 ^ 64 - 1), none⟩

/-- A network that counts what it sends. -/
def countingNet : RespondNet Nat := ⟨fun _ _ n => (true, n + 1), fun _ _ n => (true, n + 1)⟩

theorem widestPull_fits : (ShardRequestVersioned.v1 widestPull).Fits64 := by
  constructor
  · decide
  · decide

/-- A window whose end does not fit 64 bits is answered. -/
theorem widest_pull_served :
    letI := Blake3.reference
    letI : AssignmentScore := ⟨fun _ _ _ => 0⟩
    letI : ManifestReader := ⟨fun _ => .error []⟩
    let run := keylessDispatch.onEvent countingNet (fun _ _ _ => true)
      ⟨fun _ => .ok none, fun _ => .ok [], fun _ => .ok none⟩ id ⟨none, none, none⟩
      ⟨⟨.done, .done, .done, .done, .done⟩, .done⟩ (.shardRequested 1 widestPull 7) 0
    ServedOnce keylessDispatch (.v1 widestPull) 7 run.2.1 run.1 := by
  generalize Blake3.reference = b
  let _ : AssignmentScore := ⟨fun _ _ _ => 0⟩
  let _ : ManifestReader := ⟨fun _ => .error []⟩
  exact request_served_once countingNet _ _ _ _ _ keylessDispatch (.shardRequested 1 widestPull 7)
    (.v1 widestPull) 7 0 rfl widestPull_fits

end Snip
