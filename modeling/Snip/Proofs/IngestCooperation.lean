/-
What it means that everyone helps with an ingest.

What an ingest may count on depends on how far it has come.  The row of the file is there
once its registration is final; an archive that is a target of a chunk takes it then; the
coverage becomes complete some polls after every archive has acknowledged chunks and
manifest, and not before.  So each promise is made about moments: states of the chain and
the network, with the calls that led there.  What else the network has to tell is
arbitrary, refusals of pushes included.
-/
import Snip.Proofs.IngestRun
import Snip.Proofs.PeerDiscovery

namespace Snip

open Dialogue

/-! ### Moments -/

section

variable {σ : Type}

/-- The call, with its answer, and what becomes of the environment by it. -/
def IngestEnv.Answers (env : IngestEnv σ) (s : σ) : IngestCall → σ → Prop
  | .blockHeight answer, s' => env.chainGetBlockHeight s = (answer, s')
  | .activeNodes height answer, s' => env.storageGetActiveNodesAtHeight height s = (answer, s')
  | .fileInfo rootHex answer, s' => env.storageGetFileInfoV2 rootHex s = (answer, s')
  | .coverage rootHex offset answer, s' =>
      ∃ limit, env.coverage.storageGetAssignmentCoverageV2 rootHex offset limit s = (answer, s')
  | .nonce addrB58 answer, s' => env.getNonce addrB58 s = (answer, s')
  | .v1Root rootHex answer, s' => env.v1RootRegistered rootHex s = (answer, s')
  | .submission (.sendRaw signedTxHex answer), s' =>
      env.submission.sendRawTransaction signedTxHex s = (answer, s')
  | .submission (.txStatus txHash answer), s' =>
      env.submission.getTransactionStatus txHash s = (answer, s')
  -- the rest of that interface is no call of an ingest
  | .submission _, _ => False
  | .push peer request answer, s' => env.push peer request s = (answer, s')
  | .wake wake, s' => env.nextEvent s = (wake, s')

/-- A moment of the environment, counted from this state. -/
abbrev IngestEnv.Moment (env : IngestEnv σ) (start : σ) := Dialogue.Moment env.Answers start

end

/-- Further calls, none of them about a transaction. -/
def Later (past past' : List IngestCall) : Prop := ∃ log, past' = past ++ log ∧ Silent log

section

variable {past past' past'' : List IngestCall}

theorem Later.refl (past : List IngestCall) : Later past past :=
  ⟨[], (List.append_nil past).symm, quiet_nil⟩

theorem Later.call {call : IngestCall} (hcall : call.submission? = none) :
    Later past (past ++ [call]) :=
  ⟨[call], rfl, quiet_cons.mpr ⟨hcall, quiet_nil⟩⟩

theorem Later.trans (h : Later past past') (h' : Later past' past'') : Later past past'' := by
  obtain ⟨log, rfl, hquiet⟩ := h
  obtain ⟨log', rfl, hquiet'⟩ := h'
  exact ⟨log ++ log', List.append_assoc past log log', quiet_append.mpr ⟨hquiet, hquiet'⟩⟩

theorem Later.isPrefix (h : Later past past') : past <+: past' := by
  obtain ⟨log, rfl, -⟩ := h
  exact List.prefix_append past log

theorem Later.mem (h : Later past past') {call : IngestCall} (hcall : call ∈ past) :
    call ∈ past' :=
  h.isPrefix.subset hcall

/-- A stage that submits nothing. -/
theorem Later.of_goes {σ δ α : Type} {step : σ → IngestCall → σ → Prop} {start : σ}
    {m m' : Moment step start} {stage : ExceptT δ (Dialogue σ IngestCall) α} {a : α}
    {K : List IngestCall → α → Prop} (hgoes : Goes stage m a m')
    (hstage : Gathers IngestCall.submission? stage K) : Later m.past m'.past := by
  obtain ⟨log, hpast, hquiet, -⟩ := hgoes.gathers hstage
  exact ⟨log, hpast, hquiet⟩

end

/-! ### The peers that are known -/

/-- Events, one in each turn of the wait. -/
def turnsOf (events : List SumNetEvent) : List (Wake × Nat) := events.map fun e => (.event e, 0)

theorem wakesOf_events (events : List SumNetEvent) :
    wakesOf (events.map fun e => .wake (.event e)) = turnsOf events := by
  unfold wakesOf turnsOf
  rw [List.filterMap_map]
  exact congrFun List.filterMap_eq_map events

/-- The peer was known for the archive at some time. -/
def Found (peers : MapPeerResolver) (a : Addr) (peer : PeerId) (past : List IngestCall) : Prop :=
  ∃ before, before <+: past ∧ (peers.heard before).resolve a = some peer

theorem Found.later {peers : MapPeerResolver} {a : Addr} {peer : PeerId}
    {past past' : List IngestCall} (h : Found peers a peer past) (hlater : Later past past') :
    Found peers a peer past' := by
  obtain ⟨before, hbefore, hpeer⟩ := h
  exact ⟨before, hbefore.trans hlater.isPrefix, hpeer⟩

/-! ### How far the ingest has come -/

namespace Ingest

section

variable {σ : Type} [Blake3] [Bs58] [SumchainWire] [CryptoLib] [FileLifecycleWire]
  [AssignmentScore] {c : Ingest σ} {r : Registration} {peers : MapPeerResolver}
  {snapshot : List Addr} {past past' : List IngestCall}

/-- One of the two transactions of the run. -/
def Own (c : Ingest σ) (r : Registration) (txHex : Str) : Prop :=
  ∃ nonce, txHex = c.registers r nonce ∨ txHex = c.activates r nonce

/-- The registration was sent, nothing else, and seen final. -/
def Registered (c : Ingest σ) (r : Registration) (past : List IngestCall) : Prop :=
  ∃ nonce txHash height, sentOf past = [c.registers r nonce] ∧
    .submission (.sendRaw (c.registers r nonce) (.ok txHash)) ∈ past ∧
    .submission (.txStatus txHash (.ok (.finalized height))) ∈ past

/-- The row of the file, and the archives of the height it names. -/
def Assigned (file : ReproducedFile) (snapshot : List Addr) (past : List IngestCall) : Prop :=
  ∃ info raw, .fileInfo (fileRootHex file.manifest.merkleRoot) (.ok (some info)) ∈ past ∧
    .activeNodes info.assignmentHeight (.ok raw) ∈ past ∧ decodeSnapshot raw = some snapshot

/-- The file is registered, and these are its archives. -/
def Opened (c : Ingest σ) (r : Registration) (snapshot : List Addr) (past : List IngestCall) :
    Prop :=
  c.Registered r past ∧ Assigned r.file snapshot past

/-- The peer is one that was found for an archive of the chunk. -/
def Wanted (c : Ingest σ) (r : Registration) (peers : MapPeerResolver) (key : Nat × PeerId)
    (past : List IngestCall) : Prop :=
  ∃ snapshot, c.Opened r snapshot past ∧ key.1 < r.file.manifest.chunkCount ∧
    ∃ a ∈ assignedArchives r.file.manifest.merkleRoot snapshot key.1
      c.params.assignmentReplicationFactor, Found peers a key.2 past

/-- The peer was found for an archive of the file, and the chunks are with all of these. -/
def WantsManifest (c : Ingest σ) (r : Registration) (peers : MapPeerResolver) (peer : PeerId)
    (past : List IngestCall) : Prop :=
  ∃ snapshot peers', c.Opened r snapshot past ∧
    Replicated c r.file snapshot (Finset.range r.file.manifest.chunkCount) peers' past ∧
    ∃ a ∈ fileArchives c r.file snapshot, Found peers a peer past

/-- Every chunk and the manifest are with the archives of the file. -/
def Distributed (c : Ingest σ) (r : Registration) (past : List IngestCall) : Prop :=
  ∃ snapshot peers', c.Opened r snapshot past ∧
    c.Placed r.file snapshot (Finset.range r.file.manifest.chunkCount) peers' past

/-- The chain has said that the file can be activated. -/
def Coverable (r : Registration) (past : List IngestCall) : Prop :=
  ∃ cov, .coverage (fileRootHex r.file.manifest.merkleRoot) none (.ok (some cov)) ∈ past ∧
    cov.canActivateNow = true

omit [Blake3] [Bs58] [AssignmentScore] in
theorem Registered.later (h : c.Registered r past) (hlater : Later past past') :
    c.Registered r past' := by
  obtain ⟨nonce, txHash, height, hsent, hsend, hfinal⟩ := h
  refine ⟨nonce, txHash, height, ?_, hlater.mem hsend, hlater.mem hfinal⟩
  obtain ⟨log, rfl, hquiet⟩ := hlater
  rw [sentOf_append, hsent, sentOf_silent hquiet]
  rfl

omit [Blake3] [Bs58] [AssignmentScore] in
theorem Opened.later (h : c.Opened r snapshot past) (hlater : Later past past') :
    c.Opened r snapshot past' := by
  obtain ⟨hregistered, info, raw, hinfo, hraw, hdecode⟩ := h
  exact ⟨hregistered.later hlater, info, raw, hlater.mem hinfo, hlater.mem hraw, hdecode⟩

omit [Blake3] [Bs58] in
theorem Wanted.later {key : Nat × PeerId} (h : c.Wanted r peers key past)
    (hlater : Later past past') : c.Wanted r peers key past' := by
  obtain ⟨snapshot, hopened, hlt, a, ha, hfound⟩ := h
  exact ⟨snapshot, hopened.later hlater, hlt, a, ha, hfound.later hlater⟩

omit [Bs58] in
theorem WantsManifest.later {peer : PeerId} (h : c.WantsManifest r peers peer past)
    (hlater : Later past past') : c.WantsManifest r peers peer past' := by
  obtain ⟨snapshot, peers', hopened, hreplicated, a, ha, hfound⟩ := h
  exact ⟨snapshot, peers', hopened.later hlater,
    hreplicated.of_sublist hlater.isPrefix.sublist, a, ha, hfound.later hlater⟩

omit [Bs58] in
theorem Distributed.later (h : c.Distributed r past) (hlater : Later past past') :
    c.Distributed r past' := by
  obtain ⟨snapshot, peers', hopened, hplaced⟩ := h
  exact ⟨snapshot, peers', hopened.later hlater, hplaced.of_sublist hlater.isPrefix.sublist⟩

end

end Ingest

/-! ### What is to come -/

/-- A refused push: it is sent again, and acknowledged again. -/
def SumNetEvent.refusal : SumNetEvent → Bool
  | .shardReceivedV2 _ (.pushAck _ _ (some _)) _ => true
  | _ => false

/-- The events that are to come, with one more for each refusal. -/
def toHear (queue : List SumNetEvent) : Nat := queue.length + queue.countP SumNetEvent.refusal

theorem toHear_cons (event : SumNetEvent) (later : List SumNetEvent) :
    toHear later + 1 ≤ toHear (event :: later) := by
  unfold toHear
  rw [List.length_cons, List.countP_cons]
  omega

/-- The answer of the peer is one more of the events to come, anywhere among them. -/
def Delivers (peer : PeerId) (response : ShardResponseV2) (queue queue' : List SumNetEvent) :
    Prop :=
  ∃ before after origin, queue = before ++ after ∧
    queue' = before ++ .shardReceivedV2 peer response origin :: after

section

variable {peer : PeerId} {response : ShardResponseV2} {queue queue' : List SumNetEvent}

theorem Delivers.mem (h : Delivers peer response queue queue') :
    ∃ origin, .shardReceivedV2 peer response origin ∈ queue' := by
  obtain ⟨before, after, origin, -, rfl⟩ := h
  exact ⟨origin, List.mem_append_right _ (List.mem_cons_self ..)⟩

theorem Delivers.keeps (h : Delivers peer response queue queue') {event : SumNetEvent}
    (hevent : event ∈ queue) : event ∈ queue' := by
  obtain ⟨before, after, origin, rfl, rfl⟩ := h
  rcases List.mem_append.mp hevent with hmem | hmem
  · exact List.mem_append_left _ hmem
  · exact List.mem_append_right _ (List.mem_cons_of_mem _ hmem)

theorem Delivers.toHear (h : Delivers peer response queue queue')
    (haccepts : ∀ origin, (SumNetEvent.shardReceivedV2 peer response origin).refusal = false) :
    toHear queue' = toHear queue + 1 := by
  obtain ⟨before, after, origin, rfl, rfl⟩ := h
  unfold Snip.toHear
  rw [List.length_append, List.length_append, List.length_cons, List.countP_append,
    List.countP_append, List.countP_cons, haccepts origin]
  simp only [Bool.false_eq_true, if_false]
  omega

end

section

variable {σ : Type} {queue : σ → List SumNetEvent} {polls : σ → Nat} {s s' s'' : σ}

/-- The queue is as it was, and no more polls are needed than before. -/
structure Calm (queue : σ → List SumNetEvent) (polls : σ → Nat) (s s' : σ) : Prop where
  queue : queue s' = queue s
  polls : polls s' ≤ polls s

theorem Calm.trans (h : Calm queue polls s s') (h' : Calm queue polls s' s'') :
    Calm queue polls s s'' :=
  ⟨h'.queue.trans h.queue, h'.polls.trans h.polls⟩

/-- What is on its way is not lost, and `n` answers are added to it. -/
structure Sends (queue : σ → List SumNetEvent) (polls : σ → Nat) (n : Nat) (s s' : σ) : Prop where
  polls : polls s' ≤ polls s
  keeps : ∀ event ∈ queue s, event ∈ queue s'
  toHear : toHear (queue s') ≤ toHear (queue s) + n

theorem Sends.refl (s : σ) : Sends queue polls 0 s s := ⟨le_refl _, fun _ h => h, le_refl _⟩

theorem Sends.trans {n m : Nat} (h : Sends queue polls n s s') (h' : Sends queue polls m s' s'') :
    Sends queue polls (n + m) s s'' := by
  refine ⟨h'.polls.trans h.polls, fun event hevent => h'.keeps event (h.keeps event hevent), ?_⟩
  have hfirst := h.toHear
  have hthen := h'.toHear
  omega

theorem Delivers.sends {peer : PeerId} {response : ShardResponseV2}
    (h : Delivers peer response (queue s) (queue s')) (hpolls : polls s' ≤ polls s)
    (haccepts : ∀ origin, (SumNetEvent.shardReceivedV2 peer response origin).refusal = false) :
    Sends queue polls 1 s s' :=
  ⟨hpolls, fun _ => h.keeps, (h.toHear haccepts).le⟩

end

/-- An answer that ends the wait, or one poll less to make. -/
def Patient {α : Type} (done again : α → Prop) (polls : Nat) (answer : α) (polls' : Nat) : Prop :=
  done answer ∨ again answer ∧ polls' < polls

/-! ### The promises -/

/-- The call has just told this height: of the chain, or of the file's row. -/
def IngestCall.TellsHeight (height : Nat) : IngestCall → Prop
  | .blockHeight (.ok head) => head = height
  | .fileInfo _ (.ok (some info)) => info.assignmentHeight = height
  | _ => False

section

variable {σ : Type} [CryptoLib] [AssignmentScore]

/-- Every archive of the file. -/
def Ingest.archivesOf (c : Ingest σ) (file : ReproducedFile) (snapshot : List Addr) :
    Finset Addr :=
  requiredArchives file.manifest.merkleRoot snapshot (List.range file.manifest.chunkCount)
    c.params.assignmentReplicationFactor

/--
There are archives enough for every chunk, and each of them has a peer, or will have one
some events from now.  An archive that changes its peer meanwhile has to say so: discovery
knows one peer of it.
-/
structure Placeable (c : Ingest σ) (file : ReproducedFile) (peers : MapPeerResolver)
    (snapshot : List Addr) (queue : List SumNetEvent) : Prop where
  archives : c.params.assignmentReplicationFactor ≤ snapshot.toFinset.card
  found : ∃ before after, queue = before ++ after ∧ ∀ a ∈ c.archivesOf file snapshot,
    ((peers.after (turnsOf before)).resolve a).isSome = true ∧
      ¬ Orphaned peers (turnsOf before) a

/--
Everyone helps with this file.  `queue` is what the network is going to tell, and `polls`
how often the chain still answers that something is not done yet.
-/
structure Cooperates [Blake3] [Bs58] [SumchainWire] [FileLifecycleWire] (c : Ingest σ)
    (r : Registration) (peers : MapPeerResolver) (queue : σ → List SumNetEvent) (polls : σ → Nat)
    (start : σ) : Prop where
  enabled : ∃ enabledAt, c.params.v2EnabledFromHeight = some enabledAt ∧
    ∀ m : c.env.Moment start, ∃ height s',
      c.env.Answers m.state (.blockHeight (.ok height)) s' ∧ enabledAt ≤ height ∧
        Calm queue polls m.state s'
  /-- Before anything is pushed, of a height that was told just now. -/
  nodes : ∀ (m : c.env.Moment start) (height : Nat),
    (∃ call, m.past.getLast? = some call ∧ call.TellsHeight height) →
    (∀ peer request answer, .push peer request answer ∉ m.past) →
    ∃ raw snapshot s', c.env.Answers m.state (.activeNodes height (.ok raw)) s' ∧
      decodeSnapshot raw = some snapshot ∧
      Placeable c r.file (peers.heard m.past) snapshot (queue m.state) ∧
      Calm queue polls m.state s'
  nonce : ∀ m : c.env.Moment start, ∃ nonce s',
    c.env.Answers m.state (.nonce c.myAddrBase58 (.ok nonce)) s' ∧ Calm queue polls m.state s'
  /-- As the first transaction, under the nonce that was told just now. -/
  takesRegistration : ∀ (m : c.env.Moment start) (nonce : Nat),
    m.past.getLast? = some (.nonce c.myAddrBase58 (.ok nonce)) → sentOf m.past = [] →
    ∃ txHash s',
      c.env.Answers m.state (.submission (.sendRaw (c.registers r nonce) (.ok txHash))) s' ∧
        Calm queue polls m.state s'
  /-- A transaction that was taken becomes final. -/
  finalizes : ∀ (m : c.env.Moment start) (txHex txHash : Str), c.Own r txHex →
    .submission (.sendRaw txHex (.ok txHash)) ∈ m.past →
    ∃ status s', c.env.Answers m.state (.submission (.txStatus txHash (.ok status))) s' ∧
      Calm queue polls m.state s' ∧
      Patient (fun status => ∃ height, status = .finalized height)
        (fun status => status.settled? = none) (polls m.state) status (polls s')
  row : ∀ m : c.env.Moment start, c.Registered r m.past → ∃ info s',
    c.env.Answers m.state
      (.fileInfo (fileRootHex r.file.manifest.merkleRoot) (.ok (some info))) s' ∧
    Calm queue polls m.state s'
  acksChunk : ∀ (m : c.env.Moment start) (key : Nat × PeerId) (request : ShardRequestV2),
    c.Wanted r peers key m.past →
    pushRequest r.file.manifest r.file.mapped r.file.tree key.1 = some request →
    ∃ s', c.env.Answers m.state (.push key.2 request (.ok ())) s' ∧ polls s' ≤ polls m.state ∧
      Delivers key.2 (.pushAck r.file.manifest.merkleRoot key.1 none) (queue m.state) (queue s')
  acksManifest : ∀ (m : c.env.Moment start) (peer : PeerId), c.WantsManifest r peers peer m.past →
    ∃ s', c.env.Answers m.state
        (.push peer (manifestPushRequest r.file.manifest (some r.file.manifestBytes)) (.ok ())) s' ∧
      polls s' ≤ polls m.state ∧
      Delivers peer (.manifestPushAck r.file.manifest.merkleRoot none) (queue m.state) (queue s')
  covers : ∀ m : c.env.Moment start, c.Distributed r m.past → ∃ answer s',
    c.env.coverage.storageGetAssignmentCoverageV2 (fileRootHex r.file.manifest.merkleRoot) none none
      m.state = (answer, s') ∧ Calm queue polls m.state s' ∧
    Patient (fun answer => ∃ cov, answer = .ok (some cov) ∧ cov.canActivateNow = true)
      (fun answer => answer ≠ .ok none) (polls m.state) answer (polls s')
  takesActivation : ∀ (m : c.env.Moment start) (nonce : Nat),
    m.past.getLast? = some (.nonce c.myAddrBase58 (.ok nonce)) → c.Distributed r m.past →
    Ingest.Coverable r m.past →
    ∃ txHash s',
      c.env.Answers m.state (.submission (.sendRaw (c.activates r nonce) (.ok txHash))) s' ∧
        Calm queue polls m.state s'
  tells : ∀ (m : c.env.Moment start) (event : SumNetEvent) (rest : List SumNetEvent),
    queue m.state = event :: rest → ∃ s', c.env.Answers m.state (.wake (.event event)) s' ∧
      polls s' ≤ polls m.state ∧ queue s' = rest

end

/-! ### Time enough -/

/-- The wait reads the clock as often as it has to, and never late. -/
structure InTime (clock : List Nat) (wait readings : Nat) : Prop where
  enough : readings ≤ clock.tail.length
  early : ∀ now ∈ clock.tail, now < clock.headD 0 + wait

theorem InTime.mono {clock : List Nat} {wait n m : Nat} (h : InTime clock wait n) (hle : m ≤ n) :
    InTime clock wait m :=
  ⟨hle.trans h.enough, h.early⟩

section

variable {σ : Type} [CryptoLib] {c : Ingest σ} {file : ReproducedFile}

/-- How many pushes of chunks a whole file takes. -/
def pushesOf (c : Ingest σ) (file : ReproducedFile) : Nat :=
  file.manifest.chunkCount * c.params.assignmentReplicationFactor

/-- The readings of each wait: the events that are to come, and an answer to each push. -/
structure ClocksSuffice (c : Ingest σ) (file : ReproducedFile) (clock : IngestClock)
    (polls toHear : Nat) : Prop where
  patience : 0 < c.params.discoveryTimeout
  discovery : InTime clock.discovery c.params.discoveryTimeout toHear
  registration : InTime clock.registration c.params.finalityTimeout polls
  pushDiscovery : InTime clock.pushDiscovery c.params.discoveryTimeout toHear
  push : InTime clock.push c.params.pushWaitSecs (toHear + pushesOf c file)
  manifestPush : InTime clock.manifestPush c.params.manifestPushWaitSecs
    (toHear + pushesOf c file + pushesOf c file)
  coverage : InTime clock.coverage c.params.activationWaitSecs polls
  activation : InTime clock.activation c.params.finalityTimeout polls

theorem ClocksSuffice.mono {clock : IngestClock} {n n' m m' : Nat}
    (h : ClocksSuffice c file clock n m) (hpolls : n' ≤ n) (hqueue : m' ≤ m) :
    ClocksSuffice c file clock n' m' where
  patience := h.patience
  discovery := h.discovery.mono hqueue
  registration := h.registration.mono hpolls
  pushDiscovery := h.pushDiscovery.mono hqueue
  push := h.push.mono (Nat.add_le_add_right hqueue _)
  manifestPush := h.manifestPush.mono (Nat.add_le_add_right (Nat.add_le_add_right hqueue _) _)
  coverage := h.coverage.mono hpolls
  activation := h.activation.mono hpolls

end

end Snip
