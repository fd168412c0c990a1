/-
What each stage of an ingest leaves in the log.

A stage that submits nothing is quiet about transactions, however it ends.  The one that
does submit ends with one transaction and the polls about it, and the last poll says how
the transaction ended.
-/
import Snip.Node.IngestRun
import Snip.Proofs.Attestor
import Snip.Proofs.PeerDiscovery

namespace Snip

open Dialogue

/-! ### The wait for a transaction -/

/-- How the last answer of a wait becomes its result. -/
def Settles : Except String TxStatusV2 → Except TxWaitError Nat → Prop
  | .error e, result => result = .error (.rpc e)
  | .ok status, result =>
      status.settled? = some result ∨
        status.settled? = none ∧
          (result = .error (.timeout status) ∨ result = .error .waiting)

section

variable {σ : Type}

/-- A wait polls until an answer settles it; the answers before that one decide nothing. -/
theorem waitForFinalized_settles (rpc : ReassignRpc σ) (txHash : Str) (deadline : Nat)
    (clock : List Nat) :
    Ensures (waitForFinalized rpc txHash deadline clock) fun log result =>
      ∃ polls last, log = polls ++ [.txStatus txHash last] ∧
        (∀ p ∈ polls, Unsettled txHash p) ∧ Settles last result := by
  induction clock with
  | nil =>
      refine Ensures.ask ?_
      intro answer
      cases answer with
      | error e => exact Ensures.pure ⟨[], .error e, rfl, nofun, rfl⟩
      | ok status =>
          refine Ensures.pure ⟨[], .ok status, rfl, nofun, ?_⟩
          cases hsettled : status.settled? with
          | none => exact Or.inr ⟨hsettled, Or.inr rfl⟩
          | some result => exact Or.inl hsettled
  | cons now clock ih =>
      refine Ensures.ask ?_
      intro answer
      cases answer with
      | error e => exact Ensures.pure ⟨[], .error e, rfl, nofun, rfl⟩
      | ok status =>
          dsimp only
          cases hsettled : status.settled? with
          | some result => exact Ensures.pure ⟨[], .ok status, rfl, nofun, Or.inl hsettled⟩
          | none =>
              by_cases hdeadline : deadline ≤ now
              · simp only [if_pos hdeadline]
                exact Ensures.pure
                  ⟨[], .ok status, rfl, nofun, Or.inr ⟨hsettled, Or.inl rfl⟩⟩
              · simp only [if_neg hdeadline]
                refine Ensures.mono ih ?_
                intro log result hlog
                obtain ⟨polls, last, rfl, hpolls, hlast⟩ := hlog
                refine ⟨.txStatus txHash (.ok status) :: polls, last, rfl, ?_, hlast⟩
                intro p hp
                rcases List.mem_cons.mp hp with rfl | hp
                · exact ⟨status, rfl, hsettled⟩
                · exact hpolls p hp

theorem settles_ok {last : Except String TxStatusV2} {height : Nat}
    (h : Settles last (.ok height)) : last = .ok (.finalized height) := by
  cases last with
  | error e => cases h
  | ok status =>
      rcases h with h | ⟨-, h | h⟩
      · rw [settled_ok_iff.mp h]
      · cases h
      · cases h

/-! ### Logs -/

/-- No call about a transaction. -/
abbrev Silent (log : List IngestCall) : Prop := Quiet IngestCall.submission? log

/-- The push of a chunk: which one, and to whom. -/
def IngestCall.chunkPush? : IngestCall → Option (Nat × PeerId)
  | .push peer (.push _ _ chunkIndex _) _ => some (chunkIndex, peer)
  | _ => none

/-- No chunk is pushed. -/
abbrev Pushless (log : List IngestCall) : Prop := Quiet IngestCall.chunkPush? log

/-- Nothing but what is heard of the network. -/
def Hears (log : List IngestCall) : Prop := ∀ call ∈ log, ∃ w, call = .wake w

theorem Hears.pushless {log : List IngestCall} (h : Hears log) : Pushless log := by
  intro call hcall
  obtain ⟨w, rfl⟩ := h call hcall
  rfl

/-- One transaction, sent and polled; `last` is the answer that ended the wait. -/
def Polled (buildTx : Nat → Str) (nonce : Nat) (txHash : Str) (last : Except String TxStatusV2)
    (log : List IngestCall) : Prop :=
  ∃ addrB58 polls, (∀ p ∈ polls, Unsettled txHash p) ∧
    log = .nonce addrB58 (.ok nonce) ::
      (RpcCall.sendRaw (buildTx nonce) (.ok txHash) :: (polls ++ [.txStatus txHash last])).map
        .submission

/-- How a submission ends early: not sent, refused by the call, or not final. -/
def SubmitEnds (buildTx : Nat → Str) (log : List IngestCall) : Stop SubmitError → Prop
  | .early (.nonceQuery _) => Silent log
  | .early (.send e) => ∃ addrB58 nonce,
      log = [.nonce addrB58 (.ok nonce), .submission (.sendRaw (buildTx nonce) (.error e))]
  | .early (.wait txHash e) => ∃ nonce last, Polled buildTx nonce txHash last log ∧
      Settles last (.error e) ∧ e ≠ .waiting
  | .waiting => ∃ nonce txHash last, Polled buildTx nonce txHash last log ∧
      Settles last (.error .waiting)
  | .panicked => False

/-- The transactions of a log. -/
def sentOf (log : List IngestCall) : List Str := log.filterMap IngestCall.sent?

theorem sentOf_append (log log' : List IngestCall) :
    sentOf (log ++ log') = sentOf log ++ sentOf log' :=
  List.filterMap_append

theorem sentOf_silent {log : List IngestCall} (h : Silent log) : sentOf log = [] := by
  refine List.filterMap_eq_nil_iff.mpr ?_
  intro call hcall
  unfold IngestCall.sent?
  rw [h call hcall]
  rfl

theorem sentOf_submissions (calls : List RpcCall) :
    sentOf (calls.map .submission) = calls.filterMap RpcCall.sent? := by
  unfold sentOf
  rw [List.filterMap_map]
  rfl

theorem Polled.sent {buildTx : Nat → Str} {nonce : Nat} {txHash : Str}
    {last : Except String TxStatusV2} {log : List IngestCall}
    (h : Polled buildTx nonce txHash last log) : sentOf log = [buildTx nonce] := by
  obtain ⟨addrB58, polls, hpolls, rfl⟩ := h
  have hsent := sent_polled (buildTx nonce) txHash (.ok txHash) last hpolls
  rw [← sentOf_submissions] at hsent
  exact hsent

/-- Nothing is heard while a transaction is sent and polled. -/
theorem Polled.wakeless {buildTx : Nat → Str} {nonce : Nat} {txHash : Str}
    {last : Except String TxStatusV2} {log : List IngestCall}
    (h : Polled buildTx nonce txHash last log) (wake : Wake) : .wake wake ∉ log := by
  obtain ⟨addrB58, polls, -, rfl⟩ := h
  intro hmem
  rcases List.mem_cons.mp hmem with h | hmem
  · cases h
  · obtain ⟨call, -, h⟩ := List.mem_map.mp hmem
    cases h

/-- Nothing is pushed while a transaction is sent and polled. -/
theorem Polled.pushless {buildTx : Nat → Str} {nonce : Nat} {txHash : Str}
    {last : Except String TxStatusV2} {log : List IngestCall}
    (h : Polled buildTx nonce txHash last log) (peer : PeerId) (request : ShardRequestV2)
    (answer : Except Str Unit) : .push peer request answer ∉ log := by
  obtain ⟨addrB58, polls, -, rfl⟩ := h
  intro hmem
  rcases List.mem_cons.mp hmem with h | hmem
  · cases h
  · obtain ⟨call, -, h⟩ := List.mem_map.mp hmem
    cases h

end

/-! ### The peers that are known -/

/-- What was heard of the network. -/
def wakesOf (past : List IngestCall) : List (Wake × Nat) :=
  past.filterMap fun
    | .wake wake => some (wake, 0)
    | _ => none

/-- The resolver, with everything heard so far. -/
def MapPeerResolver.heard (peers : MapPeerResolver) (past : List IngestCall) : MapPeerResolver :=
  peers.after (wakesOf past)

section

variable {peers : MapPeerResolver}

theorem MapPeerResolver.after_append (past past' : List (Wake × Nat)) :
    peers.after (past ++ past') = (peers.after past).after past' := by
  unfold after mapAfter
  rw [List.foldl_append]

theorem MapPeerResolver.heard_append (past past' : List IngestCall) :
    peers.heard (past ++ past') = (peers.heard past).heard past' := by
  unfold heard wakesOf
  rw [List.filterMap_append, MapPeerResolver.after_append]

/-- Nothing is heard in calls that wait for nothing. -/
theorem MapPeerResolver.heard_of_wakeless {past log : List IngestCall}
    (h : ∀ wake, .wake wake ∉ log) : peers.heard (past ++ log) = peers.heard past := by
  have hnone : wakesOf log = [] := by
    refine List.filterMap_eq_nil_iff.mpr ?_
    intro call hcall
    cases call with
    | wake wake => exact absurd hcall (h wake)
    | _ => rfl
  rw [MapPeerResolver.heard_append]
  unfold heard
  rw [hnone]
  rfl

end

namespace Ingest

section

variable {σ ε : Type} [CryptoLib] {c : Ingest σ}

/-! ### Submitting -/

variable [Blake3] [Bs58] [SumchainWire]

theorem submit_spec (buildTx : Nat → Str) (clock : List Nat) :
    Exits (c.submit buildTx clock)
      (fun log done => ∃ nonce, Polled buildTx nonce done.1 (.ok (.finalized done.2)) log)
      (SubmitEnds buildTx) := by
  refine Exits.bind Exits.query ?_ ?_
  · intro log e hlog
    obtain ⟨reason, rfl, rfl⟩ := hlog
    exact quiet_cons.mpr ⟨rfl, quiet_nil⟩
  intro log nonce hlog
  subst hlog
  refine Exits.bind Exits.query ?_ ?_
  · intro log e hlog
    obtain ⟨reason, rfl, rfl⟩ := hlog
    exact ⟨_, _, rfl⟩
  intro log txHash hlog
  subst hlog
  have hwait := waitForFinalized_settles c.env.submission txHash
    (clock.headD 0 + c.params.finalityTimeout) clock.tail
  refine Exits.bind (E := fun _ _ => False) (Exits.lift (Ensures.relabel (P := fun log result =>
    ∃ polls last, log = (polls ++ [RpcCall.txStatus txHash last]).map IngestCall.submission ∧
      (∀ p ∈ polls, Unsettled txHash p) ∧ Settles last result) ?_)) nofun ?_
  · refine Ensures.mono hwait ?_
    intro log result hlog
    obtain ⟨polls, last, rfl, hpolls, hlast⟩ := hlog
    exact ⟨polls, last, rfl, hpolls, hlast⟩
  intro log result hlog
  obtain ⟨polls, last, rfl, hpolls, hlast⟩ := hlog
  have hpolled : Polled buildTx nonce txHash last
      ([.nonce c.myAddrBase58 (.ok nonce)] ++
        ([.submission (.sendRaw (buildTx nonce) (.ok txHash))] ++
          ((polls ++ [RpcCall.txStatus txHash last]).map IngestCall.submission ++ []))) := by
    rw [List.append_nil]
    exact ⟨_, polls, hpolls, rfl⟩
  cases result with
  | ok height =>
      refine Exits.pure ⟨nonce, ?_⟩
      rw [← settles_ok hlast]
      exact hpolled
  | error e =>
      by_cases hwaiting : e = .waiting
      · subst hwaiting
        exact Exits.throw ⟨nonce, txHash, last, hpolled, hlast⟩
      · cases e with
        | waiting => exact absurd rfl hwaiting
        | _ => exact Exits.throw ⟨nonce, last, hpolled, hlast, hwaiting⟩

omit [Blake3] [Bs58] [SumchainWire]

/-! ### Early ends -/

omit [CryptoLib] in
/-- A quiet stage in the words of its caller. -/
theorem orReturn_quiet {α δ : Type} {m : Stage σ ε α} {K : List IngestCall → α → Prop}
    (h : Gathers IngestCall.submission? m K) (f : ε → δ) :
    Exits (m.orReturn f) (fun log a => Silent log ∧ K log a)
      fun log stop => Silent log ∧ ∀ d, stop = .early d → ∃ e, d = f e := by
  refine Exits.adapt h.exits ?_
  intro log stop hlog
  refine ⟨hlog, ?_⟩
  intro d hd
  cases stop with
  | early e => exact ⟨e, (Stop.early.inj hd).symm⟩
  | waiting => cases hd
  | panicked => cases hd

/-- A submission in the words of its caller. -/
theorem orReturn_submit {δ : Type} [Blake3] [Bs58] [SumchainWire] (buildTx : Nat → Str)
    (clock : List Nat) (f : SubmitError → δ) :
    Exits ((c.submit buildTx clock).orReturn f)
      (fun log done => ∃ nonce, Polled buildTx nonce done.1 (.ok (.finalized done.2)) log)
      fun log stop => ∃ stop', stop = stop'.map f ∧ SubmitEnds buildTx log stop' :=
  Exits.adapt (submit_spec buildTx clock) fun _ stop' hends => ⟨stop', rfl, hends⟩

/-! ### Waiting for the archives -/

theorem nextEvent_spec :
    Gathers IngestCall.submission? (c.nextEvent : Stage σ ε Wake) fun log w => log = [.wake w] :=
  Gathers.ask fun _ => rfl

/--
The stage is the loop of `Node/PeerDiscovery`, on the wakes that it logs; the resolver hears
them all.
-/
theorem awaitTurns_spec (clock : List Nat) : ∀ (d : ArchiveDiscovery) (peers : MapPeerResolver)
    (now : Nat), Gathers IngestCall.submission?
      (c.awaitTurns d peers now clock : Stage σ ε (Except DiscoveryFailure Unit × MapPeerResolver))
      fun log out => ∃ wakes : List (Wake × Nat), log = wakes.map (fun w => .wake w.1) ∧
        awaitLoop c.params.discoveryTimeout d peers now wakes = some out ∧
        out.2 = peers.heard log := by
  induction clock with
  | nil =>
      intro d peers now
      unfold awaitTurns
      cases hstatus : d.status now with
      | complete =>
          refine Gathers.pure ⟨[], rfl, ?_, rfl⟩
          unfold awaitLoop
          rw [hstatus]
      | timedOut missing =>
          refine Gathers.pure ⟨[], rfl, ?_, rfl⟩
          unfold awaitLoop
          rw [hstatus]
      | waiting n => exact Gathers.throw
  | cons next clock ih =>
      intro d peers now
      unfold awaitTurns
      cases hstatus : d.status now with
      | complete =>
          refine Gathers.pure ⟨[], rfl, ?_, rfl⟩
          unfold awaitLoop
          rw [hstatus]
      | timedOut missing =>
          refine Gathers.pure ⟨[], rfl, ?_, rfl⟩
          unfold awaitLoop
          rw [hstatus]
      | waiting n =>
          refine Gathers.bind nextEvent_spec ?_
          intro log w hlog
          subst hlog
          cases w with
          | timer =>
              refine Gathers.mono (ih d peers next) ?_
              intro log out hlog
              obtain ⟨wakes, rfl, hloop, hheard⟩ := hlog
              refine ⟨(.timer, next) :: wakes, rfl, ?_, hheard⟩
              unfold awaitLoop
              rw [hstatus]
              exact hloop
          | closed =>
              refine Gathers.pure ⟨[(.closed, next)], rfl, ?_, rfl⟩
              unfold awaitLoop
              rw [hstatus]
          | event event =>
              refine Gathers.mono (ih (d.observe event) (peers.observe event) next) ?_
              intro log out hlog
              obtain ⟨wakes, rfl, hloop, hheard⟩ := hlog
              refine ⟨(.event event, next) :: wakes, rfl, ?_, hheard⟩
              unfold awaitLoop
              rw [hstatus]
              exact hloop

theorem awaitArchives_spec (required : Finset Addr) (peers : MapPeerResolver) (clock : List Nat) :
    Gathers IngestCall.submission?
      (c.awaitArchives required peers clock :
        Stage σ ε (Except DiscoveryFailure Unit × MapPeerResolver))
      fun log out => ∃ wakes : List (Wake × Nat), log = wakes.map (fun w => .wake w.1) ∧
        Snip.awaitArchives c.params.discoveryTimeout peers required (clock.headD 0) wakes
          = some out ∧ out.2 = peers.heard log :=
  awaitTurns_spec clock.tail _ _ _

/-- The wait only listens, and has no error of its own to end with. -/
theorem awaitTurns_waits (clock : List Nat) : ∀ (d : ArchiveDiscovery) (peers : MapPeerResolver)
    (now : Nat), Exits (c.awaitTurns d peers now clock :
      Stage σ ε (Except DiscoveryFailure Unit × MapPeerResolver))
      (fun log _ => Hears log) fun log stop => stop = .waiting ∧ Hears log := by
  induction clock with
  | nil =>
      intro d peers now
      unfold awaitTurns
      cases d.status now with
      | complete => exact Exits.pure nofun
      | timedOut missing => exact Exits.pure nofun
      | waiting n => exact Exits.throw ⟨rfl, nofun⟩
  | cons next clock ih =>
      intro d peers now
      unfold awaitTurns
      cases d.status now with
      | complete => exact Exits.pure nofun
      | timedOut missing => exact Exits.pure nofun
      | waiting n =>
          refine Exits.bind (E := fun _ _ => False) Exits.ask (fun _ _ h => h.elim) ?_
          rintro log w rfl
          have hheard : ∀ {rest : List IngestCall}, Hears rest → Hears (.wake w :: rest) := by
            intro rest hrest
            exact List.forall_mem_cons.mpr ⟨⟨w, rfl⟩, hrest⟩
          have hmore : ∀ (d : ArchiveDiscovery) (peers : MapPeerResolver),
              Exits (c.awaitTurns d peers next clock :
                Stage σ ε (Except DiscoveryFailure Unit × MapPeerResolver))
                (fun log _ => Hears (.wake w :: log))
                fun log stop => stop = .waiting ∧ Hears (.wake w :: log) := by
            intro d peers
            exact Exits.mono (ih d peers next) (fun _ _ h => hheard h)
              fun _ _ h => ⟨h.1, hheard h.2⟩
          cases w with
          | timer => exact hmore d peers
          | closed => exact Exits.pure (hheard nofun)
          | event event => exact hmore (d.observe event) (peers.observe event)

theorem awaitArchives_waits (required : Finset Addr) (peers : MapPeerResolver)
    (clock : List Nat) :
    Exits (c.awaitArchives required peers clock :
      Stage σ ε (Except DiscoveryFailure Unit × MapPeerResolver))
      (fun log _ => Hears log) fun log stop => stop = .waiting ∧ Hears log :=
  awaitTurns_waits clock.tail _ _ _

theorem checkV2Enabled_spec :
    Gathers IngestCall.submission? c.checkV2Enabled fun log height =>
      log = [.blockHeight (.ok height)] ∧
        ∃ enabledAt, c.params.v2EnabledFromHeight = some enabledAt ∧ enabledAt ≤ height := by
  refine Gathers.bind (Gathers.query fun _ => rfl) ?_
  intro log height hlog
  subst hlog
  cases henabled : c.params.v2EnabledFromHeight with
  | none => exact Gathers.throw
  | some enabledAt =>
      by_cases hearly : height < enabledAt
      · simp only [if_pos hearly]
        exact Gathers.throw
      · simp only [if_neg hearly]
        exact Gathers.pure ⟨rfl, enabledAt, rfl, not_lt.mp hearly⟩

/-! ### Reading the assignment -/

theorem readSnapshot_spec (height : Nat) :
    Gathers IngestCall.submission? (c.readSnapshot height) fun log snapshot =>
      ∃ raw, log = [.activeNodes height (.ok raw)] ∧ decodeSnapshot raw = some snapshot := by
  refine Gathers.bind (Gathers.query fun _ => rfl) ?_
  intro log raw hlog
  subst hlog
  cases hdecode : decodeSnapshot raw with
  | none => exact Gathers.throw
  | some snapshot => exact Gathers.pure ⟨raw, rfl, hdecode⟩

theorem fetchAssignmentInputs_spec (merkleRoot : Hash) :
    Gathers IngestCall.submission? (c.fetchAssignmentInputs merkleRoot) fun log out =>
      ∃ raw, log = [.fileInfo (fileRootHex merkleRoot) (.ok (some out.1)),
          .activeNodes out.1.assignmentHeight (.ok raw)] ∧
        decodeSnapshot raw = some out.2 := by
  refine Gathers.bind (Gathers.query fun _ => rfl) ?_
  intro log row hlog
  subst hlog
  cases row with
  | none => exact Gathers.throw
  | some info =>
      refine Gathers.bind (readSnapshot_spec info.assignmentHeight) ?_
      intro log snapshot hlog
      obtain ⟨raw, rfl, hdecode⟩ := hlog
      exact Gathers.pure ⟨raw, rfl, hdecode⟩

/-- What S1a has read when it goes on: archives enough at the height of the chain. -/
theorem s1aRequireArchives_spec [AssignmentScore] (merkleRoot : Hash) (chunkCount : Nat)
    (peers : MapPeerResolver) (clock : List Nat) :
    Gathers IngestCall.submission? (c.s1aRequireArchives merkleRoot chunkCount peers clock)
      fun log peers' => ∃ head raw snapshot, ∃ wakes : List (Wake × Nat),
        log = .blockHeight (.ok head) :: .activeNodes head (.ok raw) ::
          wakes.map (fun w => .wake w.1) ∧
        decodeSnapshot raw = some snapshot ∧
        c.params.assignmentReplicationFactor ≤ snapshot.length ∧
        Snip.awaitArchives c.params.discoveryTimeout peers
          (requiredArchives merkleRoot snapshot (List.range chunkCount)
            c.params.assignmentReplicationFactor)
          (clock.headD 0) wakes = some (.ok (), peers') ∧
        peers' = peers.heard log := by
  refine Gathers.bind (Gathers.query fun _ => rfl) ?_
  intro log head hlog
  subst hlog
  refine Gathers.bind (Gathers.query fun _ => rfl) ?_
  intro log raw hlog
  subst hlog
  cases hdecode : decodeSnapshot raw with
  | none => exact Gathers.throw
  | some snapshot =>
      dsimp only
      by_cases hfew : snapshot.length < c.params.assignmentReplicationFactor
      · simp only [if_pos hfew]
        exact Gathers.throw
      · simp only [if_neg hfew]
        refine Gathers.bind (awaitArchives_spec _ _ _) ?_
        intro log out hlog
        obtain ⟨wakes, rfl, hloop, hheard⟩ := hlog
        obtain ⟨found, peers'⟩ := out
        cases found with
        | error f => exact Gathers.throw
        | ok _ =>
            refine Gathers.pure
              ⟨head, raw, snapshot, wakes, ?_, hdecode, not_lt.mp hfew, hloop, ?_⟩
            · rw [List.append_nil]
              rfl
            · rw [List.append_nil]
              exact hheard

/-! ### Stages without a push -/

theorem checkV2Enabled_pushless :
    Gathers IngestCall.chunkPush? c.checkV2Enabled fun _ _ => True := by
  refine Gathers.bind (Gathers.query fun _ => rfl) ?_
  intro _ height _
  cases c.params.v2EnabledFromHeight with
  | none => exact Gathers.throw
  | some enabledAt =>
      by_cases hearly : height < enabledAt
      · simp only [if_pos hearly]
        exact Gathers.throw
      · simp only [if_neg hearly]
        exact Gathers.pure trivial

theorem submit_pushless [Blake3] [Bs58] [SumchainWire] (buildTx : Nat → Str) (clock : List Nat) :
    Gathers IngestCall.chunkPush? (c.submit buildTx clock) fun _ _ => True := by
  refine Gathers.bind (Gathers.query fun _ => rfl) ?_
  intro _ nonce _
  refine Gathers.bind (Gathers.query fun _ => rfl) ?_
  intro _ txHash _
  refine Gathers.bind (Gathers.lift (Ensures.relabel ?_)) ?_
  · intro s call hcall
    obtain ⟨submission, -, rfl⟩ := List.mem_map.mp hcall
    rfl
  intro _ result _
  cases result with
  | ok height => exact Gathers.pure trivial
  | error e => cases e <;> exact Gathers.throw

theorem readSnapshot_pushless (height : Nat) :
    Gathers IngestCall.chunkPush? (c.readSnapshot height) fun _ _ => True := by
  refine Gathers.bind (Gathers.query fun _ => rfl) ?_
  intro _ raw _
  cases decodeSnapshot raw with
  | none => exact Gathers.throw
  | some snapshot => exact Gathers.pure trivial

theorem fetchAssignmentInputs_pushless (merkleRoot : Hash) :
    Gathers IngestCall.chunkPush? (c.fetchAssignmentInputs merkleRoot) fun _ _ => True := by
  refine Gathers.bind (Gathers.query fun _ => rfl) ?_
  intro _ row _
  cases row with
  | none => exact Gathers.throw
  | some info =>
      refine Gathers.bind (readSnapshot_pushless info.assignmentHeight) ?_
      intro _ snapshot _
      exact Gathers.pure trivial

theorem s1aRequireArchives_pushless [AssignmentScore] (merkleRoot : Hash) (chunkCount : Nat)
    (peers : MapPeerResolver) (clock : List Nat) :
    Gathers IngestCall.chunkPush? (c.s1aRequireArchives merkleRoot chunkCount peers clock)
      fun _ _ => True := by
  refine Gathers.bind (Gathers.query fun _ => rfl) ?_
  intro _ head _
  refine Gathers.bind (Gathers.query fun _ => rfl) ?_
  intro _ raw _
  cases decodeSnapshot raw with
  | none => exact Gathers.throw
  | some snapshot =>
      dsimp only
      by_cases hfew : snapshot.length < c.params.assignmentReplicationFactor
      · simp only [if_pos hfew]
        exact Gathers.throw
      simp only [if_neg hfew]
      refine Gathers.bind (Exits.gathers (Exits.mono (awaitArchives_waits _ _ _)
        (fun _ _ h => ⟨h.pushless, trivial⟩) fun _ _ h => h.2.pushless)) ?_
      rintro _ ⟨found, peers'⟩ _
      cases found with
      | error f => exact Gathers.throw
      | ok _ => exact Gathers.pure trivial

theorem collectLoop_pushless (merkleRoot : Hash) (calls : Nat) : ∀ (offset : Nat)
    (seen : Finset Nat), Gathers IngestCall.chunkPush?
      (c.collectLoop merkleRoot calls offset seen) fun _ _ => True := by
  induction calls with
  | zero => intro offset seen; exact Gathers.throw
  | succ calls ih =>
      intro offset seen
      refine Gathers.bind (Gathers.query fun _ => rfl) ?_
      intro _ row _
      cases row with
      | none => exact Gathers.pure trivial
      | some cov =>
          dsimp only
          cases cov.missingIndices.getLast? with
          | none => exact Gathers.pure trivial
          | some last =>
              dsimp only
              by_cases hstuck : saturatingNext last = last
              · simp only [if_pos hstuck]
                exact Gathers.pure trivial
              · simp only [if_neg hstuck]
                exact ih _ _

end

end Ingest

end Snip
