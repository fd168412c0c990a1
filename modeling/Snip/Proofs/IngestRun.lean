/-
What the commands that register a file tell their caller.

`run` and `run_private` make different things of their input, and are one program from
there on.  The log of a run bears out the outcome, whichever it is, and the exit status of
the command line adds only what it looks up itself.
-/
import Snip.Proofs.IngestOutcomes
import Snip.Proofs.PrivateCalls

namespace Snip

open Dialogue

/-! ### What is registered -/

section

variable [Blake3]

/-- The push of a chunk carries its bytes and a proof that an archive accepts. -/
theorem ReproducedFile.Sound.proves {file : ReproducedFile} (h : file.Sound) {i : Nat}
    (hi : i < file.manifest.chunkCount) :
    ∃ data proof, pushRequest file.manifest file.mapped file.tree i
        = some (.push data file.manifest.merkleRoot i proof) ∧
      verifyMerkleProofBytesForTree (Blake3.hash data) i proof file.manifest.merkleRoot
        file.manifest.chunkCount = true := by
  have hlt : i < file.manifest.chunks.length := h.count ▸ hi
  have hleaves : file.manifest.leaves.length = file.manifest.chunkCount := by
    unfold DataManifest.leaves
    rw [List.length_map, h.count]
  have hleaf : file.manifest.leaves[i]? = some (file.manifest.chunks[i]).blake3Hash := by
    unfold DataManifest.leaves
    rw [List.getElem?_map, List.getElem?_eq_getElem hlt]
    rfl
  obtain ⟨proof, hproof⟩ := proofBytes_isSome (hleaves.symm ▸ hi)
  refine ⟨slice file.mapped file.manifest.chunks[i].offset
    (file.manifest.chunks[i].offset + file.manifest.chunks[i].size), proof, ?_, ?_⟩
  · unfold pushRequest ReproducedFile.tree
    rw [List.getElem?_eq_getElem hlt, hproof]
    rfl
  · rw [h.hashes _ (List.getElem_mem hlt), h.root, ← hleaves]
    exact verify_own_proof (hleaves.symm ▸ h.few) hleaf hproof

end

namespace Ingest

section

variable {σ : Type} [Blake3] [Bs58] [SumchainWire] [CryptoLib] [FileLifecycleWire]
  [AssignmentScore] {c : Ingest σ}

omit [Bs58] [SumchainWire] [FileLifecycleWire] [AssignmentScore] in
theorem publicRegistration_ok {fileName : Str} {content : Except Str Bytes} {r : Registration}
    (h : c.publicRegistration fileName content = .ok r) :
    ∃ mapped, content = .ok mapped ∧ r = ⟨.ofPublic fileName mapped, 0, []⟩ ∧ r.file.Sound ∧
      r.file.manifest.chunkCount ≤ c.maxChunkCountPerFile := by
  cases content with
  | error e => cases h
  | ok mapped =>
      unfold publicRegistration at h
      dsimp only at h
      by_cases hmany : c.maxChunkCountPerFile
          < (ReproducedFile.ofPublic fileName mapped).manifest.chunkCount
      · rw [if_pos hmany] at h
        cases h
      · rw [if_neg hmany] at h
        obtain rfl := Except.ok.inj h
        exact ⟨mapped, rfl, rfl, sound_ofPublic fileName mapped, not_lt.mp hmany⟩

omit [Bs58] [SumchainWire] [FileLifecycleWire] [AssignmentScore] in
theorem publicRegistration_error {fileName : Str} {content : Except Str Bytes}
    {outcome : IngestOutcome} (h : c.publicRegistration fileName content = .error outcome) :
    outcome.registrationTx = some .notSent := by
  cases content with
  | error e =>
      obtain rfl := Except.error.inj h
      rfl
  | ok mapped =>
      unfold publicRegistration at h
      dsimp only at h
      by_cases hmany : c.maxChunkCountPerFile
          < (ReproducedFile.ofPublic fileName mapped).manifest.chunkCount
      · rw [if_pos hmany] at h
        obtain rfl := Except.error.inj h
        rfl
      · rw [if_neg hmany] at h
        cases h

omit [Bs58] [FileLifecycleWire] [AssignmentScore] in
theorem privateRegistration_ok {kFile : Hash} {ephSeeds : Nat → Hash} {fileName : Str}
    {content : Except Str Bytes} {recipients : List PrivateRecipient} {r : Registration}
    (h : c.privateRegistration kFile ephSeeds fileName content recipients = .ok r) :
    ∃ plaintext encrypted, content = .ok plaintext ∧
      encryptForPrivate kFile ephSeeds fileName plaintext (c.spec recipients) = .ok encrypted ∧
      r = ⟨.ofPrivate encrypted.artifacts, 1, encrypted.initialAccess⟩ ∧ r.file.Sound ∧
      r.file.manifest.chunkCount ≤ c.maxChunkCountPerFile := by
  cases content with
  | error e => cases h
  | ok plaintext =>
      unfold privateRegistration at h
      dsimp only at h
      cases hrun : c.runPrivate kFile ephSeeds fileName plaintext recipients with
      | error e => cases e <;> simp [hrun] at h
      | ok encrypted =>
          simp only [hrun] at h
          obtain rfl := Except.ok.inj h
          unfold IngestPipeline.runPrivate at hrun
          cases hencrypt : encryptForPrivate kFile ephSeeds fileName plaintext
              (c.spec recipients) with
          | error e => simp [hencrypt] at hrun
          | ok encrypted' =>
              simp only [hencrypt] at hrun
              by_cases hmany : c.maxChunkCountPerFile < encrypted'.artifacts.manifest.chunkCount
              · rw [if_pos hmany] at hrun
                cases hrun
              · rw [if_neg hmany] at hrun
                obtain rfl := Except.ok.inj hrun
                exact ⟨plaintext, encrypted', rfl, hencrypt, rfl,
                  sound_ofPrivate (encryptForPrivate_entries hencrypt).1, not_lt.mp hmany⟩

omit [Bs58] [FileLifecycleWire] [AssignmentScore] in
theorem privateRegistration_error {kFile : Hash} {ephSeeds : Nat → Hash} {fileName : Str}
    {content : Except Str Bytes} {recipients : List PrivateRecipient} {outcome : IngestOutcome}
    (h : c.privateRegistration kFile ephSeeds fileName content recipients = .error outcome) :
    outcome.registrationTx = some .notSent := by
  cases content with
  | error e =>
      obtain rfl := Except.error.inj h
      rfl
  | ok plaintext =>
      unfold privateRegistration at h
      dsimp only at h
      cases hrun : c.runPrivate kFile ephSeeds fileName plaintext recipients with
      | ok encrypted => simp [hrun] at h
      | error e =>
          cases e with
          | encryption e =>
              simp only [hrun] at h
              obtain rfl := Except.error.inj h
              rfl
          | tooManyChunks manifest limit =>
              simp only [hrun] at h
              obtain rfl := Except.error.inj h
              rfl

/-! ### A file that is reported active -/

/--
Each of these chunks has as many archives as the replication factor asks for, and each of
them was sent the chunk, with a proof that it accepts, and acknowledged it afterwards.  The
manifest was sent to every archive of the file that has a peer, and acknowledged as well.
-/
structure Placed (c : Ingest σ) (file : ReproducedFile) (snapshot : List Addr)
    (wanted : Finset Nat) (peers : MapPeerResolver) (log : List IngestCall) : Prop where
  inside : ∀ i ∈ wanted, i < file.manifest.chunkCount
  replicas : ∀ i ∈ wanted,
    (assignedArchives file.manifest.merkleRoot snapshot i
      c.params.assignmentReplicationFactor).toFinset.card = c.params.assignmentReplicationFactor
  acked : ∀ i ∈ wanted,
    ∀ a ∈ assignedArchives file.manifest.merkleRoot snapshot i c.params.assignmentReplicationFactor,
      ∃ peer data proof answer origin, peers.resolve a = some peer ∧
        verifyMerkleProofBytesForTree (Blake3.hash data) i proof file.manifest.merkleRoot
          file.manifest.chunkCount = true ∧
        List.Sublist [.push peer (.push data file.manifest.merkleRoot i proof) answer,
          .wake (.event (.shardReceivedV2 peer (.pushAck file.manifest.merkleRoot i none) origin))]
          log
  manifests : ∀ a ∈ fileArchives c file snapshot, ∀ peer, peers.resolve a = some peer →
    ManifestAcked file peer log

omit [Bs58] [SumchainWire] [FileLifecycleWire] in
/-- The chunks replicated first, the manifests acknowledged afterwards. -/
theorem Replicated.placed {file : ReproducedFile} (hsound : file.Sound) {snapshot : List Addr}
    {chunks : Finset Nat} {peers : MapPeerResolver} {pushes manifests : List IngestCall}
    (h : Replicated c file snapshot chunks peers pushes)
    (hmanifests : ∀ a ∈ fileArchives c file snapshot, ∀ peer, peers.resolve a = some peer →
      ManifestAcked file peer manifests) :
    c.Placed file snapshot chunks peers (pushes ++ manifests) := by
  refine ⟨fun i hi => (h i hi).1, ?_, ?_, ?_⟩
  · intro i hi
    rw [List.toFinset_card_of_nodup (assignedArchives_nodup _ _ _ _)]
    exact (h i hi).2.1
  · intro i hi a ha
    obtain ⟨hlt, -, hall⟩ := h i hi
    obtain ⟨peer, hpeer, request, answer, origin, hrequest, hsub⟩ := hall a ha
    obtain ⟨data, proof, hproves, hverify⟩ := hsound.proves hlt
    obtain rfl : request = .push data file.manifest.merkleRoot i proof :=
      Option.some.inj (hrequest.symm.trans hproves)
    exact ⟨peer, data, proof, answer, origin, hpeer, hverify,
      hsub.trans (List.sublist_append_left _ _)⟩
  · intro a ha peer hpeer
    obtain ⟨origin, hsub⟩ := hmanifests a ha peer hpeer
    exact ⟨origin, hsub.trans (List.sublist_append_right _ _)⟩

omit [Bs58] [SumchainWire] [FileLifecycleWire] in
/-- What a log shows, every longer one does. -/
theorem Placed.of_sublist {file : ReproducedFile} {snapshot : List Addr} {wanted : Finset Nat}
    {peers : MapPeerResolver} {log log' : List IngestCall}
    (h : c.Placed file snapshot wanted peers log) (hsub : List.Sublist log log') :
    c.Placed file snapshot wanted peers log' where
  inside := h.inside
  replicas := h.replicas
  acked := by
    intro i hi a ha
    obtain ⟨peer, data, proof, answer, origin, hpeer, hverify, hacked⟩ := h.acked i hi a ha
    exact ⟨peer, data, proof, answer, origin, hpeer, hverify, hacked.trans hsub⟩
  manifests := by
    intro a ha peer hpeer
    obtain ⟨origin, hacked⟩ := h.manifests a ha peer hpeer
    exact ⟨origin, hacked.trans hsub⟩

omit [Bs58] [SumchainWire] [FileLifecycleWire] in
theorem Covered.placed {file : ReproducedFile} (hsound : file.Sound) {snapshot : List Addr}
    {chunks : Finset Nat} {peers : MapPeerResolver} {log : List IngestCall}
    {cov : AssignmentCoverageV2} (h : Covered c file snapshot chunks peers log cov) :
    c.Placed file snapshot chunks peers log := by
  obtain ⟨pushes, manifests, polls, rfl, hreplicated, hacked, -, -⟩ := h
  rw [← List.append_assoc]
  exact (hreplicated.placed hsound hacked).of_sublist (List.sublist_append_left _ _)

omit [Bs58] [SumchainWire] [FileLifecycleWire] in
/-- The coverage that activates is what was read last. -/
theorem Covered.last {file : ReproducedFile} {snapshot : List Addr} {chunks : Finset Nat}
    {peers : MapPeerResolver} {log : List IngestCall} {cov : AssignmentCoverageV2}
    (h : Covered c file snapshot chunks peers log cov) :
    log.getLast? = some (.coverage (fileRootHex file.manifest.merkleRoot) none (.ok (some cov))) ∧
      cov.canActivateNow = true := by
  obtain ⟨pushes, manifests, polls, rfl, -, -, -, hactivate⟩ := h
  refine ⟨?_, hactivate⟩
  simp only [← List.append_assoc, List.getLast?_concat]

/-- What was read, sent and heard, in this order, before a file is reported `Activated`. -/
def Active (c : Ingest σ) (r : Registration) (registerTxHash : Str) (registerHeight : Nat)
    (activateTxHash : Str) (activateHeight : Nat) (peers : MapPeerResolver) (clock : IngestClock)
    (log : List IngestCall) : Prop :=
  ∃ checks registration read pushed activation info raw snapshot peers' cov nonce nonce',
    log = checks ++ (registration ++ (read ++ (pushed ++ activation))) ∧
    c.Checked r peers clock checks ∧
    Polled (c.registers r) nonce registerTxHash (.ok (.finalized registerHeight)) registration ∧
    read = [.fileInfo (fileRootHex r.file.manifest.merkleRoot) (.ok (some info)),
      .activeNodes info.assignmentHeight (.ok raw)] ∧
    decodeSnapshot raw = some snapshot ∧
    c.Placed r.file snapshot (Finset.range r.file.manifest.chunkCount) peers' pushed ∧
    pushed.getLast? = some
      (.coverage (fileRootHex r.file.manifest.merkleRoot) none (.ok (some cov))) ∧
    cov.canActivateNow = true ∧
    Polled (c.activates r) nonce' activateTxHash (.ok (.finalized activateHeight)) activation ∧
    -- these two, and no other
    sentOf log = [c.registers r nonce, c.activates r nonce']

omit [Bs58] in
theorem EndsActivated.active {made : Except IngestOutcome Registration} {peers : MapPeerResolver}
    {clock : IngestClock} {log : List IngestCall} {outcome : IngestOutcome}
    (h : c.EndsActivated made peers clock log outcome)
    (hsound : ∀ r, made = .ok r → r.file.Sound) :
    ∃ r registerTxHash registerHeight activateTxHash activateHeight, made = .ok r ∧
      outcome = .activated r.file.manifest.merkleRoot r.file.manifest registerTxHash registerHeight
        activateTxHash activateHeight ∧
      c.Active r registerTxHash registerHeight activateTxHash activateHeight peers clock log := by
  obtain ⟨r, registerTxHash, registerHeight, activateTxHash, activateHeight, hmade, rfl, checks,
    registration, delivery, activation, nonce, nonce', rfl, hquiet, hchecked, hregistered, hquiet',
    ⟨info, raw, snapshot, peers', cov, pushed, rfl, hdecode, hcovered⟩, hactivated⟩ := h
  refine ⟨r, registerTxHash, registerHeight, activateTxHash, activateHeight, hmade, rfl, checks,
    registration, _, pushed, activation, info, raw, snapshot, peers', cov, nonce, nonce', rfl,
    hchecked, hregistered, rfl, hdecode, hcovered.placed (hsound r hmade), hcovered.last.1,
    hcovered.last.2, hactivated, ?_⟩
  rw [sentOf_append, sentOf_append, sentOf_append, sentOf_silent hquiet, hregistered.sent,
    sentOf_silent hquiet', hactivated.sent]
  rfl

omit [Blake3] [Bs58] [SumchainWire] [CryptoLib] [FileLifecycleWire] [AssignmentScore] in
/-- A command reports what its stage ended with. -/
theorem outcomeOf_spec {δ : Type} {m : Stage σ δ δ} {K : List IngestCall → δ → Prop}
    {E : List IngestCall → Stop δ → Prop} (h : Exits m K E) :
    Ensures (outcomeOf m) fun log out =>
      (∃ outcome, out = .ok outcome ∧ K log outcome) ∨
        ∃ stop, out = Stop.outcome (.error stop) ∧ E log stop := by
  refine Ensures.bind h ?_
  intro log out hlog
  refine Ensures.pure ?_
  rw [List.append_nil]
  cases out with
  | ok outcome => exact Or.inl ⟨outcome, rfl, hlog⟩
  | error stop => exact Or.inr ⟨stop, rfl, hlog⟩

/-! ### The exit status -/

/-- No registration of this run is on the chain. -/
def RegistersNothing (c : Ingest σ) (made : Except IngestOutcome Registration)
    (log : List IngestCall) : Prop :=
  Silent log ∨ ∃ r checks registration, made = .ok r ∧ log = checks ++ registration ∧
    Silent checks ∧ Traces (c.registers r) (submissionsOf registration) .rejected

/-- The lookups of a root, and what they come to. -/
inductive LooksUp (rootHex : Str) : List IngestCall → RootOnChain × List Str → Prop where
  | row (info : RegisteredFilePage) :
      LooksUp rootHex [.fileInfo rootHex (.ok (some info))] (.registered, [])
  | v1 (v2 : Except Str (Option RegisteredFilePage)) : (∀ info, v2 ≠ .ok (some info)) →
      LooksUp rootHex [.fileInfo rootHex v2, .v1Root rootHex (.ok true)] (.registered, [])
  | neither :
      LooksUp rootHex [.fileInfo rootHex (.ok none), .v1Root rootHex (.ok false)]
        (.notRegistered, [])
  | failed (v2 : Except Str (Option RegisteredFilePage)) (v1 : Except Str Bool)
      (errors : List Str) : (∀ info, v2 ≠ .ok (some info)) → v1 ≠ .ok true →
      (∃ e, v2 = .error e ∨ v1 = .error e) →
      LooksUp rootHex [.fileInfo rootHex v2, .v1Root rootHex v1] (.lookupFailed, errors)

/-- What a run and the lookups after it have to show for each exit code. -/
inductive ExitTells (c : Ingest σ) (made : Except IngestOutcome Registration)
    (peers : MapPeerResolver) (clock : IngestClock) (ran : List IngestCall) :
    List IngestCall → IngestOutcome × IngestExitStatus → Prop where
  | active {r : Registration} {registerTxHash activateTxHash : Str}
      {registerHeight activateHeight : Nat} : made = .ok r →
      c.Active r registerTxHash registerHeight activateTxHash activateHeight peers clock ran →
      ExitTells c made peers clock ran []
        (.activated r.file.manifest.merkleRoot r.file.manifest registerTxHash registerHeight
          activateTxHash activateHeight, ⟨IngestExit.active, .notLookedUp, []⟩)
  | pending {r : Registration} {file : PendingFile} {checks registration rest : List IngestCall}
      {height : Nat} : made = .ok r → file.manifest = r.file.manifest →
      ran = checks ++ (registration ++ rest) → Silent checks → c.Checked r peers clock checks →
      Traces (c.registers r) (submissionsOf registration) (.finalized height) →
      (Silent rest ∨ ∃ delivery activation fate, rest = delivery ++ activation ∧
        Silent delivery ∧ c.Delivered r delivery ∧
        Traces (c.activates r) (submissionsOf activation) fate ∧
        ∀ height, fate ≠ .finalized height) →
      ExitTells c made peers clock ran []
        (.pendingNeedsAction file, ⟨IngestExit.pending, .notLookedUp, []⟩)
  | unconfirmed {r : Registration} {outcome : IngestOutcome}
      {checks registration : List IngestCall} {fate : TxFate} : made = .ok r →
      ran = checks ++ registration → Silent checks → c.Checked r peers clock checks →
      Traces (c.registers r) (submissionsOf registration) fate →
      fate = .failedSend ∨ fate = .unsettled →
      ExitTells c made peers clock ran []
        (outcome, ⟨IngestExit.registrationUnconfirmed, .notLookedUp, []⟩)
  | noRoot {outcome : IngestOutcome} : c.RegistersNothing made ran → outcome.merkleRoot = none →
      ExitTells c made peers clock ran [] (outcome, ⟨IngestExit.refused, .notLookedUp, []⟩)
  | lookedUp {outcome : IngestOutcome} {looked : List IngestCall} {root : Hash}
      {found : RootOnChain} {errors : List Str} : c.RegistersNothing made ran →
      outcome.merkleRoot = some root → LooksUp (fileRootHex root) looked (found, errors) →
      ExitTells c made peers clock ran looked
        (outcome, ⟨outcome.refusalCode found, found, errors⟩)

omit [Bs58] [SumchainWire] [FileLifecycleWire] [AssignmentScore] [Blake3] in
theorem rootWithoutRow_spec (rootHex : Str) {v2 : Except Str (Option RegisteredFilePage)}
    (hnot : ∀ info, v2 ≠ .ok (some info)) :
    Ensures (c.rootWithoutRow rootHex v2) fun log out =>
      LooksUp rootHex (.fileInfo rootHex v2 :: log) out := by
  refine Ensures.ask ?_
  intro v1
  cases v1 with
  | error e1 =>
      cases v2 with
      | error e2 => exact Ensures.pure (.failed _ _ _ hnot nofun ⟨e1, Or.inr rfl⟩)
      | ok row => exact Ensures.pure (.failed _ _ _ hnot nofun ⟨e1, Or.inr rfl⟩)
  | ok registered =>
      cases registered with
      | true =>
          cases v2 with
          | error e2 => exact Ensures.pure (.v1 _ hnot)
          | ok row => exact Ensures.pure (.v1 _ hnot)
      | false =>
          cases v2 with
          | error e2 => exact Ensures.pure (.failed _ _ _ hnot nofun ⟨e2, Or.inl rfl⟩)
          | ok row =>
              cases row with
              | none => exact Ensures.pure .neither
              | some info => exact absurd rfl (hnot info)

omit [Bs58] [SumchainWire] [FileLifecycleWire] [AssignmentScore] [Blake3] in
theorem rootOnChain_spec (rootHex : Str) : Ensures (c.rootOnChain rootHex) (LooksUp rootHex) := by
  refine Ensures.ask ?_
  intro v2
  cases v2 with
  | error e => exact rootWithoutRow_spec rootHex nofun
  | ok row =>
      cases row with
      | none => exact rootWithoutRow_spec rootHex nofun
      | some info => exact Ensures.pure (.row info)

omit [Bs58] [SumchainWire] [CryptoLib] [FileLifecycleWire] [AssignmentScore] [Blake3] in
theorem refused_of_notSent {outcome : IngestOutcome} (h : outcome.registrationTx = some .notSent ∨
    outcome.registrationTx = some .rejected) (root : RootOnChain) :
    outcome.ingestExitCode root = outcome.refusalCode root := by
  cases outcome with
  | failed stage manifest source =>
      unfold IngestOutcome.ingestExitCode
      dsimp only
      rcases h with h | h
      · rw [h]
      · rw [h]
  | _ =>
      rcases h with h | h
      · cases h
      · cases h

omit [Bs58] [SumchainWire] [FileLifecycleWire] [AssignmentScore] [Blake3] in
theorem rootOfRefused_calm {outcome : IngestOutcome} (h : outcome.merkleRoot = none ∨
    outcome.registrationTx = none ∨ outcome.registrationTx = some .unconfirmed) :
    c.rootOfRefused outcome = pure (.notLookedUp, []) := by
  unfold rootOfRefused
  rcases h with h | h | h
  · rw [h]
    rcases outcome.registrationTx with _ | _ | _ | _ <;> rfl
  · rw [h]
  · rw [h]

omit [Bs58] [SumchainWire] [FileLifecycleWire] [AssignmentScore] [Blake3] in
/-- The exit status of any other outcome looks nothing up. -/
theorem ingestExitStatus_calm {outcome : IngestOutcome} (h : outcome.merkleRoot = none ∨
    outcome.registrationTx = none ∨ outcome.registrationTx = some .unconfirmed) :
    Ensures (c.ingestExitStatus outcome) fun looked status => looked = [] ∧
      status = ⟨outcome.ingestExitCode .notLookedUp, .notLookedUp, []⟩ := by
  unfold ingestExitStatus
  rw [rootOfRefused_calm h]
  exact Ensures.pure ⟨rfl, rfl⟩

omit [Bs58] in
/-- The exit status of an outcome that registered nothing. -/
theorem exitTells_of_refused {made : Except IngestOutcome Registration} {peers : MapPeerResolver}
    {clock : IngestClock} {ran : List IngestCall} {outcome : IngestOutcome}
    (hran : c.RegistersNothing made ran) (h : outcome.registrationTx = some .notSent ∨
      outcome.registrationTx = some .rejected) :
    Ensures (c.ingestExitStatus outcome) fun looked status =>
      c.ExitTells made peers clock ran looked (outcome, status) := by
  cases hroot : outcome.merkleRoot with
  | none =>
      refine Ensures.mono (ingestExitStatus_calm (Or.inl hroot)) ?_
      intro looked status hlooked
      obtain ⟨rfl, rfl⟩ := hlooked
      have hcode : outcome.ingestExitCode .notLookedUp = IngestExit.refused := by
        rw [refused_of_notSent h]
        exact if_pos hroot
      rw [hcode]
      exact .noRoot hran hroot
  | some root =>
      have hlook : c.rootOfRefused outcome = c.rootOnChain (fileRootHex root) := by
        unfold rootOfRefused
        rw [hroot]
        rcases h with h | h
        · rw [h]
        · rw [h]
      unfold ingestExitStatus
      rw [hlook]
      refine Ensures.bind (rootOnChain_spec (fileRootHex root)) ?_
      intro looked out hlooked
      obtain ⟨found, errors⟩ := out
      refine Ensures.pure ?_
      rw [List.append_nil, refused_of_notSent h]
      exact .lookedUp hran hroot hlooked

omit [Bs58] in
/-- The exit status of a run that ended early. -/
theorem exitTells_of_early {made : Except IngestOutcome Registration} {peers : MapPeerResolver}
    {clock : IngestClock} {ran : List IngestCall} {outcome : IngestOutcome}
    (h : c.EndsEarly made peers clock ran (.early outcome)) :
    Ensures (c.ingestExitStatus outcome) fun looked status =>
      c.ExitTells made peers clock ran looked (outcome, status) := by
  generalize hstop : Stop.early outcome = stop at h
  cases h with
  | notSent hsilent hreports =>
      exact exitTells_of_refused (Or.inl hsilent) (Or.inl (hreports outcome hstop.symm))
  | @unregistered checks registration _ r fate hmade hsilent hchecked htraces _ hreports =>
      rcases hreports outcome hstop.symm with ⟨rfl, hrejected⟩ | ⟨hfate, hunconfirmed⟩
      · exact exitTells_of_refused
          (Or.inr ⟨r, checks, registration, hmade, rfl, hsilent, htraces⟩) (Or.inr hrejected)
      · refine Ensures.mono (ingestExitStatus_calm (Or.inr (Or.inr hunconfirmed))) ?_
        intro looked status hlooked
        obtain ⟨rfl, rfl⟩ := hlooked
        have hcode : outcome.ingestExitCode .notLookedUp = IngestExit.registrationUnconfirmed := by
          cases outcome with
          | failed stage manifest source =>
              unfold IngestOutcome.ingestExitCode
              dsimp only
              rw [hunconfirmed]
          | _ => cases hunconfirmed
        rw [hcode]
        exact .unconfirmed hmade rfl hsilent hchecked htraces hfate
  | undelivered hmade hsilent hchecked htraces hrest hleaves =>
      obtain ⟨left, rfl, hmanifest⟩ := hleaves outcome hstop.symm
      refine Ensures.mono (ingestExitStatus_calm (Or.inr (Or.inl rfl))) ?_
      intro looked status hlooked
      obtain ⟨rfl, rfl⟩ := hlooked
      exact .pending hmade hmanifest rfl hsilent hchecked htraces (Or.inl hrest)
  | unactivated hmade hsilent hchecked htraces hquiet hdelivered hactivation hnot hleaves =>
      obtain ⟨left, rfl, hmanifest⟩ := hleaves outcome hstop.symm
      refine Ensures.mono (ingestExitStatus_calm (Or.inr (Or.inl rfl))) ?_
      intro looked status hlooked
      obtain ⟨rfl, rfl⟩ := hlooked
      exact .pending hmade hmanifest rfl hsilent hchecked htraces
        (Or.inr ⟨_, _, _, rfl, hquiet, hdelivered, hactivation, hnot⟩)

omit [Bs58] in
/-- The command line after a run whose stage is specified. -/
theorem withExitStatus_spec {made : Except IngestOutcome Registration} {peers : MapPeerResolver}
    {clock : IngestClock} {m : Stage σ IngestOutcome IngestOutcome}
    (hsound : ∀ r, made = .ok r → r.file.Sound)
    (h : Exits m (c.EndsActivated made peers clock) (c.EndsEarly made peers clock)) :
    Ensures (c.withExitStatus (outcomeOf m)) fun log out => ∀ told, out = .ok told →
      ∃ ran looked, log = ran ++ looked ∧ c.ExitTells made peers clock ran looked told := by
  have hnext : ∀ (ran : List IngestCall) (outcome : IngestOutcome),
      Ensures (c.ingestExitStatus outcome) (fun looked status =>
        c.ExitTells made peers clock ran looked (outcome, status)) →
      Ensures (do
          let status ← c.ingestExitStatus outcome
          pure (.ok (outcome, status)) : Dialogue σ IngestCall (Except Pause _))
        fun looked out => ∀ told, out = .ok told → ∃ ran' looked', ran ++ looked = ran' ++ looked' ∧
          c.ExitTells made peers clock ran' looked' told := by
    intro ran outcome hstatus
    refine Ensures.bind hstatus ?_
    intro looked status htells
    refine Ensures.pure ?_
    intro told htold
    obtain rfl := Except.ok.inj htold
    rw [List.append_nil]
    exact ⟨ran, looked, rfl, htells⟩
  refine Ensures.bind (outcomeOf_spec h) ?_
  intro ran out hran
  rcases hran with ⟨outcome, rfl, hactivated⟩ | ⟨stop, rfl, hearly⟩
  · obtain ⟨r, registerTxHash, registerHeight, activateTxHash, activateHeight, hmade, rfl,
      hactive⟩ := hactivated.active hsound
    refine hnext ran _ (Ensures.mono (ingestExitStatus_calm (Or.inr (Or.inl rfl))) ?_)
    intro looked status hlooked
    obtain ⟨rfl, rfl⟩ := hlooked
    exact .active hmade hactive
  · cases stop with
    | early outcome => exact hnext ran outcome (exitTells_of_early hearly)
    | waiting =>
        refine Ensures.pure ?_
        intro told htold
        cases htold
    | panicked =>
        refine Ensures.pure ?_
        intro told htold
        cases htold

/--
**The exit status of an ingest is borne out by its log.**  0: the whole file is placed, its
registration and its activation are final.  3: the registration is final, and the
activation is not.  8: the registration was sent, and what became of it is not known.  6, 7
and 1: nothing was registered by this run, and the lookups say what the root is otherwise.
There is no other exit status.
-/
theorem exit_status_tells (c : Ingest σ) :
    (∀ fileName content peers clock,
      Ensures (c.withExitStatus (c.run fileName content peers clock)) fun log out =>
        ∀ told, out = .ok told → ∃ ran looked, log = ran ++ looked ∧
          c.ExitTells (c.publicRegistration fileName content) peers clock ran looked told) ∧
    ∀ kFile ephSeeds fileName content recipients peers clock,
      Ensures (c.withExitStatus
        (c.runPrivately kFile ephSeeds fileName content recipients peers clock)) fun log out =>
        ∀ told, out = .ok told → ∃ ran looked, log = ran ++ looked ∧
          c.ExitTells (c.privateRegistration kFile ephSeeds fileName content recipients) peers clock
            ran looked told := by
  refine ⟨?_, ?_⟩
  · intro fileName content peers clock
    refine withExitStatus_spec ?_ (ingestStage_spec (fun _ h => publicRegistration_error h) _ _ _)
    intro r hmade
    obtain ⟨-, -, -, hsound, -⟩ := publicRegistration_ok hmade
    exact hsound
  · intro kFile ephSeeds fileName content recipients peers clock
    refine withExitStatus_spec ?_ (ingestStage_spec (fun _ h => privateRegistration_error h) _ _ _)
    intro r hmade
    obtain ⟨-, -, -, -, -, hsound, -⟩ := privateRegistration_ok hmade
    exact hsound

/-! ### What a run submits -/

/--
The transactions of a log: the registration at most, with the checks complete before it,
and the activation, with the registration final and the file delivered before it.
-/
def Submits (c : Ingest σ) (made : Except IngestOutcome Registration) (peers : MapPeerResolver)
    (clock : IngestClock) (log : List IngestCall) : Prop :=
  ∃ checks registration delivery activation,
    log = checks ++ (registration ++ (delivery ++ activation)) ∧
    Silent checks ∧ Silent delivery ∧
    (registration ≠ [] → ∃ r fate, made = .ok r ∧ c.Checked r peers clock checks ∧
      Traces (c.registers r) (submissionsOf registration) fate) ∧
    (activation ≠ [] → ∃ r height fate, made = .ok r ∧
      Traces (c.registers r) (submissionsOf registration) (.finalized height) ∧
      c.Delivered r delivery ∧ Traces (c.activates r) (submissionsOf activation) fate)

omit [Bs58] in
theorem EndsEarly.submits {made : Except IngestOutcome Registration} {peers : MapPeerResolver}
    {clock : IngestClock} {log : List IngestCall} {stop : Stop IngestOutcome}
    (h : c.EndsEarly made peers clock log stop) : c.Submits made peers clock log := by
  cases h with
  | notSent hsilent _ =>
      refine ⟨log, [], [], [], ?_, hsilent, quiet_nil, absurd rfl, absurd rfl⟩
      simp
  | @unregistered checks registration _ r fate hmade hsilent hchecked htraces _ _ =>
      refine ⟨checks, registration, [], [], ?_, hsilent, quiet_nil, ?_, absurd rfl⟩
      · simp
      · intro _
        exact ⟨r, fate, hmade, hchecked, htraces⟩
  | @undelivered checks registration rest _ r height hmade hsilent hchecked htraces hrest _ =>
      refine ⟨checks, registration, rest, [], ?_, hsilent, hrest, ?_, absurd rfl⟩
      · simp
      · intro _
        exact ⟨r, _, hmade, hchecked, htraces⟩
  | @unactivated checks registration delivery activation _ r height fate hmade hsilent hchecked
      htraces hquiet hdelivered hactivation _ _ =>
      refine ⟨checks, registration, delivery, activation, rfl, hsilent, hquiet, ?_, ?_⟩
      · intro _
        exact ⟨r, _, hmade, hchecked, htraces⟩
      · intro _
        exact ⟨r, height, fate, hmade, htraces, hdelivered, hactivation⟩

omit [Bs58] in
theorem EndsActivated.submits {made : Except IngestOutcome Registration} {peers : MapPeerResolver}
    {clock : IngestClock} {log : List IngestCall} {outcome : IngestOutcome}
    (h : c.EndsActivated made peers clock log outcome) : c.Submits made peers clock log := by
  obtain ⟨r, registerTxHash, registerHeight, activateTxHash, activateHeight, hmade, -, checks,
    registration, delivery, activation, nonce, nonce', rfl, hquiet, hchecked, hregistered, hquiet',
    hdelivered, hactivated⟩ := h
  refine ⟨checks, registration, delivery, activation, rfl, hquiet, hquiet', ?_, ?_⟩
  · intro _
    exact ⟨r, _, hmade, hchecked, hregistered.traces⟩
  · intro _
    exact ⟨r, registerHeight, _, hmade, hregistered.traces, hdelivered, hactivated.traces⟩

omit [Bs58] in
theorem outcomeOf_submits {made : Except IngestOutcome Registration} {peers : MapPeerResolver}
    {clock : IngestClock} {m : Stage σ IngestOutcome IngestOutcome}
    (h : Exits m (c.EndsActivated made peers clock) (c.EndsEarly made peers clock)) :
    Ensures (outcomeOf m) fun log _ => c.Submits made peers clock log := by
  refine Ensures.mono (outcomeOf_spec h) ?_
  intro log out hlog
  rcases hlog with ⟨outcome, -, hactivated⟩ | ⟨stop, -, hearly⟩
  · exact hactivated.submits
  · exact hearly.submits

/--
**An ingest registers only what it has checked and activates only what it has delivered**,
wherever it ends, and also where it still waits.
-/
theorem ingest_submits (c : Ingest σ) :
    (∀ fileName content peers clock, Ensures (c.run fileName content peers clock) fun log _ =>
      c.Submits (c.publicRegistration fileName content) peers clock log) ∧
    ∀ kFile ephSeeds fileName content recipients peers clock,
      Ensures (c.runPrivately kFile ephSeeds fileName content recipients peers clock) fun log _ =>
        c.Submits (c.privateRegistration kFile ephSeeds fileName content recipients) peers clock
          log := by
  refine ⟨?_, ?_⟩
  · intro fileName content peers clock
    exact outcomeOf_submits (ingestStage_spec (fun _ h => publicRegistration_error h) _ _ _)
  · intro kFile ephSeeds fileName content recipients peers clock
    exact outcomeOf_submits (ingestStage_spec (fun _ h => privateRegistration_error h) _ _ _)

end

end Ingest

end Snip
