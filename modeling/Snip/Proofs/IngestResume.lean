/-
What `resume` and `abandon` tell their caller.

`resume` submits one transaction at most, the activation, and only for a file whose row is
pending, that the content gives again, and whose chunks are all attested or pushed.
`abandon` submits one at most, for a row that is pending and old enough.
-/
import Snip.Proofs.IngestRun
import Snip.Proofs.MissingIndices

namespace Snip

open Dialogue

namespace Ingest

section

variable {σ : Type} [CryptoLib] {c : Ingest σ}

/-! ### The chunks that nobody has attested -/

/-- The pages that were read list these chunks and no others, and the last page is the end. -/
structure Listed (rootHex : Str) (log : List IngestCall) (missing : Finset Nat) : Prop where
  pages : ∀ call ∈ log, ∃ offset cov, call = .coverage rootHex (some offset) (.ok (some cov))
  exact : ∀ i, i ∈ missing ↔
    ∃ offset cov, .coverage rootHex (some offset) (.ok (some cov)) ∈ log ∧ i ∈ cov.missingIndices
  ended : ∃ offset cov, log.getLast? = some (.coverage rootHex (some offset) (.ok (some cov))) ∧
    (cov.missingIndices = [] ∨ cov.missingIndices.getLast? = some u32Max)

theorem collectLoop_spec (merkleRoot : Hash) (calls : Nat) : ∀ (offset : Nat) (seen : Finset Nat),
    Gathers IngestCall.submission? (c.collectLoop merkleRoot calls offset seen) fun log out =>
      ∀ missing, out = some missing → ∃ new, missing = seen ∪ new ∧
        Listed (fileRootHex merkleRoot) log new := by
  induction calls with
  | zero => intro offset seen; exact Gathers.throw
  | succ calls ih =>
      intro offset seen
      refine Gathers.bind (Gathers.query fun _ => rfl) ?_
      intro log row hlog
      subst hlog
      cases row with
      | none => exact Gathers.pure nofun
      | some cov =>
          dsimp only
          cases hlast : cov.missingIndices.getLast? with
          | none =>
              refine Gathers.pure ?_
              intro missing hmissing
              obtain rfl := Option.some.inj hmissing
              have hempty : cov.missingIndices = [] := List.getLast?_eq_none_iff.mp hlast
              refine ⟨∅, (Finset.union_empty _).symm, ?_, ?_, offset, cov, rfl, Or.inl hempty⟩
              · intro call hcall
                exact ⟨offset, cov, List.mem_singleton.mp hcall⟩
              · intro i
                refine ⟨fun h => absurd h (Finset.notMem_empty i), ?_⟩
                rintro ⟨o, cov', hmem, hi⟩
                injection List.mem_singleton.mp hmem with _ _ hcov
                obtain rfl := Option.some.inj (Except.ok.inj hcov)
                rw [hempty] at hi
                cases hi
          | some last =>
              dsimp only
              by_cases hstuck : saturatingNext last = last
              · simp only [if_pos hstuck]
                refine Gathers.pure ?_
                intro missing hmissing
                obtain rfl := Option.some.inj hmissing
                refine ⟨cov.missingIndices.toFinset, rfl, ?_, ?_, offset, cov, rfl, Or.inr ?_⟩
                · intro call hcall
                  exact ⟨offset, cov, List.mem_singleton.mp hcall⟩
                · intro i
                  rw [List.mem_toFinset]
                  refine ⟨fun h => ⟨offset, cov, List.mem_singleton_self _, h⟩, ?_⟩
                  rintro ⟨o, cov', hmem, hi⟩
                  injection List.mem_singleton.mp hmem with _ _ hcov
                  obtain rfl := Option.some.inj (Except.ok.inj hcov)
                  exact hi
                · rw [hlast, (CoverageRpc.saturatingNext_eq_iff last).mp hstuck]
              · simp only [if_neg hstuck]
                refine Gathers.mono (ih (saturatingNext last) _) ?_
                intro log out hlog missing hmissing
                obtain ⟨new, rfl, hlisted⟩ := hlog missing hmissing
                refine ⟨cov.missingIndices.toFinset ∪ new, Finset.union_assoc _ _ _, ?_, ?_, ?_⟩
                · intro call hcall
                  rcases List.mem_cons.mp hcall with rfl | hcall
                  · exact ⟨offset, cov, rfl⟩
                  · exact hlisted.pages call hcall
                · intro i
                  rw [Finset.mem_union, List.mem_toFinset, hlisted.exact i]
                  constructor
                  · rintro (h | ⟨o, cov', hmem, hi⟩)
                    · exact ⟨offset, cov, List.mem_cons_self .., h⟩
                    · exact ⟨o, cov', List.mem_cons_of_mem _ hmem, hi⟩
                  · rintro ⟨o, cov', hmem, hi⟩
                    rcases List.mem_cons.mp hmem with heq | hmem
                    · injection heq with _ _ hcov
                      obtain rfl := Option.some.inj (Except.ok.inj hcov)
                      exact Or.inl hi
                    · exact Or.inr ⟨o, cov', hmem, hi⟩
                · obtain ⟨o, cov', hget, hend⟩ := hlisted.ended
                  refine ⟨o, cov', ?_, hend⟩
                  rw [List.getLast?_append, hget]
                  rfl

theorem collectMissingIndices_listed (merkleRoot : Hash) (calls : Nat) :
    Gathers IngestCall.submission? (c.collectMissingIndices merkleRoot calls) fun log out =>
      ∀ missing, out = some missing → Listed (fileRootHex merkleRoot) log missing := by
  refine Gathers.mono (collectLoop_spec merkleRoot calls 0 ∅) ?_
  intro log out hlog missing hmissing
  obtain ⟨new, rfl, hlisted⟩ := hlog missing hmissing
  rw [Finset.empty_union]
  exact hlisted

/-! ### A resume that pushes -/

variable [Blake3] [AssignmentScore] {file : ReproducedFile}

/--
What a resume has seen of the coverage when it goes on to activate: that it activates
already, or the chunks that it lists as missing, placed.
-/
inductive Recovered (c : Ingest σ) (file : ReproducedFile) (snapshot : List Addr) :
    List IngestCall → AssignmentCoverageV2 → Prop where
  | covered {cov : AssignmentCoverageV2} : cov.canActivateNow = true →
      Recovered c file snapshot
        [.coverage (fileRootHex file.manifest.merkleRoot) none (.ok (some cov))] cov
  | pushed {probed cov : AssignmentCoverageV2} {missing : Finset Nat} {pages rest : List IngestCall}
      {peers : MapPeerResolver} : probed.canActivateNow = false →
      Listed (fileRootHex file.manifest.merkleRoot) pages missing →
      c.Placed file snapshot missing peers rest →
      rest.getLast? = some
        (.coverage (fileRootHex file.manifest.merkleRoot) none (.ok (some cov))) →
      cov.canActivateNow = true →
      Recovered c file snapshot
        (.coverage (fileRootHex file.manifest.merkleRoot) none (.ok (some probed)) ::
          (pages ++ rest)) cov

theorem resumeCoverage_spec (hr : 0 < c.params.assignmentReplicationFactor) (hsound : file.Sound)
    (snapshot : List Addr) (peers : MapPeerResolver) (calls : Nat) (clock : IngestClock) :
    Exits (c.resumeCoverage file snapshot peers calls clock)
      (fun log cov => Silent log ∧ Recovered c file snapshot log cov)
      fun log stop => Silent log ∧
        ∀ outcome, stop = .early outcome → LeavesPending file outcome := by
  have hcalm : ∀ answer : Except Str (Option AssignmentCoverageV2), Silent
      [IngestCall.coverage (fileRootHex file.manifest.merkleRoot) none answer] := by
    intro answer
    exact quiet_cons.mpr ⟨rfl, quiet_nil⟩
  refine Exits.bind (E := fun _ _ => False) Exits.ask (fun _ _ h => h.elim) ?_
  intro log answer hlog
  subst hlog
  have hthrow : ∀ outcome, LeavesPending file outcome → Exits
      (throw (.early outcome) : Stage σ IngestOutcome AssignmentCoverageV2)
      (fun log cov =>
        Silent ([.coverage (fileRootHex file.manifest.merkleRoot) none answer] ++ log) ∧
          Recovered c file snapshot
            ([.coverage (fileRootHex file.manifest.merkleRoot) none answer] ++ log) cov)
      fun log stop =>
        Silent ([.coverage (fileRootHex file.manifest.merkleRoot) none answer] ++ log) ∧
          ∀ outcome, stop = .early outcome → LeavesPending file outcome := by
    intro outcome hleaves
    refine Exits.throw ⟨hcalm answer, ?_⟩
    intro outcome' heq
    obtain rfl := Stop.early.inj heq
    exact hleaves
  cases answer with
  | error e => exact hthrow _ ⟨_, rfl, rfl⟩
  | ok row =>
  cases row with
  | none => exact hthrow _ ⟨_, rfl, rfl⟩
  | some probed =>
      dsimp only
      cases hprobed : probed.canActivateNow with
      | true => exact Exits.pure ⟨hcalm _, .covered hprobed⟩
      | false =>
          simp only [Bool.false_eq_true, if_false]
          refine Exits.bind (orReturn_quiet
            (collectMissingIndices_listed file.manifest.merkleRoot calls) _) ?_ ?_
          · intro log stop hlog
            refine ⟨quiet_append.mpr ⟨hcalm _, hlog.1⟩, ?_⟩
            intro outcome hearly
            obtain ⟨e, rfl⟩ := hlog.2 outcome hearly
            exact ⟨_, rfl, rfl⟩
          intro pages out hpages
          obtain ⟨hquiet, hlisted⟩ := hpages
          cases out with
          | none =>
              refine Exits.throw ⟨?_, ?_⟩
              · rw [List.append_nil]
                exact quiet_append.mpr ⟨hcalm _, hquiet⟩
              · intro outcome heq
                obtain rfl := Stop.early.inj heq
                exact ⟨_, rfl, rfl⟩
          | some missing =>
              refine Exits.mono (pushUntilCovered_spec hr snapshot missing (some probed) peers
                clock) ?_ ?_
              · intro rest cov hrest
                obtain ⟨hquiet', waits, pushed, -, -, hcovered⟩ := hrest
                refine ⟨quiet_append.mpr ⟨hcalm _, quiet_append.mpr ⟨hquiet, hquiet'⟩⟩, ?_⟩
                have hpushed : Recovered c file snapshot (_ :: (pages ++ rest)) cov :=
                  .pushed hprobed (hlisted missing rfl) (hcovered.placed hsound) hcovered.last.1
                    hcovered.last.2
                exact hpushed
              · intro rest stop hrest
                exact ⟨quiet_append.mpr ⟨hcalm _, quiet_append.mpr ⟨hquiet, hrest.1⟩⟩, hrest.2.1⟩

variable [Bs58] [SumchainWire] [FileLifecycleWire]

/-- What a resume has read and sent before it activates the file of a row. -/
def Ready (c : Ingest σ) (info : RegisteredFilePage) (file : ReproducedFile)
    (log : List IngestCall) : Prop :=
  ∃ raw snapshot rest cov, log = .activeNodes info.assignmentHeight (.ok raw) :: rest ∧
    decodeSnapshot raw = some snapshot ∧ Recovered c file snapshot rest cov

/-- A log that leaves the file as it is, or with an activation that is not seen to be final. -/
def Unactivated (c : Ingest σ) (info : RegisteredFilePage) (file : ReproducedFile)
    (log : List IngestCall) : Prop :=
  Silent log ∨ ∃ ready activation fate, log = ready ++ activation ∧ Silent ready ∧
    c.Ready info file ready ∧
    Traces (c.activateTx file.manifest.merkleRoot) (submissionsOf activation) fate ∧
    ∀ height, fate ≠ .finalized height

theorem resumePending_spec (hr : 0 < c.params.assignmentReplicationFactor) (hsound : file.Sound)
    (info : RegisteredFilePage) (peers : MapPeerResolver) (calls : Nat) (clock : IngestClock) :
    Exits (c.resumePending info file peers calls clock)
      (fun log outcome => ∃ ready activation nonce txHash height, log = ready ++ activation ∧
        outcome = .resumedActivated file.manifest.merkleRoot file.manifest info.createdAt txHash
          height ∧
        Silent ready ∧ c.Ready info file ready ∧
        Polled (c.activateTx file.manifest.merkleRoot) nonce txHash (.ok (.finalized height))
          activation)
      fun log stop => (∀ outcome, stop = .early outcome → LeavesPending file outcome) ∧
        c.Unactivated info file log := by
  refine Exits.bind (orReturn_quiet (readSnapshot_spec info.assignmentHeight) _) ?_ ?_
  · intro log stop hlog
    refine ⟨?_, Or.inl hlog.1⟩
    intro outcome hearly
    obtain ⟨e, rfl⟩ := hlog.2 outcome hearly
    exact ⟨_, rfl, rfl⟩
  intro log snapshot hlog
  obtain ⟨hquiet, raw, rfl, hdecode⟩ := hlog
  by_cases hempty : snapshot = []
  · simp only [if_pos hempty]
    refine Exits.throw ⟨?_, Or.inl ?_⟩
    · intro outcome heq
      obtain rfl := Stop.early.inj heq
      exact ⟨_, rfl, rfl⟩
    · rw [List.append_nil]
      exact hquiet
  simp only [if_neg hempty]
  refine Exits.bind (resumeCoverage_spec hr hsound snapshot peers calls clock) ?_ ?_
  · intro log stop hlog
    exact ⟨hlog.2, Or.inl (quiet_append.mpr ⟨hquiet, hlog.1⟩)⟩
  intro rest cov hrest
  obtain ⟨hquiet', hrecovered⟩ := hrest
  have hcalm := quiet_append.mpr ⟨hquiet, hquiet'⟩
  have hready : c.Ready info file _ := ⟨raw, snapshot, rest, cov, rfl, hdecode, hrecovered⟩
  refine Exits.bind (activate_spec file cov clock.activation) ?_ ?_
  · intro activation stop hstop
    obtain ⟨hleaves, hactivation⟩ := hstop
    refine ⟨hleaves, ?_⟩
    rw [← List.append_assoc]
    rcases hactivation with hsilent | ⟨fate, htraces, hnot⟩
    · exact Or.inl (quiet_append.mpr ⟨hcalm, hsilent⟩)
    · exact Or.inr ⟨_, activation, fate, rfl, hcalm, hready, htraces, hnot⟩
  intro activation done hdone
  obtain ⟨txHash, height⟩ := done
  obtain ⟨nonce, hpolled⟩ := hdone
  refine Exits.pure ⟨_, activation, nonce, txHash, height, ?_, rfl, hcalm, hready, hpolled⟩
  rw [List.append_nil, List.append_assoc]

/-! ### `resume` -/

/-- What a resume says that goes no further than the row and the content. -/
inductive RowTells (c : Ingest σ) (info : RegisteredFilePage) (merkleRoot : Hash) (fileName : Str) :
    Except Str Bytes → IngestOutcome → Prop where
  | rootMismatch {content : Bytes} {manifest : DataManifest} : manifest.merkleRoot ≠ merkleRoot →
      (info.visibility.isPrivate = false → manifest = chunkMapped fileName content) →
      RowTells c info merkleRoot fileName (.ok content)
        (.rootMismatch merkleRoot manifest.merkleRoot manifest)
  | active {content : Bytes} {file : ReproducedFile} {height : Nat} :
      c.resumeRebuild info merkleRoot fileName content = .ok file →
      info.lifecycle.isActive = true → info.activatedAtHeight = some height →
      RowTells c info merkleRoot fileName (.ok content)
        (.activatedOnChain merkleRoot file.manifest info.createdAt height)
  | abandoned {content : Bytes} {file : ReproducedFile} :
      c.resumeRebuild info merkleRoot fileName content = .ok file →
      info.lifecycle.isAbandoned = true →
      RowTells c info merkleRoot fileName (.ok content)
        (.abandonedOnChain merkleRoot file.manifest info.abandonedAtHeight)
  | failed {content : Bytes} {manifest : Option DataManifest} {source : IngestError} :
      RowTells c info merkleRoot fileName (.ok content) (.failed .register manifest source)
  | unread {e : Str} {source : IngestError} :
      RowTells c info merkleRoot fileName (.error e) (.failed .register none source)

omit [AssignmentScore] [FileLifecycleWire] in
theorem rowTells_of_rebuild {info : RegisteredFilePage} {merkleRoot : Hash} {fileName : Str}
    {content : Bytes} {stop : ResumeStop}
    (h : c.resumeRebuild info merkleRoot fileName content = .error stop) :
    RowTells c info merkleRoot fileName (.ok content) stop.outcome := by
  unfold IngestPipeline.resumeRebuild at h
  by_cases hprivate : info.visibility.isPrivate = true
  · rw [if_pos hprivate] at h
    by_cases howner : info.owner ≠ c.myAddrBase58
    · rw [if_pos howner] at h
      obtain rfl := Except.error.inj h
      exact .failed
    rw [if_neg howner] at h
    cases hkey : c.recoverKFile info.toOwnedFilePage with
    | error e =>
        simp only [hkey] at h
        obtain rfl := Except.error.inj h
        exact .failed
    | ok kFile =>
    cases hbuild : buildPrivateArtifacts fileName content kFile with
    | error e =>
        simp only [hkey, hbuild] at h
        obtain rfl := Except.error.inj h
        exact .failed
    | ok a =>
    simp only [hkey, hbuild] at h
    by_cases hroot : a.manifest.merkleRoot ≠ merkleRoot
    · rw [if_pos hroot] at h
      obtain rfl := Except.error.inj h
      refine .rootMismatch hroot ?_
      intro hpublic
      rw [hprivate] at hpublic
      cases hpublic
    · rw [if_neg hroot] at h
      cases h
  · rw [if_neg hprivate] at h
    dsimp only at h
    by_cases hroot : (ReproducedFile.ofPublic fileName content).manifest.merkleRoot ≠ merkleRoot
    · rw [if_pos hroot] at h
      obtain rfl := Except.error.inj h
      exact .rootMismatch hroot fun _ => rfl
    · rw [if_neg hroot] at h
      cases h

omit [AssignmentScore] [FileLifecycleWire] in
theorem rowTells_of_stop {info : RegisteredFilePage} {merkleRoot : Hash} {fileName : Str}
    {content : Bytes} {stop : ResumeStop}
    (h : c.resumeFile info merkleRoot fileName content = .error stop) :
    RowTells c info merkleRoot fileName (.ok content) stop.outcome := by
  unfold IngestPipeline.resumeFile at h
  cases hrebuild : c.resumeRebuild info merkleRoot fileName content with
  | error e =>
      simp only [hrebuild] at h
      obtain rfl := Except.error.inj h
      exact rowTells_of_rebuild hrebuild
  | ok file =>
  simp only [hrebuild] at h
  by_cases hactive : info.lifecycle.isActive = true
  · rw [if_pos hactive] at h
    cases hheight : info.activatedAtHeight with
    | none =>
        simp only [hheight] at h
        obtain rfl := Except.error.inj h
        exact .failed
    | some height =>
        simp only [hheight] at h
        obtain rfl := Except.error.inj h
        exact .active hrebuild hactive hheight
  rw [if_neg hactive] at h
  by_cases habandoned : info.lifecycle.isAbandoned = true
  · rw [if_pos habandoned] at h
    obtain rfl := Except.error.inj h
    exact .abandoned hrebuild habandoned
  rw [if_neg habandoned] at h
  by_cases hpending : info.lifecycle.isPending = true
  · simp only [hpending, Bool.not_true, Bool.false_eq_true, if_false] at h
    cases h
  · simp only [hpending, Bool.not_false, if_true] at h
    obtain rfl := Except.error.inj h
    exact .failed

omit [AssignmentScore] [FileLifecycleWire] in
theorem resumeContent_error {info : RegisteredFilePage} {merkleRoot : Hash} {fileName : Str}
    {content : Except Str Bytes} {outcome : IngestOutcome}
    (h : c.resumeContent info merkleRoot fileName content = .error outcome) :
    RowTells c info merkleRoot fileName content outcome := by
  unfold resumeContent at h
  cases content with
  | ok content =>
      cases hfile : c.resumeFile info merkleRoot fileName content with
      | ok file =>
          simp only [hfile] at h
          cases h
      | error stop =>
          simp only [hfile] at h
          obtain rfl := Except.error.inj h
          exact rowTells_of_stop hfile
  | error e =>
      dsimp only at h
      split at h
      · obtain rfl := Except.error.inj h
        exact .unread
      split at h
      · obtain rfl := Except.error.inj h
        exact .unread
      split at h
      · obtain rfl := Except.error.inj h
        exact .unread
      · obtain rfl := Except.error.inj h
        exact .unread

omit [AssignmentScore] [FileLifecycleWire] in
theorem resumeContent_ok {info : RegisteredFilePage} {merkleRoot : Hash} {fileName : Str}
    {content : Except Str Bytes} {file : ReproducedFile}
    (h : c.resumeContent info merkleRoot fileName content = .ok file) :
    ∃ bytes, content = .ok bytes ∧ c.resumeFile info merkleRoot fileName bytes = .ok file := by
  unfold resumeContent at h
  cases content with
  | ok content =>
      cases hfile : c.resumeFile info merkleRoot fileName content with
      | ok file' =>
          simp only [hfile] at h
          obtain rfl := Except.ok.inj h
          exact ⟨content, rfl, hfile⟩
      | error stop =>
          simp only [hfile] at h
          cases h
  | error e =>
      dsimp only at h
      split at h
      · cases h
      split at h
      · cases h
      split at h
      · cases h
      · cases h

/-- What a resume has read before it goes on with the file of a row. -/
def Rebuilt (c : Ingest σ) (merkleRoot : Hash) (fileName : Str) (content : Except Str Bytes)
    (log : List IngestCall) (info : RegisteredFilePage) (file : ReproducedFile) : Prop :=
  0 < c.params.assignmentReplicationFactor ∧
  ∃ height enabledAt bytes,
    log = [.blockHeight (.ok height), .fileInfo (fileRootHex merkleRoot) (.ok (some info))] ∧
    c.params.v2EnabledFromHeight = some enabledAt ∧ enabledAt ≤ height ∧
    info.lifecycle.isPending = true ∧ content = .ok bytes ∧
    c.resumeRebuild info merkleRoot fileName bytes = .ok file ∧ file.Sound ∧
    file.manifest.merkleRoot = merkleRoot

/-- How a resume ends, by its log. -/
inductive EndsResume (c : Ingest σ) (merkleRoot : Hash) (fileName : Str)
    (content : Except Str Bytes) : List IngestCall → Except Pause IngestOutcome → Prop where
  | refused {log : List IngestCall} {manifest : Option DataManifest} {source : IngestError} :
      Silent log → EndsResume c merkleRoot fileName content log
        (.ok (.failed .register manifest source))
  | row {log : List IngestCall} {info : RegisteredFilePage} {outcome : IngestOutcome} :
      Silent log → log.getLast? = some (.fileInfo (fileRootHex merkleRoot) (.ok (some info))) →
      c.RowTells info merkleRoot fileName content outcome →
      EndsResume c merkleRoot fileName content log (.ok outcome)
  | paused {log : List IngestCall} {pause : Pause} : Silent log →
      EndsResume c merkleRoot fileName content log (.error pause)
  | unactivated {read rest : List IngestCall} {info : RegisteredFilePage} {file : ReproducedFile}
      {out : Except Pause IngestOutcome} : c.Rebuilt merkleRoot fileName content read info file →
      c.Unactivated info file rest → (∀ outcome, out = .ok outcome → LeavesPending file outcome) →
      EndsResume c merkleRoot fileName content (read ++ rest) out
  | resumed {read ready activation : List IngestCall} {info : RegisteredFilePage}
      {file : ReproducedFile} {nonce height : Nat} {txHash : Str} :
      c.Rebuilt merkleRoot fileName content read info file → Silent ready →
      c.Ready info file ready →
      Polled (c.activateTx merkleRoot) nonce txHash (.ok (.finalized height)) activation →
      EndsResume c merkleRoot fileName content (read ++ (ready ++ activation))
        (.ok (.resumedActivated merkleRoot file.manifest info.createdAt txHash height))

theorem resumeStage_spec (merkleRoot : Hash) (fileName : Str) (content : Except Str Bytes)
    (peers : MapPeerResolver) (calls : Nat) (clock : IngestClock) :
    Exits (c.resumeStage merkleRoot fileName content peers calls clock)
      (fun log outcome => c.EndsResume merkleRoot fileName content log (.ok outcome))
      fun log stop =>
        c.EndsResume merkleRoot fileName content log (Stop.outcome (.error stop)) := by
  refine Exits.bind (preflight_spec .resume) ?_ ?_
  · intro log stop hlog
    obtain ⟨hquiet, hearly⟩ := hlog
    cases stop with
    | early outcome =>
        obtain ⟨source, rfl, -⟩ := hearly outcome rfl
        exact .refused hquiet
    | waiting => exact .paused hquiet
    | panicked => exact .paused hquiet
  intro log _ hlog
  obtain ⟨hquiet, hr, height, enabledAt, rfl, henabled, hle⟩ := hlog
  refine Exits.bind Exits.query ?_ ?_
  · intro log stop hlog
    obtain ⟨reason, rfl, rfl⟩ := hlog
    exact .refused (quiet_append.mpr ⟨hquiet, quiet_cons.mpr ⟨rfl, quiet_nil⟩⟩)
  intro log row hlog
  subst hlog
  have hquiet' : Silent ([IngestCall.blockHeight (.ok height)] ++
      [.fileInfo (fileRootHex merkleRoot) (.ok row)]) :=
    quiet_append.mpr ⟨hquiet, quiet_cons.mpr ⟨rfl, quiet_nil⟩⟩
  cases row with
  | none =>
      refine Exits.throw ?_
      exact .refused hquiet'
  | some info =>
  dsimp only
  cases hfile : c.resumeContent info merkleRoot fileName content with
  | error outcome =>
      refine Exits.bind (E := fun log stop' => log = [] ∧ stop' = .early outcome)
        (K := fun _ _ => False) (Exits.orStop ⟨rfl, rfl⟩) ?_ (fun _ _ h => h.elim)
      intro log stop' hlog
      obtain ⟨rfl, rfl⟩ := hlog
      exact .row hquiet' rfl (resumeContent_error hfile)
  | ok file =>
      refine Exits.bind (E := fun _ _ => False) (K := fun log file' => log = [] ∧ file' = file)
        (Exits.orStop ⟨rfl, rfl⟩) (fun _ _ h => h.elim) ?_
      intro log file' hlog
      obtain ⟨rfl, rfl⟩ := hlog
      obtain ⟨bytes, hbytes, hresumed⟩ := resumeContent_ok hfile
      obtain ⟨hrebuild, hpending⟩ := resumeFile_ok hresumed
      obtain ⟨hsound, hroot⟩ := sound_of_resumed hrebuild
      have hrebuilt : c.Rebuilt merkleRoot fileName content
          [.blockHeight (.ok height), .fileInfo (fileRootHex merkleRoot) (.ok (some info))] info
          file' :=
        ⟨hr, height, enabledAt, bytes, rfl, henabled, hle, hpending, hbytes, hrebuild, hsound, hroot⟩
      refine Exits.mono (resumePending_spec hr hsound info peers calls clock) ?_ ?_
      · intro log outcome hlog
        obtain ⟨ready, activation, nonce, txHash, height', rfl, rfl, hquiet'', hready,
          hpolled⟩ := hlog
        rw [hroot] at hpolled ⊢
        have hends := EndsResume.resumed hrebuilt hquiet'' hready hpolled
        exact hends
      · intro log stop hlog
        have hends : ∀ out, (∀ outcome, out = .ok outcome → LeavesPending file' outcome) →
            c.EndsResume merkleRoot fileName content ([.blockHeight (.ok height),
              .fileInfo (fileRootHex merkleRoot) (.ok (some info))] ++ log) out :=
          fun _ => .unactivated hrebuilt hlog.2
        refine hends _ ?_
        intro outcome houtcome
        cases stop with
        | early outcome' =>
            obtain rfl := Except.ok.inj houtcome
            exact hlog.1 outcome' rfl
        | waiting => cases houtcome
        | panicked => cases houtcome

/-- What the exit code of a resume says about the chain. -/
structure ExitCodeTells (c : Ingest σ) (merkleRoot : Hash) (log : List IngestCall)
    (outcome : IngestOutcome) : Prop where
  active : outcome.resumeExitCode = ResumeExit.active →
    (∃ info : RegisteredFilePage, .fileInfo (fileRootHex merkleRoot) (.ok (some info)) ∈ log ∧
      info.lifecycle.isActive = true) ∨
    ∃ before activation nonce txHash height, log = before ++ activation ∧
      Polled (c.activateTx merkleRoot) nonce txHash (.ok (.finalized height)) activation
  pending : outcome.resumeExitCode = ResumeExit.pending →
    ∃ info : RegisteredFilePage, .fileInfo (fileRootHex merkleRoot) (.ok (some info)) ∈ log ∧
      info.lifecycle.isPending = true
  abandoned : outcome.resumeExitCode = ResumeExit.abandoned →
    ∃ info : RegisteredFilePage, .fileInfo (fileRootHex merkleRoot) (.ok (some info)) ∈ log ∧
      info.lifecycle.isAbandoned = true
  mismatch : outcome.resumeExitCode = ResumeExit.rootMismatch → Silent log ∧
    ∃ actual, outcome.merkleRoot = some actual ∧ actual ≠ merkleRoot

omit [Blake3] [AssignmentScore] [Bs58] in
/-- A failure exits with a code that says nothing about the chain. -/
theorem exitCodeTells_failed (merkleRoot : Hash) (log : List IngestCall) (stage : IngestStage)
    (manifest : Option DataManifest) (source : IngestError) :
    c.ExitCodeTells merkleRoot log (.failed stage manifest source) :=
  ⟨nofun, nofun, nofun, nofun⟩

theorem EndsResume.exitCodeTells {merkleRoot : Hash} {fileName : Str} {content : Except Str Bytes}
    {log : List IngestCall} {outcome : IngestOutcome}
    (h : c.EndsResume merkleRoot fileName content log (.ok outcome)) :
    c.ExitCodeTells merkleRoot log outcome := by
  cases h with
  | refused hquiet => exact exitCodeTells_failed merkleRoot log _ _ _
  | row hquiet hlast htells =>
      have hread := List.mem_of_getLast? hlast
      cases htells with
      | rootMismatch hroot _ => exact ⟨nofun, nofun, nofun, fun _ => ⟨hquiet, _, rfl, hroot⟩⟩
      | active _ hactive _ => exact ⟨fun _ => .inl ⟨_, hread, hactive⟩, nofun, nofun, nofun⟩
      | abandoned _ habandoned => exact ⟨nofun, nofun, fun _ => ⟨_, hread, habandoned⟩, nofun⟩
      | failed => exact exitCodeTells_failed merkleRoot log _ _ _
      | unread => exact exitCodeTells_failed merkleRoot log _ _ _
  | unactivated hrebuilt _ hleaves =>
      obtain ⟨left, rfl, -⟩ := hleaves _ rfl
      obtain ⟨-, _, _, _, rfl, -, -, hpending, -⟩ := hrebuilt
      exact ⟨nofun, fun _ => ⟨_, by simp, hpending⟩, nofun, nofun⟩
  | @resumed read ready activation _ _ _ _ _ _ _ _ hpolled =>
      have hlog : read ++ (ready ++ activation) = (read ++ ready) ++ activation := by
        rw [List.append_assoc]
      exact ⟨fun _ => .inr ⟨_, activation, _, _, _, hlog, hpolled⟩, nofun, nofun, nofun⟩

/--
**A resume activates only a pending file whose chunks are attested, or placed by it**, and
whatever it reports, by its outcome or by its exit code, is what it has read.
-/
theorem resume_ends (c : Ingest σ) (merkleRoot : Hash) (fileName : Str)
    (content : Except Str Bytes) (peers : MapPeerResolver) (calls : Nat) (clock : IngestClock) :
    Ensures (c.resume merkleRoot fileName content peers calls clock) fun log out =>
      c.EndsResume merkleRoot fileName content log out ∧
        ∀ outcome, out = .ok outcome → c.ExitCodeTells merkleRoot log outcome := by
  refine Ensures.mono (outcomeOf_spec (resumeStage_spec merkleRoot fileName content peers calls
    clock)) ?_
  intro log out hlog
  have hends : c.EndsResume merkleRoot fileName content log out := by
    rcases hlog with ⟨outcome, rfl, hends⟩ | ⟨stop, rfl, hends⟩
    · exact hends
    · exact hends
  refine ⟨hends, ?_⟩
  rintro outcome rfl
  exact hends.exitCodeTells

/-! ### `abandon` -/

/-- Why the answer of the chain does not admit an abandon at this height, if it does not. -/
inductive Bars (c : Ingest σ) (merkleRoot : Hash) (height : Nat) :
    Option RegisteredFilePage → NotAdmissible → Nat → Prop where
  | unregistered : Bars c merkleRoot height none (.notRegistered merkleRoot) 0
  | lifecycle {info : RegisteredFilePage} : info.lifecycle.isPending = false →
      Bars c merkleRoot height (some info) (.lifecycle info.lifecycle) 0
  | grace {info : RegisteredFilePage} : info.lifecycle.isPending = true →
      height ≤ info.createdAt + c.params.activationGraceBlocks →
      Bars c merkleRoot height (some info)
        (.grace info.createdAt c.params.activationGraceBlocks) (c.earliestAdmissible info.createdAt)

omit [Blake3] [AssignmentScore] [Bs58] [SumchainWire] [FileLifecycleWire] in
/-- The grace is over behind the sum, or at the largest height there is. -/
theorem earliestAdmissible_le_iff (createdAt height : Nat) :
    c.earliestAdmissible createdAt ≤ height ↔
      createdAt + c.params.activationGraceBlocks < height ∨ 2 ^ 64 - 1 ≤ height := by
  unfold earliestAdmissible saturatingAdd64
  omega

/-- How an abandon ends, by its log. -/
inductive EndsAbandon (c : Ingest σ) (merkleRoot : Hash) :
    List IngestCall → Except Pause AbandonOutcome → Prop where
  | unread {log : List IngestCall} {out : Except Pause AbandonOutcome} : Silent log →
      (∀ outcome, out = .ok outcome → ∃ source, outcome = .failed source) →
      EndsAbandon c merkleRoot log out
  | barred {height earliest : Nat} {row : Option RegisteredFilePage} {reason : NotAdmissible} :
      Bars c merkleRoot height row reason earliest →
      EndsAbandon c merkleRoot
        [.blockHeight (.ok height), .fileInfo (fileRootHex merkleRoot) (.ok row)]
        (.ok (.notAdmissible reason height earliest))
  | unconfirmed {height : Nat} {info : RegisteredFilePage} {submission : List IngestCall}
      {fate : TxFate} {out : Except Pause AbandonOutcome} : info.lifecycle.isPending = true →
      c.earliestAdmissible info.createdAt ≤ height →
      Traces (c.abandonTx merkleRoot) (submissionsOf submission) fate →
      (∀ height, fate ≠ .finalized height) →
      (∀ outcome, out = .ok outcome → ∃ source, outcome = .failed source) →
      EndsAbandon c merkleRoot (.blockHeight (.ok height) ::
        .fileInfo (fileRootHex merkleRoot) (.ok (some info)) :: submission) out
  | abandoned {height nonce finalizedAtHeight : Nat} {info : RegisteredFilePage}
      {submission : List IngestCall} {txHash : Str} : info.lifecycle.isPending = true →
      c.earliestAdmissible info.createdAt ≤ height →
      Polled (c.abandonTx merkleRoot) nonce txHash (.ok (.finalized finalizedAtHeight))
        submission →
      EndsAbandon c merkleRoot (.blockHeight (.ok height) ::
        .fileInfo (fileRootHex merkleRoot) (.ok (some info)) :: submission)
        (.ok (.abandoned txHash finalizedAtHeight))

omit [AssignmentScore] in
theorem abandonStage_spec (merkleRoot : Hash) (clock : List Nat) :
    Exits (c.abandonStage merkleRoot clock)
      (fun log outcome => c.EndsAbandon merkleRoot log (.ok outcome))
      fun log stop => c.EndsAbandon merkleRoot log (Stop.outcome (.error stop)) := by
  refine Exits.bind (orReturn_quiet checkV2Enabled_spec _) ?_ ?_
  · intro log stop hlog
    refine .unread hlog.1 ?_
    intro outcome houtcome
    cases stop with
    | early outcome' =>
        obtain rfl := Except.ok.inj houtcome
        obtain ⟨e, rfl⟩ := hlog.2 outcome' rfl
        exact ⟨_, rfl⟩
    | waiting => cases houtcome
    | panicked => cases houtcome
  intro log height hlog
  obtain ⟨hquiet, rfl, -⟩ := hlog
  refine Exits.bind Exits.query ?_ ?_
  · intro log stop hlog
    obtain ⟨reason, rfl, rfl⟩ := hlog
    refine .unread (quiet_append.mpr ⟨hquiet, quiet_cons.mpr ⟨rfl, quiet_nil⟩⟩) ?_
    intro outcome houtcome
    obtain rfl := Except.ok.inj houtcome
    exact ⟨_, rfl⟩
  intro log row hlog
  subst hlog
  cases row with
  | none =>
      refine Exits.throw ?_
      exact .barred .unregistered
  | some info =>
  dsimp only
  cases hpending : info.lifecycle.isPending with
  | false =>
      simp only [Bool.not_false, if_true]
      refine Exits.throw ?_
      exact .barred (.lifecycle hpending)
  | true =>
  simp only [Bool.not_true, Bool.false_eq_true, if_false]
  by_cases hgrace : height < c.earliestAdmissible info.createdAt
  · simp only [if_pos hgrace]
    refine Exits.throw ?_
    refine .barred (.grace hpending ?_)
    by_contra hlt
    have hle := (earliestAdmissible_le_iff (c := c) info.createdAt height).mpr
      (Or.inl (not_le.mp hlt))
    omega
  simp only [if_neg hgrace]
  have hle := not_lt.mp hgrace
  have hreads : Silent ([IngestCall.blockHeight (.ok height)] ++
      [.fileInfo (fileRootHex merkleRoot) (.ok (some info))]) :=
    quiet_append.mpr ⟨hquiet, quiet_cons.mpr ⟨rfl, quiet_nil⟩⟩
  refine Exits.bind (orReturn_submit (c.abandonTx merkleRoot) clock _) ?_ ?_
  · intro submission stop hstop
    obtain ⟨stop', rfl, hends⟩ := hstop
    have hfailed : ∀ outcome, Stop.outcome (.error (stop'.map fun e =>
        AbandonOutcome.failed (.submission e))) = .ok outcome →
          ∃ source, outcome = .failed source := by
      intro outcome houtcome
      cases stop' with
      | early e =>
          obtain rfl := Except.ok.inj houtcome
          exact ⟨_, rfl⟩
      | waiting => cases houtcome
      | panicked => cases houtcome
    have hnot := fate?_ne_finalized stop'
    cases hfate : stop'.fate? with
    | none =>
        have hshows := hends.shows
        rw [hfate] at hshows
        rw [← List.append_assoc]
        exact .unread (quiet_append.mpr ⟨hreads, hshows⟩) hfailed
    | some fate =>
        rw [hfate] at hnot
        exact .unconfirmed hpending hle (hends.traces hfate)
          (fun height heq => hnot height (congrArg some heq)) hfailed
  intro submission done hdone
  obtain ⟨txHash, finalizedAtHeight⟩ := done
  obtain ⟨nonce, hpolled⟩ := hdone
  refine Exits.pure ?_
  rw [List.append_nil]
  exact .abandoned hpending hle hpolled

omit [AssignmentScore] in
/--
**An abandon is sent only for a file that is pending and whose grace is over**, and it is
reported only when it is final.
-/
theorem abandon_ends (c : Ingest σ) (merkleRoot : Hash) (clock : List Nat) :
    Ensures (c.abandon merkleRoot clock) (c.EndsAbandon merkleRoot) := by
  refine Ensures.mono (outcomeOf_spec (abandonStage_spec merkleRoot clock)) ?_
  intro log out hlog
  rcases hlog with ⟨outcome, rfl, hends⟩ | ⟨stop, rfl, hends⟩
  · exact hends
  · exact hends

end

end Ingest

end Snip
