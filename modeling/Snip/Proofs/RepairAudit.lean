/-
When `repush-audit` says that a repair is complete.

A log of the audit has every read of the chain in it, under the file it was made for.  The
reads of one root, first look and second, say all there is to say about its verdict, so the
exit code is read off root by root.  The assignment the audit computes by itself is the one
the archive's push validator checks against.
-/
import Snip.Lib.Lists
import Snip.Node.RepairAudit
import Snip.Proofs.Acceptance
import Snip.Proofs.Assignment

namespace Snip

open Dialogue

/-! ### The assignment -/

/-- The validator finds these rows at the height, decoded in its cache or on the chain. -/
def PushValidator.Finds (v : PushValidator) (rpc : ChainRpc) (height : Nat)
    (raw : List NodeRecordInfo) : Prop :=
  match v.snapshot.peek height with
  | some snapshot => decodeSnapshot raw = some snapshot
  | none => rpc.activeNodesAtHeight height = .ok raw

section

variable [AssignmentScore]

/-- The check of the archive's own validator, which sees the chain as the audit saw it. -/
def PassesCheckAssigned (archive : Addr) (r : Nat) (root : Hash) (epoch : Nat)
    (raw : List NodeRecordInfo) (i : Nat) : Prop :=
  ∃ (v : PushValidator) (rpc : ChainRpc), v.myAddr = archive ∧
    v.params.assignmentReplicationFactor = r ∧ v.Finds rpc epoch raw ∧
    (v.checkAssigned rpc root epoch i).2 = .ok ()

omit [AssignmentScore] in
theorem fetchSnapshot_of_finds {v : PushValidator} {rpc : ChainRpc} {height : Nat}
    {raw : List NodeRecordInfo} {snapshot : List Addr} (h : v.Finds rpc height raw)
    (hsnapshot : decodeSnapshot raw = some snapshot) :
    ∃ w : PushValidator, v.fetchSnapshot rpc height = (w, .ok snapshot) ∧ w.myAddr = v.myAddr ∧
      w.params = v.params := by
  unfold PushValidator.Finds at h
  unfold PushValidator.fetchSnapshot
  cases hcached : v.snapshot.peek height with
  | some cached =>
      rw [hcached] at h
      dsimp only at h
      rw [hsnapshot] at h
      obtain rfl := Option.some.inj h
      exact ⟨_, rfl, rfl, rfl⟩
  | none =>
      rw [hcached] at h
      dsimp only at h
      simp only [h, hsnapshot]
      exact ⟨_, rfl, rfl, rfl⟩

/-- Every such validator decides by the assignment over the decoded rows. -/
theorem checkAssigned_ok_iff {v : PushValidator} {rpc : ChainRpc} {root : Hash} {epoch i : Nat}
    {raw : List NodeRecordInfo} {snapshot : List Addr} (h : v.Finds rpc epoch raw)
    (hsnapshot : decodeSnapshot raw = some snapshot) :
    (v.checkAssigned rpc root epoch i).2 = .ok () ↔
      v.myAddr ∈ assignedArchives root snapshot i v.params.assignmentReplicationFactor := by
  obtain ⟨w, hfetch, haddr, hparams⟩ := fetchSnapshot_of_finds h hsnapshot
  unfold PushValidator.checkAssigned
  rw [hfetch, ← haddr, ← hparams]
  show (if w.myAddr ∉ snapshot then _ else _ : PushValidator × Except PushReject Unit).2 = _ ↔ _
  by_cases hassigned :
      w.myAddr ∈ assignedArchives root snapshot i w.params.assignmentReplicationFactor
  · have hmem := mem_snapshot_of_assigned hassigned
    rw [if_neg (not_not.mpr hmem), if_neg (not_not.mpr hassigned)]
    exact iff_of_true rfl hassigned
  · refine iff_of_false ?_ hassigned
    by_cases hmem : w.myAddr ∈ snapshot
    · rw [if_neg (not_not.mpr hmem), if_pos hassigned]
      exact nofun
    · rw [if_pos hmem]
      exact nofun

theorem passesCheckAssigned_iff {archive : Addr} {r : Nat} {root : Hash} {epoch i : Nat}
    {raw : List NodeRecordInfo} {snapshot : List Addr}
    (hsnapshot : decodeSnapshot raw = some snapshot) :
    PassesCheckAssigned archive r root epoch raw i ↔
      archive ∈ assignedArchives root snapshot i r := by
  constructor
  · rintro ⟨v, rpc, rfl, rfl, hfinds, hok⟩
    exact (checkAssigned_ok_iff hfinds hsnapshot).mp hok
  · intro hassigned
    have hfinds : (PushValidator.new archive ⟨r, 0⟩).Finds
        ⟨fun _ => .ok none, fun _ => .ok raw, fun _ => .ok none⟩ epoch raw := rfl
    exact ⟨_, _, rfl, rfl, hfinds, (checkAssigned_ok_iff hfinds hsnapshot).mpr hassigned⟩

/-! ### One file -/

section

variable [Blake3]

/-- The store has an answer for the chunk, and the chain's verifier takes it. -/
def Answerable (manifestIdx : ManifestIndex) (files : ChunkStore) (root : Hash)
    (chunkCount i : Nat) : Prop :=
  ∃ answer, buildAnswer manifestIdx files root i = .ok answer ∧
    verifyMerkleProofBytesForTree answer.chunkHash i answer.merklePath root chunkCount = true

omit [AssignmentScore] in
theorem auditChunk_usable_iff {manifestIdx : ManifestIndex} {files : ChunkStore} {root : Hash}
    {chunkCount i : Nat} :
    (auditChunk manifestIdx files root chunkCount i).isNotUsable = false ↔
      Answerable manifestIdx files root chunkCount i := by
  unfold auditChunk Answerable
  cases buildAnswer manifestIdx files root i with
  | error e =>
      refine iff_of_false nofun ?_
      rintro ⟨answer, hanswer, -⟩
      cases hanswer
  | ok answer =>
      simp only
      by_cases hverify : verifyMerkleProofBytesForTree answer.chunkHash i answer.merklePath root
          chunkCount = true
      · rw [if_pos hverify]
        exact iff_of_true rfl ⟨answer, rfl, hverify⟩
      · rw [if_neg hverify]
        refine iff_of_false nofun ?_
        rintro ⟨answer', hanswer, hverify'⟩
        rw [Except.ok.inj hanswer] at hverify
        exact hverify hverify'

variable (r : Nat) (archive : Addr) (manifestIdx : ManifestIndex) (files : ChunkStore)

/--
The reads made of a root, all of them and in order, when they confirm it.  Its row is
Abandoned; or the epoch stayed and every chunk has an answer that the archive's validator
would accept a push of.
-/
inductive Confirmed (root : Hash) : List ChainRead → Prop
  | abandoned (info : StorageFileInfoV2) (habandoned : info.lifecycle.isAbandoned = true) :
      Confirmed root [.fileInfo root (.ok (some info))]
  | answerable (info : StorageFileInfoV2) (latest now : Except Str (Option Nat)) (epoch : Nat)
      (raw : List NodeRecordInfo) (hrow : info.lifecycle.isAbandoned = false)
      (hepoch : resolveEpoch info.assignmentHeight latest = .ok epoch)
      (hdecodes : (decodeSnapshot raw).isSome = true)
      (hstays : resolveEpoch info.assignmentHeight now = .ok epoch)
      (hchunks : ∀ i < info.chunkCount, PassesCheckAssigned archive r root epoch raw i →
        Answerable manifestIdx files root info.chunkCount i) :
      Confirmed root [.fileInfo root (.ok (some info)), .latestEpoch root latest,
        .activeNodes root epoch (.ok raw), .latestEpoch root now]

omit [Blake3] [AssignmentScore] in
/-- Neither an error nor incomplete. -/
def FileAudit.Complete (file : FileAudit) : Prop := file.isError = false ∧ file.isIncomplete = false

/-- What the first look at a root comes to, with the height the second one uses. -/
structure FirstLook (root : Hash) (reads : List ChainRead) (out : FileAudit × Nat) : Prop where
  own : ∀ e ∈ reads, e.merkleRoot = root
  outcome :
    ((∃ e, out.1 = .error root e) ∨ out.1 = .notRegistered root) ∧
      ¬ Confirmed r archive manifestIdx files root reads ∨
    out.1 = .abandoned root ∧ Confirmed r archive manifestIdx files root reads ∨
    ∃ info latest epoch raw snapshot,
      info.lifecycle.isAbandoned = false ∧
      resolveEpoch info.assignmentHeight latest = .ok epoch ∧
      decodeSnapshot raw = some snapshot ∧
      reads = [.fileInfo root (.ok (some info)), .latestEpoch root latest,
        .activeNodes root epoch (.ok raw)] ∧
      out = (.audited root epoch
        (auditChunks r archive manifestIdx files root snapshot info.chunkCount) .unchanged,
        info.assignmentHeight)

/-- All chunks that the audit looked at are usable when all assigned ones are answerable. -/
theorem auditChunks_usable_iff {root : Hash} {epoch chunkCount : Nat} {raw : List NodeRecordInfo}
    {snapshot : List Addr} (hsnapshot : decodeSnapshot raw = some snapshot) :
    ((auditChunks r archive manifestIdx files root snapshot chunkCount).any fun c =>
        c.verdict.isNotUsable) = false ↔
      ∀ i < chunkCount, PassesCheckAssigned archive r root epoch raw i →
        Answerable manifestIdx files root chunkCount i := by
  unfold auditChunks
  rw [List.any_eq_false]
  constructor
  · intro h i hi hpasses
    have hassigned := (passesCheckAssigned_iff hsnapshot).mp hpasses
    refine auditChunk_usable_iff.mp (Bool.eq_false_of_not_eq_true (h ⟨i, _⟩ ?_))
    exact List.mem_filterMap.mpr ⟨i, List.mem_range.mpr hi, if_pos hassigned⟩
  · intro h c hc
    obtain ⟨i, hi, hsome⟩ := List.mem_filterMap.mp hc
    split at hsome
    · rename_i hassigned
      obtain rfl := Option.some.inj hsome
      have hanswer := h i (List.mem_range.mp hi) ((passesCheckAssigned_iff hsnapshot).mpr hassigned)
      rw [auditChunk_usable_iff.mpr hanswer]
      exact Bool.false_ne_true
    · cases hsome

variable {σ : Type} (rpc : V2RpcClient σ)

omit [Blake3] [AssignmentScore] in
theorem readEpoch_reads (root : Hash) (assignmentHeight : Nat) :
    Ensures (readEpoch rpc root assignmentHeight) fun log epoch =>
      ∃ answer, log = [.latestEpoch root answer] ∧ epoch = resolveEpoch assignmentHeight answer := by
  refine Ensures.ask ?_
  intro answer
  exact Ensures.pure ⟨answer, rfl, rfl⟩

theorem auditFile_firstLook (root : Hash) :
    Ensures (auditFile rpc r archive manifestIdx files root) fun log out =>
      FirstLook r archive manifestIdx files root log out := by
  refine Ensures.ask ?_
  intro row
  cases row with
  | error e =>
      refine Ensures.pure ⟨by simp [ChainRead.merkleRoot], .inl ⟨.inl ⟨_, rfl⟩, ?_⟩⟩
      exact nofun
  | ok row =>
      cases row with
      | none =>
          refine Ensures.pure ⟨by simp [ChainRead.merkleRoot], .inl ⟨.inr rfl, ?_⟩⟩
          exact nofun
      | some info =>
          simp only
          by_cases habandoned : info.lifecycle.isAbandoned = true
          · rw [if_pos habandoned]
            exact Ensures.pure ⟨by simp [ChainRead.merkleRoot],
              .inr (.inl ⟨rfl, .abandoned info habandoned⟩)⟩
          · rw [if_neg habandoned]
            refine Ensures.bind (readEpoch_reads rpc root info.assignmentHeight) ?_
            rintro _ _ ⟨latest, rfl, rfl⟩
            split
            · refine Ensures.pure ⟨by simp [ChainRead.merkleRoot], .inl ⟨.inl ⟨_, rfl⟩, ?_⟩⟩
              exact nofun
            · rename_i epoch hepoch
              refine Ensures.ask ?_
              intro nodes
              cases nodes with
              | error e =>
                  refine Ensures.pure ⟨by simp [ChainRead.merkleRoot], .inl ⟨.inl ⟨_, rfl⟩, ?_⟩⟩
                  exact nofun
              | ok raw =>
                  simp only
                  split
                  · refine Ensures.pure ⟨by simp [ChainRead.merkleRoot], .inl ⟨.inl ⟨_, rfl⟩, ?_⟩⟩
                    exact nofun
                  · rename_i snapshot hsnapshot
                    exact Ensures.pure ⟨by simp [ChainRead.merkleRoot], .inr (.inr
                      ⟨info, latest, epoch, raw, snapshot, Bool.eq_false_of_not_eq_true habandoned,
                        hepoch, hsnapshot, rfl, rfl⟩)⟩

/-- **The second look settles a file**: it is complete exactly if its reads confirm it. -/
theorem recheckFile_complete_iff {root : Hash} {reads : List ChainRead} {file : FileAudit}
    {assignmentHeight : Nat}
    (h : FirstLook r archive manifestIdx files root reads (file, assignmentHeight)) :
    Ensures (recheckFile rpc assignmentHeight file) fun log out =>
      (∀ e ∈ log, e.merkleRoot = root) ∧
      (out.Complete ↔ Confirmed r archive manifestIdx files root (reads ++ log)) := by
  rcases h.outcome with ⟨⟨e, rfl⟩ | rfl, hnot⟩ | ⟨rfl, hconfirmed⟩ |
    ⟨info, latest, epoch, raw, snapshot, hrow, hepoch, hsnapshot, rfl, hout⟩
  · refine Ensures.pure ⟨nofun, ?_⟩
    rw [List.append_nil]
    exact iff_of_false (fun h => nomatch h.1) hnot
  · refine Ensures.pure ⟨nofun, ?_⟩
    rw [List.append_nil]
    exact iff_of_false (fun h => nomatch h.1) hnot
  · refine Ensures.pure ⟨nofun, ?_⟩
    rw [List.append_nil]
    exact iff_of_true ⟨rfl, rfl⟩ hconfirmed
  · obtain ⟨rfl, rfl⟩ := Prod.mk.inj hout
    refine Ensures.bind (readEpoch_reads rpc root info.assignmentHeight) ?_
    rintro _ _ ⟨now, rfl, rfl⟩
    refine Ensures.pure ⟨by simp [ChainRead.merkleRoot], ?_⟩
    have hchunks := @auditChunks_usable_iff _ _ r archive manifestIdx files root epoch
      info.chunkCount raw snapshot hsnapshot
    constructor
    · rintro ⟨herror, hincomplete⟩
      obtain ⟨hunchanged, husable⟩ := Bool.or_eq_false_iff.mp hincomplete
      cases hnow : resolveEpoch info.assignmentHeight now with
      | error e =>
          rw [hnow] at herror
          cases herror
      | ok later =>
          simp only [hnow] at hunchanged
          by_cases hlater : later = epoch
          · subst hlater
            exact .answerable info latest now later raw hrow hepoch (by rw [hsnapshot]; rfl) hnow
              (hchunks.mp husable)
          · rw [if_neg hlater] at hunchanged
            cases hunchanged
    · intro hconfirmed
      cases hconfirmed with
      | answerable _ _ _ _ _ _ _ _ hstays hanswers =>
          simp only [hstays, if_true]
          exact ⟨rfl, Bool.or_eq_false_iff.mpr ⟨rfl, hchunks.mpr hanswers⟩⟩

/-! ### The inventory -/

omit [Blake3] [AssignmentScore] in
/-- The reads that were made for a root, in order. -/
def readsOf (root : Hash) (log : List ChainRead) : List ChainRead :=
  log.filter fun e => e.merkleRoot = root

omit [Blake3] [AssignmentScore] in
theorem readsOf_append (root : Hash) (log log' : List ChainRead) :
    readsOf root (log ++ log') = readsOf root log ++ readsOf root log' :=
  List.filter_append ..

omit [Blake3] [AssignmentScore] in
theorem readsOf_own {root : Hash} {log : List ChainRead} (h : ∀ e ∈ log, e.merkleRoot = root) :
    readsOf root log = log :=
  List.filter_eq_self.mpr fun e he => decide_eq_true (h e he)

omit [Blake3] [AssignmentScore] in
theorem readsOf_foreign {root : Hash} {log : List ChainRead}
    (h : ∀ e ∈ log, e.merkleRoot ≠ root) : readsOf root log = [] :=
  List.filter_eq_nil_iff.mpr fun e he hroot => h e he (of_decide_eq_true hroot)

omit [Blake3] [AssignmentScore] in
/-- One root more, none of whose reads is among the others'. -/
theorem forall₂_readsOf_cons {β : Type} {P : Hash → List ChainRead → β → Prop} {root : Hash}
    {roots : List Hash} {log log' : List ChainRead} {b : β} {bs : List β} (hnew : root ∉ roots)
    (hown : ∀ e ∈ log, e.merkleRoot = root) (howns : ∀ e ∈ log', e.merkleRoot ∈ roots)
    (hfirst : P root log b)
    (hrest : List.Forall₂ (fun root b => P root (readsOf root log') b) roots bs) :
    List.Forall₂ (fun root b => P root (readsOf root (log ++ log')) b) (root :: roots)
      (b :: bs) := by
  refine .cons ?_ (Lists.forall₂_imp_of_mem hrest ?_)
  · have hothers : readsOf root log' = [] :=
      readsOf_foreign fun e he heq => hnew (heq ▸ howns e he)
    rwa [readsOf_append, readsOf_own hown, hothers, List.append_nil]
  · intro root' hmem b' hb'
    have hother : readsOf root' log = [] := by
      refine readsOf_foreign fun e he heq => hnew ?_
      rw [← hown e he, heq]
      exact hmem
    rwa [readsOf_append, hother, List.nil_append]

omit [Blake3] [AssignmentScore] in
theorem own_cons {root : Hash} {roots : List Hash} {log log' : List ChainRead}
    (hown : ∀ e ∈ log, e.merkleRoot = root) (howns : ∀ e ∈ log', e.merkleRoot ∈ roots) :
    ∀ e ∈ log ++ log', e.merkleRoot ∈ root :: roots := by
  intro e he
  rcases List.mem_append.mp he with he | he
  · rw [hown e he]
    exact List.mem_cons_self
  · exact List.mem_cons_of_mem root (howns e he)

/-- The first loop: each root that was not seen before is looked at once. -/
structure FirstLooks (inventory seen : List Hash) (log : List ChainRead)
    (out : List FileAudit × List Nat) (roots : List Hash) : Prop where
  nodup : roots.Nodup
  mem : ∀ root, root ∈ roots ↔ root ∈ inventory ∧ root ∉ seen
  own : ∀ e ∈ log, e.merkleRoot ∈ roots
  paired : out.1.length = out.2.length
  looks : List.Forall₂
    (fun root out => FirstLook r archive manifestIdx files root (readsOf root log) out)
    roots (out.1.zip out.2)

theorem FirstLooks.cons {root : Hash} {inventory seen roots : List Hash}
    {log log' : List ChainRead} {file : FileAudit} {height : Nat}
    {out : List FileAudit × List Nat} (hseen : root ∉ seen)
    (hlook : FirstLook r archive manifestIdx files root log (file, height))
    (h : FirstLooks r archive manifestIdx files inventory (root :: seen) log' out roots) :
    FirstLooks r archive manifestIdx files (root :: inventory) seen (log ++ log')
      (file :: out.1, height :: out.2) (root :: roots) := by
  have hnew : root ∉ roots := by
    intro hmem
    exact ((h.mem root).mp hmem).2 List.mem_cons_self
  refine ⟨List.nodup_cons.mpr ⟨hnew, h.nodup⟩, ?_, own_cons hlook.own h.own, ?_,
    forall₂_readsOf_cons hnew hlook.own h.own hlook h.looks⟩
  · intro root'
    rw [List.mem_cons, List.mem_cons, h.mem, List.mem_cons]
    by_cases heq : root' = root
    · rw [heq]
      simp [hseen]
    · simp [heq]
  · simp [h.paired]

theorem auditFiles_firstLooks (inventory : List Hash) : ∀ seen,
    Ensures (auditFiles rpc r archive manifestIdx files inventory seen) fun log out =>
      ∃ roots, FirstLooks r archive manifestIdx files inventory seen log out roots := by
  induction inventory with
  | nil =>
      intro seen
      exact Ensures.pure ⟨[], List.nodup_nil, by simp, nofun, rfl, .nil⟩
  | cons root inventory ih =>
      intro seen
      unfold auditFiles
      by_cases hseen : root ∈ seen
      · rw [if_pos hseen]
        refine (ih seen).mono ?_
        rintro log out ⟨roots, h⟩
        refine ⟨roots, h.nodup, ?_, h.own, h.paired, h.looks⟩
        intro root'
        rw [h.mem, List.mem_cons]
        constructor
        · rintro ⟨hmem, hnot⟩
          exact ⟨.inr hmem, hnot⟩
        · rintro ⟨rfl | hmem, hnot⟩
          · exact absurd hseen hnot
          · exact ⟨hmem, hnot⟩
      · rw [if_neg hseen]
        refine Ensures.bind (auditFile_firstLook r archive manifestIdx files rpc root) ?_
        rintro log ⟨file, height⟩ hlook
        refine Ensures.bind (ih (root :: seen)) ?_
        rintro log' out ⟨roots, h⟩
        refine Ensures.pure ⟨root :: roots, ?_⟩
        rw [List.append_nil]
        exact h.cons r archive manifestIdx files hseen hlook

/-- The second loop, over the files and heights of the first. -/
theorem recheckFiles_complete {reads : Hash → List ChainRead} (roots : List Hash) :
    ∀ {audited : List FileAudit} {heights : List Nat}, roots.Nodup →
      audited.length = heights.length →
      List.Forall₂ (fun root out => FirstLook r archive manifestIdx files root (reads root) out)
        roots (audited.zip heights) →
      Ensures (recheckFiles rpc audited heights) fun log out =>
        (∀ e ∈ log, e.merkleRoot ∈ roots) ∧
        List.Forall₂ (fun root file =>
          Confirmed r archive manifestIdx files root (reads root ++ readsOf root log) ↔
            file.Complete) roots out := by
  induction roots with
  | nil =>
      intro audited heights _ hpaired hlooks
      cases audited with
      | nil =>
          unfold recheckFiles
          exact Ensures.pure ⟨nofun, .nil⟩
      | cons file audited =>
          cases heights with
          | nil => cases hpaired
          | cons height heights => cases hlooks
  | cons root roots ih =>
      intro audited heights hnodup hpaired hlooks
      obtain ⟨hnew, hnodup⟩ := List.nodup_cons.mp hnodup
      cases audited with
      | nil => cases hlooks
      | cons file audited =>
          cases heights with
          | nil => cases hpaired
          | cons height heights =>
              obtain ⟨hlook, hlooks⟩ := List.forall₂_cons.mp hlooks
              unfold recheckFiles
              refine Ensures.bind (recheckFile_complete_iff r archive manifestIdx files rpc hlook) ?_
              rintro log file' ⟨hown, hfile⟩
              refine Ensures.bind (ih hnodup (Nat.succ.inj hpaired) hlooks) ?_
              rintro log' rest ⟨howns, hrest⟩
              refine Ensures.pure ?_
              rw [List.append_nil]
              refine ⟨own_cons hown howns, ?_⟩
              exact forall₂_readsOf_cons (P := fun root log (file : FileAudit) =>
                Confirmed r archive manifestIdx files root (reads root ++ log) ↔ file.Complete)
                hnew hown howns hfile.symm hrest

omit [Blake3] [AssignmentScore] in
theorem exitCode_complete_iff (report : AuditReport) :
    report.exitCode = AuditExit.complete ↔
      report.files ≠ [] ∧ ∀ file ∈ report.files, file.Complete := by
  unfold AuditReport.exitCode AuditReport.verdict
  by_cases hempty : report.files = []
  · rw [hempty]
    exact iff_of_false (by decide) fun h => h.1 rfl
  have hnot : report.files.isEmpty = false := by simpa using hempty
  rw [hnot]
  by_cases herror : report.files.any FileAudit.isError = true
  · rw [herror]
    have hexit : ¬ AuditExit.error = AuditExit.complete := by decide
    refine iff_of_false hexit ?_
    rintro ⟨-, hall⟩
    obtain ⟨file, hfile, htrue⟩ := List.any_eq_true.mp herror
    rw [(hall file hfile).1] at htrue
    cases htrue
  rw [Bool.eq_false_of_not_eq_true herror]
  by_cases hincomplete : report.files.any FileAudit.isIncomplete = true
  · rw [hincomplete]
    have hexit : ¬ AuditExit.incomplete = AuditExit.complete := by decide
    refine iff_of_false hexit ?_
    rintro ⟨-, hall⟩
    obtain ⟨file, hfile, htrue⟩ := List.any_eq_true.mp hincomplete
    rw [(hall file hfile).2] at htrue
    cases htrue
  · rw [Bool.eq_false_of_not_eq_true hincomplete]
    refine iff_of_true rfl ⟨hempty, ?_⟩
    intro file hfile
    have hno := List.any_eq_false.mp (Bool.eq_false_of_not_eq_true herror) file hfile
    have hfull := List.any_eq_false.mp (Bool.eq_false_of_not_eq_true hincomplete) file hfile
    exact ⟨Bool.eq_false_of_not_eq_true hno, Bool.eq_false_of_not_eq_true hfull⟩

/--
**The audit says complete exactly when the reads of every root confirm it**, for a
non-empty inventory, repeats included, whatever the chain answers and whatever is stored.
-/
theorem audit_complete_iff (inventory : List Hash) (s : σ) :
    let run := audit rpc r archive manifestIdx files inventory s
    run.1.exitCode = AuditExit.complete ↔
      inventory ≠ [] ∧ ∀ root ∈ inventory,
        Confirmed r archive manifestIdx files root (readsOf root run.2.1) := by
  have hspec : Ensures (audit rpc r archive manifestIdx files inventory) fun log report =>
      report.exitCode = AuditExit.complete ↔
        inventory ≠ [] ∧ ∀ root ∈ inventory,
          Confirmed r archive manifestIdx files root (readsOf root log) := by
    refine Ensures.bind (auditFiles_firstLooks r archive manifestIdx files rpc inventory []) ?_
    rintro log ⟨audited, heights⟩ ⟨roots, hroots⟩
    refine Ensures.bind (recheckFiles_complete r archive manifestIdx files rpc roots hroots.nodup
      hroots.paired hroots.looks) ?_
    rintro log' audited' ⟨-, hconfirmed⟩
    refine Ensures.pure ?_
    have hmem : ∀ root, root ∈ roots ↔ root ∈ inventory := by
      intro root
      rw [hroots.mem]
      simp
    have hempty : audited' = [] ↔ inventory = [] := by
      rw [← List.length_eq_zero_iff, ← hconfirmed.length_eq, List.length_eq_zero_iff,
        List.eq_nil_iff_forall_not_mem, List.eq_nil_iff_forall_not_mem]
      exact forall_congr' fun root => not_congr (hmem root)
    rw [exitCode_complete_iff, ← Lists.forall_iff_of_forall₂ hconfirmed, List.append_nil]
    refine and_congr (not_congr hempty) ?_
    simp only [hmem, readsOf_append]
  exact hspec s

end

end

end Snip
