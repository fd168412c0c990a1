/-
The caches of a push validator do not show.

`verdict` is what the chain's answers alone say of a push, with nothing remembered
from one push to the next.  While the chain answers a query the same way every
time, every cache entry is an answer the chain would give again, so a validator
that remembers says what `verdict` says, whatever it was asked before, however old
its entries are and whichever of them were forgotten.  A refusal that rests on a
cached epoch is looked at again at the epoch of that moment, which is the same one.
-/
import Snip.Proofs.PushValidator

namespace Snip

/-! ### What the chain alone says -/

namespace ChainRpc

/-- The row of a root, if the chain has one that names the root. -/
def row (rpc : ChainRpc) (root : Hash) : Except PushReject StorageFileInfoV2 :=
  match rpc.fileInfoV2 root with
  | .error e => .error (.unknownRoot e)
  | .ok none => .error (.notRegistered root)
  | .ok (some info) =>
      if decodeRootHex info.merkleRoot ≠ some root then
        .error (.badRootText root info.merkleRoot)
      else .ok info

/-- The archives at a height. -/
def snapshotAt (rpc : ChainRpc) (height : Nat) : Except PushReject (List Addr) :=
  match rpc.activeNodesAtHeight height with
  | .error e => .error (.snapshotLookup height e)
  | .ok raw =>
      match decodeSnapshot raw with
      | none => .error (.badSnapshotAddress height (undecodedAddress raw))
      | some snap => .ok snap

/-- The latest epoch of a file. -/
def epochOf (rpc : ChainRpc) (root : Hash) (info : StorageFileInfoV2) : Except PushReject Nat :=
  match rpc.latestAssignmentEpoch root with
  | .error e => .error (.epochLookup e)
  | .ok latest =>
      let epoch := latest.getD info.assignmentHeight
      if epoch < info.assignmentHeight then
        .error (.epochBelowAssignment epoch info.assignmentHeight root)
      else .ok epoch

theorem row_ok {rpc : ChainRpc} {root : Hash} {info : StorageFileInfoV2}
    (h : rpc.row root = .ok info) : rpc.fileInfoV2 root = .ok (some info) := by
  unfold row at h
  split at h
  · cases h
  · cases h
  · rename_i found hfound
    split at h
    · cases h
    · rw [hfound, Except.ok.inj h]

theorem epochOf_ok {rpc : ChainRpc} {root : Hash} {info : StorageFileInfoV2} {epoch : Nat}
    (h : rpc.epochOf root info = .ok epoch) :
    ∃ latest, rpc.latestAssignmentEpoch root = .ok latest ∧
      epoch = latest.getD info.assignmentHeight := by
  unfold epochOf at h
  split at h
  · cases h
  · rename_i latest hlatest
    dsimp only at h
    split at h
    · cases h
    · exact ⟨latest, hlatest, (Except.ok.inj h).symm⟩

theorem snapshotAt_ok {rpc : ChainRpc} {height : Nat} {snapshot : List Addr}
    (h : rpc.snapshotAt height = .ok snapshot) :
    ∃ raw, rpc.activeNodesAtHeight height = .ok raw ∧ decodeSnapshot raw = some snapshot := by
  unfold snapshotAt at h
  split at h
  · cases h
  · rename_i raw hraw
    split at h
    · cases h
    · rename_i snap hsnap
      exact ⟨raw, hraw, by rw [hsnap, Except.ok.inj h]⟩

variable [AssignmentScore]

/-- Whether the snapshot at `epoch` places the archive among the chunk's. -/
def assigned (rpc : ChainRpc) (archive : Addr) (params : V2Params) (root : Hash)
    (epoch chunkIndex : Nat) : Except PushReject Unit :=
  match rpc.snapshotAt epoch with
  | .error e => .error e
  | .ok snapshot =>
      if archive ∉ snapshot then .error (.notInSnapshot epoch archive)
      else if archive ∉
          assignedArchives root snapshot chunkIndex params.assignmentReplicationFactor then
        .error (.notAssigned chunkIndex)
      else .ok ()

/-- The same at the latest epoch. -/
def assignedNow (rpc : ChainRpc) (archive : Addr) (params : V2Params) (root : Hash)
    (info : StorageFileInfoV2) (chunkIndex : Nat) : Except PushReject Unit :=
  match rpc.epochOf root info with
  | .error e => .error e
  | .ok epoch => rpc.assigned archive params root epoch chunkIndex

/-- What is said of a push to `archive`. -/
def verdict [Blake3] (rpc : ChainRpc) (archive : Addr) (params : V2Params) (merkleRoot : Hash)
    (chunkIndex : Nat) (data : Bytes) (merklePath : List Hash) :
    Except PushReject ValidatedPush :=
  match rpc.row merkleRoot with
  | .error e => .error e
  | .ok info =>
      if info.lifecycle.isAbandoned then .error .abandoned
      else if !(info.lifecycle.isPending || info.lifecycle.isActive) then
        .error (.badLifecycle info.lifecycle merkleRoot)
      else if info.chunkCount ≤ chunkIndex then
        .error (.outOfRange chunkIndex info.chunkCount)
      else
        match rpc.assignedNow archive params merkleRoot info chunkIndex with
        | .error e => .error e
        | .ok () =>
            if !verifyMerkleProofBytesForTree (Blake3.hash data) chunkIndex merklePath merkleRoot
                info.chunkCount then .error .badProof
            else .ok ⟨Blake3.hash data, info.visibility⟩

theorem assigned_ok {rpc : ChainRpc} {archive : Addr} {params : V2Params} {root : Hash}
    {epoch chunkIndex : Nat} (h : rpc.assigned archive params root epoch chunkIndex = .ok ()) :
    ∃ snapshot, rpc.snapshotAt epoch = .ok snapshot ∧
      archive ∈ assignedArchives root snapshot chunkIndex params.assignmentReplicationFactor := by
  unfold assigned at h
  split at h
  · cases h
  · rename_i snapshot hsnap
    split at h
    · cases h
    · split at h
      · cases h
      · rename_i hmem
        exact ⟨snapshot, hsnap, by simpa using hmem⟩

end ChainRpc

/-- What an accepted push to `archive` rests on, all of it answers of the chain. -/
def PushGrounds [Blake3] [AssignmentScore] (rpc : ChainRpc) (archive : Addr) (params : V2Params)
    (root : Hash) (chunkIndex : Nat) (data : Bytes) (path : List Hash) (pushed : ValidatedPush) :
    Prop :=
  ∃ info latest raw snapshot,
    rpc.fileInfoV2 root = .ok (some info) ∧
    (info.lifecycle.isPending = true ∨ info.lifecycle.isActive = true) ∧
    chunkIndex < info.chunkCount ∧
    rpc.latestAssignmentEpoch root = .ok latest ∧
    rpc.activeNodesAtHeight (latest.getD info.assignmentHeight) = .ok raw ∧
    decodeSnapshot raw = some snapshot ∧
    archive ∈ assignedArchives root snapshot chunkIndex params.assignmentReplicationFactor ∧
    verifyMerkleProofBytesForTree (Blake3.hash data) chunkIndex path root info.chunkCount = true ∧
    pushed = ⟨Blake3.hash data, info.visibility⟩

theorem ChainRpc.verdict_ok [Blake3] [AssignmentScore] {rpc : ChainRpc} {archive : Addr}
    {params : V2Params} {root : Hash} {chunkIndex : Nat} {data : Bytes} {path : List Hash}
    {pushed : ValidatedPush}
    (h : rpc.verdict archive params root chunkIndex data path = .ok pushed) :
    PushGrounds rpc archive params root chunkIndex data path pushed := by
  unfold verdict at h
  split at h
  · cases h
  rename_i info hrow
  split at h
  · cases h
  split at h
  · cases h
  rename_i hlife
  split at h
  · cases h
  rename_i hrange
  split at h
  · cases h
  rename_i hassigned
  split at h
  · cases h
  rename_i hproof
  unfold assignedNow at hassigned
  split at hassigned
  · cases hassigned
  rename_i epoch hepoch
  obtain ⟨latest, hlatest, rfl⟩ := epochOf_ok hepoch
  obtain ⟨snapshot, hsnap, hmem⟩ := assigned_ok hassigned
  obtain ⟨raw, hraw, hdecoded⟩ := snapshotAt_ok hsnap
  refine ⟨info, latest, raw, snapshot, row_ok hrow, ?_, Nat.not_le.mp hrange, hlatest, hraw,
    hdecoded, hmem, by simpa using hproof, (Except.ok.inj h).symm⟩
  simpa only [Bool.not_eq_true', Bool.not_eq_false, Bool.or_eq_true] using hlife

namespace PushValidator

/-! ### Cached answers are answers -/

/-- Every entry is what the chain answers; an epoch is the one of the root's row. -/
structure Remembers (v : PushValidator) (rpc : ChainRpc) : Prop where
  fileInfo : v.fileInfo.Holds fun root info => rpc.row root = .ok info
  snapshot : v.snapshot.Holds fun height snap => rpc.snapshotAt height = .ok snap
  epochs : v.epochs.Holds fun root entry =>
    ∃ info, rpc.row root = .ok info ∧ rpc.epochOf root info = .ok entry.1

variable {rpc : ChainRpc} {v : PushValidator}

theorem remembers_withCapacities (rpc : ChainRpc) (myAddr : Addr) (params : V2Params)
    (fileInfoCap snapshotCap ttl recheckMin : Nat) :
    ((withCapacities myAddr params fileInfoCap snapshotCap).withEpochTiming ttl
      recheckMin).Remembers rpc :=
  ⟨Lru.holds_empty _, Lru.holds_empty _, Lru.holds_empty _⟩

theorem fetchFileInfo_remembers (h : v.Remembers rpc) (root : Hash) :
    (v.fetchFileInfo rpc root).1.Remembers rpc ∧
      (v.fetchFileInfo rpc root).2 = rpc.row root := by
  unfold fetchFileInfo
  cases hpeek : v.fileInfo.peek root with
  | some info =>
      have hinfo : rpc.row root = .ok info := h.fileInfo.peek hpeek
      exact ⟨⟨h.fileInfo.touch root, h.snapshot, h.epochs⟩, hinfo.symm⟩
  | none =>
      unfold ChainRpc.row
      cases hanswer : rpc.fileInfoV2 root with
      | error e => exact ⟨h, rfl⟩
      | ok answer =>
          cases answer with
          | none => exact ⟨h, rfl⟩
          | some info =>
              dsimp only
              by_cases htext : decodeRootHex info.merkleRoot ≠ some root
              · rw [if_pos htext, if_pos htext]
                exact ⟨h, rfl⟩
              · rw [if_neg htext, if_neg htext]
                have hrow : rpc.row root = .ok info := by
                  unfold ChainRpc.row
                  simp only [hanswer, if_neg htext]
                exact ⟨⟨h.fileInfo.put hrow, h.snapshot, h.epochs⟩, rfl⟩

theorem fetchSnapshot_remembers (h : v.Remembers rpc) (height : Nat) :
    (v.fetchSnapshot rpc height).1.Remembers rpc ∧
      (v.fetchSnapshot rpc height).2 = rpc.snapshotAt height := by
  unfold fetchSnapshot
  cases hpeek : v.snapshot.peek height with
  | some snap =>
      have hsnap : rpc.snapshotAt height = .ok snap := h.snapshot.peek hpeek
      exact ⟨⟨h.fileInfo, h.snapshot.touch height, h.epochs⟩, hsnap.symm⟩
  | none =>
      unfold ChainRpc.snapshotAt
      cases hanswer : rpc.activeNodesAtHeight height with
      | error e => exact ⟨h, rfl⟩
      | ok raw =>
          dsimp only
          cases hdecoded : decodeSnapshot raw with
          | none => exact ⟨h, rfl⟩
          | some snap =>
              have hsnap : rpc.snapshotAt height = .ok snap := by
                unfold ChainRpc.snapshotAt
                simp only [hanswer, hdecoded]
              exact ⟨⟨h.fileInfo, h.snapshot.put hsnap, h.epochs⟩, rfl⟩

/-- The answer of `assignment_epoch` without the flag. -/
theorem readEpoch_remembers (h : v.Remembers rpc) (storedAt : Nat) {root : Hash}
    {info : StorageFileInfoV2} (hinfo : rpc.row root = .ok info) :
    (v.readEpoch rpc storedAt root info).1.Remembers rpc ∧
      (v.readEpoch rpc storedAt root info).2 = (rpc.epochOf root info).map (·, true) := by
  unfold readEpoch ChainRpc.epochOf
  cases hanswer : rpc.latestAssignmentEpoch root with
  | error e => exact ⟨h, rfl⟩
  | ok latest =>
      dsimp only
      by_cases hbelow : latest.getD info.assignmentHeight < info.assignmentHeight
      · rw [if_pos hbelow, if_pos hbelow]
        exact ⟨h, rfl⟩
      · rw [if_neg hbelow, if_neg hbelow]
        have hepoch : rpc.epochOf root info = .ok (latest.getD info.assignmentHeight) := by
          unfold ChainRpc.epochOf
          simp only [hanswer, if_neg hbelow]
        exact ⟨⟨h.fileInfo, h.snapshot, h.epochs.put ⟨info, hinfo, hepoch⟩⟩, rfl⟩

/-- Read now or remembered, the epoch is the chain's. -/
theorem assignmentEpoch_remembers (h : v.Remembers rpc) (lookedUpAt storedAt maxAge : Nat)
    {root : Hash} {info : StorageFileInfoV2} (hinfo : rpc.row root = .ok info) :
    (v.assignmentEpoch rpc lookedUpAt storedAt root info maxAge).1.Remembers rpc ∧
      ∃ readNow, (v.assignmentEpoch rpc lookedUpAt storedAt root info maxAge).2
        = (rpc.epochOf root info).map (·, readNow) := by
  have htouched : ({ v with epochs := v.epochs.touch root } : PushValidator).Remembers rpc :=
    ⟨h.fileInfo, h.snapshot, h.epochs.touch root⟩
  unfold assignmentEpoch
  cases hpeek : v.epochs.peek root with
  | none =>
      obtain ⟨hnext, hres⟩ := readEpoch_remembers h storedAt hinfo
      exact ⟨hnext, true, hres⟩
  | some entry =>
      by_cases hage : lookedUpAt - entry.2 < maxAge
      · simp only [if_pos hage]
        obtain ⟨info', hinfo', hepoch⟩ := h.epochs.peek hpeek
        rw [hinfo] at hinfo'
        rw [Except.ok.inj hinfo', hepoch]
        exact ⟨htouched, false, rfl⟩
      · simp only [if_neg hage]
        obtain ⟨hnext, hres⟩ := readEpoch_remembers htouched storedAt hinfo
        exact ⟨hnext, true, hres⟩

section

variable [AssignmentScore]

theorem checkAssigned_remembers (h : v.Remembers rpc) (root : Hash) (epoch chunkIndex : Nat) :
    (v.checkAssigned rpc root epoch chunkIndex).1.Remembers rpc ∧
      (v.checkAssigned rpc root epoch chunkIndex).2
        = rpc.assigned v.myAddr v.params root epoch chunkIndex := by
  obtain ⟨hnext, hsnap⟩ := fetchSnapshot_remembers h epoch
  have hsame := (fetchSnapshot_same rpc v epoch).toSameSelf
  unfold checkAssigned ChainRpc.assigned
  rw [← hsnap]
  cases hfetch : v.fetchSnapshot rpc epoch with
  | mk w answer =>
      rw [hfetch] at hnext hsame
      cases answer with
      | error e => exact ⟨hnext, rfl⟩
      | ok snapshot =>
          dsimp only at hsame ⊢
          rw [hsame.myAddr, hsame.params]
          split
          · exact ⟨hnext, rfl⟩
          · split
            · exact ⟨hnext, rfl⟩
            · exact ⟨hnext, rfl⟩

/--
The second look at a refusal changes nothing: the epoch it is taken at is the one
the first was taken at.
-/
theorem checkAssignment_remembers (h : v.Remembers rpc) (clock : Nat → Nat) {root : Hash}
    {info : StorageFileInfoV2} (hinfo : rpc.row root = .ok info) (chunkIndex : Nat) :
    (v.checkAssignment rpc clock root info chunkIndex).1.Remembers rpc ∧
      (v.checkAssignment rpc clock root info chunkIndex).2
        = rpc.assignedNow v.myAddr v.params root info chunkIndex := by
  obtain ⟨hnext, readNow, hepoch⟩ :=
    assignmentEpoch_remembers h (clock 0) (clock 1) v.epochTtl hinfo
  have hself := (assignmentEpoch_same rpc v (clock 0) (clock 1) root info v.epochTtl).toSameSelf
  unfold checkAssignment ChainRpc.assignedNow
  cases hread : v.assignmentEpoch rpc (clock 0) (clock 1) root info v.epochTtl with
  | mk u answer =>
      rw [hread] at hnext hepoch hself
      dsimp only at hepoch hself
      cases hchain : rpc.epochOf root info with
      | error e =>
          rw [hchain] at hepoch
          subst hepoch
          exact ⟨hnext, rfl⟩
      | ok epoch =>
          rw [hchain] at hepoch
          subst hepoch
          obtain ⟨hchecked, hfirst⟩ := checkAssigned_remembers hnext root epoch chunkIndex
          rw [hself.myAddr, hself.params] at hfirst
          have hself' := (checkAssigned_same rpc u root epoch chunkIndex).toSameSelf
          show Remembers (Prod.fst _) rpc ∧ Prod.snd _ = _
          simp only [Except.map]
          cases hcheck : u.checkAssigned rpc root epoch chunkIndex with
          | mk w outcome =>
              rw [hcheck] at hchecked hfirst hself'
              dsimp only at hfirst hself'
              rw [← hfirst]
              cases outcome with
              | ok _ => exact ⟨hchecked, rfl⟩
              | error refused =>
                  dsimp only
                  split
                  · obtain ⟨hagain, readAgain, hfresh⟩ := assignmentEpoch_remembers hchecked
                      (clock 2) (clock 3) w.epochRecheckMin hinfo
                    rw [hchain] at hfresh
                    cases hread2 : w.assignmentEpoch rpc (clock 2) (clock 3) root info
                        w.epochRecheckMin with
                    | mk x answer =>
                        rw [hread2] at hagain hfresh
                        dsimp only at hfresh
                        subst hfresh
                        simp only [Except.map, if_pos]
                        exact ⟨hagain, trivial⟩
                  · exact ⟨hchecked, rfl⟩

/-- One call: what is remembered stays true, and the answer is the chain's. -/
theorem validatePush_remembers [Blake3] (h : v.Remembers rpc) (clock : Nat → Nat) (root : Hash)
    (chunkIndex : Nat) (data : Bytes) (path : List Hash) :
    (v.validatePush rpc clock root chunkIndex data path).1.Remembers rpc ∧
      (v.validatePush rpc clock root chunkIndex data path).2
        = rpc.verdict v.myAddr v.params root chunkIndex data path := by
  obtain ⟨hnext, hrow⟩ := fetchFileInfo_remembers h root
  have hself := fetchFileInfo_self rpc v root
  unfold validatePush ChainRpc.verdict
  cases hfetch : v.fetchFileInfo rpc root with
  | mk w answer =>
      rw [hfetch] at hnext hrow hself
      dsimp only at hrow hself ⊢
      rw [← hrow]
      cases answer with
      | error e => exact ⟨hnext, rfl⟩
      | ok info =>
          obtain ⟨hassigned, hres⟩ := checkAssignment_remembers hnext clock hrow.symm chunkIndex
          rw [hself.myAddr, hself.params] at hres
          dsimp only
          split
          · exact ⟨hnext, rfl⟩
          split
          · exact ⟨hnext, rfl⟩
          split
          · exact ⟨hnext, rfl⟩
          rw [← hres]
          cases hcheck : w.checkAssignment rpc clock root info chunkIndex with
          | mk x outcome =>
              rw [hcheck] at hassigned
              cases outcome with
              | error e => exact ⟨hassigned, rfl⟩
              | ok _ =>
                  dsimp only
                  split
                  · exact ⟨hassigned, rfl⟩
                  · exact ⟨hassigned, rfl⟩

/-! ### Sequences of calls -/

/-- A call of `validate_push`, with the instants it reads. -/
structure PushCall where
  clock : Nat → Nat
  merkleRoot : Hash
  chunkIndex : Nat
  data : Bytes
  merklePath : List Hash

/-- The validator after a call, and the answer. -/
def answer [Blake3] (rpc : ChainRpc) (v : PushValidator) (call : PushCall) :
    PushValidator × Except PushReject ValidatedPush :=
  v.validatePush rpc call.clock call.merkleRoot call.chunkIndex call.data call.merklePath

/-- The validator after a sequence of calls. -/
def after [Blake3] (rpc : ChainRpc) (v : PushValidator) (calls : List PushCall) : PushValidator :=
  calls.foldl (fun v call => (v.answer rpc call).1) v

theorem after_remembers [Blake3] (h : v.Remembers rpc) (calls : List PushCall) :
    (v.after rpc calls).Remembers rpc ∧ SameSelf v (v.after rpc calls) := by
  induction calls generalizing v with
  | nil => exact ⟨h, rfl, rfl⟩
  | cons call calls ih =>
      have hnext := (validatePush_remembers h call.clock call.merkleRoot call.chunkIndex call.data
        call.merklePath).1
      have hself := validatePush_self rpc v call.clock call.merkleRoot call.chunkIndex call.data
        call.merklePath
      obtain ⟨hlast, hsame⟩ := ih hnext
      exact ⟨hlast, hself.trans hsame⟩

/--
**A validator answers as one that remembers nothing.**  The chain answers each query
the same way every time, errors included.  After any calls at any instants, with
caches of any size, a push gets the answer that a validator with empty caches gives
at any instants of its own; and an accepted push is one to an archive of the chunk at
the latest epoch, in range of a pending or active file, with a proof for the chain's
chunk count.
-/
theorem validatePush_as_fresh [Blake3] (rpc : ChainRpc) (myAddr : Addr) (params : V2Params)
    (fileInfoCap snapshotCap ttl recheckMin : Nat) (calls : List PushCall) (call : PushCall)
    (freshClock : Nat → Nat) :
    let fresh := (withCapacities myAddr params fileInfoCap snapshotCap).withEpochTiming ttl recheckMin
    let outcome := ((fresh.after rpc calls).answer rpc call).2
    outcome = (fresh.answer rpc { call with clock := freshClock }).2 ∧
    ∀ pushed, outcome = .ok pushed →
      PushGrounds rpc myAddr params call.merkleRoot call.chunkIndex call.data call.merklePath
        pushed := by
  intro fresh outcome
  have hfresh : fresh.Remembers rpc := remembers_withCapacities ..
  obtain ⟨hafter, hself⟩ := after_remembers hfresh calls
  have houtcome : outcome = rpc.verdict myAddr params call.merkleRoot call.chunkIndex call.data
      call.merklePath := by
    show ((fresh.after rpc calls).answer rpc call).2 = _
    unfold answer
    rw [(validatePush_remembers hafter _ _ _ _ _).2, hself.myAddr, hself.params]
    rfl
  refine ⟨?_, ?_⟩
  · rw [houtcome]
    exact (validatePush_remembers hfresh freshClock _ _ _ _).2.symm
  · intro pushed hok
    rw [houtcome] at hok
    exact ChainRpc.verdict_ok hok

end

end PushValidator

end Snip
