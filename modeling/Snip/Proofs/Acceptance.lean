/-
What an archive accepts.

The invariants say what follows once a message was accepted.  Here is the other
direction: a chunk whose proof the strict verifier takes is acknowledged by an
archive that is assigned to it, and a valid manifest is indexed under a root that
has none, if all writes succeed.  The results also say what is in the store
afterwards, so that whole runs can be followed without evaluating a hash.
-/
import Snip.Proofs.Archive
import Snip.Proofs.Assignment

namespace Snip

/-! ### A chain with one archive -/

/-- An active Public file with `n` chunks. -/
def rowOf (root : Hash) (n : Nat) : StorageFileInfoV2 :=
  ⟨'0' :: 'x' :: hexEncode root.bytes, 64 * n, 64 * n, n, 0, 0, 1⟩

/-- The chunk count of a root, if it is among the files. -/
def countOf (files : List (Hash × Nat)) (root : Hash) : Option Nat :=
  (files.find? fun f => f.1 = root).map Prod.snd

/-- A chain that registers the given Public files and knows one archive. -/
def soloRpc (files : List (Hash × Nat)) (me : Addr) : ChainRpc :=
  ⟨fun root => .ok ((countOf files root).map (rowOf root)),
    fun _ => .ok [⟨.archiveNode, .active, .ok me⟩], fun _ => .ok none⟩

def soloRegistry (files : List (Hash × Nat)) : Registry :=
  fun root => (countOf files root).map fun n => (n, 0)

theorem soloRpc_agrees {files : List (Hash × Nat)} (me : Addr) (h : ∀ f ∈ files, f.2 < 2 ^ 32) :
    (soloRpc files me).Agrees (soloRegistry files) := by
  intro root info hinfo
  have hrow : (countOf files root).map (rowOf root) = some info := Except.ok.inj hinfo
  obtain ⟨n, hn, rfl⟩ := Option.map_eq_some_iff.mp hrow
  refine ⟨by simp [soloRegistry, hn, rowOf], ?_⟩
  obtain ⟨f, hf, rfl⟩ := Option.map_eq_some_iff.mp hn
  exact h f (List.mem_of_find?_eq_some hf)

/-- The decoder that knows the bytes of one manifest. -/
@[reducible] def ManifestReader.only (m : DataManifest) : ManifestReader :=
  ⟨fun bytes => if bytes = manifestToCbor m then .ok m else .error []⟩

/-- All writes of a push succeed. -/
def PushIo.allDone : PushIo := ⟨.done, .done, .done, .done, .done⟩

theorem hexDecode_hexEncode (b : Bytes) : hexDecode (hexEncode b) = some b := by
  have hdigit : ∀ d < 16, hexValue (hexDigit d) = some d := by decide
  induction b with
  | nil => rfl
  | cons x b ih =>
      have hx : x.toNat < 256 := x.toNat_lt
      have hval : 16 * (x.toNat / 16) + x.toNat % 16 = x.toNat := by omega
      have hcons : hexEncode (x :: b)
          = hexDigit (x.toNat / 16) :: hexDigit (x.toNat % 16) :: hexEncode b := rfl
      rw [hcons]
      simp only [hexDecode, hdigit _ (show x.toNat / 16 < 16 by omega),
        hdigit _ (show x.toNat % 16 < 16 by omega), ih, hval, Option.bind_eq_bind,
        Option.bind_some, Option.pure_def, UInt8.ofNat_toNat]

theorem decodeRootHex_rowOf (root : Hash) (n : Nat) :
    decodeRootHex (rowOf root n).merkleRoot = some root := by
  simp [rowOf, decodeRootHex, hexDecode_hexEncode, Hash.ofBytes?, root.size]

theorem insert_lookup_only {cid cid' : Str} {data d : Bytes}
    (h : ((∅ : ChunkStore).insert cid data).lookup cid' = some d) : d = data := by
  by_cases hc : cid' = cid
  · subst hc
    rw [AList.lookup_insert, Option.some.injEq] at h
    exact h.symm
  · rw [AList.lookup_insert_ne hc] at h
    cases h

/-! ### A push that validates -/

/-- The one archive of a snapshot is assigned to every chunk. -/
theorem assignedArchives_solo [AssignmentScore] (root : Hash) (me : Addr) (i : Nat) {r : Nat}
    (hr : 0 < r) : assignedArchives root [me] i r = [me] := by
  obtain ⟨k, rfl⟩ : ∃ k, r = k + 1 := ⟨r - 1, by omega⟩
  simp [assignedArchives, assignedArchivesPresorted, presortedAddresses]

theorem decodeSnapshot_solo (me : Addr) :
    decodeSnapshot [⟨.archiveNode, .active, .ok me⟩] = some [me] := by
  simp [decodeSnapshot, NodeRecordInfo.isActiveArchive, presortedAddresses]

/-- A new validator of the one archive takes every chunk with a proof. -/
theorem solo_validatePush [Blake3] [AssignmentScore] {files : List (Hash × Nat)} (me : Addr)
    {params : V2Params} {root : Hash} {n i : Nat} {data : Bytes} {path : List Hash}
    (hrow : countOf files root = some n) (hr : 0 < params.assignmentReplicationFactor)
    (hv : verifyMerkleProofBytesForTree (Blake3.hash data) i path root n = true)
    (clock : Nat → Nat) :
    ((PushValidator.new me params).validatePush (soloRpc files me) clock root i data path).2
      = .ok ⟨Blake3.hash data, 0⟩ := by
  have hi : ¬ n ≤ i := by
    intro hle
    unfold verifyMerkleProofBytesForTree at hv
    split at hv
    · cases hv
    · cases hv
  have hfetch : (PushValidator.new me params).fetchFileInfo (soloRpc files me) root
      = ({ PushValidator.new me params with
          fileInfo := (Lru.empty 256 : Lru Hash StorageFileInfoV2).put root (rowOf root n) },
        .ok (rowOf root n)) := by
    simp [PushValidator.fetchFileInfo, PushValidator.new, Lru.peek, Lru.empty, soloRpc, hrow,
      decodeRootHex_rowOf]
  have hassigned : ∀ v : PushValidator, v.myAddr = me → v.params = params →
      v.epochs.peek root = none → v.snapshot.peek 0 = none →
      (v.checkAssignment (soloRpc files me) clock root (rowOf root n) i).2 = .ok () := by
    intro v hme hp he hs
    simp [PushValidator.checkAssignment, PushValidator.assignmentEpoch, he,
      PushValidator.readEpoch, soloRpc, rowOf, PushValidator.checkAssigned,
      PushValidator.fetchSnapshot, hs, decodeSnapshot_solo, hme, hp,
      assignedArchives_solo root me i hr]
  unfold PushValidator.validatePush
  rw [hfetch]
  have hok := hassigned { PushValidator.new me params with
      fileInfo := (Lru.empty 256 : Lru Hash StorageFileInfoV2).put root (rowOf root n) }
    rfl rfl rfl rfl
  dsimp only
  rw [if_neg (by simp [rowOf, LifecycleV2.isAbandoned]),
    if_neg (by simp [rowOf, LifecycleV2.isPending, LifecycleV2.isActive]),
    if_neg (by simpa [rowOf] using hi)]
  split
  · rename_i h
    rw [h] at hok
    cases hok
  · rw [if_neg (by simp [rowOf, hv])]
    rfl

/-- What is in the store after the push of a Public chunk was acknowledged. -/
structure AfterPush [Blake3] (d d' : V2Dispatcher) (root : Hash) (i : Nat) (data : Bytes) :
    Prop where
  files : d'.store.files = d.store.files.insert (cidFromData data) data
  byRoot : d'.store.manifestIdx.byRoot = d.store.manifestIdx.byRoot
  cbor : d'.store.manifestIdx.dir.cbor = d.store.manifestIdx.dir.cbor
  opaqueFiles : d'.store.manifestIdx.dir.opaqueFiles = d.store.manifestIdx.dir.opaqueFiles
  held : d'.held = (root, i) :: d.held
  myAddr : d'.validator.myAddr = d.validator.myAddr
  params : d'.validator.params = d.validator.params

/-- The store is ready for a chunk it knows nothing of. -/
structure ReadyFor [Blake3] (s : SumStore) (root : Hash) (i : Nat) (data : Bytes) : Prop where
  intact : s.manifestIdx.gcProtectionIntact = some true
  list : ∃ list, s.manifestIdx.dir.gcList = some list
  file : s.files.lookup (cidFromData data) = none
  proof : s.manifestIdx.v2PushedProof root i = none
  held : s.manifestIdx.v2HeldRecord root i = none

theorem readyFor_fresh [Blake3] (root : Hash) (i : Nat) (data : Bytes) :
    ReadyFor (SumStore.new ∅ ManifestDir.fresh [] true) root i data :=
  ⟨rfl, ⟨[], rfl⟩, rfl, rfl, rfl⟩

/--
**A Public chunk that validates is acknowledged** by a store that is ready for it
and whose writes succeed.
-/
theorem acceptValidated_acks [Blake3] [AssignmentScore] {d : V2Dispatcher} {rpc : ChainRpc}
    {clock : Nat → Nat} {root : Hash} {i : Nat} {data : Bytes} {path : List Hash}
    (hval : (d.validator.validatePush rpc clock root i data path).2 = .ok ⟨Blake3.hash data, 0⟩)
    (hready : ReadyFor d.store root i data)
    (hproof : pushedProofVerifies root i ⟨Blake3.hash data, path⟩ = true) (allowPrivate : Bool) :
    let out := d.acceptValidated rpc clock .allDone data root i path allowPrivate
    out.2 = none ∧ AfterPush d out.1 root i data := by
  have hself := PushValidator.validatePush_self rpc d.validator clock root i data path
  obtain ⟨list, hlist⟩ := hready.list
  have hcid : cidFromBlake3Hash (Blake3.hash data) = cidFromData data := rfl
  have hpublic : (0 : VisibilityV2).isPrivate = false := rfl
  dsimp only
  unfold V2Dispatcher.acceptValidated
  split
  · rename_i h
    rw [h] at hval
    cases hval
  rename_i v pushed h
  rw [h] at hval hself
  obtain rfl := Except.ok.inj hval
  dsimp only
  rw [hpublic, hcid, if_neg (by simp)]
  -- The exemption is new or known; either way it is recorded, and the bytes are new.
  have hput : d.store.files.put .done (cidFromData data) data
      = (d.store.files.insert (cidFromData data) data, .ok ()) := by
    simp [ChunkStore.put, hready.file]
  have hgc : ∃ idx, d.store.manifestIdx.recordV2HeldChunk .done (cidFromData data) = (idx, .ok ()) ∧
      idx.byRoot = d.store.manifestIdx.byRoot ∧ idx.dir.cbor = d.store.manifestIdx.dir.cbor ∧
      idx.dir.opaqueFiles = d.store.manifestIdx.dir.opaqueFiles ∧
      idx.v2Proofs = d.store.manifestIdx.v2Proofs ∧ idx.v2Held = d.store.manifestIdx.v2Held := by
    unfold ManifestIndex.recordV2HeldChunk
    by_cases hmem : cidFromData data ∈ d.store.manifestIdx.gcProtected
    · exact ⟨_, by rw [if_pos hmem], rfl, rfl, rfl, rfl, rfl⟩
    · rw [if_neg hmem, if_neg (by simp [hready.intact]), if_neg (by simp [hready.intact]), hlist]
      exact ⟨_, rfl, rfl, rfl, rfl, rfl, rfl⟩
  obtain ⟨idx, hidx, hbyRoot, hcbor, hopaque, hproofs, hheld⟩ := hgc
  have hstore : storeV2PushedChunk .allDone d.store (cidFromData data) data
      = (⟨d.store.files.insert (cidFromData data) data, idx⟩, .ok ()) := by
    simp [storeV2PushedChunk, PushIo.allDone, hidx, hput]
  rw [hstore]
  dsimp only
  have hp : idx.v2Proofs.lookup (root, i) = none := by rw [hproofs]; exact hready.proof
  have hh : idx.v2Held.lookup (root, i) = none := by rw [hheld]; exact hready.held
  have hrec : recordAccepted .allDone idx false root i (Blake3.hash data) path (cidFromData data)
      = ({ idx with
          dir := { idx.dir with
            v2Proofs := idx.dir.v2Proofs ++ [((root, i), ⟨Blake3.hash data, path⟩)]
            v2Held := idx.dir.v2Held ++ [((root, i), cidFromData data)] }
          v2Proofs := idx.v2Proofs.insert (root, i) ⟨Blake3.hash data, path⟩
          v2Held := idx.v2Held.insert (root, i) (cidFromData data) }, .ok ()) := by
    simp [recordAccepted, PushIo.allDone, ManifestIndex.recordV2PushedProof, hp, hproof,
      appendLine, ManifestIndex.recordV2HeldIndex, hh]
  rw [hrec]
  exact ⟨rfl, rfl, hbyRoot, hcbor, hopaque, rfl, hself.myAddr, hself.params⟩

/-- A new archive that is alone on its chain acknowledges every chunk with a proof. -/
theorem solo_push_acked [Blake3] [ManifestReader] [AssignmentScore] {files : List (Hash × Nat)}
    (me : Addr) {params : V2Params} (hr : 0 < params.assignmentReplicationFactor)
    (worker : MarketSyncWorker) (req : PushRequest) {n : Nat}
    (hrow : countOf files req.merkleRoot = some n) (hn : n < 2 ^ 32)
    (hv : verifyMerkleProofBytesForTree (Blake3.hash req.data) req.chunkIndex req.merklePath
      req.merkleRoot n = true) :
    let a := Archive.fresh me params worker
    let out := a.step (.push req true (soloRpc files me) id .allDone)
    out.2 = .pushAck req none ∧
      AfterPush a.dispatcher out.1.dispatcher req.merkleRoot req.chunkIndex req.data := by
  have hval := solo_validatePush me hrow hr hv id
  have hproof : ProofOk req.merkleRoot n
      (walkPreimages req.chunkIndex (Blake3.hash req.data) req.merklePath) req.chunkIndex
      ⟨Blake3.hash req.data, req.merklePath⟩ := ⟨hv, fun _ h => h⟩
  obtain ⟨hack, hafter⟩ := acceptValidated_acks (d := (Archive.fresh me params worker).dispatcher)
    hval (readyFor_fresh req.merkleRoot req.chunkIndex req.data)
    (hproof.pushedProofVerifies hn) true
  exact ⟨by simp [Archive.step, hack], hafter⟩

/-! ### A manifest that is indexed -/

theorem validate_only [Blake3] {root : Hash} {m : DataManifest} (hm : ValidManifest root m) :
    letI := ManifestReader.only m
    validateManifestPush (hexEncode root.bytes) (manifestToCbor m) = .ok m := by
  let _ := ManifestReader.only m
  exact validateManifestPush_ok_iff.mpr ⟨if_pos rfl, hm⟩

/-- **A valid manifest is indexed under a Public root that has none.** -/
theorem handleManifestPush_indexes [Blake3] {files : List (Hash × Nat)} (me : Addr)
    (d : V2Dispatcher) {root : Hash} {n : Nat} {m : DataManifest}
    (hrow : countOf files root = some n) (hm : ValidManifest root m)
    (hnone : d.store.manifestIdx.getByMerkleRoot root = none) :
    letI := ManifestReader.only m
    let out := d.handleManifestPush (soloRpc files me) .done root (manifestToCbor m)
    out.1.store.files = d.store.files ∧
      out.1.store.manifestIdx.byRoot = d.store.manifestIdx.byRoot.insert root m ∧
      out.1.store.manifestIdx.dir.cbor = d.store.manifestIdx.dir.cbor.insert root m ∧
      out.1.store.manifestIdx.dir.opaqueFiles = d.store.manifestIdx.dir.opaqueFiles ∧
      out.1.validator = d.validator := by
  let _ := ManifestReader.only m
  have hshape : fetchFileShape (soloRpc files me) root = .ok (rowOf root n) := by
    simp [fetchFileShape, soloRpc, hrow]
  have hindex : d.handleManifestPush (soloRpc files me) .done root (manifestToCbor m)
      = d.indexManifest .done root m := by
    unfold V2Dispatcher.handleManifestPush
    rw [hshape]
    dsimp only
    rw [if_neg (by simp [rowOf, VisibilityV2.isPrivate]), validate_only hm]
  dsimp only
  rw [hindex]
  unfold V2Dispatcher.indexManifest
  rw [hnone]
  simp [ManifestIndex.insert, ManifestIndex.addToMaps, hm.merkleRoot]

end Snip
