/-
What an archive attests.

An attestation speaks for chunks the archive has accepted and still has.  The held
set behind it is fed from three sides (pushes, recorded pushes after a restart,
and the chunks that a manifest in the index lists and that are on disk) and is
never pruned, so what it says has to hold of the files as they are now.  The third
side is the weak one: a manifest with another chunk count names bytes that are no
chunk of the file at all.
-/
import Snip.Blake3
import Snip.Proofs.Acceptance
import Snip.Proofs.Attestor

namespace Snip

/-! ### Batches -/

theorem mem_chunksOf {α : Type} {size : Nat} : ∀ (fuel : Nat) (items : List α)
    {batch : List α} {x : α}, batch ∈ chunksOf size fuel items → x ∈ batch → x ∈ items := by
  intro fuel
  induction fuel with
  | zero => intro items batch x h _; cases h
  | succ fuel ih =>
      intro items batch x h hx
      cases items with
      | nil => cases h
      | cons a items =>
          rcases List.mem_cons.mp h with rfl | h
          · exact List.mem_of_mem_take hx
          · exact List.mem_of_mem_drop (ih _ h hx)

theorem V2Dispatcher.mem_heldFor {d : V2Dispatcher} {root : Hash} {i : Nat} :
    i ∈ d.heldFor root ↔ (root, i) ∈ d.held := by
  unfold V2Dispatcher.heldFor
  constructor
  · intro h
    obtain ⟨⟨r, j⟩, hentry, rfl⟩ := List.mem_map.mp h
    obtain ⟨hmem, hr⟩ := List.mem_filter.mp hentry
    obtain rfl : r = root := by simpa using hr
    exact hmem
  · intro h
    exact List.mem_map.mpr ⟨(root, i), List.mem_filter.mpr ⟨h, by simp⟩, rfl⟩

/-- An attested index is assigned to the archive, in range and held. -/
theorem mem_attest [AssignmentScore] {params : V2Params} {myAddr : Addr} {root : Hash} {n : Nat}
    {snapshot : List Addr} {held : List Nat} {goesThrough : Nat → Bool} {batch : List Nat}
    {i : Nat} (hbatch : batch ∈ attest params myAddr root n snapshot held goesThrough)
    (hi : i ∈ batch) : i < n ∧ i ∈ held ∧
      myAddr ∈ assignedArchives root snapshot i params.assignmentReplicationFactor := by
  unfold attest at hbatch
  split at hbatch
  · cases hbatch
  · have hset := mem_chunksOf _ _ (List.mem_of_mem_take hbatch) hi
    obtain ⟨hassigned, hheld⟩ := List.mem_filter.mp hset
    unfold chunksForArchiveV2 at hassigned
    dsimp only at hassigned
    split at hassigned
    · cases hassigned
    · obtain ⟨hrange, hmine⟩ := List.mem_filter.mp hassigned
      exact ⟨List.mem_range.mp hrange, by simpa using hheld,
        by simpa [assignedArchives] using hmine⟩

/-- A run that submits batches takes the same snapshot whatever goes through. -/
theorem runAttestation_through [AssignmentScore] {chain : Registry} {rpc : ChainRpc}
    (hrpc : rpc.Agrees chain) {params : V2Params} {myAddr : Addr} {root : Hash} {held : List Nat}
    {goesThrough : Nat → Bool} {run : Attestation} {n : Nat} {vis : VisibilityV2}
    (hreg : chain root = some (n, vis))
    (h : runAttestation rpc params myAddr root held goesThrough = some run) (through : Nat → Bool) :
    runAttestation rpc params myAddr root held through
      = some ⟨root, run.snapshot, attest params myAddr root n run.snapshot held through⟩ := by
  unfold runAttestation at h ⊢
  split at h
  · cases h
  rename_i hheld
  rw [if_neg hheld]
  split at h
  · cases h
  · cases h
  rename_i shape hshape
  split at h
  · cases h
  dsimp only at h ⊢
  split at h
  · cases h
  rename_i hepoch
  rw [if_neg hepoch]
  split at h
  · cases h
  obtain ⟨snapshot, hsnapshot, rfl⟩ := Option.map_eq_some_iff.mp h
  have hcount := (hrpc root shape hshape).1
  rw [hreg, Option.some.injEq, Prod.mk.injEq] at hcount
  rw [hsnapshot, ← hcount.1]
  rfl

/-! ### The archive stays who it is -/

section

variable [Blake3] [ManifestReader] [AssignmentScore]

omit [ManifestReader] in
theorem acceptValidated_self (d : V2Dispatcher) (rpc : ChainRpc) (clock : Nat → Nat) (io : PushIo)
    (data : Bytes) (root : Hash) (i : Nat) (path : List Hash) (allowPrivate : Bool) :
    PushValidator.SameSelf d.validator
      (d.acceptValidated rpc clock io data root i path allowPrivate).1.validator := by
  have hself := PushValidator.validatePush_self rpc d.validator clock root i data path
  unfold V2Dispatcher.acceptValidated
  split
  · rename_i h
    rw [h] at hself
    exact hself
  rename_i h
  rw [h] at hself
  dsimp only
  split
  · exact hself
  split
  · exact hself
  split
  · exact hself
  · exact hself

omit [Blake3] [ManifestReader] [AssignmentScore] in
theorem indexManifest_validator (io : Io) (d : V2Dispatcher) (root : Hash) (m : DataManifest) :
    (d.indexManifest io root m).1.validator = d.validator := by
  unfold V2Dispatcher.indexManifest
  split
  · rfl
  split
  · rfl
  · rfl

theorem step_self (a : Archive) (e : ArchiveEvent) :
    PushValidator.SameSelf a.dispatcher.validator (a.step e).1.dispatcher.validator := by
  cases e with
  | push req allowPrivate rpc clock io => exact acceptValidated_self _ _ _ _ _ _ _ _ _
  | manifestPush root bytes rpc io =>
      have hsame : (a.dispatcher.handleManifestPush rpc io root bytes).1.validator
          = a.dispatcher.validator := by
        unfold V2Dispatcher.handleManifestPush
        split
        · rfl
        split
        · split
          · rfl
          split
          · rfl
          · rfl
        · split
          · rfl
          · exact indexManifest_validator _ _ _ _
      exact ⟨congrArg PushValidator.myAddr hsame, congrArg PushValidator.params hsame⟩
  | refetchedManifest root bytes rpc io =>
      have hsame : ∀ count,
          (a.dispatcher.acceptRefetchedManifest io root count bytes).1.validator
            = a.dispatcher.validator := by
        intro count
        unfold V2Dispatcher.acceptRefetchedManifest
        split
        · rfl
        split
        · rfl
        · exact indexManifest_validator _ _ _ _
      unfold Archive.step
      dsimp only
      split
      · exact ⟨rfl, rfl⟩
      · exact ⟨congrArg PushValidator.myAddr (hsame _), congrArg PushValidator.params (hsame _)⟩
  | restart order rewrite => exact ⟨rfl, rfl⟩
  | gcSweep rows nodeAddrs pollAge now deletes => exact ⟨rfl, rfl⟩
  | attestation root rpc goesThrough => exact ⟨rfl, rfl⟩

theorem run_self : ∀ (events : List ArchiveEvent) (a : Archive),
    PushValidator.SameSelf a.dispatcher.validator (a.run events).dispatcher.validator := by
  intro events
  induction events with
  | nil => intro a; exact ⟨rfl, rfl⟩
  | cons e events ih => intro a; exact (step_self a e).trans (ih _)

/-! ### What is attested is there -/

/--
**Every attested index is a chunk of the file, assigned to the archive and on its
disk,** in every run in which each pushed manifest of the root that passes the push
check declares the registered chunk count.
-/
theorem attested_indices_stored {chain : Registry} {R : Hash} {n : Nat} {vis : VisibilityV2}
    (hreg : chain R = some (n, vis)) (hn : n < 2 ^ 32) (myAddr : Addr) (params : V2Params)
    (worker : MarketSyncWorker) (events : List ArchiveEvent)
    (hagrees : ∀ e ∈ events, e.Agrees chain) (hcount : ∀ e ∈ events, e.DeclaresCount R n)
    (rpc : ChainRpc) (hrpc : rpc.Agrees chain) (goesThrough : Nat → Bool) (run : Attestation)
    (hrun : (((Archive.fresh myAddr params worker).run events).step
      (.attestation R rpc goesThrough)).2 = .attested (some run)) :
    ∀ batch ∈ run.batches, ∀ i ∈ batch,
      i < n ∧
      myAddr ∈ assignedArchives R run.snapshot i params.assignmentReplicationFactor ∧
      ∃ cid d path,
        ((Archive.fresh myAddr params worker).run events).dispatcher.store.files.lookup cid
          = some d ∧
        verifyMerkleProofBytesForTree (Blake3.hash d) i path R n = true := by
  have hinv : Archive.Inv chain R n (events.flatMap ArchiveEvent.strings)
      ((Archive.fresh myAddr params worker).run events) :=
    Archive.Inv.run hn ⟨vis, hreg⟩ events (Archive.inv_fresh myAddr params worker hn)
      fun e he => ⟨hagrees e he, hcount e he, fun _ hs => List.mem_flatMap.mpr ⟨e, he, hs⟩⟩
  obtain ⟨haddr, hparams⟩ := run_self events (Archive.fresh myAddr params worker)
  have hrun' : runAttestation rpc params myAddr R
      (((Archive.fresh myAddr params worker).run events).dispatcher.heldFor R) goesThrough
        = some run := by
    have hout := hrun
    simp only [Archive.step, ArchiveOutput.attested.injEq] at hout
    rw [haddr, hparams] at hout
    exact hout
  have hsame := hrun'.symm.trans (runAttestation_through hrpc hreg hrun' goesThrough)
  intro batch hbatch i hi
  rw [congrArg Attestation.batches (Option.some.inj hsame)] at hbatch
  obtain ⟨hlt, hheld, hassigned⟩ := mem_attest hbatch hi
  exact ⟨hlt, hassigned, hinv.held i (V2Dispatcher.mem_heldFor.mp hheld)⟩

/--
**The transactions that an archive's attestor sends are the batches that it attests,** and
speak for stored chunks only: for a request on the snapshot of such a run and on the chunks
the archive holds, whatever the node and the clock do to it.
-/
theorem attestor_sends_stored {σ : Type} [SumchainWire] [OperationWire] {chain : Registry} {R : Hash}
    {n : Nat} {vis : VisibilityV2} (hreg : chain R = some (n, vis)) (hn : n < 2 ^ 32)
    (a : AssignmentAttestor σ) (worker : MarketSyncWorker) (events : List ArchiveEvent)
    (hagrees : ∀ e ∈ events, e.Agrees chain) (hcount : ∀ e ∈ events, e.DeclaresCount R n)
    (rpc : ChainRpc) (hrpc : rpc.Agrees chain) (goesThrough : Nat → Bool) (run : Attestation)
    (hrun : (((Archive.fresh a.myAddr a.params worker).run events).step
      (.attestation R rpc goesThrough)).2 = .attested (some run)) (req : AttestRequest)
    (hshape : req.merkleRoot = R ∧ req.chunkCount = n ∧ req.snapshot = run.snapshot)
    (hheld : ∀ i, i ∈ req.held ↔
      i ∈ ((Archive.fresh a.myAddr a.params worker).run events).dispatcher.heldFor R)
    (clock : Nat → List Nat) (node : σ) :
    ∃ sent through,
      (((Archive.fresh a.myAddr a.params worker).run events).step (.attestation R rpc through)).2
        = .attested (some ⟨R, run.snapshot, sent⟩) ∧
      (a.attest req clock node).2.1.filterMap RpcCall.sent?
        = sent.mapIdx (fun k batch => a.batchTx req (req.startingNonce + UInt64.ofNat k) batch) ∧
      ∀ batch ∈ sent, ∀ i ∈ batch, i < n ∧
        a.myAddr ∈ assignedArchives R run.snapshot i a.params.assignmentReplicationFactor ∧
        Stored R n ((Archive.fresh a.myAddr a.params worker).run events).dispatcher.store.files
          i := by
  obtain ⟨rfl, rfl, hsnapshot⟩ := hshape
  have hinv : Archive.Inv chain req.merkleRoot req.chunkCount (events.flatMap ArchiveEvent.strings)
      ((Archive.fresh a.myAddr a.params worker).run events) :=
    Archive.Inv.run hn ⟨vis, hreg⟩ events (Archive.inv_fresh a.myAddr a.params worker hn)
      fun e he => ⟨hagrees e he, hcount e he, fun _ hs => List.mem_flatMap.mpr ⟨e, he, hs⟩⟩
  obtain ⟨haddr, hparams⟩ := run_self events (Archive.fresh a.myAddr a.params worker)
  generalize (Archive.fresh a.myAddr a.params worker).run events = z at *
  have hstep : ∀ through, (z.step (.attestation req.merkleRoot rpc through)).2
      = .attested (runAttestation rpc a.params a.myAddr req.merkleRoot
          (z.dispatcher.heldFor req.merkleRoot) through) := by
    intro through
    simp only [Archive.step]
    rw [haddr, hparams]
    rfl
  have hrun' := hrun
  rw [hstep, ArchiveOutput.attested.injEq] at hrun'
  have hthrough := runAttestation_through hrpc hreg hrun'
  have hsent : ∃ through : Nat → Bool, (a.attest req clock node).2.1.filterMap RpcCall.sent?
      = (attest a.params a.myAddr req.merkleRoot req.chunkCount run.snapshot
          (z.dispatcher.heldFor req.merkleRoot) through).mapIdx fun k batch =>
            a.batchTx req (req.startingNonce + UInt64.ofNat k) batch := by
    by_cases hcap : a.params.maxChunkIndicesPerTx = 0
    · refine ⟨fun _ => true, ?_⟩
      unfold AssignmentAttestor.attest attest
      rw [if_pos hcap, if_pos hcap]
      rfl
    · have hreport := a.attest_keeps req clock node hcap
      refine ⟨fun k => k < (a.attest req clock node).1.batches.length, ?_⟩
      rw [hreport.submitted, hreport.batches_eq_attest hcap (fun i => (hheld i).symm), hsnapshot]
  obtain ⟨through, htxs⟩ := hsent
  refine ⟨_, through, ?_, htxs, ?_⟩
  · rw [hstep, hthrough]
  · intro batch hbatch i hi
    obtain ⟨hlt, hmem, hassigned⟩ := mem_attest hbatch hi
    exact ⟨hlt, hassigned, hinv.held i (V2Dispatcher.mem_heldFor.mp hmem)⟩

end

/-! #### A manifest that names other bytes

A file of 64 bytes may be the two digests `a` and `b` one after the other.  It has
one chunk, and its root is the digest of those bytes: the node over `a` and `b`.
So the manifest over the two leaves `a` and `b` is valid for it.  If the archive has
accepted the preimage of `a` as a chunk of some other file, it counts the first
chunk of the 64-byte file as held when it comes up again. -/

section

variable [Blake3] [AssignmentScore]

/-- The root of the file whose 64 bytes are the digest of the byte 1 and thirty-two twos. -/
def digestsRoot : Hash := hashPair (Blake3.hash [1]) (Hash.fill 2)

/-- The chain registers that file and the file of the byte 1, one chunk each. -/
def digestsFiles : List (Hash × Nat) := [(digestsRoot, 1), (Blake3.hash [1], 1)]

/-- The manifest over the two digests. -/
def digestsManifest : DataManifest := manifestOver digestsRoot [Blake3.hash [1], Hash.fill 2]

/-- The push of the one-byte file's only chunk. -/
def byteChunk : PushRequest := ⟨[1], Blake3.hash [1], 0, []⟩

def pushByte : ArchiveEvent := .push byteChunk true (soloRpc digestsFiles 0) id .allDone

def pushDigests : ArchiveEvent :=
  .manifestPush digestsRoot (manifestToCbor digestsManifest) (soloRpc digestsFiles 0) .done

omit [AssignmentScore] in
theorem digestsManifest_valid : ValidManifest digestsRoot digestsManifest := manifestOver_valid rfl

omit [AssignmentScore] in
theorem countOf_digestsRoot : countOf digestsFiles digestsRoot = some 1 := by
  simp [countOf, digestsFiles]

omit [AssignmentScore] in
theorem countOf_byte : countOf digestsFiles (Blake3.hash [1]) = some 1 := by
  by_cases h : digestsRoot = Blake3.hash [1]
  · simp [countOf, digestsFiles, h]
  · simp [countOf, digestsFiles, h]

omit [AssignmentScore] in
theorem byteChunk_verifies : verifyMerkleProofBytesForTree (Blake3.hash byteChunk.data)
    byteChunk.chunkIndex byteChunk.merklePath byteChunk.merkleRoot 1 = true :=
  (verifyForTree_iff (by decide)).mpr ⟨Nat.one_pos, rfl, rfl⟩

omit [AssignmentScore] in
theorem soloRpc_digests_agrees : (soloRpc digestsFiles 0).Agrees (soloRegistry digestsFiles) :=
  soloRpc_agrees 0 (by simp [digestsFiles])

/-- One copy of each chunk, in batches of at most eight. -/
def oneCopy : V2Params := ⟨1, 8⟩

def emptyWorker : MarketSyncWorker := ⟨0, 1, ⟨∅, 0⟩⟩

omit [Blake3] in
/-- The one archive attests the only chunk of a file, once it counts as held. -/
theorem runAttestation_solo {files : List (Hash × Nat)} {root : Hash} {held : List Nat}
    (hrow : countOf files root = some 1) (hheld : 0 ∈ held) :
    runAttestation (soloRpc files 0) oneCopy 0 root held (fun _ => true)
      = some ⟨root, [0], [[0]]⟩ := by
  have hne : held ≠ [] := by
    rintro rfl
    cases hheld
  have hpre : presortedAddresses [0] = [0] := by simp [presortedAddresses]
  have hassigned : assignedArchivesPresorted root [0] 0 1 = [0] := by
    simp [assignedArchivesPresorted]
  have hset : (chunksForArchiveV2 root 1 [0] 1 0).filter (fun i => i ∈ held) = [0] := by
    simp [chunksForArchiveV2, hpre, hassigned, hheld, List.range_succ]
  simp [runAttestation, hne, soloRpc, hrow, rowOf, decodeSnapshot_solo, attest, oneCopy, hset,
    chunksOf, List.range_succ]

theorem attested_only [ManifestReader] {files : List (Hash × Nat)} {root : Hash}
    (hrow : countOf files root = some 1) (a : Archive) (hme : a.dispatcher.validator.myAddr = 0)
    (hparams : a.dispatcher.validator.params = oneCopy) (hheld : (root, 0) ∈ a.dispatcher.held) :
    (a.step (.attestation root (soloRpc files 0) fun _ => true)).2
      = .attested (some ⟨root, [0], [[0]]⟩) := by
  have hmem : 0 ∈ a.dispatcher.heldFor root := V2Dispatcher.mem_heldFor.mpr hheld
  simp only [Archive.step, hme, hparams, runAttestation_solo hrow hmem]

/-- After the push and the manifest: one file on disk, and the manifest. -/
theorem digests_state :
    letI := ManifestReader.only digestsManifest
    let z := (Archive.fresh 0 oneCopy emptyWorker).run [pushByte, pushDigests]
    z.dispatcher.store.files = (∅ : ChunkStore).insert (cidFromData [1]) [1] ∧
      z.dispatcher.store.manifestIdx.dir.cbor
        = (∅ : Map Hash DataManifest).insert digestsRoot digestsManifest := by
  let _ := ManifestReader.only digestsManifest
  obtain ⟨-, hafter⟩ := solo_push_acked 0 (show 0 < oneCopy.assignmentReplicationFactor by decide)
    emptyWorker byteChunk countOf_byte (by decide) byteChunk_verifies
  have hnone : ((Archive.fresh 0 oneCopy emptyWorker).step
      pushByte).1.dispatcher.store.manifestIdx.getByMerkleRoot digestsRoot = none := by
    unfold ManifestIndex.getByMerkleRoot
    rw [pushByte, hafter.byRoot]
    rfl
  obtain ⟨hfiles, -, hcbor, -⟩ := handleManifestPush_indexes 0 _ countOf_digestsRoot
    digestsManifest_valid hnone
  exact ⟨hfiles.trans hafter.files, hcbor.trans (congrArg (fun c => AList.insert _ _ c) hafter.cbor)⟩

/-- After the restart the first chunk of the 64-byte file counts as held. -/
theorem digests_held :
    letI := ManifestReader.only digestsManifest
    let z := (Archive.fresh 0 oneCopy emptyWorker).run [pushByte, pushDigests, .restart [] true]
    z.dispatcher.store.files = (∅ : ChunkStore).insert (cidFromData [1]) [1] ∧
      (digestsRoot, 0) ∈ z.dispatcher.held := by
  let _ := ManifestReader.only digestsManifest
  obtain ⟨hfiles, hcbor⟩ := digests_state
  set y := (Archive.fresh 0 oneCopy emptyWorker).run [pushByte, pushDigests] with hy
  have hname : ∀ r m, y.dispatcher.store.manifestIdx.dir.cbor.lookup r = some m →
      m.merkleRoot = r := by
    intro r m hl
    rw [hcbor] at hl
    by_cases hr : r = digestsRoot
    · subst hr
      rw [AList.lookup_insert, Option.some.injEq] at hl
      rw [← hl]
      rfl
    · rw [AList.lookup_insert_ne hr] at hl
      cases hl
  have hload := load_byRoot hname [] true (r := digestsRoot) (m := digestsManifest)
    (by rw [hcbor]; exact AList.lookup_insert _)
  have hnew : (SumStore.new y.dispatcher.store.files y.dispatcher.store.manifestIdx.dir []
      true).manifestIdx.byRoot.lookup digestsRoot = some digestsManifest := by
    unfold SumStore.new
    dsimp only
    split
    · exact hload
    · exact hload
  refine ⟨hfiles, ?_⟩
  have hdisk : (digestsRoot, 0) ∈ heldFromDisk (SumStore.new y.dispatcher.store.files
      y.dispatcher.store.manifestIdx.dir [] true) := by
    refine List.mem_append_right _ (List.mem_flatMap.mpr ⟨digestsRoot, ?_, ?_⟩)
    · exact List.mem_append_left _ (AList.lookup_isSome.mp (by rw [hnew]; rfl))
    · have hhas : (SumStore.new y.dispatcher.store.files y.dispatcher.store.manifestIdx.dir []
          true).files.has (cidFromBlake3Hash (Blake3.hash [1])) = true := by
        rw [show (SumStore.new y.dispatcher.store.files y.dispatcher.store.manifestIdx.dir []
          true).files = _ from hfiles]
        unfold ChunkStore.has
        rw [show cidFromBlake3Hash (Blake3.hash [1]) = cidFromData [1] from rfl,
          AList.lookup_insert]
        rfl
      rw [ManifestIndex.getByMerkleRoot, hnew]
      exact List.mem_map.mpr ⟨nodeDescriptor 0 (Blake3.hash [1]),
        List.mem_filter.mpr ⟨by simp [digestsManifest, manifestOver], hhas⟩, rfl⟩
  exact List.mem_append_left _ hdisk

end

/-- The one-byte file's chunk is attested, and it is there. -/
theorem byte_chunk_attested :
    letI := Blake3.reference
    letI := ManifestReader.only digestsManifest
    letI := AssignmentScore.flat
    0 < 1 ∧ 0 ∈ assignedArchives (Blake3.hash [1]) [0] 0 1 ∧
    ∃ cid d path,
      ((Archive.fresh 0 oneCopy emptyWorker).run [pushByte]).dispatcher.store.files.lookup cid
        = some d ∧
      verifyMerkleProofBytesForTree (Blake3.hash d) 0 path (Blake3.hash [1]) 1 = true := by
  generalize Blake3.reference = b
  let _ := ManifestReader.only digestsManifest
  let _ := AssignmentScore.flat
  have hreg : soloRegistry digestsFiles (Blake3.hash [1]) = some (1, 0) := by
    simp [soloRegistry, countOf_byte]
  have hrun : (((Archive.fresh 0 oneCopy emptyWorker).run [pushByte]).step (.attestation
      (Blake3.hash [1]) (soloRpc digestsFiles 0) fun _ => true)).2
        = .attested (some ⟨Blake3.hash [1], [0], [[0]]⟩) := by
    obtain ⟨-, hafter⟩ := solo_push_acked 0 (show 0 < oneCopy.assignmentReplicationFactor by decide)
      emptyWorker byteChunk countOf_byte (by decide) byteChunk_verifies
    refine attested_only countOf_byte _ hafter.myAddr hafter.params ?_
    exact (congrArg ((Blake3.hash [1], 0) ∈ ·) hafter.held).mpr (List.mem_cons_self ..)
  exact attested_indices_stored hreg (by decide) 0 oneCopy emptyWorker [pushByte]
    (by simp [pushByte, ArchiveEvent.Agrees, soloRpc_digests_agrees])
    (by simp [pushByte, ArchiveEvent.DeclaresCount]) (soloRpc digestsFiles 0)
    soloRpc_digests_agrees (fun _ => true) _ hrun [0] (by simp) 0 (by simp)

/-- A transaction as its nonce and the indices it carries. -/
@[reducible] def indexWire : SumchainWire where
  fromBase58 _ := .error []
  toBase58 _ := []
  fromBytes _ := .error []
  toBytes _ := []
  signingHash _ := Hash.zero
  verifyingKey seed := seed
  fromPublicKey _ := 0
  sign _ bytes := bytes
  signedHex tx _ _ :=
    match tx.payload with
    | .other bytes => (toString tx.nonce ++ ":" ++ toString (bytes.map UInt8.toNat)).toList
    | _ => []
  hexError text := text
  debugText text := text

@[reducible] def indexPayload : OperationWire where
  payloadBytes
    | .acceptAssignmentV2 _ chunkIndices => chunkIndices.map UInt8.ofNat
    | _ => []

/-- The attestor of archive 0 at a node that makes everything final. -/
def byteAttestor : AssignmentAttestor Unit where
  rpc :=
    { storageGetFileInfoV2 := fun _ node => (.error "", node)
      storageGetAssignmentCoverageV2 := fun _ node => (.error "", node)
      chainGetChainParams := fun node => (.error "", node)
      getLatestBlockHead := fun node => (.error "", node)
      storageBuildReassignChunksV2 := fun _ _ _ node => (.error "", node)
      sendRawTransaction := fun _ node => (.ok ['x'], node)
      getTransactionStatus := fun _ node => (.ok (.finalized 9), node) }
  signingKeySeed := Hash.zero
  myAddr := 0
  chainId := 1
  feePerTx := 1
  params := oneCopy

/-- The request of the run, with the account's nonce 7. -/
def byteRequest [Blake3] : AttestRequest := ⟨Blake3.hash [1], 1, [0], {0}, 7, 2, 60⟩

/-- One transaction is sent for the chunk that is there. -/
theorem byte_chunk_sent :
    letI := Blake3.reference
    letI := ManifestReader.only digestsManifest
    letI := AssignmentScore.flat
    letI := indexWire
    letI := indexPayload
    let z := (Archive.fresh 0 oneCopy emptyWorker).run [pushByte]
    (byteAttestor.attest byteRequest (fun _ => []) ()).2.1.filterMap RpcCall.sent? = ["7:[0]".toList] ∧
    ∃ sent through,
      (z.step (.attestation (Blake3.hash [1]) (soloRpc digestsFiles 0) through)).2
        = .attested (some ⟨Blake3.hash [1], [0], sent⟩) ∧
      (byteAttestor.attest byteRequest (fun _ => []) ()).2.1.filterMap RpcCall.sent?
        = sent.mapIdx (fun k batch =>
            byteAttestor.batchTx byteRequest (byteRequest.startingNonce + UInt64.ofNat k) batch) ∧
      ∀ batch ∈ sent, ∀ i ∈ batch, i < 1 ∧ 0 ∈ assignedArchives (Blake3.hash [1]) [0] i 1 ∧
        Stored (Blake3.hash [1]) 1 z.dispatcher.store.files i := by
  refine ⟨by decide +kernel, ?_⟩
  generalize Blake3.reference = b
  let _ := ManifestReader.only digestsManifest
  let _ := AssignmentScore.flat
  let _ := indexWire
  let _ := indexPayload
  have hreg : soloRegistry digestsFiles (Blake3.hash [1]) = some (1, 0) := by
    simp [soloRegistry, countOf_byte]
  obtain ⟨-, hafter⟩ := solo_push_acked 0 (show 0 < oneCopy.assignmentReplicationFactor by decide)
    emptyWorker byteChunk countOf_byte (by decide) byteChunk_verifies
  have hheld : ((Archive.fresh byteAttestor.myAddr byteAttestor.params emptyWorker).run
      [pushByte]).dispatcher.held = [(Blake3.hash [1], 0)] := hafter.held
  have hrun := attested_only countOf_byte
    ((Archive.fresh byteAttestor.myAddr byteAttestor.params emptyWorker).run [pushByte])
    hafter.myAddr hafter.params (hheld ▸ List.mem_singleton_self _)
  refine attestor_sends_stored hreg (by decide) byteAttestor emptyWorker [pushByte]
    (by simp [pushByte, ArchiveEvent.Agrees, soloRpc_digests_agrees])
    (by simp [pushByte, ArchiveEvent.DeclaresCount]) (soloRpc digestsFiles 0)
    soloRpc_digests_agrees (fun _ => true) _ hrun byteRequest ⟨rfl, rfl, rfl⟩ ?_ (fun _ => []) ()
  intro i
  rw [V2Dispatcher.mem_heldFor, hheld]
  simp [byteRequest]

/--
The first chunk of the 64-byte file is attested, and nothing on disk is that chunk:
a file of one chunk has its chunk's digest as root, and the only file is the byte 1.
-/
theorem digests_attested_not_stored :
    letI := Blake3.reference
    letI := ManifestReader.only digestsManifest
    letI := AssignmentScore.flat
    let events := [pushByte, pushDigests, .restart [] true]
    let z := (Archive.fresh 0 oneCopy emptyWorker).run events
    soloRegistry digestsFiles digestsRoot = some (1, 0) ∧
    (∀ e ∈ events, e.Agrees (soloRegistry digestsFiles)) ∧
    (z.step (.attestation digestsRoot (soloRpc digestsFiles 0) fun _ => true)).2
      = .attested (some ⟨digestsRoot, [0], [[0]]⟩) ∧
    ¬ ∃ cid d path, z.dispatcher.store.files.lookup cid = some d ∧
      verifyMerkleProofBytesForTree (Blake3.hash d) 0 path digestsRoot 1 = true := by
  have hroot : letI := Blake3.reference; Blake3.hash [1] ≠ digestsRoot := by decide +kernel
  revert hroot
  generalize Blake3.reference = b
  intro hroot
  let _ := ManifestReader.only digestsManifest
  let _ := AssignmentScore.flat
  obtain ⟨hfiles, hheld⟩ := digests_held
  obtain ⟨hme, hparams⟩ := run_self [pushByte, pushDigests, .restart [] true]
    (Archive.fresh 0 oneCopy emptyWorker)
  refine ⟨by simp [soloRegistry, countOf_digestsRoot], ?_,
    attested_only countOf_digestsRoot _ hme hparams hheld, ?_⟩
  · simp [pushByte, pushDigests, ArchiveEvent.Agrees, soloRpc_digests_agrees]
  · rintro ⟨cid, d, path, hd, hv⟩
    rw [hfiles] at hd
    obtain rfl : d = [1] := insert_lookup_only hd
    obtain ⟨-, hlen, hclimb⟩ := (verifyForTree_iff (by decide)).mp hv
    obtain rfl : path = [] := List.length_eq_zero_iff.mp hlen
    exact hroot hclimb

end Snip
