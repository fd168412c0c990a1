/-
What `resume` and `repush` have in their hands when they go on.

A file that was rebuilt fits its own manifest: the descriptors cut it into the strings
that were hashed, and the root is that of the tree over them.  For `repush` it also fits
the row, which `resume` compares the root with only.
-/
import Snip.Node.Rebuild
import Snip.Proofs.FrameSize

namespace Snip

/-! ### A rebuilt file and its manifest -/

section

variable [Blake3]

/-- The file fits its manifest. -/
structure ReproducedFile.Sound (file : ReproducedFile) : Prop where
  count : file.manifest.chunks.length = file.manifest.chunkCount
  few : file.manifest.chunkCount < 2 ^ 32
  root : file.manifest.merkleRoot = file.tree.root
  hashes : ∀ d ∈ file.manifest.chunks,
    Blake3.hash (slice file.mapped d.offset (d.offset + d.size)) = d.blake3Hash

theorem ReproducedFile.Sound.request {file : ReproducedFile} (h : file.Sound) {i : Nat}
    (hi : i < file.manifest.chunkCount) :
    ∃ request, pushRequest file.manifest file.mapped file.tree i = some request :=
  pushRequest_isSome file.mapped (h.count ▸ hi)

theorem sound_ofPublic (fileName : Str) (content : Bytes) :
    (ReproducedFile.ofPublic fileName content).Sound := by
  refine ⟨chunkMapped_chunks_length fileName content, ?_, ?_, ?_⟩
  · show (chunkMapped fileName content).chunkCount < 2 ^ 32
    by_cases hne : content = []
    · subst hne
      exact Nat.two_pow_pos 32
    · rw [chunkMapped_chunkCount hne]
      exact Nat.mod_lt _ (Nat.two_pow_pos 32)
  · show (chunkMapped fileName content).merkleRoot
      = (MerkleTree.build (chunkMapped fileName content).leaves).root
    by_cases hne : content = []
    · subst hne
      rfl
    · rw [chunkMapped_merkleRoot hne, chunkMapped_leaves hne]
  · intro d hd
    obtain ⟨i, -, rfl⟩ := @mem_chunkMapped_chunks _ fileName content d hd
    exact congrArg Blake3.hash (chunkDescriptor_bytesIn content i)

variable [CryptoLib]

/-- What the encrypting loop keeps: its descriptors read the file that it writes. -/
structure EncryptLoop.Reads (l : EncryptLoop) (n : Nat) : Prop where
  count : l.chunks.length = n
  offset : l.offset = l.written.length
  inside : ∀ d ∈ l.chunks, d.offset + d.size ≤ l.written.length
  hashes : ∀ d ∈ l.chunks, Blake3.hash (slice l.written d.offset (d.offset + d.size)) = d.blake3Hash

theorem EncryptLoop.Reads.step {kFile : Hash} {plaintext : Bytes} {l l' : EncryptLoop} {n i : Nat}
    (h : l.Reads n) (hstep : l.step kFile plaintext i = .ok l') : l'.Reads (n + 1) := by
  unfold EncryptLoop.step at hstep
  cases hct : encryptChunk kFile i (privateChunkPlaintext plaintext i) with
  | none => simp [hct] at hstep
  | some ct =>
  cases hoffset : checkedAdd64 l.offset ct.length with
  | none => simp [hct, hoffset] at hstep
  | some offset =>
  cases htotal : checkedAdd64 l.storedTotal ct.length with
  | none => simp [hct, hoffset, htotal] at hstep
  | some total =>
  simp only [hct, hoffset, htotal] at hstep
  obtain rfl := Except.ok.inj hstep
  have hsum : offset = l.offset + ct.length := by
    unfold checkedAdd64 at hoffset
    by_cases hsmall : l.offset + ct.length < 2 ^ 64
    · rw [if_pos hsmall] at hoffset
      exact (Option.some.inj hoffset).symm
    · rw [if_neg hsmall] at hoffset
      cases hoffset
  refine ⟨?_, ?_, ?_, ?_⟩
  · show (l.chunks ++ [_]).length = n + 1
    rw [List.length_append, h.count]
    rfl
  · show offset = (l.written ++ ct).length
    rw [hsum, h.offset, List.length_append]
  · intro d hd
    rcases List.mem_append.mp hd with hd | hd
    · show d.offset + d.size ≤ (l.written ++ ct).length
      have := h.inside d hd
      rw [List.length_append]
      omega
    · rw [List.mem_singleton.mp hd]
      show l.offset + ct.length ≤ (l.written ++ ct).length
      rw [List.length_append, h.offset]
  · intro d hd
    rcases List.mem_append.mp hd with hd | hd
    · show Blake3.hash (slice (l.written ++ ct) d.offset (d.offset + d.size)) = _
      rw [slice_append ct d.offset (h.inside d hd)]
      exact h.hashes d hd
    · rw [List.mem_singleton.mp hd]
      show Blake3.hash (slice (l.written ++ ct) l.offset (l.offset + ct.length)) = _
      rw [h.offset, slice_append_right]

theorem EncryptLoop.Reads.run {kFile : Hash} {plaintext : Bytes} (is : List Nat) :
    ∀ {l l' : EncryptLoop} {n : Nat}, l.Reads n →
      EncryptLoop.run kFile plaintext l is = .ok l' → l'.Reads (n + is.length) := by
  induction is with
  | nil =>
      intro l l' n h hrun
      obtain rfl := Except.ok.inj hrun
      exact h
  | cons i is ih =>
      intro l l' n h hrun
      unfold EncryptLoop.run at hrun
      cases hstep : l.step kFile plaintext i with
      | error e => simp [hstep] at hrun
      | ok next =>
          simp only [hstep] at hrun
          have hreads := ih (h.step hstep) hrun
          rw [List.length_cons, Nat.add_comm is.length 1, ← Nat.add_assoc]
          exact hreads

theorem sound_ofPrivate {fileName : Str} {plaintext : Bytes} {kFile : Hash} {a : PrivateArtifacts}
    (h : buildPrivateArtifacts fileName plaintext kFile = .ok a) :
    (ReproducedFile.ofPrivate a).Sound := by
  obtain ⟨hsmall, l, ct, hrun, -, rfl⟩ := buildPrivateArtifacts_run h
  have hreads := EncryptLoop.Reads.run _
    (⟨rfl, rfl, nofun, nofun⟩ : EncryptLoop.Reads ⟨[], [], 0, 0⟩ 0) hrun
  rw [List.length_range, Nat.zero_add] at hreads
  exact ⟨hreads.count, hsmall, rfl, hreads.hashes⟩

variable [Bs58] [SumchainWire] {p : IngestPipeline}

/-! ### What a call goes on with -/

theorem resumeRebuild_ok {info : RegisteredFilePage} {merkleRoot : Hash} {fileName : Str}
    {plaintext : Bytes} {rebuilt : ReproducedFile} (hprivate : info.visibility.isPrivate = true)
    (h : p.resumeRebuild info merkleRoot fileName plaintext = .ok rebuilt) :
    ∃ kFile a, p.recoverKFile info.toOwnedFilePage = .ok kFile ∧
      buildPrivateArtifacts fileName plaintext kFile = .ok a ∧ rebuilt = .ofPrivate a ∧
      a.manifest.merkleRoot = merkleRoot := by
  unfold IngestPipeline.resumeRebuild at h
  rw [if_pos hprivate] at h
  by_cases howner : info.owner ≠ p.myAddrBase58
  · rw [if_pos howner] at h
    cases h
  rw [if_neg howner] at h
  cases hkey : p.recoverKFile info.toOwnedFilePage with
  | error e => simp [hkey] at h
  | ok kFile =>
  cases hbuild : buildPrivateArtifacts fileName plaintext kFile with
  | error e => simp [hkey, hbuild] at h
  | ok a =>
  simp only [hkey, hbuild] at h
  by_cases hroot : a.manifest.merkleRoot ≠ merkleRoot
  · rw [if_pos hroot] at h
    cases h
  rw [if_neg hroot] at h
  exact ⟨kFile, a, rfl, hbuild, (Except.ok.inj h).symm, not_not.mp hroot⟩

/-- A resume that goes on has rebuilt the file, and the file is pending. -/
theorem resumeFile_ok {info : RegisteredFilePage} {merkleRoot : Hash} {fileName : Str}
    {content : Bytes} {rebuilt : ReproducedFile}
    (h : p.resumeFile info merkleRoot fileName content = .ok rebuilt) :
    p.resumeRebuild info merkleRoot fileName content = .ok rebuilt ∧
      info.lifecycle.isPending = true := by
  unfold IngestPipeline.resumeFile at h
  cases hrebuild : p.resumeRebuild info merkleRoot fileName content with
  | error e => simp [hrebuild] at h
  | ok file =>
  simp only [hrebuild] at h
  by_cases hactive : info.lifecycle.isActive = true
  · rw [if_pos hactive] at h
    cases hheight : info.activatedAtHeight with
    | none => simp [hheight] at h
    | some height => simp [hheight] at h
  rw [if_neg hactive] at h
  by_cases habandoned : info.lifecycle.isAbandoned = true
  · rw [if_pos habandoned] at h
    cases h
  rw [if_neg habandoned] at h
  by_cases hpending : info.lifecycle.isPending = true
  · simp only [hpending, Bool.not_true, Bool.false_eq_true, if_false] at h
    exact ⟨h, hpending⟩
  · simp [hpending] at h

omit [Blake3] [CryptoLib] [Bs58] [SumchainWire] in
theorem chunkCount_of_no_mismatch {info : StorageFileInfoV2} {file : ReproducedFile}
    (h : rebuildMismatches info file = []) : file.manifest.chunkCount = info.chunkCount := by
  by_contra hne
  unfold rebuildMismatches at h
  rw [if_pos hne] at h
  simp at h

theorem reproduceRegistered_ok {info : OwnedFilePage} {merkleRoot : Hash} {fileName : Str}
    {plaintext : Bytes} {rebuilt : ReproducedFile} (hprivate : info.visibility.isPrivate = true)
    (h : p.reproduceRegistered info merkleRoot fileName plaintext = .ok rebuilt) :
    ∃ kFile a, p.recoverKFile info = .ok kFile ∧
      buildPrivateArtifacts fileName plaintext kFile = .ok a ∧ rebuilt = .ofPrivate a ∧
      a.manifest.merkleRoot = merkleRoot := by
  unfold IngestPipeline.reproduceRegistered at h
  rw [if_pos hprivate] at h
  cases hkey : p.recoverKFile info with
  | error e => simp [hkey] at h
  | ok kFile =>
  cases hbuild : buildPrivateArtifacts fileName plaintext kFile with
  | error e => simp [hkey, hbuild] at h
  | ok a =>
  simp only [hkey, hbuild] at h
  by_cases hroot : a.manifest.merkleRoot ≠ merkleRoot
  · rw [if_pos hroot] at h
    cases h
  rw [if_neg hroot] at h
  exact ⟨kFile, a, rfl, hbuild, (Except.ok.inj h).symm, not_not.mp hroot⟩

/-- A repush that goes on has rebuilt the owner's file, with the sizes of the row. -/
theorem repushFile_ok {info : OwnedFilePage} {merkleRoot : Hash} {fileName : Str} {content : Bytes}
    {rebuilt : ReproducedFile} (h : p.repushFile info merkleRoot fileName content = .ok rebuilt) :
    p.reproduceRegistered info merkleRoot fileName content = .ok rebuilt ∧
      rebuildMismatches info.toStorageFileInfoV2 rebuilt = [] := by
  unfold IngestPipeline.repushFile at h
  by_cases habandoned : info.lifecycle.isAbandoned = true
  · rw [if_pos habandoned] at h
    cases h
  rw [if_neg habandoned] at h
  by_cases hother : (!info.lifecycle.isActive && !info.lifecycle.isPending) = true
  · rw [if_pos hother] at h
    cases h
  rw [if_neg hother] at h
  by_cases howner : info.owner ≠ p.myAddrBase58
  · rw [if_pos howner] at h
    cases h
  rw [if_neg howner] at h
  cases hrebuild : p.reproduceRegistered info merkleRoot fileName content with
  | error e => simp [hrebuild] at h
  | ok file =>
  simp only [hrebuild] at h
  cases hmismatches : rebuildMismatches info.toStorageFileInfoV2 file with
  | cons text texts => simp [hmismatches] at h
  | nil =>
      simp only [hmismatches] at h
      obtain rfl := Except.ok.inj h
      exact ⟨rfl, hmismatches⟩

/-! ### The rebuilt file fits -/

theorem sound_of_reproduced {info : OwnedFilePage} {merkleRoot : Hash} {fileName : Str}
    {content : Bytes} {rebuilt : ReproducedFile}
    (h : p.reproduceRegistered info merkleRoot fileName content = .ok rebuilt) :
    rebuilt.Sound ∧ rebuilt.manifest.merkleRoot = merkleRoot := by
  by_cases hprivate : info.visibility.isPrivate = true
  · obtain ⟨kFile, a, -, hbuild, rfl, hroot⟩ := reproduceRegistered_ok hprivate h
    exact ⟨sound_ofPrivate hbuild, hroot⟩
  · unfold IngestPipeline.reproduceRegistered at h
    rw [if_neg hprivate] at h
    dsimp only at h
    by_cases hroot : (ReproducedFile.ofPublic fileName content).manifest.merkleRoot ≠ merkleRoot
    · rw [if_pos hroot] at h
      cases h
    · rw [if_neg hroot] at h
      obtain rfl := Except.ok.inj h
      exact ⟨sound_ofPublic fileName content, not_not.mp hroot⟩

theorem sound_of_resumed {info : RegisteredFilePage} {merkleRoot : Hash} {fileName : Str}
    {content : Bytes} {rebuilt : ReproducedFile}
    (h : p.resumeRebuild info merkleRoot fileName content = .ok rebuilt) :
    rebuilt.Sound ∧ rebuilt.manifest.merkleRoot = merkleRoot := by
  by_cases hprivate : info.visibility.isPrivate = true
  · obtain ⟨kFile, a, -, hbuild, rfl, hroot⟩ := resumeRebuild_ok hprivate h
    exact ⟨sound_ofPrivate hbuild, hroot⟩
  · unfold IngestPipeline.resumeRebuild at h
    rw [if_neg hprivate] at h
    dsimp only at h
    by_cases hroot : (ReproducedFile.ofPublic fileName content).manifest.merkleRoot ≠ merkleRoot
    · rw [if_pos hroot] at h
      cases h
    · rw [if_neg hroot] at h
      obtain rfl := Except.ok.inj h
      exact ⟨sound_ofPublic fileName content, not_not.mp hroot⟩

end

end Snip
