/-
A Private file can be read again.

The ciphertext of a chunk is its plaintext and sixteen bytes, so plaintext chunks of
`CHUNK_SIZE - 16` bytes fill stored chunks of `CHUNK_SIZE`, and the count that the
chain computes from the stored size is the count of the chunks.  What is assumed of
the cipher is that it seals every message, adds the tag and opens what it sealed.
-/
import Snip.Blake3
import Snip.CryptoReference
import Snip.Node.PrivateArtifacts
import Snip.Proofs.Acceptance
import Snip.Proofs.Chunker

namespace Snip

/-- The cipher seals every message, sixteen bytes longer, and opens what it sealed. -/
structure CryptoLib.Inverts [CryptoLib] : Prop where
  sealed : ∀ key nonce aad msg, ∃ ct, CryptoLib.encrypt key nonce aad msg = some ct ∧
    ct.length = msg.length + tagSize ∧ CryptoLib.decrypt key nonce aad ct = some msg

/-- The number of chunks of a Private file. -/
def privateChunkCount (n : Nat) : Nat :=
  (n + privatePlaintextChunkSize - 1) / privatePlaintextChunkSize

theorem le_privateChunkCount_mul (n : Nat) :
    n ≤ privateChunkCount n * privatePlaintextChunkSize := by
  unfold privateChunkCount
  rw [show privatePlaintextChunkSize = 1048560 from rfl]
  omega

theorem privateChunkPlaintext_eq (plaintext : Bytes) (i : Nat) :
    privateChunkPlaintext plaintext i
      = (plaintext.drop (i * privatePlaintextChunkSize)).take privatePlaintextChunkSize :=
  slice_piece plaintext privatePlaintextChunkSize i

theorem privateChunkPlaintext_length (plaintext : Bytes) (i : Nat) :
    (privateChunkPlaintext plaintext i).length
      = min privatePlaintextChunkSize (plaintext.length - i * privatePlaintextChunkSize) := by
  rw [privateChunkPlaintext_eq, List.length_take, List.length_drop]

/-- The plaintext chunks make up the file. -/
theorem privateChunkPlaintext_flatten (plaintext : Bytes) :
    ((List.range (privateChunkCount plaintext.length)).map
      (privateChunkPlaintext plaintext)).flatten = plaintext := by
  have hpieces : (List.range (privateChunkCount plaintext.length)).map
        (privateChunkPlaintext plaintext)
      = (List.range (privateChunkCount plaintext.length)).map fun i =>
          (plaintext.drop (i * privatePlaintextChunkSize)).take privatePlaintextChunkSize := by
    refine List.map_congr_left ?_
    intro i _
    rw [privateChunkPlaintext_eq]
  rw [hpieces, flatten_slices]
  exact List.take_of_length_le (le_privateChunkCount_mul _)

theorem slice_append {l : Bytes} (l' : Bytes) (offset : Nat) {stop : Nat} (h : stop ≤ l.length) :
    slice (l ++ l') offset stop = slice l offset stop := by
  unfold slice
  by_cases hoff : offset ≤ l.length
  · rw [List.drop_append_of_le_length hoff, List.take_append_of_le_length]
    rw [List.length_drop]
    omega
  · rw [show stop - offset = 0 by omega, List.take_zero, List.take_zero]

theorem slice_append_right (l l' : Bytes) :
    slice (l ++ l') l.length (l.length + l'.length) = l' := by
  unfold slice
  rw [List.drop_left, Nat.add_sub_cancel_left, List.take_length]

section

variable [Blake3] [CryptoLib]

/-! ### One chunk -/

omit [Blake3] in
theorem decryptChunk_of_encryptChunk (h : CryptoLib.Inverts) (kFile : Hash) (i : Nat) (pt : Bytes) :
    ∃ ct, encryptChunk kFile i pt = some ct ∧ ct.length = pt.length + tagSize ∧
      decryptChunk kFile i ct = .ok pt := by
  obtain ⟨ct, hct, hlen, hopen⟩ :=
    h.sealed (chunkKey kFile i) (chunkNonce kFile i) (chunkSalt i) pt
  refine ⟨ct, hct, hlen, ?_⟩
  unfold decryptChunk
  rw [hopen]

/-- The descriptor's slice of the written file is a ciphertext of the chunk's plaintext. -/
structure Describes (kFile : Hash) (plaintext written : Bytes) (d : ChunkDescriptor) : Prop where
  inside : d.offset + d.size ≤ written.length
  size : d.size = (privateChunkPlaintext plaintext d.chunkIndex).length + tagSize
  encrypts : encryptChunk kFile d.chunkIndex (privateChunkPlaintext plaintext d.chunkIndex)
    = some (slice written d.offset (d.offset + d.size))
  opens : decryptChunk kFile d.chunkIndex (slice written d.offset (d.offset + d.size))
    = .ok (privateChunkPlaintext plaintext d.chunkIndex)
  hash : d.blake3Hash = Blake3.hash (slice written d.offset (d.offset + d.size))
  cid : d.cid = cidFromBlake3Hash d.blake3Hash
  plaintextHash :
    d.plaintextBlake3Hash = some (Blake3.hash (privateChunkPlaintext plaintext d.chunkIndex))

theorem Describes.append {kFile : Hash} {plaintext written : Bytes} {d : ChunkDescriptor}
    (h : Describes kFile plaintext written d) (more : Bytes) :
    Describes kFile plaintext (written ++ more) d := by
  have hslice := slice_append more d.offset h.inside
  refine ⟨?_, h.size, ?_, ?_, ?_, h.cid, h.plaintextHash⟩
  · rw [List.length_append]
    exact Nat.le_trans h.inside (Nat.le_add_right _ _)
  · rw [hslice]
    exact h.encrypts
  · rw [hslice]
    exact h.opens
  · rw [hslice]
    exact h.hash

/-- **A described chunk is read back.** -/
theorem Describes.read {kFile : Hash} {plaintext written : Bytes} {d : ChunkDescriptor}
    (h : Describes kFile plaintext written d) :
    decryptAndVerifyChunk kFile d (slice written d.offset (d.offset + d.size))
      = .ok (privateChunkPlaintext plaintext d.chunkIndex) := by
  unfold decryptAndVerifyChunk
  rw [h.opens, h.plaintextHash]
  simp

/-! ### The loop -/

namespace EncryptLoop

/-- What holds after the chunks `0..m`. -/
structure Inv (kFile : Hash) (plaintext : Bytes) (m : Nat) (l : EncryptLoop) : Prop where
  indices : l.chunks.map ChunkDescriptor.chunkIndex = List.range m
  described : ∀ d ∈ l.chunks, Describes kFile plaintext l.written d
  tiled : (l.chunks.map fun d => slice l.written d.offset (d.offset + d.size)).flatten = l.written
  offset : l.offset = l.written.length
  storedTotal : l.storedTotal = l.written.length
  length : l.written.length
    = min (m * privatePlaintextChunkSize) plaintext.length + tagSize * m

theorem inv_start (kFile : Hash) (plaintext : Bytes) : Inv kFile plaintext 0 ⟨[], [], 0, 0⟩ := by
  refine ⟨rfl, ?_, rfl, rfl, rfl, ?_⟩
  · intro d hd
    cases hd
  · simp

/-- **One chunk more.** -/
theorem Inv.step (haead : CryptoLib.Inverts) {kFile : Hash} {plaintext : Bytes} {m : Nat}
    {l : EncryptLoop} (h : Inv kFile plaintext m l) (hm : m < 2 ^ 32) :
    ∃ l', l.step kFile plaintext m = .ok l' ∧ Inv kFile plaintext (m + 1) l' := by
  obtain ⟨ct, hct, hlen, hopen⟩ :=
    decryptChunk_of_encryptChunk haead kFile m (privateChunkPlaintext plaintext m)
  have hpt := privateChunkPlaintext_length plaintext m
  have hbound := h.length
  have hwritten : (l.written ++ ct).length
      = min ((m + 1) * privatePlaintextChunkSize) plaintext.length + tagSize * (m + 1) := by
    rw [List.length_append, hbound, hlen, hpt, Nat.succ_mul, Nat.mul_succ]
    omega
  have hfits : l.written.length + ct.length < 2 ^ 64 := by
    have hchunks : (m + 1) * privatePlaintextChunkSize ≤ 2 ^ 32 * 2 ^ 20 :=
      Nat.mul_le_mul hm (by decide)
    have htags : tagSize * (m + 1) ≤ 2 ^ 4 * 2 ^ 32 := Nat.mul_le_mul (by decide) hm
    rw [← List.length_append, hwritten]
    omega
  have hstep : l.step kFile plaintext m = .ok ⟨l.written ++ ct,
      l.chunks ++ [⟨m, l.written.length, ct.length, Blake3.hash ct, cidFromData ct,
        some (Blake3.hash (privateChunkPlaintext plaintext m))⟩],
      l.written.length + ct.length, l.written.length + ct.length⟩ := by
    unfold EncryptLoop.step checkedAdd64
    simp only [hct, h.offset, h.storedTotal, if_pos hfits]
  refine ⟨_, hstep, ?_⟩
  have hslice := slice_append_right l.written ct
  refine ⟨?_, ?_, ?_, ?_, ?_, hwritten⟩
  · rw [List.map_append, h.indices, List.range_succ]
    rfl
  · intro d hd
    rcases List.mem_append.mp hd with hd | hd
    · exact (h.described d hd).append ct
    · rw [List.mem_singleton] at hd
      subst hd
      refine ⟨?_, hlen, ?_, ?_, ?_, rfl, rfl⟩
      · exact Nat.le_of_eq List.length_append.symm
      · rw [hslice]
        exact hct
      · rw [hslice]
        exact hopen
      · rw [hslice]
  · rw [List.map_append, List.flatten_append, List.map_singleton, hslice, List.flatten_singleton]
    have hold : (l.chunks.map fun d => slice (l.written ++ ct) d.offset (d.offset + d.size))
        = l.chunks.map fun d => slice l.written d.offset (d.offset + d.size) := by
      refine List.map_congr_left ?_
      intro d hd
      rw [slice_append ct d.offset (h.described d hd).inside]
    rw [hold, h.tiled]
  · exact List.length_append.symm
  · exact List.length_append.symm

/-- **The whole loop.** -/
theorem Inv.run (haead : CryptoLib.Inverts) {kFile : Hash} {plaintext : Bytes} (j : Nat) :
    ∀ {m : Nat} {l : EncryptLoop}, Inv kFile plaintext m l → m + j ≤ 2 ^ 32 →
      ∃ l', EncryptLoop.run kFile plaintext l (List.range' m j) = .ok l' ∧
        Inv kFile plaintext (m + j) l' := by
  induction j with
  | zero =>
      intro m l h _
      exact ⟨l, rfl, h⟩
  | succ j ih =>
      intro m l h hle
      obtain ⟨l₁, hstep, h₁⟩ := h.step haead (by omega)
      obtain ⟨l₂, hrun, h₂⟩ := ih h₁ (by omega)
      refine ⟨l₂, ?_, ?_⟩
      · rw [List.range'_succ]
        unfold EncryptLoop.run
        rw [hstep]
        exact hrun
      · rw [show m + (j + 1) = m + 1 + j by omega]
        exact h₂

end EncryptLoop

/-! ### The artifacts -/

/-- `chunk_count == ceil(stored_size / CHUNK_SIZE)`, the rule of the chain. -/
def chainChunkCount (storedSize : Nat) : Nat := (storedSize + chunkSize - 1) / chunkSize

omit [Blake3] [CryptoLib] in
/-- Tags turn chunks of the plaintext size into chunks of the stored size. -/
theorem chainChunkCount_stored {n : Nat} (hpos : 0 < n) :
    chainChunkCount (n + tagSize * privateChunkCount n) = privateChunkCount n := by
  unfold chainChunkCount privateChunkCount
  rw [show privatePlaintextChunkSize = 1048560 from rfl, show chunkSize = 1048576 from rfl,
    show tagSize = 16 from rfl]
  omega

/-- How the artifacts of a file are laid out. -/
structure PrivateArtifacts.LaidOut (a : PrivateArtifacts) (fileName : Str) (plaintext : Bytes) :
    Prop where
  fileName : a.manifest.fileName = fileName
  totalSize : a.manifest.totalSizeBytes = plaintext.length
  chainRule : a.manifest.chunkCount = chainChunkCount a.storedSizeBytes
  storedSize : a.storedSizeBytes = plaintext.length + tagSize * a.manifest.chunkCount
  ciphertextSize : a.ciphertext.length = a.storedSizeBytes
  indices : a.manifest.chunks.map ChunkDescriptor.chunkIndex = List.range a.manifest.chunkCount
  sizes : ∀ d ∈ a.manifest.chunks, 0 < d.size ∧ d.size ≤ chunkSize ∧
    (a.chunkBytes d).length = d.size ∧ Blake3.hash (a.chunkBytes d) = d.blake3Hash
  tiled : (a.manifest.chunks.map a.chunkBytes).flatten = a.ciphertext
  root : a.manifest.merkleRoot = (MerkleTree.build a.manifest.leaves).root

/-- The manifest over what the loop has put together. -/
def EncryptLoop.manifest (fileName : Str) (plaintext : Bytes) (l : EncryptLoop) : DataManifest :=
  ⟨fileName, Blake3.hash plaintext, plaintext.length, privateChunkCount plaintext.length,
    (MerkleTree.build (l.chunks.map ChunkDescriptor.blake3Hash)).root, l.chunks⟩

omit [Blake3] in
theorem decryptManifest_of_encryptManifest (h : CryptoLib.Inverts) (kFile : Hash)
    (manifestBytes : Bytes) :
    ∃ ct, encryptManifest kFile manifestBytes = some ct ∧
      decryptManifest kFile ct = .ok manifestBytes := by
  obtain ⟨ct, hct, -, hopen⟩ := h.sealed (manifestKey kFile) zeroNonce manifestAad manifestBytes
  refine ⟨ct, hct, ?_⟩
  unfold decryptManifest
  rw [hopen]

/-- What `build_private_artifacts` returns after its loop. -/
theorem buildPrivateArtifacts_eq {fileName : Str} {plaintext : Bytes} {kFile : Hash}
    {l : EncryptLoop} {ct : Bytes} (hne : plaintext ≠ [])
    (hcount : privateChunkCount plaintext.length < 2 ^ 32)
    (hrun : EncryptLoop.run kFile plaintext ⟨[], [], 0, 0⟩
      (List.range (privateChunkCount plaintext.length)) = .ok l)
    (hct : encryptManifest kFile (manifestToCbor (l.manifest fileName plaintext)) = some ct) :
    buildPrivateArtifacts fileName plaintext kFile
      = .ok ⟨l.written, l.manifest fileName plaintext, ct, l.storedTotal⟩ := by
  have hlen : plaintext.length ≠ 0 := fun h => hne (List.length_eq_zero_iff.mp h)
  have hle : ¬2 ^ 32 ≤ privateChunkCount plaintext.length := Nat.not_le.mpr hcount
  unfold EncryptLoop.manifest at hct ⊢
  unfold privateChunkCount at hle hrun hct ⊢
  unfold buildPrivateArtifacts
  simp only [if_neg hlen, if_neg hle, hrun, hct]

/-- The artifacts in terms of the loop's invariant. -/
theorem buildPrivateArtifacts_spec (haead : CryptoLib.Inverts) (fileName : Str)
    {plaintext : Bytes} (kFile : Hash) (hne : plaintext ≠ [])
    (hcount : privateChunkCount plaintext.length < 2 ^ 32) :
    ∃ l ct, EncryptLoop.Inv kFile plaintext (privateChunkCount plaintext.length) l ∧
      buildPrivateArtifacts fileName plaintext kFile
        = .ok ⟨l.written, l.manifest fileName plaintext, ct, l.storedTotal⟩ ∧
      decryptManifest kFile ct = .ok (manifestToCbor (l.manifest fileName plaintext)) := by
  obtain ⟨l, hrun, hinv⟩ := EncryptLoop.Inv.run haead (privateChunkCount plaintext.length)
    (EncryptLoop.inv_start kFile plaintext) (by omega)
  rw [Nat.zero_add] at hinv
  rw [← List.range_eq_range'] at hrun
  obtain ⟨ct, hct, hopen⟩ := decryptManifest_of_encryptManifest haead kFile
    (manifestToCbor (l.manifest fileName plaintext))
  exact ⟨l, ct, hinv, buildPrivateArtifacts_eq hne hcount hrun hct, hopen⟩

/-! ### The descriptors, one by one -/

/-- The descriptor of chunk `i`, all chunks before it being full. -/
def privateDescriptor (kFile : Hash) (plaintext : Bytes) (i : Nat) : ChunkDescriptor :=
  let pt := privateChunkPlaintext plaintext i
  let ct := (encryptChunk kFile i pt).getD []
  ⟨i, i * chunkSize, ct.length, Blake3.hash ct, cidFromData ct, some (Blake3.hash pt)⟩

theorem EncryptLoop.step_chunks {kFile : Hash} {plaintext : Bytes} {i : Nat} {l l' : EncryptLoop}
    (h : l.step kFile plaintext i = .ok l') (hoffset : l.offset = i * chunkSize) :
    l'.chunks = l.chunks ++ [privateDescriptor kFile plaintext i] := by
  unfold EncryptLoop.step at h
  simp only at h
  split at h
  · cases h
  · rename_i ct hct
    have hdescriptor : privateDescriptor kFile plaintext i
        = ⟨i, l.offset, ct.length, Blake3.hash ct, cidFromData ct,
          some (Blake3.hash (privateChunkPlaintext plaintext i))⟩ := by
      unfold privateDescriptor
      simp only [hct, Option.getD_some, hoffset]
    split at h
    · cases h
    · split at h
      · cases h
      · rw [← Except.ok.inj h, hdescriptor]

/-- Before the last chunk every chunk of the written file is full. -/
theorem EncryptLoop.Inv.offset_eq {kFile : Hash} {plaintext : Bytes} {m : Nat} {l : EncryptLoop}
    (h : Inv kFile plaintext m l) (hm : m < privateChunkCount plaintext.length) :
    l.offset = m * chunkSize := by
  have hlen := h.length
  unfold privateChunkCount at hm
  rw [show privatePlaintextChunkSize = 1048560 from rfl] at hm hlen
  rw [h.offset, hlen, show tagSize = 16 from rfl, show chunkSize = 1048576 from rfl]
  omega

theorem EncryptLoop.run_chunks (haead : CryptoLib.Inverts) {kFile : Hash} {plaintext : Bytes}
    (j : Nat) : ∀ {m : Nat} {l l' : EncryptLoop}, Inv kFile plaintext m l →
      l.chunks = (List.range m).map (privateDescriptor kFile plaintext) →
      m + j ≤ privateChunkCount plaintext.length → m + j ≤ 2 ^ 32 →
      EncryptLoop.run kFile plaintext l (List.range' m j) = .ok l' →
      l'.chunks = (List.range (m + j)).map (privateDescriptor kFile plaintext) := by
  induction j with
  | zero =>
      intro m l l' _ hchunks _ _ hrun
      rw [← Except.ok.inj hrun]
      exact hchunks
  | succ j ih =>
      intro m l l' h hchunks hle hsmall hrun
      obtain ⟨l₁, hstep, h₁⟩ := h.step haead (show m < 2 ^ 32 by omega)
      have hmore := EncryptLoop.step_chunks hstep (h.offset_eq (by omega))
      rw [List.range'_succ] at hrun
      unfold EncryptLoop.run at hrun
      rw [hstep] at hrun
      rw [show m + (j + 1) = m + 1 + j by omega]
      refine ih h₁ ?_ (by omega) (by omega) hrun
      rw [hmore, hchunks, List.range_succ, List.map_append, List.map_singleton]

/-- The loop that built the artifacts. -/
theorem buildPrivateArtifacts_run {fileName : Str} {plaintext : Bytes} {kFile : Hash}
    {a : PrivateArtifacts} (h : buildPrivateArtifacts fileName plaintext kFile = .ok a) :
    privateChunkCount plaintext.length < 2 ^ 32 ∧
      ∃ (l : EncryptLoop) (ct : Bytes),
        EncryptLoop.run kFile plaintext ⟨[], [], 0, 0⟩
          (List.range (privateChunkCount plaintext.length)) = .ok l ∧
        encryptManifest kFile (manifestToCbor (l.manifest fileName plaintext)) = some ct ∧
        a = ⟨l.written, l.manifest fileName plaintext, ct, l.storedTotal⟩ := by
  have hlen : plaintext.length ≠ 0 := by
    intro hlen
    unfold buildPrivateArtifacts at h
    rw [if_pos hlen] at h
    cases h
  have hsmall : privateChunkCount plaintext.length < 2 ^ 32 := by
    by_contra hmany
    have hle : 2 ^ 32 ≤ privateChunkCount plaintext.length := Nat.not_lt.mp hmany
    have herror : buildPrivateArtifacts fileName plaintext kFile = .error .chunkCountOverflow := by
      unfold buildPrivateArtifacts
      rw [if_neg hlen]
      exact if_pos hle
    rw [herror] at h
    cases h
  have hle : ¬2 ^ 32 ≤ privateChunkCount plaintext.length := Nat.not_le.mpr hsmall
  cases hrun : EncryptLoop.run kFile plaintext ⟨[], [], 0, 0⟩
      (List.range (privateChunkCount plaintext.length)) with
  | error e =>
      unfold privateChunkCount at hle hrun
      unfold buildPrivateArtifacts at h
      simp only [if_neg hlen, if_neg hle, hrun] at h
      cases h
  | ok l =>
  cases hct : encryptManifest kFile (manifestToCbor (l.manifest fileName plaintext)) with
  | none =>
      unfold EncryptLoop.manifest at hct
      unfold privateChunkCount at hle hrun hct
      unfold buildPrivateArtifacts at h
      simp only [if_neg hlen, if_neg hle, hrun, hct] at h
      cases h
  | some ct =>
  have hne : plaintext ≠ [] := fun hnil => hlen (List.length_eq_zero_iff.mpr hnil)
  rw [buildPrivateArtifacts_eq hne hsmall hrun hct] at h
  exact ⟨hsmall, l, ct, rfl, hct, (Except.ok.inj h).symm⟩

/-- What there is to know of artifacts that were built. -/
theorem buildPrivateArtifacts_ok {fileName : Str} {plaintext : Bytes} {kFile : Hash}
    {a : PrivateArtifacts} (haead : CryptoLib.Inverts)
    (h : buildPrivateArtifacts fileName plaintext kFile = .ok a) :
    privateChunkCount plaintext.length < 2 ^ 32 ∧
      (∃ l : EncryptLoop, a.manifest = l.manifest fileName plaintext ∧
        l.chunks = (List.range (privateChunkCount plaintext.length)).map
          (privateDescriptor kFile plaintext)) ∧
      encryptManifest kFile (manifestToCbor a.manifest) = some a.encryptedManifestBytes := by
  obtain ⟨hsmall, l, ct, hrun, hct, rfl⟩ := buildPrivateArtifacts_run h
  refine ⟨hsmall, ⟨l, rfl, ?_⟩, hct⟩
  have hrun' : EncryptLoop.run kFile plaintext ⟨[], [], 0, 0⟩
      (List.range' 0 (privateChunkCount plaintext.length)) = .ok l := by
    rw [← List.range_eq_range']
    exact hrun
  have hchunks := EncryptLoop.run_chunks haead _ (EncryptLoop.inv_start kFile plaintext) rfl
    (Nat.zero_add _).le (by omega) hrun'
  rwa [Nat.zero_add] at hchunks

/-! ### Reading -/

theorem decryptChunks_eq {kFile : Hash} {bytesOf : ChunkDescriptor → Bytes} {pieces : Nat → Bytes}
    {ds : List ChunkDescriptor}
    (h : ∀ d ∈ ds, decryptAndVerifyChunk kFile d (bytesOf d) = .ok (pieces d.chunkIndex)) :
    decryptChunks kFile bytesOf ds
      = .ok ((ds.map ChunkDescriptor.chunkIndex).map pieces).flatten := by
  induction ds with
  | nil => rfl
  | cons d ds ih =>
      unfold decryptChunks
      rw [h d List.mem_cons_self, ih fun d' hd' => h d' (List.mem_cons_of_mem d hd')]
      rfl

/-! ### Bundles -/

omit [Blake3] in
/-- **A bundle is opened by the secret it was wrapped for.** -/
theorem unwrapForSelf_of_wrap (haead : CryptoLib.Inverts) {ephSeed kFile secret : Hash}
    {address : Addr} {bundle : Bundle80}
    (hagree : CryptoLib.diffieHellman ephSeed (CryptoLib.publicKey secret)
      = CryptoLib.diffieHellman secret (CryptoLib.publicKey ephSeed))
    (hwrap : wrapForRecipient ephSeed kFile address (CryptoLib.publicKey secret)
      = some (.ok bundle)) :
    unwrapForSelf bundle secret address = .ok kFile := by
  obtain ⟨ct, hct, hlen, hopen⟩ := haead.sealed
    (recipientKek (CryptoLib.diffieHellman ephSeed (CryptoLib.publicKey secret))) zeroNonce
    address.bytes kFile.bytes
  unfold wrapForRecipient at hwrap
  simp only [hct] at hwrap
  split at hwrap
  · simp at hwrap
  · rename_i hcontributes
    have h48 : ct.length = 48 := by
      rw [hlen, kFile.size]
      rfl
    unfold Bundle80.fill at hwrap
    rw [dif_pos h48, Option.map_some] at hwrap
    obtain rfl : _ = bundle := by simpa using hwrap
    have hpub : Bundle80.ephPub ⟨(CryptoLib.publicKey ephSeed).bytes ++ ct, by
        rw [List.length_append, Hash.size, h48]; rfl⟩ = CryptoLib.publicKey ephSeed := by
      apply Hash.ext
      exact List.take_left' (CryptoLib.publicKey ephSeed).size
    unfold unwrapForSelf
    simp only [hpub, ← hagree]
    rw [if_neg hcontributes]
    have hrest : Bundle80.wrapAndTag ⟨(CryptoLib.publicKey ephSeed).bytes ++ ct, by
        rw [List.length_append, Hash.size, h48]; rfl⟩ = ct :=
      List.drop_left' (CryptoLib.publicKey ephSeed).size
    rw [hrest, hopen]
    simp [Hash.ofBytes?, kFile.size]

omit [Blake3] in
theorem wrapForRecipient_isOk (haead : CryptoLib.Inverts) (kFile : Hash) (address : Addr)
    {ephSeed encPub : Hash} (h : CryptoLib.diffieHellman ephSeed encPub ≠ Hash.zero) :
    ∃ bundle, wrapForRecipient ephSeed kFile address encPub = some (.ok bundle) := by
  obtain ⟨ct, hct, hlen, -⟩ := haead.sealed (recipientKek (CryptoLib.diffieHellman ephSeed encPub))
    zeroNonce address.bytes kFile.bytes
  have h48 : ct.length = 48 := by
    rw [hlen, kFile.size]
    rfl
  unfold wrapForRecipient sharedIsContributory Bundle80.fill
  simp [h, hct, h48]

omit [Blake3] in
theorem wrapEntry_eq {ephSeed kFile : Hash} {r : PrivateRecipient}
    {onError : CryptoError → PrivateIngestError} {entry : AccessEntryV2Mirror}
    (h : wrapEntry ephSeed kFile r onError = .ok entry) :
    ∃ bundle, wrapForRecipient ephSeed kFile r.l1Address r.x25519Pubkey = some (.ok bundle) ∧
      entry = ⟨r.l1Address, some bundle, r.expiresAt⟩ := by
  unfold wrapEntry at h
  cases hwrap : wrapForRecipient ephSeed kFile r.l1Address r.x25519Pubkey with
  | none => simp [hwrap] at h
  | some res =>
      cases res with
      | error e => simp [hwrap] at h
      | ok bundle =>
          rw [hwrap] at h
          cases h
          exact ⟨bundle, rfl, rfl⟩

omit [Blake3] in
theorem wrapEntry_isOk (haead : CryptoLib.Inverts) (kFile : Hash) {ephSeed : Hash}
    {r : PrivateRecipient} (onError : CryptoError → PrivateIngestError)
    (h : CryptoLib.diffieHellman ephSeed r.x25519Pubkey ≠ Hash.zero) :
    ∃ entry, wrapEntry ephSeed kFile r onError = .ok entry := by
  obtain ⟨bundle, hwrap⟩ := wrapForRecipient_isOk haead kFile r.l1Address h
  refine ⟨⟨r.l1Address, some bundle, r.expiresAt⟩, ?_⟩
  unfold wrapEntry
  rw [hwrap]

omit [Blake3] in
/-- Every recipient of the list gets the entry of its own wrap. -/
theorem wrapRecipients_entries {ephSeeds : Nat → Hash} {kFile : Hash} {rs : List PrivateRecipient} :
    ∀ {j : Nat} {entries : List AccessEntryV2Mirror},
      wrapRecipients ephSeeds kFile j rs = .ok entries →
      ∀ {i : Nat} {r : PrivateRecipient}, rs[i]? = some r →
        ∃ bundle, wrapForRecipient (ephSeeds (j + i)) kFile r.l1Address r.x25519Pubkey
            = some (.ok bundle) ∧
          entries[i]? = some ⟨r.l1Address, some bundle, r.expiresAt⟩ := by
  induction rs with
  | nil =>
      intro j entries _ i r hr
      simp at hr
  | cons s rs ih =>
      intro j entries h i r hr
      unfold wrapRecipients at h
      cases hentry : wrapEntry (ephSeeds j) kFile s (.wrapForRecipient s.l1Address) with
      | error e => simp [hentry] at h
      | ok entry =>
          cases hrest : wrapRecipients ephSeeds kFile (j + 1) rs with
          | error e => simp [hentry, hrest, Except.map] at h
          | ok rest =>
              obtain rfl : entry :: rest = entries := by simpa [hentry, hrest, Except.map] using h
              cases i with
              | zero =>
                  obtain rfl : s = r := by simpa using hr
                  obtain ⟨bundle, hwrap, rfl⟩ := wrapEntry_eq hentry
                  exact ⟨bundle, hwrap, rfl⟩
              | succ i =>
                  obtain ⟨bundle, hwrap, hget⟩ := ih hrest (by simpa using hr)
                  rw [Nat.add_right_comm] at hwrap
                  exact ⟨bundle, hwrap, by simpa using hget⟩

omit [Blake3] in
theorem wrapRecipients_isOk (haead : CryptoLib.Inverts) (kFile : Hash) {ephSeeds : Nat → Hash}
    {rs : List PrivateRecipient} :
    ∀ {j : Nat},
      (∀ i r, rs[i]? = some r →
        CryptoLib.diffieHellman (ephSeeds (j + i)) r.x25519Pubkey ≠ Hash.zero) →
      ∃ entries, wrapRecipients ephSeeds kFile j rs = .ok entries := by
  induction rs with
  | nil =>
      intro j _
      exact ⟨[], rfl⟩
  | cons s rs ih =>
      intro j h
      obtain ⟨entry, hentry⟩ :=
        wrapEntry_isOk haead kFile (.wrapForRecipient s.l1Address) (h 0 s rfl)
      have htail : ∀ i r, rs[i]? = some r →
          CryptoLib.diffieHellman (ephSeeds (j + 1 + i)) r.x25519Pubkey ≠ Hash.zero := by
        intro i r hr
        rw [Nat.add_right_comm]
        exact h (i + 1) r (by simpa using hr)
      obtain ⟨rest, hrest⟩ := ih htail
      refine ⟨entry :: rest, ?_⟩
      unfold wrapRecipients
      rw [Nat.add_zero] at hentry
      rw [hentry, hrest]
      rfl

/-- Every reader of the file finds a bundle of its own. -/
theorem encryptForPrivate_entries {kFile : Hash} {ephSeeds : Nat → Hash} {fileName : Str}
    {plaintext : Bytes} {spec : PrivateIngestSpec} {e : PrivateEncrypted}
    (h : encryptForPrivate kFile ephSeeds fileName plaintext spec = .ok e) :
    buildPrivateArtifacts fileName plaintext kFile = .ok e.artifacts ∧
      ∀ {j : Nat} {r : PrivateRecipient}, spec.readers[j]? = some r →
        ∃ bundle, wrapForRecipient (ephSeeds j) kFile r.l1Address r.x25519Pubkey
            = some (.ok bundle) ∧
          e.initialAccess[j]? = some ⟨r.l1Address, some bundle, r.expiresAt⟩ := by
  unfold encryptForPrivate at h
  cases hbuild : buildPrivateArtifacts fileName plaintext kFile with
  | error err => simp [hbuild] at h
  | ok a =>
      cases howner : wrapEntry (ephSeeds 0) kFile
          ⟨spec.ownerL1Address, spec.ownerX25519Pubkey, none⟩ .wrapForOwner with
      | error err => simp [hbuild, howner] at h
      | ok entry =>
          cases hrest : wrapRecipients ephSeeds kFile 1 spec.recipients with
          | error err => simp [hbuild, howner, hrest, Except.map] at h
          | ok rest =>
              obtain rfl : (⟨a, entry :: rest⟩ : PrivateEncrypted) = e := by
                simpa [hbuild, howner, hrest, Except.map] using h
              refine ⟨rfl, ?_⟩
              intro j r hr
              cases j with
              | zero =>
                  obtain rfl : _ = r := by simpa [PrivateIngestSpec.readers] using hr
                  obtain ⟨bundle, hwrap, rfl⟩ := wrapEntry_eq howner
                  exact ⟨bundle, hwrap, rfl⟩
              | succ j =>
                  obtain ⟨bundle, hwrap, hget⟩ := wrapRecipients_entries hrest
                    (i := j) (r := r) (by simpa [PrivateIngestSpec.readers] using hr)
                  rw [Nat.add_comm] at hwrap
                  exact ⟨bundle, hwrap, by simpa using hget⟩

theorem encryptForPrivate_isOk (haead : CryptoLib.Inverts) {kFile : Hash} {ephSeeds : Nat → Hash}
    {fileName : Str} {plaintext : Bytes} {spec : PrivateIngestSpec} {a : PrivateArtifacts}
    (hbuild : buildPrivateArtifacts fileName plaintext kFile = .ok a)
    (h : ∀ j r, spec.readers[j]? = some r →
      CryptoLib.diffieHellman (ephSeeds j) r.x25519Pubkey ≠ Hash.zero) :
    ∃ e, encryptForPrivate kFile ephSeeds fileName plaintext spec = .ok e := by
  obtain ⟨entry, howner⟩ := wrapEntry_isOk haead kFile
    (r := ⟨spec.ownerL1Address, spec.ownerX25519Pubkey, none⟩) .wrapForOwner (h 0 _ rfl)
  have htail : ∀ i r, spec.recipients[i]? = some r →
      CryptoLib.diffieHellman (ephSeeds (1 + i)) r.x25519Pubkey ≠ Hash.zero := by
    intro i r hr
    rw [Nat.add_comm]
    exact h (i + 1) r (by simpa [PrivateIngestSpec.readers] using hr)
  obtain ⟨rest, hrest⟩ := wrapRecipients_isOk haead kFile htail
  refine ⟨⟨a, entry :: rest⟩, ?_⟩
  unfold encryptForPrivate
  simp only [hbuild, howner, hrest]
  rfl

/-! ### The file -/

/-- The artifacts of a file, as a reader with the key finds them. -/
structure PrivateArtifacts.Readable [ManifestReader] (a : PrivateArtifacts) (kFile : Hash)
    (plaintext : Bytes) : Prop where
  manifest : ManifestReader.fromCbor (manifestToCbor a.manifest) = .ok a.manifest →
    decryptAndVerifyManifest kFile a.encryptedManifestBytes a.manifest.merkleRoot
      = .ok a.manifest
  chunks : decryptChunks kFile a.chunkBytes a.manifest.chunks = .ok plaintext
  fileHash : checkFileHash plaintext a.manifest.fileHash = .ok ()

/-- The bundles of an ingest, as the readers find them. -/
structure PrivateEncrypted.Shared (e : PrivateEncrypted) (kFile : Hash) (ephSeeds : Nat → Hash)
    (spec : PrivateIngestSpec) : Prop where
  entry : ∀ j r, spec.readers[j]? = some r →
    ∃ bundle, e.initialAccess[j]? = some ⟨r.l1Address, some bundle, r.expiresAt⟩ ∧
      ∀ secret, r.x25519Pubkey = CryptoLib.publicKey secret →
        CryptoLib.diffieHellman (ephSeeds j) (CryptoLib.publicKey secret)
          = CryptoLib.diffieHellman secret (CryptoLib.publicKey (ephSeeds j)) →
        unwrapForSelf bundle secret r.l1Address = .ok kFile

theorem laidOut_of_inv {fileName : Str} {plaintext : Bytes} {kFile : Hash} {l : EncryptLoop}
    {ct : Bytes} (hne : plaintext ≠ [])
    (hinv : EncryptLoop.Inv kFile plaintext (privateChunkCount plaintext.length) l) :
    PrivateArtifacts.LaidOut ⟨l.written, l.manifest fileName plaintext, ct, l.storedTotal⟩
      fileName plaintext := by
  have hpos : 0 < plaintext.length := List.length_pos_iff.mpr hne
  have hsize : l.storedTotal
      = plaintext.length + tagSize * privateChunkCount plaintext.length := by
    rw [hinv.storedTotal, hinv.length, Nat.min_eq_right (le_privateChunkCount_mul _)]
  refine ⟨rfl, rfl, ?_, hsize, hinv.storedTotal.symm, hinv.indices, ?_, hinv.tiled, rfl⟩
  · show privateChunkCount plaintext.length = chainChunkCount l.storedTotal
    rw [hsize, chainChunkCount_stored hpos]
  · intro d hd
    have hdesc := hinv.described d hd
    have hlen := privateChunkPlaintext_length plaintext d.chunkIndex
    have hsize := hdesc.size
    refine ⟨?_, ?_, ?_, hdesc.hash.symm⟩
    · rw [hsize]
      exact Nat.lt_add_left _ (by decide)
    · rw [hsize, hlen]
      exact Nat.add_le_add_right (Nat.min_le_left _ _) tagSize
    · have hinside := hdesc.inside
      show (slice l.written d.offset (d.offset + d.size)).length = d.size
      unfold slice
      rw [List.length_take, List.length_drop]
      omega

theorem readable_of_inv [ManifestReader] {fileName : Str} {plaintext : Bytes} {kFile : Hash}
    {l : EncryptLoop} {ct : Bytes}
    (hinv : EncryptLoop.Inv kFile plaintext (privateChunkCount plaintext.length) l)
    (hopen : decryptManifest kFile ct = .ok (manifestToCbor (l.manifest fileName plaintext))) :
    PrivateArtifacts.Readable ⟨l.written, l.manifest fileName plaintext, ct, l.storedTotal⟩
      kFile plaintext := by
  constructor
  · intro hcbor
    have hroot : (MerkleTree.build (l.manifest fileName plaintext).leaves).root
        = (l.manifest fileName plaintext).merkleRoot := rfl
    unfold decryptAndVerifyManifest
    rw [hopen]
    simp [hcbor, hroot]
  · have hread : ∀ d ∈ l.chunks,
        decryptAndVerifyChunk kFile d (slice l.written d.offset (d.offset + d.size))
          = .ok (privateChunkPlaintext plaintext d.chunkIndex) := by
      intro d hd
      exact (hinv.described d hd).read
    show decryptChunks kFile (fun d => slice l.written d.offset (d.offset + d.size)) l.chunks
      = .ok plaintext
    rw [decryptChunks_eq hread, hinv.indices, privateChunkPlaintext_flatten]
  · exact if_neg fun h => h rfl

/--
**A Private file is laid out as the chain counts it and can be read by everyone it is
shared with.**
-/
theorem private_file_readable [ManifestReader] (haead : CryptoLib.Inverts) (fileName : Str)
    (plaintext : Bytes) (kFile : Hash) (hne : plaintext ≠ [])
    (hcount : privateChunkCount plaintext.length < 2 ^ 32) :
    ∃ a, buildPrivateArtifacts fileName plaintext kFile = .ok a ∧
      a.LaidOut fileName plaintext ∧ a.Readable kFile plaintext ∧
      ∀ ephSeeds spec,
        (∀ e, encryptForPrivate kFile ephSeeds fileName plaintext spec = .ok e →
          e.artifacts = a ∧ e.Shared kFile ephSeeds spec) ∧
        ((∀ j r, spec.readers[j]? = some r →
            CryptoLib.diffieHellman (ephSeeds j) r.x25519Pubkey ≠ Hash.zero) →
          ∃ e, encryptForPrivate kFile ephSeeds fileName plaintext spec = .ok e) := by
  obtain ⟨l, ct, hinv, hbuild, hopen⟩ :=
    buildPrivateArtifacts_spec haead fileName kFile hne hcount
  refine ⟨_, hbuild, laidOut_of_inv hne hinv, readable_of_inv hinv hopen, ?_⟩
  intro ephSeeds spec
  refine ⟨?_, encryptForPrivate_isOk haead hbuild⟩
  intro e he
  obtain ⟨hartifacts, hentries⟩ := encryptForPrivate_entries he
  refine ⟨Except.ok.inj (hartifacts.symm.trans hbuild), ⟨?_⟩⟩
  intro j r hr
  obtain ⟨bundle, hwrap, hget⟩ := hentries hr
  refine ⟨bundle, hget, ?_⟩
  intro secret hpub hagree
  rw [hpub] at hwrap
  exact unwrapForSelf_of_wrap haead hagree hwrap

end

/-! ### With the libraries' own functions -/

namespace CryptoReference

theorem leBytes_length (k n : Nat) : (leBytes k n).length = k := by
  simp [leBytes, beBytes]

theorem chachaBlock_length (key nonce : Bytes) (counter : Nat) :
    (chachaBlock key nonce counter).length = 64 := by
  unfold chachaBlock
  simp [List.length_flatMap, leBytes_length]

theorem keystream_length (key nonce : Bytes) (n : Nat) : n ≤ (keystream key nonce n).length := by
  have hlen : (keystream key nonce n).length = (n + 63) / 64 * 64 := by
    unfold keystream
    simp [List.length_flatMap, chachaBlock_length]
  omega

theorem zipWith_xor_cancel {msg ks : Bytes} (h : msg.length ≤ ks.length) :
    List.zipWith (· ^^^ ·) (List.zipWith (· ^^^ ·) msg ks) ks = msg := by
  induction msg generalizing ks with
  | nil => rfl
  | cons x msg ih =>
      cases ks with
      | nil => simp at h
      | cons k ks =>
          simp only [List.zipWith_cons_cons]
          rw [ih (by simpa using h), UInt8.xor_assoc, UInt8.xor_self, UInt8.xor_zero]

theorem chacha20_length (key nonce msg : Bytes) : (chacha20 key nonce msg).length = msg.length := by
  have hle := keystream_length key nonce msg.length
  unfold chacha20
  rw [List.length_zipWith]
  omega

/-- The stream is its own inverse. -/
theorem chacha20_chacha20 (key nonce msg : Bytes) :
    chacha20 key nonce (chacha20 key nonce msg) = msg := by
  have hlen := chacha20_length key nonce msg
  have hstream : chacha20 key nonce (chacha20 key nonce msg)
      = List.zipWith (· ^^^ ·) (chacha20 key nonce msg) (keystream key nonce msg.length) := by
    rw [← hlen]
    rfl
  rw [hstream]
  exact zipWith_xor_cancel (keystream_length key nonce msg.length)

theorem tag_length (key nonce aad ct : Bytes) : (tag key nonce aad ct).length = tagSize := by
  unfold tag poly1305
  exact leBytes_length 16 _

end CryptoReference

open CryptoReference in
/-- **ChaCha20-Poly1305 is such a cipher.** -/
theorem CryptoLib.reference_inverts : letI := CryptoLib.reference; CryptoLib.Inverts := by
  let _ := CryptoLib.reference
  refine ⟨?_⟩
  intro key nonce aad msg
  have hlen := chacha20_length key nonce msg
  have htag := tag_length key nonce aad (chacha20 key nonce msg)
  refine ⟨chacha20 key nonce msg ++ tag key nonce aad (chacha20 key nonce msg), rfl, ?_, ?_⟩
  · rw [List.length_append, hlen, htag]
  · show CryptoReference.decrypt key nonce aad _ = some msg
    unfold CryptoReference.decrypt
    rw [List.length_append, htag, Nat.add_sub_cancel, List.take_left, List.drop_left,
      if_neg (by omega)]
    simp only [if_pos, chacha20_chacha20]
/-- Readable with the decoder that knows the bytes of the manifest. -/
def PrivateArtifacts.ReadableWithOwn [Blake3] [CryptoLib] (a : PrivateArtifacts) (kFile : Hash)
    (plaintext : Bytes) : Prop :=
  letI := ManifestReader.only a.manifest
  a.Readable kFile plaintext ∧
    decryptAndVerifyManifest kFile a.encryptedManifestBytes a.manifest.merkleRoot
      = .ok a.manifest

theorem twoKeys_agree :
    CryptoReference.diffieHellman (Hash.fill 1) (CryptoReference.publicKey (Hash.fill 2))
      = CryptoReference.diffieHellman (Hash.fill 2) (CryptoReference.publicKey (Hash.fill 1)) := by
  decide +kernel

theorem twoKeys_contribute :
    CryptoReference.diffieHellman (Hash.fill 1) (CryptoReference.publicKey (Hash.fill 2))
      ≠ Hash.zero := by
  decide +kernel

/-- The theorem at a file of three bytes that its owner keeps to itself. -/
theorem three_bytes_readable :
    letI := Blake3.reference
    letI := CryptoLib.reference
    ∃ a, buildPrivateArtifacts ['f'] [1, 2, 3] (Hash.fill 7) = .ok a ∧
      a.LaidOut ['f'] [1, 2, 3] ∧
      a.ReadableWithOwn (Hash.fill 7) [1, 2, 3] ∧
      ∃ e bundle,
        encryptForPrivate (Hash.fill 7) (fun _ => Hash.fill 1) ['f'] [1, 2, 3]
          ⟨5, CryptoLib.publicKey (Hash.fill 2), []⟩ = .ok e ∧
        e.initialAccess[0]? = some ⟨5, some bundle, none⟩ ∧
        unwrapForSelf bundle (Hash.fill 2) 5 = .ok (Hash.fill 7) := by
  let _ := Blake3.reference
  let _ := CryptoLib.reference
  let spec : PrivateIngestSpec := ⟨5, CryptoLib.publicKey (Hash.fill 2), []⟩
  have hreadable := fun reader : ManifestReader =>
    private_file_readable CryptoLib.reference_inverts ['f'] [1, 2, 3] (Hash.fill 7)
      (by decide) (by decide)
  obtain ⟨a, hbuild, hlaid, -, hshare⟩ := hreadable ⟨fun _ => .error []⟩
  have hread : a.ReadableWithOwn (Hash.fill 7) [1, 2, 3] := by
    let _ := ManifestReader.only a.manifest
    obtain ⟨a', hbuild', -, hread, -⟩ := hreadable (ManifestReader.only a.manifest)
    obtain rfl : a = a' := Except.ok.inj (hbuild.symm.trans hbuild')
    have hcbor : ManifestReader.fromCbor (manifestToCbor a.manifest) = .ok a.manifest := if_pos rfl
    exact ⟨hread, hread.manifest hcbor⟩
  refine ⟨a, hbuild, hlaid, hread, ?_⟩
  obtain ⟨hok, hexists⟩ := hshare (fun _ => Hash.fill 1) spec
  have hcontributes : ∀ (j : Nat) (r : PrivateRecipient), spec.readers[j]? = some r →
      CryptoLib.diffieHellman (Hash.fill 1) r.x25519Pubkey ≠ Hash.zero := by
    intro j r hr
    have hmem : r ∈ spec.readers := List.mem_of_getElem? hr
    rw [List.mem_singleton.mp hmem]
    exact twoKeys_contribute
  obtain ⟨e, he⟩ := hexists hcontributes
  obtain ⟨-, hshared⟩ := hok e he
  obtain ⟨bundle, hentry, hopen⟩ := hshared.entry 0 _ rfl
  exact ⟨e, bundle, he, hentry, hopen (Hash.fill 2) rfl twoKeys_agree⟩

end Snip
