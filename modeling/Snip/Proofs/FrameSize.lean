/-
How long the requests of an ingest get, byte by byte.

The length of a manifest depends on the values in it: a CBOR number takes one to nine
bytes, and a digest is written as an array of 32 numbers, each of one byte below 24 and
of two from there on.  A descriptor of a Public chunk takes at most 187 bytes, one of a
Private chunk, with the digest of the plaintext besides, up to 275.  At the most chunks
a file may have this is what decides: a million Public descriptors fit a frame, a
million Private ones in general do not.
-/
import Mathlib.Algebra.BigOperators.Group.List.Basic
import Mathlib.Algebra.Order.BigOperators.Group.List
import Snip.Node.Deliveries
import Snip.Proofs.Codec
import Snip.Proofs.ManifestPush
import Snip.Proofs.PrivateArtifacts

namespace Snip

/-! ### CBOR -/

/-- The bytes of a CBOR head with this argument. -/
def cborWidth (n : Nat) : Nat :=
  if n < 24 then 1 else if n < 2 ^ 8 then 2 else if n < 2 ^ 16 then 3 else if n < 2 ^ 32 then 5
  else 9

theorem cborWidth_pos (n : Nat) : 1 ≤ cborWidth n := by
  unfold cborWidth
  split_ifs <;> omega

theorem cborWidth_le (n : Nat) : cborWidth n ≤ 9 := by
  unfold cborWidth
  split_ifs <;> omega

theorem cborWidth_le_of_lt {n : Nat} (h : n < 2 ^ 32) : cborWidth n ≤ 5 := by
  unfold cborWidth
  split_ifs <;> omega

theorem cborHead_length (major n : Nat) : (cborHead major n).length = cborWidth n := by
  unfold cborHead cborWidth
  split_ifs <;> simp

theorem cborText_length (s : Str) :
    (cborText s).length = cborWidth (utf8 s).length + (utf8 s).length := by
  unfold cborText
  rw [List.length_append, cborHead_length]

/-- The bytes of a digest that take two bytes each. -/
def wideBytes (h : Hash) : Nat := h.bytes.countP fun b => 24 ≤ b.toNat

theorem wideBytes_le (h : Hash) : wideBytes h ≤ 32 := by
  have hle : wideBytes h ≤ h.bytes.length := List.countP_le_length
  rwa [h.size] at hle

theorem cborBytes_length (l : Bytes) :
    (l.flatMap fun b => cborUnsigned b.toNat).length
      = l.length + l.countP fun b => 24 ≤ b.toNat := by
  induction l with
  | nil => rfl
  | cons b l ih =>
      have hlt := b.toNat_lt
      have hwidth : (cborUnsigned b.toNat).length = if 24 ≤ b.toNat then 2 else 1 := by
        unfold cborUnsigned
        rw [cborHead_length]
        unfold cborWidth
        split_ifs <;> omega
      rw [List.flatMap_cons, List.length_append, ih, hwidth, List.countP_cons, List.length_cons]
      by_cases h : 24 ≤ b.toNat
      · simp only [h, if_true, decide_true]
        omega
      · simp only [h, if_false, decide_false]
        simp
        omega

theorem cborHash_length (h : Hash) : (cborHash h).length = 34 + wideBytes h := by
  unfold cborHash
  rw [List.length_append, cborHead_length, cborBytes_length, h.size]
  show cborWidth 32 + (32 + wideBytes h) = _
  rw [show cborWidth 32 = 2 from rfl]
  omega

/-! ### Content identifiers are ASCII -/

theorem base32Digit_utf8Size : ∀ d < 32, (base32Digit d).utf8Size = 1 := by decide

theorem utf8_base32Digits_length (k v : Nat) : (utf8 (base32Digits k v)).length = k := by
  induction k generalizing v with
  | zero => rfl
  | succ k ih =>
      have hdigit := base32Digit_utf8Size (v % 32) (Nat.mod_lt _ (by decide))
      unfold base32Digits utf8
      rw [List.flatMap_append, List.length_append]
      show (utf8 (base32Digits k (v / 32))).length + _ = _
      rw [ih]
      simp [hdigit]

theorem utf8_cid_length (h : Hash) : (utf8 (cidFromBlake3Hash h)).length = 59 := by
  have hdigits : (utf8 (base32Lower ([0x01, 0x55, 0x1e, 0x20] ++ h.bytes))).length = 58 := by
    unfold base32Lower
    rw [utf8_base32Digits_length, List.length_append, h.size]
    rfl
  unfold cidFromBlake3Hash utf8
  rw [List.flatMap_cons, List.length_append]
  show _ + (utf8 (base32Lower ([0x01, 0x55, 0x1e, 0x20] ++ h.bytes))).length = 59
  rw [hdigits]
  rfl

/-! ### Descriptors and manifests -/

theorem cborField_length (name : String) (value : Bytes) :
    (cborField name value).length = (cborText name.toList).length + value.length := by
  unfold cborField
  rw [List.length_append]

/-- The numbers of a descriptor. -/
def numberBytes (c : ChunkDescriptor) : Nat :=
  cborWidth c.chunkIndex + cborWidth c.offset + cborWidth c.size

/-- The digest of the plaintext with its name, where there is one. -/
def plaintextHashBytes (h : Option Hash) : Nat := (h.map fun h => 56 + wideBytes h).getD 0

theorem cborChunk_length {c : ChunkDescriptor} (hcid : (utf8 c.cid).length = 59) :
    (cborChunk c).length = 136 + numberBytes c + wideBytes c.blake3Hash +
      plaintextHashBytes c.plaintextBlake3Hash := by
  have hindex : (cborText "chunk_index".toList).length = 12 := by decide
  have hoffset : (cborText "offset".toList).length = 7 := by decide
  have hsize : (cborText "size".toList).length = 5 := by decide
  have hhash : (cborText "blake3_hash".toList).length = 12 := by decide
  have hid : (cborText "cid".toList).length = 4 := by decide
  have hplain : (cborText "plaintext_blake3_hash".toList).length = 22 := by decide
  have hwidth : cborWidth 59 = 2 := rfl
  unfold cborChunk numberBytes plaintextHashBytes
  cases c.plaintextBlake3Hash with
  | none =>
      simp only [List.length_append, cborField_length, cborHead_length, cborUnsigned,
        cborHash_length, cborText_length c.cid, hcid, hindex, hoffset, hsize, hhash, hid, hwidth]
      show 1 + _ + _ + _ + _ + _ + 0 = _ + 0
      omega
  | some h =>
      simp only [List.length_append, cborField_length, cborHead_length, cborUnsigned,
        cborHash_length, cborText_length c.cid, hcid, hindex, hoffset, hsize, hhash, hid, hplain,
        hwidth]
      show 1 + _ + _ + _ + _ + _ + _ = _ + (56 + wideBytes h)
      omega

/-- What of a manifest does not depend on its chunks. -/
def headerBytes (nameLength totalSize chunkCount : Nat) : Nat :=
  137 + cborWidth nameLength + nameLength + cborWidth totalSize + 2 * cborWidth chunkCount

theorem headerBytes_le {nameLength chunkCount : Nat} (totalSize : Nat) (hname : nameLength ≤ 255)
    (hcount : chunkCount < 2 ^ 32) : headerBytes nameLength totalSize chunkCount ≤ 413 := by
  have htotal := cborWidth_le totalSize
  have hchunks := cborWidth_le_of_lt hcount
  have hwidth : cborWidth nameLength ≤ 2 := by
    unfold cborWidth
    split_ifs <;> omega
  unfold headerBytes
  omega

theorem manifestToCbor_length {m : DataManifest} (hcount : m.chunks.length = m.chunkCount) :
    (manifestToCbor m).length
      = headerBytes (utf8 m.fileName).length m.totalSizeBytes m.chunkCount +
        (wideBytes m.fileHash + wideBytes m.merkleRoot) +
        (m.chunks.map fun c => (cborChunk c).length).sum := by
  have hname : (cborText "file_name".toList).length = 10 := by decide
  have hhash : (cborText "file_hash".toList).length = 10 := by decide
  have htotal : (cborText "total_size_bytes".toList).length = 17 := by decide
  have hchunkCount : (cborText "chunk_count".toList).length = 12 := by decide
  have hroot : (cborText "merkle_root".toList).length = 12 := by decide
  have hchunks : (cborText "chunks".toList).length = 7 := by decide
  unfold manifestToCbor headerBytes
  simp only [List.length_append, cborField_length, cborHead_length, cborUnsigned, cborHash_length,
    cborText_length m.fileName, hcount, List.length_flatMap, hname, hhash, htotal, hchunkCount,
    hroot, hchunks]
  show 1 + _ + _ + _ + _ + _ + _ = _
  omega

theorem sum_range_const (n k : Nat) : ((List.range n).map fun _ => k).sum = n * k := by
  rw [List.map_const', List.sum_replicate, List.length_range, nsmul_eq_mul, Nat.cast_id]

section

variable [Blake3]

/-! ### Proofs in a push -/

theorem proofBytes_length_le {l : List Hash} {i : Nat} {path : List Hash} (hi : i < l.length)
    (hlen : l.length ≤ maxChunkCountPerFile)
    (h : (MerkleTree.build l).proofBytes i = some path) : path.length ≤ 20 := by
  have hpath : HashTree.path hashPair (Nat.clog 2 l.length) l i = some path := by
    rw [← generateProof_build (List.ne_nil_of_length_pos (by omega))]
    exact h
  obtain ⟨path', hpath', hlength⟩ := HashTree.path_isSome hashPair (Nat.clog 2 l.length) l i hi
  have hdepth : Nat.clog 2 l.length ≤ 20 :=
    Nat.clog_le_of_le_pow (show l.length ≤ 2 ^ 20 from hlen)
  rw [Option.some.inj (hpath.symm.trans hpath'), hlength]
  exact hdepth

/-! ### The manifest of a Public file -/

theorem publicChunk_length_le {mapped : Bytes} {i : Nat} (hi : i < 2 ^ 32) :
    (cborChunk (chunkDescriptor mapped i)).length ≤ 187 := by
  have hsize : (chunkDescriptor mapped i).size < 2 ^ 32 := by
    unfold chunkDescriptor chunkSize
    show min _ _ - _ < _
    omega
  have hindexWidth : cborWidth (chunkDescriptor mapped i).chunkIndex ≤ 5 := cborWidth_le_of_lt hi
  have hoffsetWidth := cborWidth_le (chunkDescriptor mapped i).offset
  have hsizeWidth := cborWidth_le_of_lt hsize
  have hwide := wideBytes_le (chunkDescriptor mapped i).blake3Hash
  rw [cborChunk_length (utf8_cid_length _)]
  show 136 + numberBytes _ + _ + 0 ≤ 187
  unfold numberBytes
  omega

theorem mem_chunkMapped_chunks {fileName : Str} {mapped : Bytes} {c : ChunkDescriptor}
    (hc : c ∈ (chunkMapped fileName mapped).chunks) : ∃ i < 2 ^ 32, c = chunkDescriptor mapped i := by
  by_cases hne : mapped = []
  · subst hne
    cases hc
  · rw [chunkMapped_of_ne_nil hne] at hc
    obtain ⟨i, hi, rfl⟩ := List.mem_map.mp hc
    have hlt : i < chunkCountOf mapped.length := List.mem_range.mp hi
    exact ⟨i, Nat.lt_trans hlt (Nat.mod_lt _ (by decide)), rfl⟩

theorem chunkMapped_chunks_length (fileName : Str) (mapped : Bytes) :
    (chunkMapped fileName mapped).chunks.length = (chunkMapped fileName mapped).chunkCount := by
  by_cases hne : mapped = []
  · subst hne
    rfl
  · exact (chunkMapped_valid hne).count

/-! ### The manifest of a Private file -/

variable [CryptoLib]

theorem privateDescriptor_size (haead : CryptoLib.Inverts) (kFile : Hash) (plaintext : Bytes)
    (i : Nat) : (privateDescriptor kFile plaintext i).size
      = min privatePlaintextChunkSize (plaintext.length - i * privatePlaintextChunkSize) +
        tagSize := by
  obtain ⟨ct, hct, hlen, -⟩ :=
    decryptChunk_of_encryptChunk haead kFile i (privateChunkPlaintext plaintext i)
  unfold privateDescriptor
  simp only [hct, Option.getD_some]
  rw [hlen, privateChunkPlaintext_length]

/-- The numbers in the descriptors of a Private file of this length. -/
def privateNumberBytes (fileLength : Nat) : Nat :=
  ((List.range (privateChunkCount fileLength)).map fun i =>
    cborWidth i + cborWidth (i * chunkSize) +
      cborWidth (min privatePlaintextChunkSize (fileLength - i * privatePlaintextChunkSize) +
        tagSize)).sum

/-- The digests in the descriptors: of the ciphertexts and of the plaintexts. -/
def privateDigestBytes (kFile : Hash) (plaintext : Bytes) : Nat :=
  ((List.range (privateChunkCount plaintext.length)).map fun i =>
    wideBytes (privateDescriptor kFile plaintext i).blake3Hash +
      wideBytes (Blake3.hash (privateChunkPlaintext plaintext i))).sum

/-- The root over the ciphertexts. -/
def privateRoot (kFile : Hash) (plaintext : Bytes) : Hash :=
  (MerkleTree.build ((List.range (privateChunkCount plaintext.length)).map fun i =>
    (privateDescriptor kFile plaintext i).blake3Hash)).root

/-- The length of the CBOR manifest, from the file. -/
def privateManifestLength (fileName : Str) (plaintext : Bytes) (kFile : Hash) : Nat :=
  headerBytes (utf8 fileName).length plaintext.length (privateChunkCount plaintext.length) +
    (wideBytes (Blake3.hash plaintext) + wideBytes (privateRoot kFile plaintext)) +
    (192 * privateChunkCount plaintext.length + privateNumberBytes plaintext.length +
      privateDigestBytes kFile plaintext)

theorem privateChunk_length (haead : CryptoLib.Inverts) (kFile : Hash) (plaintext : Bytes)
    (i : Nat) : (cborChunk (privateDescriptor kFile plaintext i)).length
      = 192 + (cborWidth i + cborWidth (i * chunkSize) +
        cborWidth (min privatePlaintextChunkSize
          (plaintext.length - i * privatePlaintextChunkSize) + tagSize)) +
        (wideBytes (privateDescriptor kFile plaintext i).blake3Hash +
          wideBytes (Blake3.hash (privateChunkPlaintext plaintext i))) := by
  rw [cborChunk_length (utf8_cid_length _), ← privateDescriptor_size haead kFile]
  show 136 + (cborWidth i + cborWidth (i * chunkSize) + _) + _ + (56 + _) = _
  omega

theorem privateManifest_length (haead : CryptoLib.Inverts) {fileName : Str} {plaintext : Bytes}
    {kFile : Hash} {a : PrivateArtifacts}
    (hbuild : buildPrivateArtifacts fileName plaintext kFile = .ok a) :
    (manifestToCbor a.manifest).length = privateManifestLength fileName plaintext kFile := by
  obtain ⟨-, ⟨l, hmanifest, hchunks⟩, -⟩ := buildPrivateArtifacts_ok haead hbuild
  have hcount : (l.manifest fileName plaintext).chunks.length
      = (l.manifest fileName plaintext).chunkCount := by
    show l.chunks.length = privateChunkCount plaintext.length
    rw [hchunks, List.length_map, List.length_range]
  have hroot : (l.manifest fileName plaintext).merkleRoot = privateRoot kFile plaintext := by
    show (MerkleTree.build (l.chunks.map ChunkDescriptor.blake3Hash)).root = _
    rw [hchunks, List.map_map]
    rfl
  have hlengths : ((l.manifest fileName plaintext).chunks.map fun c => (cborChunk c).length).sum
      = 192 * privateChunkCount plaintext.length + privateNumberBytes plaintext.length +
        privateDigestBytes kFile plaintext := by
    have hmap : (l.chunks.map fun c => (cborChunk c).length)
        = (List.range (privateChunkCount plaintext.length)).map fun i =>
            (cborChunk (privateDescriptor kFile plaintext i)).length := by
      rw [hchunks, List.map_map]
      rfl
    show (l.chunks.map fun c => (cborChunk c).length).sum = _
    rw [hmap, List.map_congr_left fun i _ => privateChunk_length haead kFile plaintext i,
      List.sum_map_add, List.sum_map_add, sum_range_const, Nat.mul_comm]
    rfl
  rw [hmanifest, manifestToCbor_length hcount, hroot, hlengths]
  rfl

/-- At most 275 bytes a chunk. -/
theorem privateManifestLength_le {fileName : Str} (hname : (utf8 fileName).length ≤ 255)
    (plaintext : Bytes) (kFile : Hash) (hcount : privateChunkCount plaintext.length < 2 ^ 32) :
    privateManifestLength fileName plaintext kFile
      ≤ 477 + 275 * privateChunkCount plaintext.length := by
  have hnumbers : privateNumberBytes plaintext.length
      ≤ ((List.range (privateChunkCount plaintext.length)).map fun _ => 19).sum := by
    refine List.sum_le_sum ?_
    intro i hi
    have hindex : cborWidth i ≤ 5 :=
      cborWidth_le_of_lt (Nat.lt_trans (List.mem_range.mp hi) hcount)
    have hoffset := cborWidth_le (i * chunkSize)
    have hfull : min privatePlaintextChunkSize
        (plaintext.length - i * privatePlaintextChunkSize) ≤ privatePlaintextChunkSize :=
      Nat.min_le_left _ _
    have hsize : cborWidth (min privatePlaintextChunkSize
        (plaintext.length - i * privatePlaintextChunkSize) + tagSize) ≤ 5 :=
      cborWidth_le_of_lt (Nat.lt_of_le_of_lt (Nat.add_le_add_right hfull tagSize) (by decide))
    omega
  have hdigests : privateDigestBytes kFile plaintext
      ≤ ((List.range (privateChunkCount plaintext.length)).map fun _ => 64).sum := by
    refine List.sum_le_sum ?_
    intro i _
    have hct := wideBytes_le (privateDescriptor kFile plaintext i).blake3Hash
    have hpt := wideBytes_le (Blake3.hash (privateChunkPlaintext plaintext i))
    omega
  rw [sum_range_const] at hnumbers hdigests
  have hheader := headerBytes_le plaintext.length hname hcount
  have hhash := wideBytes_le (Blake3.hash plaintext)
  have hroot := wideBytes_le (privateRoot kFile plaintext)
  unfold privateManifestLength
  omega

/-- And 259 where every byte of every digest takes two. -/
theorem le_privateManifestLength (hwide : ∀ data, wideBytes (Blake3.hash data) = 32)
    (fileName : Str) (plaintext : Bytes) (kFile : Hash) :
    259 * privateChunkCount plaintext.length
      ≤ privateManifestLength fileName plaintext kFile := by
  have hnumbers : ((List.range (privateChunkCount plaintext.length)).map fun _ => 3).sum
      ≤ privateNumberBytes plaintext.length := by
    refine List.sum_le_sum ?_
    intro i _
    have hindex := cborWidth_pos i
    have hoffset := cborWidth_pos (i * chunkSize)
    have hsize := cborWidth_pos (min privatePlaintextChunkSize
      (plaintext.length - i * privatePlaintextChunkSize) + tagSize)
    omega
  have hdigests : ((List.range (privateChunkCount plaintext.length)).map fun _ => 64).sum
      ≤ privateDigestBytes kFile plaintext := by
    refine List.sum_le_sum ?_
    intro i _
    have hct : wideBytes (privateDescriptor kFile plaintext i).blake3Hash = 32 := hwide _
    rw [hct, hwide]
  rw [sum_range_const] at hnumbers hdigests
  unfold privateManifestLength
  omega

end

/-! ### Requests -/

/-- A number as `bincode` writes it in its standard configuration. -/
def varintLength (n : Nat) : Nat :=
  if n < 251 then 1 else if n < 2 ^ 16 then 3 else if n < 2 ^ 32 then 5 else 9

theorem varintLength_le (n : Nat) : varintLength n ≤ 9 := by
  unfold varintLength
  split_ifs <;> omega

/-- The number of the variant, then the fields; lists and texts start with their length. -/
def ShardRequestV2.encodedLength : ShardRequestV2 → Nat
  | .pull cid offset maxBytes =>
      1 + (varintLength (utf8 cid).length + (utf8 cid).length) + varintLength offset +
        varintLength maxBytes
  | .push data _ chunkIndex merklePath =>
      1 + (varintLength data.length + data.length) + 32 + varintLength chunkIndex +
        (varintLength merklePath.length + 32 * merklePath.length)
  | .manifestPush _ manifestBytes =>
      1 + 32 + (varintLength manifestBytes.length + manifestBytes.length)
  | .manifestPull _ => 1 + 32

/-- `bincode` writes every request, in as many bytes as its format says. -/
structure Bincode.Standard [Bincode ShardRequestV2] : Prop where
  encoded : ∀ request : ShardRequestV2, ∃ buf, Bincode.encodeToVec request = .ok buf ∧
    buf.length = request.encodedLength

/-- The request has a frame within the limit, and the receiving codec takes it off the stream. -/
def ShardRequestV2.Fits [Bincode ShardRequestV2] (request : ShardRequestV2) : Prop :=
  ∃ buf, Bincode.encodeToVec request = .ok buf ∧ buf.length ≤ maxMsgBytes ∧
    ∀ rest, readLengthPrefixed (frame buf ++ rest) VersionedShardCodec.default.maxMsgBytes
      = .ok (buf, rest)

section

variable [Bincode ShardRequestV2]

theorem ShardRequestV2.fits_iff (h : Bincode.Standard) (request : ShardRequestV2) :
    request.Fits ↔ request.encodedLength ≤ maxMsgBytes := by
  obtain ⟨buf, hbuf, hlen⟩ := h.encoded request
  constructor
  · rintro ⟨buf', hbuf', hle, -⟩
    have heq : buf = buf' := Except.ok.inj (hbuf.symm.trans hbuf')
    rwa [← hlen, heq]
  · intro hle
    rw [← hlen] at hle
    have hsmall : buf.length < 2 ^ 32 := Nat.lt_of_le_of_lt hle (by decide)
    refine ⟨buf, hbuf, hle, ?_⟩
    intro rest
    rw [readLengthPrefixed_frame hsmall]
    exact if_neg (Nat.not_lt.mpr hle)

/-- The manifest is all of its push but 38 bytes. -/
theorem manifestPush_fits_iff (h : Bincode.Standard) (root : Hash) (bytes : Bytes) :
    (ShardRequestV2.manifestPush root bytes).Fits ↔ bytes.length + 38 ≤ maxMsgBytes := by
  rw [ShardRequestV2.fits_iff h]
  show 1 + 32 + (varintLength bytes.length + bytes.length) ≤ maxMsgBytes ↔ _
  unfold varintLength maxMsgBytes
  split_ifs <;> omega

variable [Blake3]

/-- **A push always fits**: one chunk, and a path of at most twenty digests. -/
theorem pushRequest_fits (h : Bincode.Standard) {manifest : DataManifest} {mapped : Bytes}
    {i : Nat} {request : ShardRequestV2} (hsizes : ∀ c ∈ manifest.chunks, c.size ≤ chunkSize)
    (hcount : manifest.chunks.length ≤ maxChunkCountPerFile)
    (hpush : pushRequest manifest mapped (MerkleTree.build manifest.leaves) i = some request) :
    request.Fits := by
  unfold pushRequest at hpush
  obtain ⟨c, hc, hpush⟩ := Option.bind_eq_some_iff.mp hpush
  obtain ⟨path, hpath, hpush⟩ := Option.bind_eq_some_iff.mp hpush
  obtain rfl := Option.some.inj hpush
  have hleaves : manifest.leaves.length = manifest.chunks.length := List.length_map _
  have hdepth := proofBytes_length_le (hleaves ▸ (List.getElem?_eq_some_iff.mp hc).1)
    (hleaves ▸ hcount) hpath
  have hsize := hsizes c (List.mem_of_getElem? hc)
  have hdata : (slice mapped c.offset (c.offset + c.size)).length ≤ c.size := by
    unfold slice
    rw [Nat.add_sub_cancel_left]
    exact List.length_take_le _ _
  have hdataWidth := varintLength_le (slice mapped c.offset (c.offset + c.size)).length
  have hindexWidth := varintLength_le i
  have hpathWidth := varintLength_le path.length
  rw [ShardRequestV2.fits_iff h]
  show 1 + (varintLength _ + _) + 32 + varintLength i + (varintLength path.length + 32 * path.length)
    ≤ maxMsgBytes
  unfold maxMsgBytes
  unfold chunkSize at hsize
  omega

omit [Bincode ShardRequestV2] in
/-- A chunk of the manifest can be pushed. -/
theorem pushRequest_isSome {manifest : DataManifest} (mapped : Bytes) {i : Nat}
    (hlt : i < manifest.chunks.length) : ∃ request,
      pushRequest manifest mapped (MerkleTree.build manifest.leaves) i = some request := by
  have hleaf : i < manifest.leaves.length := by
    unfold DataManifest.leaves
    rwa [List.length_map]
  obtain ⟨path, hpath⟩ := proofBytes_isSome hleaf
  unfold pushRequest
  rw [List.getElem?_eq_getElem hlt, hpath]
  exact ⟨_, rfl⟩

omit [Bincode ShardRequestV2] in
/-- Every chunk has its push. -/
theorem deliveries_length {manifest : DataManifest} (mapped : Bytes)
    (overrideBytes : Option Bytes) (hcount : manifest.chunks.length = manifest.chunkCount) :
    (deliveries manifest mapped overrideBytes).length = manifest.chunkCount + 1 := by
  have hall : ((List.range manifest.chunkCount).filterMap
      (pushRequest manifest mapped (MerkleTree.build manifest.leaves))).length
      = manifest.chunkCount := by
    rw [List.length_filterMap_eq_countP, List.countP_eq_length.mpr, List.length_range]
    intro i hi
    obtain ⟨request, hrequest⟩ := pushRequest_isSome mapped (hcount ▸ List.mem_range.mp hi)
    rw [hrequest]
    rfl
  unfold deliveries
  rw [List.length_append, hall, List.length_singleton]

/-- Whether all requests fit is decided by the manifest. -/
theorem deliveries_fit_iff (h : Bincode.Standard) {manifest : DataManifest} (mapped : Bytes)
    (overrideBytes : Option Bytes) (hsizes : ∀ c ∈ manifest.chunks, c.size ≤ chunkSize)
    (hcount : manifest.chunks.length ≤ maxChunkCountPerFile) :
    (∀ request ∈ deliveries manifest mapped overrideBytes, request.Fits) ↔
      (overrideBytes.getD (manifestToCbor manifest)).length + 38 ≤ maxMsgBytes := by
  rw [← manifestPush_fits_iff h manifest.merkleRoot]
  unfold deliveries
  constructor
  · intro hall
    exact hall _ (List.mem_append_right _ (List.mem_singleton_self _))
  · intro hfits request hrequest
    rcases List.mem_append.mp hrequest with hpush | hmanifest
    · obtain ⟨i, -, hi⟩ := List.mem_filterMap.mp hpush
      exact pushRequest_fits h hsizes hcount hi
    · rw [List.mem_singleton.mp hmanifest]
      exact hfits

/-- **Everything an ingest delivers of a Public file fits.** -/
theorem publicDeliveries_fit (h : Bincode.Standard) {fileName : Str}
    (hname : (utf8 fileName).length ≤ 255) {mapped : Bytes}
    (hcount : (chunkMapped fileName mapped).chunkCount ≤ maxChunkCountPerFile) :
    ∀ request ∈ publicDeliveries fileName mapped, request.Fits := by
  have hlength := chunkMapped_chunks_length fileName mapped
  have hfile : (chunkMapped fileName mapped).fileName = fileName := by
    unfold chunkMapped
    split <;> rfl
  refine (deliveries_fit_iff h mapped none ?_ (hlength ▸ hcount)).mpr ?_
  · intro c hc
    obtain ⟨i, -, rfl⟩ := mem_chunkMapped_chunks hc
    unfold chunkDescriptor
    show min _ _ - _ ≤ _
    omega
  · have hchunks : ((chunkMapped fileName mapped).chunks.map fun c => (cborChunk c).length).sum
        ≤ ((chunkMapped fileName mapped).chunks.map fun c => (cborChunk c).length).length • 187 := by
      refine List.sum_le_card_nsmul _ _ ?_
      intro len hlen
      obtain ⟨c, hc, rfl⟩ := List.mem_map.mp hlen
      obtain ⟨i, hi, rfl⟩ := mem_chunkMapped_chunks hc
      exact publicChunk_length_le hi
    rw [List.length_map, hlength, nsmul_eq_mul, Nat.cast_id] at hchunks
    have hheader := headerBytes_le (chunkMapped fileName mapped).totalSizeBytes hname
      (Nat.lt_of_le_of_lt hcount (by decide))
    have hhash := wideBytes_le (chunkMapped fileName mapped).fileHash
    have hroot := wideBytes_le (chunkMapped fileName mapped).merkleRoot
    show (manifestToCbor (chunkMapped fileName mapped)).length + 38 ≤ maxMsgBytes
    rw [manifestToCbor_length hlength, hfile]
    unfold maxChunkCountPerFile at hcount
    unfold maxMsgBytes
    omega

variable [CryptoLib]

/-- Tag, framing and manifest stay within the limit. -/
def PrivateManifestFits (fileName : Str) (plaintext : Bytes) (kFile : Hash) : Prop :=
  privateManifestLength fileName plaintext kFile + tagSize + 38 ≤ maxMsgBytes

theorem privateDeliveries_fit_iff (h : Bincode.Standard) (haead : CryptoLib.Inverts)
    {fileName : Str} {plaintext : Bytes} {kFile : Hash} {a : PrivateArtifacts}
    (hbuild : buildPrivateArtifacts fileName plaintext kFile = .ok a)
    (hcount : a.manifest.chunkCount ≤ maxChunkCountPerFile) :
    (∀ request ∈ a.deliveries, request.Fits) ↔ PrivateManifestFits fileName plaintext kFile := by
  have hlength := privateManifest_length haead hbuild
  obtain ⟨-, ⟨l, hmanifest, hchunks⟩, hct⟩ := buildPrivateArtifacts_ok haead hbuild
  obtain ⟨ct, hseal, hlen, -⟩ := haead.sealed (manifestKey kFile) zeroNonce manifestAad
    (manifestToCbor a.manifest)
  obtain rfl : ct = a.encryptedManifestBytes := Option.some.inj (hseal.symm.trans hct)
  have hlisted : a.manifest.chunks = (List.range a.manifest.chunkCount).map
      (privateDescriptor kFile plaintext) := by
    rw [hmanifest]
    exact hchunks
  unfold PrivateManifestFits PrivateArtifacts.deliveries
  rw [deliveries_fit_iff h, Option.getD_some, hlen, hlength]
  · intro c hc
    rw [hlisted] at hc
    obtain ⟨i, -, rfl⟩ := List.mem_map.mp hc
    rw [privateDescriptor_size haead]
    exact Nat.add_le_add_right (Nat.min_le_left _ _) tagSize
  · rw [hlisted, List.length_map, List.length_range]
    exact hcount

/--
**A Public file always fits, a Private one if its manifest does.**  There is a push for
every chunk and one for the manifest.  What decides is a formula in the length of the
file, the length of its name and the bytes of its digests that are 24 or more.  Up to
976126 chunks it holds whatever the digests are.
-/
theorem ingest_requests_fit (hbincode : Bincode.Standard) (haead : CryptoLib.Inverts)
    (fileName : Str) (hname : (utf8 fileName).length ≤ 255) :
    (∀ mapped, (chunkMapped fileName mapped).chunkCount ≤ maxChunkCountPerFile →
      (publicDeliveries fileName mapped).length = (chunkMapped fileName mapped).chunkCount + 1 ∧
      ∀ request ∈ publicDeliveries fileName mapped, request.Fits) ∧
    (∀ plaintext kFile a, buildPrivateArtifacts fileName plaintext kFile = .ok a →
      a.manifest.chunkCount ≤ maxChunkCountPerFile →
      a.deliveries.length = a.manifest.chunkCount + 1 ∧
      ((∀ request ∈ a.deliveries, request.Fits) ↔ PrivateManifestFits fileName plaintext kFile) ∧
      (a.manifest.chunkCount ≤ 976126 → PrivateManifestFits fileName plaintext kFile)) := by
  constructor
  · intro mapped hcount
    exact ⟨deliveries_length mapped none (chunkMapped_chunks_length fileName mapped),
      publicDeliveries_fit hbincode hname hcount⟩
  intro plaintext kFile a hbuild hcount
  obtain ⟨hsmall, ⟨l, hmanifest, hchunks⟩, -⟩ := buildPrivateArtifacts_ok haead hbuild
  have hcounted : a.manifest.chunkCount = privateChunkCount plaintext.length := by
    rw [hmanifest]
    rfl
  have hlisted : a.manifest.chunks.length = a.manifest.chunkCount := by
    rw [hcounted, hmanifest]
    show l.chunks.length = _
    rw [hchunks, List.length_map, List.length_range]
  refine ⟨deliveries_length a.ciphertext _ hlisted,
    privateDeliveries_fit_iff hbincode haead hbuild hcount, ?_⟩
  intro hfew
  have hle := privateManifestLength_le hname plaintext kFile hsmall
  rw [hcounted] at hfew
  unfold PrivateManifestFits maxMsgBytes tagSize
  omega

/-- A Private file of the most chunks does not fit if its digests have no byte below 24. -/
theorem full_private_file_exceeds (hbincode : Bincode.Standard) (haead : CryptoLib.Inverts)
    (hwide : ∀ data, wideBytes (Blake3.hash data) = 32) (fileName : Str) {plaintext : Bytes}
    (kFile : Hash)
    (hlen : plaintext.length = maxChunkCountPerFile * privatePlaintextChunkSize) :
    ∃ a, buildPrivateArtifacts fileName plaintext kFile = .ok a ∧
      a.manifest.chunkCount = maxChunkCountPerFile ∧
      ¬ ∀ request ∈ a.deliveries, request.Fits := by
  have hchunks : privateChunkCount plaintext.length = maxChunkCountPerFile := by
    rw [hlen]
    decide
  have hne : plaintext ≠ [] := by
    intro hnil
    rw [hnil] at hlen
    exact absurd hlen (by decide)
  obtain ⟨l, ct, -, hbuild, -⟩ := buildPrivateArtifacts_spec haead fileName kFile hne
    (by rw [hchunks]; decide)
  refine ⟨_, hbuild, hchunks, ?_⟩
  rw [privateDeliveries_fit_iff hbincode haead hbuild hchunks.le]
  have hlong := le_privateManifestLength hwide fileName plaintext kFile
  rw [hchunks] at hlong
  unfold PrivateManifestFits maxMsgBytes
  unfold maxChunkCountPerFile at hlong
  omega

end

/-! #### The format itself

The digests of the second file are BLAKE3's with one bit set in every byte, so that none
of them is below 24; on average three in 32 bytes of a real digest are. -/

def bincodeNumber (n : Nat) : Bytes :=
  if n < 251 then [UInt8.ofNat n]
  else if n < 2 ^ 16 then 251 :: (beBytes 2 n).reverse
  else if n < 2 ^ 32 then 252 :: (beBytes 4 n).reverse
  else 253 :: (beBytes 8 n).reverse

def bincodeBytes (data : Bytes) : Bytes := bincodeNumber data.length ++ data

/-- Writing alone. -/
@[reducible] def Bincode.requests : Bincode ShardRequestV2 where
  encodeToVec
    | .pull cid offset maxBytes =>
        .ok (0 :: bincodeBytes (utf8 cid) ++ bincodeNumber offset ++ bincodeNumber maxBytes)
    | .push data root chunkIndex path =>
        .ok (1 :: bincodeBytes data ++ root.bytes ++ bincodeNumber chunkIndex ++
          (bincodeNumber path.length ++ path.flatMap Hash.bytes))
    | .manifestPush root bytes => .ok (2 :: root.bytes ++ bincodeBytes bytes)
    | .manifestPull root => .ok (3 :: root.bytes)
  decodeFromSlice _ := .error "not read here"

theorem bincodeNumber_length (n : Nat) : (bincodeNumber n).length = varintLength n := by
  unfold bincodeNumber varintLength
  split_ifs <;> simp [beBytes_length]

theorem bincodeBytes_length (data : Bytes) :
    (bincodeBytes data).length = varintLength data.length + data.length := by
  unfold bincodeBytes
  rw [List.length_append, bincodeNumber_length]

theorem hashes_length (l : List Hash) : (l.flatMap Hash.bytes).length = 32 * l.length := by
  induction l with
  | nil => rfl
  | cons h l ih =>
      rw [List.flatMap_cons, List.length_append, h.size, ih, List.length_cons]
      omega

theorem Bincode.requests_standard : @Bincode.Standard Bincode.requests := by
  refine @Bincode.Standard.mk Bincode.requests ?_
  intro request
  cases request with
  | pull cid offset maxBytes =>
      refine ⟨_, rfl, ?_⟩
      simp only [List.length_append, List.length_cons, bincodeBytes_length, bincodeNumber_length,
        ShardRequestV2.encodedLength]
      omega
  | push data root chunkIndex path =>
      refine ⟨_, rfl, ?_⟩
      simp only [List.length_append, List.length_cons, bincodeBytes_length, bincodeNumber_length,
        hashes_length, root.size, ShardRequestV2.encodedLength]
      omega
  | manifestPush root bytes =>
      refine ⟨_, rfl, ?_⟩
      simp only [List.length_append, List.length_cons, bincodeBytes_length, root.size,
        ShardRequestV2.encodedLength]
  | manifestPull root =>
      refine ⟨_, rfl, ?_⟩
      simp only [List.length_cons, root.size, ShardRequestV2.encodedLength]

/-- Three bytes, as a Public file and as a Private one. -/
theorem three_bytes_fit :
    letI := Blake3.reference
    letI := CryptoLib.reference
    letI := Bincode.requests
    (∀ request ∈ publicDeliveries ['f'] [1, 2, 3], request.Fits) ∧
    ∃ a, buildPrivateArtifacts ['f'] [1, 2, 3] (Hash.fill 7) = .ok a ∧
      ∀ request ∈ a.deliveries, request.Fits := by
  let _ := Blake3.reference
  let _ := CryptoLib.reference
  let _ := Bincode.requests
  obtain ⟨hpublic, hprivate⟩ := ingest_requests_fit Bincode.requests_standard
    CryptoLib.reference_inverts ['f'] (by decide)
  obtain ⟨l, ct, -, hbuild, -⟩ := buildPrivateArtifacts_spec CryptoLib.reference_inverts ['f']
    (Hash.fill 7) (List.cons_ne_nil 1 [2, 3]) (by decide)
  have hcount : privateChunkCount [1, 2, 3].length = 1 := by decide
  obtain ⟨-, hiff, hfew⟩ := hprivate _ _ _ hbuild (hcount.le.trans (by decide))
  refine ⟨(hpublic _ ?_).2, _, hbuild, hiff.mpr (hfew (hcount.le.trans (by decide)))⟩
  exact (chunkMapped_chunkCount (List.cons_ne_nil 1 [2, 3])).le.trans (by decide)

/-- BLAKE3 with the sixth bit of every byte set. -/
@[reducible] def Blake3.raised : Blake3 where
  hash data := ⟨(Blake3Reference.digest data).bytes.map (· ||| 32), by
    rw [List.length_map, Hash.size]⟩

theorem Blake3.raised_wide (data : Bytes) : wideBytes (Blake3.raised.hash data) = 32 := by
  have hall : wideBytes (Blake3.raised.hash data) = (Blake3.raised.hash data).bytes.length := by
    refine List.countP_eq_length.mpr ?_
    intro b hb
    obtain ⟨c, -, rfl⟩ := List.mem_map.mp hb
    have hle : 32 ≤ (c ||| 32).toNat := by
      rw [UInt8.toNat_or]
      exact Nat.right_le_or
    simp only [decide_eq_true_eq]
    omega
  rw [hall, Hash.size]

/-- A Private file of 2^20 chunks is encrypted, counted within the cap, and its manifest is
too long for a frame. -/
theorem full_private_file_does_not_fit :
    letI := Blake3.raised
    letI := CryptoLib.reference
    letI := Bincode.requests
    ∃ a, buildPrivateArtifacts ['f']
        (List.replicate (maxChunkCountPerFile * privatePlaintextChunkSize) 0) (Hash.fill 7)
          = .ok a ∧
      a.manifest.chunkCount = maxChunkCountPerFile ∧
      ¬ ∀ request ∈ a.deliveries, request.Fits := by
  let _ := Blake3.raised
  let _ := CryptoLib.reference
  let _ := Bincode.requests
  exact full_private_file_exceeds Bincode.requests_standard CryptoLib.reference_inverts
    Blake3.raised_wide ['f'] (Hash.fill 7) List.length_replicate

end Snip
