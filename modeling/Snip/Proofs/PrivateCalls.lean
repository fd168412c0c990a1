/-
When a key encrypts one manifest only.

`encrypt_manifest` has one nonce, so it is safe as long as no key ever seals two
manifests.  A key is drawn for one file, but `resume` and `repush` build the file's
manifest anew, and the name in it is the last component of the path they are given; the
root that they compare covers the chunks and not the name.  So what goes out of a chunk
under a key is always the same, and what goes out of the manifest is while the name is.
-/
import Snip.Node.PrivateCalls
import Snip.Proofs.Access
import Snip.Proofs.Rebuild

namespace Snip

/-! ### Names in manifests -/

theorem utf8_inj {s s' : Str} (h : utf8 s = utf8 s') : s = s' := by
  have hbytes : s.utf8Encode = s'.utf8Encode := congrArg List.toByteArray h
  have hstring : String.ofList s = String.ofList s' := by
    apply String.toByteArray_inj.mp
    rw [String.toByteArray_ofList, String.toByteArray_ofList, hbytes]
  exact String.ofList_inj.mp hstring

theorem cborHead_length_mono (major : Nat) {n n' : Nat} (h : n ≤ n') :
    (cborHead major n).length ≤ (cborHead major n').length := by
  rw [cborHead_length, cborHead_length]
  unfold cborWidth
  grind

theorem cborText_inj {s s' : Str} (h : cborText s = cborText s') : s = s' := by
  unfold cborText at h
  have hlength : (utf8 s).length = (utf8 s').length := by
    have htotal := congrArg List.length h
    rw [List.length_append, List.length_append] at htotal
    rcases Nat.lt_trichotomy (utf8 s).length (utf8 s').length with hlt | heq | hgt
    · have := cborHead_length_mono 3 hlt.le
      omega
    · exact heq
    · have := cborHead_length_mono 3 hgt.le
      omega
  rw [hlength] at h
  exact utf8_inj (List.append_cancel_left h)

/-- Manifests that differ in their names only are written differently. -/
theorem manifestToCbor_name_inj {m m' : DataManifest} (hm : { m with fileName := m'.fileName } = m')
    (h : manifestToCbor m = manifestToCbor m') : m.fileName = m'.fileName := by
  rw [← hm] at h
  unfold manifestToCbor at h
  simp only [cborField, List.append_cancel_right_eq, List.append_cancel_left_eq] at h
  exact cborText_inj h

section

variable [Blake3] [CryptoLib]

/-! ### What a build encrypts -/

/-- The ciphertexts of the chunks. -/
def privateCiphertexts (kFile : Hash) (plaintext : Bytes) : List Bytes :=
  (List.range (privateChunkCount plaintext.length)).map fun i =>
    (encryptChunk kFile i (privateChunkPlaintext plaintext i)).getD []

/-- Everything that is hashed on the way to the root. -/
def rootStrings (kFile : Hash) (plaintext : Bytes) : List Bytes :=
  privateCiphertexts kFile plaintext ++
    treePreimages ((privateCiphertexts kFile plaintext).map Blake3.hash)

omit [Blake3] in
theorem encryptChunk_inj (haead : CryptoLib.Inverts) {kFile : Hash} {i : Nat} {pt pt' : Bytes}
    (h : (encryptChunk kFile i pt).getD [] = (encryptChunk kFile i pt').getD []) : pt = pt' := by
  obtain ⟨ct, hct, -, hopen⟩ := decryptChunk_of_encryptChunk haead kFile i pt
  obtain ⟨ct', hct', -, hopen'⟩ := decryptChunk_of_encryptChunk haead kFile i pt'
  rw [hct, hct', Option.getD_some, Option.getD_some] at h
  obtain rfl := h
  exact Except.ok.inj (hopen.symm.trans hopen')

omit [Blake3] in
theorem encryptManifest_inj (haead : CryptoLib.Inverts) {kFile : Hash} {pt pt' : Bytes}
    (h : encryptManifest kFile pt = encryptManifest kFile pt') : pt = pt' := by
  obtain ⟨ct, hct, hopen⟩ := decryptManifest_of_encryptManifest haead kFile pt
  obtain ⟨ct', hct', hopen'⟩ := decryptManifest_of_encryptManifest haead kFile pt'
  rw [hct, hct'] at h
  obtain rfl := Option.some.inj h
  exact Except.ok.inj (hopen.symm.trans hopen')

/-- The manifest of a content under a name. -/
def privateManifest (fileName : Str) (plaintext : Bytes) (kFile : Hash) : DataManifest :=
  ⟨fileName, Blake3.hash plaintext, plaintext.length, privateChunkCount plaintext.length,
    (MerkleTree.build ((privateCiphertexts kFile plaintext).map Blake3.hash)).root,
    (List.range (privateChunkCount plaintext.length)).map (privateDescriptor kFile plaintext)⟩

/-- The artifacts in terms of the name, the content and the key. -/
structure PrivateArtifacts.BuiltFrom (a : PrivateArtifacts) (fileName : Str) (plaintext : Bytes)
    (kFile : Hash) : Prop where
  manifest : a.manifest = privateManifest fileName plaintext kFile
  chunk : ∀ i d, a.manifest.chunks[i]? = some d →
    encryptChunk kFile i (privateChunkPlaintext plaintext i) = some (a.chunkBytes d)
  blob : encryptManifest kFile (manifestToCbor a.manifest) = some a.encryptedManifestBytes

theorem ne_nil_of_built {fileName : Str} {plaintext : Bytes} {kFile : Hash} {a : PrivateArtifacts}
    (h : buildPrivateArtifacts fileName plaintext kFile = .ok a) : plaintext ≠ [] := by
  intro hnil
  rw [hnil] at h
  cases h

theorem builtFrom_of_ok (haead : CryptoLib.Inverts) {fileName : Str} {plaintext : Bytes}
    {kFile : Hash} {a : PrivateArtifacts}
    (h : buildPrivateArtifacts fileName plaintext kFile = .ok a) :
    a.BuiltFrom fileName plaintext kFile := by
  obtain ⟨hsmall, ⟨l, hmanifest, hchunks⟩, hblob⟩ := buildPrivateArtifacts_ok haead h
  obtain ⟨l', ct, hinv, hbuild, -⟩ :=
    buildPrivateArtifacts_spec haead fileName kFile (ne_nil_of_built h) hsmall
  obtain rfl := Except.ok.inj (hbuild.symm.trans h)
  refine ⟨?_, ?_, hblob⟩
  · rw [hmanifest]
    unfold EncryptLoop.manifest privateManifest privateCiphertexts
    rw [hchunks, List.map_map, List.map_map]
    rfl
  · intro i d hd
    have hmem : d ∈ l'.chunks := List.mem_of_getElem? hd
    have hindex : d.chunkIndex = i := by
      have hget := congrArg (fun is => is[i]?) hinv.indices
      simp only [List.getElem?_map] at hget
      rw [show l'.chunks[i]? = some d from hd] at hget
      have hi : i < privateChunkCount plaintext.length := by
        have hlt := (List.getElem?_eq_some_iff.mp hd).1
        have hlength := congrArg List.length hinv.indices
        rw [List.length_map, List.length_range] at hlength
        exact hlength ▸ hlt
      rw [List.getElem?_range hi] at hget
      exact Option.some.inj hget
    have hencrypts := (hinv.described d hmem).encrypts
    rw [hindex] at hencrypts
    exact hencrypts

/-- What can be built can be built under any name. -/
theorem built_renamed (haead : CryptoLib.Inverts) {fileName : Str} {plaintext : Bytes}
    {kFile : Hash} {a : PrivateArtifacts}
    (h : buildPrivateArtifacts fileName plaintext kFile = .ok a) (name : Str) :
    ∃ b, buildPrivateArtifacts name plaintext kFile = .ok b ∧
      b.manifest.merkleRoot = a.manifest.merkleRoot := by
  obtain ⟨hsmall, -, -⟩ := buildPrivateArtifacts_ok haead h
  obtain ⟨l, ct, -, hbuild, -⟩ :=
    buildPrivateArtifacts_spec haead name kFile (ne_nil_of_built h) hsmall
  refine ⟨_, hbuild, ?_⟩
  rw [(builtFrom_of_ok haead hbuild).manifest, (builtFrom_of_ok haead h).manifest]
  rfl

/-- A key, a root and a number of chunks fix the content. -/
theorem plaintext_eq_of_root (haead : CryptoLib.Inverts) {kFile : Hash} {pt pt' : Bytes}
    (hcount : privateChunkCount pt.length = privateChunkCount pt'.length)
    (hroot : (MerkleTree.build ((privateCiphertexts kFile pt).map Blake3.hash)).root
      = (MerkleTree.build ((privateCiphertexts kFile pt').map Blake3.hash)).root) :
    pt = pt' ∨ Collision (rootStrings kFile pt ++ rootStrings kFile pt') := by
  have hlength : ((privateCiphertexts kFile pt).map Blake3.hash).length
      = ((privateCiphertexts kFile pt').map Blake3.hash).length := by
    simp [privateCiphertexts, hcount]
  rcases build_root_inj hlength hroot with hleaves | hcoll
  · have hin : privateCiphertexts kFile pt ⊆ rootStrings kFile pt ++ rootStrings kFile pt' :=
      fun s hs => List.mem_append_left _ (List.mem_append_left _ hs)
    have hin' : privateCiphertexts kFile pt' ⊆ rootStrings kFile pt ++ rootStrings kFile pt' :=
      fun s hs => List.mem_append_right _ (List.mem_append_left _ hs)
    rcases eq_of_map_hash _ _ hin hin' hleaves with hcts | hcoll
    · refine Or.inl ?_
      unfold privateCiphertexts at hcts
      rw [← hcount, List.map_inj_left] at hcts
      rw [← privateChunkPlaintext_flatten pt, ← privateChunkPlaintext_flatten pt', ← hcount]
      congr 1
      refine List.map_congr_left ?_
      intro i hi
      exact encryptChunk_inj haead (hcts i hi)
    · exact Or.inr hcoll
  · refine Or.inr (hcoll.mono ?_)
    intro s hs
    rcases List.mem_append.mp hs with hs | hs
    · exact List.mem_append_left _ (List.mem_append_right _ hs)
    · exact List.mem_append_right _ (List.mem_append_right _ hs)

/-! ### What a request carries -/

/-- What a key is used for. -/
inductive KeyUse where
  | manifest
  | chunk (chunkIndex : Nat)

omit [Blake3] in
/-- The request carries the plaintext, encrypted under the key for this use. -/
def Carries (kFile : Hash) : ShardRequestV2 → KeyUse → Bytes → Prop
  | .push data _ chunkIndex _, .chunk i, pt => chunkIndex = i ∧ encryptChunk kFile i pt = some data
  | .manifestPush _ blob, .manifest, pt => encryptManifest kFile pt = some blob
  | _, _, _ => False

/-- All that went out is encrypted, and a key seals one message for each of its uses. -/
structure KeyUsedOnce (sent : List (Hash × ShardRequestV2)) : Prop where
  encrypted : ∀ kFile request, (kFile, request) ∈ sent → ∃ use pt, Carries kFile request use pt
  once : ∀ kFile request request', (kFile, request) ∈ sent → (kFile, request') ∈ sent →
    ∀ use pt pt', Carries kFile request use pt → Carries kFile request' use pt' → pt = pt'

omit [Blake3] in
theorem Carries.use_eq {kFile : Hash} {request : ShardRequestV2} {use use' : KeyUse}
    {pt pt' : Bytes} (h : Carries kFile request use pt) (h' : Carries kFile request use' pt') :
    use = use' := by
  cases request with
  | push data root chunkIndex path =>
      cases use with
      | manifest => exact h.elim
      | chunk i =>
          cases use' with
          | manifest => exact h'.elim
          | chunk i' => rw [← h.1, ← h'.1]
  | manifestPush root blob =>
      cases use with
      | manifest =>
          cases use' with
          | manifest => rfl
          | chunk i' => exact h'.elim
      | chunk i => exact h.elim
  | pull cid offset maxBytes => cases use <;> exact h.elim
  | manifestPull root => cases use <;> exact h.elim

omit [Blake3] in
theorem Carries.plaintext_eq (haead : CryptoLib.Inverts) {kFile : Hash} {request : ShardRequestV2}
    {use : KeyUse} {pt pt' : Bytes} (h : Carries kFile request use pt)
    (h' : Carries kFile request use pt') : pt = pt' := by
  cases request with
  | push data root chunkIndex path =>
      cases use with
      | manifest => exact h.elim
      | chunk i => exact encryptChunk_inj haead (by rw [h.2, h'.2])
  | manifestPush root blob =>
      cases use with
      | manifest => exact encryptManifest_inj haead (h.trans h'.symm)
      | chunk i => exact h.elim
  | pull cid offset maxBytes => cases use <;> exact h.elim
  | manifestPull root => cases use <;> exact h.elim

omit [Blake3] in
theorem Carries.eq_manifestPush {kFile : Hash} {request : ShardRequestV2} {pt : Bytes}
    (h : Carries kFile request .manifest pt) :
    ∃ root blob, request = .manifestPush root blob := by
  cases request with
  | manifestPush root blob => exact ⟨root, blob, rfl⟩
  | push data root chunkIndex path => exact h.elim
  | pull cid offset maxBytes => exact h.elim
  | manifestPull root => exact h.elim

theorem pushRequest_carries {a : PrivateArtifacts} {fileName : Str} {plaintext : Bytes}
    {kFile : Hash} (hbuilt : a.BuiltFrom fileName plaintext kFile) {tree : MerkleTree} {i : Nat}
    {request : ShardRequestV2}
    (h : pushRequest a.manifest a.ciphertext tree i = some request) :
    Carries kFile request (.chunk i) (privateChunkPlaintext plaintext i) := by
  unfold pushRequest at h
  cases hd : a.manifest.chunks[i]? with
  | none => simp [hd] at h
  | some d =>
  cases hproof : tree.proofBytes i with
  | none => simp [hd, hproof] at h
  | some proof =>
      obtain rfl : ShardRequestV2.push (a.chunkBytes d) a.manifest.merkleRoot i proof = request := by
        simpa [hd, hproof, PrivateArtifacts.chunkBytes] using h
      exact ⟨rfl, hbuilt.chunk i d hd⟩

/-- What goes out for artifacts: their chunks, and their manifest. -/
theorem deliveries_carry {a : PrivateArtifacts} {fileName : Str} {plaintext : Bytes} {kFile : Hash}
    (hbuilt : a.BuiltFrom fileName plaintext kFile) {request : ShardRequestV2}
    (h : request ∈ a.deliveries) :
    Carries kFile request .manifest (manifestToCbor a.manifest) ∨
      ∃ i, Carries kFile request (.chunk i) (privateChunkPlaintext plaintext i) := by
  unfold PrivateArtifacts.deliveries deliveries at h
  rcases List.mem_append.mp h with h | h
  · obtain ⟨i, -, hrequest⟩ := List.mem_filterMap.mp h
    exact Or.inr ⟨i, pushRequest_carries hbuilt hrequest⟩
  · rw [List.mem_singleton.mp h]
    exact Or.inl hbuilt.blob

omit [CryptoLib] in
theorem manifestPush_mem_deliveries (a : PrivateArtifacts) :
    ShardRequestV2.manifestPush a.manifest.merkleRoot a.encryptedManifestBytes ∈ a.deliveries :=
  List.mem_append_right _ (List.mem_singleton.mpr rfl)

variable [SumchainWire] {p : IngestPipeline}

/-! ### The key that a row gives back -/

/-- X25519 gives both sides of the owner's bundle one secret. -/
def PrivateFile.Agrees (file : PrivateFile p) : Prop :=
  CryptoLib.diffieHellman (file.ephSeeds 0) (CryptoLib.publicKey p.secret)
    = CryptoLib.diffieHellman p.secret (CryptoLib.publicKey (file.ephSeeds 0))

theorem PrivateFile.encrypts (file : PrivateFile p) :
    encryptForPrivate file.kFile file.ephSeeds file.fileName file.plaintext
      (p.spec file.recipients) = .ok file.encrypted := by
  have hbuilt := file.built
  unfold IngestPipeline.runPrivate at hbuilt
  cases he : encryptForPrivate file.kFile file.ephSeeds file.fileName file.plaintext
      (p.spec file.recipients) with
  | error e => simp [he] at hbuilt
  | ok encrypted =>
      simp only [he] at hbuilt
      by_cases hmany : p.maxChunkCountPerFile < encrypted.artifacts.manifest.chunkCount
      · rw [if_pos hmany] at hbuilt
        cases hbuilt
      · rw [if_neg hmany] at hbuilt
        rw [Except.ok.inj hbuilt]

theorem PrivateFile.builtFrom (haead : CryptoLib.Inverts) (file : PrivateFile p) :
    file.encrypted.artifacts.BuiltFrom file.fileName file.plaintext file.kFile :=
  builtFrom_of_ok haead (encryptForPrivate_entries file.encrypts).1

/-- The bundle that was registered for the owner opens to the file's key. -/
theorem PrivateFile.opens (haead : CryptoLib.Inverts) {file : PrivateFile p}
    (hagree : file.Agrees) {bundle : Bundle80}
    (h : file.encrypted.initialAccess.head? = some ⟨p.myAddr, some bundle, none⟩) :
    unwrapForSelf bundle p.secret p.myAddr = .ok file.kFile := by
  obtain ⟨-, hentries⟩ := encryptForPrivate_entries file.encrypts
  obtain ⟨bundle', hwrap, hget⟩ := hentries (j := 0) rfl
  rw [List.head?_eq_getElem?, hget] at h
  obtain rfl : bundle' = bundle := by simpa [IngestPipeline.spec] using h
  exact unwrapForSelf_of_wrap haead hagree hwrap

variable [Bs58]

theorem recoverKFile_of_shown (haead : CryptoLib.Inverts) {file : PrivateFile p}
    {info : OwnedFilePage} {kFile : Hash} (hshown : file.ShownBy info) (hagree : file.Agrees)
    (h : p.recoverKFile info = .ok kFile) : kFile = file.kFile := by
  unfold IngestPipeline.recoverKFile recoverKFileFromSeedPage at h
  cases hfind : info.accessList.find? (·.address = p.myAddrBase58) with
  | none => simp [hfind] at h
  | some entry =>
      have haddress : entry.address = p.myAddrBase58 := by
        simpa using List.find?_some hfind
      obtain ⟨text, bundle, htext, hparse, hhead⟩ :=
        hshown.ownerEntry entry (List.mem_of_find?_eq_some hfind) haddress
      have hopen := file.opens haead hagree hhead
      simp only [hfind, unwrapOwnerEntry, htext, hparse, p.derived, hopen] at h
      exact (Except.ok.inj h).symm

/-! ### What a call encrypts -/

namespace PrivateCall

/-- All that is hashed for the root of the file and for the root of what is found at the path. -/
def hashed (call : PrivateCall p) : List Bytes :=
  rootStrings call.file.kFile call.plaintext ++ rootStrings call.file.kFile call.file.plaintext

/-- What a resume finds makes as many chunks as the file; `repush` makes sure of that itself. -/
def SameChunkCount : PrivateCall p → Prop
  | .resume file _ _ plaintext _ =>
      privateChunkCount plaintext.length = privateChunkCount file.plaintext.length
  | .runPrivate .. | .repush .. => True

def PushesManifest (call : PrivateCall p) : Prop :=
  ∃ root blob, ShardRequestV2.manifestPush root blob ∈ call.requests

/-- The artifacts of a call: under the file's key, and with the file's root. -/
structure Encrypts (call : PrivateCall p) (a : PrivateArtifacts) : Prop where
  key : call.kFile? = some call.file.kFile
  built : a.BuiltFrom call.fileName call.plaintext call.file.kFile
  root : a.manifest.merkleRoot = call.file.merkleRoot
  sends : call.requests ⊆ a.deliveries

/-- The step lemma. -/
theorem encrypts_of_step (haead : CryptoLib.Inverts) {files files' : List (PrivateFile p)}
    {call : PrivateCall p} (hstep : PrivateStep files call files') (hagree : call.file.Agrees) :
    ∃ a, call.Encrypts a ∧ (call.SameChunkCount →
      privateChunkCount call.plaintext.length = privateChunkCount call.file.plaintext.length) := by
  cases hstep with
  | @runPrivate file requests fresh sends =>
      exact ⟨_, ⟨rfl, file.builtFrom haead, rfl, sends⟩, fun _ => rfl⟩
  | @resume file info fileName plaintext requests rebuilt known shown passes sends =>
      obtain ⟨kFile, a, hkey, hbuild, rfl, hroot⟩ :=
        resumeRebuild_ok shown.visibility (resumeFile_ok passes).1
      obtain rfl := recoverKFile_of_shown haead shown hagree hkey
      refine ⟨a, ⟨?_, builtFrom_of_ok haead hbuild, hroot, sends⟩, id⟩
      show (p.recoverKFile info.toOwnedFilePage).toOption = _
      rw [hkey]
      rfl
  | @repush file info fileName plaintext requests rebuilt known shown passes sends =>
      obtain ⟨hrebuild, hmismatches⟩ := repushFile_ok passes
      obtain ⟨kFile, a, hkey, hbuild, rfl, hroot⟩ := reproduceRegistered_ok shown.visibility hrebuild
      obtain rfl := recoverKFile_of_shown haead shown hagree hkey
      refine ⟨a, ⟨?_, builtFrom_of_ok haead hbuild, hroot, sends⟩, fun _ => ?_⟩
      · show (p.recoverKFile info).toOption = _
        rw [hkey]
        rfl
      · have hchunks : a.manifest.chunkCount = info.chunkCount :=
          chunkCount_of_no_mismatch hmismatches
        have hshown := shown.chunkCount
        rw [(file.builtFrom haead).manifest] at hshown
        rw [(builtFrom_of_ok haead hbuild).manifest, hshown] at hchunks
        exact hchunks

/-- Under the file's own key the file's own chunks go out, with a manifest of the call's name. -/
structure SendsFile (call : PrivateCall p) : Prop where
  key : call.kFile? = some call.file.kFile
  built : ∃ a : PrivateArtifacts,
    a.BuiltFrom call.fileName call.file.plaintext call.file.kFile ∧ call.requests ⊆ a.deliveries

theorem Encrypts.sendsFile {call : PrivateCall p} {a : PrivateArtifacts} (h : call.Encrypts a)
    (hsame : call.plaintext = call.file.plaintext) : call.SendsFile := by
  have hbuilt := h.built
  rw [hsame] at hbuilt
  exact ⟨h.key, a, hbuilt, h.sends⟩

/-- A root and a number of chunks that are the file's give the file's content. -/
theorem Encrypts.plaintext_eq (haead : CryptoLib.Inverts) {call : PrivateCall p}
    {a : PrivateArtifacts} (h : call.Encrypts a)
    (hcount : privateChunkCount call.plaintext.length
      = privateChunkCount call.file.plaintext.length) :
    call.plaintext = call.file.plaintext ∨ Collision call.hashed := by
  have hroot := h.root
  unfold PrivateFile.merkleRoot at hroot
  rw [h.built.manifest, (call.file.builtFrom haead).manifest] at hroot
  exact plaintext_eq_of_root haead hcount hroot

theorem mem_sent_iff {call : PrivateCall p} (h : call.SendsFile) {kFile : Hash}
    {request : ShardRequestV2} :
    (kFile, request) ∈ call.sent ↔ kFile = call.file.kFile ∧ request ∈ call.requests := by
  unfold sent
  rw [h.key]
  simp [and_comm, eq_comm]

end PrivateCall

/-! ### Calls in a row -/

/-- What a run keeps: files of different keys, and calls that were steps on one of them. -/
structure CallsInv (past : List (PrivateCall p)) (files : List (PrivateFile p)) : Prop where
  distinct : (files.map PrivateFile.kFile).Nodup
  known : ∀ call ∈ past, call.file ∈ files
  stepped : ∀ call ∈ past, ∃ before after, PrivateStep before call after

theorem CallsInv.step {past : List (PrivateCall p)} {files files' : List (PrivateFile p)}
    {call : PrivateCall p} (h : CallsInv past files) (hstep : PrivateStep files call files') :
    CallsInv (past ++ [call]) files' := by
  have hstepped : ∀ c ∈ past ++ [call], ∃ before after, PrivateStep before c after := by
    intro c hc
    rcases List.mem_append.mp hc with hc | hc
    · exact h.stepped c hc
    · rw [List.mem_singleton.mp hc]
      exact ⟨files, files', hstep⟩
  have hknown : ∀ c ∈ past ++ [call], files ⊆ files' → call.file ∈ files' → c.file ∈ files' := by
    intro c hc hsub hcall
    rcases List.mem_append.mp hc with hc | hc
    · exact hsub (h.known c hc)
    · rw [List.mem_singleton.mp hc]
      exact hcall
  cases hstep with
  | @runPrivate file requests fresh sends =>
      refine ⟨List.nodup_cons.mpr ⟨?_, h.distinct⟩, ?_, hstepped⟩
      · intro hmem
        obtain ⟨other, hother, heq⟩ := List.mem_map.mp hmem
        exact fresh other hother heq
      · intro c hc
        exact hknown c hc (List.subset_cons_self _ _) (List.mem_cons_self)
  | resume known _ _ _ =>
      exact ⟨h.distinct, fun c hc => hknown c hc (List.Subset.refl _) known, hstepped⟩
  | repush known _ _ _ =>
      exact ⟨h.distinct, fun c hc => hknown c hc (List.Subset.refl _) known, hstepped⟩

theorem callsInv_of_run {calls : List (PrivateCall p)} {files : List (PrivateFile p)}
    (h : Run PrivateStep [] calls files) : CallsInv calls files :=
  h.invariant (fun _ _ _ _ hinv hstep => hinv.step hstep) []
    ⟨List.nodup_nil, fun _ hc => absurd hc (List.not_mem_nil),
      fun _ hc => absurd hc (List.not_mem_nil)⟩

/-! ### The manifests under one key -/

/-- Calls that push the manifest of one file are given it under one name. -/
def OneName (calls : List (PrivateCall p)) : Prop :=
  ∀ call ∈ calls, ∀ other ∈ calls, call.file = other.file → call.PushesManifest →
    other.PushesManifest → call.fileName = other.fileName

/-- The manifest that a call encrypts. -/
def PrivateCall.manifest (call : PrivateCall p) : DataManifest :=
  privateManifest call.fileName call.file.plaintext call.file.kFile

theorem PrivateCall.SendsFile.carries {call : PrivateCall p} (h : call.SendsFile)
    {request : ShardRequestV2} (hrequest : request ∈ call.requests) :
    Carries call.file.kFile request .manifest (manifestToCbor call.manifest) ∨
      ∃ i, Carries call.file.kFile request (.chunk i)
        (privateChunkPlaintext call.file.plaintext i) := by
  obtain ⟨a, hbuilt, hsub⟩ := h.built
  have hcarry := deliveries_carry hbuilt (hsub hrequest)
  rw [hbuilt.manifest] at hcarry
  exact hcarry

theorem PrivateCall.SendsFile.pushes {call : PrivateCall p} (h : call.SendsFile)
    (hpushes : call.PushesManifest) :
    ∃ request ∈ call.requests,
      Carries call.file.kFile request .manifest (manifestToCbor call.manifest) := by
  obtain ⟨root, blob, hmem⟩ := hpushes
  refine ⟨_, hmem, ?_⟩
  rcases h.carries hmem with hcarry | ⟨i, hcarry⟩
  · exact hcarry
  · exact hcarry.elim

/-- What a request carries, by its use. -/
theorem PrivateCall.SendsFile.plaintext_eq (haead : CryptoLib.Inverts) {call : PrivateCall p}
    (h : call.SendsFile) {request : ShardRequestV2} (hrequest : request ∈ call.requests)
    {use : KeyUse} {pt : Bytes} (hcarry : Carries call.file.kFile request use pt) :
    (use = .manifest ∧ pt = manifestToCbor call.manifest ∧ call.PushesManifest) ∨
      ∃ i, use = .chunk i ∧ pt = privateChunkPlaintext call.file.plaintext i := by
  rcases h.carries hrequest with hmanifest | ⟨i, hchunk⟩
  · obtain rfl := hcarry.use_eq hmanifest
    obtain ⟨root, blob, rfl⟩ := hcarry.eq_manifestPush
    exact Or.inl ⟨rfl, hcarry.plaintext_eq haead hmanifest, root, blob, hrequest⟩
  · obtain rfl := hcarry.use_eq hchunk
    exact Or.inr ⟨i, rfl, hcarry.plaintext_eq haead hchunk⟩

theorem keyUsedOnce_iff_oneName (haead : CryptoLib.Inverts) {calls : List (PrivateCall p)}
    {files : List (PrivateFile p)} (hinv : CallsInv calls files)
    (hsends : ∀ call ∈ calls, call.SendsFile) :
    KeyUsedOnce (calls.flatMap PrivateCall.sent) ↔ OneName calls := by
  have hmem : ∀ {kFile request}, (kFile, request) ∈ calls.flatMap PrivateCall.sent ↔
      ∃ call ∈ calls, kFile = call.file.kFile ∧ request ∈ call.requests := by
    intro kFile request
    rw [List.mem_flatMap]
    exact exists_congr fun call => and_congr_right fun hcall =>
      PrivateCall.mem_sent_iff (hsends call hcall)
  constructor
  · intro honce call hcall other hother hfile hpushes hpushes'
    obtain ⟨request, hrequest, hcarry⟩ := (hsends call hcall).pushes hpushes
    obtain ⟨request', hrequest', hcarry'⟩ := (hsends other hother).pushes hpushes'
    rw [← hfile] at hcarry'
    have hsame := honce.once _ _ _ (hmem.mpr ⟨call, hcall, rfl, hrequest⟩)
      (hmem.mpr ⟨other, hother, by rw [hfile], hrequest'⟩) _ _ _ hcarry hcarry'
    have hrename : { call.manifest with fileName := other.manifest.fileName } = other.manifest := by
      unfold PrivateCall.manifest
      rw [hfile]
      rfl
    exact manifestToCbor_name_inj hrename hsame
  · intro hname
    constructor
    · intro kFile request he
      obtain ⟨call, hcall, rfl, hrequest⟩ := hmem.mp he
      rcases (hsends call hcall).carries hrequest with hcarry | ⟨i, hcarry⟩
      · exact ⟨_, _, hcarry⟩
      · exact ⟨_, _, hcarry⟩
    · intro kFile request request' he he' use pt pt' hcarry hcarry'
      obtain ⟨call, hcall, rfl, hrequest⟩ := hmem.mp he
      obtain ⟨other, hother, hkey, hrequest'⟩ := hmem.mp he'
      have hfile : call.file = other.file :=
        List.inj_on_of_nodup_map hinv.distinct (hinv.known _ hcall) (hinv.known _ hother) hkey
      rw [hkey] at hcarry'
      rcases (hsends call hcall).plaintext_eq haead hrequest hcarry with
        ⟨rfl, rfl, hpushes⟩ | ⟨i, rfl, rfl⟩
      · rcases (hsends other hother).plaintext_eq haead hrequest' hcarry' with
          ⟨-, rfl, hpushes'⟩ | ⟨i, huse, -⟩
        · unfold PrivateCall.manifest
          rw [hname call hcall other hother hfile hpushes hpushes', hfile]
        · cases huse
      · rcases (hsends other hother).plaintext_eq haead hrequest' hcarry' with
          ⟨huse, -, -⟩ | ⟨j, huse, rfl⟩
        · cases huse
        · obtain rfl := KeyUse.chunk.inj huse
          rw [hfile]

/--
**A key seals one manifest as long as the file keeps its name.**
Whatever is registered, resumed and pushed again, in whatever order.
-/
theorem keys_used_once_iff (haead : CryptoLib.Inverts) {calls : List (PrivateCall p)}
    {files : List (PrivateFile p)} (hrun : Run PrivateStep [] calls files)
    (hagree : ∀ file ∈ files, file.Agrees) (hcount : ∀ call ∈ calls, call.SameChunkCount) :
    (KeyUsedOnce (calls.flatMap PrivateCall.sent) ↔ OneName calls) ∨
      Collision (calls.flatMap PrivateCall.hashed) := by
  by_cases hcoll : Collision (calls.flatMap PrivateCall.hashed)
  · exact Or.inr hcoll
  have hinv := callsInv_of_run hrun
  refine Or.inl (keyUsedOnce_iff_oneName haead hinv ?_)
  intro call hcall
  obtain ⟨before, after, hstep⟩ := hinv.stepped call hcall
  obtain ⟨a, hencrypts, hchunks⟩ :=
    PrivateCall.encrypts_of_step haead hstep (hagree _ (hinv.known call hcall))
  rcases hencrypts.plaintext_eq haead (hchunks (hcount call hcall)) with hsame | hc
  · exact hencrypts.sendsFile hsame
  · refine absurd (hc.mono ?_) hcoll
    intro s hs
    exact List.mem_flatMap.mpr ⟨call, hcall, hs⟩

/-! ### The same file under another name -/

/-- The row of a file that waits to be activated. -/
def PrivateFile.pendingRow (file : PrivateFile p) (bundle : Bundle80) : RegisteredFilePage where
  merkleRoot := fileRootHex file.merkleRoot
  plaintextSizeBytes := file.plaintext.length
  storedSizeBytes := file.encrypted.artifacts.storedSizeBytes
  chunkCount := file.encrypted.artifacts.manifest.chunkCount
  assignmentHeight := 1
  visibility := 1
  lifecycle := 0
  accessList := [⟨p.myAddrBase58, some ('0' :: 'x' :: hexEncode bundle.bytes), none⟩]
  owner := p.myAddrBase58
  createdAt := 1
  activatedAtHeight := none
  abandonedAtHeight := none

theorem PrivateFile.shownBy_pendingRow (file : PrivateFile p) {bundle : Bundle80}
    (h : file.encrypted.initialAccess.head? = some ⟨p.myAddr, some bundle, none⟩) :
    file.ShownBy (file.pendingRow bundle).toOwnedFilePage := by
  refine ⟨rfl, rfl, rfl, rfl, ?_⟩
  intro entry hentry _
  rw [List.mem_singleton.mp hentry]
  exact ⟨_, bundle, rfl, parseBundleHex_hexEncode bundle, h⟩

omit [Bs58] in
theorem PrivateFile.ownerBundle (file : PrivateFile p) :
    ∃ bundle, file.encrypted.initialAccess.head? = some ⟨p.myAddr, some bundle, none⟩ := by
  obtain ⟨-, hentries⟩ := encryptForPrivate_entries file.encrypts
  obtain ⟨bundle, -, hget⟩ := hentries (j := 0) rfl
  rw [← List.head?_eq_getElem?] at hget
  exact ⟨bundle, hget⟩

theorem recoverKFile_pendingRow (haead : CryptoLib.Inverts) {file : PrivateFile p}
    (hagree : file.Agrees) {bundle : Bundle80}
    (h : file.encrypted.initialAccess.head? = some ⟨p.myAddr, some bundle, none⟩) :
    p.recoverKFile (file.pendingRow bundle).toOwnedFilePage = .ok file.kFile := by
  have hfind : (file.pendingRow bundle).accessList.find? (·.address = p.myAddrBase58)
      = some ⟨p.myAddrBase58, some ('0' :: 'x' :: hexEncode bundle.bytes), none⟩ := by
    simp [PrivateFile.pendingRow]
  unfold IngestPipeline.recoverKFile recoverKFileFromSeedPage
  rw [hfind]
  exact unwrapOwnerEntry_of_open _ p.derived (file.opens haead hagree h)

/-- A pending file is resumed from a path of any name. -/
theorem resumeFile_pendingRow (haead : CryptoLib.Inverts) {file : PrivateFile p}
    (hagree : file.Agrees) {bundle : Bundle80}
    (hbundle : file.encrypted.initialAccess.head? = some ⟨p.myAddr, some bundle, none⟩)
    (fileName : Str) :
    ∃ a : PrivateArtifacts, p.resumeFile (file.pendingRow bundle) file.merkleRoot fileName
      file.plaintext = .ok (.ofPrivate a) := by
  obtain ⟨a, hbuild, hroot⟩ :=
    built_renamed haead (encryptForPrivate_entries file.encrypts).1 fileName
  refine ⟨a, ?_⟩
  have hprivate : (file.pendingRow bundle).visibility.isPrivate = true := rfl
  have howner : ¬ (file.pendingRow bundle).owner ≠ p.myAddrBase58 := not_not.mpr rfl
  have hsame : ¬ a.manifest.merkleRoot ≠ file.merkleRoot := not_not.mpr hroot
  have hpending : (file.pendingRow bundle).lifecycle = 0 := rfl
  unfold IngestPipeline.resumeFile IngestPipeline.resumeRebuild
  rw [if_pos hprivate, if_neg howner, recoverKFile_pendingRow haead hagree hbundle]
  simp only [hbuild]
  rw [if_neg hsame, hpending]
  rfl

/-- The push of the manifest. -/
def PrivateArtifacts.manifestPush (a : PrivateArtifacts) : ShardRequestV2 :=
  .manifestPush a.manifest.merkleRoot a.encryptedManifestBytes

/-- An ingest and a resume after it, each with the push of its manifest. -/
def resumedCalls (file : PrivateFile p) (info : RegisteredFilePage) (fileName : Str)
    (a : PrivateArtifacts) : List (PrivateCall p) :=
  [.runPrivate file [file.encrypted.artifacts.manifestPush],
    .resume file info fileName file.plaintext [a.manifestPush]]

theorem exists_resumed_run (haead : CryptoLib.Inverts) {file : PrivateFile p}
    (hagree : file.Agrees) (fileName : Str) :
    ∃ info a, Run PrivateStep [] (resumedCalls file info fileName a) [file] := by
  obtain ⟨bundle, hbundle⟩ := file.ownerBundle
  obtain ⟨a, hpasses⟩ := resumeFile_pendingRow haead hagree hbundle fileName
  refine ⟨file.pendingRow bundle, a, .cons (.runPrivate ?_ ?_) (.single (.resume ?_
    (file.shownBy_pendingRow hbundle) hpasses ?_))⟩
  · intro other hother
    exact absurd hother List.not_mem_nil
  · exact List.cons_subset.mpr ⟨manifestPush_mem_deliveries _, List.nil_subset _⟩
  · exact List.mem_singleton.mpr rfl
  · exact List.cons_subset.mpr ⟨manifestPush_mem_deliveries _, List.nil_subset _⟩

/-- **A resume from a path of another name seals a second manifest under the key.** -/
theorem not_keyUsedOnce_of_rename (haead : CryptoLib.Inverts) {file : PrivateFile p}
    (hagree : file.Agrees) {info : RegisteredFilePage} {fileName : Str} {a : PrivateArtifacts}
    (hname : fileName ≠ file.fileName)
    (hrun : Run PrivateStep [] (resumedCalls file info fileName a) [file]) :
    ¬KeyUsedOnce ((resumedCalls file info fileName a).flatMap PrivateCall.sent) := by
  have hinv := callsInv_of_run hrun
  have hsends : ∀ call ∈ resumedCalls file info fileName a, call.SendsFile := by
    intro call hcall
    have hfile : call.file = file := by
      exact List.mem_singleton.mp (hinv.known call hcall)
    have hsame : call.plaintext = call.file.plaintext := by
      simp only [resumedCalls, List.mem_cons, List.not_mem_nil, or_false] at hcall
      rcases hcall with rfl | rfl <;> rfl
    obtain ⟨before, after, hstep⟩ := hinv.stepped call hcall
    obtain ⟨b, hencrypts, -⟩ :=
      PrivateCall.encrypts_of_step haead hstep (hfile ▸ hagree)
    exact hencrypts.sendsFile hsame
  rw [keyUsedOnce_iff_oneName haead hinv hsends]
  intro hone
  have hfirst : PrivateCall.runPrivate file [file.encrypted.artifacts.manifestPush]
      ∈ resumedCalls file info fileName a := List.mem_cons_self
  have hsecond : PrivateCall.resume file info fileName file.plaintext [a.manifestPush]
      ∈ resumedCalls file info fileName a := List.mem_cons_of_mem _ (List.mem_cons_self)
  refine hname (hone _ hsecond _ hfirst rfl ?_ ?_)
  · exact ⟨_, _, List.mem_singleton.mpr rfl⟩
  · exact ⟨_, _, List.mem_singleton.mpr rfl⟩

end

/-! ### A file of three bytes -/

def ownersPipeline : @IngestPipeline CryptoLib.reference :=
  letI := CryptoLib.reference
  ⟨Hash.fill 1, ownersSecret, maxChunkCountPerFile, x25519Secret_ownersSecret⟩

theorem exists_threeBytes :
    letI := Blake3.reference
    letI := Bs58.bitcoin
    letI := CryptoLib.reference
    letI := emptyWire
    ∃ file : PrivateFile ownersPipeline, file.kFile = Hash.fill 7 ∧ file.fileName = ['f'] ∧
      file.plaintext = [1, 2, 3] ∧ file.Agrees := by
  let _ := Blake3.reference
  let _ := Bs58.bitcoin
  let _ := CryptoLib.reference
  let _ := emptyWire
  have hne : ([1, 2, 3] : Bytes) ≠ [] := by decide
  obtain ⟨l, ct, -, hbuild, -⟩ := buildPrivateArtifacts_spec CryptoLib.reference_inverts ['f']
    (Hash.fill 7) hne (by decide)
  have hcontributes : ∀ (j : Nat) (r : PrivateRecipient), (ownersPipeline.spec []).readers[j]? = some r →
      CryptoLib.diffieHellman (Hash.fill 3) r.x25519Pubkey ≠ Hash.zero := by
    intro j r hr
    rw [List.mem_singleton.mp (List.mem_of_getElem? hr)]
    exact ownersKey_contributes
  obtain ⟨encrypted, hencrypted⟩ :=
    encryptForPrivate_isOk CryptoLib.reference_inverts hbuild hcontributes
  have hartifacts := Except.ok.inj
    ((encryptForPrivate_entries hencrypted).1.symm.trans hbuild)
  have hfew : ¬ ownersPipeline.maxChunkCountPerFile < encrypted.artifacts.manifest.chunkCount := by
    rw [hartifacts]
    show ¬ maxChunkCountPerFile < privateChunkCount 3
    decide
  refine ⟨⟨Hash.fill 7, fun _ => Hash.fill 3, ['f'], [1, 2, 3], [], encrypted, ?_⟩, rfl, rfl, rfl,
    ownersKey_agrees⟩
  unfold IngestPipeline.runPrivate
  rw [hencrypted]
  exact if_neg hfew

/-- The theorem where the file is resumed under its own name. -/
theorem resumed_file_keeps_key :
    letI := Blake3.reference
    letI := Bs58.bitcoin
    letI := CryptoLib.reference
    letI := emptyWire
    ∃ (file : PrivateFile ownersPipeline) (info : RegisteredFilePage) (a : PrivateArtifacts),
      file.plaintext = [1, 2, 3] ∧
      Run PrivateStep [] (resumedCalls file info ['f'] a) [file] ∧
      ((KeyUsedOnce ((resumedCalls file info ['f'] a).flatMap PrivateCall.sent) ↔
          OneName (resumedCalls file info ['f'] a)) ∨
        Collision ((resumedCalls file info ['f'] a).flatMap PrivateCall.hashed)) := by
  let _ := Blake3.reference
  let _ := Bs58.bitcoin
  let _ := CryptoLib.reference
  let _ := emptyWire
  obtain ⟨file, -, -, hplaintext, hagree⟩ := exists_threeBytes
  obtain ⟨info, a, hrun⟩ := exists_resumed_run CryptoLib.reference_inverts hagree ['f']
  refine ⟨file, info, a, hplaintext, hrun, ?_⟩
  refine keys_used_once_iff CryptoLib.reference_inverts hrun ?_ ?_
  · intro other hother
    rw [List.mem_singleton.mp hother]
    exact hagree
  · intro call hcall
    simp only [resumedCalls, List.mem_cons, List.not_mem_nil, or_false] at hcall
    rcases hcall with rfl | rfl
    · exact trivial
    · rfl

/-- The file is copied to `g` and resumed from there: its key seals two manifests. -/
theorem renamed_file_reuses_key :
    letI := Blake3.reference
    letI := Bs58.bitcoin
    letI := CryptoLib.reference
    letI := emptyWire
    ∃ (file : PrivateFile ownersPipeline) (info : RegisteredFilePage) (a : PrivateArtifacts),
      file.kFile = Hash.fill 7 ∧ file.fileName = ['f'] ∧ file.plaintext = [1, 2, 3] ∧
      Run PrivateStep [] (resumedCalls file info ['g'] a) [file] ∧
      ¬KeyUsedOnce ((resumedCalls file info ['g'] a).flatMap PrivateCall.sent) := by
  let _ := Blake3.reference
  let _ := Bs58.bitcoin
  let _ := CryptoLib.reference
  let _ := emptyWire
  obtain ⟨file, hkey, hname, hplaintext, hagree⟩ := exists_threeBytes
  obtain ⟨info, a, hrun⟩ := exists_resumed_run CryptoLib.reference_inverts hagree ['g']
  have hrenamed : ['g'] ≠ file.fileName := by
    rw [hname]
    decide
  exact ⟨file, info, a, hkey, hname, hplaintext, hrun,
    not_keyUsedOnce_of_rename CryptoLib.reference_inverts hagree hrenamed hrun⟩

end Snip
