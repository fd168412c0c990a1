/-
What the store keeps, operation by operation.

Three kinds of facts are carried.  `IndexInv` is about one file: every manifest,
push proof and held record the store has under its root is right, in memory and
on disk, so that a restart finds nothing else.  `Extends` says that a record in
memory stays while the node runs.  `GcInv` says that every chunk file is exempt
from garbage collection.  None of the three needs the others.
-/
import Mathlib.Data.List.Dedup
import Snip.Store.SumStore
import Snip.Proofs.Manifest

namespace Snip

/-! ### Appending a line -/

theorem mem_appendLine {α : Type} {io : Io} {lines : List α} {line x : α}
    (h : x ∈ (appendLine io lines line).1) : x ∈ lines ∨ x = line := by
  cases io with
  | done => simpa [appendLine] using h
  | lost => exact Or.inl h
  | unsynced => simpa [appendLine] using h

theorem appendLine_mono {α : Type} {io : Io} {lines : List α} {line x : α} (h : x ∈ lines) :
    x ∈ (appendLine io lines line).1 := by
  cases io with
  | done => simp [appendLine, h]
  | lost => exact h
  | unsynced => simp [appendLine, h]

theorem appendLine_ok {α : Type} {io : Io} {lines : List α} {line : α}
    (h : (appendLine io lines line).2 = .ok ()) : line ∈ (appendLine io lines line).1 := by
  cases io with
  | done => simp [appendLine]
  | lost => cases h
  | unsynced => cases h

/-! ### Identifiers, a line each -/

theorem trim_subset {s : Str} {c : Char} (hc : c ∈ trim s) : c ∈ s :=
  List.dropWhile_subset _ ((List.rdropWhile_prefix _ _).subset hc)

/-- A trimmed text does not end in white space. -/
theorem getLast?_trim {s : Str} {c : Char} (hc : isWhitespace c = true) :
    (trim s).getLast? ≠ some c := by
  intro hlast
  obtain ⟨hne, heq⟩ := List.mem_getLast?_eq_getLast hlast
  have hnot : ¬isWhitespace ((trim s).getLast hne) = true := List.rdropWhile_last_not _ _ hne
  rw [← heq] at hnot
  exact hnot hc

theorem trim_trim (s : Str) : trim (trim s) = trim s := by
  have hfront : (trim s).dropWhile isWhitespace = trim s := by
    cases htrim : trim s with
    | nil => rfl
    | cons c rest =>
        rw [List.dropWhile_cons_of_neg]
        -- the first character is the first one that was not dropped
        have hhead : (s.dropWhile isWhitespace).head? = some c := by
          obtain ⟨tail, htail⟩ := List.rdropWhile_prefix isWhitespace (s.dropWhile isWhitespace)
          rw [← htail]
          show (trim s ++ tail).head? = some c
          rw [htrim]
          rfl
        have hnot := List.head?_dropWhile_not isWhitespace s
        rw [hhead] at hnot
        exact Bool.not_eq_true _ ▸ hnot
  show ((trim s).dropWhile isWhitespace).rdropWhile isWhitespace = trim s
  rw [hfront]
  exact List.rdropWhile_idempotent _ _

/-- An identifier that was loaded is a line of its own. -/
theorem readPrivateChunk_self {line cid : Str} (h : readPrivateChunk line = some cid) :
    readPrivateChunk cid = some cid ∧ cid.getLast? ≠ some '\r' ∧ ∀ c ∈ cid, c ∈ line := by
  unfold readPrivateChunk at h ⊢
  split at h
  · cases h
  · rename_i hne
    obtain rfl := Option.some.inj h
    refine ⟨?_, getLast?_trim rfl, fun c hc => trim_subset hc⟩
    rw [trim_trim, if_neg hne]

/-- A text of characters that are bytes. -/
def Ascii (s : Str) : Prop := ∀ c ∈ s, c.toNat < 128

instance (s : Str) : Decidable (Ascii s) := inferInstanceAs (Decidable (∀ c ∈ s, c.toNat < 128))

/-- A text that a line of its own is read as. -/
structure LineText (s : Str) : Prop where
  named : s ≠ []
  noNewline : '\n' ∉ s
  trimmed : trim s = s

namespace LineText

variable {s : Str}

theorem read (h : LineText s) : readPrivateChunk s = some s := by
  unfold readPrivateChunk
  rw [h.trimmed, if_neg h.named]

theorem getLast? (h : LineText s) : s.getLast? ≠ some '\r' := by
  rw [← h.trimmed]
  exact getLast?_trim rfl

theorem splitOn (h : LineText s) : s.splitOn '\n' = [s] := List.splitOn_eq_singleton h.noNewline

end LineText

/-- Nothing but such a text is ever read. -/
theorem lineText_of_read {line cid : Str} (hline : '\n' ∉ line)
    (h : readPrivateChunk line = some cid) : LineText cid := by
  obtain ⟨hself, -, hsub⟩ := readPrivateChunk_self h
  have hnewline : '\n' ∉ cid := fun hmem => hline (hsub _ hmem)
  unfold readPrivateChunk at hself
  split at hself
  · cases hself
  · rename_i hne
    have htrim := Option.some.inj hself
    exact ⟨htrim ▸ hne, hnewline, htrim⟩

namespace ManifestIndex

theorem mem_privateChunkCids {lines : List Str} {cid : Str} :
    cid ∈ privateChunkCids lines ↔ ∃ line ∈ lines, readPrivateChunk line = some cid := by
  unfold privateChunkCids
  rw [List.mem_reverse, List.mem_dedup, List.mem_reverse, List.mem_filterMap]

/-- A file that was rewritten is read as it was before. -/
theorem read_soundPrivateChunks (rewrite : Bool) {lines : List Str} {cid : Str} :
    (∃ line ∈ soundPrivateChunks rewrite lines, readPrivateChunk line = some cid) ↔
      ∃ line ∈ lines, readPrivateChunk line = some cid := by
  unfold soundPrivateChunks
  split
  · constructor
    · rintro ⟨line, hline, hread⟩
      obtain ⟨old, hold, hline⟩ := mem_privateChunkCids.mp hline
      -- what was read once is read as itself
      rw [(readPrivateChunk_self hline).1] at hread
      exact ⟨old, hold, hline.trans hread⟩
    · rintro ⟨line, hline, hread⟩
      exact ⟨cid, mem_privateChunkCids.mpr ⟨line, hline, hread⟩, (readPrivateChunk_self hread).1⟩
  · exact Iff.rfl

end ManifestIndex

/-! ### Reading back -/

/-- Loading the manifests one after the other changes the two manifest maps only. -/
theorem foldl_addToMaps (ms : List DataManifest) (idx : ManifestIndex) :
    ∃ byRoot cidToRoot, ms.foldl ManifestIndex.addToMaps idx
        = { idx with byRoot := byRoot, cidToRoot := cidToRoot } ∧
      (∀ r m, byRoot.lookup r = some m →
        idx.byRoot.lookup r = some m ∨ m ∈ ms ∧ m.merkleRoot = r) ∧
      ∀ r, (r ∈ idx.byRoot ∨ ∃ m ∈ ms, m.merkleRoot = r) → r ∈ byRoot := by
  induction ms generalizing idx with
  | nil =>
      refine ⟨idx.byRoot, idx.cidToRoot, rfl, fun r m h => Or.inl h, fun r h => ?_⟩
      rcases h with h | ⟨m, hm, -⟩
      · exact h
      · cases hm
  | cons m ms ih =>
      have hmap : (idx.addToMaps m).byRoot = idx.byRoot.insert m.merkleRoot m := rfl
      obtain ⟨byRoot, cidToRoot, heq, hlook, hkeys⟩ := ih (idx.addToMaps m)
      rw [hmap] at hlook hkeys
      refine ⟨byRoot, cidToRoot, by rw [List.foldl_cons, heq]; rfl, fun r m' hl => ?_,
        fun r h => hkeys r ?_⟩
      · rcases hlook r m' hl with hold | ⟨hmem, hroot⟩
        · by_cases hr : r = m.merkleRoot
          · subst hr
            rw [AList.lookup_insert, Option.some.injEq] at hold
            subst hold
            exact Or.inr ⟨by simp, rfl⟩
          · rw [AList.lookup_insert_ne hr] at hold
            exact Or.inl hold
        · exact Or.inr ⟨by simp [hmem], hroot⟩
      · rcases h with h | ⟨m', hm', rfl⟩
        · exact Or.inl (AList.mem_insert _ |>.mpr (Or.inr h))
        · rcases List.mem_cons.mp hm' with rfl | hm'
          · exact Or.inl (AList.mem_insert _ |>.mpr (Or.inl rfl))
          · exact Or.inr ⟨m', hm', rfl⟩

theorem mem_readDir {dir : ManifestDir} {order : List Hash} {m : DataManifest}
    (h : m ∈ ManifestIndex.readDir dir order) : ∃ r, dir.cbor.lookup r = some m := by
  obtain ⟨r, -, hr⟩ := List.mem_filterMap.mp h
  exact ⟨r, hr⟩

theorem mem_readDir_of_lookup {dir : ManifestDir} (order : List Hash) {r : Hash}
    {m : DataManifest} (h : dir.cbor.lookup r = some m) :
    m ∈ ManifestIndex.readDir dir order := by
  have hkey : r ∈ dir.cbor.keys := AList.lookup_isSome.mp (by rw [h]; rfl)
  refine List.mem_filterMap.mpr ⟨r, ?_, h⟩
  by_cases hr : r ∈ order
  · simp [hr, hkey]
  · simp [hr, hkey]

theorem soundLines_subset {κ β : Type} [DecidableEq κ] [DecidableEq β] (lines : List (κ × β)) :
    ManifestIndex.soundLines lines ⊆ lines :=
  List.filter_sublist.subset

/-- A key that reads back is still in the lines a rewrite keeps. -/
theorem mem_soundLines {κ β : Type} [DecidableEq κ] [DecidableEq β] {lines : List (κ × β)}
    {k : κ} {v : β} (h : (Ledger.records lines).lookup k = some v) :
    (k, v) ∈ ManifestIndex.soundLines lines := by
  obtain ⟨hmem, huniq⟩ := Ledger.lookup_records.mp h
  refine List.mem_filter.mpr ⟨hmem, ?_⟩
  simp only [decide_eq_true_eq]
  intro hc
  obtain ⟨v', w', hv', hw', hne⟩ := ((Ledger.reads_recover lines).conflict k).mp hc
  exact hne ((huniq v' hv').trans (huniq w' hw').symm)

section

variable [Blake3]

/-! ### Right records of one file

`R` is the file's root, `n` its registered chunk count, and `S` a list of strings
that holds everything that was hashed to check a record. -/

/-- The strict verifier takes the proof as one of chunk `i`. -/
structure ProofOk (R : Hash) (n : Nat) (S : List Bytes) (i : Nat) (proof : PushedProof) :
    Prop where
  verifies : verifyMerkleProofBytesForTree proof.leaf i proof.path R n = true
  strings : walkPreimages i proof.leaf proof.path ⊆ S

/-- The identifier is that of a leaf with such a proof. -/
def HeldOk (R : Hash) (n : Nat) (S : List Bytes) (i : Nat) (cid : Str) : Prop :=
  ∃ proof, ProofOk R n S i proof ∧ cid = cidFromBlake3Hash proof.leaf

/-- The manifest is valid for the root and declares the registered chunk count. -/
structure ManifestOk (R : Hash) (n : Nat) (S : List Bytes) (m : DataManifest) : Prop where
  valid : ValidManifest R m
  count : m.chunkCount = n
  strings : treePreimages m.leaves ⊆ S

structure DirInv (R : Hash) (n : Nat) (S : List Bytes) (dir : ManifestDir) : Prop where
  fileName : ∀ r m, dir.cbor.lookup r = some m → m.merkleRoot = r
  cbor : ∀ m, dir.cbor.lookup R = some m → ManifestOk R n S m
  proofLine : ∀ i proof, ((R, i), proof) ∈ dir.v2Proofs → ProofOk R n S i proof
  heldLine : ∀ i cid, ((R, i), cid) ∈ dir.v2Held → HeldOk R n S i cid

structure IndexInv (R : Hash) (n : Nat) (S : List Bytes) (idx : ManifestIndex) : Prop extends
    DirInv R n S idx.dir where
  indexed : ∀ m, idx.byRoot.lookup R = some m → ManifestOk R n S m
  proof : ∀ i p, idx.v2Proofs.lookup (R, i) = some p → ((R, i), p) ∈ idx.dir.v2Proofs
  held : ∀ i cid, idx.v2Held.lookup (R, i) = some cid → ((R, i), cid) ∈ idx.dir.v2Held

/-- Two proofs of one chunk are one proof, or a collision. -/
theorem ProofOk.unique {R : Hash} {n : Nat} {S : List Bytes} {i : Nat} {p q : PushedProof}
    (hn : n < 2 ^ 32) (hp : ProofOk R n S i p) (hq : ProofOk R n S i q) :
    p = q ∨ Collision S := by
  obtain ⟨-, hplen, hproot⟩ := (verifyForTree_iff hn).mp hp.verifies
  obtain ⟨-, hqlen, hqroot⟩ := (verifyForTree_iff hn).mp hq.verifies
  rcases HashTree.climb_inj p.path q.path i p.leaf q.leaf (hplen.trans hqlen.symm)
    (hproot.trans hqroot.symm) with ⟨hleaf, hpath⟩ | hclash
  · left
    cases p
    cases q
    simp_all
  · refine Or.inr ((collision_of_clash hclash).mono fun s hs => ?_)
    rw [List.map_append] at hs
    rcases List.mem_append.mp hs with hs | hs
    · exact hp.strings hs
    · exact hq.strings hs

/-- The strict verifier's proofs are possible ones, so they are recorded and read back. -/
theorem ProofOk.pushedProofVerifies {R : Hash} {n : Nat} {S : List Bytes} {i : Nat}
    {p : PushedProof} (hn : n < 2 ^ 32) (hp : ProofOk R n S i p) :
    pushedProofVerifies R i p = true := by
  obtain ⟨hi, hlen, hroot⟩ := (verifyForTree_iff hn).mp hp.verifies
  have hdepth : p.path.length ≤ 32 := by
    rw [hlen]
    exact Nat.clog_le_of_le_pow (by omega)
  have hshift : i >>> p.path.length = 0 := by
    rw [Nat.shiftRight_eq_div_pow, hlen]
    exact Nat.div_eq_of_lt (Nat.lt_of_lt_of_le hi (Nat.le_pow_clog (by decide) _))
  simp [Snip.pushedProofVerifies, hdepth, hshift, verifyMerkleProofBytes, verifyMerkleProof,
    merkleWalk_eq_climb, hroot]

variable {R : Hash} {n : Nat} {S : List Bytes} {idx : ManifestIndex}

/-! ### Every operation keeps the records of a file right -/

theorem IndexInv.insert (h : IndexInv R n S idx) (io : Io) {m : DataManifest}
    (hm : m.merkleRoot = R → ManifestOk R n S m) : IndexInv R n S (idx.insert io m).1 := by
  have hput : DirInv R n S
      { idx.dir with cbor := idx.dir.cbor.insert m.merkleRoot m } := by
    refine ⟨fun r m' hl => ?_, fun m' hl => ?_, h.proofLine, h.heldLine⟩
    · by_cases hr : r = m.merkleRoot
      · subst hr
        rw [AList.lookup_insert, Option.some.injEq] at hl
        rw [← hl]
      · rw [AList.lookup_insert_ne hr] at hl
        exact h.fileName r m' hl
    · by_cases hr : R = m.merkleRoot
      · subst hr
        rw [AList.lookup_insert, Option.some.injEq] at hl
        rw [← hl]
        exact hm rfl
      · rw [AList.lookup_insert_ne hr] at hl
        exact h.cbor m' hl
  cases io with
  | done =>
      refine ⟨hput, fun m' hl => ?_, h.proof, h.held⟩
      by_cases hr : R = m.merkleRoot
      · subst hr
        rw [show ((idx.insert .done m).1).byRoot = idx.byRoot.insert m.merkleRoot m from rfl,
          AList.lookup_insert, Option.some.injEq] at hl
        rw [← hl]
        exact hm rfl
      · rw [show ((idx.insert .done m).1).byRoot = idx.byRoot.insert m.merkleRoot m from rfl,
          AList.lookup_insert_ne hr] at hl
        exact h.indexed m' hl
  | unsynced => exact ⟨hput, h.indexed, h.proof, h.held⟩
  | lost =>
      have hkeep : ∀ r m', (idx.dir.cbor.erase m.merkleRoot).lookup r = some m' →
          idx.dir.cbor.lookup r = some m' := by
        intro r m' hl
        by_cases hr : r = m.merkleRoot
        · subst hr
          rw [AList.lookup_erase] at hl
          cases hl
        · rwa [AList.lookup_erase_ne hr] at hl
      exact ⟨⟨fun r m' hl => h.fileName r m' (hkeep r m' hl),
        fun m' hl => h.cbor m' (hkeep R m' hl), h.proofLine, h.heldLine⟩,
        h.indexed, h.proof, h.held⟩

theorem IndexInv.insertPrivate (h : IndexInv R n S idx) (io : Io) (root : Hash) (bytes : Bytes) :
    IndexInv R n S (idx.insertPrivate io root bytes).1 := by
  cases io with
  | done => exact ⟨⟨h.fileName, h.cbor, h.proofLine, h.heldLine⟩, h.indexed, h.proof, h.held⟩
  | lost => exact ⟨⟨h.fileName, h.cbor, h.proofLine, h.heldLine⟩, h.indexed, h.proof, h.held⟩
  | unsynced => exact ⟨⟨h.fileName, h.cbor, h.proofLine, h.heldLine⟩, h.indexed, h.proof, h.held⟩

theorem IndexInv.recordPrivateChunkCid (h : IndexInv R n S idx) (io : Io) (root : Hash)
    (cid : Str) : IndexInv R n S (idx.recordPrivateChunkCid io root cid).1 := by
  unfold ManifestIndex.recordPrivateChunkCid
  cases idx.privateCidToRoot.lookup cid with
  | some existing =>
      dsimp only
      split
      · exact h
      · exact h
  | none =>
      dsimp only
      split
      · exact ⟨⟨h.fileName, h.cbor, h.proofLine, h.heldLine⟩, h.indexed, h.proof, h.held⟩
      · exact ⟨⟨h.fileName, h.cbor, h.proofLine, h.heldLine⟩, h.indexed, h.proof, h.held⟩

theorem IndexInv.recordV2HeldChunk (h : IndexInv R n S idx) (io : Io) (cid : Str) :
    IndexInv R n S (idx.recordV2HeldChunk io cid).1 := by
  unfold ManifestIndex.recordV2HeldChunk
  split
  · exact h
  split
  · exact h
  split
  · exact h
  split
  · exact ⟨⟨h.fileName, h.cbor, h.proofLine, h.heldLine⟩, h.indexed, h.proof, h.held⟩
  · dsimp only
    split
    · exact ⟨⟨h.fileName, h.cbor, h.proofLine, h.heldLine⟩, h.indexed, h.proof, h.held⟩
    · exact ⟨⟨h.fileName, h.cbor, h.proofLine, h.heldLine⟩, h.indexed, h.proof, h.held⟩

theorem IndexInv.recordV2HeldIndex (h : IndexInv R n S idx) (io : Io) {root : Hash} {i : Nat}
    {cid : Str} (hnew : root = R → HeldOk R n S i cid) :
    IndexInv R n S (idx.recordV2HeldIndex io root i cid).1 := by
  unfold ManifestIndex.recordV2HeldIndex
  cases idx.v2Held.lookup (root, i) with
  | some existing =>
      dsimp only
      split
      · exact h
      · exact h
  | none =>
      have hdir : DirInv R n S
          { idx.dir with v2Held := (appendLine io idx.dir.v2Held ((root, i), cid)).1 } := by
        refine ⟨h.fileName, h.cbor, h.proofLine, fun j c hmem => ?_⟩
        rcases mem_appendLine hmem with hold | hline
        · exact h.heldLine j c hold
        · simp only [Prod.mk.injEq] at hline
          obtain ⟨⟨rfl, rfl⟩, rfl⟩ := hline
          exact hnew rfl
      dsimp only
      split
      · rename_i hok
        refine ⟨hdir, h.indexed, h.proof, fun j c hl => ?_⟩
        by_cases hkey : (R, j) = (root, i)
        · rw [hkey, AList.lookup_insert, Option.some.injEq] at hl
          subst hl
          rw [hkey]
          exact appendLine_ok hok
        · rw [AList.lookup_insert_ne hkey] at hl
          exact appendLine_mono (h.held j c hl)
      · exact ⟨hdir, h.indexed, h.proof, fun j c hl => appendLine_mono (h.held j c hl)⟩

theorem IndexInv.recordV2PushedProof (h : IndexInv R n S idx) (io : Io) {root : Hash} {i : Nat}
    {leaf : Hash} {path : List Hash} (hnew : root = R → ProofOk R n S i ⟨leaf, path⟩) :
    IndexInv R n S (idx.recordV2PushedProof io root i leaf path).1 := by
  unfold ManifestIndex.recordV2PushedProof
  cases idx.v2Proofs.lookup (root, i) with
  | some existing =>
      dsimp only
      split
      · exact h
      · exact h
  | none =>
      have hdir : DirInv R n S
          { idx.dir with
            v2Proofs := (appendLine io idx.dir.v2Proofs ((root, i), ⟨leaf, path⟩)).1 } := by
        refine ⟨h.fileName, h.cbor, fun j p hmem => ?_, h.heldLine⟩
        rcases mem_appendLine hmem with hold | hline
        · exact h.proofLine j p hold
        · simp only [Prod.mk.injEq] at hline
          obtain ⟨⟨rfl, rfl⟩, rfl⟩ := hline
          exact hnew rfl
      dsimp only
      split
      · exact h
      split
      · rename_i hok
        refine ⟨hdir, h.indexed, fun j p hl => ?_, h.held⟩
        by_cases hkey : (R, j) = (root, i)
        · rw [hkey, AList.lookup_insert, Option.some.injEq] at hl
          subst hl
          rw [hkey]
          exact appendLine_ok hok
        · rw [AList.lookup_insert_ne hkey] at hl
          exact appendLine_mono (h.proof j p hl)
      · exact ⟨hdir, h.indexed, fun j p hl => appendLine_mono (h.proof j p hl), h.held⟩

/-! ### Loading -/

/-- The fields `load` fills before it reads the manifests. -/
theorem load_eq (dir : ManifestDir) (order : List Hash) (rewrite : Bool) :
    ∃ byRoot cidToRoot,
      (∀ r m, byRoot.lookup r = some m → m.merkleRoot = r ∧ ∃ r', dir.cbor.lookup r' = some m) ∧
      (∀ r m, dir.cbor.lookup r = some m → m.merkleRoot ∈ byRoot) ∧
      ∃ gcMarker privateCidToRoot,
      ManifestIndex.load dir order rewrite =
        { dir := { dir with
            gcMarker := gcMarker
            privateChunks := Maps.mapValues (fun _ => ManifestIndex.soundPrivateChunks rewrite)
              dir.privateChunks
            v2Held := if rewrite then ManifestIndex.soundLines dir.v2Held else dir.v2Held
            v2Proofs := if rewrite then ManifestIndex.soundLines
                (dir.v2Proofs.filter fun l => pushedProofVerifies l.1.1 l.1.2 l.2)
              else dir.v2Proofs }
          byRoot := byRoot
          cidToRoot := cidToRoot
          privateBytes := dir.opaqueFiles
          privateCidToRoot := privateCidToRoot
          gcProtected := (ManifestIndex.loadGcProtected dir).1
          v2Held := Ledger.records dir.v2Held
          v2Proofs := Ledger.records
            (dir.v2Proofs.filter fun l => pushedProofVerifies l.1.1 l.1.2 l.2)
          gcProtectionIntact := (ManifestIndex.loadGcProtected dir).2.1 } := by
  unfold ManifestIndex.load
  dsimp only
  obtain ⟨byRoot, cidToRoot, heq, hlook, hkeys⟩ :=
    foldl_addToMaps (ManifestIndex.readDir dir order) _
  refine ⟨byRoot, cidToRoot, fun r m hl => ?_, fun r m hl => ?_, _, _, heq⟩
  swap
  · exact hkeys m.merkleRoot (Or.inr ⟨m, mem_readDir_of_lookup order hl, rfl⟩)
  rcases hlook r m hl with hold | ⟨hmem, hroot⟩
  · cases hold
  · exact ⟨hroot, mem_readDir hmem⟩

/-- A manifest on disk is in the index after a load. -/
theorem load_byRoot {dir : ManifestDir}
    (hname : ∀ r m, dir.cbor.lookup r = some m → m.merkleRoot = r) (order : List Hash)
    (rewrite : Bool) {r : Hash} {m : DataManifest} (h : dir.cbor.lookup r = some m) :
    (ManifestIndex.load dir order rewrite).byRoot.lookup r = some m := by
  obtain ⟨byRoot, cidToRoot, hlook, hkeys, gcMarker, privateCidToRoot, heq⟩ :=
    load_eq dir order rewrite
  rw [heq]
  have hr := hname r m h
  have hmem : r ∈ byRoot := hr ▸ hkeys r m h
  obtain ⟨m', hm'⟩ := Option.isSome_iff_exists.mp (AList.lookup_isSome.mpr hmem)
  obtain ⟨hroot, r', hr'⟩ := hlook r m' hm'
  have hname' := hname r' m' hr'
  rw [hroot] at hname'
  subst hname'
  rw [h, Option.some.injEq] at hr'
  rw [hr']
  exact hm'

theorem DirInv.load {dir : ManifestDir} (h : DirInv R n S dir) (order : List Hash)
    (rewrite : Bool) : IndexInv R n S (ManifestIndex.load dir order rewrite) := by
  obtain ⟨byRoot, cidToRoot, hlook, -, gcMarker, privateCidToRoot, heq⟩ := load_eq dir order rewrite
  rw [heq]
  refine ⟨⟨h.fileName, h.cbor, fun i p hp => ?_, fun i cid hc => ?_⟩, fun m hm => ?_,
    fun i p hp => ?_, fun i cid hc => ?_⟩
  · cases rewrite with
    | false => exact h.proofLine i p hp
    | true => exact h.proofLine i p (List.mem_of_mem_filter (soundLines_subset _ hp))
  · cases rewrite with
    | false => exact h.heldLine i cid hc
    | true => exact h.heldLine i cid (soundLines_subset _ hc)
  · obtain ⟨hroot, r, hr⟩ := hlook R m hm
    have hname := h.fileName r m hr
    rw [hroot] at hname
    subst hname
    exact h.cbor m hr
  · cases rewrite with
    | false => exact List.mem_of_mem_filter (Ledger.lookup_records.mp hp).1
    | true => exact mem_soundLines hp
  · cases rewrite with
    | false => exact (Ledger.lookup_records.mp hc).1
    | true => exact mem_soundLines hc

theorem IndexInv.seedGcProtectedLegacy (h : IndexInv R n S idx) (cids : List Str) :
    IndexInv R n S (idx.seedGcProtectedLegacy cids) :=
  ⟨⟨h.fileName, h.cbor, h.proofLine, h.heldLine⟩, h.indexed, h.proof, h.held⟩

theorem DirInv.sumStoreNew {dir : ManifestDir} (h : DirInv R n S dir) (files : ChunkStore)
    (order : List Hash) (rewrite : Bool) :
    IndexInv R n S (SumStore.new files dir order rewrite).manifestIdx := by
  unfold SumStore.new
  dsimp only
  split
  · exact (h.load order rewrite).seedGcProtectedLegacy _
  · exact h.load order rewrite

theorem dirInv_fresh : DirInv R n S ManifestDir.fresh := by
  refine ⟨fun r m h => ?_, fun m h => ?_, fun i p h => ?_, fun i c h => ?_⟩
  · cases h
  · cases h
  · cases h
  · cases h

end

/-! ### Records stay while the node runs -/

/-- Every push proof and held record of `a` is one of `b`. -/
structure Extends (a b : ManifestIndex) : Prop where
  proofs : ∀ k p, a.v2Proofs.lookup k = some p → b.v2Proofs.lookup k = some p
  held : ∀ k cid, a.v2Held.lookup k = some cid → b.v2Held.lookup k = some cid

theorem Extends.refl (a : ManifestIndex) : Extends a a := ⟨fun _ _ h => h, fun _ _ h => h⟩

theorem Extends.trans {a b c : ManifestIndex} (h : Extends a b) (k : Extends b c) : Extends a c :=
  ⟨fun key p hp => k.proofs key p (h.proofs key p hp),
    fun key cid hc => k.held key cid (h.held key cid hc)⟩

/-- Operations that do not touch the two maps. -/
theorem extends_of_eq {a b : ManifestIndex} (hp : b.v2Proofs = a.v2Proofs)
    (hh : b.v2Held = a.v2Held) : Extends a b :=
  ⟨fun _ _ h => by rw [hp]; exact h, fun _ _ h => by rw [hh]; exact h⟩

theorem extends_insert (io : Io) (idx : ManifestIndex) (m : DataManifest) :
    Extends idx (idx.insert io m).1 := by
  cases io with
  | done => exact extends_of_eq rfl rfl
  | lost => exact extends_of_eq rfl rfl
  | unsynced => exact extends_of_eq rfl rfl

theorem extends_insertPrivate (io : Io) (idx : ManifestIndex) (root : Hash) (bytes : Bytes) :
    Extends idx (idx.insertPrivate io root bytes).1 := by
  cases io with
  | done => exact extends_of_eq rfl rfl
  | lost => exact extends_of_eq rfl rfl
  | unsynced => exact extends_of_eq rfl rfl

theorem extends_recordPrivateChunkCid (io : Io) (idx : ManifestIndex) (root : Hash) (cid : Str) :
    Extends idx (idx.recordPrivateChunkCid io root cid).1 := by
  unfold ManifestIndex.recordPrivateChunkCid
  split
  · split
    · exact Extends.refl idx
    · exact Extends.refl idx
  · dsimp only
    split
    · exact extends_of_eq rfl rfl
    · exact extends_of_eq rfl rfl

theorem extends_recordV2HeldChunk (io : Io) (idx : ManifestIndex) (cid : Str) :
    Extends idx (idx.recordV2HeldChunk io cid).1 := by
  unfold ManifestIndex.recordV2HeldChunk
  split
  · exact Extends.refl idx
  split
  · exact Extends.refl idx
  split
  · exact Extends.refl idx
  split
  · exact extends_of_eq rfl rfl
  · dsimp only
    split
    · exact extends_of_eq rfl rfl
    · exact extends_of_eq rfl rfl

/-- A held record is only added where there is none, and an accepted one is there. -/
theorem extends_recordV2HeldIndex (io : Io) (idx : ManifestIndex) (root : Hash) (i : Nat)
    (cid : Str) : Extends idx (idx.recordV2HeldIndex io root i cid).1 ∧
      ((idx.recordV2HeldIndex io root i cid).2 = .ok () →
        (idx.recordV2HeldIndex io root i cid).1.v2Held.lookup (root, i) = some cid) := by
  unfold ManifestIndex.recordV2HeldIndex
  cases hl : idx.v2Held.lookup (root, i) with
  | some existing =>
      dsimp only
      by_cases heq : existing = cid
      · rw [if_pos heq]
        exact ⟨Extends.refl idx, fun _ => by rw [hl, heq]⟩
      · rw [if_neg heq]
        exact ⟨Extends.refl idx, fun h => by cases h⟩
  | none =>
      dsimp only
      split
      · refine ⟨⟨fun _ _ h => h, fun k c hk => ?_⟩, fun _ => AList.lookup_insert _⟩
        have hne : k ≠ (root, i) := by
          rintro rfl
          rw [hl] at hk
          cases hk
        rw [AList.lookup_insert_ne hne]
        exact hk
      · exact ⟨extends_of_eq rfl rfl, fun h => by cases h⟩

theorem extends_recordV2PushedProof [Blake3] (io : Io) (idx : ManifestIndex) (root : Hash)
    (i : Nat) (leaf : Hash) (path : List Hash) :
    Extends idx (idx.recordV2PushedProof io root i leaf path).1 ∧
      ((idx.recordV2PushedProof io root i leaf path).2 = .ok () →
        (idx.recordV2PushedProof io root i leaf path).1.v2Proofs.lookup (root, i)
          = some ⟨leaf, path⟩) := by
  unfold ManifestIndex.recordV2PushedProof
  cases hl : idx.v2Proofs.lookup (root, i) with
  | some existing =>
      dsimp only
      by_cases heq : existing.leaf = leaf ∧ existing.path = path
      · rw [if_pos heq]
        refine ⟨Extends.refl idx, fun _ => ?_⟩
        obtain ⟨rfl, rfl⟩ := heq
        exact hl
      · rw [if_neg heq]
        exact ⟨Extends.refl idx, fun h => by cases h⟩
  | none =>
      dsimp only
      split
      · exact ⟨Extends.refl idx, fun h => by cases h⟩
      split
      · refine ⟨⟨fun k p hk => ?_, fun _ _ h => h⟩, fun _ => AList.lookup_insert _⟩
        have hne : k ≠ (root, i) := by
          rintro rfl
          rw [hl] at hk
          cases hk
        rw [AList.lookup_insert_ne hne]
        exact hk
      · exact ⟨extends_of_eq rfl rfl, fun h => by cases h⟩

/-! ### Every chunk file is exempt from garbage collection -/

/-- `cid` is in the list on disk. -/
def ManifestDir.Listed (dir : ManifestDir) (cid : Str) : Prop :=
  ∃ list, dir.gcList = some list ∧ cid ∈ list

structure GcInv (files : ChunkStore) (idx : ManifestIndex) : Prop where
  listed : ∀ cid ∈ files, idx.dir.Listed cid
  inMemory : idx.gcProtectionIntact = some true → ∀ cid ∈ files, cid ∈ idx.gcProtected
  protectedListed : ∀ cid ∈ idx.gcProtected, idx.dir.Listed cid

variable {files : ChunkStore}

/-- Operations that leave the list and the memory of it alone. -/
theorem GcInv.of_eq {idx idx' : ManifestIndex} (h : GcInv files idx)
    (hl : idx'.dir.gcList = idx.dir.gcList) (hi : idx'.gcProtectionIntact = idx.gcProtectionIntact)
    (hp : idx'.gcProtected = idx.gcProtected) : GcInv files idx' := by
  refine ⟨fun cid hc => ?_, fun hi' cid hc => ?_, fun cid hc => ?_⟩
  · unfold ManifestDir.Listed
    rw [hl]
    exact h.listed cid hc
  · rw [hp]
    exact h.inMemory (hi ▸ hi') cid hc
  · unfold ManifestDir.Listed
    rw [hl]
    exact h.protectedListed cid (hp ▸ hc)

theorem GcInv.recordV2HeldChunk {idx : ManifestIndex} (h : GcInv files idx) (io : Io)
    (cid : Str) : GcInv files (idx.recordV2HeldChunk io cid).1 ∧
      ((idx.recordV2HeldChunk io cid).2 = .ok () →
        cid ∈ (idx.recordV2HeldChunk io cid).1.gcProtected) := by
  unfold ManifestIndex.recordV2HeldChunk
  by_cases hmem : cid ∈ idx.gcProtected
  · rw [if_pos hmem]
    exact ⟨h, fun _ => hmem⟩
  rw [if_neg hmem]
  split
  · exact ⟨h, fun hr => by cases hr⟩
  split
  · exact ⟨h, fun hr => by cases hr⟩
  cases hlist : idx.dir.gcList with
  | none =>
      exact ⟨⟨h.listed, fun hi => by simp at hi, h.protectedListed⟩, fun hr => by cases hr⟩
  | some list =>
      -- Whatever becomes of the new line, the lines before it stay.
      have hmono : ∀ c, idx.dir.Listed c →
          ({ idx.dir with gcList := some (appendLine io list cid).1 } : ManifestDir).Listed c := by
        rintro c ⟨l, hl, hc⟩
        rw [hlist, Option.some.injEq] at hl
        subst hl
        exact ⟨_, rfl, appendLine_mono hc⟩
      dsimp only
      split
      · rename_i hok
        refine ⟨⟨fun c hc => hmono c (h.listed c hc),
          fun hi c hc => List.mem_cons_of_mem _ (h.inMemory hi c hc), fun c hc => ?_⟩,
          fun _ => List.mem_cons_self⟩
        rcases List.mem_cons.mp hc with rfl | hc
        · exact ⟨_, rfl, appendLine_ok hok⟩
        · exact hmono c (h.protectedListed c hc)
      · exact ⟨⟨fun c hc => hmono c (h.listed c hc), fun hi => by simp at hi,
          fun c hc => hmono c (h.protectedListed c hc)⟩, fun hr => by cases hr⟩

/-- A new file whose name is already protected. -/
theorem GcInv.addFile {idx : ManifestIndex} (h : GcInv files idx) {cid : Str} (data : Bytes)
    (hc : cid ∈ idx.gcProtected) : GcInv (files.insert cid data) idx := by
  have hcase : ∀ c ∈ files.insert cid data, c = cid ∨ c ∈ files := by
    intro c hcm
    simpa using hcm
  refine ⟨fun c hcm => ?_, fun hi c hcm => ?_, h.protectedListed⟩
  · rcases hcase c hcm with rfl | hcf
    · exact h.protectedListed c hc
    · exact h.listed c hcf
  · rcases hcase c hcm with rfl | hcf
    · exact hc
    · exact h.inMemory hi c hcf

/-- A restart knows every file as protected, or protects it as found. -/
theorem GcInv.sumStoreNew [Blake3] {idx : ManifestIndex} (h : GcInv files idx)
    (order : List Hash) (rewrite : Bool) :
    GcInv files (SumStore.new files idx.dir order rewrite).manifestIdx := by
  obtain ⟨byRoot, cidToRoot, -, -, gcMarker, privateCidToRoot, heq⟩ := load_eq idx.dir order rewrite
  unfold SumStore.new
  dsimp only
  cases hlist : idx.dir.gcList with
  | none =>
      have hempty : ∀ cid, cid ∉ files := by
        intro cid hc
        obtain ⟨list, hl, -⟩ := h.listed cid hc
        rw [hlist] at hl
        cases hl
      have hprot : (ManifestIndex.load idx.dir order rewrite).gcProtected = [] := by
        rw [heq]
        simp [ManifestIndex.loadGcProtected, hlist]
      split
      · refine ⟨fun c hc => absurd hc (hempty c), fun _ c hc => absurd hc (hempty c),
          fun c hc => ?_⟩
        have hcm : c ∈ files.listAllCids := by
          rcases List.mem_append.mp hc with hc | hc
          · exact hc
          · rw [hprot] at hc
            cases hc
        exact absurd hcm (hempty c)
      · refine ⟨fun c hc => absurd hc (hempty c), fun _ c hc => absurd hc (hempty c),
          fun c hc => ?_⟩
        rw [hprot] at hc
        cases hc
  | some list =>
      have hintact : (ManifestIndex.load idx.dir order rewrite).gcProtectionIntact
          = some true := by
        rw [heq]
        simp [ManifestIndex.loadGcProtected, hlist]
      rw [if_neg (by rw [hintact]; simp), heq]
      have hfile : ∀ cid ∈ files, cid ∈ list := by
        intro cid hc
        obtain ⟨l, hl, hmem⟩ := h.listed cid hc
        rw [hlist, Option.some.injEq] at hl
        rwa [hl]
      have hprot : (ManifestIndex.loadGcProtected idx.dir).1 = list := by
        simp [ManifestIndex.loadGcProtected, hlist]
      refine ⟨fun c hc => ⟨list, hlist, hfile c hc⟩, fun _ c hc => ?_, fun c hc => ?_⟩
      · simpa [hprot] using hfile c hc
      · exact ⟨list, hlist, by simpa [hprot] using hc⟩

end Snip
