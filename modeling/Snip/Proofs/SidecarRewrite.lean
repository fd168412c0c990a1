/-
What is left of a sidecar file of any text, however damaged.

A load takes the lines that parse, and drops an index that two of them give different
records.  What a rewrite writes for the rest is again a text that parses, one line a
record and no index twice.  So a second load finds the same records and nothing to drop.
-/
import Snip.Proofs.Sidecar

namespace Snip

/-! ### Records -/

section

variable {β : Type} [DecidableEq β] {parse : Str → Option (Nat × β)} {format : Nat → β → Str}

/-- Two lines that differ leave nothing of their index. -/
theorem lookup_loadRecords_conflict (rewrites : Bool) {text line line' : Str} {i : Nat} {v w : β}
    (hline : line ∈ LineFile.lines text) (hv : parse line = some (i, v))
    (hline' : line' ∈ LineFile.lines text) (hw : parse line' = some (i, w)) (hne : v ≠ w) :
    (loadRecords parse format rewrites text).1.lookup i = none := by
  cases hlook : (loadRecords parse format rewrites text).1.lookup i with
  | none => rfl
  | some u =>
      obtain ⟨-, hall⟩ := (lookup_loadRecords rewrites).mp hlook
      have hvu := hall v ⟨line, hline, hv⟩
      have hwu := hall w ⟨line', hline', hw⟩
      exact absurd (hvu.trans hwu.symm) hne

/-- What is parsed can be written: one line, and it parses to the same. -/
structure Canonical (parse : Str → Option (Nat × β)) (format : Nat → β → Str) : Prop where
  parse_format : ∀ line r, parse line = some r → parse (format r.1 r.2) = some r
  newline : ∀ line r, parse line = some r → '\n' ∉ format r.1 r.2
  carriageReturn : ∀ line r, parse line = some r → '\r' ∉ format r.1 r.2

/-- A record that was loaded was parsed. -/
theorem parsed_of_mem_sortedRecords (rewrites : Bool) {text : Str} {r : Nat × β}
    (h : r ∈ sortedRecords (loadRecords parse format rewrites text).1) :
    ∃ line, parse line = some r := by
  obtain ⟨⟨line, -, hline⟩, -⟩ := (lookup_loadRecords rewrites).mp (mem_sortedRecords.mp h)
  exact ⟨line, hline⟩

/-- A rewritten file holds one line for each record. -/
theorem Canonical.holds_rewrite (h : Canonical parse format) (rewrites : Bool) (text : Str) :
    LineFile.Holds
      ((sortedRecords (loadRecords parse format rewrites text).1).map fun r => format r.1 r.2)
      (rewriteRecords format (loadRecords parse format rewrites text).1) := by
  apply LineFile.holds_write
  intro l hl
  obtain ⟨r, hr, rfl⟩ := List.mem_map.mp hl
  obtain ⟨line, hline⟩ := parsed_of_mem_sortedRecords rewrites hr
  exact h.newline line r hline

/-- **A rewritten file loads to the records it was written for.** -/
theorem Canonical.lookup_rewrite (h : Canonical parse format) (rewrites rewrites' : Bool) (text : Str)
    (i : Nat) :
    (loadRecords parse format rewrites'
      (rewriteRecords format (loadRecords parse format rewrites text).1)).1.lookup i
      = (loadRecords parse format rewrites text).1.lookup i := by
  obtain ⟨hlook, -⟩ := loadRecords_spec rewrites' (h.holds_rewrite rewrites text)
    (fun r hr => by
      obtain ⟨line, hline⟩ := parsed_of_mem_sortedRecords rewrites hr
      exact h.parse_format line r hline)
    (fun r hr => by
      obtain ⟨line, hline⟩ := parsed_of_mem_sortedRecords rewrites hr
      exact h.carriageReturn line r hline)
    (fun i v w hv hw => by
      have hv := mem_sortedRecords.mp hv
      have hw := mem_sortedRecords.mp hw
      exact Option.some.inj (hv.symm.trans hw))
  apply Option.ext
  intro v
  rw [hlook, mem_sortedRecords]

/-- **A rewritten file has nothing to drop.** -/
theorem Canonical.rewrite_drops_nothing (h : Canonical parse format) (rewrites : Bool) (text : Str) :
    dropsRecords parse (rewriteRecords format (loadRecords parse format rewrites text).1) = false := by
  have hholds := h.holds_rewrite rewrites text
  have hcr : ∀ l ∈ (sortedRecords (loadRecords parse format rewrites text).1).map (fun r => format r.1 r.2),
      '\r' ∉ l := by
    intro l hl
    obtain ⟨r, hr, rfl⟩ := List.mem_map.mp hl
    obtain ⟨line, hline⟩ := parsed_of_mem_sortedRecords rewrites hr
    exact h.carriageReturn line r hline
  have hparsed : (LineFile.lines (rewriteRecords format (loadRecords parse format rewrites text).1)).map parse
      = (sortedRecords (loadRecords parse format rewrites text).1).map some := by
    rw [hholds.lines_eq hcr, List.map_map]
    apply List.map_congr_left
    intro r hr
    obtain ⟨line, hline⟩ := parsed_of_mem_sortedRecords rewrites hr
    exact h.parse_format line r hline
  unfold dropsRecords needsRewrite
  rw [hparsed, hholds.complete_eq]
  have hrecords : ((sortedRecords (loadRecords parse format rewrites text).1).map some).filterMap id
      = sortedRecords (loadRecords parse format rewrites text).1 := by
    rw [List.filterMap_map]
    exact List.filterMap_some
  dsimp only
  rw [hrecords]
  -- an index that conflicts would have two records in one map
  have hconflicts : (Ledger.recover (sortedRecords (loadRecords parse format rewrites text).1)).conflicted = [] := by
    apply List.eq_nil_iff_forall_not_mem.mpr
    intro i hi
    obtain ⟨v, w, hv, hw, hne⟩ := ((Ledger.reads_recover _).conflict i).mp hi
    have hv := mem_sortedRecords.mp hv
    have hw := mem_sortedRecords.mp hw
    exact hne (Option.some.inj (hv.symm.trans hw))
  rw [hconflicts]
  simp [rewriteRecords]

/-- A file with nothing to drop is left as it is. -/
theorem loadRecords_text_of_drops_nothing (rewrites : Bool) {text : Str}
    (h : dropsRecords parse text = false) : (loadRecords parse format rewrites text).2 = text := by
  unfold dropsRecords at h
  unfold loadRecords
  dsimp only at h ⊢
  rw [if_neg]
  rw [h]
  simp

end

/-! ### Held chunks -/

theorem held_canonical : Canonical parseV2HeldLine formatV2HeldLine where
  parse_format line r h := by
    obtain ⟨hi, hcid⟩ := parseV2HeldLine_some h
    exact parseV2HeldLine_format hi hcid
  newline line r h := heldLine_not_mem (parseV2HeldLine_some h).2 rfl (by decide)
  carriageReturn line r h := heldLine_not_mem (parseV2HeldLine_some h).2 rfl (by decide)

/-! ### Proofs of pushed chunks -/

theorem parsePath_length {s : Str} {path : List Hash} (h : parsePath s = some path) :
    path.length ≤ maxPushedProofDepth := by
  unfold parsePath at h
  split at h
  · cases h
    exact Nat.zero_le _
  · obtain ⟨-, hlen⟩ := Option.filter_eq_some_iff.mp h
    simpa using hlen

theorem parseV2ProofLine_some {line : Str} {r : Nat × PushedProof}
    (h : parseV2ProofLine line = some r) :
    r.1 < 2 ^ 32 ∧ r.2.path.length ≤ maxPushedProofDepth := by
  unfold parseV2ProofLine at h
  split at h
  · simp only [Option.bind_eq_bind, Option.bind_eq_some_iff, Option.pure_def] at h
    obtain ⟨i, hi, leaf, -, path, hpath, heq⟩ := h
    cases heq
    exact ⟨parseU32_lt hi, parsePath_length hpath⟩
  · cases h

section

variable [Blake3] {root : Hash}

theorem readV2ProofLine_some {line : Str} {r : Nat × PushedProof} :
    readV2ProofLine root line = some r ↔
      parseV2ProofLine line = some r ∧ pushedProofVerifies root r.1 r.2 = true :=
  Option.filter_eq_some_iff

/-- A proof that is kept leads to the root, and is as deep as its index needs. -/
theorem pushedProofVerifies_iff {i : Nat} {proof : PushedProof} :
    pushedProofVerifies root i proof = true ↔ proof.path.length ≤ maxPushedProofDepth ∧
      i < 2 ^ proof.path.length ∧ verifyMerkleProof proof.leaf i proof.path root = true := by
  unfold pushedProofVerifies verifyMerkleProofBytes
  simp only [Bool.and_eq_true, decide_eq_true_eq, Nat.shiftRight_eq_div_pow,
    Nat.div_eq_zero_iff, maxPushedProofDepth]
  have hpos : 2 ^ proof.path.length ≠ 0 := by positivity
  tauto

theorem proof_canonical : Canonical (readV2ProofLine root) formatV2ProofLine where
  parse_format line r h := by
    obtain ⟨hparse, hverifies⟩ := readV2ProofLine_some.mp h
    obtain ⟨hi, hpath⟩ := parseV2ProofLine_some hparse
    exact readV2ProofLine_some.mpr ⟨parseV2ProofLine_format hi hpath, hverifies⟩
  newline line r _ := proofLine_not_mem r rfl (by decide) (by decide) (by decide)
  carriageReturn line r _ := proofLine_not_mem r rfl (by decide) (by decide) (by decide)

end

/-! ### Chunks of Private files -/

/-- What a load makes of the lines: the identifiers in order, each once. -/
theorem loadPrivateChunkLines_fst (rewrites : Bool) (text : Str) :
    (loadPrivateChunkLines rewrites text).1
      = ((LineFile.lines text).filterMap readPrivateChunk).reverse.dedup.reverse := by
  show (((LineFile.lines text).map readPrivateChunk).filterMap id).reverse.dedup.reverse = _
  rw [List.filterMap_map]
  rfl

theorem lines_rewritePrivateChunks (rewrites : Bool) (text : Str) :
    LineFile.Holds (loadPrivateChunkLines rewrites text).1
        (rewritePrivateChunks (loadPrivateChunkLines rewrites text).1) ∧
      LineFile.lines (rewritePrivateChunks (loadPrivateChunkLines rewrites text).1)
        = (loadPrivateChunkLines rewrites text).1 ∧
      (LineFile.lines (rewritePrivateChunks (loadPrivateChunkLines rewrites text).1)).map readPrivateChunk
        = (loadPrivateChunkLines rewrites text).1.map some := by
  have hread : ∀ cid ∈ (loadPrivateChunkLines rewrites text).1,
      readPrivateChunk cid = some cid ∧ cid.getLast? ≠ some '\r' ∧ '\n' ∉ cid := by
    intro cid hcid
    rw [loadPrivateChunkLines_fst, List.mem_reverse, List.mem_dedup, List.mem_reverse,
      List.mem_filterMap] at hcid
    obtain ⟨line, hline, hcid⟩ := hcid
    obtain ⟨hself, hcr, hsub⟩ := readPrivateChunk_self hcid
    exact ⟨hself, hcr, fun hmem => LineFile.not_mem_of_mem_lines hline (hsub _ hmem)⟩
  have hholds := LineFile.holds_write fun cid hcid => (hread cid hcid).2.2
  have hlines := hholds.lines_eq_of_getLast fun cid hcid => (hread cid hcid).2.1
  refine ⟨hholds, hlines, ?_⟩
  show (LineFile.lines (LineFile.write _)).map readPrivateChunk = _
  rw [hlines]
  apply List.map_congr_left
  intro cid hcid
  exact (hread cid hcid).1

/-- **A rewritten file of identifiers loads to the same identifiers.** -/
theorem loadPrivateChunkLines_rewrite (rewrites rewrites' : Bool) (text : Str) :
    (loadPrivateChunkLines rewrites' (rewritePrivateChunks (loadPrivateChunkLines rewrites text).1)).1
      = (loadPrivateChunkLines rewrites text).1 := by
  obtain ⟨-, hlines, hmap⟩ := lines_rewritePrivateChunks rewrites text
  have hcids : ((LineFile.lines (rewritePrivateChunks (loadPrivateChunkLines rewrites text).1)).filterMap
      readPrivateChunk) = (loadPrivateChunkLines rewrites text).1 := by
    have hid := congrArg (List.filterMap id) hmap
    rw [List.filterMap_map, List.filterMap_map] at hid
    exact hid.trans List.filterMap_some
  rw [loadPrivateChunkLines_fst, hcids]
  conv_lhs => rw [loadPrivateChunkLines_fst]
  rw [List.reverse_reverse, List.dedup_idem, ← loadPrivateChunkLines_fst rewrites text]

theorem rewritePrivateChunks_drops_nothing (rewrites : Bool) (text : Str) :
    dropsPrivateChunks (rewritePrivateChunks (loadPrivateChunkLines rewrites text).1) = false := by
  obtain ⟨hholds, -, hmap⟩ := lines_rewritePrivateChunks rewrites text
  show needsRewrite _ ((LineFile.lines _).map readPrivateChunk) false = false
  unfold needsRewrite
  rw [hmap, hholds.complete_eq]
  simp [rewritePrivateChunks]

/-- A file with nothing to drop is left as it is. -/
theorem loadPrivateChunkLines_text_of_drops_nothing (rewrites : Bool) {text : Str}
    (h : dropsPrivateChunks text = false) : (loadPrivateChunkLines rewrites text).2 = text := by
  unfold dropsPrivateChunks at h
  unfold loadPrivateChunkLines
  dsimp only
  rw [if_neg]
  rw [h]
  simp

/-! ### Any text -/

/-- A load of the file finds the records, drops nothing and leaves the file as it is. -/
structure ReloadsTo {β : Type} [DecidableEq β] (parse : Str → Option (Nat × β))
    (format : Nat → β → Str) (records : Map Nat β) (file : Str) : Prop where
  records : ∀ rewrites i, (loadRecords parse format rewrites file).1.lookup i = records.lookup i
  complete : dropsRecords parse file = false
  unchanged : ∀ rewrites, (loadRecords parse format rewrites file).2 = file

/-- The same for a file of identifiers. -/
structure ReloadsToCids (cids : List Str) (file : Str) : Prop where
  records : ∀ rewrites, (loadPrivateChunkLines rewrites file).1 = cids
  complete : dropsPrivateChunks file = false
  unchanged : ∀ rewrites, (loadPrivateChunkLines rewrites file).2 = file

theorem Canonical.reloads {β : Type} [DecidableEq β] {parse : Str → Option (Nat × β)}
    {format : Nat → β → Str} (h : Canonical parse format) (rewrites : Bool) (text : Str) :
    ReloadsTo parse format (loadRecords parse format rewrites text).1
      (rewriteRecords format (loadRecords parse format rewrites text).1) := by
  have hcomplete := h.rewrite_drops_nothing rewrites text
  refine ⟨?_, hcomplete, ?_⟩
  · intro rewrites' i
    exact h.lookup_rewrite rewrites rewrites' text i
  · intro rewrites'
    exact loadRecords_text_of_drops_nothing rewrites' hcomplete

/-- The file that a load leaves, rewritten or not. -/
theorem Canonical.reloads_after {β : Type} [DecidableEq β] {parse : Str → Option (Nat × β)}
    {format : Nat → β → Str} (h : Canonical parse format) (rewrites : Bool) (text : Str) :
    ReloadsTo parse format (loadRecords parse format rewrites text).1
      (loadRecords parse format true text).2 := by
  by_cases hdrops : dropsRecords parse text = true
  · have hfile : (loadRecords parse format true text).2
        = rewriteRecords format (loadRecords parse format rewrites text).1 := by
      unfold dropsRecords at hdrops
      unfold loadRecords
      dsimp only at hdrops ⊢
      rw [if_pos ⟨hdrops, rfl⟩]
      rfl
    rw [hfile]
    exact h.reloads rewrites text
  · have hcomplete : dropsRecords parse text = false := Bool.eq_false_iff.mpr hdrops
    rw [loadRecords_text_of_drops_nothing true hcomplete]
    refine ⟨?_, hcomplete, ?_⟩
    · intro rewrites' i
      rfl
    · intro rewrites'
      exact loadRecords_text_of_drops_nothing rewrites' hcomplete

theorem private_reloads (rewrites : Bool) (text : Str) :
    ReloadsToCids (loadPrivateChunkLines rewrites text).1
      (rewritePrivateChunks (loadPrivateChunkLines rewrites text).1) := by
  have hcomplete := rewritePrivateChunks_drops_nothing rewrites text
  refine ⟨?_, hcomplete, ?_⟩
  · intro rewrites'
    exact loadPrivateChunkLines_rewrite rewrites rewrites' text
  · intro rewrites'
    exact loadPrivateChunkLines_text_of_drops_nothing rewrites' hcomplete

theorem private_reloads_after (rewrites : Bool) (text : Str) :
    ReloadsToCids (loadPrivateChunkLines rewrites text).1 (loadPrivateChunkLines true text).2 := by
  by_cases hdrops : dropsPrivateChunks text = true
  · have hfile : (loadPrivateChunkLines true text).2
        = rewritePrivateChunks (loadPrivateChunkLines rewrites text).1 := by
      unfold dropsPrivateChunks at hdrops
      unfold loadPrivateChunkLines
      dsimp only
      rw [if_pos ⟨hdrops, rfl⟩]
      rfl
    rw [hfile]
    exact private_reloads rewrites text
  · have hcomplete : dropsPrivateChunks text = false := Bool.eq_false_iff.mpr hdrops
    rw [loadPrivateChunkLines_text_of_drops_nothing true hcomplete]
    refine ⟨?_, hcomplete, ?_⟩
    · intro rewrites'
      rfl
    · intro rewrites'
      exact loadPrivateChunkLines_text_of_drops_nothing rewrites' hcomplete

/-- A line and its newline are read as the record they were written for. -/
theorem lines_formatV2ProofLine {i : Nat} {proof : PushedProof} (hi : i < 2 ^ 32)
    (hpath : proof.path.length ≤ maxPushedProofDepth) :
    (LineFile.lines (formatV2ProofLine i proof ++ ['\n'])).map parseV2ProofLine = [some (i, proof)] := by
  have hfree : ∀ l ∈ [formatV2ProofLine i proof], '\n' ∉ l ∧ '\r' ∉ l := by
    intro l hl
    rw [List.mem_singleton.mp hl]
    exact ⟨proofLine_not_mem (i, proof) rfl (by decide) (by decide) (by decide),
      proofLine_not_mem (i, proof) rfl (by decide) (by decide) (by decide)⟩
  have hholds := LineFile.holds_write fun l hl => (hfree l hl).1
  rw [← LineFile.write_singleton, hholds.lines_eq fun l hl => (hfree l hl).2, List.map_singleton,
    parseV2ProofLine_format hi hpath]

/--
**Load and rewrite is a fixpoint for every text of a sidecar.**  What is kept of the
proofs leads to the root, an index with two different records is not kept, and a line
that is written for a proof is read as that proof.
-/
theorem sidecar_rewrite_is_fixpoint [Blake3] (text : Str) (root : Hash) (rewrites : Bool) :
    (ReloadsTo parseV2HeldLine formatV2HeldLine (loadV2HeldLines rewrites text).1
        (rewriteV2Held (loadV2HeldLines rewrites text).1) ∧
      ReloadsTo parseV2HeldLine formatV2HeldLine (loadV2HeldLines rewrites text).1
        (loadV2HeldLines true text).2) ∧
    (ReloadsTo (readV2ProofLine root) formatV2ProofLine (loadV2ProofLines root rewrites text).1
        (rewriteV2Proofs (loadV2ProofLines root rewrites text).1) ∧
      ReloadsTo (readV2ProofLine root) formatV2ProofLine (loadV2ProofLines root rewrites text).1
        (loadV2ProofLines root true text).2) ∧
    (ReloadsToCids (loadPrivateChunkLines rewrites text).1
        (rewritePrivateChunks (loadPrivateChunkLines rewrites text).1) ∧
      ReloadsToCids (loadPrivateChunkLines rewrites text).1 (loadPrivateChunkLines true text).2) ∧
    (∀ i proof, (loadV2ProofLines root rewrites text).1.lookup i = some proof →
      proof.path.length ≤ maxPushedProofDepth ∧ i < 2 ^ proof.path.length ∧
        verifyMerkleProof proof.leaf i proof.path root = true) ∧
    (∀ line ∈ LineFile.lines text, ∀ line' ∈ LineFile.lines text, ∀ i cid cid',
      parseV2HeldLine line = some (i, cid) → parseV2HeldLine line' = some (i, cid') → cid ≠ cid' →
        (loadV2HeldLines rewrites text).1.lookup i = none) ∧
    (∀ line ∈ LineFile.lines text, ∀ line' ∈ LineFile.lines text, ∀ i proof proof',
      readV2ProofLine root line = some (i, proof) → readV2ProofLine root line' = some (i, proof') →
        proof ≠ proof' → (loadV2ProofLines root rewrites text).1.lookup i = none) ∧
    (∀ i proof, i < 2 ^ 32 → proof.path.length ≤ maxPushedProofDepth →
      parseV2ProofLine (formatV2ProofLine i proof) = some (i, proof) ∧
        (LineFile.lines (formatV2ProofLine i proof ++ ['\n'])).map parseV2ProofLine
          = [some (i, proof)]) := by
  refine ⟨⟨?_, ?_⟩, ⟨?_, ?_⟩, ⟨?_, ?_⟩, ?_, ?_, ?_, ?_⟩
  · exact held_canonical.reloads rewrites text
  · exact held_canonical.reloads_after rewrites text
  · exact proof_canonical.reloads rewrites text
  · exact proof_canonical.reloads_after rewrites text
  · exact private_reloads rewrites text
  · exact private_reloads_after rewrites text
  · intro i proof hlook
    obtain ⟨⟨line, -, hline⟩, -⟩ := (lookup_loadRecords rewrites).mp hlook
    exact pushedProofVerifies_iff.mp (readV2ProofLine_some.mp hline).2
  · intro line hline line' hline' i cid cid' hcid hcid' hne
    exact lookup_loadRecords_conflict rewrites hline hcid hline' hcid' hne
  · intro line hline line' hline' i proof proof' hproof hproof' hne
    exact lookup_loadRecords_conflict rewrites hline hproof hline' hproof' hne
  · intro i proof hi hpath
    exact ⟨parseV2ProofLine_format hi hpath, lines_formatV2ProofLine hi hpath⟩

end Snip
