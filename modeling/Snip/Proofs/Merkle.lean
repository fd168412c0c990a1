/-
What the strict verifier accepts.

The tree that `MerkleTree::build` makes is the library's hash tree of height
`⌈log₂ n⌉`, and the depth the verifier computes from leading zeros is the same
number, so completeness, uniqueness and the recovery of the leaves all come from
`Lib/HashTree`.  What is left to this module is the loop that stops at one node,
the bit test of the walk, and the 64-byte strings behind a clash.
-/
import Snip.Store.Merkle
import Snip.Blake3

namespace Snip

open HashTree

/-! ### Pairs of digests and their strings -/

theorem pairBytes_inj {p q : Hash × Hash} (h : pairBytes p = pairBytes q) : p = q := by
  have hlen : p.1.bytes.length = q.1.bytes.length := by rw [p.1.size, q.1.size]
  obtain ⟨h1, h2⟩ := List.append_inj h hlen
  exact Prod.ext (Hash.ext h1) (Hash.ext h2)

@[simp] theorem pairBytes_length (p : Hash × Hash) : (pairBytes p).length = 64 := by
  simp [pairBytes, p.1.size, p.2.size]

/-! ### The height of a tree -/

private theorem clog_of_not_one_lt {l : List Hash} (h : ¬ 1 < l.length) :
    Nat.clog 2 l.length = 0 :=
  Nat.clog_of_right_le_one (by omega) 2

private theorem clog_le_self (n : Nat) : Nat.clog 2 n ≤ n :=
  Nat.clog_le_of_le_pow (Nat.lt_two_pow_self).le

/-- The `leading_zeros` formula is `⌈log₂ n⌉`. -/
theorem expectedProofDepth_eq_clog {n : Nat} (h : n < 2 ^ 32) :
    expectedProofDepth n = Nat.clog 2 n := by
  unfold expectedProofDepth leadingZeros32
  by_cases h1 : n ≤ 1
  · rw [if_pos h1, Nat.clog_of_right_le_one h1]
  rw [if_neg h1]
  have hsize : Nat.size (n - 1) ≤ 32 := Nat.size_le.mpr (by omega)
  have hclog : Nat.size (n - 1) = Nat.clog 2 n := by
    refine Nat.le_antisymm ?_ ?_
    · have := Nat.le_pow_clog (b := 2) (by decide) n
      exact Nat.size_le.mpr (by omega)
    · have := Nat.lt_size_self (n - 1)
      exact Nat.clog_le_of_le_pow (by omega)
  omega

section

variable [Blake3]

/-! ### From a clash to a collision -/

theorem collision_of_clash {S : List (Hash × Hash)} (h : Clash hashPair S) :
    Collision (S.map pairBytes) := by
  obtain ⟨u, hu, v, hv, hne, heq⟩ := h
  exact ⟨pairBytes u, List.mem_map_of_mem hu, pairBytes v, List.mem_map_of_mem hv,
    fun hc => hne (pairBytes_inj hc), heq⟩

theorem treePreimages_length {leaves : List Hash} {s : Bytes} (h : s ∈ treePreimages leaves) :
    s.length = 64 := by
  obtain ⟨p, -, rfl⟩ := List.mem_map.mp h
  exact pairBytes_length p

theorem walkPreimages_length {i : Nat} {h : Hash} {p : List Hash} {s : Bytes}
    (hs : s ∈ walkPreimages i h p) : s.length = 64 := by
  obtain ⟨q, -, rfl⟩ := List.mem_map.mp hs
  exact pairBytes_length q

/-- Two lists of strings with the same digests are the same, or two of them collide. -/
theorem eq_of_map_hash {strings : List Bytes} : ∀ (p q : List Bytes), p ⊆ strings → q ⊆ strings →
    p.map Blake3.hash = q.map Blake3.hash → p = q ∨ Collision strings := by
  intro p
  induction p with
  | nil =>
      intro q _ _ h
      cases q with
      | nil => exact Or.inl rfl
      | cons y q => cases h
  | cons x p ih =>
      intro q hp hq h
      cases q with
      | nil => cases h
      | cons y q =>
          injection h with hxy htail
          obtain ⟨hx, hp'⟩ := List.cons_subset.mp hp
          obtain ⟨hy, hq'⟩ := List.cons_subset.mp hq
          by_cases hne : x = y
          · subst hne
            rcases ih q hp' hq' htail with rfl | hcoll
            · exact Or.inl rfl
            · exact Or.inr hcoll
          · exact Or.inr ⟨x, hx, y, hy, hne, hxy⟩

/-! ### The builder's loop -/

private theorem nextLevel_ne_nil {l : List Hash} (h : 1 < l.length) :
    nextLevel hashPair l ≠ [] := by
  apply List.ne_nil_of_length_pos
  rw [nextLevel_length]
  omega

/-- Fuel for one node is fuel for the half as many above it. -/
private theorem fuel_nextLevel {fuel : Nat} {l : List Hash} (hc : 1 < l.length)
    (hf : Nat.clog 2 l.length ≤ fuel + 1) :
    Nat.clog 2 (nextLevel hashPair l).length ≤ fuel := by
  rw [clog_nextLevel hashPair hc] at hf
  omega

theorem buildLoop_length : ∀ (fuel : Nat) (l : List Hash), Nat.clog 2 l.length ≤ fuel →
    (MerkleTree.buildLoop fuel l).length = Nat.clog 2 l.length + 1 := by
  intro fuel
  induction fuel with
  | zero =>
      intro l hf
      simp only [MerkleTree.buildLoop, List.length_singleton]
      omega
  | succ fuel ih =>
      intro l hf
      unfold MerkleTree.buildLoop
      by_cases hc : 1 < l.length
      · rw [if_pos hc, List.length_cons, ih _ (fuel_nextLevel hc hf),
          clog_nextLevel hashPair hc]
      · rw [if_neg hc, clog_of_not_one_lt hc, List.length_singleton]

theorem buildLoop_ne_nil (fuel : Nat) (l : List Hash) : MerkleTree.buildLoop fuel l ≠ [] := by
  cases fuel with
  | zero => simp [MerkleTree.buildLoop]
  | succ fuel =>
      unfold MerkleTree.buildLoop
      split <;> simp

theorem buildLoop_getLast? : ∀ (fuel : Nat) (l : List Hash), Nat.clog 2 l.length ≤ fuel →
    (MerkleTree.buildLoop fuel l).getLast? = some (level hashPair (Nat.clog 2 l.length) l) := by
  intro fuel
  induction fuel with
  | zero =>
      intro l hf
      have h0 : Nat.clog 2 l.length = 0 := by omega
      simp [MerkleTree.buildLoop, h0, level]
  | succ fuel ih =>
      intro l hf
      unfold MerkleTree.buildLoop
      by_cases hc : 1 < l.length
      · rw [if_pos hc, List.getLast?_cons, ih _ (fuel_nextLevel hc hf),
          clog_nextLevel hashPair hc]
        rfl
      · rw [if_neg hc, clog_of_not_one_lt hc]
        rfl

theorem proofLoop_buildLoop : ∀ (fuel : Nat) (l : List Hash) (i : Nat),
    Nat.clog 2 l.length ≤ fuel →
    MerkleTree.proofLoop (MerkleTree.buildLoop fuel l).dropLast i
      = path hashPair (Nat.clog 2 l.length) l i := by
  intro fuel
  induction fuel with
  | zero =>
      intro l i hf
      have h0 : Nat.clog 2 l.length = 0 := by omega
      simp [MerkleTree.buildLoop, MerkleTree.proofLoop, h0, path]
  | succ fuel ih =>
      intro l i hf
      unfold MerkleTree.buildLoop
      by_cases hc : 1 < l.length
      · rw [if_pos hc, List.dropLast_cons_of_ne_nil (buildLoop_ne_nil _ _),
          clog_nextLevel hashPair hc]
        simp only [MerkleTree.proofLoop, path, ih _ _ (fuel_nextLevel hc hf)]
      · rw [if_neg hc, clog_of_not_one_lt hc]
        rfl

/-- The tree of a non-empty list, without the special case for one leaf. -/
theorem build_levels {l : List Hash} (h : l ≠ []) :
    (MerkleTree.build l).levels = MerkleTree.buildLoop l.length l := by
  unfold MerkleTree.build
  rw [if_neg h]
  by_cases h1 : l.length = 1
  · rw [if_pos h1, h1]
    simp [MerkleTree.buildLoop, h1]
  · rw [if_neg h1]

/-- **The root is the one node `⌈log₂ n⌉` levels above the leaves.** -/
theorem level_eq_root {l : List Hash} (h : l ≠ []) :
    level hashPair (Nat.clog 2 l.length) l = [(MerkleTree.build l).root] := by
  obtain ⟨r, hr⟩ := List.length_eq_one_iff.mp (level_clog_length hashPair h)
  rw [hr, MerkleTree.root, build_levels h, buildLoop_getLast? _ _ (clog_le_self _), hr]
  rfl

theorem generateProof_build {l : List Hash} (h : l ≠ []) (i : Nat) :
    (MerkleTree.build l).generateProof i = path hashPair (Nat.clog 2 l.length) l i := by
  unfold MerkleTree.generateProof
  rw [build_levels h, buildLoop_length _ _ (clog_le_self _)]
  by_cases h0 : Nat.clog 2 l.length + 1 ≤ 1
  · rw [if_pos h0, show Nat.clog 2 l.length = 0 by omega]
    rfl
  · rw [if_neg h0]
    exact proofLoop_buildLoop _ _ _ (clog_le_self _)

/-! ### The walk -/

theorem merkleWalk_eq_climb (i : Nat) : ∀ (p : List Hash) (k : Nat) (x : Hash),
    merkleWalk i k x p = climb hashPair (i >>> k) x p := by
  intro p
  induction p with
  | nil => intro k x; rfl
  | cons s p ih =>
      intro k x
      have hbit : (i >>> k) &&& 1 = (i >>> k) % 2 := Nat.and_one_is_mod _
      have hshift : (i >>> k) / 2 = i >>> (k + 1) := (Nat.shiftRight_succ i k).symm
      simp only [merkleWalk, climb, ordered, hbit, hshift]
      split
      · exact ih _ _
      · exact ih _ _

/-- The verifier's checks in one line; a single leaf is no special case. -/
theorem verifyForTree_iff_walk {h : Hash} {i : Nat} {p : List Hash} {r : Hash} {n : Nat} :
    verifyMerkleProofBytesForTree h i p r n = true ↔
      i < n ∧ p.length = expectedProofDepth n ∧ merkleWalk i 0 h p = r := by
  unfold verifyMerkleProofBytesForTree
  by_cases h0 : n = 0
  · simp [h0]
  by_cases hi : n ≤ i
  · simp [h0, hi, Nat.not_lt.mpr hi]
  by_cases hp : p.length = expectedProofDepth n
  · by_cases h1 : n = 1
    · obtain rfl : p = [] := by simpa [h1, expectedProofDepth] using hp
      simp [hp, h1, merkleWalk]
    · simp [h0, hi, h1, hp, verifyMerkleProofBytes, verifyMerkleProof, Nat.lt_of_not_le hi]
  · simp [h0, hi, hp]

theorem verifyForTree_iff {h : Hash} {i : Nat} {p : List Hash} {r : Hash} {n : Nat}
    (hn : n < 2 ^ 32) : verifyMerkleProofBytesForTree h i p r n = true ↔
      i < n ∧ p.length = Nat.clog 2 n ∧ climb hashPair i h p = r := by
  rw [verifyForTree_iff_walk, expectedProofDepth_eq_clog hn, merkleWalk_eq_climb]
  rfl

/-- A proof for one leaf count proves for another as long as the depth is the same. -/
theorem verifyForTree_recount {h : Hash} {i : Nat} {p : List Hash} {r : Hash} {n : Nat}
    (hverify : verifyMerkleProofBytesForTree h i p r n = true) (m : Nat) :
    verifyMerkleProofBytesForTree h i p r m = true ↔
      i < m ∧ expectedProofDepth m = expectedProofDepth n := by
  obtain ⟨-, hlength, hwalk⟩ := verifyForTree_iff_walk.mp hverify
  rw [verifyForTree_iff_walk, hlength]
  constructor
  · rintro ⟨hi, hdepth, -⟩
    exact ⟨hi, hdepth.symm⟩
  · rintro ⟨hi, hdepth⟩
    exact ⟨hi, hdepth.symm, hwalk⟩

/-! ### Completeness, uniqueness, recovery of the leaves -/

theorem verify_own_proof {l : List Hash} {i : Nat} {h : Hash} {p : List Hash}
    (hlen : l.length < 2 ^ 32) (hh : l[i]? = some h)
    (hp : (MerkleTree.build l).generateProof i = some p) :
    verifyMerkleProofBytesForTree h i p (MerkleTree.build l).root l.length = true := by
  obtain ⟨hi, -⟩ := List.getElem?_eq_some_iff.mp hh
  have hne : l ≠ [] := List.ne_nil_of_length_pos (by omega)
  rw [generateProof_build hne] at hp
  obtain ⟨q, hq, hqlen⟩ := path_isSome hashPair (Nat.clog 2 l.length) l i hi
  obtain rfl : q = p := by rw [hq] at hp; simpa using hp
  refine (verifyForTree_iff hlen).mpr ⟨hi, hqlen, ?_⟩
  have hclimb := climb_path hashPair _ l i h q hh hq
  have hdiv : i / 2 ^ Nat.clog 2 l.length = 0 :=
    Nat.div_eq_of_lt (Nat.lt_of_lt_of_le hi (Nat.le_pow_clog (by decide) _))
  rw [level_eq_root hne, hdiv] at hclimb
  simpa using hclimb.symm

theorem verify_unique {l : List Hash} {i : Nat} {h : Hash} {p : List Hash}
    (hlen : l.length < 2 ^ 32)
    (hv : verifyMerkleProofBytesForTree h i p (MerkleTree.build l).root l.length = true) :
    (l[i]? = some h ∧ (MerkleTree.build l).generateProof i = some p) ∨
      Collision (walkPreimages i h p ++ treePreimages l) := by
  obtain ⟨hi, hplen, hroot⟩ := (verifyForTree_iff hlen).mp hv
  have hne : l ≠ [] := List.ne_nil_of_length_pos (by omega)
  have hdiv : i / 2 ^ Nat.clog 2 l.length = 0 :=
    Nat.div_eq_of_lt (Nat.lt_of_lt_of_le hi (Nat.le_pow_clog (by decide) _))
  have hnode : (level hashPair (Nat.clog 2 l.length) l)[i / 2 ^ Nat.clog 2 l.length]?
      = some (climb hashPair i h p) := by
    rw [level_eq_root hne, hdiv, hroot]
    rfl
  rcases climb_unique _ l i h p hi hplen hnode with ⟨hh, hp⟩ | hclash
  · exact Or.inl ⟨hh, by rw [generateProof_build hne]; exact hp⟩
  · refine Or.inr ?_
    rw [walkPreimages, treePreimages, ← List.map_append]
    exact collision_of_clash hclash

/-- **A root and a leaf count fix the leaves.** -/
theorem build_root_inj {l l' : List Hash} (hlen : l.length = l'.length)
    (hroot : (MerkleTree.build l).root = (MerkleTree.build l').root) :
    l = l' ∨ Collision (treePreimages l ++ treePreimages l') := by
  by_cases hne : l = []
  · subst hne
    exact Or.inl (List.length_eq_zero_iff.mp hlen.symm).symm
  have hne' : l' ≠ [] := by
    rintro rfl
    exact hne (List.length_eq_zero_iff.mp hlen)
  have hlevel : level hashPair (Nat.clog 2 l.length) l
      = level hashPair (Nat.clog 2 l.length) l' := by
    rw [level_eq_root hne, hroot, hlen, level_eq_root hne']
  rcases level_inj _ l l' hlen hlevel with heq | hclash
  · exact Or.inl heq
  · refine Or.inr ?_
    rw [treePreimages, treePreimages, ← hlen, ← List.map_append]
    exact collision_of_clash hclash

/--
**The strict verifier accepts exactly the tree's own leaf with its own proof.**
The one escape is a pair of different 64-byte strings with one digest, one of
which the tree or the walk hashed and the other one as well.
-/
theorem verifyForTree_build_iff (L : List Hash) (hlen : L.length ≤ 2 ^ 32 - 1) (h : Hash) (i : Nat)
    (p : List Hash) :
    (i < L.length ∧ L[i]? = some h ∧ (MerkleTree.build L).proofBytes i = some p →
      verifyMerkleProofBytesForTree h i p (MerkleTree.build L).root L.length = true) ∧
    (verifyMerkleProofBytesForTree h i p (MerkleTree.build L).root L.length = true →
      (i < L.length ∧ L[i]? = some h ∧ (MerkleTree.build L).proofBytes i = some p) ∨
      ∃ x ∈ walkPreimages i h p ++ treePreimages L,
        ∃ y ∈ walkPreimages i h p ++ treePreimages L,
          x.length = 64 ∧ y.length = 64 ∧ x ≠ y ∧ Blake3.hash x = Blake3.hash y) := by
  have hlt : L.length < 2 ^ 32 := by omega
  refine ⟨fun ⟨_, hh, hp⟩ => verify_own_proof hlt hh hp, fun hv => ?_⟩
  have hi : i < L.length := ((verifyForTree_iff hlt).mp hv).1
  rcases verify_unique hlt hv with ⟨hh, hp⟩ | ⟨x, hx, y, hy, hne, heq⟩
  · exact Or.inl ⟨hi, hh, hp⟩
  · have h64 : ∀ s ∈ walkPreimages i h p ++ treePreimages L, s.length = 64 := by
      intro s hs
      rcases List.mem_append.mp hs with hs | hs
      · exact walkPreimages_length hs
      · exact treePreimages_length hs
    exact Or.inr ⟨x, hx, y, hy, h64 x hx, h64 y hy, hne, heq⟩

end

/-- The last of three leaves is its own sibling. -/
theorem verifyForTree_build_three :
    letI := Blake3.reference
    [Hash.fill 1, Hash.fill 2, Hash.fill 3].length ≤ 2 ^ 32 - 1 ∧
    verifyMerkleProofBytesForTree (Hash.fill 3) 2
      [Hash.fill 3, hashPair (Hash.fill 1) (Hash.fill 2)]
      (MerkleTree.build [Hash.fill 1, Hash.fill 2, Hash.fill 3]).root 3 = true := by
  let _ := Blake3.reference
  refine ⟨by decide, ?_⟩
  exact (verifyForTree_build_iff [Hash.fill 1, Hash.fill 2, Hash.fill 3] (by decide)
    (Hash.fill 3) 2 _).1 ⟨by decide, rfl, rfl⟩

end Snip
