/-
What a validated push establishes.

The row a push is checked against may come from the cache, so what is known of a
row is what is known of every answer the chain gave before.  With a chain that
never changes a file's chunk count, a cached row is as good as a fresh one.
-/
import Snip.Node.PushValidator

namespace Snip

/-- What the chain registers under a root for good: chunk count and visibility. -/
abbrev Registry := Hash → Option (Nat × VisibilityV2)

/-- The row is the registered one; a chunk count is a 32-bit number. -/
def Registry.Row (chain : Registry) (root : Hash) (info : StorageFileInfoV2) : Prop :=
  chain root = some (info.chunkCount, info.visibility) ∧ info.chunkCount < 2 ^ 32

/-- Every row the chain answers with is the registered one. -/
def ChainRpc.Agrees (rpc : ChainRpc) (chain : Registry) : Prop :=
  ∀ root info, rpc.fileInfoV2 root = .ok (some info) → chain.Row root info

namespace PushValidator

variable {chain : Registry} {rpc : ChainRpc}

/-- Every cached row is the registered one. -/
def Agrees (v : PushValidator) (chain : Registry) : Prop :=
  v.fileInfo.Holds chain.Row

theorem new_agrees (myAddr : Addr) (params : V2Params) (chain : Registry) :
    (PushValidator.new myAddr params).Agrees chain :=
  Lru.holds_empty 256

theorem fetchFileInfo_agrees {v : PushValidator} (hv : v.Agrees chain) (hrpc : rpc.Agrees chain)
    (root : Hash) : (v.fetchFileInfo rpc root).1.Agrees chain ∧
      ∀ info, (v.fetchFileInfo rpc root).2 = .ok info → chain.Row root info := by
  unfold fetchFileInfo
  cases hpeek : v.fileInfo.peek root with
  | some info =>
      refine ⟨hv.touch root, fun info' h => ?_⟩
      obtain rfl : info = info' := Except.ok.inj h
      exact hv.peek hpeek
  | none =>
      cases hanswer : rpc.fileInfoV2 root with
      | error e => exact ⟨hv, fun _ h => by cases h⟩
      | ok answer =>
          cases answer with
          | none => exact ⟨hv, fun _ h => by cases h⟩
          | some info =>
              by_cases htext : decodeRootHex info.merkleRoot ≠ some root
              · simp only [if_pos htext]
                exact ⟨hv, fun _ h => by cases h⟩
              · simp only [if_neg htext]
                refine ⟨hv.put (hrpc root info hanswer), fun info' h => ?_⟩
                obtain rfl : info = info' := Except.ok.inj h
                exact hrpc root info hanswer

/-! ### What the other steps leave alone -/

/-- Same archive. -/
structure SameSelf (v w : PushValidator) : Prop where
  myAddr : w.myAddr = v.myAddr
  params : w.params = v.params

theorem SameSelf.trans {u v w : PushValidator} (h : SameSelf u v) (k : SameSelf v w) :
    SameSelf u w :=
  ⟨k.myAddr.trans h.myAddr, k.params.trans h.params⟩

/-- Same archive, same cached rows. -/
structure SameRows (v w : PushValidator) : Prop extends SameSelf v w where
  fileInfo : w.fileInfo = v.fileInfo

theorem SameRows.trans {u v w : PushValidator} (h : SameRows u v) (k : SameRows v w) :
    SameRows u w :=
  ⟨h.toSameSelf.trans k.toSameSelf, k.fileInfo.trans h.fileInfo⟩

theorem SameRows.agrees {v w : PushValidator} (h : SameRows v w) (hv : v.Agrees chain) :
    w.Agrees chain := by
  unfold Agrees
  rw [h.fileInfo]
  exact hv

theorem fetchFileInfo_self (rpc : ChainRpc) (v : PushValidator) (root : Hash) :
    SameSelf v (v.fetchFileInfo rpc root).1 := by
  unfold fetchFileInfo
  split
  · exact ⟨rfl, rfl⟩
  · split
    · exact ⟨rfl, rfl⟩
    · exact ⟨rfl, rfl⟩
    · split
      · exact ⟨rfl, rfl⟩
      · exact ⟨rfl, rfl⟩

theorem fetchSnapshot_same (rpc : ChainRpc) (v : PushValidator) (height : Nat) :
    SameRows v (v.fetchSnapshot rpc height).1 := by
  unfold fetchSnapshot
  cases v.snapshot.peek height with
  | some snap => exact ⟨⟨rfl, rfl⟩, rfl⟩
  | none =>
      cases rpc.activeNodesAtHeight height with
      | error e => exact ⟨⟨rfl, rfl⟩, rfl⟩
      | ok raw =>
          dsimp only
          cases decodeSnapshot raw with
          | none => exact ⟨⟨rfl, rfl⟩, rfl⟩
          | some snap => exact ⟨⟨rfl, rfl⟩, rfl⟩

theorem readEpoch_same (rpc : ChainRpc) (v : PushValidator) (storedAt : Nat) (root : Hash)
    (info : StorageFileInfoV2) : SameRows v (v.readEpoch rpc storedAt root info).1 := by
  unfold readEpoch
  cases rpc.latestAssignmentEpoch root with
  | error e => exact ⟨⟨rfl, rfl⟩, rfl⟩
  | ok latest =>
      dsimp only
      split
      · exact ⟨⟨rfl, rfl⟩, rfl⟩
      · exact ⟨⟨rfl, rfl⟩, rfl⟩

theorem assignmentEpoch_same (rpc : ChainRpc) (v : PushValidator) (lookedUpAt storedAt : Nat) (root : Hash)
    (info : StorageFileInfoV2) (maxAge : Nat) :
    SameRows v (v.assignmentEpoch rpc lookedUpAt storedAt root info maxAge).1 := by
  have htouched : SameRows v { v with epochs := v.epochs.touch root } := ⟨⟨rfl, rfl⟩, rfl⟩
  unfold assignmentEpoch
  cases v.epochs.peek root with
  | none => exact readEpoch_same rpc v storedAt root info
  | some entry =>
      by_cases hage : lookedUpAt - entry.2 < maxAge
      · simp only [if_pos hage]
        exact htouched
      · simp only [if_neg hage]
        exact htouched.trans (readEpoch_same rpc _ storedAt root info)

section

variable [AssignmentScore]

theorem checkAssigned_same (rpc : ChainRpc) (v : PushValidator) (root : Hash) (epoch chunkIndex : Nat) :
    SameRows v (v.checkAssigned rpc root epoch chunkIndex).1 := by
  have hsame := fetchSnapshot_same rpc v epoch
  unfold checkAssigned
  split
  · rename_i h
    rw [h] at hsame
    exact hsame
  · rename_i h
    rw [h] at hsame
    split
    · exact hsame
    · split
      · exact hsame
      · exact hsame

theorem checkAssignment_same (rpc : ChainRpc) (v : PushValidator) (clock : Nat → Nat) (root : Hash)
    (info : StorageFileInfoV2) (chunkIndex : Nat) :
    SameRows v (v.checkAssignment rpc clock root info chunkIndex).1 := by
  have hsame := assignmentEpoch_same rpc v (clock 0) (clock 1) root info v.epochTtl
  unfold checkAssignment
  split
  · rename_i h
    rw [h] at hsame
    exact hsame
  · rename_i u epoch readNow h
    rw [h] at hsame
    have hfirst := hsame.trans (checkAssigned_same rpc u root epoch chunkIndex)
    split
    · rename_i h1
      rw [h1] at hfirst
      exact hfirst
    · rename_i w refused h1
      rw [h1] at hfirst
      by_cases hretry : (refused.isAssignment && !readNow) = true
      · rw [if_pos hretry]
        have hsecond := hfirst.trans
          (assignmentEpoch_same rpc w (clock 2) (clock 3) root info w.epochRecheckMin)
        split
        · rename_i h2
          rw [h2] at hsecond
          exact hsecond
        · rename_i h2
          rw [h2] at hsecond
          split
          · exact hsecond
          · exact hsecond.trans (checkAssigned_same rpc _ _ _ _)
      · rw [if_neg hretry]
        exact hfirst

/--
**A validated push was checked against the registered row.**  The leaf is the
digest of the bytes, and its proof passed the strict verifier with the chain's
chunk count.
-/
theorem validatePush_spec [Blake3] {v : PushValidator} (hv : v.Agrees chain)
    (hrpc : rpc.Agrees chain) (clock : Nat → Nat) (root : Hash) (i : Nat) (data : Bytes)
    (path : List Hash) :
    (v.validatePush rpc clock root i data path).1.Agrees chain ∧
    ∀ pushed, (v.validatePush rpc clock root i data path).2 = .ok pushed →
      ∃ n, chain root = some (n, pushed.visibility) ∧ n < 2 ^ 32 ∧
        pushed.leafHash = Blake3.hash data ∧
        verifyMerkleProofBytesForTree (Blake3.hash data) i path root n = true := by
  obtain ⟨hagrees, hrow⟩ := fetchFileInfo_agrees hv hrpc root
  unfold validatePush
  dsimp only
  split
  · rename_i h
    rw [h] at hagrees
    exact ⟨hagrees, fun _ hp => by cases hp⟩
  · rename_i w info h
    rw [h] at hagrees hrow
    have hinfo : chain.Row root info := hrow info rfl
    split
    · exact ⟨hagrees, fun _ hp => by cases hp⟩
    split
    · exact ⟨hagrees, fun _ hp => by cases hp⟩
    split
    · exact ⟨hagrees, fun _ hp => by cases hp⟩
    have hsame := checkAssignment_same rpc w clock root info i
    split
    · rename_i h2
      rw [h2] at hsame
      exact ⟨hsame.agrees hagrees, fun _ hp => by cases hp⟩
    · rename_i h2
      rw [h2] at hsame
      by_cases hproof : verifyMerkleProofBytesForTree (Blake3.hash data) i path root
          info.chunkCount = true
      · simp only [hproof, Bool.not_true, Bool.false_eq_true, if_false]
        refine ⟨hsame.agrees hagrees, fun pushed hp => ?_⟩
        obtain rfl := Except.ok.inj hp
        exact ⟨info.chunkCount, hinfo.1, hinfo.2, rfl, hproof⟩
      · simp only [hproof, Bool.not_false, if_true]
        exact ⟨hsame.agrees hagrees, fun _ hp => by cases hp⟩

/-- Validation changes the caches only. -/
theorem validatePush_self [Blake3] (rpc : ChainRpc) (v : PushValidator) (clock : Nat → Nat) (root : Hash)
    (i : Nat) (data : Bytes) (path : List Hash) :
    SameSelf v (v.validatePush rpc clock root i data path).1 := by
  have hfetch := fetchFileInfo_self rpc v root
  unfold validatePush
  dsimp only
  split
  · rename_i h
    rw [h] at hfetch
    exact hfetch
  · rename_i w info h
    rw [h] at hfetch
    have hsame := (checkAssignment_same rpc w clock root info i).toSameSelf
    split
    · exact hfetch
    split
    · exact hfetch
    split
    · exact hfetch
    split
    · rename_i h2
      rw [h2] at hsame
      exact hfetch.trans hsame
    · rename_i h2
      rw [h2] at hsame
      split
      · exact hfetch.trans hsame
      · exact hfetch.trans hsame

end

end PushValidator

end Snip
