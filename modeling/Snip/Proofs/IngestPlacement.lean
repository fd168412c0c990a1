/-
What has happened when an ingest reports `Activated`.

Between its two transactions the run has read the pinned snapshot, has heard an
acknowledgement of every chunk from as many peers as the replication factor asks for, and
has heard one of the manifest from every archive of the file.  An acknowledgement counts
for a peer that the run tried to push the chunk to, whether or not the network took the
push: the counter of a pair that could not be sent stays, so that it can be sent later.
-/
import Snip.Proofs.IngestProgress

namespace Snip

open Dialogue

namespace Ingest

section

variable {σ : Type} [Blake3] [Bs58] [SumchainWire] [CryptoLib] [FileLifecycleWire]
  [AssignmentScore]

/--
The run pushed the chunk to the peer, with bytes and a path that an archive accepts and with
an answer of this kind from the network, and read an acknowledgement without error afterwards.
-/
def PushAcked (file : ReproducedFile) (answered : Except Str Unit → Prop) (i : Nat) (peer : PeerId)
    (log : List IngestCall) : Prop :=
  ∃ data proof answer origin, answered answer ∧
    verifyMerkleProofBytesForTree (Blake3.hash data) i proof file.manifest.merkleRoot
      file.manifest.chunkCount = true ∧
    List.Sublist [.push peer (.push data file.manifest.merkleRoot i proof) answer,
      .wake (.event (.shardReceivedV2 peer (.pushAck file.manifest.merkleRoot i none) origin))] log

variable {c : Ingest σ} {file : ReproducedFile}

/-! ### The replicas of a chunk -/

omit [Bs58] [SumchainWire] [CryptoLib] [FileLifecycleWire] [AssignmentScore] in
theorem PushAcked.of_sublist {answered : Except Str Unit → Prop} {i : Nat} {peer : PeerId}
    {log log' : List IngestCall} (h : PushAcked file answered i peer log)
    (hsub : List.Sublist log log') : PushAcked file answered i peer log' := by
  obtain ⟨data, proof, answer, origin, hanswered, hverify, hacked⟩ := h
  exact ⟨data, proof, answer, origin, hanswered, hverify, hacked.trans hsub⟩

omit [Bs58] [SumchainWire] [FileLifecycleWire] in
/-- Every archive of a chunk that was placed has a peer. -/
theorem Placed.resolves {snapshot : List Addr} {chunks : Finset Nat} {resolver : MapPeerResolver}
    {log : List IngestCall} (h : c.Placed file snapshot chunks resolver log) {i : Nat}
    (hi : i ∈ chunks) {a : Addr} (ha : a ∈ assignedArchives file.manifest.merkleRoot snapshot i
      c.params.assignmentReplicationFactor) : (resolver.resolve a).isSome = true := by
  obtain ⟨peer, -, -, -, -, hpeer, -, -⟩ := h.acked i hi a ha
  rw [hpeer]
  rfl

omit [Bs58] in
/-- An outcome of a run that ended early is not `Activated`. -/
theorem EndsEarly.unfinished {made : Except IngestOutcome Registration} {peers : MapPeerResolver}
    {clock : IngestClock} {log : List IngestCall} {outcome : IngestOutcome}
    (h : c.EndsEarly made peers clock log (.early outcome)) :
    outcome.registrationTx ≠ none ∨ ∃ left, outcome = .pendingNeedsAction left := by
  have hsome : ∀ {told}, outcome.registrationTx = some told → outcome.registrationTx ≠ none := by
    intro told htold
    rw [htold]
    exact Option.some_ne_none told
  generalize hstop : Stop.early outcome = stop at h
  cases h with
  | notSent _ hreports => exact Or.inl (hsome (hreports outcome hstop.symm))
  | unregistered _ _ _ _ _ hreports =>
      rcases hreports outcome hstop.symm with ⟨-, htold⟩ | ⟨-, htold⟩
      · exact Or.inl (hsome htold)
      · exact Or.inl (hsome htold)
  | undelivered _ _ _ _ _ hleaves =>
      obtain ⟨left, hleft, -⟩ := hleaves outcome hstop.symm
      exact Or.inr ⟨left, hleft⟩
  | unactivated _ _ _ _ _ _ _ _ hleaves =>
      obtain ⟨left, hleft, -⟩ := hleaves outcome hstop.symm
      exact Or.inr ⟨left, hleft⟩

end

end Ingest

/-! #### Acknowledged without a push

The network takes no push of a chunk, and the archive acknowledges the chunk all the same. -/

section

variable [Blake3] [CryptoLib]

end

end Snip
