/-
Nonces and answered challenges of a node that signs from two tasks.

A task asks for the next nonce and sends later, and nothing keeps another
transaction from being sent in between.  Where each question finds every earlier
transaction included and the other task without a nonce in hand, the nonces are
distinct over every run.

What the worker remembers of its answers is what the RPC took, not what the chain
included: `responded` holds the ids of the last `MAX_RESPONDED` proofs that were
taken.  A poll therefore answers exactly the challenges that have no live proof
where that list and the live proofs agree, and nowhere else.
-/
import Snip.Lib.Lists
import Snip.Node.PorWorker
import Snip.Store.Chunker
import Snip.Proofs.Acceptance
import Snip.Blake3

namespace Snip

/-! ### What a move can do -/

/-- The nonce the worker is going to send with. -/
def PorPhase.holds : PorPhase → Option Nat
  | .chainId _ _ n _ => some n
  | .send _ tx _ => some tx.nonce
  | _ => none

/-- The nonce the run is going to send its next batch with, if there is one more. -/
def AttestPhase.holds : AttestPhase → Option Nat
  | .send _ n _ _ => some n
  | .wait _ n (_ :: _) => some (n + 1)
  | _ => none

/-- The run is at the question for the nonce of a batch; one with no batch asks and sends nothing. -/
def AttestPhase.asks : AttestPhase → Bool
  | .nonce _ (_ :: _) => true
  | _ => false

/-- The turns of challenges that the poll has not ended. -/
def PorPhase.turnsLeft : PorPhase → Nat
  | .asleep => 0
  | .polling _ rest | .nonce _ _ rest | .chainId _ _ _ rest | .send _ _ rest => rest.length + 1

@[simp] theorem PorPhase.holds_after (rest : List ChallengeInfo) :
    (PorPhase.after rest).holds = none := by
  cases rest with
  | nil => rfl
  | cons c rest => rfl

@[simp] theorem PorPhase.turnsLeft_after (rest : List ChallengeInfo) :
    (PorPhase.after rest).turnsLeft = rest.length := by
  cases rest with
  | nil => rfl
  | cons c rest => rfl

@[simp] theorem AttestPhase.holds_after (merkleRoot : Hash) (nonce : Nat)
    (batches : List (List Nat)) :
    (AttestPhase.after merkleRoot nonce batches).holds
      = if batches = [] then none else some nonce := by
  cases batches with
  | nil => rfl
  | cons batch rest => rfl

@[simp] theorem AttestPhase.holds_wait (merkleRoot : Hash) (nonce : Nat)
    (batches : List (List Nat)) :
    (AttestPhase.wait merkleRoot nonce batches).holds
      = if batches = [] then none else some (nonce + 1) := by
  cases batches with
  | nil => rfl
  | cons batch rest => rfl

/-- A move of the worker. -/
def SigningLabel.isPor : SigningLabel → Bool
  | .porPoll _ | .porConsider _ | .porNonce _ | .porChainId _ | .porSend _ => true
  | _ => false

/-- A move that is neither the start of another poll nor a failed RPC call of this one. -/
def SigningLabel.InPoll : SigningLabel → Prop
  | .porPoll _ | .porNonce (.error _) | .porChainId (.error _) | .porSend (.error _) => False
  | _ => True

namespace SigningNode

/-- The ids of the challenges whose proofs the RPC took, oldest first. -/
def answered (s : SigningNode) : List Str := s.submitted.filterMap Submission.challengeId

/-- Everything one move can do. -/
inductive Effect (s : SigningNode) : SigningLabel → SigningNode → Prop
  /-- The worker moves on without a transaction. -/
  | por (l : SigningLabel) (phase : PorPhase) (hl : l.isPor = true)
      (hholds : phase.holds = none ∨ phase.holds = s.por.holds ∨
        ∃ nonce, l = .porNonce (.ok nonce) ∧ phase.holds = some nonce)
      (hturns : phase.turnsLeft ≤ s.por.turnsLeft ∨ ∃ challenges, l = .porPoll challenges) :
      Effect s l { s with por := phase }
  /-- The attestation moves on without a transaction. -/
  | attest (l : SigningLabel) (phase : AttestPhase)
      (hholds : phase.holds = none ∨ phase.holds = s.attestor.holds ∨
        ∃ nonce, l = .attestNonce (.ok nonce) ∧ s.attestor.asks = true ∧ phase.holds = some nonce) :
      Effect s l { s with attestor := phase }
  | proof (challenge : ChallengeInfo) (tx : Tx) (rest : List ChallengeInfo)
      (hphase : s.por = .send challenge tx rest) :
      Effect s (.porSend (.ok ())) { s.submit tx (some challenge.challengeId) with
        responded := pushResponded s.responded challenge.challengeId, por := .after rest }
  | batch (tx : Tx) (phase : AttestPhase) (hholds : s.attestor.holds = some tx.nonce)
      (hnext : phase.holds = none ∨ phase.holds = some (tx.nonce + 1)) :
      Effect s (.attestSend (.ok ())) { s.submit tx none with attestor := phase }
  | included (i : Nat) (tx : Tx) (hget : s.pending[i]? = some tx) :
      Effect s (.includeTx i)
        { s with pending := s.pending.eraseIdx i, included := s.included ++ [tx] }
  | discarded (i : Nat) (tx : Tx) (hget : s.pending[i]? = some tx) :
      Effect s (.discardTx i) { s with pending := s.pending.eraseIdx i }

section

variable [Blake3]

theorem effect_consider (s : SigningNode) (store : SumStore) {c : ChallengeInfo}
    {rest : List ChallengeInfo} (hphase : s.por = .polling c rest) :
    Effect s (.porConsider store) (s.consider store c rest) := by
  have hturns : s.por.turnsLeft = rest.length + 1 := by
    rw [hphase]
    rfl
  unfold consider
  split
  · exact .por _ _ rfl (Or.inl (PorPhase.holds_after rest)) (Or.inl (by simp [hturns]))
  · split
    · exact .por _ _ rfl (Or.inl (PorPhase.holds_after rest)) (Or.inl (by simp [hturns]))
    · exact .por _ _ rfl (Or.inl rfl) (Or.inl (Nat.le_of_eq hturns.symm))

/-- **Every move is one of these.** -/
theorem effect_of_step [AssignmentScore] {config : AttestorConfig} {s t : SigningNode} {l : SigningLabel}
    (h : s.step config l = some t) : Effect s l t := by
  cases l with
  | porPoll challenges =>
      unfold step at h
      cases hphase : s.por with
      | asleep =>
          cases challenges with
          | error e =>
              simp only [hphase, Option.some.injEq] at h
              subst h
              exact .por _ s.por rfl (Or.inr (Or.inl rfl)) (Or.inl (Nat.le_refl _))
          | ok challenges =>
              simp only [hphase, Option.some.injEq] at h
              subst h
              exact .por _ _ rfl (Or.inl (PorPhase.holds_after _)) (Or.inr ⟨_, rfl⟩)
      | _ => simp [hphase] at h
  | porConsider store =>
      unfold step at h
      cases hphase : s.por with
      | polling c rest =>
          simp only [hphase, Option.some.injEq] at h
          subst h
          exact effect_consider s store hphase
      | _ => simp [hphase] at h
  | porNonce answer =>
      unfold step at h
      cases hphase : s.por with
      | nonce c payload rest =>
          have hturns : s.por.turnsLeft = rest.length + 1 := by
            rw [hphase]
            rfl
          cases answer with
          | error e =>
              simp only [hphase, Option.some.injEq] at h
              subst h
              exact .por _ _ rfl (Or.inl (PorPhase.holds_after rest)) (Or.inl (by simp [hturns]))
          | ok nonce =>
              simp only [hphase, Option.some.injEq] at h
              subst h
              exact .por _ _ rfl (Or.inr (Or.inr ⟨nonce, rfl, rfl⟩))
                (Or.inl (Nat.le_of_eq hturns.symm))
      | _ => simp [hphase] at h
  | porChainId answer =>
      unfold step at h
      cases hphase : s.por with
      | chainId c payload nonce rest =>
          have hturns : s.por.turnsLeft = rest.length + 1 := by
            rw [hphase]
            rfl
          cases answer with
          | error e =>
              simp only [hphase, Option.some.injEq] at h
              subst h
              exact .por _ _ rfl (Or.inl (PorPhase.holds_after rest)) (Or.inl (by simp [hturns]))
          | ok chainId =>
              simp only [hphase, Option.some.injEq] at h
              subst h
              refine .por _ _ rfl (Or.inr (Or.inl ?_)) (Or.inl (Nat.le_of_eq hturns.symm))
              rw [hphase]
              rfl
      | _ => simp [hphase] at h
  | porSend answer =>
      unfold step at h
      cases hphase : s.por with
      | send c tx rest =>
          cases answer with
          | error e =>
              simp only [hphase, Option.some.injEq] at h
              subst h
              refine .por _ _ rfl (Or.inl (PorPhase.holds_after rest)) (Or.inl ?_)
              rw [hphase, PorPhase.turnsLeft_after]
              exact Nat.le_succ _
          | ok u =>
              simp only [hphase, Option.some.injEq] at h
              subst h
              exact .proof c tx rest hphase
      | _ => simp [hphase] at h
  | attestLock merkleRoot held =>
      unfold step at h
      cases hphase : s.attestor with
      | unlocked =>
          simp only [hphase] at h
          split at h
          · cases h
            exact .attest _ s.attestor (Or.inr (Or.inl rfl))
          · cases h
            exact .attest _ _ (Or.inl rfl)
      | _ => simp [hphase] at h
  | attestShape rpc =>
      unfold step at h
      cases hphase : s.attestor with
      | shape merkleRoot held =>
          simp only [hphase] at h
          split at h
          · cases h
            exact .attest _ _ (Or.inl rfl)
          · cases h
            exact .attest _ _ (Or.inl rfl)
      | _ => simp [hphase] at h
  | attestNonce answer =>
      unfold step at h
      cases hphase : s.attestor with
      | nonce merkleRoot batches =>
          cases answer with
          | error e =>
              simp only [hphase, Option.some.injEq] at h
              subst h
              exact .attest _ _ (Or.inl rfl)
          | ok nonce =>
              simp only [hphase, Option.some.injEq] at h
              subst h
              cases batches with
              | nil => exact .attest _ _ (Or.inl rfl)
              | cons batch rest =>
                  refine .attest _ _ (Or.inr (Or.inr ⟨nonce, rfl, ?_, rfl⟩))
                  rw [hphase]
                  rfl
      | _ => simp [hphase] at h
  | attestSend answer =>
      unfold step at h
      cases hphase : s.attestor with
      | send merkleRoot nonce batch rest =>
          cases answer with
          | error e =>
              simp only [hphase, Option.some.injEq] at h
              subst h
              exact .attest _ _ (Or.inl rfl)
          | ok u =>
              simp only [hphase, Option.some.injEq] at h
              subst h
              refine .batch _ _ ?_ ?_
              · rw [hphase]
                rfl
              · cases rest with
                | nil => exact Or.inl rfl
                | cons batch' rest => exact Or.inr rfl
      | _ => simp [hphase] at h
  | attestWait finalized =>
      unfold step at h
      cases hphase : s.attestor with
      | wait merkleRoot nonce rest =>
          simp only [hphase] at h
          split at h
          · cases h
            refine .attest _ _ (Or.inr (Or.inl ?_))
            rw [hphase, AttestPhase.holds_after, AttestPhase.holds_wait]
          · cases h
            exact .attest _ _ (Or.inl rfl)
      | _ => simp [hphase] at h
  | includeTx i =>
      obtain ⟨tx, hget, rfl⟩ := Option.map_eq_some_iff.mp h
      exact .included i tx hget
  | discardTx i =>
      obtain ⟨tx, hget, rfl⟩ := Option.map_eq_some_iff.mp h
      exact .discarded i tx hget

/-! ### One answer -/

section

variable [AssignmentScore] {config : AttestorConfig} {s : SigningNode} {c : ChallengeInfo}
  {rest : List ChallengeInfo} {store : SumStore} {payload : TxPayload}

theorem step_skip (hphase : s.por = .polling c rest) (hold : c.challengeId ∈ s.responded) :
    s.step config (.porConsider store) = some { s with por := .after rest } := by
  unfold step
  simp only [hphase]
  unfold consider
  rw [if_pos hold]

theorem step_consider (hphase : s.por = .polling c rest) (hnew : c.challengeId ∉ s.responded)
    (hproof : proofFor store c = some payload) :
    s.step config (.porConsider store) = some { s with por := .nonce c payload rest } := by
  unfold step
  simp only [hphase]
  unfold consider
  rw [if_neg hnew, hproof]

theorem step_porNonce (hphase : s.por = .nonce c payload rest) (nonce : Nat) :
    s.step config (.porNonce (.ok nonce))
      = some { s with por := .chainId c payload nonce rest } := by
  unfold step
  simp only [hphase]

theorem step_porChainId {nonce : Nat} (hphase : s.por = .chainId c payload nonce rest)
    (chainId : Nat) :
    s.step config (.porChainId (.ok chainId))
      = some { s with por := .send c ⟨chainId, nonce, proofFee, payload⟩ rest } := by
  unfold step
  simp only [hphase]

theorem step_porSend {tx : Tx} (hphase : s.por = .send c tx rest) :
    s.step config (.porSend (.ok ()))
      = some { s.submit tx (some c.challengeId) with
          responded := pushResponded s.responded c.challengeId, por := .after rest } := by
  unfold step
  simp only [hphase]

end

end

/-! ### Nonces -/

/--
The chain: a question for the nonce is answered with the number of included
transactions, and transactions are included in the order of their nonces, none
lost.
-/
def ChainCounts (s : SigningNode) : SigningLabel → Prop
  | .porNonce (.ok nonce) | .attestNonce (.ok nonce) => nonce = s.included.length
  | .includeTx i => (s.pending[i]?).map Tx.nonce = some s.included.length
  | .discardTx _ => False
  | _ => True

/--
A question for the nonce of a transaction finds every transaction sent so far included,
and the other task is not between its own question and its last transaction.
-/
def AsksAlone (s : SigningNode) : SigningLabel → Prop
  | .porNonce (.ok _) => s.pending = [] ∧ s.attestor.holds = none
  | .attestNonce (.ok _) => s.attestor.asks = true → s.pending = [] ∧ s.por.holds = none
  | _ => True

instance (s : SigningNode) : ∀ l, Decidable (s.ChainCounts l)
  | .porNonce (.ok nonce) | .attestNonce (.ok nonce) =>
      inferInstanceAs (Decidable (nonce = s.included.length))
  | .includeTx i => inferInstanceAs (Decidable ((s.pending[i]?).map Tx.nonce = some s.included.length))
  | .discardTx _ => .isFalse id
  | .porPoll _ | .porConsider _ | .porNonce (.error _) | .porChainId _ | .porSend _ | .attestLock ..
  | .attestShape _ | .attestNonce (.error _) | .attestSend _ | .attestWait _ => .isTrue trivial

instance (s : SigningNode) : ∀ l, Decidable (s.AsksAlone l)
  | .porNonce (.ok _) => inferInstanceAs (Decidable (s.pending = [] ∧ s.attestor.holds = none))
  | .attestNonce (.ok _) => inferInstanceAs
      (Decidable (s.attestor.asks = true → s.pending = [] ∧ s.por.holds = none))
  | .porPoll _ | .porConsider _ | .porNonce (.error _) | .porChainId _ | .porSend _ | .attestLock ..
  | .attestShape _ | .attestNonce (.error _) | .attestSend _ | .attestWait _ | .includeTx _
  | .discardTx _ => .isTrue trivial

/-- No two distinct transactions that were sent have one nonce. -/
def NoncesDistinct (s : SigningNode) : Prop :=
  ∀ a ∈ s.submitted, ∀ b ∈ s.submitted, a.tx.nonce = b.tx.nonce → a.tx = b.tx

/-- Every transaction that was sent has a smaller nonce. -/
def Below (s : SigningNode) (nonce : Nat) : Prop := ∀ e ∈ s.submitted, e.tx.nonce < nonce

/-- What holds as long as every question is asked alone. -/
structure NonceInv (s : SigningNode) : Prop where
  nodup : (s.submitted.map fun e => e.tx.nonce).Nodup
  accounted : ∀ e ∈ s.submitted, e.tx ∈ s.pending ∨ e.tx ∈ s.included
  counted : ∀ tx ∈ s.included, tx.nonce < s.included.length
  por : ∀ nonce, s.por.holds = some nonce → s.Below nonce
  attestor : ∀ nonce, s.attestor.holds = some nonce → s.Below nonce
  one : s.por.holds = none ∨ s.attestor.holds = none

theorem nonceInv_start : NonceInv start := by
  constructor <;> simp [start, PorPhase.holds, AttestPhase.holds]

theorem NonceInv.distinct {s : SigningNode} (h : s.NonceInv) : s.NoncesDistinct := by
  intro a ha b hb heq
  rw [List.inj_on_of_nodup_map h.nodup ha hb heq]

/-- With nothing pending, everything sent is below the count. -/
theorem NonceInv.below_count {s : SigningNode} (h : s.NonceInv) (hpending : s.pending = []) :
    s.Below s.included.length := by
  intro e he
  rcases h.accounted e he with hp | hi
  · rw [hpending] at hp
    cases hp
  · exact h.counted _ hi

/-- A transaction with the nonce that was held keeps the nonces distinct. -/
theorem Below.submit_nodup {s : SigningNode} {tx : Tx} (hbelow : s.Below tx.nonce)
    (h : (s.submitted.map fun e => e.tx.nonce).Nodup) (challengeId : Option Str) :
    (((s.submit tx challengeId).submitted).map fun e => e.tx.nonce).Nodup := by
  unfold submit
  rw [List.map_append, List.map_singleton]
  refine List.Nodup.append h (List.nodup_singleton _) ?_
  intro n hn hn'
  obtain ⟨e, he, rfl⟩ := List.mem_map.mp hn
  have hlt := hbelow e he
  rw [List.mem_singleton.mp hn'] at hlt
  exact Nat.lt_irrefl _ hlt

theorem NonceInv.submit_accounted {s : SigningNode} (h : s.NonceInv) (tx : Tx)
    (challengeId : Option Str) :
    ∀ e ∈ (s.submit tx challengeId).submitted,
      e.tx ∈ (s.submit tx challengeId).pending ∨ e.tx ∈ (s.submit tx challengeId).included := by
  intro e he
  rcases List.mem_append.mp he with he | he
  · rcases h.accounted e he with hp | hi
    · exact Or.inl (List.mem_append_left _ hp)
    · exact Or.inr hi
  · rw [List.mem_singleton.mp he]
    exact Or.inl (List.mem_append_right _ (List.mem_singleton_self tx))

/-- **One move keeps the invariant.** -/
theorem NonceInv.step {s t : SigningNode} {l : SigningLabel} (h : s.NonceInv)
    (heffect : Effect s l t) (hchain : s.ChainCounts l) (halone : s.AsksAlone l) :
    t.NonceInv := by
  cases heffect with
  | por l phase hl hholds hturns =>
      rcases hholds with hnone | hsame | ⟨nonce, rfl, hsome⟩
      · exact ⟨h.nodup, h.accounted, h.counted, by simp [hnone], h.attestor, Or.inl hnone⟩
      · refine ⟨h.nodup, h.accounted, h.counted, ?_, h.attestor, ?_⟩
        · intro n hn
          exact h.por n (hsame ▸ hn)
        · show phase.holds = none ∨ s.attestor.holds = none
          rw [hsame]
          exact h.one
      · obtain ⟨hpending, hother⟩ := halone
        have hcount : nonce = s.included.length := hchain
        refine ⟨h.nodup, h.accounted, h.counted, ?_, h.attestor, Or.inr hother⟩
        intro n hn
        rw [hsome, hcount] at hn
        cases hn
        exact h.below_count hpending
  | attest l phase hholds =>
      rcases hholds with hnone | hsame | ⟨nonce, rfl, hasks, hsome⟩
      · exact ⟨h.nodup, h.accounted, h.counted, h.por, by simp [hnone], Or.inr hnone⟩
      · refine ⟨h.nodup, h.accounted, h.counted, h.por, ?_, ?_⟩
        · intro n hn
          exact h.attestor n (hsame ▸ hn)
        · show s.por.holds = none ∨ phase.holds = none
          rw [hsame]
          exact h.one
      · obtain ⟨hpending, hother⟩ := halone hasks
        have hcount : nonce = s.included.length := hchain
        refine ⟨h.nodup, h.accounted, h.counted, h.por, ?_, Or.inl hother⟩
        intro n hn
        rw [hsome, hcount] at hn
        cases hn
        exact h.below_count hpending
  | proof challenge tx rest hphase =>
      have hheld : s.por.holds = some tx.nonce := by
        rw [hphase]
        rfl
      have hother : s.attestor.holds = none := by
        rcases h.one with hone | hone
        · rw [hone] at hheld
          cases hheld
        · exact hone
      refine ⟨(h.por _ hheld).submit_nodup h.nodup _, h.submit_accounted tx _, h.counted, ?_, ?_,
        Or.inr hother⟩
      · simp
      · intro n hn
        rw [show s.attestor.holds = some n from hn] at hother
        cases hother
  | batch tx phase hheld hnext =>
      have hother : s.por.holds = none := by
        rcases h.one with hone | hone
        · exact hone
        · rw [hone] at hheld
          cases hheld
      refine ⟨(h.attestor _ hheld).submit_nodup h.nodup _, h.submit_accounted tx _, h.counted, ?_,
        ?_, Or.inl hother⟩
      · intro n hn
        rw [show s.por.holds = some n from hn] at hother
        cases hother
      · intro n hn
        obtain rfl : tx.nonce + 1 = n := by
          rcases hnext with hnone | hsome
          · rw [show phase.holds = some n from hn] at hnone
            cases hnone
          · rw [show phase.holds = some n from hn] at hsome
            exact (Option.some.inj hsome).symm
        intro e he
        rcases List.mem_append.mp he with he | he
        · exact Nat.lt_succ_of_lt (h.attestor _ hheld e he)
        · rw [List.mem_singleton.mp he]
          exact Nat.lt_succ_self _
  | included i tx hget =>
      have hnonce : tx.nonce = s.included.length := by
        have hmap : (s.pending[i]?).map Tx.nonce = some s.included.length := hchain
        rw [hget] at hmap
        exact Option.some.inj hmap
      refine ⟨h.nodup, ?_, ?_, h.por, h.attestor, h.one⟩
      · intro e he
        rcases h.accounted e he with hp | hi
        · rcases Lists.mem_eraseIdx_or hget hp with rfl | hp
          · exact Or.inr (List.mem_append_right _ (List.mem_singleton_self _))
          · exact Or.inl hp
        · exact Or.inr (List.mem_append_left _ hi)
      · intro u hu
        rw [List.length_append, List.length_singleton]
        rcases List.mem_append.mp hu with hu | hu
        · exact Nat.lt_succ_of_lt (h.counted u hu)
        · rw [List.mem_singleton.mp hu, hnonce]
          exact Nat.lt_succ_self _
  | discarded i tx hget => exact hchain.elim

section

variable [Blake3] [AssignmentScore]

/-- A move of the node, against a chain that counts. -/
def CountingStep (config : AttestorConfig) (s : SigningNode) (l : SigningLabel)
    (t : SigningNode) : Prop :=
  s.step config l = some t ∧ s.ChainCounts l

/-- A move in which a question for the nonce is asked alone. -/
def LoneStep (config : AttestorConfig) (s : SigningNode) (l : SigningLabel) (t : SigningNode) :
    Prop :=
  CountingStep config s l t ∧ s.AsksAlone l

/--
**Nonces are used once,** in every run in which each question for the nonce is asked
alone.
-/
theorem nonces_distinct_of_lone (config : AttestorConfig) (labels : List SigningLabel)
    (s : SigningNode) (hrun : Run (LoneStep config) start labels s) : s.NoncesDistinct := by
  have hinv : NonceInv s := by
    refine hrun.invariant (P := fun _ s => s.NonceInv) ?_ [] nonceInv_start
    intro past s l t h hstep
    exact h.step (effect_of_step hstep.1.1) hstep.1.2 hstep.2
  exact hinv.distinct

end

/-! #### Two challenges in one poll -/

section

variable [Blake3]

/-- An archive that holds a file with one chunk, the byte 7. -/
def oneChunkStore : SumStore where
  files := (∅ : ChunkStore).insert (cidFromData [7]) [7]
  manifestIdx :=
    ⟨.fresh, (∅ : Map Hash DataManifest).insert (Blake3.hash [7]) (chunkMapped ['f'] [7]), ∅, ∅, ∅, [],
      ∅, ∅, none⟩

/-- A challenge of that chunk. -/
def challengeOf (id : Hash) : ChallengeInfo :=
  ⟨'0' :: 'x' :: hexEncode id.bytes, '0' :: 'x' :: hexEncode (Blake3.hash [7]).bytes, 0⟩

/-- Its proof. -/
def proofOf (id : Hash) : TxPayload :=
  .submitStorageProof id (Blake3.hash [7]) 0 (Blake3.hash [7]) []

omit [Blake3] in
theorem decodeRootHex_0x (h : Hash) : decodeRootHex ('0' :: 'x' :: hexEncode h.bytes) = some h := by
  show (hexDecode (hexEncode h.bytes)).bind Hash.ofBytes? = some h
  rw [hexDecode_hexEncode]
  simp [Hash.ofBytes?, h.size]

theorem proofFor_challengeOf (id : Hash) :
    proofFor oneChunkStore (challengeOf id) = some (proofOf id) := by
  have hanswer : buildAnswer oneChunkStore.manifestIdx oneChunkStore.files (Blake3.hash [7]) 0
      = .ok ⟨Blake3.hash [7], [], .publicManifest⟩ := by
    have hroot : oneChunkStore.manifestIdx.getByMerkleRoot (Blake3.hash [7])
        = some (chunkMapped ['f'] [7]) := AList.lookup_insert _
    have hcid : oneChunkStore.manifestIdx.chunkCid (Blake3.hash [7]) 0
        = some (cidFromData [7]) := by
      have hroot' : oneChunkStore.manifestIdx.byRoot.lookup (Blake3.hash [7])
          = some (chunkMapped ['f'] [7]) := hroot
      unfold ManifestIndex.chunkCid
      rw [hroot']
      rfl
    have hget : oneChunkStore.files.get (cidFromData [7]) = .ok [7] := by
      have hfile : oneChunkStore.files.lookup (cidFromData [7]) = some [7] := AList.lookup_insert _
      unfold ChunkStore.get
      rw [hfile]
    unfold buildAnswer
    rw [hroot, hcid]
    simp only [hget]
    rfl
  unfold proofFor challengeOf
  rw [decodeRootHex_0x, decodeRootHex_0x]
  simp only [hanswer]
  rfl

end

/-- Any parameters. -/
def someConfig : AttestorConfig := ⟨⟨1, 8⟩, 0, 1, 1⟩

/-- The four moves of an answer. -/
def answerLabels [Blake3] : List SigningLabel :=
  [.porConsider oneChunkStore, .porNonce (.ok 0), .porChainId (.ok 1), .porSend (.ok ())]

/-- The state behind the answer. -/
def answerState [Blake3] (s : SigningNode) (id : Hash) (rest : List ChallengeInfo) : SigningNode :=
  { s.submit ⟨1, 0, proofFee, proofOf id⟩ (some (challengeOf id).challengeId) with
    responded := pushResponded s.responded (challengeOf id).challengeId, por := .after rest }

/-- A challenge whose id is not remembered is answered, here with the nonce 0. -/
theorem run_answer [Blake3] [AssignmentScore] {R : SigningNode → SigningLabel → SigningNode → Prop}
    {s : SigningNode} {id : Hash} {rest : List ChallengeInfo}
    (hR : ∀ s' l t, s'.included = s.included → s'.pending = s.pending →
      s'.attestor = s.attestor → l ∈ answerLabels → s'.step someConfig l = some t → R s' l t)
    (hphase : s.por = .polling (challengeOf id) rest)
    (hnew : (challengeOf id).challengeId ∉ s.responded) :
    Run R s answerLabels (answerState s id rest) := by
  refine .cons (hR _ _ _ rfl rfl rfl (by simp [answerLabels])
    (step_consider hphase hnew (proofFor_challengeOf id))) ?_
  refine .cons (hR _ _ _ rfl rfl rfl (by simp [answerLabels]) (step_porNonce rfl 0)) ?_
  refine .cons (hR _ _ _ rfl rfl rfl (by simp [answerLabels]) (step_porChainId rfl 1)) ?_
  refine .cons (hR _ _ _ rfl rfl rfl (by simp [answerLabels]) (step_porSend rfl)) ?_
  exact .nil _

/-- A poll that lists these challenges. -/
def pollOf [Blake3] (ids : List Hash) : SigningLabel := .porPoll (.ok (ids.map challengeOf))

/-- The archive attests one chunk a transaction. -/
def oneByOne : AttestorConfig := ⟨⟨1, 1⟩, 0, 1, 1⟩

/-- A challenge is answered and the proof included; then a file of two chunks is attested in
two batches, and while the run waits for the second another challenge is answered. -/
def aloneLabels [Blake3] : List SigningLabel :=
  [pollOf [Hash.fill 1], .porConsider oneChunkStore, .porNonce (.ok 0), .porChainId (.ok 1),
    .porSend (.ok ()), .includeTx 0,
    .attestLock Hash.zero [0, 1], .attestShape (soloRpc [(Hash.zero, 2)] 0), .attestNonce (.ok 1), .attestSend (.ok ()),
    .includeTx 0, .attestWait true, .attestSend (.ok ()), .includeTx 0,
    pollOf [Hash.fill 2], .porConsider oneChunkStore, .porNonce (.ok 3), .porChainId (.ok 1),
    .porSend (.ok ()), .attestWait true]

/-- One move of such a run, where it is one. -/
def loneNext [Blake3] [AssignmentScore] (config : AttestorConfig) (s : SigningNode)
    (l : SigningLabel) : Option SigningNode :=
  if s.ChainCounts l ∧ s.AsksAlone l then s.step config l else none

theorem loneStep_of_next [Blake3] [AssignmentScore] {config : AttestorConfig} {s t : SigningNode}
    {l : SigningLabel} (h : loneNext config s l = some t) : LoneStep config s l t := by
  unfold loneNext at h
  split at h
  · rename_i hchain
    exact ⟨⟨h, hchain.1⟩, hchain.2⟩
  · cases h

/-- Two proofs and two attestations, and four nonces. -/
theorem alone_nonces_distinct :
    letI := Blake3.reference
    letI := AssignmentScore.flat
    ∃ s, Run (LoneStep oneByOne) start aloneLabels s ∧
      (s.submitted.map fun e => e.tx.nonce) = [0, 1, 2, 3] ∧
      (s.submitted.filterMap Submission.challengeId).length = 2 ∧ s.NoncesDistinct := by
  let _ := Blake3.reference
  let _ := AssignmentScore.flat
  have hend : ((aloneLabels.foldlM (loneNext oneByOne) start).any fun s =>
      decide ((s.submitted.map fun e => e.tx.nonce) = [0, 1, 2, 3] ∧
        (s.submitted.filterMap Submission.challengeId).length = 2)) = true := by
    decide +kernel
  obtain ⟨s, hs, hend⟩ := (Option.any_eq_true _ _).mp hend
  obtain ⟨hnonces, hproofs⟩ := of_decide_eq_true hend
  have hrun := (Run.of_foldlM hs).mono fun s l t => loneStep_of_next
  exact ⟨s, hrun, hnonces, hproofs, nonces_distinct_of_lone oneByOne _ _ hrun⟩

/-- Of two challenges in one poll, both proofs are sent with the nonce 0. -/
theorem two_challenges_share_a_nonce :
    letI := Blake3.reference
    letI := AssignmentScore.flat
    ∃ labels s, Run (CountingStep someConfig) start labels s ∧ ¬s.NoncesDistinct := by
  let _ := Blake3.reference
  let _ := AssignmentScore.flat
  have hcounts : ∀ s l t, s.included = ([] : List Tx) → l ∈ answerLabels →
      s.step someConfig l = some t → CountingStep someConfig s l t := by
    intro s l t hincluded hl hstep
    simp only [answerLabels, List.mem_cons, List.not_mem_nil, or_false] at hl
    rcases hl with rfl | rfl | rfl | rfl
    · exact ⟨hstep, trivial⟩
    · refine ⟨hstep, ?_⟩
      show 0 = s.included.length
      rw [hincluded]
      rfl
    · exact ⟨hstep, trivial⟩
    · exact ⟨hstep, trivial⟩
  have hpoll : CountingStep someConfig start (pollOf [Hash.fill 1, Hash.fill 2])
      { start with por := .polling (challengeOf (Hash.fill 1)) [challengeOf (Hash.fill 2)] } :=
    ⟨rfl, trivial⟩
  have hfirst := run_answer (s := { start with
      por := .polling (challengeOf (Hash.fill 1)) [challengeOf (Hash.fill 2)] })
    (fun s' l t hincluded _ _ => hcounts s' l t hincluded) rfl (by simp [start])
  have hnew : (challengeOf (Hash.fill 2)).challengeId ∉
      [(challengeOf (Hash.fill 1)).challengeId] := by decide
  have hsecond := run_answer (s := answerState { start with
      por := .polling (challengeOf (Hash.fill 1)) [challengeOf (Hash.fill 2)] } (Hash.fill 1)
        [challengeOf (Hash.fill 2)])
    (fun s' l t hincluded _ _ => hcounts s' l t hincluded) rfl hnew
  refine ⟨_, _, .cons hpoll (hfirst.append hsecond), ?_⟩
  intro hdistinct
  have heq := hdistinct _ (List.mem_cons_self) _ (List.mem_cons_of_mem _ List.mem_cons_self) rfl
  simp only [Tx.mk.injEq, proofOf, TxPayload.submitStorageProof.injEq] at heq
  exact absurd heq.2.2.2.1 (by decide)

/-! ### Challenges -/

/-- The transaction is a proof for the challenge. -/
def answersChallenge (tx : Tx) (c : ChallengeInfo) : Bool :=
  match tx.payload with
  | .submitStorageProof challengeId _ _ _ _ => decodeRootHex c.challengeId = some challengeId
  | .acceptAssignmentV2 _ _ => false

/-- A proof for the challenge is pending or included. -/
def Live (s : SigningNode) (c : ChallengeInfo) : Prop :=
  ∃ tx ∈ s.pending ++ s.included, answersChallenge tx c = true

/-- The ids of the last `MAX_RESPONDED` proofs that the RPC took. -/
def lastAnswered (s : SigningNode) : List Str :=
  s.answered.drop (s.answered.length - maxResponded)

/-- Between `s` and `t` the RPC took a proof for the challenge. -/
def Submits (s t : SigningNode) (c : ChallengeInfo) : Prop :=
  c.challengeId ∈ t.answered.drop s.answered.length

/-! #### What the worker remembers -/

theorem answered_submit_some (s : SigningNode) (tx : Tx) (id : Str) :
    (s.submit tx (some id)).answered = s.answered ++ [id] := by
  unfold answered submit
  rw [List.filterMap_append]
  rfl

theorem answered_submit_none (s : SigningNode) (tx : Tx) :
    (s.submit tx none).answered = s.answered := by
  unfold answered submit
  rw [List.filterMap_append]
  exact List.append_nil _

theorem Effect.answered {s t : SigningNode} {l : SigningLabel} (h : Effect s l t) :
    (t.answered = s.answered ∧ t.responded = s.responded) ∨
      ∃ id, t.answered = s.answered ++ [id] ∧ t.responded = pushResponded s.responded id ∧
        t.por.turnsLeft < s.por.turnsLeft := by
  cases h with
  | proof challenge tx rest hphase =>
      refine Or.inr ⟨challenge.challengeId, answered_submit_some s tx _, rfl, ?_⟩
      show (PorPhase.after rest).turnsLeft < s.por.turnsLeft
      rw [hphase, PorPhase.turnsLeft_after]
      exact Nat.lt_succ_self _
  | batch tx phase hheld hnext => exact Or.inl ⟨answered_submit_none s tx, rfl⟩
  | _ => exact Or.inl ⟨rfl, rfl⟩

theorem Effect.other {s t : SigningNode} {l : SigningLabel} (h : Effect s l t)
    (hl : l.isPor = false) : t.por = s.por ∧ t.answered = s.answered := by
  cases h with
  | por l phase hpor hholds hturns =>
      rw [hl] at hpor
      cases hpor
  | proof challenge tx rest hphase => cases hl
  | batch tx phase hheld hnext => exact ⟨rfl, answered_submit_none s tx⟩
  | _ => exact ⟨rfl, rfl⟩

/-- The list of remembered ids moves on with the log. -/
theorem pushResponded_drop (ids : List Str) (id : Str) :
    pushResponded (ids.drop (ids.length - maxResponded)) id
      = (ids ++ [id]).drop ((ids ++ [id]).length - maxResponded) := by
  have hpos : 0 < maxResponded := by decide
  unfold pushResponded
  rw [List.length_drop, List.length_append, List.length_singleton]
  by_cases hfull : maxResponded ≤ ids.length
  · rw [if_pos (by omega), List.drop_drop, List.drop_append_of_le_length (by omega)]
    rw [show ids.length - maxResponded + 1 = ids.length + 1 - maxResponded by omega]
  · rw [if_neg (by omega), show ids.length - maxResponded = 0 by omega,
      show ids.length + 1 - maxResponded = 0 by omega]
    rfl

section

variable [Blake3] [AssignmentScore]

/-- A move of the node, whatever the chain answers. -/
def Step (config : AttestorConfig) (s : SigningNode) (l : SigningLabel) (t : SigningNode) : Prop :=
  s.step config l = some t

/-- **The worker remembers the last proofs that were taken.** -/
theorem responded_eq {config : AttestorConfig} {labels : List SigningLabel} {s : SigningNode}
    (hrun : Run (Step config) start labels s) : s.responded = s.lastAnswered := by
  refine hrun.invariant (P := fun _ s => s.responded = s.lastAnswered) ?_ [] rfl
  intro past s l t h hstep
  rcases (effect_of_step hstep).answered with ⟨hanswered, hresponded⟩ | ⟨id, hanswered, hpush, -⟩
  · unfold lastAnswered
    rw [hanswered, hresponded]
    exact h
  · unfold lastAnswered at h ⊢
    rw [hpush, h, pushResponded_drop, hanswered]

/-! #### The turn of one challenge -/

/-- A move within a poll whose RPC calls all succeed. -/
def PollStep (config : AttestorConfig) (s : SigningNode) (l : SigningLabel) (t : SigningNode) :
    Prop :=
  s.step config l = some t ∧ l.InPoll

/--
The turn of challenge `c` in a poll whose RPC calls all succeed: from the look at
`responded` up to where the poll is behind it, with any moves of the chain and of
attestations in between.
-/
structure Turn (config : AttestorConfig) (s : SigningNode) (c : ChallengeInfo)
    (rest : List ChallengeInfo) (store : SumStore) (labels : List SigningLabel)
    (t : SigningNode) : Prop where
  phase : s.por = .polling c rest
  run : ∃ u, s.step config (.porConsider store) = some u ∧ Run (PollStep config) u labels t
  done : t.por = .after rest

/-- The poll is at an RPC call for the challenge. -/
def InTurn (c : ChallengeInfo) (rest : List ChallengeInfo) (s : SigningNode) : Prop :=
  (∃ payload, s.por = .nonce c payload rest) ∨
    (∃ payload nonce, s.por = .chainId c payload nonce rest) ∨
    ∃ tx, s.por = .send c tx rest

/-- Behind the turn the poll does not come back, and the log only grows. -/
theorem PollStep.progress {config : AttestorConfig} {s t : SigningNode} {l : SigningLabel}
    (h : PollStep config s l t) :
    t.por.turnsLeft ≤ s.por.turnsLeft ∧ s.answered <+: t.answered ∧
      (t.answered = s.answered ∨ t.por.turnsLeft < s.por.turnsLeft) := by
  have heffect := effect_of_step h.1
  have hle : t.por.turnsLeft ≤ s.por.turnsLeft := by
    cases heffect with
    | por l phase hl hholds hturns =>
        rcases hturns with hturns | ⟨challenges, rfl⟩
        · exact hturns
        · exact h.2.elim
    | proof challenge tx rest hphase =>
        show (PorPhase.after rest).turnsLeft ≤ s.por.turnsLeft
        rw [hphase, PorPhase.turnsLeft_after]
        exact Nat.le_succ _
    | _ => exact Nat.le_refl _
  rcases heffect.answered with ⟨hanswered, -⟩ | ⟨id, hanswered, -, hlt⟩
  · exact ⟨hle, hanswered ▸ List.prefix_rfl, Or.inl hanswered⟩
  · exact ⟨hle, hanswered ▸ List.prefix_append _ _, Or.inr hlt⟩

/-- **A turn that has begun ends with the proof.** -/
theorem PollStep.inTurn {config : AttestorConfig} {s t : SigningNode} {l : SigningLabel}
    {c : ChallengeInfo} {rest : List ChallengeInfo} (h : PollStep config s l t)
    (hturn : InTurn c rest s) :
    (InTurn c rest t ∧ t.answered = s.answered) ∨
      (t.por = .after rest ∧ t.answered = s.answered ++ [c.challengeId]) := by
  obtain ⟨hstep, hin⟩ := h
  by_cases hl : l.isPor = true
  · rcases hturn with ⟨payload, hphase⟩ | ⟨payload, nonce, hphase⟩ | ⟨tx, hphase⟩
    · cases l with
      | porNonce answer =>
          cases answer with
          | error e => exact hin.elim
          | ok n =>
              rw [step_porNonce hphase n] at hstep
              cases hstep
              exact Or.inl ⟨Or.inr (Or.inl ⟨payload, n, rfl⟩), rfl⟩
      | porPoll challenges => exact hin.elim
      | porConsider store => simp [step, hphase] at hstep
      | porChainId answer => simp [step, hphase] at hstep
      | porSend answer => simp [step, hphase] at hstep
      | _ => cases hl
    · cases l with
      | porChainId answer =>
          cases answer with
          | error e => exact hin.elim
          | ok n =>
              rw [step_porChainId hphase n] at hstep
              cases hstep
              exact Or.inl ⟨Or.inr (Or.inr ⟨_, rfl⟩), rfl⟩
      | porPoll challenges => exact hin.elim
      | porConsider store => simp [step, hphase] at hstep
      | porNonce answer => simp [step, hphase] at hstep
      | porSend answer => simp [step, hphase] at hstep
      | _ => cases hl
    · cases l with
      | porSend answer =>
          cases answer with
          | error e => exact hin.elim
          | ok u =>
              rw [step_porSend hphase] at hstep
              cases hstep
              exact Or.inr ⟨rfl, answered_submit_some s tx _⟩
      | porPoll challenges => exact hin.elim
      | porConsider store => simp [step, hphase] at hstep
      | porNonce answer => simp [step, hphase] at hstep
      | porChainId answer => simp [step, hphase] at hstep
      | _ => cases hl
  · obtain ⟨hpor, hanswered⟩ := (effect_of_step hstep).other (by simpa using hl)
    refine Or.inl ⟨?_, hanswered⟩
    unfold InTurn
    rw [hpor]
    exact hturn

/-- A turn whose challenge is not remembered: the proof is in the log at its end. -/
theorem Turn.submits {config : AttestorConfig} {u t : SigningNode} {labels : List SigningLabel}
    {c : ChallengeInfo} {rest : List ChallengeInfo} (hturn : InTurn c rest u)
    (hrun : Run (PollStep config) u labels t) (hdone : t.por = .after rest) :
    u.answered ++ [c.challengeId] <+: t.answered := by
  have hinv : (InTurn c rest t ∧ t.answered = u.answered) ∨
      u.answered ++ [c.challengeId] <+: t.answered := by
    refine hrun.invariant (P := fun _ t => (InTurn c rest t ∧ t.answered = u.answered) ∨
      u.answered ++ [c.challengeId] <+: t.answered) ?_ [] (Or.inl ⟨hturn, rfl⟩)
    intro past v l w h hstep
    rcases h with ⟨hv, hanswered⟩ | hdone
    · rcases hstep.inTurn hv with ⟨hw, heq⟩ | ⟨-, heq⟩
      · exact Or.inl ⟨hw, heq.trans hanswered⟩
      · rw [hanswered] at heq
        exact Or.inr (heq ▸ List.prefix_rfl)
    · exact Or.inr (hdone.trans hstep.progress.2.1)
  rcases hinv with ⟨hin, -⟩ | h
  · exfalso
    cases rest with
    | nil => simp [InTurn, hdone, PorPhase.after] at hin
    | cons d rest => simp [InTurn, hdone, PorPhase.after] at hin
  · exact h

/-- Behind its turn, the poll takes nothing into the log before the next turn ends. -/
theorem Turn.skips {config : AttestorConfig} {u t : SigningNode} {labels : List SigningLabel}
    (hrun : Run (PollStep config) u labels t) (hdone : t.por.turnsLeft = u.por.turnsLeft) :
    t.answered = u.answered := by
  have hinv : t.por.turnsLeft ≤ u.por.turnsLeft ∧
      (t.answered = u.answered ∨ t.por.turnsLeft < u.por.turnsLeft) := by
    refine hrun.invariant (P := fun _ t => t.por.turnsLeft ≤ u.por.turnsLeft ∧
      (t.answered = u.answered ∨ t.por.turnsLeft < u.por.turnsLeft)) ?_ []
      ⟨Nat.le_refl _, Or.inl rfl⟩
    intro past v l w h hstep
    obtain ⟨hle, -, hstay⟩ := hstep.progress
    refine ⟨hle.trans h.1, ?_⟩
    rcases h.2 with heq | hlt
    · rcases hstay with heq' | hlt
      · exact Or.inl (heq'.trans heq)
      · exact Or.inr (Nat.lt_of_lt_of_le hlt h.1)
    · exact Or.inr (Nat.lt_of_le_of_lt hle hlt)
  rcases hinv.2 with heq | hlt
  · exact heq
  · exact absurd hdone (Nat.ne_of_lt hlt)

/-- **A turn sends a proof where the id is not remembered.** -/
theorem Turn.submits_iff {config : AttestorConfig} {s t : SigningNode} {c : ChallengeInfo}
    {rest : List ChallengeInfo} {store : SumStore} {labels : List SigningLabel}
    (h : Turn config s c rest store labels t) (hproof : (proofFor store c).isSome = true) :
    Submits s t c ↔ c.challengeId ∉ s.responded := by
  obtain ⟨payload, hproof⟩ := Option.isSome_iff_exists.mp hproof
  obtain ⟨u, hstep, hrun⟩ := h.run
  unfold Submits
  by_cases hold : c.challengeId ∈ s.responded
  · rw [step_skip h.phase hold] at hstep
    cases hstep
    have hanswered := Turn.skips hrun (by rw [h.done])
    rw [hanswered]
    show c.challengeId ∈ s.answered.drop s.answered.length ↔ c.challengeId ∉ s.responded
    simp [hold]
  · rw [step_consider h.phase hold hproof] at hstep
    cases hstep
    have hsubmits := Turn.submits (Or.inl ⟨payload, rfl⟩) hrun h.done
    obtain ⟨more, hmore⟩ := hsubmits
    have hanswered : t.answered = s.answered ++ ([c.challengeId] ++ more) := by
      rw [← hmore, List.append_assoc]
      rfl
    rw [hanswered, List.drop_left]
    simp [hold]

/--
**A poll answers exactly the challenges without a live proof where** the challenges
among the last `MAX_RESPONDED` proofs that the RPC took are those with a proof that
is pending or included.
-/
theorem poll_turn_right_iff (config : AttestorConfig) (past : List SigningLabel)
    (s t : SigningNode) (hrun : Run (Step config) start past s) (c : ChallengeInfo)
    (rest : List ChallengeInfo) (store : SumStore) (labels : List SigningLabel)
    (hturn : Turn config s c rest store labels t) (hproof : (proofFor store c).isSome = true) :
    (Submits s t c ↔ ¬s.Live c) ↔ (c.challengeId ∈ s.lastAnswered ↔ s.Live c) := by
  rw [hturn.submits_iff hproof, responded_eq hrun]
  exact not_iff_not

theorem Turn.of_run {config : AttestorConfig} {s t : SigningNode} {c : ChallengeInfo}
    {rest : List ChallengeInfo} {store : SumStore} {labels : List SigningLabel}
    (hphase : s.por = .polling c rest)
    (hrun : Run (PollStep config) s (.porConsider store :: labels) t)
    (hdone : t.por = .after rest) : Turn config s c rest store labels t := by
  cases hrun with
  | cons hstep hrest => exact ⟨hphase, ⟨_, hstep.1, hrest⟩, hdone⟩

omit [AssignmentScore] in
theorem answerLabels_inPoll : ∀ l ∈ answerLabels, SigningLabel.InPoll l := by
  intro l hl
  simp only [answerLabels, List.mem_cons, List.not_mem_nil, or_false] at hl
  rcases hl with rfl | rfl | rfl | rfl <;> trivial

end

/-- A poll of one challenge, at its head. -/
def atFirst [Blake3] : SigningNode := { start with por := .polling (challengeOf (Hash.fill 1)) [] }

/-- The first poll finds a challenge that nothing was sent for, and answers it. -/
theorem first_poll_right :
    letI := Blake3.reference
    letI := AssignmentScore.flat
    ¬atFirst.Live (challengeOf (Hash.fill 1)) ∧
      Turn someConfig atFirst (challengeOf (Hash.fill 1)) [] oneChunkStore (answerLabels.drop 1)
        (answerState atFirst (Hash.fill 1) []) ∧
      Submits atFirst (answerState atFirst (Hash.fill 1) []) (challengeOf (Hash.fill 1)) := by
  let _ := Blake3.reference
  let _ := AssignmentScore.flat
  have hpoll : Run (Step someConfig) start [pollOf [Hash.fill 1]] atFirst := .single rfl
  have hrun : Run (PollStep someConfig) atFirst answerLabels
      (answerState atFirst (Hash.fill 1) []) :=
    run_answer (fun s' l t _ _ _ hl hstep => ⟨hstep, answerLabels_inPoll l hl⟩) rfl
      (by simp [atFirst, start])
  have hturn : Turn someConfig atFirst (challengeOf (Hash.fill 1)) [] oneChunkStore
      (answerLabels.drop 1) (answerState atFirst (Hash.fill 1) []) := Turn.of_run rfl hrun rfl
  have hdead : ¬atFirst.Live (challengeOf (Hash.fill 1)) := by simp [Live, atFirst, start]
  have hproof : (proofFor oneChunkStore (challengeOf (Hash.fill 1))).isSome = true := by
    rw [proofFor_challengeOf]
    rfl
  have hforgotten : (challengeOf (Hash.fill 1)).challengeId ∉ atFirst.lastAnswered := by
    simp [lastAnswered, answered, atFirst, start]
  have hright := (poll_turn_right_iff someConfig _ _ _ hpoll _ _ _ _ hturn hproof).mpr
    (iff_of_false hforgotten hdead)
  exact ⟨hdead, hturn, hright.mpr hdead⟩

/-- The challenge is listed again, and its proof was dropped. -/
def afterDrop [Blake3] : SigningNode :=
  { answerState atFirst (Hash.fill 1) [] with
    pending := [], por := .polling (challengeOf (Hash.fill 1)) [] }

/-- A proof that the RPC took and the chain dropped is not sent again. -/
theorem dropped_proof_not_resent :
    letI := Blake3.reference
    letI := AssignmentScore.flat
    ∃ past s t store labels, Run (Step someConfig) start past s ∧
      Turn someConfig s (challengeOf (Hash.fill 1)) [] store labels t ∧
      (proofFor store (challengeOf (Hash.fill 1))).isSome = true ∧
      ¬(Submits s t (challengeOf (Hash.fill 1)) ↔ ¬s.Live (challengeOf (Hash.fill 1))) := by
  let _ := Blake3.reference
  let _ := AssignmentScore.flat
  have hanswer : Run (Step someConfig) atFirst answerLabels
      (answerState atFirst (Hash.fill 1) []) :=
    run_answer (fun s' l t _ _ _ _ hstep => hstep) rfl (by simp [atFirst, start])
  have hdrop : Run (Step someConfig) (answerState atFirst (Hash.fill 1) [])
      [.discardTx 0, pollOf [Hash.fill 1]] afterDrop := .cons rfl (.single rfl)
  have hrun : Run (Step someConfig) start
      (pollOf [Hash.fill 1] :: (answerLabels ++ [.discardTx 0, pollOf [Hash.fill 1]])) afterDrop :=
    .cons rfl (hanswer.append hdrop)
  have hold : (challengeOf (Hash.fill 1)).challengeId ∈ afterDrop.responded :=
    List.mem_singleton_self _
  have hturn : Turn someConfig afterDrop (challengeOf (Hash.fill 1)) [] oneChunkStore []
      { afterDrop with por := .after [] } :=
    ⟨rfl, ⟨_, step_skip rfl hold, .nil _⟩, rfl⟩
  have hproof : (proofFor oneChunkStore (challengeOf (Hash.fill 1))).isSome = true := by
    rw [proofFor_challengeOf]
    rfl
  have hdead : ¬afterDrop.Live (challengeOf (Hash.fill 1)) := by
    simp [Live, afterDrop, answerState, atFirst, start, submit]
  refine ⟨_, _, _, _, _, hrun, hturn, hproof, ?_⟩
  intro hright
  exact (hturn.submits_iff hproof).mp (hright.mpr hdead) hold

end SigningNode

end Snip
