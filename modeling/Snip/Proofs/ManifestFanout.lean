/-
The two fan-out loops for manifests never stall on an archive that is gone.

Both loops keep a status for every assigned archive, the peer each request went to, and
who is identified.  A slot is open as long as its request is; when that ends, the slot is
filled again.  So an archive that could serve the manifest waits behind open requests
only, never for the deadline.  The Private loop does not hear of requests that failed:
there it holds in the runs without such a failure, and a run with one shows the rest.
-/
import Snip.Lib.Maps
import Snip.Lib.Steps
import Snip.Blake3
import Snip.CryptoReference
import Snip.Net.Correlation
import Snip.Node.PrivateManifestFetch

namespace Snip

/-- What both loops keep of the archives and their peers. -/
structure Fanout where
  status : Map Addr ManifestArchiveStatus
  dispatchedPeers : Map PeerId Addr
  peerAddresses : Map PeerId Addr

theorem lookup_of_addrToPeer [PeerOrder] {map : Map PeerId Addr} {addr : Addr} {peerId : PeerId}
    (h : addrToPeer map addr = some peerId) : map.lookup peerId = some addr := by
  unfold addrToPeer at h
  have hmem := List.mem_of_getLast? h
  simpa using (List.mem_filter.mp hmem).2

namespace Fanout

/-! ### Slots -/

/-- The archives marked as dispatched. -/
def inFlight (s : Fanout) : Finset Addr :=
  ((s.status.entries.filter fun e => e.2 = .dispatched).map Sigma.fst).toFinset

theorem mem_inFlight {s : Fanout} {a : Addr} :
    a ∈ s.inFlight ↔ s.status.lookup a = some .dispatched := by
  rw [← Option.mem_def, AList.mem_lookup_iff]
  unfold inFlight
  rw [List.mem_toFinset, List.mem_map]
  constructor
  · rintro ⟨⟨a', st⟩, he, rfl⟩
    obtain ⟨hmem, hst⟩ := List.mem_filter.mp he
    have hst' : st = .dispatched := by simpa using hst
    rw [← hst']
    exact hmem
  · intro h
    exact ⟨_, List.mem_filter.mpr ⟨h, by simp⟩, rfl⟩

theorem card_inFlight (s : Fanout) :
    s.inFlight.card = s.status.entries.countP fun e => e.2 = .dispatched := by
  have hnodup : ((s.status.entries.filter fun e => e.2 = .dispatched).map Sigma.fst).Nodup :=
    (List.NodupKeys.sublist List.filter_sublist s.status.nodupKeys)
  unfold inFlight
  rw [List.toFinset_card_of_nodup hnodup, List.length_map, List.countP_eq_length_filter]

/-- The archives not tried yet, in address order. -/
def untried (s : Fanout) : List Addr :=
  (s.status.keys.filter fun a => s.status.lookup a = some .untried).insertionSort (· ≤ ·)

theorem mem_untried {s : Fanout} {a : Addr} :
    a ∈ s.untried ↔ s.status.lookup a = some .untried := by
  unfold untried
  rw [List.mem_insertionSort, List.mem_filter, decide_eq_true_iff]
  constructor
  · intro h
    exact h.2
  · intro h
    refine ⟨AList.mem_keys.mp (AList.lookup_isSome.mp ?_), h⟩
    rw [h]
    rfl

theorem untried_nodup (s : Fanout) : s.untried.Nodup := by
  unfold untried
  rw [(List.perm_insertionSort _ _).nodup_iff]
  exact List.Nodup.filter _ s.status.nodupKeys

/-! ### What a wave does -/

/-- Every target marked, with its peer. -/
def ask (s : Fanout) (targets : List (PeerId × Addr)) : Fanout :=
  targets.foldl (fun s t => { s with
    status := s.status.insert t.2 .dispatched
    dispatchedPeers := s.dispatchedPeers.insert t.1 t.2 }) s

/-- Every archive of the list given up. -/
def giveUp (s : Fanout) (archives : List Addr) : Fanout :=
  archives.foldl (fun s a => { s with status := s.status.insert a .failed }) s

theorem ask_peerAddresses (s : Fanout) (targets : List (PeerId × Addr)) :
    (s.ask targets).peerAddresses = s.peerAddresses := by
  induction targets generalizing s with
  | nil => rfl
  | cons t targets ih => exact ih _

theorem ask_status (s : Fanout) (targets : List (PeerId × Addr)) (a : Addr) :
    (s.ask targets).status.lookup a
      = if a ∈ targets.map Prod.snd then some .dispatched else s.status.lookup a := by
  induction targets generalizing s with
  | nil => rfl
  | cons t targets ih =>
      show (Fanout.ask _ targets).status.lookup a = _
      rw [ih, Maps.lookup_insert, List.map_cons]
      by_cases hrest : a ∈ targets.map Prod.snd
      · rw [if_pos hrest, if_pos (List.mem_cons_of_mem _ hrest)]
      · rw [if_neg hrest]
        by_cases hhead : a = t.2
        · rw [if_pos hhead, if_pos (hhead ▸ List.mem_cons_self)]
        · have hout : a ∉ t.2 :: targets.map Prod.snd := by
            rw [List.mem_cons]
            rintro (h | h)
            · exact hhead h
            · exact hrest h
          rw [if_neg hhead, if_neg hout]

theorem ask_dispatchedPeers {s : Fanout} {targets : List (PeerId × Addr)} {p : PeerId} {a : Addr}
    (h : (s.ask targets).dispatchedPeers.lookup p = some a) :
    (p, a) ∈ targets ∨ s.dispatchedPeers.lookup p = some a := by
  induction targets generalizing s with
  | nil => exact .inr h
  | cons t targets ih =>
      rcases ih h with hmem | hold
      · exact .inl (List.mem_cons_of_mem _ hmem)
      · rcases Maps.lookup_insert_some.mp hold with ⟨rfl, rfl⟩ | ⟨-, hold⟩
        · exact .inl List.mem_cons_self
        · exact .inr hold

/-- With one address a peer, no target takes the entry of another archive. -/
theorem ask_keeps {addrOf : PeerId → Addr} {s : Fanout} {targets : List (PeerId × Addr)}
    (htargets : ∀ t ∈ targets, addrOf t.1 = t.2) {p : PeerId} {a : Addr} (hp : addrOf p = a)
    (h : s.dispatchedPeers.lookup p = some a ∨ (p, a) ∈ targets) :
    (s.ask targets).dispatchedPeers.lookup p = some a := by
  induction targets generalizing s with
  | nil =>
      rcases h with h | h
      · exact h
      · cases h
  | cons t targets ih =>
      have hrest : ∀ t ∈ targets, addrOf t.1 = t.2 :=
        fun t ht => htargets t (List.mem_cons_of_mem _ ht)
      refine ih hrest ?_
      rcases h with h | h
      · left
        rw [Maps.lookup_insert]
        by_cases hpt : p = t.1
        · rw [if_pos hpt, ← htargets t List.mem_cons_self, ← hpt, hp]
        · rw [if_neg hpt]
          exact h
      · rcases List.mem_cons.mp h with rfl | h
        · left
          rw [Maps.lookup_insert, if_pos rfl]
        · exact .inr h

theorem giveUp_status (s : Fanout) (archives : List Addr) (a : Addr) :
    (s.giveUp archives).status.lookup a
      = if a ∈ archives then some .failed else s.status.lookup a := by
  induction archives generalizing s with
  | nil => rfl
  | cons b archives ih =>
      show (Fanout.giveUp _ archives).status.lookup a = _
      rw [ih, Maps.lookup_insert]
      by_cases hrest : a ∈ archives
      · rw [if_pos hrest, if_pos (List.mem_cons_of_mem _ hrest)]
      · rw [if_neg hrest]
        by_cases hhead : a = b
        · rw [if_pos hhead, if_pos (hhead ▸ List.mem_cons_self)]
        · rw [if_neg hhead, if_neg (by simp [hhead, hrest])]

theorem giveUp_rest (s : Fanout) (archives : List Addr) :
    (s.giveUp archives).dispatchedPeers = s.dispatchedPeers ∧
      (s.giveUp archives).peerAddresses = s.peerAddresses := by
  induction archives generalizing s with
  | nil => exact ⟨rfl, rfl⟩
  | cons a archives ih => exact ih _

end Fanout

/-! ### Targets -/

section

variable {peers : Addr → Option PeerId}

theorem takeTargets_sublist (n : Nat) (archives : List Addr) :
    ((takeTargets peers n archives).map Prod.snd).Sublist archives := by
  induction archives generalizing n with
  | nil => exact .slnil
  | cons a archives ih =>
      cases n with
      | zero => exact List.nil_sublist _
      | succ n =>
          unfold takeTargets
          split
          · exact (ih _).cons a
          · exact (ih n).cons_cons a

theorem takeTargets_peer {n : Nat} {archives : List Addr} {t : PeerId × Addr}
    (h : t ∈ takeTargets peers n archives) : peers t.2 = some t.1 := by
  induction archives generalizing n with
  | nil => cases h
  | cons a archives ih =>
      cases n with
      | zero => cases h
      | succ n =>
          unfold takeTargets at h
          split at h
          · exact ih h
          · rename_i peerId hpeer
            rcases List.mem_cons.mp h with rfl | h
            · exact hpeer
            · exact ih h

theorem takeTargets_length_le (n : Nat) (archives : List Addr) :
    (takeTargets peers n archives).length ≤ n := by
  induction archives generalizing n with
  | nil => exact Nat.zero_le n
  | cons a archives ih =>
      cases n with
      | zero => exact Nat.le_refl 0
      | succ n =>
          unfold takeTargets
          split
          · exact ih _
          · exact Nat.succ_le_succ (ih n)

/-- Short of the slots there are, every archive with a peer is a target. -/
theorem takeTargets_full (n : Nat) (archives : List Addr) :
    (takeTargets peers n archives).length = n ∨
      ∀ a ∈ archives, peers a ≠ none → a ∈ (takeTargets peers n archives).map Prod.snd := by
  induction archives generalizing n with
  | nil =>
      right
      intro a ha
      cases ha
  | cons b archives ih =>
      cases n with
      | zero => exact .inl rfl
      | succ n =>
          unfold takeTargets
          split
          · rename_i hnone
            rcases ih (n + 1) with hlength | hall
            · exact .inl hlength
            · right
              intro a ha hpeer
              rcases List.mem_cons.mp ha with rfl | ha
              · exact absurd hnone hpeer
              · exact hall a ha hpeer
          · rcases ih n with hlength | hall
            · left
              rw [List.length_cons, hlength]
            · right
              intro a ha hpeer
              rw [List.map_cons]
              rcases List.mem_cons.mp ha with rfl | ha
              · exact List.mem_cons_self
              · exact List.mem_cons_of_mem _ (hall a ha hpeer)

end

/-! ### The invariant -/

/-- What every step of either loop keeps; `unanswered` are the pulls sent and not ended. -/
structure FanoutSound (addrOf : PeerId → Addr) (assigned : Finset Addr) (fanout : Nat) (s : Fanout)
    (unanswered : List (PeerId × Addr)) : Prop where
  known : ∀ p a, s.peerAddresses.lookup p = some a → addrOf p = a
  asked : ∀ p a, s.dispatchedPeers.lookup p = some a → addrOf p = a
  candidates : ∀ a status, s.status.lookup a = some status → a ∈ assigned
  /-- A dispatched archive has an open pull, and an answer to it will be told from others. -/
  unanswered : ∀ a, s.status.lookup a = some .dispatched →
    ∃ p, (p, a) ∈ unanswered ∧ s.dispatchedPeers.lookup p = some a
  bounded : s.inFlight.card ≤ fanout

/-- No slot is free, or nobody who could be asked is left. -/
def FanoutFilled [PeerOrder] (fanout : Nat) (s : Fanout) : Prop :=
  s.inFlight.card = fanout ∨
    ∀ a, s.status.lookup a = some .untried → addrToPeer s.peerAddresses a = none

/-- The two things a wave can do with the slots that are free. -/
inductive Fanout.Wave [PeerOrder] (fanout : Nat) (s : Fanout) :
    Fanout → List (PeerId × Addr) → Prop
  /-- The requests are queued. -/
  | queued : Wave fanout s
      (s.ask (takeTargets (addrToPeer s.peerAddresses) (fanout - s.inFlight.card) s.untried))
      (takeTargets (addrToPeer s.peerAddresses) (fanout - s.inFlight.card) s.untried)
  /-- No slot is free. -/
  | full : fanout ≤ s.inFlight.card → Wave fanout s s []
  /-- None can be queued: every archive with a peer is given up. -/
  | stopped : Wave fanout s
      (s.giveUp (s.untried.filter fun a => (addrToPeer s.peerAddresses a).isSome)) []

/-- Giving up archives that were not asked changes no slot. -/
theorem FanoutSound.giveUp {addrOf : PeerId → Addr} {assigned : Finset Addr} {fanout : Nat}
    {s : Fanout} {unanswered : List (PeerId × Addr)}
    (h : FanoutSound addrOf assigned fanout s unanswered)
    {archives : List Addr} (harchives : ∀ a ∈ archives, s.status.lookup a = some .untried) :
    FanoutSound addrOf assigned fanout (s.giveUp archives) unanswered := by
  obtain ⟨hpeers, hknown⟩ := s.giveUp_rest archives
  have hflight : ∀ a, (s.giveUp archives).status.lookup a = some .dispatched →
      s.status.lookup a = some .dispatched := by
    intro a ha
    rw [Fanout.giveUp_status] at ha
    split at ha
    · cases ha
    · exact ha
  refine ⟨?_, ?_, ?_, ?_, ?_⟩
  · rw [hknown]
    exact h.known
  · rw [hpeers]
    exact h.asked
  · intro a status ha
    rw [Fanout.giveUp_status] at ha
    by_cases hmem : a ∈ archives
    · exact h.candidates a _ (harchives a hmem)
    · rw [if_neg hmem] at ha
      exact h.candidates a status ha
  · intro a ha
    rw [hpeers]
    exact h.unanswered a (hflight a ha)
  · refine Nat.le_trans (Finset.card_le_card ?_) h.bounded
    intro a ha
    exact Fanout.mem_inFlight.mpr (hflight a (Fanout.mem_inFlight.mp ha))

section

variable [PeerOrder] {addrOf : PeerId → Addr} {assigned : Finset Addr} {fanout : Nat}
  {s s' : Fanout} {unanswered pulls : List (PeerId × Addr)}

/-- The targets of a wave with queued requests. -/
def Fanout.targets (s : Fanout) (fanout : Nat) : List (PeerId × Addr) :=
  takeTargets (addrToPeer s.peerAddresses) (fanout - s.inFlight.card) s.untried

theorem Fanout.targets_untried {t : PeerId × Addr} (h : t ∈ s.targets fanout) :
    s.status.lookup t.2 = some .untried := by
  refine Fanout.mem_untried.mp ?_
  exact (takeTargets_sublist _ _).subset (List.mem_map_of_mem h)

/-- The slots after the wave: those before and one for each target. -/
theorem Fanout.inFlight_ask_targets (s : Fanout) (fanout : Nat) :
    (s.ask (s.targets fanout)).inFlight.card = s.inFlight.card + (s.targets fanout).length := by
  have hnodup : ((s.targets fanout).map Prod.snd).Nodup :=
    s.untried_nodup.sublist (takeTargets_sublist _ _)
  have hunion : (s.ask (s.targets fanout)).inFlight
      = s.inFlight ∪ ((s.targets fanout).map Prod.snd).toFinset := by
    ext a
    rw [Finset.mem_union, List.mem_toFinset, Fanout.mem_inFlight, Fanout.mem_inFlight,
      Fanout.ask_status]
    by_cases hmem : a ∈ (s.targets fanout).map Prod.snd
    · simp [hmem]
    · simp [hmem]
  have hdisjoint : Disjoint s.inFlight ((s.targets fanout).map Prod.snd).toFinset := by
    rw [Finset.disjoint_left]
    intro a hflight htarget
    rw [List.mem_toFinset] at htarget
    obtain ⟨t, ht, rfl⟩ := List.mem_map.mp htarget
    have huntried := Fanout.targets_untried ht
    rw [Fanout.mem_inFlight, huntried] at hflight
    cases hflight
  rw [hunion, Finset.card_union_of_disjoint hdisjoint, List.toFinset_card_of_nodup hnodup,
    List.length_map]

theorem FanoutSound.ask (h : FanoutSound addrOf assigned fanout s unanswered) :
    FanoutSound addrOf assigned fanout (s.ask (s.targets fanout))
      (unanswered ++ s.targets fanout) := by
  have htargets : ∀ t ∈ s.targets fanout, addrOf t.1 = t.2 := by
    intro t ht
    exact h.known _ _ (lookup_of_addrToPeer (takeTargets_peer ht))
  refine ⟨?_, ?_, ?_, ?_, ?_⟩
  · intro p a hp
    rw [Fanout.ask_peerAddresses] at hp
    exact h.known p a hp
  · intro p a hp
    rcases Fanout.ask_dispatchedPeers hp with ht | hold
    · exact htargets (p, a) ht
    · exact h.asked p a hold
  · intro a status ha
    rw [Fanout.ask_status] at ha
    by_cases hmem : a ∈ (s.targets fanout).map Prod.snd
    · obtain ⟨t, ht, rfl⟩ := List.mem_map.mp hmem
      exact h.candidates _ _ (Fanout.targets_untried ht)
    · rw [if_neg hmem] at ha
      exact h.candidates a status ha
  · intro a ha
    rw [Fanout.ask_status] at ha
    by_cases hmem : a ∈ (s.targets fanout).map Prod.snd
    · obtain ⟨⟨p, a'⟩, ht, rfl⟩ := List.mem_map.mp hmem
      exact ⟨p, List.mem_append_right _ ht, Fanout.ask_keeps htargets (htargets _ ht) (.inr ht)⟩
    · rw [if_neg hmem] at ha
      obtain ⟨p, hopen, hpeer⟩ := h.unanswered a ha
      exact ⟨p, List.mem_append_left _ hopen,
        Fanout.ask_keeps htargets (h.asked p a hpeer) (.inl hpeer)⟩
  · have hle : (s.targets fanout).length ≤ fanout - s.inFlight.card := takeTargets_length_le _ _
    have hbounded := h.bounded
    rw [Fanout.inFlight_ask_targets]
    omega

theorem FanoutFilled.ask (hbounded : s.inFlight.card ≤ fanout) :
    FanoutFilled fanout (s.ask (s.targets fanout)) := by
  rcases @takeTargets_full (addrToPeer s.peerAddresses) (fanout - s.inFlight.card) s.untried with
    hlength | hall
  · left
    rw [Fanout.inFlight_ask_targets]
    have hlen : (s.targets fanout).length = fanout - s.inFlight.card := hlength
    omega
  · right
    intro a ha
    rw [Fanout.ask_status] at ha
    rw [Fanout.ask_peerAddresses]
    by_cases hmem : a ∈ (s.targets fanout).map Prod.snd
    · rw [if_pos hmem] at ha
      cases ha
    · rw [if_neg hmem] at ha
      by_contra hpeer
      exact hmem (hall a (Fanout.mem_untried.mpr ha) hpeer)

/-- One spec for the waves of both loops. -/
theorem Fanout.Wave.spec (hwave : Fanout.Wave fanout s s' pulls)
    (h : FanoutSound addrOf assigned fanout s unanswered) :
    FanoutSound addrOf assigned fanout s' (unanswered ++ pulls) ∧ FanoutFilled fanout s' := by
  cases hwave with
  | queued => exact ⟨h.ask, .ask h.bounded⟩
  | full hfull =>
      rw [List.append_nil]
      exact ⟨h, .inl (Nat.le_antisymm h.bounded hfull)⟩
  | stopped =>
      rw [List.append_nil]
      have huntried : ∀ a ∈ s.untried.filter fun a => (addrToPeer s.peerAddresses a).isSome,
          s.status.lookup a = some .untried := by
        intro a ha
        exact Fanout.mem_untried.mp (List.mem_filter.mp ha).1
      refine ⟨h.giveUp huntried, .inr ?_⟩
      intro a ha
      rw [Fanout.giveUp_status] at ha
      rw [(s.giveUp_rest _).2]
      split at ha
      · cases ha
      · rename_i hout
        by_contra hpeer
        exact hout (List.mem_filter.mpr ⟨Fanout.mem_untried.mpr ha,
          Option.isSome_iff_ne_none.mpr hpeer⟩)

/-- No wave touches an archive that has failed. -/
theorem Fanout.Wave.failed (hwave : Fanout.Wave fanout s s' pulls) {a : Addr}
    (h : s.status.lookup a = some .failed) : s'.status.lookup a = some .failed := by
  cases hwave with
  | queued =>
      show (s.ask (s.targets fanout)).status.lookup a = _
      rw [Fanout.ask_status, if_neg, h]
      intro hmem
      obtain ⟨t, ht, rfl⟩ := List.mem_map.mp hmem
      have huntried := Fanout.targets_untried ht
      rw [h] at huntried
      cases huntried
  | full _ => exact h
  | stopped =>
      rw [Fanout.giveUp_status]
      split
      · rfl
      · exact h

end

/-! ### The end of a pull -/

/-- The archive the peer's answer is for, while its pull is open. -/
def Fanout.openAt (s : Fanout) (p : PeerId) : Option Addr :=
  (s.dispatchedPeers.lookup p).filter fun a => s.status.lookup a = some .dispatched

theorem Fanout.openAt_eq_some {s : Fanout} {p : PeerId} {a : Addr} :
    s.openAt p = some a ↔
      s.dispatchedPeers.lookup p = some a ∧ s.status.lookup a = some .dispatched := by
  unfold Fanout.openAt
  rw [Option.filter_eq_some_iff, decide_eq_true_iff]

/-- The pulls that are left when those to the peer have ended. -/
def dropPulls (p : PeerId) (unanswered : List (PeerId × Addr)) : List (PeerId × Addr) :=
  unanswered.filter fun t => t.1 ≠ p

/-- `archive` has failed. -/
def Fanout.fail (s : Fanout) (archive : Addr) : Fanout :=
  { s with status := s.status.insert archive .failed }

section

variable {addrOf : PeerId → Addr} {assigned : Finset Addr} {fanout : Nat} {s : Fanout}
  {unanswered : List (PeerId × Addr)} {p : PeerId} {archive : Addr}

theorem FanoutSound.fail (h : FanoutSound addrOf assigned fanout s unanswered)
    (hopen : s.openAt p = some archive) :
    FanoutSound addrOf assigned fanout (s.fail archive) (dropPulls p unanswered) := by
  obtain ⟨hpeer, hstatus⟩ := Fanout.openAt_eq_some.mp hopen
  have hflight : ∀ a, (s.fail archive).status.lookup a = some .dispatched →
      a ≠ archive ∧ s.status.lookup a = some .dispatched := by
    intro a ha
    rcases Maps.lookup_insert_some.mp ha with ⟨-, hcontra⟩ | ha
    · cases hcontra
    · exact ha
  refine ⟨h.known, h.asked, ?_, ?_, ?_⟩
  · intro a status ha
    rcases Maps.lookup_insert_some.mp ha with ⟨rfl, -⟩ | ⟨-, ha⟩
    · exact h.candidates _ _ hstatus
    · exact h.candidates a status ha
  · intro a ha
    obtain ⟨hne, ha⟩ := hflight a ha
    obtain ⟨q, hmem, hq⟩ := h.unanswered a ha
    refine ⟨q, List.mem_filter.mpr ⟨hmem, ?_⟩, hq⟩
    rw [decide_eq_true_iff]
    rintro rfl
    rw [hpeer] at hq
    exact hne (Option.some.inj hq).symm
  · refine Nat.le_trans (Finset.card_le_card ?_) h.bounded
    intro a ha
    exact Fanout.mem_inFlight.mpr (hflight a (Fanout.mem_inFlight.mp ha)).2

/-- A pull of no open archive ends. -/
theorem FanoutSound.stray (h : FanoutSound addrOf assigned fanout s unanswered)
    (hopen : s.openAt p = none) :
    FanoutSound addrOf assigned fanout s (dropPulls p unanswered) := by
  refine ⟨h.known, h.asked, h.candidates, ?_, h.bounded⟩
  intro a ha
  obtain ⟨q, hmem, hq⟩ := h.unanswered a ha
  refine ⟨q, List.mem_filter.mpr ⟨hmem, ?_⟩, hq⟩
  rw [decide_eq_true_iff]
  rintro rfl
  rw [Fanout.openAt_eq_some.mpr ⟨hq, ha⟩] at hopen
  cases hopen

end

/-! ### Steps -/

/-- The peer whose manifest pull for this root an input ends. -/
def endedPull (chainRoot : Hash) : LoopInput → Option PeerId
  | .event (.shardReceivedV2 _ _ origin) _ _ | .event (.shardRequestFailed _ _ origin) _ _ =>
      if origin.requestedManifestRoot = some chainRoot then some origin.peer else none
  | _ => none

/-- The pulls that are open after the input. -/
def closePulls (chainRoot : Hash) (input : LoopInput) (unanswered : List (PeerId × Addr)) :
    List (PeerId × Addr) :=
  match endedPull chainRoot input with
  | some p => dropPulls p unanswered
  | none => unanswered

/--
What the network layer promises: a peer's address is that of its key, and an answer or a
failure comes from the peer that was asked, the answer for what it was asked.
-/
def NetPromise (addrOf : PeerId → Addr) : LoopInput → Prop
  | .event (.peerIdentified p a) _ _ => addrOf p = a
  | .event (.shardReceivedV2 p response origin) _ _ =>
      origin.peer = p ∧ origin.kind.check (.v2 response) = .ok ()
  | .event (.shardRequestFailed p _ origin) _ _ => origin.peer = p
  | _ => True

/-- The three things an input can do to either loop. -/
inductive Fanout.Step [PeerOrder] (chainRoot : Hash) (fanout : Nat) (s : Fanout)
    (input : LoopInput) (s' : Fanout) (pulls : List (PeerId × Addr)) : Prop
  | peers (e : SumNetEvent) (swarmRuns : Bool) (io : Io) (hinput : input = .event e swarmRuns io)
      (hended : endedPull chainRoot input = none)
      (hwave : Fanout.Wave fanout { s with peerAddresses := applyPeerEvent s.peerAddresses e }
        s' pulls)
  | settled (p : PeerId) (archive : Addr) (hended : endedPull chainRoot input = some p)
      (hopen : s.openAt p = some archive) (hwave : Fanout.Wave fanout (s.fail archive) s' pulls)
  | ignored (hended : ∀ p, endedPull chainRoot input = some p → s.openAt p = none) (hs : s' = s)
      (hpulls : pulls = [])

theorem applyPeerEvent_known {addrOf : PeerId → Addr} {map : Map PeerId Addr}
    (h : ∀ p a, map.lookup p = some a → addrOf p = a) {e : SumNetEvent} {swarmRuns : Bool} {io : Io}
    (hnet : NetPromise addrOf (.event e swarmRuns io)) :
    ∀ p a, (applyPeerEvent map e).lookup p = some a → addrOf p = a := by
  intro p a hp
  cases e with
  | peerIdentified q b =>
      rcases Maps.lookup_insert_some.mp hp with ⟨rfl, rfl⟩ | ⟨-, hp⟩
      · exact hnet
      · exact h p a hp
  | peerDisconnected q => exact h p a (Maps.lookup_erase_some.mp hp).2
  | peerDiscovered q => exact h p a hp
  | shardReceived q response origin => exact h p a hp
  | shardReceivedV2 q response origin => exact h p a hp
  | shardRequestFailed q error origin => exact h p a hp
  | other => exact h p a hp

theorem Fanout.Step.preserves [PeerOrder] {addrOf : PeerId → Addr} {assigned : Finset Addr}
    {chainRoot : Hash} {fanout : Nat} {s s' : Fanout} {input : LoopInput}
    {unanswered pulls : List (PeerId × Addr)} (hstep : Fanout.Step chainRoot fanout s input s' pulls)
    (hnet : NetPromise addrOf input) (h : FanoutSound addrOf assigned fanout s unanswered)
    (hfilled : FanoutFilled fanout s) :
    FanoutSound addrOf assigned fanout s' (closePulls chainRoot input unanswered ++ pulls) ∧
      FanoutFilled fanout s' := by
  unfold closePulls
  cases hstep with
  | peers e swarmRuns io hinput hended hwave =>
      rw [hended]
      rw [hinput] at hnet
      exact hwave.spec ⟨applyPeerEvent_known h.known hnet, h.asked, h.candidates, h.unanswered,
        h.bounded⟩
  | settled p archive hended hopen hwave =>
      rw [hended]
      exact hwave.spec (h.fail hopen)
  | ignored hended hs hpulls =>
      rw [hs, hpulls, List.append_nil]
      refine ⟨?_, hfilled⟩
      cases hp : endedPull chainRoot input with
      | none => exact h
      | some p => exact h.stray (hended p hp)

/-! ### Which answers there are to a manifest pull -/

theorem kind_of_check_manifestData {kind : OutboundRequestKind} {root : Hash} {bytes : Bytes}
    {error : Option Str}
    (h : kind.check (.v2 (.manifestData root bytes error)) = .ok ()) :
    kind = .v2ManifestPull root := by
  cases kind with
  | v2ManifestPull asked =>
      have hroot : rootEq asked root = .ok () := h
      unfold rootEq at hroot
      split at hroot
      · rename_i heq
        rw [heq]
      · cases hroot
  | v1Chunk cid => cases h
  | v1Manifest rootHex cid => cases h
  | v1Push cid => cases h
  | v2Pull cid => cases h
  | v2Push asked chunkIndex => cases h
  | v2ManifestPush asked => cases h

/-- Any other response answers something else. -/
theorem requestedManifestRoot_of_check {origin : OutboundOrigin} {response : ShardResponseV2}
    (hother : ∀ root bytes error, response ≠ .manifestData root bytes error)
    (h : origin.kind.check (.v2 response) = .ok ()) : origin.requestedManifestRoot = none := by
  unfold OutboundOrigin.requestedManifestRoot
  cases hkind : origin.kind with
  | v2ManifestPull asked =>
      rw [hkind] at h
      cases response with
      | manifestData root bytes error => exact absurd rfl (hother root bytes error)
      | data body => cases h
      | pushAck root chunkIndex error => cases h
      | manifestPushAck root error => cases h
  | v1Chunk cid => rfl
  | v1Manifest rootHex cid => rfl
  | v1Push cid => rfl
  | v2Pull cid => rfl
  | v2Push asked chunkIndex => rfl
  | v2ManifestPush asked => rfl

theorem endedPull_manifestData {addrOf : PeerId → Addr} {chainRoot root : Hash} {p : PeerId}
    {bytes : Bytes} {error : Option Str} {origin : OutboundOrigin} {swarmRuns : Bool} {io : Io}
    (hnet : NetPromise addrOf
      (.event (.shardReceivedV2 p (.manifestData root bytes error) origin) swarmRuns io)) :
    endedPull chainRoot
        (.event (.shardReceivedV2 p (.manifestData root bytes error) origin) swarmRuns io)
      = if root = chainRoot then some p else none := by
  obtain ⟨hpeer, hcheck⟩ := hnet
  have hasked : origin.requestedManifestRoot = some root := by
    unfold OutboundOrigin.requestedManifestRoot
    rw [kind_of_check_manifestData hcheck]
  show (if origin.requestedManifestRoot = some chainRoot then some origin.peer else none) = _
  rw [hasked, hpeer]
  by_cases hroot : root = chainRoot
  · simp [hroot]
  · simp [hroot]

theorem endedPull_other {addrOf : PeerId → Addr} {chainRoot : Hash} {p : PeerId}
    {response : ShardResponseV2} {origin : OutboundOrigin} {swarmRuns : Bool} {io : Io}
    (hnet : NetPromise addrOf (.event (.shardReceivedV2 p response origin) swarmRuns io))
    (hother : ∀ root bytes error, response ≠ .manifestData root bytes error) :
    endedPull chainRoot (.event (.shardReceivedV2 p response origin) swarmRuns io) = none := by
  have hasked := requestedManifestRoot_of_check hother hnet.2
  show (if origin.requestedManifestRoot = some chainRoot then some origin.peer else none) = _
  rw [hasked, if_neg (by simp)]

/-! ### The Public loop -/

namespace ManifestFetch

/-- The part that both loops have. -/
def core (f : ManifestFetch) : Fanout := ⟨f.status, f.dispatchedPeers, f.peerAddresses⟩

theorem dispatchLoop_queued (peers : Addr → Option PeerId) (n : Nat) (archives : List Addr)
    (f : ManifestFetch) :
    (dispatchLoop peers true n archives f).1.core = f.core.ask (takeTargets peers n archives) ∧
      (dispatchLoop peers true n archives f).2 = takeTargets peers n archives := by
  induction archives generalizing n f with
  | nil =>
      cases n with
      | zero => exact ⟨rfl, rfl⟩
      | succ n => exact ⟨rfl, rfl⟩
  | cons a archives ih =>
      cases n with
      | zero => exact ⟨rfl, rfl⟩
      | succ n =>
          unfold dispatchLoop takeTargets
          cases hpeer : peers a with
          | none => exact ih (n + 1) f
          | some peerId =>
              obtain ⟨hcore, hpulls⟩ := ih n { f with
                status := f.status.insert a .dispatched
                dispatchedPeers := f.dispatchedPeers.insert peerId a }
              refine ⟨hcore, ?_⟩
              simp only [if_true]
              rw [hpulls]

theorem dispatchLoop_stopped (peers : Addr → Option PeerId) (n : Nat) (archives : List Addr)
    (f : ManifestFetch) :
    (dispatchLoop peers false (n + 1) archives f).1.core
        = f.core.giveUp (archives.filter fun a => (peers a).isSome) ∧
      (dispatchLoop peers false (n + 1) archives f).2 = [] := by
  induction archives generalizing f with
  | nil => exact ⟨rfl, rfl⟩
  | cons a archives ih =>
      unfold dispatchLoop
      cases hpeer : peers a with
      | none =>
          rw [List.filter_cons_of_neg (by rw [hpeer]; exact Bool.false_ne_true)]
          exact ih f
      | some peerId =>
          rw [List.filter_cons_of_pos (by rw [hpeer]; rfl)]
          exact ih _

theorem dispatchWave_wave [PeerOrder] (f : ManifestFetch) (fanout : Nat) (swarmRuns : Bool) :
    Fanout.Wave fanout f.core (f.dispatchWave fanout swarmRuns).1.core
      (f.dispatchWave fanout swarmRuns).2 := by
  have hloop : f.dispatchWave fanout swarmRuns
      = dispatchLoop (addrToPeer f.core.peerAddresses) swarmRuns (fanout - f.core.inFlight.card)
          f.core.untried f := by
    unfold dispatchWave
    rw [f.core.card_inFlight]
    rfl
  rw [hloop]
  cases swarmRuns with
  | true =>
      obtain ⟨hcore, hpulls⟩ := dispatchLoop_queued (addrToPeer f.core.peerAddresses)
        (fanout - f.core.inFlight.card) f.core.untried f
      rw [hcore, hpulls]
      exact .queued
  | false =>
      cases hslots : fanout - f.core.inFlight.card with
      | zero =>
          have hzero : ∀ archives, dispatchLoop (addrToPeer f.core.peerAddresses) false 0 archives f
              = (f, []) := by
            intro archives
            cases archives with
            | nil => rfl
            | cons a archives => rfl
          rw [hzero]
          exact .full (by omega)
      | succ n =>
          obtain ⟨hcore, hpulls⟩ := dispatchLoop_stopped (addrToPeer f.core.peerAddresses) n
            f.core.untried f
          rw [hcore, hpulls]
          exact .stopped

variable [PeerOrder]

theorem settle_step {f g : ManifestFetch} {view : V2AssignmentView} {chainRoot : Hash}
    {maxConcurrent : Nat} {swarmRuns : Bool} {input : LoopInput} {archive : Addr} {p : PeerId}
    {reason : ManifestFetchReason} {pulls : List (PeerId × Addr)}
    (hended : endedPull chainRoot input = some p) (hopen : f.openAt p = some archive)
    (h : f.settle view maxConcurrent swarmRuns archive reason = .next g pulls) :
    Fanout.Step chainRoot (fanout view maxConcurrent) f.core input g.core pulls := by
  cases h
  exact .settled p archive hended hopen
    (dispatchWave_wave { f with status := f.status.insert archive .failed, lastReason := reason }
      (fanout view maxConcurrent) swarmRuns)

variable [Blake3] [ManifestReader]

/-- Every input does one of the three things. -/
theorem onInput_step {addrOf : PeerId → Addr} {f g : ManifestFetch} {view : V2AssignmentView}
    {chainRoot : Hash} {maxConcurrent : Nat} {input : LoopInput} {pulls : List (PeerId × Addr)}
    (hnet : NetPromise addrOf input)
    (h : f.onInput view chainRoot maxConcurrent input = .next g pulls) :
    Fanout.Step chainRoot (fanout view maxConcurrent) f.core input g.core pulls := by
  have hignored : (∀ p, endedPull chainRoot input = some p → f.core.openAt p = none) →
      Outcome.next f [] = .next g pulls →
      Fanout.Step chainRoot (fanout view maxConcurrent) f.core input g.core pulls := by
    intro hended hnext
    cases hnext
    exact .ignored hended rfl rfl
  have hnone : endedPull chainRoot input = none →
      ∀ p, endedPull chainRoot input = some p → f.core.openAt p = none := by
    intro hended p hp
    rw [hended] at hp
    cases hp
  cases input with
  | grace swarmRuns => exact hignored (hnone rfl) h
  | deadline => cases h
  | closed => cases h
  | event e swarmRuns io =>
  cases e with
  | peerDiscovered q => exact hignored (hnone rfl) h
  | shardReceived q response origin => exact hignored (hnone rfl) h
  | other => exact hignored (hnone rfl) h
  | peerIdentified q a =>
      cases h
      exact .peers _ _ _ rfl rfl (dispatchWave_wave
        { f with peerAddresses := applyPeerEvent f.peerAddresses (.peerIdentified q a) }
        (fanout view maxConcurrent) swarmRuns)
  | peerDisconnected q =>
      cases h
      exact .peers _ _ _ rfl rfl (dispatchWave_wave
        { f with peerAddresses := applyPeerEvent f.peerAddresses (.peerDisconnected q) }
        (fanout view maxConcurrent) swarmRuns)
  | shardRequestFailed q error origin =>
      have hq : origin.peer = q := hnet
      unfold onInput at h
      dsimp only at h
      by_cases hroot : origin.requestedManifestRoot = some chainRoot
      · have hended : endedPull chainRoot
            (.event (.shardRequestFailed q error origin) swarmRuns io) = some q := by
          show (if origin.requestedManifestRoot = some chainRoot then some origin.peer else none) = _
          rw [if_pos hroot, hq]
        rw [if_neg (not_not.mpr hroot)] at h
        cases hopen : f.openAt q with
        | none =>
            rw [hopen] at h
            refine hignored ?_ h
            intro p hp
            rw [hended] at hp
            cases hp
            exact hopen
        | some archive =>
            rw [hopen] at h
            exact settle_step hended hopen h
      · rw [if_pos hroot] at h
        refine hignored (hnone ?_) h
        show (if origin.requestedManifestRoot = some chainRoot then some origin.peer else none) = _
        rw [if_neg hroot]
  | shardReceivedV2 q response origin =>
  cases response with
  | data body => exact hignored (hnone (endedPull_other hnet (fun _ _ _ h => by cases h))) h
  | pushAck root chunkIndex error =>
      exact hignored (hnone (endedPull_other hnet (fun _ _ _ h => by cases h))) h
  | manifestPushAck root error =>
      exact hignored (hnone (endedPull_other hnet (fun _ _ _ h => by cases h))) h
  | manifestData root bytes error =>
      have hended := @endedPull_manifestData addrOf chainRoot root q bytes error origin swarmRuns io hnet
      unfold onInput at h
      dsimp only at h
      by_cases hroot : root = chainRoot
      · rw [if_pos hroot] at hended
        rw [if_neg (not_not.mpr hroot)] at h
        cases hopen : f.openAt q with
        | none =>
            rw [hopen] at h
            refine hignored ?_ h
            intro p hp
            rw [hended] at hp
            cases hp
            exact hopen
        | some archive =>
            rw [hopen] at h
            dsimp only at h
            cases error with
            | some e => exact settle_step hended hopen h
            | none =>
                dsimp only at h
                split at h
                · cases h
                · exact settle_step hended hopen h
      · rw [if_neg hroot] at hended
        rw [if_pos hroot] at h
        exact hignored (hnone hended) h

end ManifestFetch

/-! ### The Private loop -/

namespace PrivateManifestFetch

/-- The part that both loops have. -/
def core (f : PrivateManifestFetch) : Fanout := ⟨f.archiveStatus, f.dispatchedPeers, f.peerAddresses⟩

theorem foldl_dispatchOne (targets : List (PeerId × Addr)) (f : PrivateManifestFetch) :
    (targets.foldl (dispatchOne true) f).core = f.core.ask targets := by
  induction targets generalizing f with
  | nil => rfl
  | cons t targets ih => exact ih _

variable [PeerOrder]

/-- While requests can be queued, a wave is the one of the other loop. -/
theorem dispatchWave_wave (f : PrivateManifestFetch) (fanout : Nat) :
    Fanout.Wave fanout f.core (f.dispatchWave fanout true).1.core (f.dispatchWave fanout true).2 := by
  have hselect : selectManifestDispatch f.archiveStatus (addrToPeer f.peerAddresses) fanout
      = if fanout ≤ f.core.inFlight.card then [] else f.core.targets fanout := by
    unfold selectManifestDispatch Fanout.targets
    rw [f.core.card_inFlight]
    rfl
  unfold dispatchWave
  rw [hselect]
  by_cases hfull : fanout ≤ f.core.inFlight.card
  · rw [if_pos hfull]
    exact .full hfull
  · rw [if_neg hfull]
    dsimp only
    rw [foldl_dispatchOne]
    exact .queued

theorem settle_step {f g : PrivateManifestFetch} {chainRoot : Hash} {fanout : Nat}
    {input : LoopInput} {archive : Addr} {p : PeerId} {reason : PrivateManifestReason}
    {pulls : List (PeerId × Addr)} (hended : endedPull chainRoot input = some p)
    (hopen : f.openAt p = some archive)
    (h : f.settle fanout true archive reason = .next g pulls) :
    Fanout.Step chainRoot fanout f.core input g.core pulls := by
  cases h
  exact .settled p archive hended hopen
    (dispatchWave_wave
      { f with archiveStatus := f.archiveStatus.insert archive .failed, lastReason := reason }
      fanout)

end PrivateManifestFetch

/--
The inputs the Private loop deals with: requests can be queued, and no failure is reported
of a request that its archive is still waiting for.
-/
def HeardByPrivate (chainRoot : Hash) (s : Fanout) : LoopInput → Prop
  | .event (.shardRequestFailed p _ origin) swarmRuns _ =>
      swarmRuns = true ∧ (origin.requestedManifestRoot = some chainRoot → s.openAt p = none)
  | .event _ swarmRuns _ => swarmRuns = true
  | _ => True

namespace PrivateManifestFetch

variable [PeerOrder] [Blake3] [CryptoLib] [ManifestReader]

theorem onInput_step {addrOf : PeerId → Addr} {f g : PrivateManifestFetch} {assigned : Finset Addr}
    {chainRoot kFile : Hash} {timeout : String} {maxConcurrent : Nat} {input : LoopInput}
    {pulls : List (PeerId × Addr)} (hnet : NetPromise addrOf input)
    (hheard : HeardByPrivate chainRoot f.core input)
    (h : f.onInput assigned chainRoot kFile timeout maxConcurrent input = .next g pulls) :
    Fanout.Step chainRoot (computeManifestFanout maxConcurrent assigned.card) f.core input g.core
      pulls := by
  have hignored : (∀ p, endedPull chainRoot input = some p → f.core.openAt p = none) →
      Outcome.next f [] = .next g pulls →
      Fanout.Step chainRoot (computeManifestFanout maxConcurrent assigned.card) f.core input g.core
        pulls := by
    intro hended hnext
    cases hnext
    exact .ignored hended rfl rfl
  have hnone : endedPull chainRoot input = none →
      ∀ p, endedPull chainRoot input = some p → f.core.openAt p = none := by
    intro hended p hp
    rw [hended] at hp
    cases hp
  cases input with
  | grace swarmRuns => exact hignored (hnone rfl) h
  | deadline => cases h
  | closed => cases h
  | event e swarmRuns io =>
  cases e with
  | peerDiscovered q => exact hignored (hnone rfl) h
  | shardReceived q response origin => exact hignored (hnone rfl) h
  | other => exact hignored (hnone rfl) h
  | peerIdentified q a =>
      have hruns : swarmRuns = true := hheard
      subst hruns
      cases h
      exact .peers _ _ _ rfl rfl (dispatchWave_wave
        { f with peerAddresses := applyPeerEvent f.peerAddresses (.peerIdentified q a) }
        (computeManifestFanout maxConcurrent assigned.card))
  | peerDisconnected q =>
      have hruns : swarmRuns = true := hheard
      subst hruns
      cases h
      exact .peers _ _ _ rfl rfl (dispatchWave_wave
        { f with peerAddresses := applyPeerEvent f.peerAddresses (.peerDisconnected q) }
        (computeManifestFanout maxConcurrent assigned.card))
  | shardRequestFailed q error origin =>
      refine hignored ?_ h
      intro p hp
      have hq : origin.peer = q := hnet
      have hended : (if origin.requestedManifestRoot = some chainRoot then some origin.peer
          else none) = some p := hp
      by_cases hroot : origin.requestedManifestRoot = some chainRoot
      · rw [if_pos hroot, hq] at hended
        cases hended
        exact hheard.2 hroot
      · rw [if_neg hroot] at hended
        cases hended
  | shardReceivedV2 q response origin =>
  have hruns : swarmRuns = true := hheard
  subst hruns
  cases response with
  | data body => exact hignored (hnone (endedPull_other hnet (fun _ _ _ h => by cases h))) h
  | pushAck root chunkIndex error =>
      exact hignored (hnone (endedPull_other hnet (fun _ _ _ h => by cases h))) h
  | manifestPushAck root error =>
      exact hignored (hnone (endedPull_other hnet (fun _ _ _ h => by cases h))) h
  | manifestData root bytes error =>
      have hended := @endedPull_manifestData addrOf chainRoot root q bytes error origin true io hnet
      unfold onInput at h
      dsimp only at h
      by_cases hroot : root = chainRoot
      · rw [if_pos hroot] at hended
        rw [if_neg (not_not.mpr hroot)] at h
        cases hopen : f.openAt q with
        | none =>
            rw [hopen] at h
            refine hignored ?_ h
            intro p hp
            rw [hended] at hp
            cases hp
            exact hopen
        | some archive =>
            rw [hopen] at h
            dsimp only at h
            cases error with
            | some e => exact settle_step hended hopen h
            | none =>
                dsimp only at h
                split at h
                · cases h
                · exact settle_step hended hopen h
      · rw [if_neg hroot] at hended
        rw [if_pos hroot] at h
        exact hignored (hnone hended) h

end PrivateManifestFetch

/-! ### Runs -/

/-- The archives that have failed. -/
def Fanout.failedOnes (assigned : Finset Addr) (s : Fanout) : Finset Addr :=
  assigned.filter fun a => s.status.lookup a = some .failed

/-- An archive whose pull was open joins those that have failed. -/
theorem FanoutSound.card_failedOnes {addrOf : PeerId → Addr} {assigned : Finset Addr}
    {fanout : Nat} {s : Fanout} {unanswered : List (PeerId × Addr)}
    (h : FanoutSound addrOf assigned fanout s unanswered)
    {p : PeerId} {archive : Addr} (hopen : s.openAt p = some archive) :
    (s.failedOnes assigned).card + 1 ≤ ((s.fail archive).failedOnes assigned).card := by
  have hstatus := (Fanout.openAt_eq_some.mp hopen).2
  have hnew : archive ∉ s.failedOnes assigned := by
    intro hmem
    have hfailed := (Finset.mem_filter.mp hmem).2
    rw [hstatus] at hfailed
    cases hfailed
  rw [← Finset.card_insert_of_notMem hnew]
  refine Finset.card_le_card ?_
  intro a ha
  refine Finset.mem_filter.mpr ?_
  show a ∈ assigned ∧ (s.status.insert archive .failed).lookup a = some .failed
  rw [Maps.lookup_insert]
  by_cases hone : a = archive
  · rw [if_pos hone, hone]
    exact ⟨h.candidates archive _ hstatus, rfl⟩
  · rw [if_neg hone]
    rcases Finset.mem_insert.mp ha with heq | ha
    · exact absurd heq hone
    · exact Finset.mem_filter.mp ha

/-- Whether an input ends the pull of an archive that waits for it. -/
def endsOpen (chainRoot : Hash) (s : Fanout) (input : LoopInput) : Bool :=
  ((endedPull chainRoot input).bind s.openAt).isSome

/-- A loop, the pulls it has sent that have not ended, and how many open ones have ended. -/
structure FanoutRun (φ : Type) where
  loop : φ
  unanswered : List (PeerId × Addr)
  ended : Nat

namespace FanoutRun

variable {φ : Type}

/-- After the first wave. -/
def start (wave : φ × List (PeerId × Addr)) : FanoutRun φ := ⟨wave.1, wave.2, 0⟩

/-- After an input that led to `g` and sent `pulls`; `core` is what the loop knows before it. -/
def after (r : FanoutRun φ) (chainRoot : Hash) (core : Fanout) (input : LoopInput) (g : φ)
    (pulls : List (PeerId × Addr)) : FanoutRun φ where
  loop := g
  unanswered := closePulls chainRoot input r.unanswered ++ pulls
  ended := if endsOpen chainRoot core input then r.ended + 1 else r.ended

end FanoutRun

/-- What a loop that waits for an event is to have. -/
structure FanoutHealthy [PeerOrder] (assigned : Finset Addr) (fanout : Nat) (s : Fanout)
    (unanswered : List (PeerId × Addr)) (ended : Nat) : Prop where
  unanswered : ∀ a, s.status.lookup a = some .dispatched → ∃ p, (p, a) ∈ unanswered
  filled : s.inFlight.card = fanout ∨
    ∀ a, s.status.lookup a = some .untried → addrToPeer s.peerAddresses a = none
  /-- An archive that could be asked waits behind open pulls, and not behind many. -/
  waits : ∀ a, s.status.lookup a = some .untried → addrToPeer s.peerAddresses a ≠ none →
    0 < s.inFlight.card ∧ ended < assigned.card

/-- What runs of either loop keep. -/
structure FanoutInvariant [PeerOrder] (addrOf : PeerId → Addr) (assigned : Finset Addr)
    (fanout : Nat) (s : Fanout) (unanswered : List (PeerId × Addr)) (ended : Nat) : Prop where
  sound : FanoutSound addrOf assigned fanout s unanswered
  filled : FanoutFilled fanout s
  counted : ended ≤ (s.failedOnes assigned).card

section

variable [PeerOrder] {addrOf : PeerId → Addr} {assigned : Finset Addr} {chainRoot : Hash}
  {fanout : Nat} {s s' : Fanout} {input : LoopInput} {unanswered pulls : List (PeerId × Addr)}
  {ended : Nat}

theorem Fanout.Wave.failedOnes_subset (hwave : Fanout.Wave fanout s s' pulls) :
    s.failedOnes assigned ⊆ s'.failedOnes assigned := by
  intro a ha
  obtain ⟨hmem, hfailed⟩ := Finset.mem_filter.mp ha
  exact Finset.mem_filter.mpr ⟨hmem, hwave.failed hfailed⟩

/-- Every settled pull is counted by an archive that failed. -/
theorem Fanout.Step.counted (hstep : Fanout.Step chainRoot fanout s input s' pulls)
    (h : FanoutSound addrOf assigned fanout s unanswered) :
    (if endsOpen chainRoot s input then (s.failedOnes assigned).card + 1
      else (s.failedOnes assigned).card) ≤ (s'.failedOnes assigned).card := by
  cases hstep with
  | peers e swarmRuns io hinput hended hwave =>
      have hopen : endsOpen chainRoot s input = false := by
        unfold endsOpen
        rw [hended]
        rfl
      rw [hopen]
      exact Finset.card_le_card hwave.failedOnes_subset
  | settled p archive hended hopen hwave =>
      have hends : endsOpen chainRoot s input = true := by
        unfold endsOpen
        rw [hended, Option.bind_some, hopen]
        rfl
      rw [if_pos hends]
      exact Nat.le_trans (h.card_failedOnes hopen) (Finset.card_le_card hwave.failedOnes_subset)
  | ignored hended hs hpulls =>
      have hopen : endsOpen chainRoot s input = false := by
        unfold endsOpen
        cases hp : endedPull chainRoot input with
        | none => rfl
        | some p =>
            rw [Option.bind_some, hended p hp]
            rfl
      rw [hopen, hs]
      exact Nat.le_refl _

/-- One step of a run. -/
theorem FanoutInvariant.step (h : FanoutInvariant addrOf assigned fanout s unanswered ended)
    (hnet : NetPromise addrOf input) (hstep : Fanout.Step chainRoot fanout s input s' pulls) :
    FanoutInvariant addrOf assigned fanout s' (closePulls chainRoot input unanswered ++ pulls)
      (if endsOpen chainRoot s input then ended + 1 else ended) := by
  obtain ⟨hsound, hfilled⟩ := hstep.preserves hnet h.sound h.filled
  refine ⟨hsound, hfilled, Nat.le_trans ?_ (hstep.counted h.sound)⟩
  have hcounted := h.counted
  split
  · omega
  · omega

/-- The invariant says what is asked, as soon as assigned archives give a slot. -/
theorem FanoutInvariant.healthy (h : FanoutInvariant addrOf assigned fanout s unanswered ended)
    (hslots : 0 < assigned.card → 0 < fanout) :
    FanoutHealthy assigned fanout s unanswered ended := by
  refine ⟨?_, h.filled, ?_⟩
  · intro a ha
    obtain ⟨p, hmem, -⟩ := h.sound.unanswered a ha
    exact ⟨p, hmem⟩
  · intro a ha hpeer
    have hmem := h.sound.candidates a _ ha
    constructor
    · rcases h.filled with hfull | hnone
      · rw [hfull]
        exact hslots (Finset.card_pos.mpr ⟨a, hmem⟩)
      · exact absurd (hnone a ha) hpeer
    · refine Nat.lt_of_le_of_lt h.counted (Finset.card_lt_card ?_)
      refine Finset.filter_ssubset.mpr ⟨a, hmem, ?_⟩
      rw [ha]
      intro hcontra
      cases hcontra

/-- The first wave of a loop that has asked nobody. -/
theorem FanoutInvariant.first
    (hknown : ∀ p a, s.peerAddresses.lookup p = some a → addrOf p = a)
    (hdispatched : s.dispatchedPeers = ∅)
    (hstatus : ∀ a status, s.status.lookup a = some status → a ∈ assigned ∧ status = .untried)
    (hwave : Fanout.Wave fanout s s' pulls) :
    FanoutInvariant addrOf assigned fanout s' pulls 0 := by
  have hnone : ∀ a, s.status.lookup a ≠ some .dispatched := by
    intro a ha
    cases (hstatus a _ ha).2
  have hsound : FanoutSound addrOf assigned fanout s [] := by
    refine ⟨hknown, ?_, ?_, ?_, ?_⟩
    · intro p a hp
      rw [hdispatched] at hp
      cases hp
    · intro a status ha
      exact (hstatus a status ha).1
    · intro a ha
      exact absurd ha (hnone a)
    · have hempty : s.inFlight = ∅ := by
        refine Finset.eq_empty_iff_forall_notMem.mpr ?_
        intro a ha
        exact hnone a (Fanout.mem_inFlight.mp ha)
      rw [hempty]
      exact Nat.zero_le _
  obtain ⟨hsound', hfilled⟩ := hwave.spec hsound
  exact ⟨hsound', hfilled, Nat.zero_le _⟩

/-- An input that ends the pull of an open archive makes it fail. -/
theorem Fanout.Step.settles (hstep : Fanout.Step chainRoot fanout s input s' pulls) {p : PeerId}
    {archive : Addr} (hended : endedPull chainRoot input = some p)
    (hopen : s.openAt p = some archive) : s'.status.lookup archive = some .failed := by
  cases hstep with
  | peers e swarmRuns io hinput hended' hwave =>
      rw [hended] at hended'
      cases hended'
  | settled q archive' hended' hopen' hwave =>
      rw [hended] at hended'
      cases hended'
      rw [hopen] at hopen'
      cases hopen'
      refine hwave.failed ?_
      show (s.status.insert archive .failed).lookup archive = _
      rw [Maps.lookup_insert, if_pos rfl]
  | ignored hended' hs hpulls =>
      rw [hended' p hended] at hopen
      cases hopen

end

/-! ### The loops start -/

/-- The archives of a list, none of them tried. -/
def untriedOnes (archives : List Addr) : Map Addr ManifestArchiveStatus :=
  (archives.map fun a => (⟨a, .untried⟩ : Sigma fun _ => ManifestArchiveStatus)).toAList

theorem untriedOnes_lookup {assigned : Finset Addr} {a : Addr} {status : ManifestArchiveStatus}
    (h : (untriedOnes (assigned.sort (· ≤ ·))).lookup a = some status) :
    a ∈ assigned ∧ status = .untried := by
  unfold untriedOnes at h
  rw [Maps.lookup_const] at h
  by_cases hmem : a ∈ assigned.sort (· ≤ ·)
  · rw [if_pos hmem] at h
    exact ⟨(Finset.mem_sort _).mp hmem, (Option.some.inj h).symm⟩
  · rw [if_neg hmem] at h
    cases h

theorem FanoutInvariant.start [PeerOrder] {addrOf : PeerId → Addr} {assigned : Finset Addr}
    {fanout : Nat} {peerAddresses : Map PeerId Addr} {s' : Fanout} {pulls : List (PeerId × Addr)}
    (hknown : ∀ p a, peerAddresses.lookup p = some a → addrOf p = a)
    (hwave : Fanout.Wave fanout
      ⟨untriedOnes (assigned.sort (· ≤ ·)), ∅, peerAddresses⟩ s' pulls) :
    FanoutInvariant addrOf assigned fanout s' pulls 0 :=
  .first hknown rfl (fun _ _ h => untriedOnes_lookup h) hwave

theorem ManifestFetch.fanout_pos (view : V2AssignmentView) (maxConcurrent : Nat)
    (h : 0 < view.distinctAssigned.card) : 0 < ManifestFetch.fanout view maxConcurrent := by
  unfold ManifestFetch.fanout
  omega

/-! ### Runs of the Public loop -/

namespace ManifestFetch

variable [PeerOrder]

/-- The run after the first wave. -/
def begin (view : V2AssignmentView) (maxConcurrent : Nat) (peerAddresses : Map PeerId Addr)
    (swarmRuns : Bool) : FanoutRun ManifestFetch :=
  .start ((initial view peerAddresses).dispatchWave (fanout view maxConcurrent) swarmRuns)

variable [Blake3] [ManifestReader]

/-- The loop goes around once, on an input the network layer can bring. -/
def Turn (addrOf : PeerId → Addr) (view : V2AssignmentView) (chainRoot : Hash)
    (maxConcurrent : Nat) (r : FanoutRun ManifestFetch) (input : LoopInput)
    (r' : FanoutRun ManifestFetch) : Prop :=
  r.loop.anyAlive = true ∧ NetPromise addrOf input ∧
    ∃ g pulls, r.loop.onInput view chainRoot maxConcurrent input = .next g pulls ∧
      r' = r.after chainRoot r.loop.core input g pulls

/-- The manifest is there, or the archive is given up. -/
def Settles (f : ManifestFetch) (view : V2AssignmentView) (chainRoot : Hash)
    (maxConcurrent : Nat) (input : LoopInput) (archive : Addr) : Prop :=
  (∃ g manifest, f.onInput view chainRoot maxConcurrent input = .done g manifest) ∨
    ∃ g pulls, f.onInput view chainRoot maxConcurrent input = .next g pulls ∧
      g.status.lookup archive = some .failed

theorem run_invariant {addrOf : PeerId → Addr} {view : V2AssignmentView} {chainRoot : Hash}
    {maxConcurrent : Nat} {peerAddresses : Map PeerId Addr} {swarmRuns : Bool}
    {inputs : List LoopInput} {r : FanoutRun ManifestFetch}
    (hknown : ∀ p a, peerAddresses.lookup p = some a → addrOf p = a)
    (hrun : Run (Turn addrOf view chainRoot maxConcurrent)
      (begin view maxConcurrent peerAddresses swarmRuns) inputs r) :
    FanoutInvariant addrOf view.distinctAssigned (fanout view maxConcurrent) r.loop.core
      r.unanswered r.ended := by
  refine hrun.invariant (P := fun _ r => FanoutInvariant addrOf view.distinctAssigned
    (fanout view maxConcurrent) r.loop.core r.unanswered r.ended) ?_ [] ?_
  · rintro past r input r' h ⟨-, hnet, g, pulls, hnext, rfl⟩
    exact h.step hnet (onInput_step hnet hnext)
  · exact .start hknown (dispatchWave_wave (initial view peerAddresses) _ _)

/-- Only the deadline and the end of the events make the loop fail at once. -/
theorem onInput_ended {f : ManifestFetch} {view : V2AssignmentView} {chainRoot : Hash}
    {maxConcurrent : Nat} {input : LoopInput} {p : PeerId} {e : ManifestFetchError}
    (hended : endedPull chainRoot input = some p) :
    f.onInput view chainRoot maxConcurrent input ≠ .failed e := by
  intro h
  cases input with
  | grace swarmRuns => cases hended
  | deadline => cases hended
  | closed => cases hended
  | event e swarmRuns io =>
      unfold onInput settle at h
      dsimp only at h
      repeat' split at h
      all_goals cases h

theorem settles {addrOf : PeerId → Addr} {f : ManifestFetch} {view : V2AssignmentView}
    {chainRoot : Hash} {maxConcurrent : Nat} {input : LoopInput} {p : PeerId} {archive : Addr}
    (hnet : NetPromise addrOf input) (hended : endedPull chainRoot input = some p)
    (hopen : f.openAt p = some archive) :
    f.Settles view chainRoot maxConcurrent input archive := by
  cases hout : f.onInput view chainRoot maxConcurrent input with
  | next g pulls => exact .inr ⟨g, pulls, hout, (onInput_step hnet hout).settles hended hopen⟩
  | done g manifest => exact .inl ⟨g, manifest, hout⟩
  | failed e => exact absurd hout (onInput_ended hended)

end ManifestFetch

theorem computeManifestFanout_pos (maxConcurrent : Nat) {n : Nat} (h : 0 < n) :
    0 < computeManifestFanout maxConcurrent n := by
  unfold computeManifestFanout
  rw [if_neg (by omega)]
  omega

/-! ### Runs of the Private loop -/

namespace PrivateManifestFetch

variable [PeerOrder]

/-- The run after the first wave. -/
def begin (assigned : Finset Addr) (maxConcurrent : Nat) (peerAddresses : Map PeerId Addr)
    (swarmRuns : Bool) : FanoutRun PrivateManifestFetch :=
  .start ((initial assigned peerAddresses).dispatchWave
    (computeManifestFanout maxConcurrent assigned.card) swarmRuns)

variable [Blake3] [CryptoLib] [ManifestReader]

/-- The loop goes around once, on an input the network layer can bring. -/
def Turn (addrOf : PeerId → Addr) (assigned : Finset Addr) (chainRoot kFile : Hash)
    (timeout : String) (maxConcurrent : Nat) (r : FanoutRun PrivateManifestFetch)
    (input : LoopInput) (r' : FanoutRun PrivateManifestFetch) : Prop :=
  r.loop.anyAlive = true ∧ NetPromise addrOf input ∧
    ∃ g pulls, r.loop.onInput assigned chainRoot kFile timeout maxConcurrent input = .next g pulls ∧
      r' = r.after chainRoot r.loop.core input g pulls

/-- The manifest is there, or the archive is given up. -/
def Settles (f : PrivateManifestFetch) (assigned : Finset Addr) (chainRoot kFile : Hash)
    (timeout : String) (maxConcurrent : Nat) (input : LoopInput) (archive : Addr) : Prop :=
  (∃ manifest, f.onInput assigned chainRoot kFile timeout maxConcurrent input = .done manifest) ∨
    ∃ g pulls, f.onInput assigned chainRoot kFile timeout maxConcurrent input = .next g pulls ∧
      g.archiveStatus.lookup archive = some .failed

/-- A turn on an input that the loop deals with. -/
def HeardTurn (addrOf : PeerId → Addr) (assigned : Finset Addr) (chainRoot kFile : Hash)
    (timeout : String) (maxConcurrent : Nat) (r : FanoutRun PrivateManifestFetch)
    (input : LoopInput) (r' : FanoutRun PrivateManifestFetch) : Prop :=
  Turn addrOf assigned chainRoot kFile timeout maxConcurrent r input r' ∧
    HeardByPrivate chainRoot r.loop.core input

theorem run_invariant {addrOf : PeerId → Addr} {assigned : Finset Addr} {chainRoot kFile : Hash}
    {timeout : String} {maxConcurrent : Nat} {peerAddresses : Map PeerId Addr}
    {inputs : List LoopInput} {r : FanoutRun PrivateManifestFetch}
    (hknown : ∀ p a, peerAddresses.lookup p = some a → addrOf p = a)
    (hrun : Run (HeardTurn addrOf assigned chainRoot kFile timeout maxConcurrent)
      (begin assigned maxConcurrent peerAddresses true) inputs r) :
    FanoutInvariant addrOf assigned (computeManifestFanout maxConcurrent assigned.card) r.loop.core
      r.unanswered r.ended := by
  refine hrun.invariant (P := fun _ r => FanoutInvariant addrOf assigned
    (computeManifestFanout maxConcurrent assigned.card) r.loop.core r.unanswered r.ended) ?_ [] ?_
  · rintro past r input r' h ⟨⟨-, hnet, g, pulls, hnext, rfl⟩, hheard⟩
    exact h.step hnet (onInput_step hnet hheard hnext)
  · exact .start hknown (dispatchWave_wave (initial assigned peerAddresses) _)

theorem onInput_ended {f : PrivateManifestFetch} {assigned : Finset Addr} {chainRoot kFile : Hash}
    {timeout : String} {maxConcurrent : Nat} {input : LoopInput} {p : PeerId}
    {e : PrivateManifestError} (hended : endedPull chainRoot input = some p) :
    f.onInput assigned chainRoot kFile timeout maxConcurrent input ≠ .failed e := by
  intro h
  cases input with
  | grace swarmRuns => cases hended
  | deadline => cases hended
  | closed => cases hended
  | event e swarmRuns io =>
      unfold onInput settle at h
      dsimp only at h
      repeat' split at h
      all_goals cases h

theorem settles {addrOf : PeerId → Addr} {f : PrivateManifestFetch} {assigned : Finset Addr}
    {chainRoot kFile : Hash} {timeout : String} {maxConcurrent : Nat} {input : LoopInput}
    {p : PeerId} {archive : Addr} (hnet : NetPromise addrOf input)
    (hheard : HeardByPrivate chainRoot f.core input) (hended : endedPull chainRoot input = some p)
    (hopen : f.openAt p = some archive) :
    f.Settles assigned chainRoot kFile timeout maxConcurrent input archive := by
  cases hout : f.onInput assigned chainRoot kFile timeout maxConcurrent input with
  | next g pulls =>
      exact .inr ⟨g, pulls, hout, (onInput_step hnet hheard hout).settles hended hopen⟩
  | done manifest => exact .inl ⟨manifest, hout⟩
  | failed e => exact absurd hout (onInput_ended hended)

end PrivateManifestFetch

/-! ### Neither loop stalls -/

/--
In every run of the Public loop, and in every run of the Private one that hears of no
failed request: a dispatched archive has an open pull, slots are free only when nobody
can be asked, and the end of a pull brings the manifest or fails its archive.
-/
theorem manifest_fanout_never_stalls [PeerOrder] [Blake3] [CryptoLib] [ManifestReader]
    (addrOf : PeerId → Addr) (chainRoot : Hash) (maxConcurrent : Nat)
    (peerAddresses : Map PeerId Addr)
    (hknown : ∀ p a, peerAddresses.lookup p = some a → addrOf p = a) :
    (∀ view swarmRuns inputs r,
      Run (ManifestFetch.Turn addrOf view chainRoot maxConcurrent)
        (ManifestFetch.begin view maxConcurrent peerAddresses swarmRuns) inputs r →
      FanoutHealthy view.distinctAssigned (ManifestFetch.fanout view maxConcurrent) r.loop.core
        r.unanswered r.ended ∧
      ∀ input p archive, NetPromise addrOf input → endedPull chainRoot input = some p →
        r.loop.openAt p = some archive →
        r.loop.Settles view chainRoot maxConcurrent input archive) ∧
    (∀ assigned kFile timeout inputs r,
      Run (PrivateManifestFetch.HeardTurn addrOf assigned chainRoot kFile timeout maxConcurrent)
        (PrivateManifestFetch.begin assigned maxConcurrent peerAddresses true) inputs r →
      FanoutHealthy assigned (computeManifestFanout maxConcurrent assigned.card) r.loop.core
        r.unanswered r.ended ∧
      ∀ input p archive, NetPromise addrOf input → HeardByPrivate chainRoot r.loop.core input →
        endedPull chainRoot input = some p → r.loop.openAt p = some archive →
        r.loop.Settles assigned chainRoot kFile timeout maxConcurrent input archive) := by
  constructor
  · intro view swarmRuns inputs r hrun
    refine ⟨(ManifestFetch.run_invariant hknown hrun).healthy ?_, ?_⟩
    · exact ManifestFetch.fanout_pos view maxConcurrent
    · intro input p archive hnet hended hopen
      exact ManifestFetch.settles hnet hended hopen
  · intro assigned kFile timeout inputs r hrun
    refine ⟨(PrivateManifestFetch.run_invariant hknown hrun).healthy ?_, ?_⟩
    · exact computeManifestFanout_pos maxConcurrent
    · intro input p archive hnet hheard hended hopen
      exact PrivateManifestFetch.settles hnet hheard hended hopen

/-! ### An archive that cannot be reached -/

section

/-- Peer 7 is archive 0, peer 8 archive 1. -/
def twoArchives : Map PeerId Addr := ((∅ : Map PeerId Addr).insert 8 1).insert 7 0

def twoArchivesAddr (p : PeerId) : Addr := if p = 7 then 0 else 1

theorem twoArchives_known (p : PeerId) (a : Addr) (h : twoArchives.lookup p = some a) :
    twoArchivesAddr p = a := by
  unfold twoArchivesAddr
  rcases Maps.lookup_insert_some.mp h with ⟨rfl, rfl⟩ | ⟨hne, h⟩
  · rfl
  · rw [if_neg hne]
    rcases Maps.lookup_insert_some.mp h with ⟨-, rfl⟩ | ⟨-, h⟩
    · rfl
    · cases h

/-- The request for the manifest of `root` did not reach archive 0. -/
def unreachable (root : Hash) : LoopInput :=
  .event (.shardRequestFailed 7 "dial failure".toList ⟨7, .v2ManifestPull root⟩) true .done

theorem sort_twoArchives : ({0, 1} : Finset Addr).sort (· ≤ ·) = [0, 1] := by
  have hfirst : ∀ b ∈ ({1} : Finset Addr), 0 ≤ b := fun b _ => Fin.zero_le b
  have hnew : (0 : Addr) ∉ ({1} : Finset Addr) := by
    rw [Finset.mem_singleton]
    decide
  rw [Finset.sort_insert _ hfirst hnew, Finset.sort_singleton]

/-- Archive 0 is asked, archive 1 waits. -/
def firstAsked : Map Addr ManifestArchiveStatus :=
  (untriedOnes [0, 1]).insert 0 .dispatched

theorem private_initial_twoArchives (peers : Map PeerId Addr) :
    PrivateManifestFetch.initial {0, 1} peers = ⟨untriedOnes [0, 1], ∅, peers, .noResponses⟩ := by
  unfold PrivateManifestFetch.initial ManifestFetch.allUntried
  rw [sort_twoArchives]
  rfl

theorem private_begin_twoArchives :
    letI := PeerOrder.keys
    PrivateManifestFetch.begin {0, 1} 1 twoArchives true
      = ⟨⟨firstAsked, (∅ : Map PeerId Addr).insert 7 0, twoArchives, .noResponses⟩, [(7, 0)], 0⟩ := by
  let _ := PeerOrder.keys
  unfold PrivateManifestFetch.begin
  rw [private_initial_twoArchives]
  rfl

/-- The same two archives, as the Public loop is given them. -/
def twoArchivesView : V2AssignmentView := ⟨[0, 1], 1, {0, 1}, ∅⟩

theorem public_begin_twoArchives :
    letI := PeerOrder.keys
    ManifestFetch.begin twoArchivesView 1 twoArchives true
      = ⟨⟨firstAsked, (∅ : Map PeerId Addr).insert 7 0, twoArchives, .noResponses⟩, [(7, 0)], 0⟩ := by
  let _ := PeerOrder.keys
  have hinitial : ManifestFetch.initial twoArchivesView twoArchives
      = ⟨untriedOnes [0, 1], ∅, twoArchives, .noResponses⟩ := by
    unfold ManifestFetch.initial twoArchivesView
    rw [sort_twoArchives]
    rfl
  unfold ManifestFetch.begin
  rw [hinitial]
  rfl

end

/-- The Public loop goes on to archive 1; the Private one waits for archive 0 when it has left. -/
theorem unreachable_archive_replaced :
    letI := PeerOrder.keys
    letI := Blake3.reference
    letI := CryptoLib.reference
    letI : ManifestReader := ⟨fun _ => .error []⟩
    (∃ r, Run (ManifestFetch.Turn twoArchivesAddr twoArchivesView (Hash.fill 2) 1)
        (ManifestFetch.begin twoArchivesView 1 twoArchives true) [unreachable (Hash.fill 2)] r ∧
      r.unanswered = [(8, 1)] ∧
      FanoutHealthy {0, 1} (ManifestFetch.fanout twoArchivesView 1) r.loop.core r.unanswered
        r.ended) ∧
    ∃ r, Run (PrivateManifestFetch.HeardTurn twoArchivesAddr {0, 1} (Hash.fill 2) (Hash.fill 3) "60s" 1)
        (PrivateManifestFetch.begin {0, 1} 1 twoArchives true)
        [.event (.peerDisconnected 7) true .done] r ∧
      FanoutHealthy {0, 1} (computeManifestFanout 1 ({0, 1} : Finset Addr).card) r.loop.core
        r.unanswered r.ended := by
  let _ := PeerOrder.keys
  generalize Blake3.reference = b
  generalize CryptoLib.reference = c
  let _ : ManifestReader := ⟨fun _ => .error []⟩
  obtain ⟨hpublic, hprivate⟩ := manifest_fanout_never_stalls twoArchivesAddr (Hash.fill 2) 1
    twoArchives twoArchives_known
  constructor
  · have hrun : ∃ r, Run (ManifestFetch.Turn twoArchivesAddr twoArchivesView (Hash.fill 2) 1)
        (ManifestFetch.begin twoArchivesView 1 twoArchives true) [unreachable (Hash.fill 2)] r ∧
        r.unanswered = [(8, 1)] := by
      rw [public_begin_twoArchives]
      exact ⟨_, .single ⟨rfl, rfl, _, _, rfl, rfl⟩, rfl⟩
    obtain ⟨r, hrun, hpulls⟩ := hrun
    exact ⟨r, hrun, hpulls, (hpublic _ _ _ _ hrun).1⟩
  · have hrun : ∃ r, Run (PrivateManifestFetch.HeardTurn twoArchivesAddr {0, 1} (Hash.fill 2)
        (Hash.fill 3) "60s" 1) (PrivateManifestFetch.begin {0, 1} 1 twoArchives true)
        [.event (.peerDisconnected 7) true .done] r := by
      rw [private_begin_twoArchives]
      exact ⟨_, .single ⟨⟨rfl, trivial, _, _, rfl, rfl⟩, rfl⟩⟩
    obtain ⟨r, hrun⟩ := hrun
    exact ⟨r, hrun, (hprivate _ _ _ _ _ hrun).1⟩

/--
The Private loop ignores the failure: archive 0 stays dispatched with no pull open, and
archive 1, which is identified, is not asked.
-/
theorem unreachable_archive_stalls :
    letI := PeerOrder.keys
    letI := Blake3.reference
    letI := CryptoLib.reference
    letI : ManifestReader := ⟨fun _ => .error []⟩
    ∃ r, Run (PrivateManifestFetch.Turn twoArchivesAddr {0, 1} (Hash.fill 2) (Hash.fill 3) "60s" 1)
        (PrivateManifestFetch.begin {0, 1} 1 twoArchives true) [unreachable (Hash.fill 2)] r ∧
      r.loop.anyAlive = true ∧ r.loop.archiveStatus.lookup 0 = some .dispatched ∧
      r.unanswered = [] ∧ r.loop.archiveStatus.lookup 1 = some .untried ∧
      addrToPeer r.loop.peerAddresses 1 = some 8 ∧
      ¬ FanoutHealthy {0, 1} (computeManifestFanout 1 ({0, 1} : Finset Addr).card) r.loop.core
        r.unanswered r.ended := by
  let _ := PeerOrder.keys
  generalize Blake3.reference = b
  generalize CryptoLib.reference = c
  let _ : ManifestReader := ⟨fun _ => .error []⟩
  rw [private_begin_twoArchives]
  refine ⟨_, .single ⟨rfl, rfl, _, _, rfl, rfl⟩, rfl, rfl, rfl, rfl, rfl, ?_⟩
  intro h
  obtain ⟨p, hp⟩ := h.unanswered 0 rfl
  cases hp

end Snip
