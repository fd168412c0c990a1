/-
When the wait for the archives agrees with the resolver.

Discovery counts with a map of its own, which starts with one peer for each required
address and then hears the same events as the resolver's.  So the two maps agree on
every peer that an event was about, and the resolver may know more about the others:
further peers that report a required address.  They part over an address when its
first peer leaves while one of the others stays and nobody identifies with it anew.
-/
import Snip.Node.PeerDiscovery
import Snip.Lib.Maps
import Snip.Proofs.PushTargets

namespace Snip

/-! ### Two maps and the same events -/

/-- What a turn of the loop does to a map of peers. -/
def Wake.apply (map : Map PeerId Addr) : Wake → Map PeerId Addr
  | .event e => applyPeerEvent map e
  | _ => map

/-- The map after these turns. -/
def mapAfter (map : Map PeerId Addr) (past : List (Wake × Nat)) : Map PeerId Addr :=
  past.foldl (fun map w => w.1.apply map) map

/-- The clock as the turn after these reads it. -/
def clockAfter (started : Nat) (past : List (Wake × Nat)) : Nat :=
  past.foldl (fun _ w => w.2) started

/-- An identification or a disconnection of this peer. -/
def Wake.About (peer : PeerId) : Wake → Prop
  | .event (.peerIdentified peerId _) | .event (.peerDisconnected peerId) => peerId = peer
  | _ => False

def HeardOf (past : List (Wake × Nat)) (peer : PeerId) : Prop := ∃ w ∈ past, w.1.About peer

theorem Wake.lookup_of_about {w : Wake} {peer : PeerId} (h : w.About peer)
    (map map' : Map PeerId Addr) : (w.apply map).lookup peer = (w.apply map').lookup peer := by
  unfold About at h
  split at h
  · rename_i l1Address
    subst h
    exact (AList.lookup_insert map).trans (AList.lookup_insert map').symm
  · rename_i peerId
    subst h
    exact (AList.lookup_erase peerId map).trans (AList.lookup_erase peerId map').symm
  · exact absurd h not_false

theorem Wake.lookup_of_not_about {w : Wake} {peer : PeerId} (h : ¬ w.About peer)
    (map : Map PeerId Addr) : (w.apply map).lookup peer = map.lookup peer := by
  cases w with
  | closed => rfl
  | timer => rfl
  | event e =>
      cases e with
      | peerIdentified peerId l1Address => exact AList.lookup_insert_ne (Ne.symm h)
      | peerDisconnected peerId => exact AList.lookup_erase_ne (Ne.symm h)
      | peerDiscovered _ => rfl
      | shardReceived _ _ _ => rfl
      | shardReceivedV2 _ _ _ => rfl
      | shardRequestFailed _ _ _ => rfl
      | other => rfl

/-- Where no event was about a peer, the map is what it was. -/
theorem lookup_mapAfter_of_not {past : List (Wake × Nat)} {peer : PeerId}
    (h : ¬ HeardOf past peer) (map : Map PeerId Addr) :
    (mapAfter map past).lookup peer = map.lookup peer := by
  induction past generalizing map with
  | nil => rfl
  | cons w past ih =>
      have hw : ¬ w.1.About peer := fun ha => h ⟨w, List.mem_cons_self .., ha⟩
      have hpast : ¬ HeardOf past peer := fun ⟨v, hv, ha⟩ => h ⟨v, List.mem_cons_of_mem _ hv, ha⟩
      show (mapAfter (w.1.apply map) past).lookup peer = _
      rw [ih hpast, Wake.lookup_of_not_about hw]

/-- Where some event was, the map that came before does not matter. -/
theorem lookup_mapAfter_of_heard {past : List (Wake × Nat)} {peer : PeerId}
    (h : HeardOf past peer) (map map' : Map PeerId Addr) :
    (mapAfter map past).lookup peer = (mapAfter map' past).lookup peer := by
  induction past generalizing map map' with
  | nil =>
      obtain ⟨w, hw, -⟩ := h
      cases hw
  | cons w past ih =>
      show (mapAfter (w.1.apply map) past).lookup peer = (mapAfter (w.1.apply map') past).lookup peer
      by_cases hpast : HeardOf past peer
      · exact ih hpast _ _
      · obtain ⟨v, hv, ha⟩ := h
        have hw : w.1.About peer := by
          rcases List.mem_cons.mp hv with rfl | hv
          · exact ha
          · exact absurd ⟨v, hv, ha⟩ hpast
        rw [lookup_mapAfter_of_not hpast, lookup_mapAfter_of_not hpast]
        exact Wake.lookup_of_about hw _ _

/-! ### Who counts -/

/-- Some peer of the map reports this address. -/
def Reported (map : Map PeerId Addr) (addr : Addr) : Prop := ∃ peer, map.lookup peer = some addr

theorem mem_values_iff {map : Map PeerId Addr} {addr : Addr} :
    addr ∈ map.entries.map Sigma.snd ↔ Reported map addr := by
  constructor
  · intro h
    obtain ⟨⟨peer, a⟩, he, ha⟩ := List.mem_map.mp h
    obtain rfl : a = addr := ha
    exact ⟨peer, AList.mem_lookup_iff.mpr he⟩
  · rintro ⟨peer, hlook⟩
    exact List.mem_map.mpr ⟨⟨peer, addr⟩, AList.mem_lookup_iff.mp hlook, rfl⟩

theorem MapPeerResolver.resolve_isSome_iff {m : MapPeerResolver} {addr : Addr} :
    (m.resolve addr).isSome = true ↔ Reported m.peerAddresses addr := by
  unfold resolve
  rw [List.isSome_min?_iff, ← mem_values_iff]
  constructor
  · intro hne
    obtain ⟨peer, hmem⟩ := List.exists_mem_of_ne_nil _ hne
    obtain ⟨e, he, -⟩ := List.mem_map.mp hmem
    obtain ⟨hentry, haddr⟩ := List.mem_filter.mp he
    exact List.mem_map.mpr ⟨e, hentry, by simpa using haddr⟩
  · intro hmem
    obtain ⟨e, he, haddr⟩ := List.mem_map.mp hmem
    exact List.ne_nil_of_mem
      (List.mem_map_of_mem (List.mem_filter.mpr ⟨he, by simpa using haddr⟩))

theorem ArchiveDiscovery.mem_missing {d : ArchiveDiscovery} {addr : Addr} :
    addr ∈ d.missing ↔ addr ∈ d.required ∧ ¬ Reported d.live addr := by
  unfold missing
  dsimp only
  rw [List.mem_filter, Finset.mem_sort, decide_eq_true_iff, mem_values_iff]

/-- The discovery after these turns. -/
def ArchiveDiscovery.after (d : ArchiveDiscovery) (past : List (Wake × Nat)) : ArchiveDiscovery :=
  { d with live := mapAfter d.live past }

def MapPeerResolver.after (m : MapPeerResolver) (past : List (Wake × Nat)) : MapPeerResolver :=
  ⟨mapAfter m.peerAddresses past⟩

/-! ### The seed -/

/--
Seeding from a list of addresses.  The step is known by what it does with an address that
resolves and with one that does not.
-/
theorem foldl_seed (peers : MapPeerResolver) {step : ArchiveDiscovery → Addr → ArchiveDiscovery}
    (hnone : ∀ d addr, peers.resolve addr = none → step d addr = d)
    (hsome : ∀ d addr peer, peers.resolve addr = some peer → step d addr = d.seed peer addr)
    (addrs : List Addr) (d : ArchiveDiscovery)
    (hd : ∀ peer a, d.live.lookup peer = some a → peers.resolve a = some peer) :
    (addrs.foldl step d).required = d.required ∧ (addrs.foldl step d).deadline = d.deadline ∧
      ∀ peer a, (addrs.foldl step d).live.lookup peer = some a ↔
        d.live.lookup peer = some a ∨ a ∈ addrs ∧ peers.resolve a = some peer := by
  induction addrs generalizing d with
  | nil =>
      refine ⟨rfl, rfl, fun peer a => ?_⟩
      simp
  | cons addr addrs ih =>
      rw [List.foldl_cons]
      cases hresolve : peers.resolve addr with
      | none =>
          rw [hnone d addr hresolve]
          obtain ⟨hrequired, hdeadline, hlive⟩ := ih d hd
          refine ⟨hrequired, hdeadline, fun peer a => (hlive peer a).trans (or_congr_right ?_)⟩
          rw [List.mem_cons]
          constructor
          · rintro ⟨hmem, ha⟩
            exact ⟨Or.inr hmem, ha⟩
          · rintro ⟨rfl | hmem, ha⟩
            · cases hresolve.symm.trans ha
            · exact ⟨hmem, ha⟩
      | some p =>
          rw [hsome d addr p hresolve]
          have hseed : ∀ peer a, (d.seed p addr).live.lookup peer = some a →
              peers.resolve a = some peer := by
            intro peer a h
            rcases Maps.lookup_insert_some.mp h with ⟨rfl, rfl⟩ | ⟨-, h⟩
            · exact hresolve
            · exact hd peer a h
          obtain ⟨hrequired, hdeadline, hlive⟩ := ih (d.seed p addr) hseed
          refine ⟨hrequired, hdeadline, fun peer a => (hlive peer a).trans ?_⟩
          rw [List.mem_cons]
          constructor
          · rintro (h | ⟨hmem, ha⟩)
            · rcases Maps.lookup_insert_some.mp h with ⟨rfl, rfl⟩ | ⟨-, h⟩
              · exact Or.inr ⟨Or.inl rfl, hresolve⟩
              · exact Or.inl h
            · exact Or.inr ⟨Or.inr hmem, ha⟩
          · rintro (h | ⟨rfl | hmem, ha⟩)
            · refine Or.inl (Maps.lookup_insert_some.mpr ?_)
              by_cases hp : peer = p
              · -- A peer reports one address only.
                subst hp
                have hone := (MapPeerResolver.lookup_of_resolve (hd peer a h)).symm.trans
                  (MapPeerResolver.lookup_of_resolve hresolve)
                exact Or.inl ⟨rfl, (Option.some.inj hone).symm⟩
              · exact Or.inr ⟨hp, h⟩
            · obtain rfl := Option.some.inj (hresolve.symm.trans ha)
              exact Or.inl (AList.lookup_insert _)
            · exact Or.inr ⟨hmem, ha⟩

/-- The discovery starts with the resolver's peer for each address, and with nothing else. -/
theorem seededDiscovery_spec (peers : MapPeerResolver) (required : Finset Addr) (deadline : Nat) :
    (seededDiscovery peers required deadline).required = required ∧
    (seededDiscovery peers required deadline).deadline = deadline ∧
    ∀ peer a, (seededDiscovery peers required deadline).live.lookup peer = some a ↔
      a ∈ required ∧ peers.resolve a = some peer := by
  unfold seededDiscovery
  refine And.imp_right (And.imp_right fun hlive peer a => (hlive peer a).trans ?_)
    (foldl_seed peers ?_ ?_ (required.sort (· ≤ ·)) (.new required deadline) ?_)
  · intro d addr h
    simp only [h]
  · intro d addr peer h
    simp only [h]
  · intro peer a h
    rw [ArchiveDiscovery.new, AList.lookup_empty] at h
    cases h
  · rw [ArchiveDiscovery.new, AList.lookup_empty, Finset.mem_sort]
    simp

/-! ### Where the two maps part -/

/--
The address has lost the peer that discovery started with, another one that reported
it from the start was not heard of since, and nobody identified with it anew.
-/
def Orphaned (peers : MapPeerResolver) (past : List (Wake × Nat)) (addr : Addr) : Prop :=
  (∃ peer, peers.resolve addr = some peer ∧ HeardOf past peer) ∧
  (∃ peer, peers.peerAddresses.lookup peer = some addr ∧ ¬ HeardOf past peer) ∧
  ¬ Reported (mapAfter ∅ past) addr

/-- What is known of an address: old news, or an identification since. -/
theorem reported_mapAfter_iff {map : Map PeerId Addr} {past : List (Wake × Nat)} {addr : Addr} :
    Reported (mapAfter map past) addr ↔
      (∃ peer, map.lookup peer = some addr ∧ ¬ HeardOf past peer) ∨
        Reported (mapAfter ∅ past) addr := by
  constructor
  · rintro ⟨peer, hlook⟩
    by_cases hheard : HeardOf past peer
    · rw [lookup_mapAfter_of_heard hheard map ∅] at hlook
      exact Or.inr ⟨peer, hlook⟩
    · rw [lookup_mapAfter_of_not hheard] at hlook
      exact Or.inl ⟨peer, hlook, hheard⟩
  · rintro (⟨peer, hlook, hheard⟩ | ⟨peer, hlook⟩)
    · exact ⟨peer, (lookup_mapAfter_of_not hheard map).trans hlook⟩
    · by_cases hheard : HeardOf past peer
      · exact ⟨peer, (lookup_mapAfter_of_heard hheard map ∅).trans hlook⟩
      · rw [lookup_mapAfter_of_not hheard, AList.lookup_empty] at hlook
        cases hlook

/-- Discovery misses what the resolver misses, and the orphaned addresses besides. -/
theorem mem_missing_after_iff {peers : MapPeerResolver} {required : Finset Addr} {deadline : Nat}
    {past : List (Wake × Nat)} {addr : Addr} :
    addr ∈ ((seededDiscovery peers required deadline).after past).missing ↔
      addr ∈ required ∧ (¬ ((peers.after past).resolve addr).isSome = true ∨
        Orphaned peers past addr) := by
  obtain ⟨hrequired, -, hlive⟩ := seededDiscovery_spec peers required deadline
  rw [ArchiveDiscovery.mem_missing, MapPeerResolver.resolve_isSome_iff]
  show addr ∈ (seededDiscovery peers required deadline).required ∧ _ ↔ _
  rw [hrequired]
  refine and_congr_right fun hmem => ?_
  show ¬ Reported (mapAfter (seededDiscovery peers required deadline).live past) addr ↔
    ¬ Reported (mapAfter peers.peerAddresses past) addr ∨ _
  rw [reported_mapAfter_iff, @reported_mapAfter_iff peers.peerAddresses]
  constructor
  · intro hnot
    rw [not_or] at hnot
    obtain ⟨hseed, hnew⟩ := hnot
    by_cases hold : ∃ peer, peers.peerAddresses.lookup peer = some addr ∧ ¬ HeardOf past peer
    · refine Or.inr ⟨?_, hold, hnew⟩
      obtain ⟨other, hother, -⟩ := hold
      obtain ⟨peer, hpeer⟩ := Option.isSome_iff_exists.mp
        (MapPeerResolver.resolve_isSome_iff.mpr ⟨other, hother⟩)
      refine ⟨peer, hpeer, ?_⟩
      by_contra hheard
      exact hseed ⟨peer, (hlive peer addr).mpr ⟨hmem, hpeer⟩, hheard⟩
    · exact Or.inl fun h => h.elim hold hnew
  · rintro (hnot | ⟨⟨peer, hpeer, hheard⟩, -, hnew⟩) (⟨q, hq, hquiet⟩ | h)
    · obtain ⟨-, hres⟩ := (hlive q addr).mp hq
      exact hnot (Or.inl ⟨q, MapPeerResolver.lookup_of_resolve hres, hquiet⟩)
    · exact hnot (Or.inr h)
    · obtain ⟨-, hres⟩ := (hlive q addr).mp hq
      obtain rfl := Option.some.inj (hpeer.symm.trans hres)
      exact hquiet hheard
    · exact hnew h

/-! ### The loop -/

theorem ArchiveDiscovery.status_complete {d : ArchiveDiscovery} (h : d.missing = []) (now : Nat) :
    d.status now = .complete := by
  unfold status
  rw [h]
  rfl

theorem ArchiveDiscovery.status_timedOut {d : ArchiveDiscovery} {now : Nat} (h : d.missing ≠ [])
    (hlate : d.deadline ≤ now) : d.status now = .timedOut d.missing := by
  unfold status
  dsimp only
  rw [if_neg h, if_pos hlate]

theorem ArchiveDiscovery.status_waiting {d : ArchiveDiscovery} {now : Nat} (h : d.missing ≠ [])
    (hearly : now < d.deadline) : d.status now = .waiting d.missing.length := by
  unfold status
  dsimp only
  rw [if_neg h, if_neg (Nat.not_le_of_lt hearly)]

/-- Where the loop waits, it takes the next turn. -/
theorem awaitLoop_cons {timeout : Nat} {d : ArchiveDiscovery} {peers : MapPeerResolver} {now : Nat}
    (h : d.missing ≠ []) (hearly : now < d.deadline) {w : Wake × Nat} (hopen : w.1 ≠ .closed)
    (wakes : List (Wake × Nat)) :
    awaitLoop timeout d peers now (w :: wakes) =
      awaitLoop timeout (d.after [w]) (peers.after [w]) w.2 wakes := by
  obtain ⟨wake, later⟩ := w
  refine (awaitLoop.eq_def ..).trans ?_
  rw [ArchiveDiscovery.status_waiting h hearly]
  cases wake with
  | event e => rfl
  | closed => exact absurd rfl hopen
  | timer => rfl

/-- The end of the events ends the wait. -/
theorem awaitLoop_closed {timeout : Nat} {d : ArchiveDiscovery} {peers : MapPeerResolver}
    {now : Nat} (h : d.missing ≠ []) (hearly : now < d.deadline) {w : Wake × Nat}
    (hclosed : w.1 = .closed) (wakes : List (Wake × Nat)) :
    awaitLoop timeout d peers now (w :: wakes) =
      some (.error (.networkClosed d.required.card d.missing), peers) := by
  obtain ⟨wake, later⟩ := w
  obtain rfl : wake = .closed := hclosed
  unfold awaitLoop
  rw [ArchiveDiscovery.status_waiting h hearly]

theorem awaitLoop_nil {timeout : Nat} {d : ArchiveDiscovery} {peers : MapPeerResolver} {now : Nat} :
    awaitLoop timeout d peers now [] = none ↔ d.missing ≠ [] ∧ now < d.deadline := by
  unfold awaitLoop
  by_cases h : d.missing = []
  · rw [ArchiveDiscovery.status_complete h]
    simp [h]
  · rcases Nat.lt_or_ge now d.deadline with hearly | hlate
    · rw [ArchiveDiscovery.status_waiting h hearly]
      simp [h, hearly]
    · rw [ArchiveDiscovery.status_timedOut h hlate]
      simp [Nat.not_lt_of_le hlate]

/-- The turns that the loop waits through only change the two maps. -/
theorem awaitLoop_append {timeout : Nat} (past : List (Wake × Nat)) {d : ArchiveDiscovery}
    {peers : MapPeerResolver} {now : Nat}
    (h : ∀ before w rest, past = before ++ w :: rest → (d.after before).missing ≠ [] ∧
      clockAfter now before < d.deadline ∧ w.1 ≠ .closed) (wakes : List (Wake × Nat)) :
    awaitLoop timeout d peers now (past ++ wakes) =
      awaitLoop timeout (d.after past) (peers.after past) (clockAfter now past) wakes := by
  induction past generalizing d peers now with
  | nil => rfl
  | cons w past ih =>
      obtain ⟨hmissing, hearly, hopen⟩ := h [] w past rfl
      have hmissing : d.missing ≠ [] := hmissing
      have hearly : now < d.deadline := hearly
      rw [List.cons_append, awaitLoop_cons hmissing hearly hopen]
      refine ih fun before w' rest hpast => ?_
      exact h (w :: before) w' rest (by rw [hpast]; rfl)

/-! ### Points of a run -/

/--
The loop has these turns behind it, if the resolver is what it waits for: before each of
them some required address did not resolve, the deadline had not passed, and the events
had not ended.
-/
def Waits (timeout : Nat) (peers : MapPeerResolver) (required : Finset Addr) (started : Nat)
    (past : List (Wake × Nat)) : Prop :=
  ∀ before w rest, past = before ++ w :: rest →
    (∃ a ∈ required, ¬ ((peers.after before).resolve a).isSome = true) ∧
    clockAfter started before < started + timeout ∧ w.1 ≠ .closed

section

variable {timeout : Nat} {peers : MapPeerResolver} {required : Finset Addr} {started : Nat}
  {past : List (Wake × Nat)}

theorem Waits.nil : Waits timeout peers required started [] := by
  intro before w rest h
  cases before with
  | nil => cases h
  | cons v before => cases h

theorem Waits.before {before rest : List (Wake × Nat)}
    (h : Waits timeout peers required started (before ++ rest)) :
    Waits timeout peers required started before := by
  intro b w r hb
  exact h b w (r ++ rest) (by rw [hb, List.append_assoc]; rfl)

theorem Waits.snoc (h : Waits timeout peers required started past) {w : Wake × Nat}
    (hmissing : ∃ a ∈ required, ¬ ((peers.after past).resolve a).isSome = true)
    (hearly : clockAfter started past < started + timeout) (hopen : w.1 ≠ .closed) :
    Waits timeout peers required started (past ++ [w]) := by
  intro before v rest hsplit
  rcases List.eq_nil_or_concat rest with rfl | ⟨rest', u, rfl⟩
  · obtain ⟨rfl, hw⟩ := List.append_inj' hsplit rfl
    cases hw
    exact ⟨hmissing, hearly, hopen⟩
  · have hinit : past = before ++ v :: rest' := by
      have hcons : before ++ v :: (rest' ++ [u]) = (before ++ v :: rest') ++ [u] := by simp
      rw [List.concat_eq_append, hcons] at hsplit
      exact (List.append_inj' hsplit rfl).1
    exact h before v rest' hinit

/-- The required addresses that do not resolve, in address order. -/
def MapPeerResolver.unresolved (peers : MapPeerResolver) (required : Finset Addr) : List Addr :=
  (required.sort (· ≤ ·)).filter fun a => ¬ (peers.resolve a).isSome = true

theorem missing_ne_nil_of_unresolved
    (h : ∃ a ∈ required, ¬ ((peers.after past).resolve a).isSome = true) (deadline : Nat) :
    ((seededDiscovery peers required deadline).after past).missing ≠ [] := by
  obtain ⟨a, ha, hnone⟩ := h
  exact List.ne_nil_of_mem (mem_missing_after_iff.mpr ⟨ha, Or.inl hnone⟩)

/-- What `await_archives` does from such a point on. -/
theorem awaitArchives_of_waits (h : Waits timeout peers required started past)
    (wakes : List (Wake × Nat)) :
    awaitArchives timeout peers required started (past ++ wakes) =
      awaitLoop timeout ((seededDiscovery peers required (started + timeout)).after past)
        (peers.after past) (clockAfter started past) wakes := by
  refine awaitLoop_append past (fun before w rest hpast => ?_) wakes
  obtain ⟨hmissing, hearly, hopen⟩ := h before w rest hpast
  obtain ⟨-, hdeadline, -⟩ := seededDiscovery_spec peers required (started + timeout)
  exact ⟨missing_ne_nil_of_unresolved hmissing _, hearly.trans_eq hdeadline.symm, hopen⟩

/-- The loop waits at such a point while something is missing and there is time. -/
theorem awaitArchives_eq_none_iff (h : Waits timeout peers required started past) :
    awaitArchives timeout peers required started past = none ↔
      ((seededDiscovery peers required (started + timeout)).after past).missing ≠ [] ∧
        clockAfter started past < started + timeout := by
  obtain ⟨-, hdeadline, -⟩ := seededDiscovery_spec peers required (started + timeout)
  have heq := awaitArchives_of_waits h []
  rw [List.append_nil] at heq
  rw [heq, awaitLoop_nil]
  show _ ∧ _ < (seededDiscovery peers required (started + timeout)).deadline ↔ _
  rw [hdeadline]

/-! ### What the loop returns -/

/-- After these turns, and not before, `await_archives` returns. -/
def ReturnsAt (timeout : Nat) (peers : MapPeerResolver) (required : Finset Addr) (started : Nat)
    (past : List (Wake × Nat)) (result : Except DiscoveryFailure Unit) : Prop :=
  (∃ peers', awaitArchives timeout peers required started past = some (result, peers')) ∧
    ∀ before w rest, past = before ++ w :: rest →
      awaitArchives timeout peers required started before = none

/--
The verdict is the resolver's: `Ok` at the first point at which every required address
resolves, and `TimedOut` only at the deadline, with the addresses that do not.
-/
structure AwaitsResolver (timeout : Nat) (peers : MapPeerResolver) (required : Finset Addr)
    (started : Nat) (wakes : List (Wake × Nat)) : Prop where
  ok : ∀ past, past <+: wakes → (ReturnsAt timeout peers required started past (.ok ()) ↔
    Waits timeout peers required started past ∧
      ∀ a ∈ required, ((peers.after past).resolve a).isSome = true)
  timedOut : ∀ past, past <+: wakes → ∀ n missing waited,
    ReturnsAt timeout peers required started past (.error (.timedOut n missing waited)) →
      started + timeout ≤ clockAfter started past ∧ missing ≠ [] ∧
        missing = (peers.after past).unresolved required

/--
No required address is orphaned at the deadline, and none is the last that discovery
waits for.
-/
def NeverOrphaned (timeout : Nat) (peers : MapPeerResolver) (required : Finset Addr)
    (started : Nat) (wakes : List (Wake × Nat)) : Prop :=
  ∀ past, past <+: wakes → Waits timeout peers required started past →
    ∀ a ∈ required, Orphaned peers past a → clockAfter started past < started + timeout ∧
      ∃ b ∈ required, ¬ ((peers.after past).resolve b).isSome = true

/-- A return at a point that the loop waited for. -/
theorem returnsAt_of_waits (h : Waits timeout peers required started past)
    {result : Except DiscoveryFailure Unit}
    (hresult : ∃ peers', awaitArchives timeout peers required started past = some (result, peers')) :
    ReturnsAt timeout peers required started past result := by
  refine ⟨hresult, fun before w rest hpast => ?_⟩
  obtain ⟨hmissing, hearly, -⟩ := h before w rest hpast
  subst hpast
  exact (awaitArchives_eq_none_iff h.before).mpr
    ⟨missing_ne_nil_of_unresolved hmissing _, hearly⟩

/-- Discovery reports the network's end, or waited for what the resolver waits for. -/
theorem waits_of_returnsAt {wakes : List (Wake × Nat)} (hpast : past <+: wakes)
    (hnever : NeverOrphaned timeout peers required started wakes)
    {result : Except DiscoveryFailure Unit}
    (h : ReturnsAt timeout peers required started past result)
    (hresult : ∀ n missing, result ≠ .error (.networkClosed n missing)) :
    Waits timeout peers required started past := by
  have hall : ∀ before, before <+: past → Waits timeout peers required started before := by
    intro before
    induction before using List.reverseRecOn with
    | nil => exact fun _ => .nil
    | append_singleton before w ih =>
        rintro ⟨rest, hsplit⟩
        rw [List.append_assoc, List.singleton_append] at hsplit
        have hwaits := ih ⟨w :: rest, hsplit⟩
        have hnone := h.2 before w rest hsplit.symm
        obtain ⟨hmissing, hearly⟩ := (awaitArchives_eq_none_iff hwaits).mp hnone
        obtain ⟨a, ha⟩ := List.exists_mem_of_ne_nil _ hmissing
        obtain ⟨hreq, hwhy⟩ := mem_missing_after_iff.mp ha
        have hunresolved : ∃ b ∈ required, ¬ ((peers.after before).resolve b).isSome = true := by
          rcases hwhy with hres | horphaned
          · exact ⟨a, hreq, hres⟩
          · exact (hnever before (List.IsPrefix.trans ⟨w :: rest, hsplit⟩ hpast) hwaits a hreq
              horphaned).2
        refine hwaits.snoc hunresolved hearly fun hclosed => ?_
        obtain ⟨-, hdeadline, -⟩ := seededDiscovery_spec peers required (started + timeout)
        have hend := (awaitArchives_of_waits hwaits [w]).trans
          (awaitLoop_closed hmissing (hearly.trans_eq hdeadline.symm) hclosed [])
        cases rest with
        | nil =>
            obtain ⟨peers', hpast'⟩ := h.1
            rw [← hsplit, hend] at hpast'
            cases hpast'
            exact hresult _ _ rfl
        | cons v rest =>
            have hwait := h.2 (before ++ [w]) v rest (by rw [← hsplit]; simp)
            rw [hend] at hwait
            cases hwait
  exact hall past (List.prefix_refl past)

/-- What a point returns, from what is missing there. -/
theorem awaitArchives_of_missing (h : Waits timeout peers required started past) :
    let d := (seededDiscovery peers required (started + timeout)).after past
    (d.missing = [] → awaitArchives timeout peers required started past
      = some (.ok (), peers.after past)) ∧
    (d.missing ≠ [] → started + timeout ≤ clockAfter started past →
      awaitArchives timeout peers required started past
        = some (.error (.timedOut required.card d.missing timeout), peers.after past)) := by
  obtain ⟨hrequired, hdeadline, -⟩ := seededDiscovery_spec peers required (started + timeout)
  have heq := awaitArchives_of_waits h []
  rw [List.append_nil] at heq
  intro d
  constructor
  · intro hnil
    rw [heq, awaitLoop, ArchiveDiscovery.status_complete hnil]
  · intro hmissing hlate
    have hlate : d.deadline ≤ clockAfter started past := hdeadline.trans_le hlate
    rw [heq, awaitLoop, ArchiveDiscovery.status_timedOut hmissing hlate]
    show some (Except.error (DiscoveryFailure.timedOut
      (seededDiscovery peers required (started + timeout)).required.card d.missing timeout), _) = _
    rw [hrequired]

theorem Orphaned.resolves {a : Addr} (h : Orphaned peers past a) :
    ((peers.after past).resolve a).isSome = true :=
  MapPeerResolver.resolve_isSome_iff.mpr (reported_mapAfter_iff.mpr (Or.inl h.2.1))

/-- Without orphans discovery misses exactly what does not resolve. -/
theorem missing_after_eq (h : ∀ a ∈ required, ¬ Orphaned peers past a) (deadline : Nat) :
    ((seededDiscovery peers required deadline).after past).missing
      = (peers.after past).unresolved required := by
  obtain ⟨hrequired, -, -⟩ := seededDiscovery_spec peers required deadline
  unfold MapPeerResolver.unresolved ArchiveDiscovery.missing
  show ((seededDiscovery peers required deadline).required.sort (· ≤ ·)).filter _ = _
  rw [hrequired]
  refine List.filter_congr fun a ha => ?_
  have hreq : a ∈ required := (Finset.mem_sort _).mp ha
  have hmissing := @mem_missing_after_iff peers required deadline past a
  rw [ArchiveDiscovery.mem_missing] at hmissing
  have hreq' : a ∈ ((seededDiscovery peers required deadline).after past).required := by
    show a ∈ (seededDiscovery peers required deadline).required
    rwa [hrequired]
  rw [decide_eq_decide, mem_values_iff]
  constructor
  · intro hlive
    obtain ⟨-, hres | horphaned⟩ := hmissing.mp ⟨hreq', hlive⟩
    · exact hres
    · exact absurd horphaned (h a hreq)
  · intro hres
    exact (hmissing.mpr ⟨hreq, Or.inl hres⟩).2

/--
**`await_archives` gives the resolver's verdict exactly when no required address is
orphaned where it decides:** at the deadline, and where every other address resolves.
-/
theorem awaitsResolver_iff (timeout : Nat) (peers : MapPeerResolver) (required : Finset Addr)
    (started : Nat) (wakes : List (Wake × Nat)) :
    AwaitsResolver timeout peers required started wakes ↔
      NeverOrphaned timeout peers required started wakes := by
  constructor
  · intro h past hpast hwaits a ha horphaned
    have hmiss := (@mem_missing_after_iff peers required (started + timeout) past a).mpr
      ⟨ha, Or.inr horphaned⟩
    have hne := List.ne_nil_of_mem hmiss
    have hearly : clockAfter started past < started + timeout := by
      by_contra hlate
      have hreturn := (awaitArchives_of_missing hwaits).2 hne (Nat.le_of_not_lt hlate)
      obtain ⟨-, -, hnames⟩ := h.timedOut past hpast _ _ _ (returnsAt_of_waits hwaits ⟨_, hreturn⟩)
      rw [hnames] at hmiss
      have hunresolved := (List.mem_filter.mp hmiss).2
      rw [decide_eq_true_iff] at hunresolved
      exact hunresolved horphaned.resolves
    refine ⟨hearly, ?_⟩
    by_contra hall
    have hresolves : ∀ b ∈ required, ((peers.after past).resolve b).isSome = true := by
      intro b hb
      by_contra hres
      exact hall ⟨b, hb, hres⟩
    obtain ⟨⟨peers', hok⟩, -⟩ := (h.ok past hpast).mpr ⟨hwaits, hresolves⟩
    rw [(awaitArchives_eq_none_iff hwaits).mpr ⟨hne, hearly⟩] at hok
    cases hok
  · intro hnever
    constructor
    · intro past hpast
      constructor
      · intro hret
        have hwaits := waits_of_returnsAt hpast hnever hret nofun
        refine ⟨hwaits, fun a ha => ?_⟩
        by_contra hres
        have hne := missing_ne_nil_of_unresolved ⟨a, ha, hres⟩ (started + timeout)
        obtain ⟨peers', hok⟩ := hret.1
        rcases Nat.lt_or_ge (clockAfter started past) (started + timeout) with hearly | hlate
        · rw [(awaitArchives_eq_none_iff hwaits).mpr ⟨hne, hearly⟩] at hok
          cases hok
        · rw [(awaitArchives_of_missing hwaits).2 hne hlate] at hok
          cases hok
      · rintro ⟨hwaits, hall⟩
        have hnil : ((seededDiscovery peers required (started + timeout)).after past).missing
            = [] := by
          refine List.eq_nil_iff_forall_not_mem.mpr fun a ha => ?_
          obtain ⟨hreq, hres | horphaned⟩ := mem_missing_after_iff.mp ha
          · exact hres (hall a hreq)
          · obtain ⟨-, b, hb, hres⟩ := hnever past hpast hwaits a hreq horphaned
            exact hres (hall b hb)
        exact returnsAt_of_waits hwaits ⟨_, (awaitArchives_of_missing hwaits).1 hnil⟩
    · intro past hpast n missing waited hret
      have hwaits := waits_of_returnsAt hpast hnever hret nofun
      obtain ⟨peers', htimed⟩ := hret.1
      by_cases hnil : ((seededDiscovery peers required (started + timeout)).after past).missing = []
      · rw [(awaitArchives_of_missing hwaits).1 hnil] at htimed
        cases htimed
      rcases Nat.lt_or_ge (clockAfter started past) (started + timeout) with hearly | hlate
      · rw [(awaitArchives_eq_none_iff hwaits).mpr ⟨hnil, hearly⟩] at htimed
        cases htimed
      · rw [(awaitArchives_of_missing hwaits).2 hnil hlate] at htimed
        cases htimed
        refine ⟨hlate, hnil, missing_after_eq (fun a ha horphaned => ?_) _⟩
        obtain ⟨hearly, -⟩ := hnever past hpast hwaits a ha horphaned
        omega

end

/-! ### Whom the wave needs -/

section

variable [AssignmentScore]

/-- What the assignment gives some of these chunks. -/
def assignedUnion (merkleRoot : Hash) (snapshot : List Addr) (chunks : List Nat) (r : Nat) :
    Finset Addr :=
  (chunks.flatMap fun i => assignedArchives merkleRoot snapshot i r).toFinset

theorem gatherRequired_eq (merkleRoot : Hash) (snapshot : List Addr) (r : Nat) (chunks : List Nat)
    (required : Finset Addr) (hsub : required ⊆ snapshot.toFinset) :
    gatherRequired merkleRoot snapshot r chunks required
      = required ∪ assignedUnion merkleRoot snapshot chunks r := by
  induction chunks generalizing required with
  | nil => simp [gatherRequired, assignedUnion]
  | cons i chunks ih =>
      have hassigned : (assignedArchives merkleRoot snapshot i r).toFinset ⊆ snapshot.toFinset :=
        fun a ha => List.mem_toFinset.mpr (mem_snapshot_of_assigned (List.mem_toFinset.mp ha))
      have hnext := Finset.union_subset hsub hassigned
      have hcons : required ∪ assignedUnion merkleRoot snapshot (i :: chunks) r
          = (required ∪ (assignedArchives merkleRoot snapshot i r).toFinset)
            ∪ assignedUnion merkleRoot snapshot chunks r := by
        unfold assignedUnion
        rw [List.flatMap_cons, List.toFinset_append, Finset.union_assoc]
      unfold gatherRequired
      dsimp only
      rw [hcons]
      split
      · -- Every archive is required already.
        rename_i hfull
        have hall := Finset.eq_of_subset_of_card_le hnext hfull.ge
        rw [hall, eq_comm, Finset.union_eq_left]
        intro a ha
        obtain ⟨j, -, hj⟩ := List.mem_flatMap.mp (List.mem_toFinset.mp ha)
        exact List.mem_toFinset.mpr (mem_snapshot_of_assigned hj)
      · exact ih _ hnext

/-- A replication factor that covers the snapshot assigns every archive every chunk. -/
theorem assignedArchives_eq_all {merkleRoot : Hash} {snapshot : List Addr} {i r : Nat}
    (h : snapshot.toFinset.card ≤ r) :
    (assignedArchives merkleRoot snapshot i r).toFinset = snapshot.toFinset := by
  refine Finset.eq_of_subset_of_card_le
    (fun a ha => List.mem_toFinset.mpr (mem_snapshot_of_assigned (List.mem_toFinset.mp ha))) ?_
  rw [List.toFinset_card_of_nodup (assignedArchives_nodup _ _ _ _), assignedArchives_length_eq_min]
  exact (Nat.min_eq_right h).ge

theorem requiredArchives_eq (merkleRoot : Hash) (snapshot : List Addr) (chunks : List Nat)
    (r : Nat) : requiredArchives merkleRoot snapshot chunks r
      = assignedUnion merkleRoot snapshot chunks r := by
  unfold requiredArchives
  dsimp only
  split
  · rename_i h
    rcases h with rfl | rfl
    · rfl
    · refine ((List.toFinset_eq_empty_iff _).mpr (List.flatMap_eq_nil_iff.mpr fun i _ => ?_)).symm
      unfold assignedArchives assignedArchivesPresorted
      exact List.take_zero
  · rename_i h
    rw [not_or] at h
    split
    · rename_i hall
      obtain ⟨i, hi⟩ := List.exists_mem_of_ne_nil _ h.1
      refine (Finset.Subset.antisymm (fun a ha => ?_) fun a ha => ?_)
      · have heq : (assignedArchives merkleRoot snapshot i r).toFinset = snapshot.toFinset :=
          assignedArchives_eq_all hall
        rw [← heq] at ha
        exact List.mem_toFinset.mpr (List.mem_flatMap.mpr ⟨i, hi, List.mem_toFinset.mp ha⟩)
      · obtain ⟨j, -, hj⟩ := List.mem_flatMap.mp (List.mem_toFinset.mp ha)
        exact List.mem_toFinset.mpr (mem_snapshot_of_assigned hj)
    · rw [gatherRequired_eq _ _ _ _ _ (Finset.empty_subset _), Finset.empty_union]

/--
**The wait ends with the resolver's verdict exactly when no required address is orphaned
where it decides, and what it requires is always the union of the assignments.**
-/
theorem awaitArchives_follows_resolver :
    (∀ timeout peers required started wakes,
      AwaitsResolver timeout peers required started wakes ↔
        NeverOrphaned timeout peers required started wakes) ∧
    ∀ merkleRoot snapshot chunks r, requiredArchives merkleRoot snapshot chunks r
      = assignedUnion merkleRoot snapshot chunks r :=
  ⟨awaitsResolver_iff, requiredArchives_eq⟩

end

/-! #### Two peers with one address

Two peers report the first of two required addresses.  The one that discovery counts
leaves, then the second address is identified: the resolver resolves both, and the wait
goes on until it names the first one at the deadline. -/

def twoPeers : MapPeerResolver := ⟨[⟨10, 0⟩, ⟨11, 0⟩].toAList⟩

def leaveAndJoin : List (Wake × Nat) :=
  [(.event (.peerDisconnected 10), 1), (.event (.peerIdentified 12 1), 2)]

theorem leaveAndJoin_waits : Waits 60 twoPeers {0, 1} 0 leaveAndJoin := by
  have hone : ∀ past : List (Wake × Nat), ((twoPeers.after past).resolve 1).isSome = false →
      ∃ a ∈ ({0, 1} : Finset Addr), ¬ ((twoPeers.after past).resolve a).isSome = true := by
    intro past h
    exact ⟨1, by simp, by rw [h]; exact Bool.false_ne_true⟩
  have hfirst : Waits 60 twoPeers {0, 1} 0 ([] ++ [(.event (.peerDisconnected 10), 1)]) := by
    refine Waits.snoc .nil (hone _ ?_) ?_ ?_
    · decide +kernel
    · decide
    · exact nofun
  refine hfirst.snoc (hone _ ?_) ?_ ?_
  · decide +kernel
  · decide
  · exact nofun

theorem leaveAndJoin_orphans : Orphaned twoPeers leaveAndJoin 0 := by
  refine ⟨⟨10, by decide +kernel, _, List.mem_cons_self .., rfl⟩, ⟨11, by decide +kernel, ?_⟩, ?_⟩
  · rintro ⟨w, hw, habout⟩
    simp only [leaveAndJoin, List.mem_cons, List.not_mem_nil, or_false] at hw
    rcases hw with rfl | rfl
    · exact absurd (show (10 : PeerId) = 11 from habout) (by decide)
    · exact absurd (show (12 : PeerId) = 11 from habout) (by decide)
  · rintro ⟨peer, hlook⟩
    rcases Maps.lookup_insert_some.mp hlook with ⟨-, hzero⟩ | ⟨-, hnone⟩
    · exact absurd hzero (by decide)
    · cases hnone

theorem lost_seed_times_out : ¬ AwaitsResolver 60 twoPeers {0, 1} 0 leaveAndJoin := by
  intro h
  obtain ⟨-, b, hb, hres⟩ := (awaitsResolver_iff _ _ _ _ _).mp h leaveAndJoin (List.prefix_refl _)
    leaveAndJoin_waits 0 (by simp) leaveAndJoin_orphans
  rcases Finset.mem_insert.mp hb with rfl | hb
  · exact hres (by decide +kernel)
  · rw [Finset.mem_singleton.mp hb] at hres
    exact hres (by decide +kernel)

end Snip
