/-
An answer belongs to one request.

The argument is about one key at a time.  A pending slot remembers the last filing under
its key, and since then nothing has been answered or reported for it; a poisoned slot
remembers the last collision, and leaves only when a sweep finds it old enough.  Both
hold along every sequence of calls, so an accepted answer or a reported failure has a
filing of its own.
-/
import Snip.Lib.Transcript
import Snip.Net.Correlation

namespace Snip

/-! ### What answers what -/

/-- The answer is of the request's kind and about its subject. -/
def Answers : OutboundRequestKind → ShardResponseVersioned → Prop
  | .v1Chunk cid, .v1 resp => resp.cid = cid
  | .v1Manifest _ cid, .v1 resp => resp.cid = cid
  | .v1Push cid, .v1 resp => resp.cid = cid
  | .v2Pull cid, .v2 (.data body) => body.cid = cid
  | .v2Push merkleRoot chunkIndex, .v2 (.pushAck gotRoot gotIndex _) =>
      gotRoot = merkleRoot ∧ gotIndex = chunkIndex
  | .v2ManifestPush merkleRoot, .v2 (.manifestPushAck got _) => got = merkleRoot
  | .v2ManifestPull merkleRoot, .v2 (.manifestData got _ _) => got = merkleRoot
  | _, _ => False

theorem cidEq_ok_iff {expected got : Str} : cidEq expected got = .ok () ↔ got = expected := by
  unfold cidEq
  by_cases h : expected = got
  · simp [h]
  · simp [h, Ne.symm h]

theorem rootEq_ok_iff {expected got : Hash} : rootEq expected got = .ok () ↔ got = expected := by
  unfold rootEq
  by_cases h : expected = got
  · simp [h]
  · simp [h, Ne.symm h]

/-- The root is compared before the index. -/
theorem check_push_ok_iff {merkleRoot gotRoot : Hash} {chunkIndex gotIndex : Nat}
    {error : Option Str} :
    (OutboundRequestKind.v2Push merkleRoot chunkIndex).check
        (.v2 (.pushAck gotRoot gotIndex error)) = .ok () ↔
      gotRoot = merkleRoot ∧ gotIndex = chunkIndex := by
  rw [← rootEq_ok_iff]
  simp only [OutboundRequestKind.check]
  cases rootEq merkleRoot gotRoot with
  | error e => simp [bind, Except.bind]
  | ok u =>
      by_cases h : chunkIndex = gotIndex
      · simp [bind, Except.bind, h]
      · simp [bind, Except.bind, h, Ne.symm h]

theorem check_ok_iff {kind : OutboundRequestKind} {response : ShardResponseVersioned} :
    kind.check response = .ok () ↔ Answers kind response := by
  cases response with
  | v1 resp =>
      cases kind
      all_goals first
        | exact cidEq_ok_iff
        | exact iff_of_false (fun h => nomatch h) id
  | v2 resp =>
      cases resp
      all_goals cases kind
      all_goals first
        | exact cidEq_ok_iff
        | exact check_push_ok_iff
        | exact rootEq_ok_iff
        | exact iff_of_false (fun h => nomatch h) id

theorem Answers.protocol {kind : OutboundRequestKind} {response : ShardResponseVersioned}
    (h : Answers kind response) : response.protocol = kind.protocol := by
  unfold Answers at h
  split at h
  all_goals first
    | rfl
    | exact h.elim

/-! ### The entries of a transcript, seen from one key -/

abbrev TrackerEntry := TrackerCall × TrackerAnswer

namespace TrackerEntry

/-- The filing that opens the slot. -/
def Opens (key : OutboundKey) (peer : PeerId) (kind : OutboundRequestKind) (e : TrackerEntry) :
    Prop :=
  ∃ now, e = (.record key peer kind now, .recorded (.ok ()))

/-- The filing that finds the slot occupied. -/
def Collides (key : OutboundKey) (now : Nat) (e : TrackerEntry) : Prop :=
  ∃ peer kind first second,
    e = (.record key peer kind now, .recorded (.error (.collision key first second)))

/-- A filing that reaches the slot, be it vacant or occupied. -/
def Files (key : OutboundKey) (e : TrackerEntry) : Prop :=
  (∃ peer kind, e.Opens key peer kind) ∨ ∃ now, e.Collides key now

/-- An accepted answer or a reported failure, with the request it names. -/
inductive Yields (key : OutboundKey) : PeerId → OutboundRequestKind → TrackerEntry → Prop
  | response (peer : PeerId) (response : ShardResponseVersioned) (origin : OutboundOrigin) :
      Yields key origin.peer origin.kind
        (.correlateResponse key peer response, .correlated (.ok origin))
  | failure (peer : PeerId) (kind : OutboundRequestKind) :
      Yields key peer kind (.onFailure key, .failed (.retained peer kind))

/-- A sweep that finds a slot poisoned at this time old enough. -/
def Sweeps (since : Nat) (e : TrackerEntry) : Prop :=
  ∃ now ttl count, e = (.reap now ttl, .reaped count) ∧ poisonTtl ≤ now - since

/-- Neither a filing under the key nor anything yielded for it. -/
def Quiet (key : OutboundKey) (e : TrackerEntry) : Prop :=
  ¬ e.Files key ∧ ∀ peer kind, ¬ Yields key peer kind e

theorem Yields.cases {key : OutboundKey} {peer : PeerId} {kind : OutboundRequestKind}
    {e : TrackerEntry} (h : Yields key peer kind e) :
    (∃ p response, e = (.correlateResponse key p response, .correlated (.ok ⟨peer, kind⟩))) ∨
      e = (.onFailure key, .failed (.retained peer kind)) := by
  cases h with
  | response p response origin => exact Or.inl ⟨p, response, rfl⟩
  | failure peer kind => exact Or.inr rfl

/-- The key a call is about; a sweep is about none. -/
def keyOf : TrackerCall → Option OutboundKey
  | .record key _ _ _ => some key
  | .correlateResponse key _ _ => some key
  | .onFailure key => some key
  | .reap _ _ => none

/-- Calls about other keys are quiet. -/
theorem quiet_of_keyOf_ne {key : OutboundKey} {call : TrackerCall} (answer : TrackerAnswer)
    (h : keyOf call ≠ some key) : Quiet key (call, answer) := by
  refine ⟨?_, ?_⟩
  · rintro (⟨peer, kind, now, heq⟩ | ⟨now, peer, kind, first, second, heq⟩)
    · cases heq
      exact h rfl
    · cases heq
      exact h rfl
  · intro peer kind hyields
    cases hyields with
    | response peer response origin => exact h rfl
    | failure peer kind => exact h rfl

/-- Only a filing files. -/
theorem not_files {key : OutboundKey} {call : TrackerCall} (answer : TrackerAnswer)
    (h : ∀ key peer kind now, call ≠ .record key peer kind now) : ¬ Files key (call, answer) := by
  rintro (⟨peer, kind, now, heq⟩ | ⟨now, peer, kind, first, second, heq⟩)
  · exact h _ _ _ _ (congrArg Prod.fst heq)
  · exact h _ _ _ _ (congrArg Prod.fst heq)

end TrackerEntry

/-! ### One step -/

namespace OutboundTracker

open TrackerEntry

/-- The entry a call leaves. -/
def entry (t : OutboundTracker) (call : TrackerCall) : TrackerEntry := (call, (t.step call).2)

variable {t : OutboundTracker} {key : OutboundKey} {peer : PeerId} {kind : OutboundRequestKind}

/-- What a call does to the slot of one key: it is left alone, opened, poisoned or cleared. -/
inductive Effect (t : OutboundTracker) (key : OutboundKey) (call : TrackerCall) : Prop
  | kept (slot : (t.step call).1.slots.lookup key = t.slots.lookup key)
      (quiet : (t.entry call).Quiet key)
  | opened (peer : PeerId) (kind : OutboundRequestKind) (now : Nat)
      (vacant : t.slots.lookup key = none)
      (protocol : kind.protocol = key.domain.protocol)
      (opens : (t.entry call).Opens key peer kind)
      (slot : (t.step call).1.slots.lookup key = some (.pending peer kind now))
  | collided (now : Nat) (first second : String) (collides : (t.entry call).Collides key now)
      (slot : (t.step call).1.slots.lookup key = some (.poisoned now first second))
  /-- An answer or a failure takes the record, and may yield it. -/
  | spent (peer : PeerId) (kind : OutboundRequestKind) (issuedAt : Nat)
      (pending : t.slots.lookup key = some (.pending peer kind issuedAt))
      (files : ¬ (t.entry call).Files key)
      (yields : ∀ p k, Yields key p k (t.entry call) → p = peer ∧ k = kind)
      (slot : (t.step call).1.slots.lookup key = none)
  | reaped (old : Slot) (occupied : t.slots.lookup key = some old)
      (sweeps : ∀ since first second, old = .poisoned since first second →
        (t.entry call).Sweeps since)
      (quiet : (t.entry call).Quiet key)
      (slot : (t.step call).1.slots.lookup key = none)

/-- A filing. -/
theorem effect_record (t : OutboundTracker) (key key' : OutboundKey) (peer : PeerId)
    (kind : OutboundRequestKind) (now : Nat) : t.Effect key (.record key' peer kind now) := by
  by_cases hkey : key' = key
  · subst hkey
    by_cases hprotocol : kind.protocol = key'.domain.protocol
    · cases hslot : t.slots.lookup key' with
      | none =>
          have hrecord : t.record key' peer kind now
              = (⟨t.slots.insert key' (.pending peer kind now)⟩, .ok ()) := by
            simp [record, hprotocol, hslot]
          refine .opened peer kind now hslot hprotocol ⟨now, ?_⟩ ?_
          · simp [entry, step, hrecord]
          · simp [step, hrecord]
      | some slot =>
          have hrecord : t.record key' peer kind now
              = (⟨t.slots.insert key' (.poisoned now slot.firstLabel kind.label)⟩,
                .error (.collision key' slot.firstLabel kind.label)) := by
            simp [record, hprotocol, hslot]
          refine .collided now slot.firstLabel kind.label
            ⟨peer, kind, slot.firstLabel, kind.label, ?_⟩ ?_
          · simp [entry, step, hrecord]
          · simp [step, hrecord]
    · -- refused: nothing is filed
      have hrecord : t.record key' peer kind now
          = (t, .error (.domainProtocolMismatch key'.domain.label key'.domain.protocol kind.label
            kind.protocol)) := by
        simp [record, hprotocol]
      refine .kept (by simp [step, hrecord]) ?_
      unfold entry
      simp only [step, hrecord, Prod.map]
      refine ⟨?_, ?_⟩
      · rintro (⟨peer, kind, now, heq⟩ | ⟨now, peer, kind, first, second, heq⟩)
        · cases heq
        · cases heq
      · intro p k hyields
        cases hyields
  · refine .kept ?_ (quiet_of_keyOf_ne _ fun h => hkey (Option.some.inj h))
    simp only [step, record, Prod.map]
    split
    · rfl
    · split
      · simp [Ne.symm hkey]
      · simp [Ne.symm hkey]

/-- An accepted answer is held against the pending record. -/
theorem correlateResponse_ok {response : ShardResponseVersioned} {origin : OutboundOrigin}
    (h : (t.correlateResponse key peer response).2 = .ok origin) :
    ∃ issuedAt, t.slots.lookup key = some (.pending origin.peer origin.kind issuedAt) ∧
      peer = origin.peer ∧ Answers origin.kind response := by
  cases hslot : t.slots.lookup key with
  | none =>
      simp [correlateResponse, hslot] at h
  | some slot =>
      cases slot with
      | poisoned since first second =>
          simp [correlateResponse, hslot] at h
      | pending asked kind issuedAt =>
          simp only [correlateResponse, hslot] at h
          split at h
          · cases h
          · rename_i hpeer
            split at h
            · cases h
            · rename_i hcheck
              cases h
              exact ⟨issuedAt, rfl, (not_not.mp hpeer).symm, check_ok_iff.mp hcheck⟩

/-- A reported failure names the pending record. -/
theorem onFailure_retained (h : (t.onFailure key).2 = .retained peer kind) :
    ∃ issuedAt, t.slots.lookup key = some (.pending peer kind issuedAt) := by
  cases hslot : t.slots.lookup key with
  | none =>
      simp [onFailure, hslot] at h
  | some slot =>
      cases slot with
      | poisoned since first second =>
          simp [onFailure, hslot] at h
      | pending asked kind issuedAt =>
          simp only [onFailure, hslot] at h
          cases h
          exact ⟨issuedAt, rfl⟩

/-- Whatever is yielded was pending. -/
theorem yields_pending {call : TrackerCall} (h : Yields key peer kind (t.entry call)) :
    ∃ issuedAt, t.slots.lookup key = some (.pending peer kind issuedAt) := by
  rcases h.cases with ⟨p, response, heq⟩ | heq
  · obtain ⟨hcall, hanswer⟩ := Prod.mk.inj heq
    subst hcall
    obtain ⟨issuedAt, hslot, -⟩ := correlateResponse_ok (TrackerAnswer.correlated.inj hanswer)
    exact ⟨issuedAt, hslot⟩
  · obtain ⟨hcall, hanswer⟩ := Prod.mk.inj heq
    subst hcall
    exact onFailure_retained (TrackerAnswer.failed.inj hanswer)

/-- The calls that take a pending record and leave every other slot. -/
structure Spends (t : OutboundTracker) (key : OutboundKey) (call : TrackerCall) : Prop where
  about : keyOf call = some key
  files : ∀ answer, ¬ Files key (call, answer)
  vacant : t.slots.lookup key = none → (t.step call).1 = t
  poisoned : ∀ since first second, t.slots.lookup key = some (.poisoned since first second) →
    (t.step call).1 = t
  pending : ∀ peer kind issuedAt, t.slots.lookup key = some (.pending peer kind issuedAt) →
    (t.step call).1 = ⟨t.slots.erase key⟩

theorem spends_correlateResponse (t : OutboundTracker) (key : OutboundKey) (peer : PeerId)
    (response : ShardResponseVersioned) :
    t.Spends key (.correlateResponse key peer response) := by
  refine ⟨rfl, fun answer => not_files _ fun _ _ _ _ h => (nomatch h), ?_, ?_, ?_⟩
  · intro hslot
    simp [step, correlateResponse, hslot]
  · intro since first second hslot
    simp [step, correlateResponse, hslot]
  · intro asked kind issuedAt hslot
    simp [step, correlateResponse, hslot]

theorem spends_onFailure (t : OutboundTracker) (key : OutboundKey) :
    t.Spends key (.onFailure key) := by
  refine ⟨rfl, fun answer => not_files _ fun _ _ _ _ h => (nomatch h), ?_, ?_, ?_⟩
  · intro hslot
    simp [step, onFailure, hslot]
  · intro since first second hslot
    simp [step, onFailure, hslot]
  · intro asked kind issuedAt hslot
    simp [step, onFailure, hslot]

/-- An answer or a failure. -/
theorem Spends.effect {key' : OutboundKey} {call : TrackerCall} (h : t.Spends key' call) :
    t.Effect key call := by
  by_cases hkey : key' = key
  · subst hkey
    cases hslot : t.slots.lookup key' with
    | none =>
        refine .kept (by rw [h.vacant hslot]) ⟨h.files _, ?_⟩
        intro p k hyields
        obtain ⟨issuedAt, hpending⟩ := yields_pending hyields
        rw [hslot] at hpending
        cases hpending
    | some slot =>
        cases slot with
        | poisoned since first second =>
            refine .kept (by rw [h.poisoned _ _ _ hslot]) ⟨h.files _, ?_⟩
            intro p k hyields
            obtain ⟨issuedAt, hpending⟩ := yields_pending hyields
            rw [hslot] at hpending
            cases hpending
        | pending asked kind issuedAt =>
            refine .spent asked kind issuedAt hslot (h.files _) ?_ ?_
            · intro p k hyields
              obtain ⟨issuedAt, hpending⟩ := yields_pending hyields
              rw [hslot] at hpending
              cases hpending
              exact ⟨rfl, rfl⟩
            · rw [h.pending _ _ _ hslot]
              exact AList.lookup_erase _ _
  · have hother : keyOf call ≠ some key := by
      rw [h.about]
      exact fun heq => hkey (Option.some.inj heq)
    refine .kept ?_ (quiet_of_keyOf_ne _ hother)
    cases hslot : t.slots.lookup key' with
    | none => rw [h.vacant hslot]
    | some slot =>
        cases slot with
        | poisoned since first second => rw [h.poisoned _ _ _ hslot]
        | pending asked kind issuedAt =>
            rw [h.pending _ _ _ hslot]
            exact AList.lookup_erase_ne (Ne.symm hkey)

/-- A sweep. -/
theorem effect_reap (t : OutboundTracker) (key : OutboundKey) (now ttl : Nat) :
    t.Effect key (.reap now ttl) := by
  have hquiet : (t.entry (.reap now ttl)).Quiet key := quiet_of_keyOf_ne _ (fun h => nomatch h)
  cases hslot : t.slots.lookup key with
  | none =>
      refine .kept ?_ hquiet
      rw [hslot]
      refine Option.eq_none_iff_forall_ne_some.mpr ?_
      intro slot hkept
      have hbefore := (Maps.lookup_filterValues_some.mp hkept).1
      rw [hslot] at hbefore
      cases hbefore
  | some slot =>
      by_cases hretained : slot.retained now ttl = true
      · refine .kept ?_ hquiet
        rw [hslot]
        exact Maps.lookup_filterValues_some.mpr ⟨hslot, hretained⟩
      · refine .reaped slot hslot ?_ hquiet ?_
        · intro since first second hpoisoned
          subst hpoisoned
          refine ⟨now, ttl, _, rfl, ?_⟩
          simpa [Slot.retained] using hretained
        · refine Option.eq_none_iff_forall_ne_some.mpr ?_
          intro slot' hkept
          obtain ⟨hbefore, hkeeps⟩ := Maps.lookup_filterValues_some.mp hkept
          rw [hslot] at hbefore
          cases hbefore
          exact hretained hkeeps

theorem effect (t : OutboundTracker) (key : OutboundKey) (call : TrackerCall) :
    t.Effect key call := by
  cases call with
  | record key' peer kind now => exact effect_record t key key' peer kind now
  | correlateResponse key' peer response =>
      exact (spends_correlateResponse t key' peer response).effect
  | onFailure key' => exact (spends_onFailure t key').effect
  | reap now ttl => exact effect_reap t key now ttl

end OutboundTracker

/-! ### Every sequence of calls -/

section

open TrackerEntry

variable {past : List TrackerEntry} {key : OutboundKey} {i j : Nat}

/-- What holds of the entries after this one, up to the other. -/
def Between (past : List TrackerEntry) (i j : Nat) (P : TrackerEntry → Prop) : Prop :=
  ∀ l e, i < l → l < j → past[l]? = some e → P e

/-- The filing at `i` opened the slot, and no other filing reached it before `j`. -/
def OpenedBy (past : List TrackerEntry) (key : OutboundKey) (peer : PeerId)
    (kind : OutboundRequestKind) (i j : Nat) : Prop :=
  i < j ∧ (∃ e, past[i]? = some e ∧ e.Opens key peer kind) ∧
    Between past i j fun e => ¬ e.Files key

/-- Something is yielded for the key at `j`. -/
def YieldsAt (past : List TrackerEntry) (key : OutboundKey) (j : Nat) : Prop :=
  ∃ e peer kind, past[j]? = some e ∧ Yields key peer kind e

/-- The last collision is at `i`, at time `since`, as far as `j`. -/
def PoisonedBy (past : List TrackerEntry) (key : OutboundKey) (since i j : Nat) : Prop :=
  i < j ∧ (∃ e, past[i]? = some e ∧ e.Collides key since) ∧
    Between past i j fun e => ¬ e.Files key

/-- After a collision at `i`: a sweep found the last collision old enough, before `j`. -/
def SweptBetween (past : List TrackerEntry) (key : OutboundKey) (i j : Nat) : Prop :=
  ∃ last since l, i ≤ last ∧ l < j ∧ PoisonedBy past key since last l ∧
    ∃ e, past[l]? = some e ∧ e.Sweeps since

/-- What the slot of a key says about the calls so far. -/
structure SlotHistory (past : List TrackerEntry) (t : OutboundTracker) (key : OutboundKey) :
    Prop where
  pending : ∀ peer kind issuedAt, t.slots.lookup key = some (.pending peer kind issuedAt) →
    kind.protocol = key.domain.protocol ∧
    ∃ i, OpenedBy past key peer kind i past.length ∧
      Between past i past.length fun e => e.Quiet key
  /-- After a collision the slot stays poisoned until it is swept. -/
  poisoned : ∀ i e now, past[i]? = some e → e.Collides key now →
    SweptBetween past key i past.length ∨
    ∃ last since first second, i ≤ last ∧ PoisonedBy past key since last past.length ∧
      t.slots.lookup key = some (.poisoned since first second)

theorem getElem?_snoc {e : TrackerEntry} {x : TrackerEntry}
    (h : past[i]? = some e) : (past ++ [x])[i]? = some e := by
  rw [List.getElem?_append_left (List.getElem?_eq_some_iff.mp h).1]
  exact h

theorem Between.snoc {P : TrackerEntry → Prop} {x : TrackerEntry}
    (h : Between past i past.length P) (hx : P x) : Between (past ++ [x]) i (past ++ [x]).length P := by
  intro l e hil hl he
  rw [List.length_append, List.length_singleton] at hl
  rcases Nat.lt_succ_iff_lt_or_eq.mp hl with hlt | rfl
  · rw [List.getElem?_append_left hlt] at he
    exact h l e hil hlt he
  · rw [List.getElem?_append_right (Nat.le_refl _), Nat.sub_self] at he
    cases he
    exact hx

theorem Between.mono {P : TrackerEntry → Prop} {x : TrackerEntry} (h : Between past i j P)
    (hj : j ≤ past.length) : Between (past ++ [x]) i j P := by
  intro l e hil hl he
  rw [List.getElem?_append_left (Nat.lt_of_lt_of_le hl hj)] at he
  exact h l e hil hl he

theorem between_self {P : TrackerEntry → Prop} {x : TrackerEntry} :
    Between (past ++ [x]) past.length (past ++ [x]).length P := by
  intro l e hil hl
  rw [List.length_append, List.length_singleton] at hl
  omega

theorem PoisonedBy.mono {since : Nat} {x : TrackerEntry} (h : PoisonedBy past key since i j)
    (hj : j ≤ past.length) : PoisonedBy (past ++ [x]) key since i j := by
  obtain ⟨hij, ⟨e, he, hcollides⟩, hbetween⟩ := h
  exact ⟨hij, ⟨e, getElem?_snoc he, hcollides⟩, hbetween.mono hj⟩

theorem PoisonedBy.snoc {since : Nat} {x : TrackerEntry}
    (h : PoisonedBy past key since i past.length) (hx : ¬ x.Files key) :
    PoisonedBy (past ++ [x]) key since i (past ++ [x]).length := by
  obtain ⟨hi, ⟨e, he, hcollides⟩, hbetween⟩ := h
  refine ⟨?_, ⟨e, getElem?_snoc he, hcollides⟩, hbetween.snoc hx⟩
  rw [List.length_append]
  exact Nat.lt_add_right _ hi

theorem OpenedBy.snoc {peer : PeerId} {kind : OutboundRequestKind} {x : TrackerEntry}
    (h : OpenedBy past key peer kind i past.length) (hx : ¬ x.Files key) :
    OpenedBy (past ++ [x]) key peer kind i (past ++ [x]).length := by
  obtain ⟨hi, ⟨e, he, hopens⟩, hbetween⟩ := h
  refine ⟨?_, ⟨e, getElem?_snoc he, hopens⟩, hbetween.snoc hx⟩
  rw [List.length_append]
  exact Nat.lt_add_right _ hi

theorem SweptBetween.snoc {x : TrackerEntry} (h : SweptBetween past key i past.length) :
    SweptBetween (past ++ [x]) key i (past ++ [x]).length := by
  obtain ⟨last, since, l, hlast, hl, hpoisoned, e, he, hsweeps⟩ := h
  refine ⟨last, since, l, hlast, ?_, hpoisoned.mono (Nat.le_of_lt hl), e, getElem?_snoc he, hsweeps⟩
  rw [List.length_append]
  exact Nat.lt_add_right _ hl

theorem getElem?_snoc_self {x : TrackerEntry} : (past ++ [x])[past.length]? = some x := by
  rw [List.getElem?_append_right (Nat.le_refl _), Nat.sub_self]
  rfl

theorem lt_length_snoc {x : TrackerEntry} : past.length < (past ++ [x]).length := by
  rw [List.length_append]
  exact Nat.lt_succ_self _

/-- A pending slot after one more call. -/
theorem SlotHistory.pending_step {t : OutboundTracker} (h : SlotHistory past t key)
    (call : TrackerCall) {peer : PeerId} {kind : OutboundRequestKind} {issuedAt : Nat}
    (hslot : (t.step call).1.slots.lookup key = some (.pending peer kind issuedAt)) :
    kind.protocol = key.domain.protocol ∧
    ∃ i, OpenedBy (past ++ [t.entry call]) key peer kind i (past ++ [t.entry call]).length ∧
      Between (past ++ [t.entry call]) i (past ++ [t.entry call]).length fun e => e.Quiet key := by
  cases t.effect key call with
  | kept slot quiet =>
      rw [slot] at hslot
      obtain ⟨hprotocol, i, hopened, hquiet⟩ := h.pending peer kind issuedAt hslot
      exact ⟨hprotocol, i, hopened.snoc quiet.1, hquiet.snoc quiet⟩
  | opened p k now vacant protocol opens slot =>
      rw [slot] at hslot
      cases hslot
      refine ⟨protocol, past.length, ⟨lt_length_snoc, ?_, between_self⟩, between_self⟩
      exact ⟨t.entry call, getElem?_snoc_self, opens⟩
  | collided now first second collides slot =>
      rw [slot] at hslot
      cases hslot
  | spent p k at' pending files yields slot =>
      rw [slot] at hslot
      cases hslot
  | reaped old occupied sweeps quiet slot =>
      rw [slot] at hslot
      cases hslot

/-- A collision of the past after one more call. -/
theorem SlotHistory.poisoned_step {t : OutboundTracker} (h : SlotHistory past t key)
    (call : TrackerCall) {e : TrackerEntry} {now : Nat} (he : past[i]? = some e)
    (hcollides : e.Collides key now) :
    SweptBetween (past ++ [t.entry call]) key i (past ++ [t.entry call]).length ∨
    ∃ last since first second, i ≤ last ∧
      PoisonedBy (past ++ [t.entry call]) key since last (past ++ [t.entry call]).length ∧
      (t.step call).1.slots.lookup key = some (.poisoned since first second) := by
  rcases h.poisoned i e now he hcollides with hswept |
    ⟨last, since, first, second, hlast, hpoisoned, hslot⟩
  · exact Or.inl hswept.snoc
  cases t.effect key call with
  | kept slot quiet =>
      refine Or.inr ⟨last, since, first, second, hlast, hpoisoned.snoc quiet.1, ?_⟩
      rw [slot]
      exact hslot
  | opened p k now vacant protocol opens slot =>
      rw [hslot] at vacant
      cases vacant
  | collided now first second collides slot =>
      refine Or.inr ⟨past.length, now, first, second, ?_, ⟨lt_length_snoc, ?_, between_self⟩, slot⟩
      · exact Nat.le_of_lt (Nat.lt_of_le_of_lt hlast hpoisoned.1)
      · exact ⟨t.entry call, getElem?_snoc_self, collides⟩
  | spent p k at' pending files yields slot =>
      rw [hslot] at pending
      cases pending
  | reaped old occupied sweeps quiet slot =>
      rw [hslot] at occupied
      cases occupied
      refine Or.inl ⟨last, since, past.length, hlast, lt_length_snoc,
        hpoisoned.mono (Nat.le_refl _), t.entry call, getElem?_snoc_self, ?_⟩
      exact sweeps since first second rfl

theorem SlotHistory.step {t : OutboundTracker} (h : SlotHistory past t key) (call : TrackerCall) :
    SlotHistory (past ++ [t.entry call]) (t.step call).1 key := by
  refine ⟨fun peer kind issuedAt hslot => h.pending_step call hslot, ?_⟩
  intro i e now he hcollides
  rcases Nat.lt_or_ge i past.length with hi | hi
  · rw [List.getElem?_append_left hi] at he
    exact h.poisoned_step call he hcollides
  · -- the call itself collides
    obtain rfl : i = past.length := by
      have hlt := (List.getElem?_eq_some_iff.mp he).1
      rw [List.length_append, List.length_singleton] at hlt
      omega
    rw [getElem?_snoc_self] at he
    cases he
    have hfiles : (t.entry call).Files key := Or.inr ⟨now, hcollides⟩
    cases t.effect key call with
    | kept slot quiet => exact absurd hfiles quiet.1
    | opened p k now' vacant protocol opens slot =>
        obtain ⟨peer, kind, first, second, heq⟩ := hcollides
        obtain ⟨now', hopens⟩ := opens
        rw [hopens] at heq
        cases heq
    | collided now' first second collides slot =>
        refine Or.inr ⟨past.length, now', first, second, Nat.le_refl _,
          ⟨lt_length_snoc, ⟨t.entry call, getElem?_snoc_self, collides⟩, between_self⟩, slot⟩
    | spent p k at' pending files yields slot => exact absurd hfiles files
    | reaped old occupied sweeps quiet slot => exact absurd hfiles quiet.1

/-- Before any call nothing is filed. -/
def OutboundTracker.empty : OutboundTracker := ⟨∅⟩

theorem SlotHistory.empty (key : OutboundKey) : SlotHistory [] OutboundTracker.empty key := by
  refine ⟨?_, ?_⟩
  · intro peer kind issuedAt hslot
    cases hslot
  · intro i e now he
    cases he

/-! ### What every transcript satisfies -/

/-- The calls with their answers, from the empty tracker on. -/
def OutboundTracker.transcript (calls : List TrackerCall) : List TrackerEntry :=
  Transcript.answers OutboundTracker.step OutboundTracker.empty calls

/-- Only the last filing is the one that opened the slot. -/
theorem OpenedBy.unique {peer peer' : PeerId} {kind kind' : OutboundRequestKind} {i' : Nat}
    (h : OpenedBy past key peer kind i j) (h' : OpenedBy past key peer' kind' i' j) : i = i' := by
  obtain ⟨hi, ⟨e, he, hopens⟩, hbetween⟩ := h
  obtain ⟨hi', ⟨e', he', hopens'⟩, hbetween'⟩ := h'
  rcases Nat.lt_trichotomy i i' with hlt | heq | hgt
  · exact absurd (Or.inl ⟨peer', kind', hopens'⟩) (hbetween i' e' hlt hi' he')
  · exact heq
  · exact absurd (Or.inl ⟨peer, kind, hopens⟩) (hbetween' i e hgt hi he)

theorem getElem?_of_take {e : TrackerEntry} (h : (past.take j)[i]? = some e) :
    past[i]? = some e := by
  rw [List.getElem?_take] at h
  split at h
  · exact h
  · cases h

theorem Between.of_take {P : TrackerEntry → Prop} {n : Nat} (hn : n ≤ j)
    (h : Between (past.take j) i n P) : Between past i n P := by
  intro l e hil hl he
  refine h l e hil hl ?_
  rw [List.getElem?_take_of_lt (Nat.lt_of_lt_of_le hl hn)]
  exact he

theorem OpenedBy.of_take {peer : PeerId} {kind : OutboundRequestKind}
    (h : OpenedBy (past.take j) key peer kind i j) : OpenedBy past key peer kind i j := by
  obtain ⟨hi, ⟨e, he, hopens⟩, hbetween⟩ := h
  exact ⟨hi, ⟨e, getElem?_of_take he, hopens⟩, hbetween.of_take (Nat.le_refl _)⟩

theorem SweptBetween.of_take (h : SweptBetween (past.take j) key i j) :
    SweptBetween past key i j := by
  obtain ⟨last, since, l, hlast, hl, ⟨hll, ⟨e, he, hcollides⟩, hbetween⟩, e', he', hsweeps⟩ := h
  exact ⟨last, since, l, hlast, hl,
    ⟨hll, ⟨e, getElem?_of_take he, hcollides⟩, hbetween.of_take (Nat.le_of_lt hl)⟩,
    e', getElem?_of_take he', hsweeps⟩

variable {calls : List TrackerCall}

/-- The tracker before an entry: its slots tell the history up to there. -/
theorem before_entry {call : TrackerCall} {answer : TrackerAnswer}
    (h : (OutboundTracker.transcript calls)[j]? = some (call, answer)) :
    ∃ t : OutboundTracker, (t.step call).2 = answer ∧
      ∀ key, SlotHistory ((OutboundTracker.transcript calls).take j) t key := by
  have hinvariant := Transcript.invariant_at
    (P := fun past t => ∀ key, SlotHistory past t key) SlotHistory.empty
    (fun past t call hpast key => (hpast key).step call) h
  obtain ⟨t, hhistory, hanswer⟩ := hinvariant
  exact ⟨t, hanswer, hhistory⟩

theorem length_take_entry {e : TrackerEntry} (h : past[j]? = some e) : (past.take j).length = j := by
  rw [List.length_take]
  exact Nat.min_eq_left (Nat.le_of_lt (List.getElem?_eq_some_iff.mp h).1)

/-- A yield has the filing it names, and nothing in between. -/
theorem yields_opened {e : TrackerEntry} {peer : PeerId} {kind : OutboundRequestKind}
    (he : (OutboundTracker.transcript calls)[j]? = some e) (h : Yields key peer kind e) :
    kind.protocol = key.domain.protocol ∧
    ∃ i, OpenedBy (OutboundTracker.transcript calls) key peer kind i j ∧
      Between (OutboundTracker.transcript calls) i j fun e => e.Quiet key := by
  obtain ⟨call, answer⟩ := e
  have hlen := length_take_entry he
  obtain ⟨t, rfl, hhistory⟩ := before_entry he
  obtain ⟨issuedAt, hslot⟩ := OutboundTracker.yields_pending h
  obtain ⟨hprotocol, i, hopened, hquiet⟩ := (hhistory key).pending peer kind issuedAt hslot
  rw [hlen] at hopened hquiet
  exact ⟨hprotocol, i, hopened.of_take, hquiet.of_take (Nat.le_refl _)⟩

/-- What a transcript says about answers, failures and collisions. -/
structure Correlated (past : List TrackerEntry) : Prop where
  /-- An accepted answer names the request whose filing opened the slot, comes from its peer
  over its protocol, and answers it. -/
  response : ∀ j key peer response origin,
    past[j]? = some (.correlateResponse key peer response, .correlated (.ok origin)) →
    (∃! i, OpenedBy past key origin.peer origin.kind i j) ∧ peer = origin.peer ∧
    origin.kind.protocol = key.domain.protocol ∧ response.protocol = key.domain.protocol ∧
    Answers origin.kind response
  failure : ∀ j key peer kind, past[j]? = some (.onFailure key, .failed (.retained peer kind)) →
    ∃! i, OpenedBy past key peer kind i j
  /-- One filing, one yield. -/
  once : ∀ key peer kind i j j', OpenedBy past key peer kind i j → OpenedBy past key peer kind i j' →
    YieldsAt past key j → YieldsAt past key j' → j = j'
  /-- After a collision nothing is yielded before the sweep. -/
  poisoned : ∀ key now i j e, past[i]? = some e → e.Collides key now → i < j →
    YieldsAt past key j → SweptBetween past key i j

theorem yields_once {peer : PeerId} {kind : OutboundRequestKind} {j' : Nat}
    (hj' : OpenedBy (OutboundTracker.transcript calls) key peer kind i j')
    (hj : OpenedBy (OutboundTracker.transcript calls) key peer kind i j)
    (hyield : YieldsAt (OutboundTracker.transcript calls) key j)
    (hyield' : YieldsAt (OutboundTracker.transcript calls) key j') : ¬ j < j' := by
  intro hlt
  obtain ⟨e, p, k, he, hyields⟩ := hyield
  obtain ⟨e', p', k', he', hyields'⟩ := hyield'
  obtain ⟨-, i', hopened, hquiet⟩ := yields_opened he' hyields'
  obtain rfl := hj'.unique hopened
  exact (hquiet j e hj.1 hlt he).2 p k hyields

/--
**An answer belongs to one request.**  Along every sequence of calls, in any order and at
any times.
-/
theorem transcript_correlated (calls : List TrackerCall) :
    Correlated (OutboundTracker.transcript calls) := by
  refine ⟨?_, ?_, ?_, ?_⟩
  · intro j key peer response origin he
    obtain ⟨hprotocol, i, hopened, -⟩ := yields_opened he (.response peer response origin)
    obtain ⟨t, hanswer, -⟩ := before_entry he
    obtain ⟨-, -, hpeer, hanswers⟩ :=
      OutboundTracker.correlateResponse_ok (TrackerAnswer.correlated.inj hanswer)
    refine ⟨⟨i, hopened, fun i' h' => h'.unique hopened⟩, hpeer, hprotocol, ?_, hanswers⟩
    rw [hanswers.protocol]
    exact hprotocol
  · intro j key peer kind he
    obtain ⟨-, i, hopened, -⟩ := yields_opened he (.failure peer kind)
    exact ⟨i, hopened, fun i' h' => h'.unique hopened⟩
  · intro key peer kind i j j' hj hj' hyield hyield'
    have hle := yields_once hj' hj hyield hyield'
    have hge := yields_once hj hj' hyield' hyield
    omega
  · intro key now i j e he hcollides hij hyield
    obtain ⟨⟨call, answer⟩, p, k, hentry, hyields⟩ := hyield
    have hlen := length_take_entry hentry
    obtain ⟨t, rfl, hhistory⟩ := before_entry hentry
    obtain ⟨issuedAt, hpending⟩ := OutboundTracker.yields_pending hyields
    have hbefore : ((OutboundTracker.transcript calls).take j)[i]? = some e := by
      rw [List.getElem?_take_of_lt hij]
      exact he
    rcases (hhistory key).poisoned i e now hbefore hcollides with hswept |
      ⟨last, since, first, second, -, -, hslot⟩
    · rw [hlen] at hswept
      exact hswept.of_take
    · rw [hpending] at hslot
      cases hslot

end

end Snip
