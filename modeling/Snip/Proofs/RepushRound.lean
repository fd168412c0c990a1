/-
The push loops of `repush`, as far as they are the same.

The two loops keep their books in different maps.  `Books` is what both of them keep, and
`Turned` is all that an entry can do to it.  Of one push the books show four things: its
result, whether its turn in the first wave is still to come, the attempts while it waits
for an answer, and whether it is being sent again.  An entry moves these in one of the ways
of `Moves`, which are the steps of a request that is sent with a bounded number of retries.
-/
import Snip.Lib.Attempts
import Snip.Lib.Maps
import Snip.Node.Repush

namespace Snip

open Attempts

/-! ### One push -/

/-- What a loop keeps of one push. -/
structure PushView where
  result : Option RepushResult
  pending : Bool
  /-- The attempts, while an answer is awaited. -/
  awaited : Option Nat
  resent : Option (Nat × Str)

namespace PushView

/-- How a loop shows where a push is. -/
def ofStanding : Standing Str → PushView
  | .unsent => ⟨some .unreachable, true, none, none⟩
  | .lost => ⟨some .noAnswer, false, none, none⟩
  | .waiting n => ⟨some .noAnswer, false, some n, none⟩
  | .again n e => ⟨some .noAnswer, false, some n, some (n, e)⟩
  | .accepted => ⟨some .acknowledged, false, none, none⟩
  | .refused e => ⟨some (.refused e), false, none, none⟩

/-- All that an entry can do to a push; the sign is what it says about this push. -/
inductive Moves (limit : Nat) : PushView → Option (Sign Str) → PushView → Prop
  | skip (v : PushView) : Moves limit v none v
  | first {v : PushView} (ok : Bool) : v.pending = true →
      Moves limit v (some (.sent ok)) ⟨some .noAnswer, false, if ok then some 1 else none, none⟩
  | again {v : PushView} {n : Nat} {e : Str} (ok : Bool) : v.resent = some (n, e) →
      Moves limit v (some (.sent ok))
        (if ok then { v with awaited := some (n + 1), resent := none }
          else ⟨some (.refused e), v.pending, none, none⟩)
  | unheard {v : PushView} (error : Option Str) : v.awaited = none →
      Moves limit v (some (.answered error)) v
  | accept {v : PushView} {n : Nat} : v.awaited = some n → v.resent = none →
      Moves limit v (some (.answered none)) ⟨some .acknowledged, v.pending, none, none⟩
  | retry {v : PushView} {n : Nat} {e : Str} : v.awaited = some n → v.resent = none → n ≤ limit →
      Moves limit v (some (.answered (some e))) { v with resent := some (n, e) }
  | refuse {v : PushView} {n : Nat} {e : Str} : v.awaited = some n → v.resent = none →
      ¬ n ≤ limit →
      Moves limit v (some (.answered (some e))) ⟨some (.refused e), v.pending, none, none⟩

theorem eq_unsent {s : Standing Str} (h : (ofStanding s).pending = true) : s = .unsent := by
  cases s with
  | unsent => rfl
  | lost => cases h
  | waiting n => cases h
  | again n e => cases h
  | accepted => cases h
  | refused e => cases h

theorem eq_again {s : Standing Str} {n : Nat} {e : Str}
    (h : (ofStanding s).resent = some (n, e)) : s = .again n e := by
  cases s with
  | again n e => cases h; rfl
  | unsent => cases h
  | lost => cases h
  | waiting n => cases h
  | accepted => cases h
  | refused e => cases h

theorem eq_waiting {s : Standing Str} {n : Nat} (h : (ofStanding s).awaited = some n)
    (hresent : (ofStanding s).resent = none) : s = .waiting n := by
  cases s with
  | waiting n => cases h; rfl
  | again n e => cases hresent
  | unsent => cases h
  | lost => cases h
  | accepted => cases h
  | refused e => cases h

theorem eq_accepted {s : Standing Str} (h : (ofStanding s).result = some .acknowledged) :
    s = .accepted := by
  cases s with
  | accepted => rfl
  | unsent => cases h
  | lost => cases h
  | waiting n => cases h
  | again n e => cases h
  | refused e => cases h

theorem eq_refused {s : Standing Str} {e : Str} (h : (ofStanding s).result = some (.refused e)) :
    s = .refused e := by
  cases s with
  | refused e => cases h; rfl
  | unsent => cases h
  | lost => cases h
  | waiting n => cases h
  | again n e => cases h
  | accepted => cases h

theorem pending_of_unreachable {s : Standing Str}
    (h : (ofStanding s).result = some .unreachable) : (ofStanding s).pending = true := by
  cases s with
  | unsent => rfl
  | lost => cases h
  | waiting n => cases h
  | again n e => cases h
  | accepted => cases h
  | refused e => cases h

theorem next_unheard {s : Standing Str} (h : (ofStanding s).awaited = none) (limit : Nat)
    (error : Option Str) : s.next limit (.answered error) = some s := by
  cases s with
  | waiting n => cases h
  | again n e => cases h
  | unsent => rfl
  | lost => rfl
  | accepted => rfl
  | refused e => rfl

/-- A push whose signs have led to a standing that the view shows. -/
def Shown (limit : Nat) (signs : List (Sign Str)) (v : PushView) : Prop :=
  ∃ s, Standing.after limit signs = some s ∧ v = ofStanding s

/-- The step lemma: the moves are the steps of the request. -/
theorem Shown.moves {limit : Nat} {signs : List (Sign Str)} {v v' : PushView}
    {sign : Option (Sign Str)} (h : Shown limit signs v) (hmoves : Moves limit v sign v') :
    Shown limit (signs ++ sign.toList) v' := by
  obtain ⟨s, hafter, hv⟩ := h
  have hsnoc : ∀ sg t, s.next limit sg = some t → v' = ofStanding t →
      Shown limit (signs ++ [sg]) v' := by
    intro sg t hnext hshown
    refine ⟨t, ?_, hshown⟩
    rw [after_snoc, hafter]
    exact hnext
  cases hmoves with
  | skip => exact ⟨s, by rwa [Option.toList_none, List.append_nil], hv⟩
  | first ok hpending =>
      obtain rfl := eq_unsent (hv ▸ hpending)
      refine hsnoc _ _ rfl ?_
      cases ok with
      | true => rfl
      | false => rfl
  | again ok hresent =>
      obtain rfl := eq_again (hv ▸ hresent)
      refine hsnoc _ _ rfl ?_
      rw [hv]
      cases ok with
      | true => rfl
      | false => rfl
  | unheard error hawaited => exact hsnoc _ _ (next_unheard (hv ▸ hawaited) limit error) hv
  | accept hawaited hresent =>
      obtain rfl := eq_waiting (hv ▸ hawaited) (hv ▸ hresent)
      refine hsnoc (.answered none) _ rfl ?_
      rw [hv]
      rfl
  | @retry n e hawaited hresent hmore =>
      obtain rfl := eq_waiting (hv ▸ hawaited) (hv ▸ hresent)
      refine hsnoc (.answered (some e)) (.again n e) (congrArg some (if_pos hmore)) ?_
      rw [hv]
      rfl
  | @refuse n e hawaited hresent hno =>
      obtain rfl := eq_waiting (hv ▸ hawaited) (hv ▸ hresent)
      refine hsnoc (.answered (some e)) (.refused e) (congrArg some (if_neg hno)) ?_
      rw [hv]
      rfl

end PushView

/-! ### What a result stands for -/

/-- The entry is a push of this key, whether it worked or not. -/
def RepushEntry.pushes {κ : Type} [DecidableEq κ] (key : κ) : RepushEntry κ → Bool
  | .sent k _ => k = key
  | .read _ | .deadline => false

/--
A result says what has happened to the push of a key.  `ack` is the entry in which the
peer of the key answers; a target without a peer has no key.
-/
structure Exact {κ : Type} [DecidableEq κ] (pushRetries : Nat)
    (ack : κ → Option Str → OutboundOrigin → RepushEntry κ) (entries : List (RepushEntry κ))
    (key? : Option κ) (result : RepushResult) : Prop where
  acknowledged : result = .acknowledged →
    ∃ key origin, key? = some key ∧ List.Sublist [.sent key true, ack key none origin] entries
  refused : ∀ e, result = .refused e → ∃ key, key? = some key ∧
    (∃ origin, List.Sublist [.sent key true, ack key (some e) origin] entries) ∧
    (entries.countP (RepushEntry.pushes key) = pushRetries + 1 ∨
      ∃ origin, List.Sublist [ack key (some e) origin, .sent key false] entries)
  unreachable : result = .unreachable → key? = none
  budget : ∀ key, key? = some key → entries.countP (RepushEntry.pushes key) ≤ pushRetries + 1

/-- The signs of a key are its pushes and the answers of its peer. -/
structure Signs {κ : Type} (sign : κ → RepushEntry κ → Option (Sign Str))
    (ack : κ → Option Str → OutboundOrigin → RepushEntry κ) : Prop where
  sent : ∀ key ok, sign key (.sent key ok) = some (.sent ok)
  of_sent : ∀ key entry ok, sign key entry = some (.sent ok) → entry = .sent key ok
  of_answered : ∀ key entry error, sign key entry = some (.answered error) →
    ∃ origin, entry = ack key error origin

section

variable {κ : Type} [DecidableEq κ] {sign : κ → RepushEntry κ → Option (Sign Str)}
  {ack : κ → Option Str → OutboundOrigin → RepushEntry κ}

theorem Signs.pushes_eq_false (h : Signs sign ack) {key : κ} {entry : RepushEntry κ}
    (hsign : ∀ ok, sign key entry ≠ some (.sent ok)) : RepushEntry.pushes key entry = false := by
  cases entry with
  | sent k ok =>
      have hne : k ≠ key := by
        rintro rfl
        exact hsign ok (h.sent k ok)
      exact decide_eq_false hne
  | read event => rfl
  | deadline => rfl

theorem Signs.sends_eq (h : Signs sign ack) (key : κ) (entries : List (RepushEntry κ)) :
    sends (entries.filterMap (sign key)) = entries.countP (RepushEntry.pushes key) := by
  induction entries with
  | nil => rfl
  | cons entry entries ih =>
      rw [List.countP_cons]
      cases hsign : sign key entry with
      | none =>
          rw [List.filterMap_cons_none hsign, ih, h.pushes_eq_false (by simp [hsign])]
          simp
      | some sg =>
          rw [List.filterMap_cons_some hsign]
          cases sg with
          | sent ok =>
              obtain rfl := h.of_sent key entry ok hsign
              have hyes : RepushEntry.pushes key (.sent key ok) = true := decide_eq_true rfl
              rw [hyes, sends_cons_sent, ih]
              rfl
          | answered error =>
              rw [h.pushes_eq_false (by simp [hsign]), sends_cons_answered, ih]
              simp

/-- The results of a loop that is over are exact. -/
theorem Signs.exact (h : Signs sign ack) {limit : Nat} {key : κ} {entries : List (RepushEntry κ)}
    {v : PushView} (hshown : PushView.Shown limit (entries.filterMap (sign key)) v)
    (hpending : v.pending = false) {result : RepushResult} (hresult : v.result = some result) :
    Exact limit ack entries (some key) result := by
  obtain ⟨s, hafter, rfl⟩ := hshown
  have htells := standing_spec _ s hafter
  have hbudget := htells.sends_le
  rw [h.sends_eq] at hbudget
  refine ⟨?_, ?_, ?_, ?_⟩
  · rintro rfl
    obtain rfl := PushView.eq_accepted hresult
    obtain ⟨x, y, hx, hy, hsub⟩ := htells.2.of_filterMap
    obtain rfl := h.of_sent key x true hx
    obtain ⟨origin, rfl⟩ := h.of_answered key y none hy
    exact ⟨key, origin, rfl, hsub⟩
  · rintro e rfl
    obtain rfl := PushView.eq_refused hresult
    obtain ⟨-, hfollows, hend⟩ := htells
    obtain ⟨x, y, hx, hy, hsub⟩ := hfollows.of_filterMap
    obtain rfl := h.of_sent key x true hx
    obtain ⟨origin, rfl⟩ := h.of_answered key y (some e) hy
    refine ⟨key, rfl, ⟨origin, hsub⟩, ?_⟩
    rcases hend with hall | hfailed
    · rw [h.sends_eq] at hall
      exact Or.inl hall
    · obtain ⟨x, y, hx, hy, hsub⟩ := hfailed.of_filterMap
      obtain ⟨origin, rfl⟩ := h.of_answered key x (some e) hx
      obtain rfl := h.of_sent key y false hy
      exact Or.inr ⟨origin, hsub⟩
  · rintro rfl
    rw [PushView.pending_of_unreachable hresult] at hpending
    cases hpending
  · intro k hk
    rw [← Option.some.inj hk]
    exact hbudget

end

/-- The targets that are left in the first wave. -/
def RepushPhase.rest {τ κ : Type} : RepushPhase τ κ → List τ
  | .wave rest => rest
  | .waiting | .resending .. | .done | .panicked => []

/-- The push that is being sent again. -/
def RepushPhase.resending? {τ κ : Type} : RepushPhase τ κ → Option (κ × Addr × Nat × Str)
  | .resending key archive n e => some (key, archive, n, e)
  | .wave _ | .waiting | .done | .panicked => none

/-! ### The books of a loop -/

section

variable {τ κ : Type} [DecidableEq τ] [DecidableEq κ]

/-- What a loop keeps, in whatever maps. -/
structure Books (τ κ : Type) where
  /-- The targets that are left in the first wave. -/
  rest : List τ
  /-- The push that is being sent again, with its attempts and the refusal. -/
  resending : Option (κ × τ × Nat × Str)
  results : τ → Option RepushResult
  /-- Whose answer is awaited under a key. -/
  awaited : κ → Option τ
  attempts : κ → Option Nat

namespace Books

/-- What the books keep of the push to a target. -/
def view (b : Books τ κ) (t : τ) (key : κ) : PushView where
  result := b.results t
  pending := decide (t ∈ b.rest)
  awaited := (b.awaited key).bind fun _ => b.attempts key
  resent := b.resending.bind fun (k, _, n, e) => if k = key then some (n, e) else none

/-- The books with these targets left in the wave, and nothing sent again. -/
def leave (b : Books τ κ) (rest : List τ) : Books τ κ := { b with rest, resending := none }

/-- The push under the key has its result. -/
def settle (b : Books τ κ) (key : κ) (t : τ) (result : RepushResult) : Books τ κ :=
  { b with
    resending := none
    results := Function.update b.results t (some result)
    awaited := Function.update b.awaited key none }

/-- The push under the key has been sent that often. -/
def count (b : Books τ κ) (key : κ) (n : Nat) : Books τ κ :=
  { b with resending := none, attempts := Function.update b.attempts key (some n) }

/-- The push under the key is being sent again. -/
def resend (b : Books τ κ) (key : κ) (t : τ) (n : Nat) (e : Str) : Books τ κ :=
  { b with resending := some (key, t, n, e) }

/-- An entry that says something about one push only. -/
def signFor (key : κ) (sign : Sign Str) (k : κ) : Option (Sign Str) :=
  if key = k then some sign else none

theorem signFor_self (key : κ) (sign : Sign Str) : signFor key sign key = some sign := if_pos rfl

theorem signFor_ne {key k : κ} (h : key ≠ k) (sign : Sign Str) : signFor key sign k = none :=
  if_neg h

/-- The targets with a peer that the wave goes on to. -/
structure Leaves (key? : τ → Option κ) (rest rest' : List τ) : Prop where
  sublist : rest'.Sublist rest
  keeps : ∀ t ∈ rest, (key? t).isSome = true → t ∈ rest'

/-- All an entry can do to the books; `sign` is what it says about each push. -/
inductive Turned (key? : τ → Option κ) (limit : Nat) (b : Books τ κ) :
    (κ → Option (Sign Str)) → Books τ κ → Prop
  | first {t : τ} {rest rest' : List τ} {key : κ} (ok : Bool) : b.rest = t :: rest →
      b.resending = none → key? t = some key → Leaves key? rest rest' →
      Turned key? limit b (signFor key (.sent ok))
        { rest := rest'
          resending := none
          results := Function.update b.results t (some .noAnswer)
          awaited := if ok then Function.update b.awaited key (some t) else b.awaited
          attempts := if ok then Function.update b.attempts key (some 1) else b.attempts }
  | again {key : κ} {t : τ} {n : Nat} {e : Str} (ok : Bool) : b.rest = [] →
      b.resending = some (key, t, n, e) →
      Turned key? limit b (signFor key (.sent ok))
        (if ok then b.count key (n + 1) else b.settle key t (.refused e))
  | ignored {sign : κ → Option (Sign Str)} : b.rest = [] → b.resending = none →
      (∀ key, sign key = none ∨ b.awaited key = none ∧ ∃ error, sign key = some (.answered error)) →
      Turned key? limit b sign b
  | accepted {key : κ} {t : τ} : b.rest = [] → b.resending = none → b.awaited key = some t →
      Turned key? limit b (signFor key (.answered none))
        (b.settle key t .acknowledged)
  | retried {key : κ} {t : τ} {n : Nat} {e : Str} : b.rest = [] → b.resending = none →
      b.awaited key = some t → b.attempts key = some n → n ≤ limit →
      Turned key? limit b (signFor key (.answered (some e)))
        (b.resend key t n e)
  | refused {key : κ} {t : τ} {n : Nat} {e : Str} : b.rest = [] → b.resending = none →
      b.awaited key = some t → b.attempts key = some n → ¬ n ≤ limit →
      Turned key? limit b (signFor key (.answered (some e)))
        (b.settle key t (.refused e))

/-- What holds of the books, whatever has happened. -/
structure Sound (key? : τ → Option κ) (targets : List τ) (b : Books τ κ) : Prop where
  /-- The wave sends each target once. -/
  nodup : b.rest.Nodup
  rest : ∀ t ∈ b.rest, t ∈ targets
  /-- An answer is awaited from the peer of a target that was sent. -/
  awaited : ∀ key t, b.awaited key = some t → t ∈ targets ∧ key? t = some key ∧ t ∉ b.rest ∧
    ∃ n, b.attempts key = some n
  resending : ∀ key t n e, b.resending = some (key, t, n, e) →
    b.awaited key = some t ∧ b.attempts key = some n
  known : ∀ t, (b.results t).isSome = true ↔ t ∈ targets
  unresolved : ∀ t ∈ targets, key? t = none → b.results t = some .unreachable

variable {key? : τ → Option κ} {limit : Nat} {targets : List τ} {b b' : Books τ κ}
  {sign : κ → Option (Sign Str)}

omit [DecidableEq τ] [DecidableEq κ] in
/-- The push of a target that is still in the wave is not awaited. -/
theorem Sound.not_awaited (hb : b.Sound key? targets)
    (hinj : ∀ t u key, key? t = some key → key? u = some key → t = u) {t : τ} {key : κ}
    (hkey : key? t = some key) (hrest : t ∈ b.rest) : b.awaited key = none := by
  cases hawaited : b.awaited key with
  | none => rfl
  | some u =>
      obtain ⟨-, hu, hnot, -⟩ := hb.awaited key u hawaited
      rw [hinj u t key hu hkey] at hnot
      exact absurd hrest hnot

/-- Outside of the wave and of a resend, a view is the result and the attempts. -/
theorem view_of_idle (hrest : b.rest = []) (hresending : b.resending = none) (t : τ) (key : κ) :
    b.view t key = ⟨b.results t, false, (b.awaited key).bind fun _ => b.attempts key, none⟩ := by
  unfold view
  rw [hrest, hresending]
  simp

omit [DecidableEq τ] [DecidableEq κ] in
theorem Sound.resent (hb : b.Sound key? targets) {key : κ} {t : τ} {n : Nat} {e : Str}
    (h : b.resending = some (key, t, n, e)) : t ∈ targets ∧ key? t = some key := by
  obtain ⟨hawaited, -⟩ := hb.resending key t n e h
  obtain ⟨ht, hkey, -⟩ := hb.awaited key t hawaited
  exact ⟨ht, hkey⟩

/-- Only targets are sent to. -/
theorem Turned.sent (hb : b.Sound key? targets) (h : b.Turned key? limit sign b') {key : κ}
    {ok : Bool} (hsign : sign key = some (.sent ok)) : ∃ t ∈ targets, key? t = some key := by
  have hfor : ∀ {k : κ} {sg : Sign Str}, signFor k sg key = some (.sent ok) →
      k = key ∧ sg = .sent ok := by
    intro k sg hk
    unfold signFor at hk
    by_cases heq : k = key
    · rw [if_pos heq] at hk
      exact ⟨heq, Option.some.inj hk⟩
    · rw [if_neg heq] at hk
      cases hk
  cases h with
  | @first t rest rest' k ok' hrest _ hkey _ =>
      obtain ⟨rfl, -⟩ := hfor hsign
      exact ⟨t, hb.rest t (by rw [hrest]; exact List.mem_cons_self ..), hkey⟩
  | @again k t n e ok' _ hresending =>
      obtain ⟨rfl, -⟩ := hfor hsign
      obtain ⟨ht, hkey⟩ := hb.resent hresending
      exact ⟨t, ht, hkey⟩
  | ignored _ _ hnone =>
      rcases hnone key with hnone | ⟨-, error, hnone⟩
      · cases hnone.symm.trans hsign
      · cases hnone.symm.trans hsign
  | accepted _ _ _ => cases (hfor hsign).2
  | retried _ _ _ _ _ => cases (hfor hsign).2
  | refused _ _ _ _ _ => cases (hfor hsign).2

/-- The step lemma: an entry moves each push as its sign says. -/
theorem moves_of_turned (hb : b.Sound key? targets)
    (hinj : ∀ t u key, key? t = some key → key? u = some key → t = u) {t : τ} {key : κ}
    (hkey : key? t = some key) (h : b.Turned key? limit sign b') :
    PushView.Moves limit (b.view t key) (sign key) (b'.view t key) := by
  have hother : ∀ {k u}, key? u = some k → k ≠ key → t ≠ u := by
    rintro k u hu hne rfl
    exact hne (Option.some.inj (hu.symm.trans hkey))
  cases h with
  | @first u rest rest' k ok hrest hresending hu hleaves =>
      have hnodup := hb.nodup
      rw [hrest] at hnodup
      obtain ⟨hhead, -⟩ := List.nodup_cons.mp hnodup
      by_cases hk : k = key
      · subst hk
        obtain rfl := hinj t u k hkey hu
        have hpending : t ∈ b.rest := by
          rw [hrest]
          exact List.mem_cons_self
        have hgone : t ∉ rest' := fun hmem => hhead (hleaves.sublist.subset hmem)
        have hnone := hb.not_awaited hinj hkey hpending
        have hmove := @PushView.Moves.first limit (b.view t k) ok
          (by simpa [view] using hpending)
        rw [signFor_self]
        cases ok with
        | true => simpa [view, hgone] using hmove
        | false => simpa [view, hgone, hnone] using hmove
      · have hne := hother hu hk
        have hmem : (t ∈ rest') = (t ∈ b.rest) := by
          rw [hrest]
          refine propext ⟨fun hmem => List.mem_cons_of_mem _ (hleaves.sublist.subset hmem), ?_⟩
          intro hmem
          rcases List.mem_cons.mp hmem with rfl | hmem
          · exact absurd rfl hne
          · exact hleaves.keeps t hmem (by rw [hkey]; rfl)
        have hskip := @PushView.Moves.skip limit (b.view t key)
        rw [signFor_ne hk]
        cases ok with
        | true => simpa [view, hmem, hne, hresending, Ne.symm hk] using hskip
        | false => simpa [view, hmem, hne, hresending] using hskip
  | @again k u n e ok hrest hresending =>
      obtain ⟨hawaited, hattempts⟩ := hb.resending k u n e hresending
      obtain ⟨-, hu, -, -⟩ := hb.awaited k u hawaited
      by_cases hk : k = key
      · subst hk
        obtain rfl := hinj t u k hkey hu
        have hbefore : b.view t k = ⟨b.results t, false, some n, some (n, e)⟩ := by
          unfold view
          simp [hrest, hresending, hawaited, hattempts]
        have hmove := @PushView.Moves.again limit
          ⟨b.results t, false, some n, some (n, e)⟩ n e ok rfl
        rw [signFor_self, hbefore]
        cases ok with
        | true => simpa [view, count, hrest, hawaited] using hmove
        | false => simpa [view, settle, hrest] using hmove
      · have hne := hother hu hk
        have hskip := @PushView.Moves.skip limit (b.view t key)
        rw [signFor_ne hk]
        cases ok with
        | true => simpa [view, count, hrest, hresending, hk, Ne.symm hk] using hskip
        | false => simpa [view, settle, hrest, hresending, hk, Ne.symm hk, hne] using hskip
  | ignored hrest hresending hsign =>
      rcases hsign key with hnone | ⟨hnone, error, hsome⟩
      · rw [hnone]
        exact .skip _
      · rw [hsome]
        refine .unheard error ?_
        unfold view
        rw [hnone]
        rfl
  | @accepted k u hrest hresending hawaited =>
      obtain ⟨-, hu, -, n, hattempts⟩ := hb.awaited k u hawaited
      rw [view_of_idle hrest hresending, view_of_idle (b := b.settle k u .acknowledged) hrest rfl]
      by_cases hk : k = key
      · subst hk
        obtain rfl := hinj t u k hkey hu
        have hmove := @PushView.Moves.accept limit
          ⟨b.results t, false, some n, none⟩ n rfl rfl
        rw [signFor_self]
        simpa [settle, hawaited, hattempts] using hmove
      · have hne := hother hu hk
        rw [signFor_ne hk]
        simpa [settle, hne, Ne.symm hk] using @PushView.Moves.skip limit _
  | @retried k u n e hrest hresending hawaited hattempts hmore =>
      by_cases hk : k = key
      · subst hk
        have hmove := @PushView.Moves.retry limit
          ⟨b.results t, false, some n, none⟩ n e rfl rfl hmore
        rw [signFor_self]
        simpa [view, resend, hrest, hresending, hawaited, hattempts] using hmove
      · have hsame : (b.resend k u n e).view t key = b.view t key := by
          unfold view resend
          simp [hresending, hk]
        rw [signFor_ne hk, hsame]
        exact .skip _
  | @refused k u n e hrest hresending hawaited hattempts hno =>
      obtain ⟨-, hu, -, -⟩ := hb.awaited k u hawaited
      rw [view_of_idle hrest hresending, view_of_idle (b := b.settle k u (.refused e)) hrest rfl]
      by_cases hk : k = key
      · subst hk
        obtain rfl := hinj t u k hkey hu
        have hmove := @PushView.Moves.refuse limit
          ⟨b.results t, false, some n, none⟩ n e rfl rfl hno
        rw [signFor_self]
        simpa [settle, hawaited, hattempts] using hmove
      · have hne := hother hu hk
        rw [signFor_ne hk]
        simpa [settle, hne, Ne.symm hk] using @PushView.Moves.skip limit _

omit [DecidableEq τ] in
/-- The attempts stay known where one of them is counted. -/
theorem Sound.update_attempts (hb : b.Sound key? targets) (key : κ) (n : Nat) :
    ∀ k t, b.awaited k = some t → ∃ m, Function.update b.attempts key (some n) k = some m := by
  intro k t hawaited
  by_cases hk : k = key
  · subst hk
    exact ⟨n, Function.update_self ..⟩
  · obtain ⟨-, -, -, m, hm⟩ := hb.awaited k t hawaited
    exact ⟨m, by rw [Function.update_of_ne hk, hm]⟩

omit [DecidableEq κ] in
theorem Sound.update_known (hb : b.Sound key? targets) {t : τ} (ht : t ∈ targets)
    (result : RepushResult) :
    ∀ u, (Function.update b.results t (some result) u).isSome = true ↔ u ∈ targets := by
  intro u
  by_cases h : u = t
  · subst h
    rw [Function.update_self]
    exact iff_of_true rfl ht
  · rw [Function.update_of_ne h]
    exact hb.known u

omit [DecidableEq κ] in
theorem Sound.update_unresolved (hb : b.Sound key? targets) {t : τ} {key : κ}
    (ht : key? t = some key) (result : RepushResult) :
    ∀ u ∈ targets, key? u = none →
      Function.update b.results t (some result) u = some .unreachable := by
  intro u hu hnone
  have hne : u ≠ t := by
    rintro rfl
    rw [ht] at hnone
    cases hnone
  rw [Function.update_of_ne hne]
  exact hb.unresolved u hu hnone

omit [DecidableEq τ] in
/-- Without the answer of one key the others are awaited as before. -/
theorem Sound.erase_awaited (hb : b.Sound key? targets) (key : κ) :
    ∀ k t, Function.update b.awaited key none k = some t → t ∈ targets ∧ key? t = some k ∧
      t ∉ b.rest ∧ ∃ n, b.attempts k = some n := by
  intro k t hawaited
  by_cases hk : k = key
  · subst hk
    rw [Function.update_self] at hawaited
    cases hawaited
  · rw [Function.update_of_ne hk] at hawaited
    exact hb.awaited k t hawaited

/-- The invariant along one entry. -/
theorem Sound.turned (hb : b.Sound key? targets)
    (h : b.Turned key? limit sign b') : b'.Sound key? targets := by
  cases h with
  | @first t rest rest' key ok hrest hresending hkey hleaves =>
      have hnodup := hb.nodup
      have hsub := hb.rest
      rw [hrest] at hnodup hsub
      obtain ⟨hhead, htail⟩ := List.nodup_cons.mp hnodup
      refine ⟨htail.sublist hleaves.sublist, ?_, ?_, nofun,
        hb.update_known (hsub t List.mem_cons_self) _, hb.update_unresolved hkey _⟩
      · intro u hu
        exact hsub u (List.mem_cons_of_mem _ (hleaves.sublist.subset hu))
      · have hold : ∀ k u, b.awaited k = some u → u ∈ targets ∧ key? u = some k ∧ u ∉ rest' ∧
            ∃ n, b.attempts k = some n := by
          intro k u hawaited
          obtain ⟨hu, hku, hnot, hn⟩ := hb.awaited k u hawaited
          rw [hrest] at hnot
          refine ⟨hu, hku, ?_, hn⟩
          exact fun hmem => hnot (List.mem_cons_of_mem _ (hleaves.sublist.subset hmem))
        cases ok with
        | true =>
            intro k u hawaited
            change Function.update b.awaited key (some t) k = some u at hawaited
            show u ∈ targets ∧ key? u = some k ∧ u ∉ rest' ∧
              ∃ n, Function.update b.attempts key (some 1) k = some n
            by_cases hk : k = key
            · subst hk
              rw [Function.update_self] at hawaited
              obtain rfl := Option.some.inj hawaited
              exact ⟨hsub t List.mem_cons_self, hkey,
                fun hmem => hhead (hleaves.sublist.subset hmem), 1, Function.update_self ..⟩
            · rw [Function.update_of_ne hk] at hawaited
              obtain ⟨hu, hku, hnot, n, hn⟩ := hold k u hawaited
              exact ⟨hu, hku, hnot, n, by rw [Function.update_of_ne hk, hn]⟩
        | false => exact hold
  | @again key t n e ok hrest hresending =>
      obtain ⟨hawaited, -⟩ := hb.resending key t n e hresending
      obtain ⟨ht, hkey, -, -⟩ := hb.awaited key t hawaited
      cases ok with
      | true =>
          refine ⟨hb.nodup, hb.rest, ?_, nofun, hb.known, hb.unresolved⟩
          intro k u hk
          obtain ⟨hu, hku, hnot, -⟩ := hb.awaited k u hk
          exact ⟨hu, hku, hnot, hb.update_attempts key (n + 1) k u hk⟩
      | false =>
          exact ⟨hb.nodup, hb.rest, hb.erase_awaited key, nofun, hb.update_known ht _,
            hb.update_unresolved hkey _⟩
  | ignored hrest hresending hsign => exact hb
  | @accepted key t hrest hresending hawaited =>
      obtain ⟨ht, hkey, -, -⟩ := hb.awaited key t hawaited
      exact ⟨hb.nodup, hb.rest, hb.erase_awaited key, nofun, hb.update_known ht _,
        hb.update_unresolved hkey _⟩
  | @retried key t n e hrest hresending hawaited hattempts hmore =>
      refine ⟨hb.nodup, hb.rest, hb.awaited, ?_, hb.known, hb.unresolved⟩
      intro k u m e' h
      cases h
      exact ⟨hawaited, hattempts⟩
  | @refused key t n e hrest hresending hawaited hattempts hno =>
      obtain ⟨ht, hkey, -, -⟩ := hb.awaited key t hawaited
      exact ⟨hb.nodup, hb.rest, hb.erase_awaited key, nofun, hb.update_known ht _,
        hb.update_unresolved hkey _⟩

/-- Nothing sent yet, and the targets with a peer still in the wave. -/
structure Idle (key? : τ → Option κ) (targets : List τ) (b : Books τ κ) : Prop where
  leaves : Leaves key? targets b.rest
  resending : b.resending = none
  results : ∀ t ∈ targets, b.results t = some .unreachable
  others : ∀ t, t ∉ targets → b.results t = none
  awaited : ∀ key, b.awaited key = none

omit [DecidableEq τ] [DecidableEq κ] in
theorem Idle.sound (hb : b.Idle key? targets) (hnodup : targets.Nodup) :
    b.Sound key? targets where
  nodup := hnodup.sublist hb.leaves.sublist
  rest := fun _ ht => hb.leaves.sublist.subset ht
  awaited := fun key _ h => absurd ((hb.awaited key).symm.trans h) nofun
  resending := fun _ _ _ _ h => absurd (hb.resending.symm.trans h) nofun
  known := by
    intro t
    by_cases ht : t ∈ targets
    · rw [hb.results t ht]
      exact iff_of_true rfl ht
    · rw [hb.others t ht]
      exact iff_of_false nofun ht
  unresolved := fun t ht _ => hb.results t ht

theorem Idle.view (hb : b.Idle key? targets) {t : τ} (ht : t ∈ targets) {key : κ}
    (hkey : key? t = some key) : b.view t key = PushView.ofStanding .unsent := by
  have hmem : t ∈ b.rest := hb.leaves.keeps t ht (by rw [hkey]; rfl)
  unfold Books.view
  simp [hmem, hb.results t ht, hb.resending, hb.awaited, PushView.ofStanding]

end Books

/-! ### Runs -/

omit [DecidableEq τ] in
/-- The signs of a loop that looks at the answers to its own pushes only. -/
theorem Signs.of_read {sign : κ → RepushEntry κ → Option (Sign Str)}
    {ack : κ → Option Str → OutboundOrigin → RepushEntry κ}
    (hsent : ∀ key k ok, sign key (.sent k ok) = Books.signFor k (.sent ok) key)
    (hdeadline : ∀ key, sign key .deadline = none)
    (hack : ∀ key error origin, sign key (ack key error origin) = some (.answered error))
    (hread : ∀ key event, sign key (.read event) = none ∨
      ∃ error origin, .read event = ack key error origin) : Signs sign ack where
  sent := by
    intro key ok
    rw [hsent, Books.signFor_self]
  of_sent := by
    intro key entry ok h
    cases entry with
    | sent k ok' =>
        rw [hsent] at h
        by_cases hk : k = key
        · subst hk
          rw [Books.signFor_self] at h
          cases h
          rfl
        · rw [Books.signFor_ne hk] at h
          cases h
    | read event =>
        rcases hread key event with hnone | ⟨error, origin, heq⟩
        · rw [hnone] at h
          cases h
        · rw [heq, hack] at h
          cases h
    | deadline =>
        rw [hdeadline] at h
        cases h
  of_answered := by
    intro key entry error h
    cases entry with
    | sent k ok =>
        rw [hsent] at h
        by_cases hk : k = key
        · subst hk
          rw [Books.signFor_self] at h
          cases h
        · rw [Books.signFor_ne hk] at h
          cases h
    | read event =>
        rcases hread key event with hnone | ⟨error', origin, heq⟩
        · rw [hnone] at h
          cases h
        · rw [heq, hack] at h
          cases h
          exact ⟨origin, heq⟩
    | deadline =>
        rw [hdeadline] at h
        cases h

/-- A loop that keeps its books as it should, with an invariant of its own. -/
structure KeepsBooks {σ : Type} (key? : τ → Option κ) (limit : Nat) (targets : List τ)
    (sign : κ → RepushEntry κ → Option (Sign Str)) (turn : σ → RepushEntry κ → Option σ)
    (books : σ → Books τ κ) (P : σ → Prop) : Prop where
  inj : ∀ t u key, key? t = some key → key? u = some key → t = u
  step : ∀ s entry s', (books s).Sound key? targets → P s → turn s entry = some s' →
    (books s).Turned key? limit (fun key => sign key entry) (books s') ∧ P s'

variable {σ : Type} {key? : τ → Option κ} {limit : Nat} {targets : List τ}
  {sign : κ → RepushEntry κ → Option (Sign Str)} {turn : σ → RepushEntry κ → Option σ}
  {books : σ → Books τ κ} {P : σ → Prop} {start : σ}

/-- The run lemma. -/
theorem KeepsBooks.run (h : KeepsBooks key? limit targets sign turn books P)
    (hidle : (books start).Idle key? targets) (hnodup : targets.Nodup) (hstart : P start)
    (entries : List (RepushEntry κ)) :
    ∀ s, entries.foldlM turn start = some s → P s ∧ (books s).Sound key? targets ∧
      ∀ t ∈ targets, ∀ key, key? t = some key →
        PushView.Shown limit (entries.filterMap (sign key)) ((books s).view t key) := by
  induction entries using List.reverseRecOn with
  | nil =>
      intro s hs
      cases hs
      exact ⟨hstart, hidle.sound hnodup, fun t ht key hkey => ⟨.unsent, rfl, hidle.view ht hkey⟩⟩
  | append_singleton entries entry ih =>
      intro s hs
      rw [List.foldlM_append] at hs
      obtain ⟨before, hbefore, hturn⟩ := Option.bind_eq_some_iff.mp hs
      obtain ⟨hp, hsound, hshown⟩ := ih before hbefore
      obtain ⟨hturned, hp'⟩ := h.step before entry s hsound hp (by simpa using hturn)
      refine ⟨hp', hsound.turned hturned, ?_⟩
      intro t ht key hkey
      have hnext := (hshown t ht key hkey).moves (Books.moves_of_turned hsound h.inj hkey hturned)
      rw [List.filterMap_append, List.filterMap_cons, List.filterMap_nil]
      cases hsign : sign key entry with
      | none => simpa [hsign] using hnext
      | some sg => simpa [hsign] using hnext

/-- Along every run, only targets are sent to. -/
theorem KeepsBooks.sent (h : KeepsBooks key? limit targets sign turn books P)
    (hidle : (books start).Idle key? targets) (hnodup : targets.Nodup) (hstart : P start)
    (hsent : ∀ key ok, sign key (.sent key ok) = some (.sent ok))
    {entries : List (RepushEntry κ)} {s : σ} (hrun : entries.foldlM turn start = some s) {key : κ}
    {ok : Bool} (hmem : .sent key ok ∈ entries) : ∃ t ∈ targets, key? t = some key := by
  obtain ⟨before, after, rfl⟩ := List.append_of_mem hmem
  rw [List.foldlM_append] at hrun
  obtain ⟨u, hbefore, hafter⟩ := Option.bind_eq_some_iff.mp hrun
  rw [List.foldlM_cons] at hafter
  obtain ⟨v, hturn, -⟩ := Option.bind_eq_some_iff.mp hafter
  obtain ⟨hp, hsound, -⟩ := h.run hidle hnodup hstart before u hbefore
  obtain ⟨hturned, -⟩ := h.step u (.sent key ok) v hsound hp hturn
  exact hturned.sent hsound (hsent key ok)

/-- What a loop leaves behind: an exact result for each target. -/
structure Ends (key? : τ → Option κ) (limit : Nat)
    (ack : κ → Option Str → OutboundOrigin → RepushEntry κ) (targets : List τ)
    (entries : List (RepushEntry κ)) (results : τ → Option RepushResult) : Prop where
  known : ∀ t, (results t).isSome = true ↔ t ∈ targets
  exact : ∀ t ∈ targets, ∀ result, results t = some result →
    Exact limit ack entries (key? t) result

/-- Where the wave is over, the results are exact. -/
theorem KeepsBooks.ends {ack : κ → Option Str → OutboundOrigin → RepushEntry κ}
    (h : KeepsBooks key? limit targets sign turn books P) (hsigns : Signs sign ack)
    (hidle : (books start).Idle key? targets) (hnodup : targets.Nodup) (hstart : P start)
    {entries : List (RepushEntry κ)} {s : σ} (hrun : entries.foldlM turn start = some s)
    (hrest : (books s).rest = []) :
    P s ∧ Ends key? limit ack targets entries (books s).results := by
  obtain ⟨hp, hsound, hshown⟩ := h.run hidle hnodup hstart entries s hrun
  refine ⟨hp, hsound.known, ?_⟩
  intro t ht result hresult
  cases hkey : key? t with
  | none =>
      rw [hsound.unresolved t ht hkey] at hresult
      obtain rfl := Option.some.inj hresult
      exact ⟨nofun, nofun, fun _ => rfl, nofun⟩
  | some key =>
      have hpending : ((books s).view t key).pending = false := by
        unfold Books.view
        simp [hrest]
      exact hsigns.exact (hshown t ht key hkey) hpending hresult

end

end Snip
