/-
A chunk is swept only after a full grace period.

The collector remembers since when a chunk has been deletable.  What it remembers survives
the sweeps that are skipped and the removal of the chunk by someone else; it is forgotten
when the chunk stops being deletable and when a sweep deletes it.  So a chunk that a sweep
deletes has been deletable at every sweep for the grace period.  It has also been on disk
at all of them, unless someone else took it away in between: the clock is about being
deletable, and writing the chunk again does not start it anew.
-/
import Snip.Lib.Maps
import Snip.Lib.Steps
import Snip.Node.MarketSync

namespace Snip

/-! ### One sweep, seen from one chunk -/

theorem lookup_retainDeletable (deletable : Str → Bool) (since : Map Str Nat) (cid : Str) :
    (retainDeletable deletable since).lookup cid
      = if deletable cid then since.lookup cid else none := by
  have hfold : ∀ (cids : List Str) (acc : Map Str Nat),
      (cids.foldl (fun acc c => if deletable c then acc else acc.erase c) acc).lookup cid
        = if cid ∈ cids ∧ deletable cid = false then none else acc.lookup cid := by
    intro cids
    induction cids with
    | nil =>
        intro acc
        simp
    | cons c cids ih =>
        intro acc
        rw [List.foldl_cons, ih]
        by_cases hc : deletable c = true
        · rw [if_pos hc]
          by_cases heq : cid = c
          · subst heq
            simp [hc]
          · simp [heq]
        · rw [if_neg hc, Maps.lookup_erase]
          by_cases heq : cid = c
          · subst heq
            simp [hc]
          · simp [heq]
  unfold retainDeletable
  rw [hfold]
  by_cases hkey : cid ∈ since.keys
  · by_cases hd : deletable cid = true
    · simp [hd]
    · simp [hkey, hd]
  · have hnone : since.lookup cid = none := AList.lookup_eq_none.mpr hkey
    simp [hnone]

section

variable {deletable deletes : Str → Bool} {now : Nat}

theorem sweepOne_gracePeriod (s : GarbageCollector × ChunkStore) (c : Str) :
    (sweepOne deletable deletes now s c).1.gracePeriod = s.1.gracePeriod := by
  unfold sweepOne
  split
  · rfl
  · dsimp only
    split
    · rfl
    · rfl

/-- A name that is swept leaves the others alone, and one that may not go stays as it is. -/
theorem sweepOne_other (s : GarbageCollector × ChunkStore) {c cid : Str}
    (hother : cid ≠ c ∨ deletable cid = false) :
    (sweepOne deletable deletes now s c).1.unassignedSince.lookup cid
        = s.1.unassignedSince.lookup cid ∧
      (sweepOne deletable deletes now s c).2.lookup cid = s.2.lookup cid := by
  unfold sweepOne
  split
  · exact ⟨rfl, rfl⟩
  · rename_i hdeletable
    have hne : cid ≠ c := by
      rcases hother with hne | hkeep
      · exact hne
      · rintro rfl
        simp [hkeep] at hdeletable
    dsimp only
    split
    · simp [hne]
    · simp [hne]

theorem foldl_sweepOne_gracePeriod (cids : List Str) (s : GarbageCollector × ChunkStore) :
    (cids.foldl (sweepOne deletable deletes now) s).1.gracePeriod = s.1.gracePeriod := by
  induction cids generalizing s with
  | nil => rfl
  | cons c cids ih => rw [List.foldl_cons, ih, sweepOne_gracePeriod]

theorem foldl_sweepOne_other (cids : List Str) (s : GarbageCollector × ChunkStore) {cid : Str}
    (hother : cid ∉ cids ∨ deletable cid = false) :
    (cids.foldl (sweepOne deletable deletes now) s).1.unassignedSince.lookup cid
        = s.1.unassignedSince.lookup cid ∧
      (cids.foldl (sweepOne deletable deletes now) s).2.lookup cid = s.2.lookup cid := by
  induction cids generalizing s with
  | nil => exact ⟨rfl, rfl⟩
  | cons c cids ih =>
      rw [List.mem_cons, not_or, and_or_right] at hother
      obtain ⟨hsince, hfile⟩ := ih (sweepOne deletable deletes now s c) hother.2
      obtain ⟨hsince', hfile'⟩ := @sweepOne_other deletable deletes now s c cid hother.1
      rw [List.foldl_cons, hsince, hfile]
      exact ⟨hsince', hfile'⟩

/-- What a chunk that may go comes to when its name is swept. -/
theorem sweepOne_self (s : GarbageCollector × ChunkStore) {cid : Str}
    (hdeletable : deletable cid = true) :
    (s.1.gracePeriod ≤ now - (s.1.unassignedSince.lookup cid).getD now ∧
        (sweepOne deletable deletes now s cid).1.unassignedSince.lookup cid = none ∧
        (sweepOne deletable deletes now s cid).2.lookup cid = none) ∨
      ((sweepOne deletable deletes now s cid).1.unassignedSince.lookup cid
          = some ((s.1.unassignedSince.lookup cid).getD now) ∧
        (sweepOne deletable deletes now s cid).2.lookup cid = s.2.lookup cid) := by
  unfold sweepOne
  rw [if_neg (by simp [hdeletable])]
  dsimp only
  split
  · rename_i hgo
    simp only [Bool.and_eq_true, decide_eq_true_eq] at hgo
    left
    simp [hgo.1.1]
  · right
    simp

/-- A chunk on disk is swept once, from where the sweep found it. -/
theorem foldl_sweepOne_self {cids : List Str} (hnodup : cids.Nodup)
    (s : GarbageCollector × ChunkStore) {cid : Str} (hmem : cid ∈ cids)
    (hdeletable : deletable cid = true) :
    (s.1.gracePeriod ≤ now - (s.1.unassignedSince.lookup cid).getD now ∧
        (cids.foldl (sweepOne deletable deletes now) s).1.unassignedSince.lookup cid = none ∧
        (cids.foldl (sweepOne deletable deletes now) s).2.lookup cid = none) ∨
      ((cids.foldl (sweepOne deletable deletes now) s).1.unassignedSince.lookup cid
          = some ((s.1.unassignedSince.lookup cid).getD now) ∧
        (cids.foldl (sweepOne deletable deletes now) s).2.lookup cid = s.2.lookup cid) := by
  induction cids generalizing s with
  | nil => simp at hmem
  | cons c cids ih =>
      obtain ⟨hout, hnodup⟩ := List.nodup_cons.mp hnodup
      rw [List.foldl_cons]
      by_cases heq : cid = c
      · subst heq
        obtain ⟨hsince, hfile⟩ := @foldl_sweepOne_other deletable deletes now cids
          (sweepOne deletable deletes now s cid) cid (.inl hout)
        rw [hsince, hfile]
        exact sweepOne_self s hdeletable
      · have hrest := ih hnodup (sweepOne deletable deletes now s c)
          (List.mem_of_ne_of_mem heq hmem)
        obtain ⟨hsince, hfile⟩ := @sweepOne_other deletable deletes now s c cid (.inl heq)
        rw [sweepOne_gracePeriod, hsince, hfile] at hrest
        exact hrest

end

/-- The four things a sweep that is not skipped can mean for a chunk. -/
theorem sweepWhere_cases (gc : GarbageCollector) (files : ChunkStore) {pollAge : Nat} (now : Nat)
    (deletable deletes : Str → Bool) (hpolled : ¬ 300000 < pollAge) (cid : Str)
    {out : GarbageCollector × ChunkStore}
    (hout : gc.sweepWhere files pollAge now deletable deletes = out) :
    (deletable cid = false ∧ out.1.unassignedSince.lookup cid = none ∧
        out.2.lookup cid = files.lookup cid) ∨
      (deletable cid = true ∧ files.lookup cid = none ∧
        out.1.unassignedSince.lookup cid = gc.unassignedSince.lookup cid ∧
        out.2.lookup cid = none) ∨
      (deletable cid = true ∧ gc.gracePeriod ≤ now - (gc.unassignedSince.lookup cid).getD now ∧
        out.1.unassignedSince.lookup cid = none ∧ out.2.lookup cid = none) ∨
      (deletable cid = true ∧ cid ∈ files ∧
        out.1.unassignedSince.lookup cid = some ((gc.unassignedSince.lookup cid).getD now) ∧
        out.2.lookup cid = files.lookup cid) := by
  unfold GarbageCollector.sweepWhere at hout
  rw [if_neg hpolled] at hout
  dsimp only at hout
  subst hout
  have hretained := lookup_retainDeletable deletable gc.unassignedSince cid
  have hother := fun h => @foldl_sweepOne_other deletable deletes now files.keys
    ({ gc with unassignedSince := retainDeletable deletable gc.unassignedSince }, files) cid h
  by_cases hdeletable : deletable cid = true
  · rw [if_pos hdeletable] at hretained
    right
    by_cases hmem : cid ∈ files
    · right
      have hself := @foldl_sweepOne_self deletable deletes now _ files.nodupKeys
        ({ gc with unassignedSince := retainDeletable deletable gc.unassignedSince }, files) cid
        (AList.mem_keys.mp hmem) hdeletable
      dsimp only at hself
      rw [hretained] at hself
      rcases hself with hgone | hkept
      · exact .inl ⟨hdeletable, hgone⟩
      · exact .inr ⟨hdeletable, hmem, hkept⟩
    · left
      have hnone : files.lookup cid = none := AList.lookup_eq_none.mpr hmem
      obtain ⟨hsince, hfile⟩ := hother (.inl hmem)
      exact ⟨hdeletable, hnone, hsince.trans hretained, hfile.trans hnone⟩
  · left
    rw [if_neg hdeletable] at hretained
    have hkeep : deletable cid = false := by simpa using hdeletable
    obtain ⟨hsince, hfile⟩ := hother (.inr hkeep)
    exact ⟨hkeep, hsince.trans hretained, hfile⟩

/-! ### Runs -/

/--
What happens to a store: sweeps, and the writes and removals of others.  `now` and `pollAge`
are in milliseconds.
-/
inductive GcAction where
  | markAndSweep (assignedCids : List Str) (now pollAge : Nat) (deletes : Str → Bool)
  | sweepCandidates (candidates : List Str) (now pollAge : Nat) (deletes : Str → Bool)
  | write (cid : Str) (data : Bytes)
  | remove (cid : Str)

namespace GcAction

/-- The time of a sweep that is not skipped, and what may go then. -/
def sweep? : GcAction → Option (Nat × (Str → Bool))
  | markAndSweep assignedCids now pollAge _ =>
      if 300000 < pollAge then none else some (now, fun cid => cid ∉ assignedCids)
  | sweepCandidates candidates now pollAge _ =>
      if 300000 < pollAge then none else some (now, fun cid => cid ∈ candidates)
  | write _ _ => none
  | remove _ => none

/--
The action takes place.  A removal by others while a sweep is going on is one after it, of a
chunk that the sweep did not get to delete.
-/
def perform : GcAction → GarbageCollector × ChunkStore → GarbageCollector × ChunkStore
  | markAndSweep assignedCids now pollAge deletes, s =>
      s.1.markAndSweep s.2 assignedCids pollAge now deletes
  | sweepCandidates candidates now pollAge deletes, s =>
      s.1.sweepCandidates s.2 candidates pollAge now deletes
  | write cid data, s => (s.1, s.2.insert cid data)
  | remove cid, s => (s.1, s.2.erase cid)

end GcAction

/-- An action with the chunks on disk before and after it. -/
structure GcTick where
  action : GcAction
  before : ChunkStore
  after : ChunkStore

/-- One action of a run. -/
def GcStep (s : GarbageCollector × ChunkStore) (tick : GcTick) (s' : GarbageCollector × ChunkStore) :
    Prop :=
  tick.before = s.2 ∧ s' = tick.action.perform s ∧ tick.after = s'.2

/-- The tick is a sweep that finds the chunk, at this time. -/
def GcTick.FindsAt (tick : GcTick) (cid : Str) (now : Nat) : Prop :=
  ∃ deletable, tick.action.sweep? = some (now, deletable) ∧ cid ∈ tick.before

/-- If the tick is a sweep, the chunk may go, and is there unless others removed it since. -/
def GcTick.HoldsAfter (tick : GcTick) (cid : Str) (since : List GcTick) : Prop :=
  ∀ now deletable, tick.action.sweep? = some (now, deletable) →
    deletable cid = true ∧
      (cid ∈ tick.before ∨ ∃ other ∈ since, other.action = .remove cid)

/-- If the tick is a sweep, it does not delete the chunk. -/
def GcTick.Keeps (tick : GcTick) (cid : Str) : Prop :=
  ∀ now deletable, tick.action.sweep? = some (now, deletable) → cid ∈ tick.before →
    cid ∈ tick.after

/-- From a sweep that finds the chunk at `t₀` on, every sweep could delete it. -/
structure GraceSpan (cid : Str) (span : List GcTick) (t₀ : Nat) : Prop where
  starts : ∃ start rest, span = start :: rest ∧ start.FindsAt cid t₀
  holds : ∀ pre tick post, span = pre ++ tick :: post → tick.HoldsAfter cid pre

/--
The last tick, at `now`, ends a full grace period of the chunk, and no sweep before it
in that time deleted the chunk.
-/
def FullGrace (grace : Nat) (cid : Str) (past : List GcTick) (last : GcTick) (now : Nat) : Prop :=
  ∃ prior since t₀, past = prior ++ since ∧ GraceSpan cid (since ++ [last]) t₀ ∧
    t₀ + grace ≤ now ∧ ∀ tick ∈ since, tick.Keeps cid

theorem GraceSpan.single {cid : Str} {tick : GcTick} {t₀ : Nat} (hfinds : tick.FindsAt cid t₀)
    (hholds : tick.HoldsAfter cid []) : GraceSpan cid [tick] t₀ := by
  refine ⟨⟨tick, [], rfl, hfinds⟩, ?_⟩
  intro pre other post hsplit
  cases pre with
  | nil =>
      obtain ⟨rfl, -⟩ := List.cons.inj hsplit
      exact hholds
  | cons x pre => simp at hsplit

theorem GraceSpan.snoc {cid : Str} {span : List GcTick} {tick : GcTick} {t₀ : Nat}
    (h : GraceSpan cid span t₀) (hholds : tick.HoldsAfter cid span) :
    GraceSpan cid (span ++ [tick]) t₀ := by
  obtain ⟨start, rest, hspan, hfinds⟩ := h.starts
  refine ⟨⟨start, rest ++ [tick], ?_, hfinds⟩, ?_⟩
  · rw [hspan, List.cons_append]
  · intro pre other post hsplit
    -- the tick that is cut out is the last one, or was in the span before
    rcases List.eq_nil_or_concat post with rfl | ⟨post, x, rfl⟩
    · obtain ⟨rfl, hlast⟩ := List.append_inj' hsplit rfl
      obtain ⟨rfl, -⟩ := List.cons.inj hlast
      exact hholds
    · rw [List.concat_eq_append, ← List.cons_append, ← List.append_assoc] at hsplit
      obtain ⟨hinit, -⟩ := List.append_inj' hsplit rfl
      exact h.holds pre other post hinit

/-! ### What the collector remembers -/

/-- The clock of a chunk that has been running since `t₀`. -/
def ClockRuns (cid : Str) (past : List GcTick) (files : ChunkStore) (t₀ : Nat) : Prop :=
  ∃ prior span, past = prior ++ span ∧ GraceSpan cid span t₀ ∧ (∀ tick ∈ span, tick.Keeps cid) ∧
    (cid ∈ files ∨ ∃ other ∈ span, other.action = .remove cid)

/-- Every entry of the collector is such a clock. -/
structure ClocksRun (grace : Nat) (past : List GcTick) (s : GarbageCollector × ChunkStore) :
    Prop where
  grace : s.1.gracePeriod = grace
  tracked : ∀ cid t₀, s.1.unassignedSince.lookup cid = some t₀ → ClockRuns cid past s.2 t₀

theorem ClockRuns.extend {cid : Str} {past : List GcTick} {files files' : ChunkStore} {t₀ : Nat}
    {tick : GcTick} (h : ClockRuns cid past files t₀) (hbefore : tick.before = files)
    (hdeletable : ∀ now deletable, tick.action.sweep? = some (now, deletable) → deletable cid = true)
    (hkeeps : tick.Keeps cid)
    (hfiles : cid ∈ files → cid ∈ files' ∨ tick.action = .remove cid) :
    ClockRuns cid (past ++ [tick]) files' t₀ := by
  obtain ⟨prior, span, hpast, hspan, hkept, hthere⟩ := h
  refine ⟨prior, span ++ [tick], ?_, hspan.snoc ?_, ?_, ?_⟩
  · rw [hpast, List.append_assoc]
  · intro now deletable hsweep
    rw [hbefore]
    exact ⟨hdeletable now deletable hsweep, hthere⟩
  · intro other hother
    rcases List.mem_append.mp hother with hother | hother
    · exact hkept other hother
    · rw [List.mem_singleton.mp hother]
      exact hkeeps
  · rcases hthere with hthere | ⟨other, hother, hremoved⟩
    · rcases hfiles hthere with hstays | hremoved
      · exact .inl hstays
      · exact .inr ⟨tick, by simp, hremoved⟩
    · exact .inr ⟨other, List.mem_append_left _ hother, hremoved⟩

/-- A sweep that is not skipped is `sweep_where` with what may go. -/
theorem GcAction.perform_sweep {a : GcAction} {now : Nat} {deletable : Str → Bool}
    (h : a.sweep? = some (now, deletable)) :
    ∃ pollAge deletes, ¬ 300000 < pollAge ∧
      ∀ s, a.perform s = s.1.sweepWhere s.2 pollAge now deletable deletes := by
  cases a with
  | markAndSweep assignedCids t pollAge deletes =>
      by_cases hpolled : 300000 < pollAge
      · simp [sweep?, hpolled] at h
      · rw [sweep?, if_neg hpolled] at h
        obtain ⟨rfl, rfl⟩ := Prod.mk.inj (Option.some.inj h)
        exact ⟨pollAge, deletes, hpolled, fun _ => rfl⟩
  | sweepCandidates candidates t pollAge deletes =>
      by_cases hpolled : 300000 < pollAge
      · simp [sweep?, hpolled] at h
      · rw [sweep?, if_neg hpolled] at h
        obtain ⟨rfl, rfl⟩ := Prod.mk.inj (Option.some.inj h)
        exact ⟨pollAge, deletes, hpolled, fun _ => rfl⟩
  | write cid data => simp [sweep?] at h
  | remove cid => simp [sweep?] at h

/-- A skipped sweep changes nothing. -/
theorem sweepWhere_skipped {gc : GarbageCollector} {files : ChunkStore} {pollAge now : Nat}
    {deletable deletes : Str → Bool} (h : 300000 < pollAge) :
    gc.sweepWhere files pollAge now deletable deletes = (gc, files) := by
  unfold GarbageCollector.sweepWhere
  rw [if_pos h]

/-- Any other action leaves the collector alone, and only a removal takes a chunk away. -/
theorem GcAction.perform_none {a : GcAction} (h : a.sweep? = none)
    (s : GarbageCollector × ChunkStore) :
    (a.perform s).1 = s.1 ∧ ∀ cid ∈ s.2, cid ∈ (a.perform s).2 ∨ a = .remove cid := by
  cases a with
  | markAndSweep assignedCids now pollAge deletes =>
      by_cases hskipped : 300000 < pollAge
      · have hsame : GcAction.perform (.markAndSweep assignedCids now pollAge deletes) s = s :=
          sweepWhere_skipped hskipped
        rw [hsame]
        exact ⟨rfl, fun _ hcid => .inl hcid⟩
      · simp [sweep?, hskipped] at h
  | sweepCandidates candidates now pollAge deletes =>
      by_cases hskipped : 300000 < pollAge
      · have hsame : GcAction.perform (.sweepCandidates candidates now pollAge deletes) s = s :=
          sweepWhere_skipped hskipped
        rw [hsame]
        exact ⟨rfl, fun _ hcid => .inl hcid⟩
      · simp [sweep?, hskipped] at h
  | write c data =>
      refine ⟨rfl, ?_⟩
      intro cid hcid
      left
      show cid ∈ s.2.insert c data
      rw [AList.mem_insert]
      exact .inr hcid
  | remove c =>
      refine ⟨rfl, ?_⟩
      intro cid hcid
      by_cases heq : cid = c
      · right
        rw [heq]
      · left
        show cid ∈ s.2.erase c
        rw [AList.mem_erase]
        exact ⟨heq, hcid⟩

theorem mem_of_lookup_eq {files files' : ChunkStore} {cid : Str}
    (h : files'.lookup cid = files.lookup cid) (hmem : cid ∈ files) : cid ∈ files' := by
  rw [← AList.lookup_isSome] at hmem ⊢
  rw [h]
  exact hmem

section

variable {grace : Nat} {past : List GcTick} {s s' : GarbageCollector × ChunkStore} {tick : GcTick}

/-- A sweep starts clocks, lets them run or stops them. -/
theorem ClocksRun.sweep (h : ClocksRun grace past s) (hstep : GcStep s tick s') {now : Nat}
    {deletable : Str → Bool} (hsweep : tick.action.sweep? = some (now, deletable)) :
    ClocksRun grace (past ++ [tick]) s' := by
  obtain ⟨hbefore, hs', hafter⟩ := hstep
  obtain ⟨pollAge, deletes, hpolled, hperform⟩ := GcAction.perform_sweep hsweep
  rw [hperform s] at hs'
  have honly : ∀ now' deletable', tick.action.sweep? = some (now', deletable') →
      now' = now ∧ deletable' = deletable := by
    intro now' deletable' hsweep'
    rw [hsweep] at hsweep'
    obtain ⟨rfl, rfl⟩ := Prod.mk.inj (Option.some.inj hsweep')
    exact ⟨rfl, rfl⟩
  refine ⟨?_, ?_⟩
  · rw [hs', ← h.grace]
    unfold GarbageCollector.sweepWhere
    rw [if_neg hpolled]
    exact foldl_sweepOne_gracePeriod _ _
  · intro cid t₀ htracked
    have hcases := sweepWhere_cases s.1 s.2 now deletable deletes hpolled cid hs'.symm
    rcases hcases with ⟨-, hnone, -⟩ | ⟨hdel, habsent, hsame, -⟩ | ⟨-, -, hnone, -⟩ |
      ⟨hdel, hthere, hsince, hfile⟩
    · rw [htracked] at hnone
      simp at hnone
    · -- not on disk: its clock goes on
      have hgone : cid ∉ s.2 := AList.lookup_eq_none.mp habsent
      rw [htracked] at hsame
      refine (h.tracked cid t₀ hsame.symm).extend hbefore ?_ ?_ ?_
      · intro now' deletable' hsweep'
        rw [(honly now' deletable' hsweep').2]
        exact hdel
      · intro _ _ _ hin
        rw [hbefore] at hin
        exact absurd hin hgone
      · intro hin
        exact absurd hin hgone
    · rw [htracked] at hnone
      simp at hnone
    · -- on disk and kept: its clock goes on, or starts now
      have hstays : cid ∈ s'.2 := mem_of_lookup_eq hfile hthere
      have hdeletable : ∀ now' deletable', tick.action.sweep? = some (now', deletable') →
          deletable' cid = true := by
        intro now' deletable' hsweep'
        rw [(honly now' deletable' hsweep').2]
        exact hdel
      have hkeeps : tick.Keeps cid := by
        intro _ _ _ _
        rw [hafter]
        exact hstays
      rw [htracked] at hsince
      cases hold : s.1.unassignedSince.lookup cid with
      | some t =>
          rw [hold] at hsince
          rw [Option.some.inj hsince]
          exact (h.tracked cid t hold).extend hbefore hdeletable hkeeps fun _ => .inl hstays
      | none =>
          rw [hold] at hsince
          have ht₀ : t₀ = now := Option.some.inj hsince
          subst ht₀
          refine ⟨past, [tick], rfl, .single ?_ ?_, ?_, .inl hstays⟩
          · exact ⟨deletable, hsweep, hbefore ▸ hthere⟩
          · intro now' deletable' hsweep'
            exact ⟨hdeletable now' deletable' hsweep', .inl (hbefore ▸ hthere)⟩
          · intro other hother
            rw [List.mem_singleton.mp hother]
            exact hkeeps

/-- One action of a run. -/
theorem ClocksRun.step (h : ClocksRun grace past s) (hstep : GcStep s tick s') :
    ClocksRun grace (past ++ [tick]) s' := by
  cases hsweep : tick.action.sweep? with
  | some sweep =>
      obtain ⟨now, deletable⟩ := sweep
      exact h.sweep hstep hsweep
  | none =>
      obtain ⟨hbefore, hs', -⟩ := hstep
      obtain ⟨hgc, hfiles⟩ := GcAction.perform_none hsweep s
      rw [← hs'] at hgc hfiles
      refine ⟨?_, ?_⟩
      · rw [hgc]
        exact h.grace
      · intro cid t₀ htracked
        rw [hgc] at htracked
        refine (h.tracked cid t₀ htracked).extend hbefore ?_ ?_ ?_
        · intro now deletable hsome
          rw [hsweep] at hsome
          simp at hsome
        · intro now deletable hsome
          rw [hsweep] at hsome
          simp at hsome
        · exact hfiles cid

end

/--
Whatever happens in between: a chunk that a sweep deletes has been deletable for a full
grace period, at every sweep that was not skipped.
-/
theorem swept_after_full_grace {grace : Nat} {files : ChunkStore} {past : List GcTick}
    {s s' : GarbageCollector × ChunkStore} {last : GcTick} {now : Nat} {deletable : Str → Bool}
    {cid : Str} (hrun : Run GcStep (GarbageCollector.new grace, files) past s)
    (hstep : GcStep s last s') (hsweep : last.action.sweep? = some (now, deletable))
    (hdeleted : cid ∈ last.before ∧ cid ∉ last.after) : FullGrace grace cid past last now := by
  have hstart : ClocksRun grace [] (GarbageCollector.new grace, files) := by
    refine ⟨rfl, ?_⟩
    intro c t₀ htracked
    have hnone : (GarbageCollector.new grace).unassignedSince.lookup c = none := rfl
    rw [hnone] at htracked
    simp at htracked
  have hclocks : ClocksRun grace past s := by
    refine hrun.invariant (P := fun past s => ClocksRun grace past s) ?_ [] hstart
    intro past s tick s' h hstep
    exact h.step hstep
  obtain ⟨hbefore, hs', hafter⟩ := hstep
  obtain ⟨pollAge, deletes, hpolled, hperform⟩ := GcAction.perform_sweep hsweep
  rw [hperform s] at hs'
  rw [hbefore, hafter] at hdeleted
  have hcases := sweepWhere_cases s.1 s.2 now deletable deletes hpolled cid hs'.symm
  have hgo : deletable cid = true ∧ grace ≤ now - (s.1.unassignedSince.lookup cid).getD now := by
    rcases hcases with ⟨-, -, hfile⟩ | ⟨-, habsent, -, -⟩ | ⟨hdel, hgrace, -, -⟩ | ⟨-, -, -, hfile⟩
    · exact absurd (mem_of_lookup_eq hfile hdeleted.1) hdeleted.2
    · exact absurd hdeleted.1 (AList.lookup_eq_none.mp habsent)
    · rw [hclocks.grace] at hgrace
      exact ⟨hdel, hgrace⟩
    · exact absurd (mem_of_lookup_eq hfile hdeleted.1) hdeleted.2
  have hholds : ∀ since, last.HoldsAfter cid since := by
    intro since now' deletable' hsweep'
    rw [hsweep] at hsweep'
    obtain ⟨rfl, rfl⟩ := Prod.mk.inj (Option.some.inj hsweep')
    exact ⟨hgo.1, .inl (hbefore ▸ hdeleted.1)⟩
  -- without a grace period the sweep itself is the whole of it
  have hatOnce : grace = 0 → FullGrace grace cid past last now := by
    intro hzero
    refine ⟨past, [], now, (List.append_nil past).symm, ?_, ?_, ?_⟩
    · exact .single ⟨deletable, hsweep, hbefore ▸ hdeleted.1⟩ (hholds [])
    · rw [hzero]
      exact Nat.le_refl now
    · intro tick htick
      simp at htick
  cases htracked : s.1.unassignedSince.lookup cid with
  | none =>
      rw [htracked, Option.getD_none] at hgo
      exact hatOnce (by omega)
  | some t₀ =>
      rw [htracked, Option.getD_some] at hgo
      by_cases hclock : t₀ ≤ now
      · obtain ⟨prior, span, hpast, hspan, hkept, -⟩ := hclocks.tracked cid t₀ htracked
        exact ⟨prior, span, t₀, hpast, hspan.snoc (hholds span), by omega, hkept⟩
      · exact hatOnce (by omega)

/-! ### A chunk that was away -/

/-- The ticks of a list of actions. -/
def gcTicks : GarbageCollector × ChunkStore → List GcAction → List GcTick
  | _, [] => []
  | s, a :: as => ⟨a, s.2, (a.perform s).2⟩ :: gcTicks (a.perform s) as

theorem run_gcTicks (s : GarbageCollector × ChunkStore) (actions : List GcAction) :
    Run GcStep s (gcTicks s actions) (actions.foldl (fun s a => a.perform s) s) := by
  induction actions generalizing s with
  | nil => exact .nil s
  | cons a actions ih => exact .cons ⟨rfl, rfl, rfl⟩ (ih _)

/-- A sweep with one candidate, on a fresh poll. -/
def sweepAt (now : Nat) : GcAction := .sweepCandidates [['c']] now 0 fun _ => true

/-- A store with that chunk, and a grace period of ten. -/
def oneChunk : GarbageCollector × ChunkStore :=
  (GarbageCollector.new 10, (∅ : ChunkStore).insert ['c'] [1])

/-- What the collector and the disk are after some actions. -/
def afterActions (actions : List GcAction) : GarbageCollector × ChunkStore :=
  actions.foldl (fun s a => a.perform s) oneChunk

/-- An action after others, as a tick. -/
def tickAfter (actions : List GcAction) (a : GcAction) : GcTick :=
  ⟨a, (afterActions actions).2, (a.perform (afterActions actions)).2⟩

/-- Ten after it was found the chunk is deleted. -/
theorem found_chunk_swept :
    ['c'] ∈ (tickAfter [sweepAt 0] (sweepAt 10)).before ∧
      ['c'] ∉ (tickAfter [sweepAt 0] (sweepAt 10)).after ∧
      FullGrace 10 ['c'] (gcTicks oneChunk [sweepAt 0]) (tickAfter [sweepAt 0] (sweepAt 10)) 10 := by
  have hbefore : ['c'] ∈ (tickAfter [sweepAt 0] (sweepAt 10)).before :=
    AList.lookup_isSome.mp rfl
  have hafter : ['c'] ∉ (tickAfter [sweepAt 0] (sweepAt 10)).after :=
    AList.lookup_eq_none.mp rfl
  refine ⟨hbefore, hafter, ?_⟩
  exact swept_after_full_grace (run_gcTicks oneChunk [sweepAt 0]) ⟨rfl, rfl, rfl⟩ rfl
    ⟨hbefore, hafter⟩

/-- The chunk is found, taken away, missed, and written again. -/
def awayAndBack : List GcAction :=
  [sweepAt 0, .remove ['c'], sweepAt 5, .write ['c'] [1]]

/-- A full grace period in which every sweep found the chunk. -/
def SeenThroughout (grace : Nat) (cid : Str) (past : List GcTick) (last : GcTick) (now : Nat) :
    Prop :=
  ∃ prior since start rest t₀, past = prior ++ since ∧ since ++ [last] = start :: rest ∧
    start.FindsAt cid t₀ ∧ t₀ + grace ≤ now ∧
    ∀ tick ∈ since ++ [last], ∀ now' deletable, tick.action.sweep? = some (now', deletable) →
      deletable cid = true ∧ cid ∈ tick.before

/-- It is deleted on its first sweep since it was written, for it was seen ten before. -/
theorem rewritten_chunk_swept :
    Run GcStep oneChunk (gcTicks oneChunk awayAndBack) (afterActions awayAndBack) ∧
      GcStep (afterActions awayAndBack) (tickAfter awayAndBack (sweepAt 10))
        ((sweepAt 10).perform (afterActions awayAndBack)) ∧
      ['c'] ∈ (tickAfter awayAndBack (sweepAt 10)).before ∧
      ['c'] ∉ (tickAfter awayAndBack (sweepAt 10)).after ∧
      ¬ SeenThroughout 10 ['c'] (gcTicks oneChunk awayAndBack) (tickAfter awayAndBack (sweepAt 10))
        10 := by
  refine ⟨run_gcTicks oneChunk awayAndBack, ⟨rfl, rfl, rfl⟩, AList.lookup_isSome.mp rfl,
    AList.lookup_eq_none.mp rfl, ?_⟩
  rintro ⟨prior, since, start, rest, t₀, hpast, hspan, ⟨deletable, hsweep, -⟩, hgrace, hseen⟩
  have hticks : gcTicks oneChunk awayAndBack
      = [tickAfter [] (sweepAt 0), tickAfter (awayAndBack.take 1) (.remove ['c']),
          tickAfter (awayAndBack.take 2) (sweepAt 5),
          tickAfter (awayAndBack.take 3) (.write ['c'] [1])] := rfl
  have hsuffix : since <:+ gcTicks oneChunk awayAndBack := ⟨prior, hpast.symm⟩
  rw [hticks] at hsuffix
  -- a sweep at `t₀` starts the time, so no later sweep than the first can
  rcases List.suffix_cons_iff.mp hsuffix with rfl | hsuffix
  · have hmissed := (hseen (tickAfter (awayAndBack.take 2) (sweepAt 5)) (by simp) 5 _ rfl).2
    exact absurd hmissed (AList.lookup_eq_none.mp rfl)
  rcases List.suffix_cons_iff.mp hsuffix with rfl | hsuffix
  · obtain ⟨rfl, -⟩ := List.cons.inj hspan
    cases hsweep
  rcases List.suffix_cons_iff.mp hsuffix with rfl | hsuffix
  · obtain ⟨rfl, -⟩ := List.cons.inj hspan
    cases hsweep
    omega
  rcases List.suffix_cons_iff.mp hsuffix with rfl | hsuffix
  · obtain ⟨rfl, -⟩ := List.cons.inj hspan
    cases hsweep
  · rw [List.suffix_nil.mp hsuffix] at hspan
    obtain ⟨rfl, -⟩ := List.cons.inj hspan
    cases hsweep
    omega

end Snip
