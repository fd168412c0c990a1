/-
What every interleaving of publications and deletions keeps.

A file that has a final name is never written again: a writer writes to the payload of
its own staging directory, which has no final name yet, and the link comes after the
last write and after the check of what was written.  So a final name that is a canonical
identifier always leads to bytes with that identifier, at every point of every run and
whichever calls crash.  A publication that succeeds has seen its file under the final
name, and from then on only a deletion of the same key removes it.
-/
import Mathlib.Data.String.Basic
import Snip.Lib.Maps
import Snip.Lib.Steps
import Snip.Blake3
import Snip.Proofs.Sidecar
import Snip.Store.Publication

namespace Snip

/-! ### Canonical identifiers -/

/-- The staging directory of a call. -/
def PublicationPc.attempt : PublicationPc → Option Nat
  | .start | .found | .returned _ => none
  | .staged a | .writing a | .written a | .checking a _ _ | .checked a _ | .synced a | .linked a
  | .closing a _ => some a
  | .taken a | .comparing a _ _ | .compared a _ | .flushed a => a

/-- The root after a system call of `r`. -/
inductive RootMove (root : PublicationRoot) (r : RunningCall) :
    PublicationAction → PublicationRoot → Prop
  | same (a : PublicationAction) : RootMove root r a root
  | stage (attempt : Nat) (hfresh : root.staging.lookup attempt = none) :
      RootMove root r (.makeStaging attempt)
        { root with staging := root.staging.insert attempt none }
  | create (attempt inode : Nat) (hpc : r.pc = .writing attempt)
      (hstaged : root.staging.lookup attempt = some none) (hfresh : root.inodes.lookup inode = none) :
      RootMove root r (.createPayload inode)
        { root with
          inodes := root.inodes.insert inode []
          staging := root.staging.insert attempt (some inode) }
  | write (attempt inode : Nat) (content : Bytes) (hpc : r.pc = .writing attempt)
      (hstaged : root.staging.lookup attempt = some (some inode)) :
      RootMove root r (.writePayload content)
        { root with inodes := root.inodes.insert inode content }
  | link (attempt inode : Nat) (hpc : r.pc = .synced attempt)
      (hstaged : root.staging.lookup attempt = some (some inode))
      (hfree : root.files.lookup r.call.key = none) :
      RootMove root r .link { root with files := root.files.insert r.call.key inode }
  | clear (attempt : Nat) (result : Except PublicationError Bool) (hpc : r.pc = .closing attempt result) :
      RootMove root r .removePayload { root with staging := root.staging.insert attempt none }
  | unstage (attempt : Nat) (result : Except PublicationError Bool) (hpc : r.pc = .closing attempt result) :
      RootMove root r .removeStaging { root with staging := root.staging.erase attempt }
  | unlink (key : Str) (hcall : r.call = .delete key) :
      RootMove root r (.unlink key) { root with files := root.files.erase key }

/-- What a system call of `r` can do, and where the call then stands. -/
inductive CallMove [Blake3] (root : PublicationRoot) (r : RunningCall) :
    PublicationAction → PublicationRoot → PublicationPc → Prop
  | stage (attempt : Nat) (hpc : r.pc = .start) (hfresh : root.staging.lookup attempt = none) :
      CallMove root r (.makeStaging attempt)
        { root with staging := root.staging.insert attempt none } (.staged attempt)
  | openStaging (attempt : Nat) (hpc : r.pc = .staged attempt) :
      CallMove root r .openStaging root (.writing attempt)
  | create (attempt inode : Nat) (hpc : r.pc = .writing attempt)
      (hstaged : root.staging.lookup attempt = some none) (hfresh : root.inodes.lookup inode = none) :
      CallMove root r (.createPayload inode)
        { root with
          inodes := root.inodes.insert inode []
          staging := root.staging.insert attempt (some inode) } (.writing attempt)
  | write (attempt inode : Nat) (content : Bytes) (hpc : r.pc = .writing attempt)
      (hstaged : root.staging.lookup attempt = some (some inode)) :
      CallMove root r (.writePayload content)
        { root with inodes := root.inodes.insert inode content } (.writing attempt)
  | writeReturns (attempt : Nat) (hpc : r.pc = .writing attempt) :
      CallMove root r .writeReturns root (.written attempt)
  | openPayload (attempt inode : Nat) (hpc : r.pc = .written attempt)
      (hstaged : root.staging.lookup attempt = some (some inode)) :
      CallMove root r .openPayload root (.checking attempt inode [])
  | readPayload (attempt inode n : Nat) (read read' : Bytes) (hpc : r.pc = .checking attempt inode read)
      (hmore : RunningCall.readMore root inode read n = some read') :
      CallMove root r (.read n) root (.checking attempt inode read')
  | checkPayload (attempt inode n : Nat) (read : Bytes) (hpc : r.pc = .checking attempt inode read)
      (hn : n ≠ 0) (hend : RunningCall.readMore root inode read n = none)
      (hverify : verifyFile read r.call.key r.call.expectedBlake3 = .ok ()) :
      CallMove root r (.read n) root (.checked attempt inode)
  | syncPayload (attempt inode : Nat) (hpc : r.pc = .checked attempt inode) :
      CallMove root r .syncFile root (.synced attempt)
  | link (attempt inode : Nat) (hpc : r.pc = .synced attempt)
      (hstaged : root.staging.lookup attempt = some (some inode))
      (hfree : root.files.lookup r.call.key = none) :
      CallMove root r .link { root with files := root.files.insert r.call.key inode } (.linked attempt)
  | occupied (attempt : Nat) (hpc : r.pc = .synced attempt) :
      CallMove root r .link root (.taken (some attempt))
  | published (attempt : Nat) (hpc : r.pc = .linked attempt) :
      CallMove root r .syncDirectory root (.closing attempt (.ok true))
  | clear (attempt : Nat) (result : Except PublicationError Bool) (hpc : r.pc = .closing attempt result) :
      CallMove root r .removePayload { root with staging := root.staging.insert attempt none }
        (.closing attempt result)
  | unstage (attempt : Nat) (result : Except PublicationError Bool) (hpc : r.pc = .closing attempt result) :
      CallMove root r .removeStaging { root with staging := root.staging.erase attempt }
        (.returned result)
  | leave (attempt : Nat) (result : Except PublicationError Bool) (hpc : r.pc = .closing attempt result) :
      CallMove root r .fails root (.returned result)
  | giveUp (a : PublicationAction) (attempt : Nat) (e : PublicationError)
      (hattempt : r.pc.attempt = some attempt) :
      CallMove root r a root (.closing attempt (.error e))
  | refuse (a : PublicationAction) (e : PublicationError) :
      CallMove root r a root (.returned (.error e))
  | missing (attempt : Option Nat) (hpc : r.pc = .taken attempt) :
      CallMove root r .openFinal root (RunningCall.finishExisting attempt (.ok false))
  | openFinal (attempt : Option Nat) (inode : Nat) (hpc : r.pc = .taken attempt)
      (hfile : root.files.lookup r.call.key = some inode) :
      CallMove root r .openFinal root (.comparing attempt inode [])
  | readFinal (attempt : Option Nat) (inode n : Nat) (read read' : Bytes)
      (hpc : r.pc = .comparing attempt inode read) :
      CallMove root r (.read n) root (.comparing attempt inode read')
  | checkFinal (attempt : Option Nat) (inode n : Nat) (read : Bytes)
      (hpc : r.pc = .comparing attempt inode read) :
      CallMove root r (.read n) root (.compared attempt inode)
  | syncFinal (attempt : Option Nat) (inode : Nat) (hpc : r.pc = .compared attempt inode) :
      CallMove root r .syncFile root (.flushed attempt)
  | present (attempt : Option Nat) (hpc : r.pc = .flushed attempt) :
      CallMove root r .syncDirectory root (RunningCall.finishExisting attempt (.ok true))
  | differs (a : PublicationAction) (attempt : Option Nat) (e : PublicationError)
      (hattempt : r.pc.attempt = attempt) :
      CallMove root r a root (RunningCall.finishExisting attempt (.error e))
  | absent (key : Str) (hcall : r.call = .delete key) :
      CallMove root r .openFinal root (.returned (.ok false))
  | find (key : Str) (hcall : r.call = .delete key) : CallMove root r .openFinal root .found
  | vanished (key : Str) (hcall : r.call = .delete key) :
      CallMove root r (.unlink key) root (.returned (.ok false))
  | unlink (key : Str) (hcall : r.call = .delete key) :
      CallMove root r (.unlink key) { root with files := root.files.erase key } (.returned (.ok true))

namespace RunningCall

variable [Blake3] {root root' : PublicationRoot} {r : RunningCall} {a : PublicationAction}
  {pc : PublicationPc}

theorem publish_cases (h : r.publish root a = some (root', pc)) : CallMove root r a root' pc := by
  unfold publish at h
  split at h <;> rename_i hpc
  -- In the order of the arms.
  · split at h
    · cases h
    · rename_i hfresh
      cases h
      exact .stage _ hpc (Option.not_isSome_iff_eq_none.mp hfresh)
  · cases h
    exact .refuse _ _
  · cases h
    exact .openStaging _ hpc
  · cases h
    exact .giveUp _ _ _ (by rw [hpc]; rfl)
  · split at h
    · rename_i hok
      cases h
      exact .create _ _ hpc hok.1 (Option.isNone_iff_eq_none.mp hok.2)
    · cases h
  · split at h
    · rename_i inode hstaged
      split at h
      · cases h
        exact .write _ inode _ hpc hstaged
      · cases h
    · cases h
  · split at h
    · cases h
      exact .writeReturns _ hpc
    · cases h
  · cases h
    exact .giveUp _ _ _ (by rw [hpc]; rfl)
  · split at h
    · rename_i inode hstaged
      cases h
      exact .openPayload _ inode hpc hstaged
    · cases h
      exact .giveUp _ _ _ (by rw [hpc]; rfl)
  · cases h
    exact .giveUp _ _ _ (by rw [hpc]; rfl)
  · split at h
    · cases h
    · rename_i hn
      split at h
      · rename_i hmore
        cases h
        exact .readPayload _ _ _ _ _ hpc hmore
      · rename_i hend
        split at h
        · cases h
          exact .giveUp _ _ _ (by rw [hpc]; rfl)
        · rename_i hverify
          cases h
          exact .checkPayload _ _ _ _ hpc hn hend hverify
  · cases h
    exact .giveUp _ _ _ (by rw [hpc]; rfl)
  · cases h
    exact .syncPayload _ _ hpc
  · cases h
    exact .giveUp _ _ _ (by rw [hpc]; rfl)
  · split at h
    · rename_i inode hstaged
      split at h
      · cases h
        exact .occupied _ hpc
      · rename_i hfree
        cases h
        exact .link _ inode hpc hstaged (Option.not_isSome_iff_eq_none.mp hfree)
    · cases h
      exact .giveUp _ _ _ (by rw [hpc]; rfl)
  · cases h
    exact .giveUp _ _ _ (by rw [hpc]; rfl)
  · cases h
    exact .published _ hpc
  · cases h
    exact .giveUp _ _ _ (by rw [hpc]; rfl)
  · cases h
    exact .clear _ _ hpc
  · cases h
    exact .unstage _ _ hpc
  · cases h
    exact .leave _ _ hpc
  · cases h

theorem compare_cases (h : r.compare root a = some (root', pc)) : CallMove root r a root' pc := by
  unfold compare at h
  split at h <;> rename_i hpc
  · split at h
    · cases h
      exact .missing _ hpc
    · rename_i hfile
      cases h
      exact .openFinal _ _ hpc hfile
  · cases h
    exact .differs _ _ _ (by rw [hpc]; rfl)
  · split at h
    · cases h
    · split at h
      · cases h
        exact .readFinal _ _ _ _ _ hpc
      · split at h
        · cases h
          exact .differs _ _ _ (by rw [hpc]; rfl)
        · cases h
          exact .checkFinal _ _ _ _ hpc
  · cases h
    exact .differs _ _ _ (by rw [hpc]; rfl)
  · cases h
    exact .syncFinal _ _ hpc
  · cases h
    exact .differs _ _ _ (by rw [hpc]; rfl)
  · cases h
    exact .present _ hpc
  · cases h
    exact .differs _ _ _ (by rw [hpc]; rfl)
  · cases h

theorem remove_cases {key : Str} (hcall : r.call = .delete key) (h : r.remove root a = some (root', pc)) :
    CallMove root r a root' pc := by
  have hkey : r.call.key = key := by rw [hcall]; rfl
  unfold remove at h
  split at h
  · split at h
    · cases h
      exact .absent key hcall
    · cases h
      exact .find key hcall
  · cases h
    exact .refuse _ _
  · split at h
    · cases h
    · rename_i hsame
      rw [not_not, hkey] at hsame
      subst hsame
      split at h
      · cases h
        exact .vanished _ hcall
      · cases h
        exact .unlink _ hcall
  · cases h
    exact .refuse _ _
  · cases h

/-- **What a system call can do.** -/
theorem act_cases (h : r.act root a = some (root', pc)) : CallMove root r a root' pc := by
  unfold act at h
  split at h
  case h_3 => exact compare_cases h
  case h_4 key hcall => exact remove_cases hcall h
  all_goals
    rcases Option.or_eq_some_iff.mp h with h | ⟨-, h⟩
    · exact publish_cases h
    · exact compare_cases h

end RunningCall

theorem CallMove.root [Blake3] {root root' : PublicationRoot} {r : RunningCall}
    {a : PublicationAction} {pc : PublicationPc} (h : CallMove root r a root' pc) :
    RootMove root r a root' := by
  cases h with
  | stage attempt hpc hfresh => exact .stage attempt hfresh
  | create attempt inode hpc hstaged hfresh => exact .create attempt inode hpc hstaged hfresh
  | write attempt inode content hpc hstaged => exact .write attempt inode content hpc hstaged
  | link attempt inode hpc hstaged hfree => exact .link attempt inode hpc hstaged hfree
  | clear attempt result hpc => exact .clear attempt result hpc
  | unstage attempt result hpc => exact .unstage attempt result hpc
  | unlink key hcall => exact .unlink key hcall
  | _ => exact .same _

/-! ### Who may write what -/

namespace PublicationRoot

/-- The inode has no final name. -/
def Unpublished (root : PublicationRoot) (inode : Nat) : Prop :=
  ∀ key, root.files.lookup key ≠ some inode

/-- The payload of a staging directory, with its content. -/
def Staged (root : PublicationRoot) (attempt inode : Nat) (P : Bytes → Prop) : Prop :=
  root.staging.lookup attempt = some (some inode) ∧ ∃ d, root.inodes.lookup inode = some d ∧ P d

/-- No name leads nowhere. -/
structure WellFormed (root : PublicationRoot) : Prop where
  files : ∀ key i, root.files.lookup key = some i → (root.inodes.lookup i).isSome = true
  staging : ∀ a i, root.staging.lookup a = some (some i) → (root.inodes.lookup i).isSome = true

/-- The payload of a staging directory is in no other one. -/
def Sole (root : PublicationRoot) (attempt : Nat) : Prop :=
  ∀ b i, root.staging.lookup attempt = some (some i) → root.staging.lookup b = some (some i) →
    b = attempt

/-- A final name that is a canonical identifier leads to bytes with that identifier. -/
def NamesContent [Blake3] (root : PublicationRoot) : Prop :=
  ∀ key i, isCanonicalCid key = true → root.files.lookup key = some i →
    ∃ d, root.inodes.lookup i = some d ∧ cidFromData d = key

/-- The two roots are the same for the writer of a staging directory. -/
structure Agrees (root root' : PublicationRoot) (attempt : Nat) : Prop where
  staging : root'.staging.lookup attempt = root.staging.lookup attempt
  content : ∀ i, root.staging.lookup attempt = some (some i) →
    root'.inodes.lookup i = root.inodes.lookup i
  unpublished : ∀ i, root.staging.lookup attempt = some (some i) → root.Unpublished i →
    root'.Unpublished i

theorem Agrees.refl (root : PublicationRoot) (attempt : Nat) : root.Agrees root attempt :=
  ⟨rfl, fun _ _ => rfl, fun _ _ h => h⟩

theorem Agrees.staged {root root' : PublicationRoot} {attempt inode : Nat} {P : Bytes → Prop}
    (h : root.Agrees root' attempt) (hs : root.Staged attempt inode P) :
    root'.Staged attempt inode P := by
  obtain ⟨hstaged, d, hd, hP⟩ := hs
  exact ⟨h.staging.trans hstaged, d, (h.content inode hstaged).trans hd, hP⟩

end PublicationRoot

/-- What holds of the staging directory of a call, by how far the call has come. -/
def PublicationPc.Owns [Blake3] (root : PublicationRoot) (key : Str) : PublicationPc → Prop
  | .staged a => root.staging.lookup a = some none
  | .writing a => ∀ i, root.staging.lookup a = some (some i) → root.Unpublished i
  | .checking a i read => root.Staged a i (read <+: ·)
  | .checked a i => root.Staged a i (cidFromData · = key)
  | .synced a => ∃ i, root.Staged a i (cidFromData · = key)
  | _ => True

theorem PublicationPc.Owns.of_agrees [Blake3] {root root' : PublicationRoot} {key : Str}
    {pc : PublicationPc} (h : pc.Owns root key)
    (hagree : ∀ a, pc.attempt = some a → root.Agrees root' a) : pc.Owns root' key := by
  cases pc with
  | staged a => exact (hagree a rfl).staging.trans h
  | writing a =>
      intro i hi
      have hstaged := (hagree a rfl).staging.symm.trans hi
      exact (hagree a rfl).unpublished i hstaged (h i hstaged)
  | checking a i read => exact (hagree a rfl).staged h
  | checked a i => exact (hagree a rfl).staged h
  | synced a =>
      obtain ⟨i, hs⟩ := h
      exact ⟨i, (hagree a rfl).staged hs⟩
  | _ => trivial

/-- The root and the calls on it. -/
structure PublicationSystem.Inv [Blake3] (s : PublicationSystem) : Prop where
  wellFormed : s.root.WellFormed
  staged : ∀ id r a, s.calls.lookup id = some r → r.pc.attempt = some a →
    (s.root.staging.lookup a).isSome = true
  owns : ∀ id r, s.calls.lookup id = some r → r.pc.Owns s.root r.call.key
  /-- No two calls have one staging directory. -/
  own : ∀ id id' r r' a, s.calls.lookup id = some r → s.calls.lookup id' = some r' →
    r.pc.attempt = some a → r'.pc.attempt = some a → id = id'
  /-- The payload of a call is in no other directory. -/
  payload : ∀ id r a, s.calls.lookup id = some r → r.pc.attempt = some a → s.root.Sole a

theorem RootMove.wellFormed {root root' : PublicationRoot} {r : RunningCall} {a : PublicationAction}
    (h : RootMove root r a root') (hroot : root.WellFormed) : root'.WellFormed := by
  cases h with
  | same => exact hroot
  | stage attempt hfresh =>
      refine ⟨hroot.files, fun b i hb => ?_⟩
      rcases Maps.lookup_insert_some.mp hb with ⟨-, hnone⟩ | ⟨-, hb⟩
      · cases hnone
      · exact hroot.staging b i hb
  | create attempt inode hpc hstaged hfresh =>
      refine ⟨fun key i hi => Maps.isSome_insert (hroot.files key i hi), fun b i hb => ?_⟩
      rcases Maps.lookup_insert_some.mp hb with ⟨-, hinode⟩ | ⟨-, hb⟩
      · cases hinode
        dsimp only
        rw [AList.lookup_insert]
        rfl
      · exact Maps.isSome_insert (hroot.staging b i hb)
  | write attempt inode content hpc hstaged =>
      exact ⟨fun key i hi => Maps.isSome_insert (hroot.files key i hi),
        fun b i hb => Maps.isSome_insert (hroot.staging b i hb)⟩
  | link attempt inode hpc hstaged hfree =>
      refine ⟨fun key i hi => ?_, hroot.staging⟩
      rcases Maps.lookup_insert_some.mp hi with ⟨-, rfl⟩ | ⟨-, hi⟩
      · exact hroot.staging attempt inode hstaged
      · exact hroot.files key i hi
  | clear attempt result hpc =>
      refine ⟨hroot.files, fun b i hb => ?_⟩
      rcases Maps.lookup_insert_some.mp hb with ⟨-, hnone⟩ | ⟨-, hb⟩
      · cases hnone
      · exact hroot.staging b i hb
  | unstage attempt result hpc =>
      exact ⟨hroot.files, fun b i hb => hroot.staging b i (Maps.lookup_erase_some.mp hb).2⟩
  | unlink key hcall =>
      exact ⟨fun key' i hi => hroot.files key' i (Maps.lookup_erase_some.mp hi).2, hroot.staging⟩

theorem RootMove.sole {root root' : PublicationRoot} {r : RunningCall} {a : PublicationAction}
    (h : RootMove root r a root') (hroot : root.WellFormed) {c : Nat} (hsole : root.Sole c) :
    root'.Sole c := by
  have hempty : ∀ {attempt b i : Nat},
      (root.staging.insert attempt none).lookup b = some (some i) →
      root.staging.lookup b = some (some i) := by
    intro attempt b i hb
    rcases Maps.lookup_insert_some.mp hb with ⟨-, hnone⟩ | ⟨-, hb⟩
    · cases hnone
    · exact hb
  cases h with
  | same => exact hsole
  | stage attempt hfresh => exact fun b i hc hb => hsole b i (hempty hc) (hempty hb)
  | create attempt inode hpc hstaged hfresh =>
      -- The new inode is the payload of nobody else.
      have hnew : ∀ b, root.staging.lookup b ≠ some (some inode) := by
        intro b hb
        have hsome := hroot.staging b inode hb
        rw [hfresh] at hsome
        cases hsome
      intro b i hc hb
      rcases Maps.lookup_insert_some.mp hc with ⟨rfl, hi⟩ | ⟨-, hold⟩
      · rcases Maps.lookup_insert_some.mp hb with ⟨rfl, -⟩ | ⟨-, hb⟩
        · rfl
        · cases hi
          exact absurd hb (hnew b)
      · rcases Maps.lookup_insert_some.mp hb with ⟨-, hi⟩ | ⟨-, hb⟩
        · cases hi
          exact absurd hold (hnew c)
        · exact hsole b i hold hb
  | write attempt inode content hpc hstaged => exact hsole
  | link attempt inode hpc hstaged hfree => exact hsole
  | clear attempt result hpc => exact fun b i hc hb => hsole b i (hempty hc) (hempty hb)
  | unstage attempt result hpc =>
      exact fun b i hc hb => hsole b i (Maps.lookup_erase_some.mp hc).2 (Maps.lookup_erase_some.mp hb).2
  | unlink key hcall => exact hsole

/-- **A system call leaves every other staging directory alone.** -/
theorem RootMove.agrees {root root' : PublicationRoot} {r : RunningCall} {a : PublicationAction}
    (h : RootMove root r a root') (hroot : root.WellFormed) {b : Nat}
    (hb : (root.staging.lookup b).isSome = true) (hother : r.pc.attempt ≠ some b)
    (hsole : root.Sole b) : root.Agrees root' b := by
  have hpayload : ∀ c i, r.pc.attempt = some c → root.staging.lookup c = some (some i) →
      root.staging.lookup b ≠ some (some i) := by
    rintro c i hc hci hbi
    exact hother (hsole c i hbi hci ▸ hc)
  cases h with
  | same => exact .refl root b
  | stage attempt hfresh =>
      have hne : b ≠ attempt := by
        rintro rfl
        rw [hfresh] at hb
        cases hb
      exact ⟨AList.lookup_insert_ne hne, fun _ _ => rfl, fun _ _ h => h⟩
  | create attempt inode hpc hstaged hfresh =>
      have hne : b ≠ attempt := by
        rintro rfl
        exact hother (by rw [hpc]; rfl)
      refine ⟨AList.lookup_insert_ne hne, fun i hi => AList.lookup_insert_ne ?_, fun _ _ h => h⟩
      rintro rfl
      have hsome := hroot.staging b i hi
      rw [hfresh] at hsome
      cases hsome
  | write attempt inode content hpc hstaged =>
      refine ⟨rfl, fun i hi => AList.lookup_insert_ne ?_, fun _ _ h => h⟩
      rintro rfl
      exact hpayload attempt i (by rw [hpc]; rfl) hstaged hi
  | link attempt inode hpc hstaged hfree =>
      refine ⟨rfl, fun _ _ => rfl, fun i hi hun key hkey => ?_⟩
      rcases Maps.lookup_insert_some.mp hkey with ⟨-, rfl⟩ | ⟨-, hkey⟩
      · exact hpayload attempt inode (by rw [hpc]; rfl) hstaged hi
      · exact hun key hkey
  | clear attempt result hpc =>
      have hne : b ≠ attempt := by
        rintro rfl
        exact hother (by rw [hpc]; rfl)
      exact ⟨AList.lookup_insert_ne hne, fun _ _ => rfl, fun _ _ h => h⟩
  | unstage attempt result hpc =>
      have hne : b ≠ attempt := by
        rintro rfl
        exact hother (by rw [hpc]; rfl)
      exact ⟨AList.lookup_erase_ne hne, fun _ _ => rfl, fun _ _ h => h⟩
  | unlink key hcall =>
      exact ⟨rfl, fun _ _ => rfl, fun i _ hun key' hkey => hun key' (Maps.lookup_erase_some.mp hkey).2⟩

/-- **No system call changes or removes a final file,** except for the removal of that name. -/
theorem RootMove.keeps [Blake3] {root root' : PublicationRoot} {r : RunningCall} {a : PublicationAction}
    (h : RootMove root r a root') (hroot : root.WellFormed) (howns : r.pc.Owns root r.call.key)
    {key : Str} {i : Nat} (hkey : root.files.lookup key = some i) (ha : a ≠ .unlink key) :
    root'.files.lookup key = some i ∧ root'.inodes.lookup i = root.inodes.lookup i := by
  cases h with
  | same => exact ⟨hkey, rfl⟩
  | stage attempt hfresh => exact ⟨hkey, rfl⟩
  | create attempt inode hpc hstaged hfresh =>
      refine ⟨hkey, AList.lookup_insert_ne ?_⟩
      rintro rfl
      have hsome := hroot.files key i hkey
      rw [hfresh] at hsome
      cases hsome
  | write attempt inode content hpc hstaged =>
      rw [hpc] at howns
      refine ⟨hkey, AList.lookup_insert_ne ?_⟩
      rintro rfl
      exact howns i hstaged key hkey
  | link attempt inode hpc hstaged hfree =>
      refine ⟨?_, rfl⟩
      have hne : key ≠ r.call.key := by
        rintro rfl
        rw [hfree] at hkey
        cases hkey
      exact (AList.lookup_insert_ne hne).trans hkey
  | clear attempt result hpc => exact ⟨hkey, rfl⟩
  | unstage attempt result hpc => exact ⟨hkey, rfl⟩
  | unlink key' hcall =>
      refine ⟨?_, rfl⟩
      have hne : key ≠ key' := by
        rintro rfl
        exact ha rfl
      exact (AList.lookup_erase_ne hne).trans hkey

/-- **A name that appears leads to bytes with that identifier.** -/
theorem RootMove.namesContent [Blake3] {root root' : PublicationRoot} {r : RunningCall}
    {a : PublicationAction} (h : RootMove root r a root') (hroot : root.WellFormed)
    (howns : r.pc.Owns root r.call.key) (hnames : root.NamesContent) : root'.NamesContent := by
  intro key i hcanonical hkey
  by_cases hold : root.files.lookup key = some i
  · have hsame : root'.inodes.lookup i = root.inodes.lookup i := by
      by_cases ha : a = .unlink key
      · subst ha
        cases h with
        | same => rfl
        | unlink => rfl
      · exact (h.keeps hroot howns hold ha).2
    obtain ⟨d, hd, hcid⟩ := hnames key i hcanonical hold
    exact ⟨d, hsame.trans hd, hcid⟩
  · cases h with
    | link attempt inode hpc hstaged hfree =>
        rcases Maps.lookup_insert_some.mp hkey with ⟨rfl, rfl⟩ | ⟨-, hkey⟩
        · rw [hpc] at howns
          obtain ⟨j, hj, d, hd, hcid⟩ := howns
          rw [hstaged] at hj
          cases hj
          exact ⟨d, hd, hcid⟩
        · exact absurd hkey hold
    | unlink key' hcall => exact absurd (Maps.lookup_erase_some.mp hkey).2 hold
    | _ => exact absurd hkey hold

/-! ### The call that moves -/

/-- A file that is read to its end has been read as it is. -/
theorem RunningCall.readMore_none {root : PublicationRoot} {inode n : Nat} {read d : Bytes}
    (hn : n ≠ 0) (hd : root.inodes.lookup inode = some d) (hread : read <+: d)
    (h : readMore root inode read n = none) : read = d := by
  unfold readMore at h
  rw [hd] at h
  obtain ⟨rest, rfl⟩ := hread
  dsimp only [Option.getD] at h
  rw [List.drop_left] at h
  cases rest with
  | nil => rw [List.append_nil]
  | cons b rest =>
      cases n with
      | zero => exact absurd rfl hn
      | succ n => simp at h

theorem RunningCall.readMore_some {root : PublicationRoot} {inode n : Nat} {read read' d : Bytes}
    (hd : root.inodes.lookup inode = some d) (hread : read <+: d)
    (h : readMore root inode read n = some read') : read' <+: d := by
  unfold readMore at h
  rw [hd] at h
  obtain ⟨rest, rfl⟩ := hread
  dsimp only [Option.getD] at h
  rw [List.drop_left] at h
  split at h
  · cases h
  · cases h
    exact (List.prefix_append_right_inj read).mpr (List.take_prefix n rest)

theorem verifyFile_ok [Blake3] {read : Bytes} {cid : Str} {expected : Option Str}
    (h : verifyFile read cid expected = .ok ()) : cidFromData read = cid := by
  unfold verifyFile at h
  dsimp only at h
  split at h
  · cases h
  · split at h
    · cases h
    · rename_i hcid
      exact not_not.mp hcid

namespace CallMove

variable [Blake3] {root root' : PublicationRoot} {r : RunningCall} {a : PublicationAction}
  {pc : PublicationPc}

/-- **A call keeps what it relies on.** -/
theorem owns (h : CallMove root r a root' pc) (hroot : root.WellFormed)
    (howns : r.pc.Owns root r.call.key) : pc.Owns root' r.call.key := by
  cases h with
  | stage attempt hpc hfresh => exact AList.lookup_insert _
  | openStaging attempt hpc =>
      rw [hpc] at howns
      intro i hi
      have hnone : root.staging.lookup attempt = some none := howns
      rw [hnone] at hi
      cases hi
  | create attempt inode hpc hstaged hfresh =>
      -- The new inode has no name: every name leads to an inode.
      intro i hi key hkey
      rw [AList.lookup_insert] at hi
      cases hi
      have hsome := hroot.files key inode hkey
      rw [hfresh] at hsome
      cases hsome
  | write attempt inode content hpc hstaged =>
      rw [hpc] at howns
      exact howns
  | openPayload attempt inode hpc hstaged =>
      obtain ⟨d, hd⟩ := Option.isSome_iff_exists.mp (hroot.staging attempt inode hstaged)
      exact ⟨hstaged, d, hd, List.nil_prefix⟩
  | readPayload attempt inode n read read' hpc hmore =>
      rw [hpc] at howns
      obtain ⟨hstaged, d, hd, hread⟩ := howns
      exact ⟨hstaged, d, hd, RunningCall.readMore_some hd hread hmore⟩
  | checkPayload attempt inode n read hpc hn hend hverify =>
      rw [hpc] at howns
      obtain ⟨hstaged, d, hd, hread⟩ := howns
      have hwhole := RunningCall.readMore_none hn hd hread hend
      subst hwhole
      exact ⟨hstaged, read, hd, verifyFile_ok hverify⟩
  | syncPayload attempt inode hpc =>
      rw [hpc] at howns
      exact ⟨inode, howns⟩
  | missing attempt => cases attempt <;> trivial
  | present attempt => cases attempt <;> trivial
  | differs a attempt e => cases attempt <;> trivial
  | _ => trivial

omit [Blake3] in
theorem finishExisting_attempt {attempt : Option Nat} {result : Except PublicationError Bool} {n : Nat}
    (h : (RunningCall.finishExisting attempt result).attempt = some n) : attempt = some n := by
  cases attempt <;> cases result <;>
    simp_all [RunningCall.finishExisting, RunningCall.finish, PublicationPc.attempt]

/-- A call keeps its staging directory until it returns, or has just made it. -/
theorem attempt (h : CallMove root r a root' pc)
    (hstaged : ∀ n, r.pc.attempt = some n → (root.staging.lookup n).isSome = true) {n : Nat}
    (hn : pc.attempt = some n) :
    (root'.staging.lookup n).isSome = true ∧
      (r.pc.attempt = some n ∨ root.staging.lookup n = none) := by
  -- Most moves leave the directory and the root as they are.
  have hsame : r.pc.attempt = some n → (root.staging.lookup n).isSome = true ∧
      (r.pc.attempt = some n ∨ root.staging.lookup n = none) :=
    fun hold => ⟨hstaged n hold, .inl hold⟩
  cases h with
  | stage attempt hpc hfresh =>
      cases hn
      refine ⟨?_, .inr hfresh⟩
      rw [AList.lookup_insert]
      rfl
  | create attempt inode hpc =>
      cases hn
      rw [hpc, AList.lookup_insert]
      exact ⟨rfl, .inl rfl⟩
  | clear attempt result hpc =>
      cases hn
      rw [hpc, AList.lookup_insert]
      exact ⟨rfl, .inl rfl⟩
  | giveUp a attempt e hattempt => exact hsame (hattempt.trans hn)
  | missing attempt hpc => exact hsame (by rw [hpc]; exact finishExisting_attempt hn)
  | present attempt hpc => exact hsame (by rw [hpc]; exact finishExisting_attempt hn)
  | differs a attempt e hattempt => exact hsame (hattempt.trans (finishExisting_attempt hn))
  | unstage => cases hn
  | leave => cases hn
  | refuse => cases hn
  | absent => cases hn
  | find => cases hn
  | vanished => cases hn
  | unlink => cases hn
  | openStaging attempt hpc => exact hsame (by rw [hpc]; exact hn)
  | write attempt inode content hpc => exact hsame (by rw [hpc]; exact hn)
  | writeReturns attempt hpc => exact hsame (by rw [hpc]; exact hn)
  | openPayload attempt inode hpc => exact hsame (by rw [hpc]; exact hn)
  | readPayload attempt inode n read read' hpc => exact hsame (by rw [hpc]; exact hn)
  | checkPayload attempt inode n read hpc => exact hsame (by rw [hpc]; exact hn)
  | syncPayload attempt inode hpc => exact hsame (by rw [hpc]; exact hn)
  | link attempt inode hpc => exact hsame (by rw [hpc]; exact hn)
  | occupied attempt hpc => exact hsame (by rw [hpc]; exact hn)
  | published attempt hpc => exact hsame (by rw [hpc]; exact hn)
  | openFinal attempt inode hpc => exact hsame (by rw [hpc]; exact hn)
  | readFinal attempt inode n read read' hpc => exact hsame (by rw [hpc]; exact hn)
  | checkFinal attempt inode n read hpc => exact hsame (by rw [hpc]; exact hn)
  | syncFinal attempt inode hpc => exact hsame (by rw [hpc]; exact hn)

end CallMove

/-! ### All calls -/

namespace PublicationSystem

variable [Blake3] {s t : PublicationSystem}

/-- One event. -/
def Step (s : PublicationSystem) (l : PublicationLabel) (t : PublicationSystem) : Prop :=
  s.next l = some t

omit [Blake3] in
theorem enter_attempt [Blake3] (c : PublicationCall) : c.enter.attempt = none := by
  cases c <;> unfold PublicationCall.enter <;> dsimp only <;> (repeat' split) <;> rfl

omit [Blake3] in
theorem enter_owns [Blake3] (root : PublicationRoot) (c : PublicationCall) :
    c.enter.Owns root c.key := by
  cases c <;> unfold PublicationCall.enter <;> dsimp only <;> (repeat' split) <;> trivial

/-- A step is a call that comes, a call that crashes, or a system call. -/
theorem Step.cases {l : PublicationLabel} (h : Step s l t) :
    (∃ c, l.event = .enter c ∧ s.calls.lookup l.id = none ∧
      t = { s with calls := s.calls.insert l.id ⟨c, c.enter⟩ }) ∨
    (l.event = .crash ∧ t = { s with calls := s.calls.erase l.id }) ∨
    (∃ a r root pc, l.event = .act a ∧ s.calls.lookup l.id = some r ∧
      r.act s.root a = some (root, pc) ∧ t = ⟨root, s.calls.insert l.id { r with pc }⟩) := by
  unfold Step next at h
  cases hevent : l.event with
  | enter c =>
      rw [hevent] at h
      dsimp only at h
      split at h
      · cases h
      · rename_i hfree
        cases h
        exact .inl ⟨c, rfl, Option.not_isSome_iff_eq_none.mp hfree, rfl⟩
  | crash =>
      rw [hevent] at h
      dsimp only at h
      split at h
      · cases h
      · cases h
        exact .inr (.inl ⟨rfl, rfl⟩)
  | act a =>
      rw [hevent] at h
      dsimp only at h
      split at h
      · cases h
      · rename_i r hr
        obtain ⟨⟨root, pc⟩, hact, rfl⟩ := Option.map_eq_some_iff.mp h
        exact .inr (.inr ⟨a, r, root, pc, rfl, hr, hact, rfl⟩)

/-- **Every event keeps the invariant.** -/
theorem Inv.step (h : s.Inv) {l : PublicationLabel} (hstep : Step s l t) : t.Inv := by
  obtain ⟨c, -, -, rfl⟩ | ⟨-, rfl⟩ | ⟨a, r, root, pc, -, hr, hact, rfl⟩ := hstep.cases
  · -- A call that comes has no staging directory yet.
    refine ⟨h.wellFormed, ?_, ?_, ?_, ?_⟩
    · intro id r a hr ha
      rcases Maps.lookup_insert_some.mp hr with ⟨-, rfl⟩ | ⟨-, hr⟩
      · rw [enter_attempt] at ha
        cases ha
      · exact h.staged id r a hr ha
    · intro id r hr
      rcases Maps.lookup_insert_some.mp hr with ⟨-, rfl⟩ | ⟨-, hr⟩
      · exact enter_owns _ _
      · exact h.owns id r hr
    · intro id id' r r' a hr hr' ha ha'
      rcases Maps.lookup_insert_some.mp hr with ⟨-, rfl⟩ | ⟨-, hr⟩
      · rw [enter_attempt] at ha
        cases ha
      · rcases Maps.lookup_insert_some.mp hr' with ⟨-, rfl⟩ | ⟨-, hr'⟩
        · rw [enter_attempt] at ha'
          cases ha'
        · exact h.own id id' r r' a hr hr' ha ha'
    · intro id r a hr ha
      rcases Maps.lookup_insert_some.mp hr with ⟨-, rfl⟩ | ⟨-, hr⟩
      · rw [enter_attempt] at ha
        cases ha
      · exact h.payload id r a hr ha
  · exact ⟨h.wellFormed, fun id r a hr => h.staged id r a (Maps.lookup_erase_some.mp hr).2,
      fun id r hr => h.owns id r (Maps.lookup_erase_some.mp hr).2,
      fun id id' r r' a hr hr' => h.own id id' r r' a (Maps.lookup_erase_some.mp hr).2
        (Maps.lookup_erase_some.mp hr').2,
      fun id r a hr => h.payload id r a (Maps.lookup_erase_some.mp hr).2⟩
  · have hcase := RunningCall.act_cases hact
    have hmove := hcase.root
    have hkeeps := fun b hb => hcase.attempt (fun n hn => h.staged l.id r n hr hn) (n := b) hb
    have howns := hcase.owns h.wellFormed (h.owns l.id r hr)
    -- The other calls see no difference.
    have hagree : ∀ id r' b, id ≠ l.id → s.calls.lookup id = some r' → r'.pc.attempt = some b →
        s.root.Agrees root b := by
      intro id r' b hid hr' hb
      refine hmove.agrees h.wellFormed (h.staged id r' b hr' hb) ?_ (h.payload id r' b hr' hb)
      intro hsame
      exact hid (h.own id l.id r' r b hr' hr hb hsame)
    refine ⟨hmove.wellFormed h.wellFormed, ?_, ?_, ?_, ?_⟩
    · intro id r' b hr' hb
      rcases Maps.lookup_insert_some.mp hr' with ⟨-, rfl⟩ | ⟨hid, hr'⟩
      · exact (hkeeps b hb).1
      · dsimp only
        rw [(hagree id r' b hid hr' hb).staging]
        exact h.staged id r' b hr' hb
    · intro id r' hr'
      rcases Maps.lookup_insert_some.mp hr' with ⟨-, rfl⟩ | ⟨hid, hr'⟩
      · exact howns
      · exact (h.owns id r' hr').of_agrees fun b hb => hagree id r' b hid hr' hb
    · -- A directory that was just made is nobody else's.
      have hnew : ∀ id r' b, id ≠ l.id → s.calls.lookup id = some r' → r'.pc.attempt = some b →
          pc.attempt ≠ some b := by
        intro id r' b hid hr' hb hpc
        rcases (hkeeps b hpc).2 with hown | hfresh
        · exact hid (h.own id l.id r' r b hr' hr hb hown)
        · have hsome := h.staged id r' b hr' hb
          rw [hfresh] at hsome
          cases hsome
      intro id id' r₁ r₂ b hr₁ hr₂ hb₁ hb₂
      rcases Maps.lookup_insert_some.mp hr₁ with ⟨rfl, rfl⟩ | ⟨hid₁, hr₁⟩
      · rcases Maps.lookup_insert_some.mp hr₂ with ⟨rfl, -⟩ | ⟨hid₂, hr₂⟩
        · rfl
        · exact absurd hb₁ (hnew id' r₂ b hid₂ hr₂ hb₂)
      · rcases Maps.lookup_insert_some.mp hr₂ with ⟨rfl, rfl⟩ | ⟨hid₂, hr₂⟩
        · exact absurd hb₂ (hnew id r₁ b hid₁ hr₁ hb₁)
        · exact h.own id id' r₁ r₂ b hr₁ hr₂ hb₁ hb₂
    · intro id r' b hr' hb
      apply hmove.sole h.wellFormed
      rcases Maps.lookup_insert_some.mp hr' with ⟨-, rfl⟩ | ⟨hid, hr'⟩
      · rcases (hkeeps b hb).2 with hown | hfresh
        · exact h.payload l.id r b hr hown
        · intro c i hi
          rw [hfresh] at hi
          cases hi
      · exact h.payload id r' b hr' hb

theorem Inv.start {root : PublicationRoot} (hroot : root.WellFormed) : Inv ⟨root, ∅⟩ :=
  ⟨hroot, (fun _ _ _ h => nomatch h), (fun _ _ h => nomatch h), (fun _ _ _ _ _ h => nomatch h),
    (fun _ _ _ h => nomatch h)⟩

theorem Inv.run (h : s.Inv) {ls : List PublicationLabel} (hrun : Run Step s ls t) : t.Inv :=
  hrun.invariant (P := fun _ s => s.Inv) (fun _ _ _ _ hinv hstep => hinv.step hstep) [] h

theorem Inv.namesContent_step (h : s.Inv) {l : PublicationLabel} (hstep : Step s l t)
    (hnames : s.root.NamesContent) : t.root.NamesContent := by
  obtain ⟨c, -, -, rfl⟩ | ⟨-, rfl⟩ | ⟨a, r, root, pc, -, hr, hact, rfl⟩ := hstep.cases
  · exact hnames
  · exact hnames
  · exact (RunningCall.act_cases hact).root.namesContent h.wellFormed (h.owns l.id r hr) hnames

/-- One event keeps a final file, unless it removes that name. -/
theorem Inv.keeps_step (h : s.Inv) {l : PublicationLabel} (hstep : Step s l t) {key : Str} {i : Nat}
    (hkey : s.root.files.lookup key = some i) (hl : ∀ id, l ≠ ⟨id, .act (.unlink key)⟩) :
    t.root.files.lookup key = some i ∧ t.root.inodes.lookup i = s.root.inodes.lookup i := by
  obtain ⟨c, -, -, rfl⟩ | ⟨-, rfl⟩ | ⟨a, r, root, pc, hevent, hr, hact, rfl⟩ := hstep.cases
  · exact ⟨hkey, rfl⟩
  · exact ⟨hkey, rfl⟩
  · refine (RunningCall.act_cases hact).root.keeps h.wellFormed (h.owns l.id r hr) hkey ?_
    rintro rfl
    apply hl l.id
    rw [← hevent]

/-- **A run keeps a final file until a deletion removes its name.** -/
theorem Inv.keeps_run (h : s.Inv) {ls : List PublicationLabel} (hrun : Run Step s ls t) {key : Str}
    {i : Nat} (hkey : s.root.files.lookup key = some i)
    (hls : ∀ id, (⟨id, .act (.unlink key)⟩ : PublicationLabel) ∉ ls) :
    t.root.files.lookup key = some i ∧ t.root.inodes.lookup i = s.root.inodes.lookup i := by
  induction hrun with
  | nil s => exact ⟨hkey, rfl⟩
  | cons hstep hrest ih =>
      obtain ⟨hkey', hsame⟩ := h.keeps_step hstep hkey
        fun id heq => hls id (heq ▸ List.mem_cons_self ..)
      obtain ⟨hfile, hcontent⟩ := ih (h.step hstep) hkey'
        fun id hmem => hls id (List.mem_cons_of_mem _ hmem)
      exact ⟨hfile, hcontent.trans hsame⟩

end PublicationSystem

/-! ### A publication that succeeds -/

/-- The call has linked its file, or has found one under the final name. -/
def PublicationPc.placed : PublicationPc → Bool
  | .linked _ | .comparing (some _) _ _ | .compared (some _) _ | .flushed (some _) => true
  | .closing _ (.ok _) | .returned (.ok _) => true
  | _ => false

/-- The call has not returned. -/
def PublicationPc.running : PublicationPc → Bool
  | .returned _ => false
  | _ => true

/-- A comparison is one of a publication. -/
def PublicationPc.inStage : PublicationPc → Bool
  | .taken none | .comparing none _ _ | .compared none _ | .flushed none => false
  | _ => true

namespace CallMove

variable [Blake3] {root root' : PublicationRoot} {r : RunningCall} {a : PublicationAction}
  {pc : PublicationPc}

theorem inStage (h : CallMove root r a root' pc) (hstage : r.pc.inStage = true) : pc.inStage = true := by
  cases h with
  | missing attempt hpc => cases attempt <;> rfl
  | present attempt hpc => cases attempt <;> rfl
  | differs a attempt e hattempt => cases attempt <;> rfl
  | openFinal attempt inode hpc =>
      rw [hpc] at hstage
      cases attempt with
      | none => cases hstage
      | some attempt => rfl
  | readFinal attempt inode n read read' hpc =>
      rw [hpc] at hstage
      cases attempt with
      | none => cases hstage
      | some attempt => rfl
  | checkFinal attempt inode n read hpc =>
      rw [hpc] at hstage
      cases attempt with
      | none => cases hstage
      | some attempt => rfl
  | syncFinal attempt inode hpc =>
      rw [hpc] at hstage
      cases attempt with
      | none => cases hstage
      | some attempt => rfl
  | _ => rfl

/-- A publication that has its file in place has just linked or found it, or had it before. -/
theorem placed (h : CallMove root r a root' pc) (hcall : r.call.publishes = true)
    (hstage : r.pc.inStage = true) (hplaced : pc.placed = true) :
    r.pc.placed = true ∨ pc.running = true ∧ (root'.files.lookup r.call.key).isSome = true := by
  have hdelete : ∀ key, r.call ≠ .delete key := by
    intro key heq
    rw [heq] at hcall
    cases hcall
  -- A call that closes or returns with a success had it before.
  have hclosing : ∀ {attempt : Nat} {result : Except PublicationError Bool},
      r.pc = .closing attempt result → (PublicationPc.returned result).placed = true →
      r.pc.placed = true := by
    intro attempt result hpc hres
    rw [hpc]
    cases result with
    | ok b => rfl
    | error e => cases hres
  cases h with
  | link attempt inode hpc hstaged hfree =>
      refine .inr ⟨rfl, ?_⟩
      rw [AList.lookup_insert]
      rfl
  | openFinal attempt inode hpc hfile => exact .inr ⟨rfl, by rw [hfile]; rfl⟩
  | published attempt hpc => exact .inl (by rw [hpc]; rfl)
  | clear attempt result hpc => exact .inl (hclosing hpc (by cases result <;> exact hplaced))
  | unstage attempt result hpc => exact .inl (hclosing hpc hplaced)
  | leave attempt result hpc => exact .inl (hclosing hpc hplaced)
  | absent key hkey => exact absurd hkey (hdelete key)
  | find key hkey => exact absurd hkey (hdelete key)
  | vanished key hkey => exact absurd hkey (hdelete key)
  | unlink key hkey => exact absurd hkey (hdelete key)
  | missing attempt hpc =>
      rw [hpc] at hstage
      cases attempt with
      | none => cases hstage
      | some attempt => cases hplaced
  | differs a attempt e hattempt => cases attempt <;> cases hplaced
  | readFinal attempt inode n read read' hpc =>
      rw [hpc] at hstage ⊢
      cases attempt with
      | none => cases hstage
      | some attempt => exact .inl rfl
  | checkFinal attempt inode n read hpc =>
      rw [hpc] at hstage ⊢
      cases attempt with
      | none => cases hstage
      | some attempt => exact .inl rfl
  | syncFinal attempt inode hpc =>
      rw [hpc] at hstage ⊢
      cases attempt with
      | none => cases hstage
      | some attempt => exact .inl rfl
  | present attempt hpc =>
      rw [hpc] at hstage ⊢
      cases attempt with
      | none => cases hstage
      | some attempt => exact .inl rfl
  | _ => cases hplaced

/-- Only a deletion removes a name, and it removes its own. -/
theorem unlink_call {key : Str} (h : CallMove root r (.unlink key) root' pc) :
    r.call = .delete key ∨ root' = root := by
  cases h with
  | vanished key hcall => exact .inl hcall
  | unlink key hcall => exact .inl hcall
  | _ => exact .inr rfl

end CallMove

namespace PublicationSystem

variable [Blake3] {s₀ s t : PublicationSystem}

theorem enter_publishes {c : PublicationCall} (hc : c.publishes = true) :
    c.enter.inStage = true ∧ c.enter.placed = false := by
  cases c with
  | put cid bytes => unfold PublicationCall.enter; dsimp only; (repeat' split) <;> exact ⟨rfl, rfl⟩
  | publishWith cid expected =>
      unfold PublicationCall.enter; dsimp only; (repeat' split) <;> exact ⟨rfl, rfl⟩
  | verifyExisting cid expected => cases hc
  | delete key => cases hc

/-- The file of the call was in place at some moment of the call. -/
def Seen (s₀ s : PublicationSystem) (ls : List PublicationLabel) (id : Nat) (c : PublicationCall) :
    Prop :=
  ∃ before mid after, ls = before ++ after ∧ Run Step s₀ before mid ∧ Run Step mid after s ∧
    (∃ r, mid.calls.lookup id = some r ∧ r.call = c ∧ r.pc.running = true) ∧
    (mid.root.files.lookup c.key).isSome = true

theorem Seen.later {ls : List PublicationLabel} {id : Nat} {c : PublicationCall} (h : Seen s₀ s ls id c)
    {l : PublicationLabel} (hstep : Step s l t) : Seen s₀ t (ls ++ [l]) id c := by
  obtain ⟨before, mid, after, rfl, hbefore, hafter, hmid⟩ := h
  exact ⟨before, mid, after ++ [l], List.append_assoc .., hbefore, hafter.append (.single hstep), hmid⟩

/-- What a run keeps of the publications. -/
structure Tracks (s₀ : PublicationSystem) (ls : List PublicationLabel) (s : PublicationSystem) :
    Prop where
  run : Run Step s₀ ls s
  inStage : ∀ id r, s.calls.lookup id = some r → r.call.publishes = true → r.pc.inStage = true
  seen : ∀ id r, s.calls.lookup id = some r → r.call.publishes = true → r.pc.placed = true →
    Seen s₀ s ls id r.call

theorem Tracks.step {ls : List PublicationLabel} (h : Tracks s₀ ls s) {l : PublicationLabel}
    (hstep : Step s l t) : Tracks s₀ (ls ++ [l]) t := by
  have hrun := h.run.append (.single hstep)
  obtain ⟨c, -, -, rfl⟩ | ⟨-, rfl⟩ | ⟨a, r, root, pc, -, hr, hact, rfl⟩ := hstep.cases
  · refine ⟨hrun, ?_, ?_⟩
    · intro id r hr hpub
      rcases Maps.lookup_insert_some.mp hr with ⟨-, rfl⟩ | ⟨-, hr⟩
      · exact (enter_publishes hpub).1
      · exact h.inStage id r hr hpub
    · intro id r hr hpub hplaced
      rcases Maps.lookup_insert_some.mp hr with ⟨-, rfl⟩ | ⟨-, hr⟩
      · rw [(enter_publishes hpub).2] at hplaced
        cases hplaced
      · exact (h.seen id r hr hpub hplaced).later hstep
  · exact ⟨hrun, fun id r hr => h.inStage id r (Maps.lookup_erase_some.mp hr).2,
      fun id r hr hpub hplaced =>
        (h.seen id r (Maps.lookup_erase_some.mp hr).2 hpub hplaced).later hstep⟩
  · have hcase := RunningCall.act_cases hact
    refine ⟨hrun, ?_, ?_⟩
    · intro id r' hr' hpub
      rcases Maps.lookup_insert_some.mp hr' with ⟨-, rfl⟩ | ⟨-, hr'⟩
      · exact hcase.inStage (h.inStage l.id r hr hpub)
      · exact h.inStage id r' hr' hpub
    · intro id r' hr' hpub hplaced
      rcases Maps.lookup_insert_some.mp hr' with ⟨rfl, rfl⟩ | ⟨-, hr'⟩
      · rcases hcase.placed hpub (h.inStage l.id r hr hpub) hplaced with hold | ⟨hrunning, hfile⟩
        · exact (h.seen l.id r hr hpub hold).later hstep
        · exact ⟨ls ++ [l], _, [], (List.append_nil _).symm, hrun, .nil _,
            ⟨_, AList.lookup_insert _, rfl, hrunning⟩, hfile⟩
      · exact (h.seen id r' hr' hpub hplaced).later hstep

theorem Tracks.start (root : PublicationRoot) : Tracks ⟨root, ∅⟩ [] ⟨root, ∅⟩ :=
  ⟨.nil _, (fun _ _ h => nomatch h), (fun _ _ h => nomatch h)⟩

end PublicationSystem

/--
**Every interleaving keeps the final files.**  A canonical name leads to the bytes it
names; a publication that succeeds had its file in place at a moment of the call, and
the file is there still unless a deletion of that name came after; and only a deletion
of a key changes or removes the file of that key.
-/
theorem publication_keeps_final_files [Blake3] (root : PublicationRoot) (hroot : root.WellFormed)
    (ls : List PublicationLabel) (s : PublicationSystem)
    (hrun : Run PublicationSystem.Step ⟨root, ∅⟩ ls s) :
    (root.NamesContent → s.root.NamesContent) ∧
    (∀ id r b, s.calls.lookup id = some r → r.call.publishes = true → r.pc = .returned (.ok b) →
      ∃ before mid after, ls = before ++ after ∧
        Run PublicationSystem.Step ⟨root, ∅⟩ before mid ∧ Run PublicationSystem.Step mid after s ∧
        (∃ r', mid.calls.lookup id = some r' ∧ r'.call = r.call ∧ r'.pc.running = true) ∧
        (mid.root.files.lookup r.call.key).isSome = true ∧
        ((∀ id', (⟨id', .act (.unlink r.call.key)⟩ : PublicationLabel) ∉ after) →
          (s.root.files.lookup r.call.key).isSome = true)) ∧
    (∀ key i, s.root.files.lookup key = some i → ∀ ls' t, Run PublicationSystem.Step s ls' t →
      (∀ id, (⟨id, .act (.unlink key)⟩ : PublicationLabel) ∉ ls') →
      t.root.files.lookup key = some i ∧ t.root.inodes.lookup i = s.root.inodes.lookup i) ∧
    (∀ id key t, PublicationSystem.Step s ⟨id, .act (.unlink key)⟩ t → t.root ≠ s.root →
      ∃ r, s.calls.lookup id = some r ∧ r.call = .delete key) := by
  have hstart := PublicationSystem.Inv.start hroot
  have hinv := hstart.run hrun
  refine ⟨fun hnames => ?_, fun id r b hr hpub hpc => ?_, fun key i hkey ls' t hrun' hls => ?_,
    fun id key t hstep hne => ?_⟩
  · have hall := hrun.invariant (P := fun _ s => s.Inv ∧ s.root.NamesContent)
      (fun _ _ _ _ h hstep => ⟨h.1.step hstep, h.1.namesContent_step hstep h.2⟩) [] ⟨hstart, hnames⟩
    exact hall.2
  · have htracks := hrun.invariant (P := fun ls s => PublicationSystem.Tracks ⟨root, ∅⟩ ls s)
      (fun _ _ _ _ h hstep => h.step hstep) [] (.start root)
    obtain ⟨before, mid, after, hls, hbefore, hafter, hcall, hfile⟩ :=
      htracks.seen id r hr hpub (by rw [hpc]; rfl)
    refine ⟨before, mid, after, hls, hbefore, hafter, hcall, hfile, fun hno => ?_⟩
    obtain ⟨i, hi⟩ := Option.isSome_iff_exists.mp hfile
    rw [((hstart.run hbefore).keeps_run hafter hi hno).1]
    rfl
  · exact hinv.keeps_run hrun' hkey hls
  · obtain ⟨c, hevent, -⟩ | ⟨hevent, -⟩ | ⟨a, r, root', pc, hevent, hr, hact, rfl⟩ := hstep.cases
    · cases hevent
    · cases hevent
    · cases hevent
      rcases (RunningCall.act_cases hact).unlink_call with hcall | hsame
      · exact ⟨r, hr, hcall⟩
      · exact absurd hsame hne

/-! #### Two writers of one byte

Two calls put the same byte and a third one puts another.  The first crashes after it has
written, the two others publish, and the other byte is deleted. -/

/-- A call up to its write. -/
def stageLabels [Blake3] (id : Nat) (bytes : Bytes) : List PublicationLabel :=
  [.enter (.put (cidFromData bytes) bytes), .act (.makeStaging id), .act .openStaging,
    .act (.createPayload id), .act (.writePayload bytes)].map (⟨id, ·⟩)

/-- From the write to the link. -/
def checkLabels (id : Nat) : List PublicationLabel :=
  [.act .writeReturns, .act .openPayload, .act (.read 65536), .act (.read 65536),
    .act .syncFile].map (⟨id, ·⟩)

def linkLabels (id : Nat) : List PublicationLabel :=
  [.act .link, .act .syncDirectory, .act .removeStaging].map (⟨id, ·⟩)

def raceLabels [Blake3] : List PublicationLabel :=
  stageLabels 0 [1] ++ stageLabels 1 [1] ++ stageLabels 2 [2] ++ [⟨0, .crash⟩] ++
    checkLabels 2 ++ checkLabels 1 ++ linkLabels 1 ++ linkLabels 2

/-- The deletion of the other byte. -/
def deleteLabels [Blake3] : List PublicationLabel :=
  [.enter (.delete (cidFromData [2])), .act .openFinal, .act (.unlink (cidFromData [2]))].map (⟨3, ·⟩)

/-- The `put` of the name has succeeded. -/
def PublicationSystem.published (s : PublicationSystem) (id : Nat) (cid : Str) : Bool :=
  match s.calls.lookup id with
  | some ⟨.put key _, .returned (.ok _)⟩ => decide (key = cid)
  | _ => false

theorem PublicationSystem.published_put {s : PublicationSystem} {id : Nat} {cid : Str}
    (h : s.published id cid = true) :
    ∃ bytes b, s.calls.lookup id = some ⟨.put cid bytes, .returned (.ok b)⟩ := by
  unfold PublicationSystem.published at h
  split at h
  · rename_i key bytes b hcall
    exact ⟨bytes, b, by rw [hcall, of_decide_eq_true h]⟩
  · cases h

/-- The byte is published in spite of the crash, and is there under its name to the end. -/
theorem put_byte_stays :
    letI := Blake3.reference
    ∃ s t, Run PublicationSystem.Step ⟨⟨∅, ∅, ∅⟩, ∅⟩ raceLabels s ∧
      Run PublicationSystem.Step s deleteLabels t ∧
      (s.root.files.lookup (cidFromData [2])).isSome = true ∧
      t.root.files.lookup (cidFromData [2]) = none ∧ t.root.NamesContent ∧
      (t.root.files.lookup (cidFromData [1])).isSome = true := by
  let _ := Blake3.reference
  have hend : ((raceLabels.foldlM PublicationSystem.next ⟨⟨∅, ∅, ∅⟩, ∅⟩).any fun s =>
      (deleteLabels.foldlM PublicationSystem.next s).any fun t =>
        (s.root.files.lookup (cidFromData [2])).isSome &&
          (t.root.files.lookup (cidFromData [2])).isNone && t.published 1 (cidFromData [1]) &&
            decide (cidFromData [1] ≠ cidFromData [2])) = true := by
    decide +kernel
  obtain ⟨s, hs, hend⟩ := (Option.any_eq_true _ _).mp hend
  obtain ⟨t, ht, hend⟩ := (Option.any_eq_true _ _).mp hend
  simp only [Bool.and_eq_true, decide_eq_true_eq, Option.isNone_iff_eq_none] at hend
  obtain ⟨⟨⟨hother, hgone⟩, hput⟩, hne⟩ := hend
  have hrace := Run.of_foldlM hs
  have hdelete := Run.of_foldlM ht
  obtain ⟨bytes, b, hcall⟩ := PublicationSystem.published_put hput
  obtain ⟨hnames, hpub, -, -⟩ := publication_keeps_final_files ⟨∅, ∅, ∅⟩
    ⟨(fun _ _ h => nomatch h), (fun _ _ h => nomatch h)⟩ _ t (hrace.append hdelete)
  refine ⟨s, t, hrace, hdelete, hother, hgone, hnames (fun _ _ _ h => nomatch h), ?_⟩
  obtain ⟨before, mid, after, hls, -, -, -, -, hstays⟩ := hpub 1 _ b hcall rfl rfl
  apply hstays
  intro id' hmem
  have hall : (⟨id', .act (.unlink (cidFromData [1]))⟩ : PublicationLabel) ∈
      raceLabels ++ deleteLabels := by
    rw [hls]
    exact List.mem_append_right _ hmem
  simp [raceLabels, stageLabels, checkLabels, linkLabels, deleteLabels, hne] at hall

end Snip
