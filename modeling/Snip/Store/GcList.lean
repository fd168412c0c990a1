/-
The list of chunks that garbage collection must keep, character by character
(`sum-store/src/manifest_index.rs`): `gc_protected.list` and its marker.

Unlike a sidecar, the list is not repaired before an append: a write that fails ends the
appends of the process, and the next load cuts what is torn.  A file is kept as what is
synced and what was written after that.  What a load has read counts as synced.
-/
import Snip.Store.Sidecar
import Snip.Store.IndexOps

namespace Snip

/-! ### Lines -/

/-- A line of the list. -/
inductive GcEntry where
  /-- A chunk that a V2 Push brought. -/
  | v2 (root : Hash) (cid : Str)
  /-- A chunk that was there when the list was created. -/
  | legacy (cid : Str)

def GcEntry.cid : GcEntry → Str
  | v2 _ cid | legacy cid => cid

/-- The line as it is written, without its newline. -/
def GcEntry.line : GcEntry → Str
  | v2 root cid => ['v', '2'] ++ ' ' :: (hexEncode root.bytes ++ ' ' :: cid)
  | legacy cid => ['l', 'e', 'g', 'a', 'c', 'y'] ++ ' ' :: (['-'] ++ ' ' :: cid)

/-- `parse_gc_protected_line`. -/
def parseGcProtectedLine (line : Str) : Option Str :=
  match line.splitOn ' ' with
  | [kind, root, cid] =>
      if cid = [] then none
      else if (kind = ['v', '2'] ∧ root.length = 64 ∧ root.all fun c => (hexValue c).isSome) ∨
          (kind = ['l', 'e', 'g', 'a', 'c', 'y'] ∧ root = ['-']) then some cid
      else none
  | _ => none

/-! ### The files -/

structure GcListFile where
  synced : Str
  /-- What was written after the last sync. -/
  unsynced : Str

def GcListFile.content (f : GcListFile) : Str := f.synced ++ f.unsynced

structure GcFiles where
  /-- `gc_protected.list` -/
  list : Option GcListFile
  listEntrySynced : Bool
  /-- `gc_protected.initialized` -/
  marker : Bool
  markerEntrySynced : Bool

/-- What a crash leaves: a part of what was not synced, and any entry that was not. -/
def GcFiles.crash (f : GcFiles) (kept : Nat) (keepsList keepsMarker : Bool) : GcFiles :=
  { list :=
      if f.listEntrySynced ∨ keepsList then f.list.map fun l => ⟨l.synced ++ l.unsynced.take kept, []⟩
      else none
    listEntrySynced := true
    marker := f.marker ∧ (f.markerEntrySynced ∨ keepsMarker)
    markerEntrySynced := true }

/-- `write_marker`. -/
def GcFiles.writeMarker (io : Io) (f : GcFiles) : GcFiles × Except StoreError Unit :=
  match io with
  | .done => ({ f with listEntrySynced := true, marker := true, markerEntrySynced := true }, .ok ())
  | .lost => (f, .error .io)
  | .unsynced => ({ f with marker := true, markerEntrySynced := false }, .error .io)

/-! ### Reading -/

/-- The identifiers of the complete lines, if all of them parse. -/
def parseGcLines (text : Str) : Option (List Str) :=
  (LineFile.lines text).mapM parseGcProtectedLine

structure GcLoadIo where
  reads : Bool
  truncates : Io
  marks : Io

/-- The end of `load_gc_protected`: a list without its marker gets it. -/
def GcFiles.loadMarker (io : Io) (f : GcFiles) (cids : List Str) : GcFiles × List Str × Option Bool :=
  if f.marker then (f, cids, some true)
  else
    match f.writeMarker io with
    | (f, .ok ()) => (f, cids, some true)
    | (f, .error _) => (f, [], some false)

/-- `load_gc_protected`: the files after, the identifiers, and `gc_protection_intact`. -/
def GcFiles.load (io : GcLoadIo) (f : GcFiles) : GcFiles × List Str × Option Bool :=
  match f.list with
  | none => (f, [], if f.marker then some false else none)
  | some file =>
      if !io.reads then (f, [], some false)
      else
        let content := file.content
        let onDisk := fun text => { f with list := some ⟨text, []⟩ }
        match parseGcLines content with
        | none => (onDisk content, [], some false)
        | some cids =>
            let complete := LineFile.complete content
            if complete = content then (onDisk content).loadMarker io.marks cids
            else
              match io.truncates with
              | .done => (onDisk complete).loadMarker io.marks cids
              | .lost => (onDisk content, [], some false)
              | .unsynced => (onDisk complete, [], some false)

/-! ### Writing -/

structure GcAppendIo where
  opens : Bool
  /-- How much of the line is written before the write fails, or all of it. -/
  writes : Option Nat
  syncs : Bool

/-- `append_gc_protected_line`; `line` is without its newline. -/
def GcFiles.append (io : GcAppendIo) (f : GcFiles) (line : Str) : GcFiles × Except StoreError Unit :=
  match f.list with
  -- The list is opened for appending only; a missing one is not created.
  | none => (f, .error .io)
  | some file =>
      if !io.opens then (f, .error .io)
      else
        let written := match io.writes with
          | some n => (line ++ ['\n']).take n
          | none => line ++ ['\n']
        if io.writes = none ∧ io.syncs then
          ({ f with list := some ⟨file.content ++ written, []⟩ }, .ok ())
        else ({ f with list := some ⟨file.synced, file.unsynced ++ written⟩ }, .error .io)

structure GcSeedIo where
  /-- The temporary file is written and synced. -/
  writes : Bool
  renames : Bool
  syncsDirectory : Bool
  marks : Io

/-- `seed_gc_protected_legacy`, as far as the disk goes. -/
def GcFiles.seed (io : GcSeedIo) (f : GcFiles) (cidsOnDisk : List Str) :
    GcFiles × Except StoreError Unit :=
  if !io.writes ∨ !io.renames then (f, .error .io)
  else
    let f := { f with
      list := some ⟨LineFile.write (cidsOnDisk.map fun cid => (GcEntry.legacy cid).line), []⟩
      listEntrySynced := false }
    if !io.syncsDirectory then (f, .error .io)
    else { f with listEntrySynced := true }.writeMarker io.marks

end Snip
