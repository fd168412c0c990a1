/-
The sidecar files of a manifest directory, character by character
(`sum-store/src/manifest_index.rs`): `<root>.v2_held`, `<root>.v2_proofs` and
`<root>.private_chunks`.

`Store/SumStore` keeps these files by their lines.  Here they are texts, so that a line
of which only a part was written is a part of a line.  A character is a byte: what is
written is taken to be ASCII.
-/
import Mathlib.Data.List.Sort
import Snip.Lib.LineFile
import Snip.Lib.Maps
import Snip.Store.SumStore

namespace Snip

/-! ### Lines -/

/-- A number as `{}` prints it. -/
def formatDecimal (n : Nat) : Str :=
  if n = 0 then ['0'] else ((Nat.digits 10 n).map fun d => Char.ofNat (48 + d)).reverse

/-- A text of decimal digits as a `u32`. -/
def parseU32 (s : Str) : Option Nat :=
  if s = [] ∨ (s.any fun c => !(48 ≤ c.toNat && c.toNat ≤ 57)) then none
  else
    let n := s.foldl (fun n c => 10 * n + (c.toNat - 48)) 0
    if n < 2 ^ 32 then some n else none

/-- `decode_hex_root`. -/
def decodeHexRoot (s : Str) : Option Hash :=
  if s.length ≠ 64 then none else (hexPairs s).bind Hash.ofBytes?

/-- A line of `<root>.v2_held`. -/
def formatV2HeldLine (index : Nat) (cid : Str) : Str := formatDecimal index ++ ' ' :: cid

/-- `parse_v2_held_line`. -/
def parseV2HeldLine (line : Str) : Option (Nat × Str) :=
  match line.splitOn ' ' with
  | [index, cid] =>
      if cid = [] ∨ cid.any isWhitespace then none
      else (parseU32 index).map fun i => (i, cid)
  | _ => none

/-- `MAX_PUSHED_PROOF_DEPTH`. -/
def maxPushedProofDepth : Nat := 32

/-- The path as a line has it. -/
def formatPath (path : List Hash) : Str :=
  if path = [] then ['-'] else [','].intercalate (path.map fun h => hexEncode h.bytes)

/-- `format_v2_proof_line`, without its newline. -/
def formatV2ProofLine (index : Nat) (proof : PushedProof) : Str :=
  formatDecimal index ++ ' ' :: (hexEncode proof.leaf.bytes ++ ' ' :: formatPath proof.path)

/-- The path of a line. -/
def parsePath (path : Str) : Option (List Hash) :=
  if path = ['-'] then some []
  else
    ((path.splitOn ',').mapM decodeHexRoot).filter fun nodes => nodes.length ≤ maxPushedProofDepth

/-- `parse_v2_proof_line`. -/
def parseV2ProofLine (line : Str) : Option (Nat × PushedProof) :=
  match line.splitOn ' ' with
  | [index, leaf, path] => do
      let index ← parseU32 index
      let leaf ← decodeHexRoot leaf
      let path ← parsePath path
      return (index, ⟨leaf, path⟩)
  | _ => none

/-! ### Appending -/

/-- `rposition`: where the last newline is. -/
def lastNewline (block : Str) : Option Nat :=
  (block.reverse.findIdx? (· = '\n')).map fun i => block.length - 1 - i

/-- The size of the buffer in `cut_torn_tail`. -/
def tailBuffer : Nat := 4096

theorem tailBuffer_pos : 0 < tailBuffer := Nat.succ_pos _

/-- The loop of `cut_torn_tail`: a newline is looked for in blocks, the last first. -/
def cutFrom {buffer : Nat} (hbuffer : 0 < buffer) (text : Str) (stop : Nat) : Nat :=
  if _h : stop = 0 then 0
  else
    let start := stop - buffer
    match lastNewline ((text.drop start).take (stop - start)) with
    | some i => start + i + 1
    | none => cutFrom hbuffer text start
termination_by stop
decreasing_by exact Nat.sub_lt (Nat.pos_of_ne_zero _h) hbuffer

/-- `cut_torn_tail`. -/
def cutTornTail (text : Str) : Str :=
  match text.getLast? with
  | none => text
  | some last => if last = '\n' then text else text.take (cutFrom tailBuffer_pos text (text.length - 1))

/-- How the system calls of an append end. -/
structure AppendIo where
  opens : Bool
  syncsDirectory : Bool
  cuts : Bool
  /-- How much of the line is written before the write fails, or all of it. -/
  writes : Option Nat
  syncs : Bool

/-- All goes well. -/
def AppendIo.done : AppendIo := ⟨true, true, true, none, true⟩

/-- The files of one kind, by root, and those whose directory entry this process has synced. -/
structure SidecarFiles where
  texts : Map Hash Str
  durable : List Hash

/-- `append_sidecar_line`; `line` is without its newline. -/
def SidecarFiles.appendLine (io : AppendIo) (f : SidecarFiles) (root : Hash) (line : Str) :
    SidecarFiles × Except StoreError Unit :=
  if !io.opens then (f, .error .io)
  else
    let text := (f.texts.lookup root).getD []
    let onDisk := fun text durable => SidecarFiles.mk (f.texts.insert root text) durable
    if root ∉ f.durable ∧ !io.syncsDirectory then (onDisk text f.durable, .error .io)
    else
      let durable := if root ∈ f.durable then f.durable else root :: f.durable
      if !io.cuts then (onDisk text durable, .error .io)
      else
        let text := cutTornTail text
        match io.writes with
        | some n => (onDisk (text ++ (line ++ ['\n']).take n) durable, .error .io)
        | none =>
            (onDisk (text ++ (line ++ ['\n'])) durable, if io.syncs then .ok () else .error .io)

/-! ### The index of them in memory -/

/-- The sidecar files and the maps of the index that they hold. -/
structure Sidecars where
  heldFiles : SidecarFiles
  proofFiles : SidecarFiles
  privateFiles : SidecarFiles
  v2Held : Map Hash (Map Nat Str)
  v2Proofs : Map Hash (Map Nat PushedProof)
  privateCidToRoot : Map Str Hash

namespace Sidecars

def heldRecord (s : Sidecars) (root : Hash) (index : Nat) : Option Str :=
  (s.v2Held.lookup root).bind fun m => m.lookup index

def proofRecord (s : Sidecars) (root : Hash) (index : Nat) : Option PushedProof :=
  (s.v2Proofs.lookup root).bind fun m => m.lookup index

/-- `record_v2_held_index`. -/
def recordV2HeldIndex (io : AppendIo) (s : Sidecars) (root : Hash) (index : Nat) (cid : Str) :
    Sidecars × Except StoreError Unit :=
  match s.heldRecord root index with
  | some existing =>
      if existing = cid then (s, .ok ()) else (s, .error (.rebindHeldIndex index root existing cid))
  | none =>
      match s.heldFiles.appendLine io root (formatV2HeldLine index cid) with
      | (files, .error e) => ({ s with heldFiles := files }, .error e)
      | (files, .ok ()) =>
          let records := ((s.v2Held.lookup root).getD ∅).insert index cid
          ({ s with heldFiles := files, v2Held := s.v2Held.insert root records }, .ok ())

/-- `record_v2_pushed_proof`. -/
def recordV2PushedProof [Blake3] (io : AppendIo) (s : Sidecars) (root : Hash) (index : Nat)
    (proof : PushedProof) : Sidecars × Except StoreError Unit :=
  match s.proofRecord root index with
  | some existing =>
      if existing = proof then (s, .ok ())
      else (s, .error (.rebindPushedProof index root existing.leaf proof.leaf))
  | none =>
      if !pushedProofVerifies root index proof then (s, .error (.pushProofNotRecorded index root))
      else
        match s.proofFiles.appendLine io root (formatV2ProofLine index proof) with
        | (files, .error e) => ({ s with proofFiles := files }, .error e)
        | (files, .ok ()) =>
            let records := ((s.v2Proofs.lookup root).getD ∅).insert index proof
            ({ s with proofFiles := files, v2Proofs := s.v2Proofs.insert root records }, .ok ())

/-- `record_private_chunk_cid`. -/
def recordPrivateChunkCid (io : AppendIo) (s : Sidecars) (root : Hash) (cid : Str) :
    Sidecars × Except StoreError Unit :=
  match s.privateCidToRoot.lookup cid with
  | some existing =>
      if existing = root then (s, .ok ()) else (s, .error (.rebindPrivateChunk cid existing root))
  | none =>
      match s.privateFiles.appendLine io root cid with
      | (files, .error e) => ({ s with privateFiles := files }, .error e)
      | (files, .ok ()) =>
          ({ s with privateFiles := files, privateCidToRoot := s.privateCidToRoot.insert cid root },
            .ok ())

end Sidecars

/-! ### Loading -/

/-- The file has a torn tail, or a line that is not used. -/
def needsRewrite {α : Type} (text : Str) (parsed : List (Option α)) (conflicts : Bool) : Bool :=
  LineFile.complete text ≠ text || parsed.any Option.isNone || conflicts

/-- The records of a file in the order of a sorted map. -/
def sortedRecords {β : Type} (m : Map Nat β) : List (Nat × β) :=
  (m.entries.map fun e => (e.1, e.2)).mergeSort fun a b => a.1 ≤ b.1

/-- `load_v2_held_lines` and `load_v2_proof_lines`: the records of a file, and the file after. -/
def loadRecords {β : Type} [DecidableEq β] (parse : Str → Option (Nat × β))
    (format : Nat → β → Str) (rewrites : Bool) (text : Str) : Map Nat β × Str :=
  let parsed := (LineFile.lines text).map parse
  let recovery := Ledger.recover (parsed.filterMap id)
  let text :=
    if needsRewrite text parsed (recovery.conflicted ≠ []) ∧ rewrites then
      LineFile.write ((sortedRecords recovery.records).map fun r => format r.1 r.2)
    else text
  (recovery.records, text)

/-- `load_private_chunk_lines`: the identifiers of a file, each once, and the file after. -/
def loadPrivateChunkLines (rewrites : Bool) (text : Str) : List Str × Str :=
  let parsed := (LineFile.lines text).map readPrivateChunk
  let cids := (parsed.filterMap id).reverse.dedup.reverse
  (cids, if needsRewrite text parsed false ∧ rewrites then LineFile.write cids else text)

/-- `load_v2_held_lines`. -/
def loadV2HeldLines (rewrites : Bool) (text : Str) : Map Nat Str × Str :=
  loadRecords parseV2HeldLine formatV2HeldLine rewrites text

/-- A line of `<root>.v2_proofs` whose path leads to the root. -/
def readV2ProofLine [Blake3] (root : Hash) (line : Str) : Option (Nat × PushedProof) :=
  (parseV2ProofLine line).filter fun r => pushedProofVerifies root r.1 r.2

/-- `load_v2_proof_lines`. -/
def loadV2ProofLines [Blake3] (root : Hash) (rewrites : Bool) (text : Str) :
    Map Nat PushedProof × Str :=
  loadRecords (readV2ProofLine root) formatV2ProofLine rewrites text

/-- `rewrite_v2_held` and `rewrite_v2_proofs`: the file of exactly these records. -/
def rewriteRecords {β : Type} (format : Nat → β → Str) (records : Map Nat β) : Str :=
  LineFile.write ((sortedRecords records).map fun r => format r.1 r.2)

def rewriteV2Held (records : Map Nat Str) : Str := rewriteRecords formatV2HeldLine records

def rewriteV2Proofs (records : Map Nat PushedProof) : Str := rewriteRecords formatV2ProofLine records

/-- `rewrite_private_chunks`. -/
def rewritePrivateChunks (cids : List Str) : Str := LineFile.write cids

/-- Whether a load of the file leaves out a record: `torn || skipped > 0 || !conflicted.is_empty()`. -/
def dropsRecords {β : Type} [DecidableEq β] (parse : Str → Option (Nat × β)) (text : Str) : Bool :=
  let parsed := (LineFile.lines text).map parse
  needsRewrite text parsed ((Ledger.recover (parsed.filterMap id)).conflicted ≠ [])

/-- The same of `load_private_chunk_lines`, where nothing conflicts. -/
def dropsPrivateChunks (text : Str) : Bool :=
  needsRewrite text ((LineFile.lines text).map readPrivateChunk) false

/-- What of a load may go wrong or differ from run to run. -/
structure LoadIo where
  /-- The order in which the directory gives the roots. -/
  order : List Hash
  rewritesHeld : Hash → Bool
  rewritesProofs : Hash → Bool
  rewritesPrivate : Hash → Bool

/-- `load`, as far as the sidecars go. -/
def Sidecars.load [Blake3] (io : LoadIo) (s : Sidecars) : Sidecars :=
  let held := Maps.mapValues (fun root text =>
    loadRecords parseV2HeldLine formatV2HeldLine (io.rewritesHeld root) text) s.heldFiles.texts
  let proofs := Maps.mapValues (fun root text =>
    loadRecords
      (fun line => (parseV2ProofLine line).filter fun r => pushedProofVerifies root r.1 r.2)
      formatV2ProofLine (io.rewritesProofs root) text) s.proofFiles.texts
  let privates := Maps.mapValues (fun root text =>
    loadPrivateChunkLines (io.rewritesPrivate root) text) s.privateFiles.texts
  let roots := (io.order.filter fun r => r ∈ privates.keys) ++ privates.keys.filter fun r => r ∉ io.order
  { heldFiles := ⟨Maps.mapValues (fun _ r => r.2) held, []⟩
    proofFiles := ⟨Maps.mapValues (fun _ r => r.2) proofs, []⟩
    privateFiles := ⟨Maps.mapValues (fun _ r => r.2) privates, []⟩
    v2Held := Maps.mapValues (fun _ r => r.1) held
    v2Proofs := Maps.mapValues (fun _ r => r.1) proofs
    privateCidToRoot := roots.foldl (fun acc root =>
      (((privates.lookup root).map Prod.fst).getD []).foldl (fun acc cid => acc.insert cid root) acc) ∅ }

/-! ### Histories -/

/-- A call, with how its system calls end, or a restart. -/
inductive SidecarOp where
  | held (root : Hash) (index : Nat) (cid : Str) (io : AppendIo)
  | proof (root : Hash) (index : Nat) (proof : PushedProof) (io : AppendIo)
  | privateCid (root : Hash) (cid : Str) (io : AppendIo)
  | load (io : LoadIo)

/-- One call or restart, and what it returns. -/
def Sidecars.apply [Blake3] (s : Sidecars) : SidecarOp → Sidecars × Except StoreError Unit
  | .held root index cid io => s.recordV2HeldIndex io root index cid
  | .proof root index proof io => s.recordV2PushedProof io root index proof
  | .privateCid root cid io => s.recordPrivateChunkCid io root cid
  | .load io => (s.load io, .ok ())

/-- Before anything was written. -/
def Sidecars.fresh : Sidecars := ⟨⟨∅, []⟩, ⟨∅, []⟩, ⟨∅, []⟩, ∅, ∅, ∅⟩

end Snip
