/-
`sum-node repush-audit` (`sum-node/src/repair_audit.rs`): can an archive answer a challenge
on every chunk that the chain assigns to it?

Each file of the inventory is audited against its latest assignment epoch, then every epoch
is read again.  The chain is an environment: it may answer the same query differently each
time.  The store is one value, read and never written.
-/
import Snip.Lib.Dialogue
import Snip.Node.Archive

namespace Snip

/-! ### The report -/

namespace AuditExit

def complete : Nat := 0
def error : Nat := 1
def incomplete : Nat := 3
def noInventory : Nat := 7

end AuditExit

inductive ChunkVerdict where
  | usable (source : AnswerSource)
  | notUsable (reason : String)
deriving DecidableEq

structure ChunkAudit where
  chunkIndex : Nat
  verdict : ChunkVerdict
deriving DecidableEq

/-- A file's assignment epoch, read again at the end. -/
inductive EpochRecheck where
  | unchanged
  | moved (now : Nat)
  | failed (e : String)
deriving DecidableEq

inductive FileAudit where
  | audited (merkleRoot : Hash) (epoch : Nat) (chunks : List ChunkAudit) (recheck : EpochRecheck)
  | abandoned (merkleRoot : Hash)
  | notRegistered (merkleRoot : Hash)
  | error (merkleRoot : Hash) (e : String)

inductive AuditVerdict where
  | complete
  | incomplete
  | error
  | noInventory
deriving DecidableEq

structure AuditReport where
  archive : Addr
  files : List FileAudit

/-- A failed read, or a root the chain does not know. -/
def FileAudit.isError : FileAudit → Bool
  | error _ _ | notRegistered _ | audited _ _ _ (.failed _) => true
  | _ => false

def ChunkVerdict.isNotUsable : ChunkVerdict → Bool
  | notUsable _ => true
  | usable _ => false

/-- An epoch that did not stay, or a chunk without an answer. -/
def FileAudit.isIncomplete : FileAudit → Bool
  | audited _ _ chunks recheck =>
      recheck ≠ .unchanged || chunks.any fun c => c.verdict.isNotUsable
  | _ => false

namespace AuditReport

def verdict (report : AuditReport) : AuditVerdict :=
  if report.files.isEmpty then .noInventory
  else if report.files.any FileAudit.isError then .error
  else if report.files.any FileAudit.isIncomplete then .incomplete
  else .complete

def exitCode (report : AuditReport) : Nat :=
  match report.verdict with
  | .complete => AuditExit.complete
  | .incomplete => AuditExit.incomplete
  | .error => AuditExit.error
  | .noInventory => AuditExit.noInventory

end AuditReport

/-! ### The audit -/

/-- `V2RpcClient`. -/
structure V2RpcClient (σ : Type) where
  storageGetFileInfoV2 : Hash → σ → Except Str (Option StorageFileInfoV2) × σ
  storageGetActiveNodesAtHeight : Nat → σ → Except Str (List NodeRecordInfo) × σ
  latestAssignmentEpoch : Hash → σ → Except Str (Option Nat) × σ

/-- A query, the file it was asked for and the answer. -/
inductive ChainRead where
  | fileInfo (merkleRoot : Hash) (answer : Except Str (Option StorageFileInfoV2))
  | latestEpoch (merkleRoot : Hash) (answer : Except Str (Option Nat))
  | activeNodes (merkleRoot : Hash) (height : Nat) (answer : Except Str (List NodeRecordInfo))

def ChainRead.merkleRoot : ChainRead → Hash
  | fileInfo merkleRoot _ | latestEpoch merkleRoot _ | activeNodes merkleRoot _ _ => merkleRoot

abbrev AuditM (σ : Type) := Dialogue σ ChainRead

/-- What `read_epoch` makes of the answer. -/
def resolveEpoch (assignmentHeight : Nat) : Except Str (Option Nat) → Except String Nat
  | .error e => .error ("latest assignment epoch: " ++ String.ofList e)
  | .ok none => .ok assignmentHeight
  | .ok (some latest) =>
      if latest < assignmentHeight then
        .error ("latest assignment epoch " ++ toString latest ++ " below assignment_height " ++
          toString assignmentHeight)
      else .ok latest

/-- The verdict on one assigned chunk. -/
def auditChunk [Blake3] (manifestIdx : ManifestIndex) (files : ChunkStore) (merkleRoot : Hash)
    (chunkCount chunkIndex : Nat) : ChunkVerdict :=
  match buildAnswer manifestIdx files merkleRoot chunkIndex with
  | .ok answer =>
      if verifyMerkleProofBytesForTree answer.chunkHash chunkIndex answer.merklePath merkleRoot
          chunkCount then .usable answer.source
      else
        .notUsable ("the answer does not verify against the root: the stored chunk does not " ++
          "match it")
  | .error e => .notUsable e.message

section

variable [Blake3] [AssignmentScore] {σ : Type} (rpc : V2RpcClient σ) (r : Nat) (archive : Addr)
  (manifestIdx : ManifestIndex) (files : ChunkStore)

def readEpoch (merkleRoot : Hash) (assignmentHeight : Nat) : AuditM σ (Except String Nat) := do
  let answer ← Dialogue.ask (rpc.latestAssignmentEpoch merkleRoot) (.latestEpoch merkleRoot)
  return resolveEpoch assignmentHeight answer

/-- The loop over the chunks: those that the snapshot assigns to the archive. -/
def auditChunks (merkleRoot : Hash) (snapshot : List Addr) (chunkCount : Nat) : List ChunkAudit :=
  (List.range chunkCount).filterMap fun chunkIndex =>
    if archive ∈ assignedArchives merkleRoot snapshot chunkIndex r then
      some ⟨chunkIndex, auditChunk manifestIdx files merkleRoot chunkCount chunkIndex⟩
    else none

/--
The first look at a file, and its assignment height.  The text of an address that does not
decode is the library's and is left out.
-/
def auditFile (merkleRoot : Hash) : AuditM σ (FileAudit × Nat) := do
  match ← Dialogue.ask (rpc.storageGetFileInfoV2 merkleRoot) (.fileInfo merkleRoot) with
  | .error e => pure (.error merkleRoot ("storage_getFileInfoV2: " ++ String.ofList e), 0)
  | .ok none => pure (.notRegistered merkleRoot, 0)
  | .ok (some info) =>
      if info.lifecycle.isAbandoned then pure (.abandoned merkleRoot, info.assignmentHeight)
      else
        match ← readEpoch rpc merkleRoot info.assignmentHeight with
        | .error e => pure (.error merkleRoot e, info.assignmentHeight)
        | .ok epoch =>
            match ← Dialogue.ask (rpc.storageGetActiveNodesAtHeight epoch)
                (.activeNodes merkleRoot epoch) with
            | .error e =>
                pure (.error merkleRoot ("storage_getActiveNodesAtHeight: " ++ String.ofList e),
                  info.assignmentHeight)
            | .ok raw =>
                match decodeSnapshot raw with
                | none =>
                    pure (.error merkleRoot "snapshot address decode", info.assignmentHeight)
                | some snapshot =>
                    pure (.audited merkleRoot epoch
                      (auditChunks r archive manifestIdx files merkleRoot snapshot info.chunkCount)
                      .unchanged, info.assignmentHeight)

/-- The loop over the inventory; a root that was `seen` is not audited again. -/
def auditFiles : List Hash → List Hash → AuditM σ (List FileAudit × List Nat)
  | [], _ => pure ([], [])
  | merkleRoot :: inventory, seen =>
      if merkleRoot ∈ seen then auditFiles inventory seen
      else do
        let (file, assignmentHeight) ← auditFile rpc r archive manifestIdx files merkleRoot
        let (rest, heights) ← auditFiles inventory (merkleRoot :: seen)
        return (file :: rest, assignmentHeight :: heights)

/-- The epoch of an audited file once more. -/
def recheckFile (assignmentHeight : Nat) : FileAudit → AuditM σ FileAudit
  | .audited merkleRoot epoch chunks _ => do
      let recheck ← readEpoch rpc merkleRoot assignmentHeight
      return .audited merkleRoot epoch chunks (match recheck with
        | .ok now => if now = epoch then .unchanged else .moved now
        | .error e => .failed e)
  | file => pure file

/-- The second loop, over files and heights zipped. -/
def recheckFiles : List FileAudit → List Nat → AuditM σ (List FileAudit)
  | file :: rest, assignmentHeight :: heights => do
      let file ← recheckFile rpc assignmentHeight file
      let rest ← recheckFiles rest heights
      return file :: rest
  | rest, _ => pure rest

def audit (inventory : List Hash) : AuditM σ AuditReport := do
  let (audited, heights) ← auditFiles rpc r archive manifestIdx files inventory []
  let audited ← recheckFiles rpc audited heights
  return ⟨archive, audited⟩

end

end Snip
