/-
The publication of chunk files (`sum-store/src/publication.rs`), one system call at a
time.

Any number of stores share a root, and their calls interleave.  A call stages its bytes
in a directory of its own, reads them back, and links the file it has read to the final
name; a final name that is taken is read in its place.  Nothing but the link makes a
final name, nothing but `delete` removes one, and neither opens a final file for writing.

The root holds regular files only, and a final name is kept without the suffix that all
of them have and no staging directory has.
-/
import Snip.Store.SumStore

namespace Snip

/-! ### Keys and canonical identifiers -/

/-- The value of a digit of the lower-case alphabet `a..z2..7`. -/
def base32Value (c : Char) : Option Nat :=
  if 97 ≤ c.toNat ∧ c.toNat ≤ 122 then some (c.toNat - 97)
  else if 50 ≤ c.toNat ∧ c.toNat ≤ 55 then some (c.toNat - 24)
  else none

/-- The digits as one number, the highest first. -/
def base32Number (digits : Str) : Option Nat :=
  digits.foldlM (fun n c => (base32Value c).map fun d => 32 * n + d) 0

/-- The `k` lowest bytes of a number, the highest first. -/
def spelledBytes : Nat → Nat → Bytes
  | 0, _ => []
  | k + 1, v => spelledBytes k (v / 256) ++ [UInt8.ofNat (v % 256)]

/-- The digest inside a version 1 raw BLAKE3 identifier; the last two bits are padding. -/
def parseCid (cid : Str) : Option Hash :=
  match cid with
  | 'b' :: digits =>
      (base32Number digits).bind fun v => Hash.ofBytes? ((spelledBytes 36 (v / 4)).drop 4)
  | _ => none

/-- The identifier is the text of the digest in it. -/
def isCanonicalCid (cid : Str) : Bool :=
  (parseCid cid).any fun h => cidFromBlake3Hash h = cid

inductive PublicationError where
  | invalidKey (key : Str)
  | invalidCid (cid : Str)
  | integrityMismatch (expected actual : Str)
  | durabilityUnconfirmed (cid : Str)
  | disappeared
  | io

/-- The message; `detail` is the text of the system's own error. -/
def PublicationError.message (detail : String) : PublicationError → String
  | invalidKey key => "invalid store key: " ++ String.ofList key
  | invalidCid cid => "publication requires canonical CIDv1/raw/BLAKE3-256: " ++ String.ofList cid
  | integrityMismatch expected actual =>
      "integrity check failed: expected " ++ String.ofList expected ++ ", got " ++ String.ofList actual
  | durabilityUnconfirmed cid =>
      "publication may exist for " ++ String.ofList cid ++ ", but durability is unconfirmed: " ++ detail
  | disappeared => "I/O error: publication destination disappeared; retry"
  | io => "I/O error: " ++ detail

/-- `name`: one component of a path, short enough. -/
def publicationName (key : Str) : Except PublicationError Unit :=
  if key = [] ∨ (String.ofList key).utf8ByteSize > 249 ∨ key = ['.'] ∨ key = ['.', '.'] ∨
      (key.any fun c => c = '/' || c = '\\' || c = '\x00') then
    .error (.invalidKey key)
  else .ok ()

/-- `canonical_cid`. -/
def canonicalCid (cid : Str) : Except PublicationError Unit := do
  publicationName cid
  if isCanonicalCid cid then .ok () else .error (.invalidCid cid)

/-- The end of `verify_file`, once all has been read. -/
def verifyFile [Blake3] (read : Bytes) (cid : Str) (expectedBlake3 : Option Str) :
    Except PublicationError Unit :=
  let hash := Blake3.hash read
  if expectedBlake3.any fun expected => hexEncode hash.bytes ≠ expected then
    .error (.integrityMismatch (expectedBlake3.getD []) (hexEncode hash.bytes))
  else if cidFromBlake3Hash hash ≠ cid then
    .error (.integrityMismatch cid (cidFromBlake3Hash hash))
  else .ok ()

/-! ### The root -/

/-- What the file system has under the root. -/
structure PublicationRoot where
  /-- The contents of the files, by inode. -/
  inodes : Map Nat Bytes
  /-- The final names. -/
  files : Map Str Nat
  /-- The staging directories, each with its `payload`. -/
  staging : Map Nat (Option Nat)

/-! ### A call -/

/-- A call of a store's function. -/
inductive PublicationCall where
  | put (cid : Str) (bytes : Bytes)
  /-- The callback may write what it likes to its own path. -/
  | publishWith (cid : Str) (expectedBlake3 : Option Str)
  | verifyExisting (cid : Str) (expectedBlake3 : Option Str)
  | delete (key : Str)
deriving DecidableEq

def PublicationCall.key : PublicationCall → Str
  | put cid _ | publishWith cid _ | verifyExisting cid _ | delete cid => cid

def PublicationCall.expectedBlake3 : PublicationCall → Option Str
  | put _ _ | delete _ => none
  | publishWith _ expected | verifyExisting _ expected => expected

/-- Whether the call is one that publishes. -/
def PublicationCall.publishes : PublicationCall → Bool
  | put _ _ | publishWith _ _ => true
  | verifyExisting _ _ | delete _ => false

/-- How far a call has come; `attempt` is its staging directory. -/
inductive PublicationPc where
  | start
  | staged (attempt : Nat)
  | writing (attempt : Nat)
  | written (attempt : Nat)
  /-- The payload is open and has been read so far. -/
  | checking (attempt inode : Nat) (read : Bytes)
  | checked (attempt inode : Nat)
  | synced (attempt : Nat)
  | linked (attempt : Nat)
  /-- The final name is taken, or `verify_existing` was called. -/
  | taken (attempt : Option Nat)
  | comparing (attempt : Option Nat) (inode : Nat) (read : Bytes)
  | compared (attempt : Option Nat) (inode : Nat)
  | flushed (attempt : Option Nat)
  /-- `delete` has found the file. -/
  | found
  | closing (attempt : Nat) (result : Except PublicationError Bool)
  | returned (result : Except PublicationError Bool)

/-- A call in progress. -/
structure RunningCall where
  call : PublicationCall
  pc : PublicationPc

/-- What a call does next, by system call. -/
inductive PublicationAction where
  /-- The next system call reports an error of another kind. -/
  | fails
  | makeStaging (attempt : Nat)
  | openStaging
  | createPayload (inode : Nat)
  | writePayload (content : Bytes)
  | writeReturns
  | openPayload
  /-- A read of the open file into a buffer of `n` bytes. -/
  | read (n : Nat)
  | syncFile
  | link
  | openFinal
  | syncDirectory
  | removePayload
  | removeStaging
  | unlink (key : Str)
deriving DecidableEq

/-- What is checked before the first system call. -/
def PublicationCall.enter [Blake3] (c : PublicationCall) : PublicationPc :=
  match c with
  | .put cid bytes =>
      match canonicalCid cid with
      | .error e => .returned (.error e)
      | .ok () =>
          if cidFromData bytes ≠ cid then
            .returned (.error (.integrityMismatch cid (cidFromData bytes)))
          else .start
  | .publishWith cid _ =>
      match canonicalCid cid with
      | .error e => .returned (.error e)
      | .ok () => .start
  | .verifyExisting cid _ =>
      match canonicalCid cid with
      | .error e => .returned (.error e)
      | .ok () => .taken none
  | .delete key =>
      match publicationName key with
      | .error e => .returned (.error e)
      | .ok () => .start

namespace RunningCall

/-- The end of the part that is done in a staging directory, if there is one. -/
def finish (attempt : Option Nat) (result : Except PublicationError Bool) : PublicationPc :=
  match attempt with
  | some attempt => .closing attempt result
  | none => .returned result

/-- What `verify_existing` returns is an answer of its own, or decides the publication. -/
def finishExisting (attempt : Option Nat) : Except PublicationError Bool → PublicationPc
  | .error e => finish attempt (.error e)
  | .ok present =>
      match attempt with
      | none => .returned (.ok present)
      | some attempt => .closing attempt (if present then .ok false else .error .disappeared)

/-- Whether the callback may write this content: `put` writes its bytes from the first on. -/
def mayWrite (c : PublicationCall) (content : Bytes) : Bool :=
  match c with
  | .put _ bytes => content.isPrefixOf bytes
  | _ => true

/-- Whether the callback may return: that of `put` does once all is written. -/
def mayReturn (c : PublicationCall) (content : Option Bytes) : Bool :=
  match c with
  | .put _ bytes => content = some bytes
  | _ => true

/-- One more read of an open file: what has been read, or the end. -/
def readMore (root : PublicationRoot) (inode : Nat) (read : Bytes) (n : Nat) : Option Bytes :=
  let more := (((root.inodes.lookup inode).getD []).drop read.length).take n
  if more = [] then none else some (read ++ more)

variable [Blake3]

/-- The next system call of a publication, up to the link. -/
def publish (root : PublicationRoot) (r : RunningCall) (a : PublicationAction) :
    Option (PublicationRoot × PublicationPc) :=
  match r.pc, a with
  | .start, .makeStaging attempt =>
      if (root.staging.lookup attempt).isSome then none
      else some ({ root with staging := root.staging.insert attempt none }, .staged attempt)
  | .start, .fails => some (root, .returned (.error .io))
  | .staged attempt, .openStaging => some (root, .writing attempt)
  | .staged attempt, .fails => some (root, .closing attempt (.error .io))
  | .writing attempt, .createPayload inode =>
      if root.staging.lookup attempt = some none ∧ (root.inodes.lookup inode).isNone then
        some ({ root with
          inodes := root.inodes.insert inode []
          staging := root.staging.insert attempt (some inode) }, .writing attempt)
      else none
  | .writing attempt, .writePayload content =>
      match root.staging.lookup attempt with
      | some (some inode) =>
          if mayWrite r.call content then
            some ({ root with inodes := root.inodes.insert inode content }, .writing attempt)
          else none
      | _ => none
  | .writing attempt, .writeReturns =>
      if mayReturn r.call (((root.staging.lookup attempt).bind id).bind root.inodes.lookup) then
        some (root, .written attempt)
      else none
  | .writing attempt, .fails => some (root, .closing attempt (.error .io))
  | .written attempt, .openPayload =>
      match root.staging.lookup attempt with
      | some (some inode) => some (root, .checking attempt inode [])
      | _ => some (root, .closing attempt (.error .io))
  | .written attempt, .fails => some (root, .closing attempt (.error .io))
  | .checking attempt inode read, .read n =>
      if n = 0 then none
      else
        match readMore root inode read n with
        | some read => some (root, .checking attempt inode read)
        | none =>
            match verifyFile read r.call.key r.call.expectedBlake3 with
            | .error e => some (root, .closing attempt (.error e))
            | .ok () => some (root, .checked attempt inode)
  | .checking attempt _ _, .fails => some (root, .closing attempt (.error .io))
  | .checked attempt _, .syncFile => some (root, .synced attempt)
  | .checked attempt _, .fails => some (root, .closing attempt (.error .io))
  | .synced attempt, .link =>
      match root.staging.lookup attempt with
      | some (some inode) =>
          if (root.files.lookup r.call.key).isSome then some (root, .taken (some attempt))
          else some ({ root with files := root.files.insert r.call.key inode }, .linked attempt)
      | _ => some (root, .closing attempt (.error .io))
  | .synced attempt, .fails => some (root, .closing attempt (.error .io))
  | .linked attempt, .syncDirectory => some (root, .closing attempt (.ok true))
  | .linked attempt, .fails =>
      some (root, .closing attempt (.error (.durabilityUnconfirmed r.call.key)))
  | .closing attempt result, .removePayload =>
      some ({ root with staging := root.staging.insert attempt none }, .closing attempt result)
  | .closing attempt result, .removeStaging =>
      some ({ root with staging := root.staging.erase attempt }, .returned result)
  -- A staging directory that cannot be removed stays, and the result with it.
  | .closing _ result, .fails => some (root, .returned result)
  | _, _ => none

/-- The next system call of `verify_existing`. -/
def compare (root : PublicationRoot) (r : RunningCall) (a : PublicationAction) :
    Option (PublicationRoot × PublicationPc) :=
  match r.pc, a with
  | .taken attempt, .openFinal =>
      match root.files.lookup r.call.key with
      | none => some (root, finishExisting attempt (.ok false))
      | some inode => some (root, .comparing attempt inode [])
  | .taken attempt, .fails => some (root, finishExisting attempt (.error .io))
  | .comparing attempt inode read, .read n =>
      if n = 0 then none
      else
        match readMore root inode read n with
        | some read => some (root, .comparing attempt inode read)
        | none =>
            match verifyFile read r.call.key r.call.expectedBlake3 with
            | .error e => some (root, finishExisting attempt (.error e))
            | .ok () => some (root, .compared attempt inode)
  | .comparing attempt _ _, .fails => some (root, finishExisting attempt (.error .io))
  | .compared attempt _, .syncFile => some (root, .flushed attempt)
  | .compared attempt _, .fails => some (root, finishExisting attempt (.error .io))
  | .flushed attempt, .syncDirectory => some (root, finishExisting attempt (.ok true))
  | .flushed attempt, .fails =>
      some (root, finishExisting attempt (.error (.durabilityUnconfirmed r.call.key)))
  | _, _ => none

omit [Blake3] in
/-- The next system call of `delete`. -/
def remove (root : PublicationRoot) (r : RunningCall) (a : PublicationAction) :
    Option (PublicationRoot × PublicationPc) :=
  match r.pc, a with
  | .start, .openFinal =>
      match root.files.lookup r.call.key with
      | none => some (root, .returned (.ok false))
      | some _ => some (root, .found)
  | .start, .fails => some (root, .returned (.error .io))
  | .found, .unlink key =>
      if key ≠ r.call.key then none
      else if (root.files.lookup key).isNone then some (root, .returned (.ok false))
      else some ({ root with files := root.files.erase key }, .returned (.ok true))
  | .found, .fails => some (root, .returned (.error .io))
  | _, _ => none

/-- The next system call. -/
def act (root : PublicationRoot) (r : RunningCall) (a : PublicationAction) :
    Option (PublicationRoot × PublicationPc) :=
  match r.call with
  | .put _ _ | .publishWith _ _ => (publish root r a).or (compare root r a)
  | .verifyExisting _ _ => compare root r a
  | .delete _ => remove root r a

end RunningCall

/-! ### All calls together -/

/-- The root, and the calls of all stores on it that have not crashed. -/
structure PublicationSystem where
  root : PublicationRoot
  calls : Map Nat RunningCall

inductive PublicationEvent where
  | enter (c : PublicationCall)
  | act (a : PublicationAction)
  | crash
deriving DecidableEq

/-- An event of the call with the given number. -/
structure PublicationLabel where
  id : Nat
  event : PublicationEvent
deriving DecidableEq

/-- One event. -/
def PublicationSystem.next [Blake3] (s : PublicationSystem) (l : PublicationLabel) :
    Option PublicationSystem :=
  match l.event with
  | .enter c =>
      if (s.calls.lookup l.id).isSome then none
      else some { s with calls := s.calls.insert l.id ⟨c, c.enter⟩ }
  | .crash =>
      if (s.calls.lookup l.id).isNone then none else some { s with calls := s.calls.erase l.id }
  | .act a =>
      match s.calls.lookup l.id with
      | none => none
      | some r =>
          (r.act s.root a).map fun (root, pc) => ⟨root, s.calls.insert l.id { r with pc }⟩

end Snip
