/-
Who may read a Private file, on both sides.

The serving side asks the chain for the file's row and looks the requester up in the
access list that comes with it (`sum-node/src/acl.rs`).  The downloading side looks
itself up page by page before it asks anyone (`sum-node/src/download_private.rs`).
-/
import Snip.Net.Correlation
import Snip.Node.PushValidator
import Snip.Store.SumStore

namespace Snip

/-- `bs58::encode(..).into_string()`. -/
class Bs58 where
  encode : Bytes → Str

/-- `l1_address_base58`: with a checksum of four bytes. -/
def l1AddressBase58 [Blake3] [Bs58] (addr : Addr) : Str :=
  let hash1 := Blake3.hash (beBytes 20 addr.val)
  let hash2 := Blake3.hash hash1.bytes
  Bs58.encode (beBytes 20 addr.val ++ hash2.bytes.take 4)

/-- `AccessEntryV2`. -/
structure AccessEntryV2 where
  address : Str
  encryptedKeyBundle : Option Str
  /-- The last block at which the access holds. -/
  expiresAt : Option Nat
deriving DecidableEq

/-- The row of a file, with the part of its access list that was asked for. -/
structure FileInfoPage extends StorageFileInfoV2 where
  accessList : List AccessEntryV2

/-- The queries of both sides; a list of the first version holds addresses only. -/
structure AccessRpc where
  storageGetFileInfoV2 : Str → Option Nat → Option Nat → Except Str (Option FileInfoPage)
  getAccessList : Str → Except Str (Option (List Str))
  chainGetBlockHeight : Except Str Nat

/-! ### The serving side -/

inductive NodeProfile where
  | production
  | dev
deriving DecidableEq

structure AclChecker where
  peerAddresses : Map PeerId Addr
  profile : NodeProfile

/-- `MANIFEST_REQUEST_PREFIX`. -/
def manifestRequestPrefix : Str := manifestCidPrefix

/-- `resolve_root`. -/
def resolveRoot (cid : Str) (manifestIndex : ManifestIndex) : Option Hash :=
  match manifestRequestPrefix.isPrefixOf? cid with
  | some hex => hexTo32 hex
  | none => manifestIndex.merkleRootForCid cid

/-- The root as the queries spell it. -/
def fileRootHex (root : Hash) : Str := '0' :: 'x' :: hexEncode root.bytes

namespace AclChecker

/-- `uncertain_branch_allows`. -/
def uncertainBranchAllows (acl : AclChecker) : Bool := acl.profile = .dev

variable [Blake3] [Bs58]

/-- `check_access_v2`: the height is only asked for where the entry expires. -/
def checkAccessV2 (acl : AclChecker) (rpc : AccessRpc) (peerId : PeerId) (info : FileInfoPage) :
    Except Str Bool :=
  if info.visibility.isPublic then .ok true
  else
    match acl.peerAddresses.lookup peerId with
    | none => .ok false
    | some addr =>
        match info.accessList.find? (·.address = l1AddressBase58 addr) with
        | none => .ok false
        | some entry =>
            match entry.expiresAt with
            | none => .ok true
            | some expiresAt =>
                match rpc.chainGetBlockHeight with
                | .error e => .error e
                | .ok head => .ok (¬ head > expiresAt)

/-- `check_access`: only a file the second version has no row of is looked up in the first. -/
def checkAccess (acl : AclChecker) (rpc : AccessRpc) (peerId : PeerId) (cid : Str)
    (manifestIndex : ManifestIndex) : Except Str Bool :=
  match resolveRoot cid manifestIndex with
  | none => .ok acl.uncertainBranchAllows
  | some root =>
      match rpc.storageGetFileInfoV2 (fileRootHex root) none none with
      | .error e => .error e
      | .ok (some info) => acl.checkAccessV2 rpc peerId info
      | .ok none =>
          match rpc.getAccessList (fileRootHex root) with
          | .error e => .error e
          | .ok none => .ok acl.uncertainBranchAllows
          | .ok (some accessList) =>
              if accessList = [] then .ok true
              else
                match acl.peerAddresses.lookup peerId with
                | none => .ok false
                | some addr => .ok (l1AddressBase58 addr ∈ accessList)

/-- `check_access_or_default`. -/
def checkAccessOrDefault (acl : AclChecker) (rpc : AccessRpc) (peerId : PeerId) (cid : Str)
    (manifestIndex : ManifestIndex) : Bool :=
  match acl.checkAccess rpc peerId cid manifestIndex with
  | .ok allowed => allowed
  | .error _ => acl.profile = .dev

end AclChecker

/-! ### The downloading side -/

/-- The ways the search and the check of the expiry fail. -/
inductive AccessError where
  | noAccess (addrB58 root : Str)
  | accessExpired (expiresAt current : Nat)
  | rpc (e : Str)
deriving DecidableEq

def AccessError.message : AccessError → String
  | noAccess addrB58 root =>
      "requester " ++ String.ofList addrB58 ++ " has no access entry on file " ++
        String.ofList root ++ "; ask the file owner to AddAccess this address first"
  | accessExpired expiresAt current =>
      "access expired: expires_at=" ++ toString expiresAt ++ " (finalized height " ++
        toString current ++ " > expires_at)"
  | rpc e => "RPC error: " ++ String.ofList e

/-- `ACCESS_PAGE_SIZE`. -/
def accessPageSize : Nat := 256

/-- `ACCESS_MAX_PAGES`. -/
def accessMaxPages : Nat := 64

/-- The loop over the pages after the first; a short page or none at all ends it. -/
def findInPages (rpc : AccessRpc) (rootHex myAddrB58 : Str) :
    List Nat → Except AccessError AccessEntryV2
  | [] => .error (.noAccess myAddrB58 rootHex)
  | pageIdx :: rest =>
      match rpc.storageGetFileInfoV2 rootHex (some (pageIdx * accessPageSize))
          (some accessPageSize) with
      | .error e => .error (.rpc e)
      | .ok none => .error (.noAccess myAddrB58 rootHex)
      | .ok (some page) =>
          match page.accessList.find? (·.address = myAddrB58) with
          | some entry => .ok entry
          | none =>
              if page.accessList.length < accessPageSize then .error (.noAccess myAddrB58 rootHex)
              else findInPages rpc rootHex myAddrB58 rest

/-- `find_my_access_entry`: the first page is at hand. -/
def findMyAccessEntry (rpc : AccessRpc) (rootHex myAddrB58 : Str) (firstPage : FileInfoPage) :
    Except AccessError AccessEntryV2 :=
  match firstPage.accessList.find? (·.address = myAddrB58) with
  | some entry => .ok entry
  | none =>
      if firstPage.accessList.length < accessPageSize then .error (.noAccess myAddrB58 rootHex)
      else findInPages rpc rootHex myAddrB58 (List.range' 1 (accessMaxPages - 1))

/-- `check_access_expiry`. -/
def checkAccessExpiry (entry : AccessEntryV2) (finalizedHeight : Nat) : Except AccessError Unit :=
  match entry.expiresAt with
  | none => .ok ()
  | some expiresAt =>
      if finalizedHeight > expiresAt then .error (.accessExpired expiresAt finalizedHeight)
      else .ok ()

end Snip
