/-
Serving and downloading side decide alike, but for the recipients past the first page.

The search over the pages finds the first entry of the whole list, as long as the list
has no more pages than the search visits.  The serving side finds the first entry of the
first page.  The two differ exactly on a recipient whose first entry comes later and has
not expired: it is entitled, and no node serves it.
-/
import Mathlib.Data.Nat.Digits.Lemmas
import Snip.Blake3
import Snip.Node.Acl
import Snip.Proofs.ContentId

namespace Snip

/-! ### The pages of a list -/

/-- The chain holds this row for the root, with this access list, and stands at this height. -/
structure AccessRpc.Serves (rpc : AccessRpc) (rootHex : Str) (row : StorageFileInfoV2)
    (list : List AccessEntryV2) (head : Nat) : Prop where
  /-- Without a window the chain answers with the first 256 entries. -/
  firstPage : rpc.storageGetFileInfoV2 rootHex none none
    = .ok (some ⟨row, list.take accessPageSize⟩)
  page : ∀ offset limit, rpc.storageGetFileInfoV2 rootHex (some offset) (some limit)
    = .ok (some ⟨row, (list.drop offset).take limit⟩)
  height : rpc.chainGetBlockHeight = .ok head

/-- The first entry of an address. -/
def entryOf (list : List AccessEntryV2) (address : Str) : Option AccessEntryV2 :=
  list.find? (·.address = address)

theorem entryOf_split (list : List AccessEntryV2) (address : Str) (n : Nat) :
    entryOf list address = (entryOf (list.take n) address).or (entryOf (list.drop n) address) := by
  unfold entryOf
  rw [← List.find?_append, List.take_append_drop]

/-- The result of a search, as the search reports it. -/
def found (rootHex address : Str) : Option AccessEntryV2 → Except AccessError AccessEntryV2
  | some entry => .ok entry
  | none => .error (.noAccess address rootHex)

/-- The pages from `k` on hold the rest of the list. -/
theorem findInPages_eq {rpc : AccessRpc} {rootHex address : Str} {row : StorageFileInfoV2}
    {list : List AccessEntryV2} {head : Nat} (h : rpc.Serves rootHex row list head) :
    ∀ n k, list.length ≤ (k + n) * accessPageSize →
      findInPages rpc rootHex address (List.range' k n)
        = found rootHex address (entryOf (list.drop (k * accessPageSize)) address) := by
  intro n
  induction n with
  | zero =>
      intro k hlen
      rw [List.drop_eq_nil_of_le (by simpa using hlen)]
      rfl
  | succ n ih =>
      intro k hlen
      have hnext : (list.drop (k * accessPageSize)).drop accessPageSize
          = list.drop ((k + 1) * accessPageSize) := by
        rw [List.drop_drop, Nat.succ_mul]
      have hrest := ih (k + 1) (by rw [Nat.add_right_comm, Nat.add_assoc]; exact hlen)
      rw [entryOf_split _ _ accessPageSize, hnext, List.range'_succ]
      simp only [findInPages, h.page]
      cases hpage : entryOf ((list.drop (k * accessPageSize)).take accessPageSize) address with
      | some entry =>
          unfold entryOf at hpage
          rw [hpage]
          rfl
      | none =>
          unfold entryOf at hpage
          rw [hpage, Option.none_or]
          dsimp only
          split
          · -- a short page is the last one
            rename_i hshort
            rw [List.length_take, List.length_drop] at hshort
            rw [List.drop_eq_nil_of_le (by rw [Nat.succ_mul]; omega)]
            rfl
          · exact hrest

/-- **The search finds the first entry of the list**, however many pages it is on. -/
theorem findMyAccessEntry_eq {rpc : AccessRpc} {rootHex address : Str} {row : StorageFileInfoV2}
    {list : List AccessEntryV2} {head : Nat} (h : rpc.Serves rootHex row list head)
    (hlen : list.length ≤ accessMaxPages * accessPageSize) :
    findMyAccessEntry rpc rootHex address ⟨row, list.take accessPageSize⟩
      = found rootHex address (entryOf list address) := by
  have hpages : findInPages rpc rootHex address (List.range' 1 (accessMaxPages - 1))
      = found rootHex address (entryOf (list.drop (1 * accessPageSize)) address) :=
    findInPages_eq h _ 1 hlen
  rw [entryOf_split list address accessPageSize]
  unfold findMyAccessEntry
  cases hpage : entryOf (list.take accessPageSize) address with
  | some entry =>
      unfold entryOf at hpage
      rw [hpage]
      rfl
  | none =>
      unfold entryOf at hpage
      rw [hpage, Option.none_or]
      dsimp only
      split
      · rename_i hshort
        rw [List.length_take] at hshort
        rw [List.drop_eq_nil_of_le (by omega)]
        rfl
      · rw [hpages, Nat.one_mul]

/-! ### The two decisions -/

/-- The access has not expired at this height. -/
def AccessEntryV2.Valid (entry : AccessEntryV2) (head : Nat) : Prop :=
  ∀ expiresAt, entry.expiresAt = some expiresAt → head ≤ expiresAt

theorem checkAccessExpiry_ok_iff {entry : AccessEntryV2} {head : Nat} :
    checkAccessExpiry entry head = .ok () ↔ entry.Valid head := by
  unfold checkAccessExpiry AccessEntryV2.Valid
  cases entry.expiresAt with
  | none => simp
  | some expiresAt => simp

/-- An entry of the address is there, and the first one is valid. -/
def Admits (list : List AccessEntryV2) (address : Str) (head : Nat) : Prop :=
  ∃ entry, entryOf list address = some entry ∧ entry.Valid head

/-- What the downloading side makes of the chain: it has an entry, and it holds. -/
def DownloadEntitled (rpc : AccessRpc) (rootHex address : Str) : Prop :=
  ∃ firstPage head entry, rpc.storageGetFileInfoV2 rootHex none none = .ok (some firstPage) ∧
    rpc.chainGetBlockHeight = .ok head ∧
    findMyAccessEntry rpc rootHex address firstPage = .ok entry ∧
    checkAccessExpiry entry head = .ok ()

theorem downloadEntitled_iff {rpc : AccessRpc} {rootHex address : Str} {row : StorageFileInfoV2}
    {list : List AccessEntryV2} {head : Nat} (h : rpc.Serves rootHex row list head)
    (hlen : list.length ≤ accessMaxPages * accessPageSize) :
    DownloadEntitled rpc rootHex address ↔ Admits list address head := by
  have hfound : ∀ entry, found rootHex address (entryOf list address) = .ok entry ↔
      entryOf list address = some entry := by
    intro entry
    cases entryOf list address with
    | none => simp [found]
    | some e => simp [found]
  unfold DownloadEntitled Admits
  constructor
  · rintro ⟨firstPage, head', entry, hpage, hheight, hentry, hexpiry⟩
    rw [h.firstPage] at hpage
    rw [h.height] at hheight
    cases hpage
    cases hheight
    rw [findMyAccessEntry_eq h hlen] at hentry
    exact ⟨entry, (hfound entry).mp hentry, checkAccessExpiry_ok_iff.mp hexpiry⟩
  · rintro ⟨entry, hentry, hvalid⟩
    refine ⟨_, head, entry, h.firstPage, h.height, ?_, checkAccessExpiry_ok_iff.mpr hvalid⟩
    rw [findMyAccessEntry_eq h hlen]
    exact (hfound entry).mpr hentry

section

variable [Blake3] [Bs58]

/-- **The serving side looks at the first page only.** -/
theorem checkAccess_ok_iff {acl : AclChecker} {rpc : AccessRpc} {peerId : PeerId} {addr : Addr}
    {cid : Str} {manifestIndex : ManifestIndex} {root : Hash} {row : StorageFileInfoV2}
    {list : List AccessEntryV2} {head : Nat}
    (hpeer : acl.peerAddresses.lookup peerId = some addr)
    (hroot : resolveRoot cid manifestIndex = some root)
    (hchain : rpc.Serves (fileRootHex root) row list head)
    (hprivate : row.visibility.isPrivate = true) :
    acl.checkAccess rpc peerId cid manifestIndex = .ok true ↔
      Admits (list.take accessPageSize) (l1AddressBase58 addr) head := by
  have hpublic : row.visibility.isPublic = false := by
    have hone : row.visibility = 1 := by simpa [VisibilityV2.isPrivate] using hprivate
    rw [hone]
    rfl
  simp only [AclChecker.checkAccess, hroot, hchain.firstPage, AclChecker.checkAccessV2, hpublic,
    hpeer, hchain.height]
  unfold Admits
  cases hpage : entryOf (list.take accessPageSize) (l1AddressBase58 addr) with
  | none =>
      unfold entryOf at hpage
      simp [hpage]
  | some entry =>
      unfold entryOf at hpage
      rw [hpage]
      cases hexpires : entry.expiresAt with
      | none => simp [AccessEntryV2.Valid, hexpires]
      | some expiresAt => simp [AccessEntryV2.Valid, hexpires]

end

/-- The first entry of the address comes after the first page, and it is valid. -/
def ListedLate (list : List AccessEntryV2) (address : Str) (head : Nat) : Prop :=
  entryOf (list.take accessPageSize) address = none ∧
    Admits (list.drop accessPageSize) address head

theorem admits_agree_iff {list : List AccessEntryV2} {address : Str} {head : Nat} :
    (Admits (list.take accessPageSize) address head ↔ Admits list address head) ↔
      ¬ ListedLate list address head := by
  unfold ListedLate Admits
  rw [entryOf_split list address accessPageSize]
  cases entryOf (list.take accessPageSize) address with
  | some entry => simp
  | none => simp

/--
**The serving side admits whom the downloading side calls entitled, exactly if it is not
listed late.**  For every Private row, access list, peer with an address, height and
request that the node's index resolves to the file.
-/
theorem access_sides_agree_iff [Blake3] [Bs58] {acl : AclChecker} {rpc : AccessRpc}
    {peerId : PeerId} {addr : Addr} {cid : Str} {manifestIndex : ManifestIndex} {root : Hash}
    {row : StorageFileInfoV2} {list : List AccessEntryV2} {head : Nat}
    (hpeer : acl.peerAddresses.lookup peerId = some addr)
    (hroot : resolveRoot cid manifestIndex = some root)
    (hchain : rpc.Serves (fileRootHex root) row list head)
    (hprivate : row.visibility.isPrivate = true)
    (hlen : list.length ≤ accessMaxPages * accessPageSize) :
    (acl.checkAccess rpc peerId cid manifestIndex = .ok true ↔
        DownloadEntitled rpc (fileRootHex root) (l1AddressBase58 addr)) ↔
      ¬ ListedLate list (l1AddressBase58 addr) head := by
  rw [checkAccess_ok_iff hpeer hroot hchain hprivate, downloadEntitled_iff hchain hlen]
  exact admits_agree_iff

/-! ### A recipient on the second page -/

/-- The digits of base 58, lowest first in value. -/
def base58Alphabet : Str := "123456789ABCDEFGHJKLMNPQRSTUVWXYZabcdefghijkmnopqrstuvwxyz".toList

def base58Digit (d : Nat) : Char := base58Alphabet.getD d '1'

/-- A `1` for every zero byte in front, then the number the bytes spell. -/
@[reducible] def Bs58.bitcoin : Bs58 :=
  ⟨fun bytes => (bytes.takeWhile (· = 0)).map (fun _ => '1') ++
    (Nat.digits 58 (beValue bytes)).reverse.map base58Digit⟩

theorem base58Digit_ne_one : ∀ d < 58, d ≠ 0 → base58Digit d ≠ '1' := by
  decide

/-- A chain with one file. -/
def AccessRpc.oneFile (row : StorageFileInfoV2) (list : List AccessEntryV2) (head : Nat) :
    AccessRpc :=
  { storageGetFileInfoV2 := fun _ offset limit =>
      .ok (some ⟨row, (list.drop (offset.getD 0)).take (limit.getD accessPageSize)⟩)
    getAccessList := fun _ => .ok none
    chainGetBlockHeight := .ok head }

theorem AccessRpc.oneFile_serves (row : StorageFileInfoV2) (list : List AccessEntryV2)
    (head : Nat) (rootHex : Str) : (AccessRpc.oneFile row list head).Serves rootHex row list head := by
  refine ⟨rfl, ?_, rfl⟩
  intro offset limit
  rfl

/-- A Private file that every request for its manifest resolves to. -/
def privateRow : StorageFileInfoV2 := ⟨fileRootHex Hash.zero, 3, 19, 1, 7, 1, 1⟩

def privateManifestCid : Str := manifestRequestPrefix ++ hexEncode Hash.zero.bytes

/-- The node that knows peer 1 as the address zero. -/
def aclOfPeerOne : AclChecker := ⟨(∅ : Map PeerId Addr).insert 1 0, .production⟩

theorem resolveRoot_privateManifestCid (manifestIndex : ManifestIndex) :
    resolveRoot privateManifestCid manifestIndex = some Hash.zero := by
  have hhex : manifestRequestPrefix.isPrefixOf? privateManifestCid
      = some (hexEncode Hash.zero.bytes) := by decide
  simp only [resolveRoot, hhex]
  exact hexTo32_hexEncode Hash.zero

/-- The text of the address zero starts with the digit for zero. -/
theorem l1AddressBase58_zero [Blake3] :
    letI := Bs58.bitcoin
    (l1AddressBase58 0).head? = some '1' := by
  rfl

/-- An address whose first byte is not zero starts with another digit. -/
theorem l1AddressBase58_ne_zero [Blake3] {addr : Addr} (h : 256 ^ 19 ≤ addr.val) :
    letI := Bs58.bitcoin
    l1AddressBase58 addr ≠ l1AddressBase58 0 := by
  let _ := Bs58.bitcoin
  intro heq
  have hhead : (l1AddressBase58 addr).head? = some '1' := by
    rw [heq]
    exact l1AddressBase58_zero
  have hbyte : UInt8.ofNat (addr.val / 256 ^ 19 % 256) ≠ 0 := by
    have hlt := addr.isLt
    intro hzero
    have hval := congrArg UInt8.toNat hzero
    rw [UInt8.toNat_ofNat', UInt8.toNat_zero] at hval
    omega
  unfold l1AddressBase58 at hhead
  dsimp only at hhead
  rw [beBytes_succ, List.cons_append] at hhead
  generalize beBytes 19 addr.val ++ _ = rest at hhead
  generalize UInt8.ofNat (addr.val / 256 ^ 19 % 256) = x at hbyte hhead
  have hvalue : beValue (x :: rest) ≠ 0 := by
    rw [beValue_cons]
    have hx : 0 < x.toNat := Nat.pos_of_ne_zero fun h0 => hbyte (UInt8.toNat_inj.mp h0)
    have hpow : 0 < 256 ^ rest.length := Nat.pow_pos (by norm_num)
    have hmul := Nat.mul_pos hx hpow
    omega
  have hnil : Nat.digits 58 (beValue (x :: rest)) ≠ [] := Nat.digits_ne_nil_iff_ne_zero.mpr hvalue
  have hlast := Nat.getLast_digit_ne_zero 58 hvalue
  have hlt : (Nat.digits 58 (beValue (x :: rest))).getLast hnil < 58 :=
    Nat.digits_lt_base (by norm_num) (List.getLast_mem hnil)
  have hdigit := base58Digit_ne_one _ hlt hlast
  have htext : Bs58.encode (x :: rest)
      = (Nat.digits 58 (beValue (x :: rest))).reverse.map base58Digit := by
    show ((x :: rest).takeWhile (· = 0)).map (fun _ => '1') ++ _ = _
    rw [List.takeWhile_cons_of_neg (by simpa using hbyte)]
    rfl
  rw [htext, List.head?_map, List.head?_reverse, List.getLast?_eq_some_getLast hnil] at hhead
  exact hdigit (Option.some.inj hhead)

/-- The 256 highest addresses come first, then the address zero; no access expires. -/
def longAccessList [Blake3] [Bs58] : List AccessEntryV2 :=
  (List.range 256).map (fun i => ⟨l1AddressBase58 (Fin.rev (Fin.ofNat _ i)), none, none⟩) ++
    [⟨l1AddressBase58 0, none, none⟩]

theorem longAccessList_listedLate [Blake3] :
    letI := Bs58.bitcoin
    ListedLate longAccessList (l1AddressBase58 0) 0 := by
  let _ := Bs58.bitcoin
  have htake : longAccessList.take accessPageSize = (List.range 256).map fun i =>
      ⟨l1AddressBase58 (Fin.rev (Fin.ofNat _ i)), none, none⟩ :=
    List.take_left' (by simp [accessPageSize])
  have hdrop : longAccessList.drop accessPageSize = [⟨l1AddressBase58 0, none, none⟩] :=
    List.drop_left' (by simp [accessPageSize])
  refine ⟨?_, ?_⟩
  · rw [htake]
    unfold entryOf
    rw [List.find?_eq_none]
    intro entry hentry
    obtain ⟨i, hi, rfl⟩ := List.mem_map.mp hentry
    rw [decide_eq_true_iff]
    refine l1AddressBase58_ne_zero ?_
    have hi : i < 256 := List.mem_range.mp hi
    rw [Fin.val_rev, Fin.val_ofNat]
    omega
  · rw [hdrop]
    refine ⟨⟨l1AddressBase58 0, none, none⟩, ?_, ?_⟩
    · simp [entryOf]
    · intro expiresAt hexpires
      cases hexpires

/-- The index of a node that has stored nothing. -/
def freshIndex : ManifestIndex :=
  ⟨⟨∅, ∅, ∅, [], [], none, false⟩, ∅, ∅, ∅, ∅, [], ∅, ∅, none⟩

/-- The only entry of a list holds up to its last block, for both sides. -/
theorem last_block_admitted :
    letI := Blake3.reference
    letI := Bs58.bitcoin
    let list : List AccessEntryV2 := [⟨l1AddressBase58 0, none, some 5⟩]
    let rpc := AccessRpc.oneFile privateRow list 5
    aclOfPeerOne.checkAccess rpc 1 privateManifestCid freshIndex = .ok true ↔
      DownloadEntitled rpc (fileRootHex Hash.zero) (l1AddressBase58 0) := by
  let _ := Blake3.reference
  let _ := Bs58.bitcoin
  refine (access_sides_agree_iff rfl (resolveRoot_privateManifestCid _)
    (AccessRpc.oneFile_serves _ _ _ _) rfl ?_).mpr ?_
  · decide
  · rintro ⟨-, entry, hentry, -⟩
    cases hentry

/-- The recipient listed as the 257th is entitled, and refused. -/
theorem second_page_refused :
    letI := Blake3.reference
    letI := Bs58.bitcoin
    let rpc := AccessRpc.oneFile privateRow longAccessList 0
    rpc.Serves (fileRootHex Hash.zero) privateRow longAccessList 0 ∧
    longAccessList.length ≤ accessMaxPages * accessPageSize ∧
    aclOfPeerOne.checkAccess rpc 1 privateManifestCid freshIndex ≠ .ok true ∧
    DownloadEntitled rpc (fileRootHex Hash.zero) (l1AddressBase58 0) := by
  generalize Blake3.reference = b
  let _ := Bs58.bitcoin
  have hlate : ListedLate longAccessList (l1AddressBase58 0) 0 := longAccessList_listedLate
  have hlen : longAccessList.length ≤ accessMaxPages * accessPageSize := by
    simp [longAccessList, accessMaxPages, accessPageSize]
  have hserves := AccessRpc.oneFile_serves privateRow longAccessList 0 (fileRootHex Hash.zero)
  refine ⟨hserves, hlen, ?_, ?_⟩
  · intro hok
    have hadmits := (checkAccess_ok_iff rfl
      (resolveRoot_privateManifestCid freshIndex) hserves rfl).mp hok
    obtain ⟨entry, hentry, -⟩ := hadmits
    rw [hlate.1] at hentry
    cases hentry
  · refine (downloadEntitled_iff hserves hlen).mpr ?_
    obtain ⟨entry, hentry, hvalid⟩ := hlate.2
    refine ⟨entry, ?_, hvalid⟩
    rw [entryOf_split _ _ accessPageSize, hlate.1, Option.none_or]
    exact hentry

/-! ### What a grant rests on -/

section

variable [Blake3] [Bs58]

/-- The access the peer's first entry in the row gives, at the height the chain answers. -/
def RowAdmits (acl : AclChecker) (rpc : AccessRpc) (peerId : PeerId) (info : FileInfoPage) :
    Prop :=
  ∃ addr entry, acl.peerAddresses.lookup peerId = some addr ∧
    entryOf info.accessList (l1AddressBase58 addr) = some entry ∧
    ∀ expiresAt, entry.expiresAt = some expiresAt →
      ∃ head, rpc.chainGetBlockHeight = .ok head ∧ head ≤ expiresAt

/-- A list of the first version admits everyone if it is empty. -/
def ListAdmits (acl : AclChecker) (peerId : PeerId) (accessList : List Str) : Prop :=
  accessList = [] ∨
    ∃ addr, acl.peerAddresses.lookup peerId = some addr ∧ l1AddressBase58 addr ∈ accessList

/--
What a grant may rest on: a Public row, an entry in a row that `closed` holds of, or
no row of the second version and a list of the first.
-/
def GrantRests (closed : VisibilityV2 → Bool) (acl : AclChecker) (rpc : AccessRpc)
    (peerId : PeerId) (cid : Str) (manifestIndex : ManifestIndex) : Prop :=
  ∃ root, resolveRoot cid manifestIndex = some root ∧
    ((∃ info, rpc.storageGetFileInfoV2 (fileRootHex root) none none = .ok (some info) ∧
        (info.visibility.isPublic = true ∨
          closed info.visibility = true ∧ RowAdmits acl rpc peerId info)) ∨
      (rpc.storageGetFileInfoV2 (fileRootHex root) none none = .ok none ∧
        ∃ accessList, rpc.getAccessList (fileRootHex root) = .ok (some accessList) ∧
          ListAdmits acl peerId accessList))

/-- Every row that is not Public is held to its access list. -/
def VisibilityV2.notPublic (v : VisibilityV2) : Bool := !v.isPublic

theorem checkAccessV2_ok_true_iff {acl : AclChecker} {rpc : AccessRpc} {peerId : PeerId}
    {info : FileInfoPage} :
    acl.checkAccessV2 rpc peerId info = .ok true ↔
      info.visibility.isPublic = true ∨
        info.visibility.notPublic = true ∧ RowAdmits acl rpc peerId info := by
  unfold AclChecker.checkAccessV2 VisibilityV2.notPublic RowAdmits entryOf
  cases hpublic : info.visibility.isPublic with
  | true => simp
  | false =>
      cases hpeer : acl.peerAddresses.lookup peerId with
      | none => simp
      | some addr =>
          cases hentry : info.accessList.find? (·.address = l1AddressBase58 addr) with
          | none => simp [hentry]
          | some entry =>
              cases hexpires : entry.expiresAt with
              | none => simp [hentry, hexpires]
              | some expiresAt =>
                  cases hhead : rpc.chainGetBlockHeight with
                  | error e => simp [hentry, hexpires]
                  | ok head => simp [hentry, hexpires]

theorem checkAccess_ok_true_iff {acl : AclChecker} {rpc : AccessRpc} {peerId : PeerId}
    {cid : Str} {manifestIndex : ManifestIndex} (hprofile : acl.profile = .production) :
    acl.checkAccess rpc peerId cid manifestIndex = .ok true ↔
      GrantRests VisibilityV2.notPublic acl rpc peerId cid manifestIndex := by
  have huncertain : acl.uncertainBranchAllows = false := by
    simp [AclChecker.uncertainBranchAllows, hprofile]
  unfold AclChecker.checkAccess GrantRests
  cases hroot : resolveRoot cid manifestIndex with
  | none => simp [huncertain]
  | some root =>
      cases hrow : rpc.storageGetFileInfoV2 (fileRootHex root) none none with
      | error e => simp [hrow]
      | ok row =>
          cases row with
          | some info => simp [hrow, checkAccessV2_ok_true_iff]
          | none =>
              cases hlist : rpc.getAccessList (fileRootHex root) with
              | error e => simp [hrow, hlist]
              | ok list =>
                  cases list with
                  | none => simp [hrow, hlist, huncertain]
                  | some accessList =>
                      by_cases hempty : accessList = []
                      · simp [hrow, hlist, hempty, ListAdmits]
                      · cases hpeer : acl.peerAddresses.lookup peerId with
                        | none => simp [hrow, hlist, hempty, hpeer, ListAdmits]
                        | some addr => simp [hrow, hlist, hempty, hpeer, ListAdmits]

/--
**In production a grant rests on an answer of the chain,** and on nothing else: both
entry points grant exactly where a Public row, an entry in a row that is not Public, or
the absence of a row together with a list of the first version allows it.
-/
theorem production_grants_iff (acl : AclChecker) (hprofile : acl.profile = .production)
    (rpc : AccessRpc) (peerId : PeerId) (cid : Str) (manifestIndex : ManifestIndex) :
    (acl.checkAccess rpc peerId cid manifestIndex = .ok true ↔
      GrantRests VisibilityV2.notPublic acl rpc peerId cid manifestIndex) ∧
    (acl.checkAccessOrDefault rpc peerId cid manifestIndex = true ↔
      GrantRests VisibilityV2.notPublic acl rpc peerId cid manifestIndex) := by
  refine ⟨checkAccess_ok_true_iff hprofile, ?_⟩
  rw [← checkAccess_ok_true_iff hprofile]
  unfold AclChecker.checkAccessOrDefault
  cases hcheck : acl.checkAccess rpc peerId cid manifestIndex with
  | error e => simp [hprofile]
  | ok allowed => simp

end

/-- The row of a file whose visibility byte is neither 0 nor 1. -/
def otherRow : StorageFileInfoV2 := { privateRow with visibility := 2 }

theorem private_entry_granted :
    letI := Blake3.reference
    letI := Bs58.bitcoin
    let rpc := AccessRpc.oneFile privateRow [⟨l1AddressBase58 0, none, some 5⟩] 5
    aclOfPeerOne.checkAccessOrDefault rpc 1 privateManifestCid freshIndex = true := by
  let _ := Blake3.reference
  let _ := Bs58.bitcoin
  refine (production_grants_iff aclOfPeerOne rfl _ _ _ _).2.mpr
    ⟨Hash.zero, resolveRoot_privateManifestCid freshIndex,
      Or.inl ⟨⟨privateRow, [⟨l1AddressBase58 0, none, some 5⟩]⟩, rfl, Or.inr ⟨rfl, ?_⟩⟩⟩
  refine ⟨0, ⟨l1AddressBase58 0, none, some 5⟩, rfl, ?_, ?_⟩
  · simp [entryOf]
  · intro expiresAt hexpires
    cases hexpires
    exact ⟨5, rfl, Nat.le_refl 5⟩

/-- A row with an unknown visibility byte is held to its access list as a Private one is. -/
theorem other_row_granted :
    letI := Blake3.reference
    letI := Bs58.bitcoin
    let rpc := AccessRpc.oneFile otherRow [⟨l1AddressBase58 0, none, none⟩] 5
    aclOfPeerOne.checkAccessOrDefault rpc 1 privateManifestCid freshIndex = true ∧
      ¬GrantRests VisibilityV2.isPrivate aclOfPeerOne rpc 1 privateManifestCid freshIndex := by
  let _ := Blake3.reference
  let _ := Bs58.bitcoin
  have hadmits : RowAdmits aclOfPeerOne
      (AccessRpc.oneFile otherRow [⟨l1AddressBase58 0, none, none⟩] 5) 1
      ⟨otherRow, [⟨l1AddressBase58 0, none, none⟩]⟩ := by
    refine ⟨0, ⟨l1AddressBase58 0, none, none⟩, rfl, ?_, ?_⟩
    · simp [entryOf]
    · intro expiresAt hexpires
      cases hexpires
  refine ⟨?_, ?_⟩
  · have hrests : GrantRests VisibilityV2.notPublic aclOfPeerOne
        (AccessRpc.oneFile otherRow [⟨l1AddressBase58 0, none, none⟩] 5) 1 privateManifestCid
        freshIndex :=
      ⟨Hash.zero, resolveRoot_privateManifestCid freshIndex,
        Or.inl ⟨_, rfl, Or.inr ⟨rfl, hadmits⟩⟩⟩
    have hok := (checkAccess_ok_true_iff rfl).mpr hrests
    unfold AclChecker.checkAccessOrDefault
    rw [hok]
  · rintro ⟨root, -, ⟨info, hrow, hvisible⟩ | ⟨hrow, -⟩⟩
    · cases hrow
      rcases hvisible with hpublic | ⟨hprivate, -⟩
      · cases hpublic
      · cases hprivate
    · cases hrow

end Snip
