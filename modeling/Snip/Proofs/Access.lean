/-
What stands before a change of the access list.

The log of a command has at most one transaction in it, however the chain answers, and
what was read before that transaction justifies it.  The search through the pages is the
only loop: it either meets the address, or has read the pages from the first on up to a
short one, to one that is not there, or to the cap, and the address is on none of them.
Where all pages come from one list, that is the whole list.
-/
import Snip.Lib.Lists
import Snip.Node.Access
import Snip.Proofs.Acl
import Snip.Proofs.Attestor
import Snip.Proofs.PrivateArtifacts

namespace Snip

open Dialogue

/-! ### What was read -/

/-- Page `i` of the access list was asked for, and this came. -/
def pageRead (rootHex : Str) (i : Nat) (answer : Option OwnedFilePage) : AccessCall :=
  .fileInfo rootHex (some (i * accessPageSize)) (some accessPageSize) (.ok answer)

/-- The address is not on the page. -/
def OwnedFilePage.Misses (page : OwnedFilePage) (target : Str) : Prop :=
  ∀ entry ∈ page.accessList, entry.address ≠ target

/-- The first `n` pages were read; all are full, and the address is on none. -/
def PassedPages (rootHex target : Str) (n : Nat) (log : List AccessCall) : Prop :=
  ∀ i, i < n → ∃ page, pageRead rootHex i (some page) ∈ log ∧
    accessPageSize ≤ page.accessList.length ∧ page.Misses target

/-- The pages were read to the end, and the address is on none. -/
inductive Unlisted (rootHex target : Str) (log : List AccessCall) : Prop where
  | capped (h : PassedPages rootHex target accessMaxPages log)
  | short (n : Nat) (page : OwnedFilePage) (hn : n < accessMaxPages)
      (h : PassedPages rootHex target n log) (hread : pageRead rootHex n (some page) ∈ log)
      (hshort : page.accessList.length < accessPageSize) (hmiss : page.Misses target)
  | gone (n : Nat) (hn : n < accessMaxPages) (h : PassedPages rootHex target n log)
      (hread : pageRead rootHex n none ∈ log)

/-- The address has this entry on a page that was read. -/
structure Listed (rootHex target : Str) (entry : AccessEntryV2) (log : List AccessCall) :
    Prop where
  onPage : ∃ i page, i < accessMaxPages ∧ pageRead rootHex i (some page) ∈ log ∧
    entry ∈ page.accessList
  address : entry.address = target

/-- All pages are of this one list; there is no page where it has ended. -/
structure ServedFrom (rootHex : Str) (list : List AccessEntryV2) (log : List AccessCall) :
    Prop where
  page : ∀ i page, pageRead rootHex i (some page) ∈ log →
    page.accessList = (list.drop (i * accessPageSize)).take accessPageSize
  ended : ∀ i, pageRead rootHex i none ∈ log → list.length ≤ i * accessPageSize

/-- What the result of a search says. -/
def Searched (rootHex target : Str) (log : List AccessCall) : Option AccessEntryV2 → Prop
  | none => Unlisted rootHex target log
  | some entry => Listed rootHex target entry log

section

variable {rootHex target : Str} {log log' : List AccessCall}

theorem PassedPages.mono {n : Nat} (h : PassedPages rootHex target n log) (hsub : log ⊆ log') :
    PassedPages rootHex target n log' := by
  intro i hi
  obtain ⟨page, hread, hfull, hmiss⟩ := h i hi
  exact ⟨page, hsub hread, hfull, hmiss⟩

theorem PassedPages.succ {n : Nat} {page : OwnedFilePage} (h : PassedPages rootHex target n log)
    (hread : pageRead rootHex n (some page) ∈ log)
    (hfull : accessPageSize ≤ page.accessList.length) (hmiss : page.Misses target) :
    PassedPages rootHex target (n + 1) log := by
  intro i hi
  by_cases hlast : i = n
  · subst hlast
    exact ⟨page, hread, hfull, hmiss⟩
  · exact h i (by omega)

theorem Unlisted.mono (h : Unlisted rootHex target log) (hsub : log ⊆ log') :
    Unlisted rootHex target log' := by
  cases h with
  | capped h => exact .capped (h.mono hsub)
  | short n page hn h hread hshort hmiss =>
      exact .short n page hn (h.mono hsub) (hsub hread) hshort hmiss
  | gone n hn h hread => exact .gone n hn (h.mono hsub) (hsub hread)

theorem Listed.mono {entry : AccessEntryV2} (h : Listed rootHex target entry log)
    (hsub : log ⊆ log') : Listed rootHex target entry log' := by
  obtain ⟨i, page, hi, hread, hentry⟩ := h.onPage
  exact ⟨⟨i, page, hi, hsub hread, hentry⟩, h.address⟩

/-! ### One list behind the pages -/

/-- An entry of the list is on a page that was passed, or beyond all of them. -/
theorem PassedPages.not_mem {n : Nat} {list : List AccessEntryV2}
    (h : PassedPages rootHex target n log) (hserved : ServedFrom rootHex list log)
    {entry : AccessEntryV2} {k : Nat} (hentry : list[k]? = some entry)
    (hk : k < n * accessPageSize) : entry.address ≠ target := by
  have hpage : k / accessPageSize < n := Nat.div_lt_of_lt_mul (by rwa [Nat.mul_comm])
  obtain ⟨page, hread, -, hmiss⟩ := h _ hpage
  refine hmiss entry ?_
  rw [hserved.page _ page hread]
  exact Lists.mem_page_of_getElem? (by decide) hentry

/-- **A list within the cap that was read to the end lists the address nowhere.** -/
theorem Unlisted.not_mem {list : List AccessEntryV2} (h : Unlisted rootHex target log)
    (hserved : ServedFrom rootHex list log)
    (hcap : list.length ≤ accessMaxPages * accessPageSize) :
    ∀ entry ∈ list, entry.address ≠ target := by
  intro entry hentry
  obtain ⟨k, hk⟩ := List.getElem?_of_mem hentry
  have hlt : k < list.length := (List.getElem?_eq_some_iff.mp hk).1
  cases h with
  | capped h => exact h.not_mem hserved hk (by omega)
  | short n page hn h hread hshort hmiss =>
      have hpage := hserved.page n page hread
      have hlength : list.length < (n + 1) * accessPageSize := by
        rw [hpage, List.length_take, List.length_drop] at hshort
        rw [Nat.succ_mul]
        omega
      by_cases hbefore : k < n * accessPageSize
      · exact h.not_mem hserved hk hbefore
      · -- the entry is on the short page itself
        have hdiv : k / accessPageSize = n := by
          refine Nat.div_eq_of_lt_le (by omega) (by omega)
        refine hmiss entry ?_
        rw [hpage, ← hdiv]
        exact Lists.mem_page_of_getElem? (by decide) hk
  | gone n hn h hread =>
      have hended := hserved.ended n hread
      exact h.not_mem hserved hk (by omega)

theorem Listed.mem {entry : AccessEntryV2} {list : List AccessEntryV2}
    (h : Listed rootHex target entry log) (hserved : ServedFrom rootHex list log) :
    entry ∈ list := by
  obtain ⟨i, page, -, hread, hentry⟩ := h.onPage
  rw [hserved.page i page hread] at hentry
  exact List.mem_of_mem_drop (List.mem_of_mem_take hentry)

end

/-! ### The reads -/

section

variable {σ : Type} (rpc : L1RpcClient σ)

/-- What the first read of the command shows: the finalized height is past the activation. -/
def V2Enabled (log : List AccessCall) : Prop :=
  ∃ h height, AccessCall.chainParams (.ok (some h)) ∈ log ∧
    AccessCall.blockHeight (.ok height) ∈ log ∧ h ≤ height

/-- The row is a Private file's, Active, and its owner's text is this. -/
structure OwnRow (rootHex operatorB58 : Str) (info : OwnedFilePage) (log : List AccessCall) :
    Prop where
  read : pageRead rootHex 0 (some info) ∈ log
  isPrivate : info.visibility.isPrivate = true
  isActive : info.lifecycle.isActive = true
  owner : info.owner = operatorB58

theorem V2Enabled.mono {log log' : List AccessCall} (h : V2Enabled log) (hsub : log ⊆ log') :
    V2Enabled log' := by
  obtain ⟨from', height, hparams, hheight, hle⟩ := h
  exact ⟨from', height, hsub hparams, hsub hheight, hle⟩

theorem OwnRow.mono {rootHex operatorB58 : Str} {info : OwnedFilePage} {log log' : List AccessCall}
    (h : OwnRow rootHex operatorB58 info log) (hsub : log ⊆ log') :
    OwnRow rootHex operatorB58 info log' :=
  ⟨hsub h.read, h.isPrivate, h.isActive, h.owner⟩

theorem requireV2Enabled_spec :
    Gathers AccessCall.sent? (requireV2Enabled rpc) fun log _ => V2Enabled log := by
  refine Gathers.bind (.query fun _ => rfl) ?_
  rintro _ v2EnabledFromHeight rfl
  refine Gathers.bind (.query fun _ => rfl) ?_
  rintro _ height rfl
  cases v2EnabledFromHeight with
  | none => exact .throw
  | some h =>
      by_cases hlow : height < h
      · simp only [if_pos hlow]
        exact .throw
      · simp only [if_neg hlow]
        refine .pure ⟨h, height, ?_, ?_, by omega⟩
        · simp
        · simp

theorem askPage_spec (rootHex : Str) (i : Nat) :
    Gathers AccessCall.sent? (askPage rpc rootHex (i * accessPageSize)) fun log answer =>
      log = [pageRead rootHex i answer] :=
  .query fun _ => rfl

theorem requirePrivateV2Owner_spec (rootHex operatorB58 : Str) :
    Gathers AccessCall.sent? (requirePrivateV2Owner rpc rootHex operatorB58) fun log info =>
      OwnRow rootHex operatorB58 info log := by
  have hfirst := askPage_spec rpc rootHex 0
  rw [Nat.zero_mul] at hfirst
  refine Gathers.bind hfirst ?_
  rintro _ answer rfl
  cases answer with
  | none => exact .throw
  | some info =>
      by_cases hprivate : info.visibility.isPrivate = true
      · by_cases hactive : info.lifecycle.isActive = true
        · by_cases howner : info.owner = operatorB58
          · simp only [hprivate, hactive, howner, Bool.not_true, Bool.false_eq_true, if_false,
              ne_eq, not_true_eq_false]
            exact .pure ⟨List.mem_cons_self, hprivate, hactive, howner⟩
          · simp only [hprivate, hactive, Bool.not_true, Bool.false_eq_true, if_false, ne_eq,
              howner, not_false_eq_true, if_true]
            exact .throw
        · simp only [hprivate, Bool.not_true, Bool.false_eq_true, if_false, hactive, Bool.not_false,
            if_true]
          exact .throw
      · simp only [hprivate, Bool.not_false, if_true]
        exact .throw

/-! ### The search -/

theorem page_misses_of_find?_eq_none {page : OwnedFilePage} {target : Str}
    (h : page.accessList.find? (·.address = target) = none) : page.Misses target := by
  intro entry hentry
  simpa using List.find?_eq_none.mp h entry hentry

theorem listed_of_find? {rootHex target : Str} {log : List AccessCall} {i : Nat}
    {page : OwnedFilePage} {entry : AccessEntryV2} (hi : i < accessMaxPages)
    (hread : pageRead rootHex i (some page) ∈ log)
    (h : page.accessList.find? (·.address = target) = some entry) :
    Listed rootHex target entry log := by
  refine ⟨⟨i, page, hi, hread, List.mem_of_find?_eq_some h⟩, ?_⟩
  simpa using List.find?_some h

/--
Induction on the pages that are left: the next one ends the search, or it is passed, and the rest
goes on from a longer log.
-/
theorem findAccessEntryFrom_spec (rootHex target : Str) (left : Nat) :
    ∀ (n : Nat) (before : List AccessCall), n + left = accessMaxPages →
      PassedPages rootHex target n before →
      Gathers AccessCall.sent? (findAccessEntryFrom rpc rootHex target (List.range' n left))
        fun log out => Searched rootHex target (before ++ log) out := by
  induction left with
  | zero =>
      intro n before hcap hpassed
      refine .pure ?_
      rw [List.append_nil]
      rw [Nat.add_zero] at hcap
      rw [hcap] at hpassed
      exact .capped hpassed
  | succ left ih =>
      intro n before hcap hpassed
      have hn : n < accessMaxPages := by omega
      rw [List.range'_succ]
      refine Gathers.bind (askPage_spec rpc rootHex n) ?_
      rintro _ answer rfl
      have hpassed' := hpassed.mono (List.subset_append_left before [pageRead rootHex n answer])
      have hread : pageRead rootHex n answer ∈ before ++ [pageRead rootHex n answer] := by simp
      cases answer with
      | none => exact .pure (.gone n hn hpassed' hread)
      | some page =>
          cases hfind : page.accessList.find? (·.address = target) with
          | some entry =>
              simp only [hfind]
              exact .pure (listed_of_find? hn hread hfind)
          | none =>
              have hmiss := page_misses_of_find?_eq_none hfind
              simp only [hfind]
              by_cases hshort : page.accessList.length < accessPageSize
              · rw [if_pos hshort]
                exact .pure (.short n page hn hpassed' hread hshort hmiss)
              · rw [if_neg hshort]
                refine (ih (n + 1) _ (by omega)
                  (hpassed'.succ hread (by omega) hmiss)).mono ?_
                intro log out hout
                rw [List.append_assoc] at hout
                exact hout

theorem findAccessEntry_spec (rootHex target : Str) {info : OwnedFilePage}
    {before : List AccessCall} (hread : pageRead rootHex 0 (some info) ∈ before) :
    Gathers AccessCall.sent? (findAccessEntry rpc rootHex target info) fun log out =>
      Searched rootHex target (before ++ log) out := by
  have hpos : 0 < accessMaxPages := by decide
  have hread' : pageRead rootHex 0 (some info) ∈ before ++ [] := by simpa using hread
  have hnone : PassedPages rootHex target 0 (before ++ []) := by
    intro i hi
    omega
  unfold findAccessEntry
  cases hfind : info.accessList.find? (·.address = target) with
  | some entry => exact .pure (listed_of_find? hpos hread' hfind)
  | none =>
      have hmiss := page_misses_of_find?_eq_none hfind
      by_cases hshort : info.accessList.length < accessPageSize
      · simp only [if_pos hshort]
        exact .pure (.short 0 info hpos hnone hread' hshort hmiss)
      · simp only [if_neg hshort]
        refine findAccessEntryFrom_spec rpc rootHex target (accessMaxPages - 1) 1 before (by decide) ?_
        rw [List.append_nil] at hread' hnone
        exact hnone.succ hread' (by omega) hmiss

/-! ### The transaction -/

theorem submitAndWait_spec (operatorB58 : Str) (clock : List Nat) (buildTx : Nat → Str) :
    Commits AccessCall.sent? (submitAndWait rpc operatorB58 clock buildTx) fun before hex =>
      ∃ nonce, AccessCall.nonce operatorB58 (.ok nonce) ∈ before ∧ hex = buildTx nonce := by
  refine Gathers.commits (.query fun _ => rfl) ?_
  rintro _ nonce rfl
  refine Commits.bind (.query (k := buildTx nonce) (fun _ => rfl) ?_) ?_
  · exact ⟨nonce, List.mem_cons_self, rfl⟩
  · intro txHash
    have hwait : Ensures (Dialogue.relabel AccessCall.submission (waitForFinalized rpc.submission
        txHash (clock.headD 0 + finalityTimeout) clock.tail)) fun log _ =>
        Quiet AccessCall.sent? log := by
      refine .relabel ((waitForFinalized_quiet rpc.submission txHash _ _).mono ?_)
      intro log _ hquiet call hcall
      obtain ⟨inner, hinner, rfl⟩ := List.mem_map.mp hcall
      exact hquiet inner hinner
    refine Gathers.bind (Gathers.lift hwait) ?_
    intro _ waited _
    cases waited with
    | error e => exact .throw
    | ok height => exact .pure trivial

end

/-! ### What justifies a transaction -/

section

variable [Blake3] [Bs58] [SumchainWire] [OperationWire]

/-- What each command has read: the second version is on, and the file is the signer's to change. -/
structure MayChange (seed merkleRoot : Hash) (before : List AccessCall) : Prop where
  enabled : V2Enabled before
  row : ∃ info, OwnRow (fileRootHex merkleRoot) (l1AddressBase58 (ownAddress seed)) info before

/-- The entry has a bundle, and the secret of the seed opens it to this key. -/
def WrapsFor [CryptoLib] (seed : Hash) (entry : AccessEntryV2) (kFile : Hash) : Prop :=
  ∃ (text : Str) (bundle : Bundle80) (secret : Hash), entry.encryptedKeyBundle = some text ∧
    hexDecode (withoutHexMark text) = some bundle.bytes ∧ x25519Secret seed = some secret ∧
    unwrapForSelf bundle secret (ownAddress seed) = .ok kFile

omit [Blake3] [Bs58] [OperationWire] in
/-- An entry wraps one key. -/
theorem WrapsFor.unique [CryptoLib] {seed kFile kFile' : Hash} {entry : AccessEntryV2}
    (h : WrapsFor seed entry kFile) (h' : WrapsFor seed entry kFile') : kFile = kFile' := by
  obtain ⟨text, bundle, secret, htext, hbundle, hsecret, hopen⟩ := h
  obtain ⟨text', bundle', secret', htext', hbundle', hsecret', hopen'⟩ := h'
  obtain rfl := Option.some.inj (htext.symm.trans htext')
  obtain rfl := Option.some.inj (hsecret.symm.trans hsecret')
  have hsame : bundle = bundle' := by
    cases bundle
    cases bundle'
    cases hbundle.symm.trans hbundle'
    rfl
  rw [hsame] at hopen
  exact Except.ok.inj (hopen.symm.trans hopen')

/-- Whoever has the secret of the registered key opens the bundle, where the two shared agree. -/
def OpensFor [CryptoLib] (ephSeed recipientPk : Hash) (address : Addr) (bundle : Bundle80)
    (kFile : Hash) : Prop :=
  ∀ secret, recipientPk = CryptoLib.publicKey secret →
    CryptoLib.diffieHellman ephSeed (CryptoLib.publicKey secret)
      = CryptoLib.diffieHellman secret (CryptoLib.publicKey ephSeed) →
    unwrapForSelf bundle secret address = .ok kFile

/-- A bundle for the recipient's registered key, with what the owner's own bundle wraps. -/
def SharesOwnersKey [CryptoLib] (seed merkleRoot ephSeed : Hash) (recipient : RecipientSpec)
    (before : List AccessCall) (bundle : Bundle80) : Prop :=
  ∃ (recipientPk kFile : Hash) (entry : AccessEntryV2),
    AccessCall.encryptionKey recipient.addrB58 (.ok (some recipientPk)) ∈ before ∧
    Listed (fileRootHex merkleRoot) (l1AddressBase58 (ownAddress seed)) entry before ∧
    WrapsFor seed entry kFile ∧ OpensFor ephSeed recipientPk recipient.addr bundle kFile

/-- What stands before the transaction of a `share`. -/
structure ShareJustified [CryptoLib] (seed : Hash) (chainId fee : Nat) (merkleRoot ephSeed : Hash)
    (recipient : RecipientSpec) (before : List AccessCall) (hex : Str) : Prop where
  mayChange : MayChange seed merkleRoot before
  unlisted : Unlisted (fileRootHex merkleRoot) recipient.addrB58 before
  onNoPage : ∀ list, ServedFrom (fileRootHex merkleRoot) list before →
    list.length ≤ accessMaxPages * accessPageSize →
    ∀ entry ∈ list, entry.address ≠ recipient.addrB58
  transaction : ∃ nonce bundle,
    AccessCall.nonce (l1AddressBase58 (ownAddress seed)) (.ok nonce) ∈ before ∧
    SharesOwnersKey seed merkleRoot ephSeed recipient before bundle ∧
    hex = buildAddAccessV2Tx seed chainId nonce fee merkleRoot
      ⟨recipient.addr, some bundle, recipient.expiry.toChainValue⟩

/-- The entry that a command found. -/
structure FoundEntry (merkleRoot : Hash) (target : RecipientSpec) (before : List AccessCall)
    (entry : AccessEntryV2) : Prop where
  listed : Listed (fileRootHex merkleRoot) target.addrB58 entry before
  onList : ∀ list, ServedFrom (fileRootHex merkleRoot) list before → entry ∈ list

/-- What stands before the transaction of a `revoke`. -/
structure RevokeJustified (seed : Hash) (chainId fee : Nat) (merkleRoot : Hash)
    (target : RecipientSpec) (before : List AccessCall) (hex : Str) : Prop where
  mayChange : MayChange seed merkleRoot before
  found : ∃ entry, FoundEntry merkleRoot target before entry
  notOwner : target.addr ≠ ownAddress seed
  /-- Nor is the text the one in the row. -/
  notOwnerText : Function.Injective (Bs58.encode) →
    target.addrB58 ≠ l1AddressBase58 (ownAddress seed)
  transaction : ∃ nonce,
    AccessCall.nonce (l1AddressBase58 (ownAddress seed)) (.ok nonce) ∈ before ∧
    hex = buildRemoveAccessV2Tx seed chainId nonce fee merkleRoot target.addr

/-- What stands before the transaction of an `update-access`. -/
structure UpdateJustified (seed : Hash) (chainId fee : Nat) (merkleRoot : Hash)
    (target : RecipientSpec) (before : List AccessCall) (hex : Str) : Prop where
  mayChange : MayChange seed merkleRoot before
  asked : target.expiry ≠ .unset
  /-- The bundle is the listed one, byte for byte, and the expiry is another. -/
  transaction : ∃ entry text nonce bundle, FoundEntry merkleRoot target before entry ∧
    entry.expiresAt ≠ target.expiry.toChainValue ∧
    entry.encryptedKeyBundle = some text ∧
    hexDecode (withoutHexMark text) = some bundle.bytes ∧
    AccessCall.nonce (l1AddressBase58 (ownAddress seed)) (.ok nonce) ∈ before ∧
    hex = buildUpdateAccessV2Tx seed chainId nonce fee merkleRoot target.addr
      ⟨target.addr, some bundle, target.expiry.toChainValue⟩

omit [OperationWire] in
theorem MayChange.mono {seed merkleRoot : Hash} {log log' : List AccessCall}
    (h : MayChange seed merkleRoot log) (hsub : log ⊆ log') : MayChange seed merkleRoot log' := by
  obtain ⟨info, hrow⟩ := h.row
  exact ⟨h.enabled.mono hsub, info, hrow.mono hsub⟩

omit [SumchainWire] [OperationWire] in
theorem foundEntry_of_searched {merkleRoot : Hash} {target : RecipientSpec}
    {log log' : List AccessCall} {entry : AccessEntryV2}
    (h : Searched (fileRootHex merkleRoot) target.addrB58 log (some entry)) (hsub : log ⊆ log') :
    FoundEntry merkleRoot target log' entry := by
  have hlisted : Listed (fileRootHex merkleRoot) target.addrB58 entry log' := Listed.mono h hsub
  exact ⟨hlisted, fun list hserved => hlisted.mem hserved⟩

omit [Bs58] [OperationWire] [Blake3] in
/-- A text is read as the bundle that it spells, and as no other. -/
theorem bundleOfHex_ok_iff {ε : Type} {bundleHex : String → ε} {text : Str} {bundle : Bundle80} :
    bundleOfHex bundleHex text = .ok bundle ↔
      hexDecode (withoutHexMark text) = some bundle.bytes := by
  unfold bundleOfHex Bundle80.ofBytes?
  cases hbytes : hexDecode (withoutHexMark text) with
  | none => simp
  | some bytes =>
      by_cases hsize : bytes.length = recipientBundleSize
      · simp only [dif_pos hsize, Except.ok.injEq, Option.some.injEq]
        constructor
        · rintro rfl
          rfl
        · rintro rfl
          rfl
      · simp only [dif_neg hsize, reduceCtorEq, false_iff, Option.some.injEq]
        rintro rfl
        exact hsize bundle.size

omit [Bs58] [OperationWire] [Blake3] in
theorem unwrapOwnerEntry_eq_ok [CryptoLib] {seed kFile : Hash} {entry : AccessEntryV2}
    (h : unwrapOwnerEntry seed (ownAddress seed) entry = .ok kFile) :
    WrapsFor seed entry kFile := by
  unfold unwrapOwnerEntry at h
  cases hentry : entry.encryptedKeyBundle with
  | none => simp [hentry] at h
  | some text =>
      cases hbundle : parseBundleHex text with
      | error e => simp [hentry, hbundle] at h
      | ok bundle =>
          cases hsecret : x25519Secret seed with
          | none => simp [hentry, hbundle, hsecret] at h
          | some secret =>
              cases hkey : unwrapForSelf bundle secret (ownAddress seed) with
              | error e => simp [hentry, hbundle, hsecret, hkey] at h
              | ok kFile' =>
                  simp only [hentry, hbundle, hsecret, hkey, Except.ok.injEq] at h
                  rw [h] at hkey
                  exact ⟨text, bundle, secret, hentry, bundleOfHex_ok_iff.mp hbundle, hsecret, hkey⟩

omit [Blake3] [Bs58] [SumchainWire] [OperationWire] in
theorem opensFor_of_wrap [CryptoLib] (haead : CryptoLib.Inverts) {ephSeed kFile recipientPk : Hash}
    {address : Addr} {bundle : Bundle80}
    (h : wrapForRecipient ephSeed kFile address recipientPk = some (.ok bundle)) :
    OpensFor ephSeed recipientPk address bundle kFile := by
  intro secret hpk hagree
  rw [hpk] at h
  exact unwrapForSelf_of_wrap haead hagree h

omit [SumchainWire] [OperationWire] in
theorem l1AddressBase58_injective (h : Function.Injective (Bs58.encode)) :
    Function.Injective l1AddressBase58 := by
  intro a b hab
  have hbytes := (List.append_inj (h hab) (by rw [beBytes_length, beBytes_length])).1
  have hvalue : ∀ c : Addr, beValue (beBytes 20 c.val) = c.val := by
    intro c
    rw [beValue_beBytes]
    exact Nat.mod_eq_of_lt c.isLt
  have hval : a.val = b.val := by
    rw [← hvalue a, ← hvalue b, hbytes]
  exact Fin.ext hval

/-! ### The commands -/

variable {σ : Type} (rpc : L1RpcClient σ)

omit [OperationWire] in
/-- The two reads that every command begins with; `f` goes on from their log. -/
theorem commits_of_mayChange (seed merkleRoot : Hash) {Q : List AccessCall → Str → Prop}
    {f : OwnedFilePage → AccessM σ Unit}
    (hf : ∀ info log, MayChange seed merkleRoot log →
      pageRead (fileRootHex merkleRoot) 0 (some info) ∈ log →
      Commits AccessCall.sent? (f info) fun before hex => Q (log ++ before) hex) :
    Commits AccessCall.sent? (do
      requireV2Enabled rpc
      let info ← requirePrivateV2Owner rpc (fileRootHex merkleRoot)
        (l1AddressBase58 (ownAddress seed))
      f info) Q := by
  refine Gathers.commits (requireV2Enabled_spec rpc) ?_
  intro log1 _ henabled
  refine Gathers.commits (requirePrivateV2Owner_spec rpc _ _) ?_
  intro log2 info hrow
  have hmay : MayChange seed merkleRoot (log1 ++ log2) :=
    ⟨henabled.mono (List.subset_append_left _ _), info, hrow.mono (List.subset_append_right _ _)⟩
  refine (hf info _ hmay (List.mem_append_right _ hrow.read)).mono ?_
  intro before hex h
  rw [List.append_assoc] at h
  exact h

omit [Blake3] [Bs58] [OperationWire] in
theorem recoverKFileFromOwnerBundle_spec [CryptoLib] (seed : Hash) (ownerB58 rootHex : Str)
    {info : OwnedFilePage} {before : List AccessCall}
    (hread : pageRead rootHex 0 (some info) ∈ before) :
    Gathers AccessCall.sent?
      (recoverKFileFromOwnerBundle rpc seed (ownAddress seed) ownerB58 info rootHex)
      fun log kFile => ∃ entry, Listed rootHex ownerB58 entry (before ++ log) ∧
        WrapsFor seed entry kFile := by
  refine Gathers.bind (findAccessEntry_spec rpc rootHex ownerB58 hread) ?_
  intro log found hfound
  cases found with
  | none => exact .throw
  | some entry =>
      refine Gathers.orStop.mono ?_
      rintro _ kFile ⟨rfl, hunwrap⟩
      rw [List.append_nil]
      exact ⟨entry, hfound, unwrapOwnerEntry_eq_ok hunwrap⟩

theorem runShare_spec [CryptoLib] (haead : CryptoLib.Inverts) (seed : Hash) (chainId fee : Nat)
    (merkleRoot : Hash) (recipient : RecipientSpec) (ephSeed : Hash) (clock : List Nat) :
    Commits AccessCall.sent?
      (runShare rpc seed chainId fee merkleRoot recipient ephSeed clock)
      (ShareJustified seed chainId fee merkleRoot ephSeed recipient) := by
  refine commits_of_mayChange rpc seed merkleRoot ?_
  intro info log0 hmay hread
  refine Gathers.commits (findAccessEntry_spec rpc _ recipient.addrB58 hread) ?_
  intro log1 found hfound
  cases found with
  | some entry => exact .throw
  | none =>
  refine Gathers.commits (.query fun _ => rfl) ?_
  rintro _ answer rfl
  cases answer with
  | none => exact .throw
  | some recipientPk =>
  refine Gathers.commits (recoverKFileFromOwnerBundle_spec rpc seed _ _ hread) ?_
  rintro log2 kFile ⟨entry, hlisted, hwraps⟩
  cases hwrap : wrapForRecipient ephSeed kFile recipient.addr recipientPk with
  | none => exact .throw
  | some wrapped =>
  cases wrapped with
  | error e => exact .throw
  | ok bundle =>
  refine (Commits.bind (submitAndWait_spec rpc _ clock _) fun _ => .pure trivial).mono ?_
  rintro before hex ⟨nonce, hnonce, rfl⟩
  have hunlisted : Unlisted (fileRootHex merkleRoot) recipient.addrB58 (log0 ++ log1) := hfound
  have hearly : log0 ++ log1 ⊆ log0 ++ (log1 ++ ([AccessCall.encryptionKey recipient.addrB58
      (.ok (some recipientPk))] ++ (log2 ++ before))) := by
    rw [← List.append_assoc]
    exact List.subset_append_left _ _
  have hunlisted' := hunlisted.mono hearly
  refine ⟨hmay.mono ?_, hunlisted', fun list hserved => hunlisted'.not_mem hserved, nonce, bundle,
    ?_, ⟨recipientPk, kFile, entry, ?_, hlisted.mono ?_, hwraps, opensFor_of_wrap haead hwrap⟩, rfl⟩
  · exact List.subset_append_left _ _
  · simp [hnonce]
  · simp
  · intro call hcall
    simp only [List.mem_append] at hcall ⊢
    tauto

theorem runRevoke_spec (seed : Hash) (chainId fee : Nat) (merkleRoot : Hash)
    (target : RecipientSpec) (clock : List Nat) :
    Commits AccessCall.sent? (runRevoke rpc seed chainId fee merkleRoot target clock)
      (RevokeJustified seed chainId fee merkleRoot target) := by
  refine commits_of_mayChange rpc seed merkleRoot ?_
  intro info log0 hmay hread
  by_cases howner : target.addr = ownAddress seed
  · rw [if_pos howner]
    exact .throw
  · rw [if_neg howner]
    refine Gathers.commits (findAccessEntry_spec rpc _ target.addrB58 hread) ?_
    intro log1 found hfound
    cases found with
    | none => exact .throw
    | some entry =>
        refine (Commits.bind (submitAndWait_spec rpc _ clock _) fun _ => .pure trivial).mono ?_
        rintro before hex ⟨nonce, hnonce, rfl⟩
        refine ⟨hmay.mono (List.subset_append_left _ _), ⟨entry, foundEntry_of_searched hfound ?_⟩,
          howner, ?_, nonce, ?_, rfl⟩
        · rw [← List.append_assoc]
          exact List.subset_append_left _ _
        · intro hinjective htext
          exact howner (l1AddressBase58_injective hinjective htext)
        · simp [hnonce]

theorem runUpdateAccess_spec (seed : Hash) (chainId fee : Nat) (merkleRoot : Hash)
    (target : RecipientSpec) (clock : List Nat) :
    Commits AccessCall.sent? (runUpdateAccess rpc seed chainId fee merkleRoot target clock)
      (UpdateJustified seed chainId fee merkleRoot target) := by
  unfold runUpdateAccess
  by_cases hunset : target.expiry = .unset
  · simp only [if_pos hunset]
    exact .throw
  · simp only [if_neg hunset]
    refine commits_of_mayChange rpc seed merkleRoot ?_
    intro info log0 hmay hread
    refine Gathers.commits (findAccessEntry_spec rpc _ target.addrB58 hread) ?_
    intro log1 found hfound
    cases found with
    | none => exact .throw
    | some entry =>
    by_cases hsame : entry.expiresAt = target.expiry.toChainValue
    · simp only [if_pos hsame]
      exact .throw
    · simp only [if_neg hsame]
      cases htext : entry.encryptedKeyBundle with
      | none => exact .throw
      | some text =>
          refine Gathers.commits .orStop ?_
          rintro _ bundle ⟨rfl, hparse⟩
          refine (Commits.bind (submitAndWait_spec rpc _ clock _) fun _ => .pure trivial).mono ?_
          rintro before hex ⟨nonce, hnonce, rfl⟩
          refine ⟨hmay.mono (List.subset_append_left _ _), hunset, entry, text, nonce, bundle,
            foundEntry_of_searched hfound ?_, hsame, htext, bundleOfHex_ok_iff.mp hparse, ?_, rfl⟩
          · rw [← List.append_assoc]
            exact List.subset_append_left _ _
          · simp [hnonce]

/-- At most one transaction, and wherever it stands, what is before it justifies it. -/
structure SubmitsOnce (justified : List AccessCall → Str → Prop) (log : List AccessCall) :
    Prop where
  once : (log.filterMap AccessCall.sent?).length ≤ 1
  before : ∀ before call after hex, log = before ++ call :: after →
    call.sent? = some hex → justified before hex

omit [Blake3] [Bs58] [SumchainWire] [OperationWire] in
theorem SubmitsOnce.of_commits {m : AccessM σ Unit} {justified : List AccessCall → Str → Prop}
    (h : Commits AccessCall.sent? m justified) (node : σ) :
    SubmitsOnce justified (m.run node).2.1 := by
  have honce := h node
  refine ⟨honce.length_le, ?_⟩
  intro before call after hex hlog hsent
  rw [hlog] at honce
  exact honce.at hsent

/-- The three commands for one file and one address, whatever node answers. -/
structure AccessGuarded [CryptoLib] (seed : Hash) (chainId fee : Nat) (merkleRoot : Hash)
    (target : RecipientSpec) (ephSeed : Hash) (clock : List Nat) (node : σ) : Prop where
  share : SubmitsOnce (ShareJustified seed chainId fee merkleRoot ephSeed target)
    ((runShare rpc seed chainId fee merkleRoot target ephSeed clock).run node).2.1
  revoke : SubmitsOnce (RevokeJustified seed chainId fee merkleRoot target)
    ((runRevoke rpc seed chainId fee merkleRoot target clock).run node).2.1
  update : SubmitsOnce (UpdateJustified seed chainId fee merkleRoot target)
    ((runUpdateAccess rpc seed chainId fee merkleRoot target clock).run node).2.1

/--
**An access list is changed once at a time, by the owner, and no reader is given a wrong key.**
The node behind the RPC is any state and any answers out of it.
-/
theorem access_guarded [CryptoLib] (haead : CryptoLib.Inverts) (seed : Hash) (chainId fee : Nat)
    (merkleRoot : Hash) (target : RecipientSpec) (ephSeed : Hash) (clock : List Nat) (node : σ) :
    AccessGuarded rpc seed chainId fee merkleRoot target ephSeed clock node :=
  ⟨.of_commits (runShare_spec rpc haead seed chainId fee merkleRoot target ephSeed clock) node,
    .of_commits (runRevoke_spec rpc seed chainId fee merkleRoot target clock) node,
    .of_commits (runUpdateAccess_spec rpc seed chainId fee merkleRoot target clock) node⟩

end

/-! ### A share with a second reader -/

/-- The owner's secret, of the seed `[1; 32]`. -/
def ownersSecret : Hash :=
  ⟨CryptoReference.hkdf [] (Hash.fill 1).bytes (utf8 "snip-x25519-encryption-key-v1".toList) 32,
    by decide +kernel⟩

theorem ownersKey_agrees :
    CryptoReference.diffieHellman (Hash.fill 3) (CryptoReference.publicKey ownersSecret)
      = CryptoReference.diffieHellman ownersSecret (CryptoReference.publicKey (Hash.fill 3)) := by
  decide +kernel

theorem ownersKey_contributes :
    CryptoReference.diffieHellman (Hash.fill 3) (CryptoReference.publicKey ownersSecret)
      ≠ Hash.zero := by
  decide +kernel

/-- A chain with one Private file, which lists its owner only, and with one key. -/
def ownerOnlyRpc [Blake3] [Bs58] (owner : Addr) (bundleHex : Str) (recipientPk : Hash) :
    L1RpcClient Unit where
  chainGetChainParams node := (.ok (some 5), node)
  chainGetBlockHeight node := (.ok 7, node)
  storageGetFileInfoV2 rootHex _ _ node :=
    (.ok (some ⟨⟨⟨rootHex, 3, 19, 1, 5, 1, 1⟩, [⟨l1AddressBase58 owner, some bundleHex, none⟩]⟩,
      l1AddressBase58 owner⟩), node)
  accountGetEncryptionPublicKey _ node := (.ok (some recipientPk), node)
  getNonce _ node := (.ok 0, node)
  submission := { deafRpc with
    sendRawTransaction := fun _ node => (.ok [], node)
    getTransactionStatus := fun _ node => (.ok (.finalized 9), node) }

/-- On that chain a share with another reader comes to its transaction. -/
theorem runShare_ownerOnly [Blake3] [Bs58] [CryptoLib] [SumchainWire] [OperationWire]
    {seed ephSeed recipientPk kFile : Hash} {bundleHex : Str} {bundle : Bundle80}
    (chainId fee : Nat) (merkleRoot : Hash) (recipient : RecipientSpec)
    (hother : l1AddressBase58 (ownAddress seed) ≠ recipient.addrB58)
    (hkey : unwrapOwnerEntry seed (ownAddress seed)
      ⟨l1AddressBase58 (ownAddress seed), some bundleHex, none⟩ = .ok kFile)
    (hwrap : wrapForRecipient ephSeed kFile recipient.addr recipientPk = some (.ok bundle)) :
    ((runShare (ownerOnlyRpc (ownAddress seed) bundleHex recipientPk) seed chainId fee merkleRoot
      recipient ephSeed [0]).run ()).2.1.filterMap AccessCall.sent?
      = [buildAddAccessV2Tx seed chainId 0 fee merkleRoot
          ⟨recipient.addr, some bundle, recipient.expiry.toChainValue⟩] := by
  let rpc := ownerOnlyRpc (ownAddress seed) bundleHex recipientPk
  let own : AccessEntryV2 := ⟨l1AddressBase58 (ownAddress seed), some bundleHex, none⟩
  let info : OwnedFilePage :=
    ⟨⟨⟨fileRootHex merkleRoot, 3, 19, 1, 5, 1, 1⟩, [own]⟩, l1AddressBase58 (ownAddress seed)⟩
  have henabled : (requireV2Enabled rpc).run () = (.ok (),
      [.chainParams (.ok (some 5)), .blockHeight (.ok 7)], ()) := rfl
  have hrow : (requirePrivateV2Owner rpc (fileRootHex merkleRoot)
      (l1AddressBase58 (ownAddress seed))).run ()
      = (.ok info, [pageRead (fileRootHex merkleRoot) 0 (some info)], ()) := by
    have hask : (askPage rpc (fileRootHex merkleRoot) 0).run ()
        = (.ok (some info), [pageRead (fileRootHex merkleRoot) 0 (some info)], ()) := rfl
    rw [← List.append_nil [pageRead (fileRootHex merkleRoot) 0 (some info)]]
    refine run_bind_ok hask ?_
    simp [info, VisibilityV2.isPrivate, LifecycleV2.isActive]
    rfl
  have hsearch : (findAccessEntry rpc (fileRootHex merkleRoot) recipient.addrB58 info).run ()
      = (.ok none, [], ()) := by
    unfold findAccessEntry
    simp [info, own, hother, accessPageSize]
    rfl
  have hrecover : (recoverKFileFromOwnerBundle rpc seed (ownAddress seed)
      (l1AddressBase58 (ownAddress seed)) info (fileRootHex merkleRoot)).run ()
      = (.ok kFile, [], ()) := by
    have hfind : (findAccessEntry rpc (fileRootHex merkleRoot)
        (l1AddressBase58 (ownAddress seed)) info).run () = (.ok (some own), [], ()) := by
      unfold findAccessEntry
      simp [info, own]
      rfl
    rw [← List.append_nil ([] : List AccessCall)]
    refine run_bind_ok hfind ?_
    show (Dialogue.orStop (unwrapOwnerEntry seed (ownAddress seed) own)).run () = _
    rw [hkey]
    rfl
  have hsubmit : (submitAndWait rpc (l1AddressBase58 (ownAddress seed)) [0] fun nonce =>
      buildAddAccessV2Tx seed chainId nonce fee merkleRoot
          ⟨recipient.addr, some bundle, recipient.expiry.toChainValue⟩).run ()
      = (.ok [], [.nonce (l1AddressBase58 (ownAddress seed)) (.ok 0),
        .submission (.sendRaw (buildAddAccessV2Tx seed chainId 0 fee merkleRoot
          ⟨recipient.addr, some bundle, recipient.expiry.toChainValue⟩) (.ok [])),
        .submission (.txStatus [] (.ok (.finalized 9)))], ()) := rfl
  have hkeyRead : (Dialogue.query (rpc.accountGetEncryptionPublicKey recipient.addrB58)
      (.encryptionKey recipient.addrB58) .rpc : AccessM Unit _).run ()
      = (.ok (some recipientPk), [.encryptionKey recipient.addrB58 (.ok (some recipientPk))], ()) :=
    rfl
  have hrun : (runShare rpc seed chainId fee merkleRoot recipient ephSeed [0]).run ()
      = (.ok (), [.chainParams (.ok (some 5)), .blockHeight (.ok 7)] ++
          ([pageRead (fileRootHex merkleRoot) 0 (some info)] ++ ([] ++
            ([.encryptionKey recipient.addrB58 (.ok (some recipientPk))] ++ ([] ++
              ([.nonce (l1AddressBase58 (ownAddress seed)) (.ok 0),
        .submission (.sendRaw (buildAddAccessV2Tx seed chainId 0 fee merkleRoot
          ⟨recipient.addr, some bundle, recipient.expiry.toChainValue⟩) (.ok [])),
        .submission (.txStatus [] (.ok (.finalized 9)))] ++ []))))), ()) := by
    refine run_bind_ok henabled (run_bind_ok hrow (run_bind_ok hsearch (run_bind_ok hkeyRead
      (run_bind_ok hrecover ?_))))
    rw [hwrap]
    exact run_bind_ok hsubmit rfl
  rw [hrun]
  rfl

theorem parseBundleHex_hexEncode [SumchainWire] (bundle : Bundle80) :
    parseBundleHex ('0' :: 'x' :: hexEncode bundle.bytes) = .ok bundle :=
  bundleOfHex_ok_iff.mpr (hexDecode_hexEncode bundle.bytes)

theorem unwrapOwnerEntry_of_open [SumchainWire] [CryptoLib] {seed secret kFile : Hash}
    {owner : Addr} {bundle : Bundle80} (address : Str) (hsecret : x25519Secret seed = some secret)
    (hopen : unwrapForSelf bundle secret owner = .ok kFile) :
    unwrapOwnerEntry seed owner ⟨address, some ('0' :: 'x' :: hexEncode bundle.bytes), none⟩
      = .ok kFile := by
  simp only [unwrapOwnerEntry, parseBundleHex_hexEncode, hsecret, hopen]

theorem twoAddresses_differ :
    letI := Blake3.reference
    letI := Bs58.bitcoin
    l1AddressBase58 0 ≠ l1AddressBase58 1 := by
  decide +kernel

theorem x25519Secret_ownersSecret :
    letI := CryptoLib.reference
    x25519Secret (Hash.fill 1) = some ownersSecret := by
  unfold x25519Secret Hash.ofBytes?
  exact dif_pos ownersSecret.size

/-- A bundle that the owner opens. -/
theorem exists_ownerBundle :
    letI := CryptoLib.reference
    ∃ ownerBundle, unwrapForSelf ownerBundle ownersSecret 0 = .ok (Hash.fill 7) := by
  let _ := CryptoLib.reference
  have hcontributes :
      CryptoLib.diffieHellman (Hash.fill 3) (CryptoLib.publicKey ownersSecret) ≠ Hash.zero :=
    ownersKey_contributes
  obtain ⟨ownerBundle, hwrap⟩ :=
    wrapForRecipient_isOk CryptoLib.reference_inverts (Hash.fill 7) 0 hcontributes
  exact ⟨ownerBundle, unwrapForSelf_of_wrap CryptoLib.reference_inverts ownersKey_agrees hwrap⟩

/-- The theorem where the owner gives a second reader the key. -/
theorem second_reader_guarded :
    letI := Blake3.reference
    letI := Bs58.bitcoin
    letI := CryptoLib.reference
    letI := emptyWire
    letI : OperationWire := ⟨fun _ => []⟩
    ∃ ownerBundle bundle : Bundle80,
      let rpc := ownerOnlyRpc (ownAddress (Hash.fill 1)) ('0' :: 'x' :: hexEncode ownerBundle.bytes)
        (CryptoLib.publicKey (Hash.fill 2))
      unwrapForSelf ownerBundle ownersSecret (ownAddress (Hash.fill 1)) = .ok (Hash.fill 7) ∧
      unwrapForSelf bundle (Hash.fill 2) 1 = .ok (Hash.fill 7) ∧
      ((runShare rpc (Hash.fill 1) 1 1 (Hash.fill 9) ⟨1, .unset⟩ (Hash.fill 1) [0]).run
          ()).2.1.filterMap AccessCall.sent?
        = [buildAddAccessV2Tx (Hash.fill 1) 1 0 1 (Hash.fill 9) ⟨1, some bundle, none⟩] ∧
      AccessGuarded rpc (Hash.fill 1) 1 1 (Hash.fill 9) ⟨1, .unset⟩ (Hash.fill 1) [0] () := by
  let _ := Blake3.reference
  let _ := Bs58.bitcoin
  let _ := CryptoLib.reference
  let _ := emptyWire
  let _ : OperationWire := ⟨fun _ => []⟩
  obtain ⟨ownerBundle, hopen⟩ := exists_ownerBundle
  have hcontributes : CryptoLib.diffieHellman (Hash.fill 1) (CryptoLib.publicKey (Hash.fill 2))
      ≠ Hash.zero := twoKeys_contribute
  obtain ⟨bundle, hwrap⟩ :=
    wrapForRecipient_isOk CryptoLib.reference_inverts (Hash.fill 7) 1 hcontributes
  have hother : l1AddressBase58 (ownAddress (Hash.fill 1)) ≠ RecipientSpec.addrB58 ⟨1, .unset⟩ :=
    twoAddresses_differ
  have hown : ownAddress (Hash.fill 1) = 0 := rfl
  rw [← hown] at hopen
  have hkey := unwrapOwnerEntry_of_open (l1AddressBase58 (ownAddress (Hash.fill 1)))
    x25519Secret_ownersSecret hopen
  refine ⟨ownerBundle, bundle, hopen, ?_, ?_, ?_⟩
  · exact unwrapForSelf_of_wrap CryptoLib.reference_inverts twoKeys_agree hwrap
  · exact @runShare_ownerOnly Blake3.reference Bs58.bitcoin CryptoLib.reference emptyWire
      ⟨fun _ => []⟩ _ _ _ _ _ _ 1 1 (Hash.fill 9) ⟨1, .unset⟩ hother hkey hwrap
  · exact access_guarded _ CryptoLib.reference_inverts _ _ _ _ _ _ _ _

end Snip
