/-
The owner's changes to the access list of a Private file (`sum-node/src/access.rs`):
`share`, `revoke` and `update-access`.

Each command reads the chain until nothing forbids the change, then signs and submits one
transaction and waits for it.  The RPC is an environment with a state of its own: answers
may change between any two calls.  The keypair of a command is the one of its seed
(`keypair_from_seed`), so the operator's address is the address that signs.
-/
import Snip.Node.PrivateManifestFetch
import Snip.Node.TxBuilder

namespace Snip

/-- The row of a file with its owner and the part of its access list that was asked for. -/
structure OwnedFilePage extends FileInfoPage where
  owner : Str

/-- `L1RpcClient`, as the three commands use it. -/
structure L1RpcClient (σ : Type) where
  /-- The parameters' `v2_enabled_from_height`. -/
  chainGetChainParams : σ → Except String (Option Nat) × σ
  /-- The finalized height. -/
  chainGetBlockHeight : σ → Except String Nat × σ
  storageGetFileInfoV2 : Str → Option Nat → Option Nat → σ → Except String (Option OwnedFilePage) × σ
  accountGetEncryptionPublicKey : Str → σ → Except String (Option Hash) × σ
  getNonce : Str → σ → Except String Nat × σ
  /-- What sends a transaction and tells its status. -/
  submission : ReassignRpc σ

/-- A call with its answer. -/
inductive AccessCall where
  | chainParams (answer : Except String (Option Nat))
  | blockHeight (answer : Except String Nat)
  | fileInfo (rootHex : Str) (offset limit : Option Nat)
      (answer : Except String (Option OwnedFilePage))
  | encryptionKey (addrB58 : Str) (answer : Except String (Option Hash))
  | nonce (addrB58 : Str) (answer : Except String Nat)
  | submission (call : RpcCall)

/-- The transaction a call submits, if it does. -/
def AccessCall.sent? : AccessCall → Option Str
  | .submission call => call.sent?
  | _ => none

/-! ### The errors -/

/-- `{:?}` of an optional number. -/
def debugOption : Option Nat → String
  | none => "None"
  | some n => "Some(" ++ toString n ++ ")"

/-- The text of the error; a wait that has not ended has none. -/
def TxWaitError.message [SumchainWire] : TxWaitError → Option String
  | .failed blockHeight reason =>
      some ("transaction failed (block_height=" ++ debugOption blockHeight ++ "): " ++
        String.ofList reason)
  | .dropped => some "transaction dropped from mempool"
  | .timeout lastStatus =>
      some ("timed out waiting for finality (last_status: " ++ lastStatus.debug ++ ")")
  | .rpc e => some ("RPC error while polling tx status: " ++ e)
  | .waiting => none

/-- `AccessOpError`; `panicked` stands for the `expect` of the wrap. -/
inductive AccessOpError where
  | notV2Private (visibility : VisibilityV2) (lifecycle : LifecycleV2)
  | notActive (lifecycle : LifecycleV2)
  | notV2 (source : String)
  | notOwner (operatorB58 ownerB58 : Str)
  | alreadyInAccessList (addrB58 : Str)
  | notInAccessList (addrB58 : Str)
  | ownerSelfRevoke (addrB58 : Str)
  | recipientHasNoEncryptionKey (addrB58 : Str)
  | ownerEntryMissing (addrB58 : Str)
  | ownerBundleMissing
  | bundleHex (reason : String)
  | bundleUnwrap (e : CryptoError)
  | bundleWrap (e : CryptoError)
  | updateRequiresExpiryDirective
  | updateNoOp (requested : Option Nat)
  | v2NotEnabled (source : String)
  | rpc (e : String)
  | txSubmit (e : String)
  | txWait (e : TxWaitError)
  | panicked

def AccessOpError.message [SumchainWire] : AccessOpError → Option String
  | .notV2Private visibility lifecycle =>
      some ("file is not Private V2 (visibility=" ++ toString visibility ++ ", lifecycle=" ++
        toString lifecycle ++ "); access mutations apply only to V2 Private files")
  | .notActive lifecycle =>
      some ("file is Private V2 but lifecycle is " ++ toString lifecycle ++
        " (Pending=0, Active=1, Abandoned=2); access mutations are Active-only — chain rejects " ++
        "them in any other state. Wait for ActivateFileV2 to finalize, or for an Abandoned file " ++
        "submit nothing — it is terminal.")
  | .notV2 _ =>
      some ("file is V1 / legacy or not registered V2; this command targets only V2 Private " ++
        "files")
  | .notOwner operatorB58 ownerB58 =>
      some ("operator address " ++ String.ofList operatorB58 ++ " is not the file owner (" ++
        String.ofList ownerB58 ++ ")")
  | .alreadyInAccessList addrB58 =>
      some ("address " ++ String.ofList addrB58 ++ " is already in the file's access list")
  | .notInAccessList addrB58 =>
      some ("address " ++ String.ofList addrB58 ++ " is not in the file's access list")
  | .ownerSelfRevoke addrB58 =>
      some ("refusing to revoke the file owner's own access (" ++ String.ofList addrB58 ++
        ") — it would brick the operator's ability to recover K_file for future shares")
  | .recipientHasNoEncryptionKey addrB58 =>
      some ("recipient " ++ String.ofList addrB58 ++ " has no encryption pubkey on chain; ask " ++
        "them to run \x60sum-node register-encryption-key\x60 first")
  | .ownerEntryMissing addrB58 =>
      some ("owner (" ++ String.ofList addrB58 ++ ") is missing from their own file's access " ++
        "list — chain rule violation; refusing to proceed")
  | .ownerBundleMissing =>
      some ("owner's access entry exists but carries no encrypted_key_bundle — chain rule " ++
        "violation; refusing to proceed")
  | .bundleHex reason =>
      some ("access bundle wire shape invalid (expected 80-byte hex): " ++ reason)
  | .bundleUnwrap e => some ("failed to unwrap K_file from owner bundle: " ++ e.message)
  | .bundleWrap e => some ("failed to wrap K_file for recipient: " ++ e.message)
  | .updateRequiresExpiryDirective =>
      some ("update-access requires an explicit expiry directive (\x60<addr>:<height>\x60 to " ++
        "set, \x60<addr>:none\x60 to clear); a bare \x60<addr>\x60 would be a no-op")
  | .updateNoOp requested =>
      some ("update-access target's expiry already matches the requested value (" ++
        debugOption requested ++ ") — refusing no-op")
  | .v2NotEnabled _ => some "V2 not enabled on this chain or not yet active at finalized height"
  | .rpc e => some ("RPC error: " ++ e)
  | .txSubmit e => some ("tx submission failed: " ++ e)
  | .txWait e => e.message.map fun text => "tx finality wait failed: " ++ text
  | .panicked => none

/-! ### Recipients and bundles -/

inductive ExpiryDirective where
  | unset
  | clear
  | setTo (height : Nat)
deriving DecidableEq

/-- `to_chain_value`. -/
def ExpiryDirective.toChainValue : ExpiryDirective → Option Nat
  | unset | clear => none
  | setTo height => some height

/-- `RecipientSpec`; its text is the address's. -/
structure RecipientSpec where
  addr : Addr
  expiry : ExpiryDirective

/-- `addr_b58`. -/
def RecipientSpec.addrB58 [Blake3] [Bs58] (r : RecipientSpec) : Str := l1AddressBase58 r.addr

/-- `strip_prefix("0x").unwrap_or(s)`. -/
def withoutHexMark : Str → Str
  | '0' :: 'x' :: rest => rest
  | text => text

/-- A bundle, if the bytes are as many. -/
def Bundle80.ofBytes? (b : Bytes) : Option Bundle80 :=
  if h : b.length = recipientBundleSize then some ⟨b, h⟩ else none

/-- What both functions of the name `parse_bundle_hex` do, each with an error of its own. -/
def bundleOfHex [SumchainWire] {ε : Type} (bundleHex : String → ε) (text : Str) :
    Except ε Bundle80 :=
  match hexDecode (withoutHexMark text) with
  | none =>
      .error (bundleHex ("not valid hex: " ++
        String.ofList (SumchainWire.hexError (withoutHexMark text))))
  | some bytes =>
      match Bundle80.ofBytes? bytes with
      | none =>
          .error (bundleHex ("expected " ++ toString recipientBundleSize ++ " bytes, got " ++
            toString bytes.length))
      | some bundle => .ok bundle

/-- `parse_bundle_hex`. -/
def parseBundleHex [SumchainWire] (text : Str) : Except AccessOpError Bundle80 :=
  bundleOfHex .bundleHex text

/-- The secret of `x25519_keypair_from_ed25519_seed`. -/
def x25519Secret [CryptoLib] (seed : Hash) : Option Hash :=
  Hash.ofBytes? (hkdfExpand 32 [] seed.bytes "snip-x25519-encryption-key-v1")

/-- `unwrap_owner_entry`. -/
def unwrapOwnerEntry [SumchainWire] [CryptoLib] (seed : Hash) (ownerAddr : Addr)
    (entry : AccessEntryV2) : Except AccessOpError Hash :=
  match entry.encryptedKeyBundle with
  | none => .error .ownerBundleMissing
  | some bundleHex =>
      match parseBundleHex bundleHex with
      | .error e => .error e
      | .ok bundle =>
          match x25519Secret seed with
          | none => .error .panicked
          | some secret =>
              match unwrapForSelf bundle secret ownerAddr with
              | .error e => .error (.bundleUnwrap e)
              | .ok kFile => .ok kFile

/-! ### The commands -/

/-- A command over nodes `σ`. -/
abbrev AccessM (σ : Type) := ExceptT AccessOpError (Dialogue σ AccessCall)

section

variable {σ : Type}

/-- `require_v2_enabled`. -/
def requireV2Enabled (rpc : L1RpcClient σ) : AccessM σ Unit := do
  let v2EnabledFromHeight ← Dialogue.query rpc.chainGetChainParams .chainParams .v2NotEnabled
  let height ← Dialogue.query rpc.chainGetBlockHeight .blockHeight .v2NotEnabled
  match v2EnabledFromHeight with
  | none => throw (.v2NotEnabled "chain v2_enabled_from_height = null")
  | some h =>
      if height < h then
        throw (.v2NotEnabled ("finalized height " ++ toString height ++
          " < v2_enabled_from_height " ++ toString h ++ " (" ++ toString (h - height) ++
          " blocks remaining)"))
      else pure ()

/-- `storage_get_file_info_v2` with the page of the access list from `offset` on. -/
def askPage (rpc : L1RpcClient σ) (rootHex : Str) (offset : Nat) :
    AccessM σ (Option OwnedFilePage) :=
  Dialogue.query (rpc.storageGetFileInfoV2 rootHex (some offset) (some accessPageSize))
    (.fileInfo rootHex (some offset) (some accessPageSize)) .rpc

/-- `require_private_v2_owner`: the row, then Private, then Active, then the owner. -/
def requirePrivateV2Owner (rpc : L1RpcClient σ) (rootHex operatorB58 : Str) :
    AccessM σ OwnedFilePage := do
  match ← askPage rpc rootHex 0 with
  | none =>
      throw (.notV2 ("storage_getFileInfoV2 returned no row for " ++ String.ofList rootHex ++
        " (not registered as V2)"))
  | some info =>
      if !info.visibility.isPrivate then throw (.notV2Private info.visibility info.lifecycle)
      else if !info.lifecycle.isActive then throw (.notActive info.lifecycle)
      else if info.owner ≠ operatorB58 then throw (.notOwner operatorB58 info.owner)
      else pure info

/-- The loop over the pages after the first; a short page or none at all ends it. -/
def findAccessEntryFrom (rpc : L1RpcClient σ) (rootHex targetB58 : Str) :
    List Nat → AccessM σ (Option AccessEntryV2)
  | [] => pure none
  | pageIdx :: rest => do
      match ← askPage rpc rootHex (pageIdx * accessPageSize) with
      | none => pure none
      | some page =>
          match page.accessList.find? (·.address = targetB58) with
          | some entry => pure (some entry)
          | none =>
              if page.accessList.length < accessPageSize then pure none
              else findAccessEntryFrom rpc rootHex targetB58 rest

/-- `find_access_entry`: the first page is at hand. -/
def findAccessEntry (rpc : L1RpcClient σ) (rootHex targetB58 : Str) (seedPage : OwnedFilePage) :
    AccessM σ (Option AccessEntryV2) :=
  match seedPage.accessList.find? (·.address = targetB58) with
  | some entry => pure (some entry)
  | none =>
      if seedPage.accessList.length < accessPageSize then pure none
      else findAccessEntryFrom rpc rootHex targetB58 (List.range' 1 (accessMaxPages - 1))

/-- `FINALITY_TIMEOUT`, in seconds. -/
def finalityTimeout : Nat := 120

/--
`submit_and_wait`; `clock` is what the wait for finality reads of it, in seconds.  None of the
builders fails.
-/
def submitAndWait (rpc : L1RpcClient σ) (operatorB58 : Str) (clock : List Nat)
    (buildTx : Nat → Str) : AccessM σ Str := do
  let nonce ← Dialogue.query (rpc.getNonce operatorB58) (.nonce operatorB58) .rpc
  let txHex := buildTx nonce
  let txHash ← Dialogue.query (rpc.submission.sendRawTransaction txHex)
    (fun answer => .submission (.sendRaw txHex answer)) .txSubmit
  match ← ExceptT.lift (Dialogue.relabel .submission (waitForFinalized rpc.submission txHash
      (clock.headD 0 + finalityTimeout) clock.tail)) with
  | .error e => throw (.txWait e)
  | .ok _ => pure txHash

variable [Blake3] [Bs58] [SumchainWire] [OperationWire]

/-- `recover_k_file_from_owner_bundle`. -/
def recoverKFileFromOwnerBundle [CryptoLib] (rpc : L1RpcClient σ) (seed : Hash) (ownerAddr : Addr)
    (ownerB58 : Str) (seedPage : OwnedFilePage) (rootHex : Str) : AccessM σ Hash := do
  match ← findAccessEntry rpc rootHex ownerB58 seedPage with
  | none => throw (.ownerEntryMissing ownerB58)
  | some entry => Dialogue.orStop (unwrapOwnerEntry seed ownerAddr entry)

/-- `run_share`; `ephSeed` is what the wrap draws for its ephemeral key. -/
def runShare [CryptoLib] (rpc : L1RpcClient σ) (seed : Hash) (chainId fee : Nat)
    (merkleRoot : Hash) (recipient : RecipientSpec) (ephSeed : Hash) (clock : List Nat) :
    AccessM σ Unit := do
  let operatorAddr := ownAddress seed
  let operatorB58 := l1AddressBase58 operatorAddr
  let rootHex := fileRootHex merkleRoot
  requireV2Enabled rpc
  let info ← requirePrivateV2Owner rpc rootHex operatorB58
  match ← findAccessEntry rpc rootHex recipient.addrB58 info with
  | some _ => throw (.alreadyInAccessList recipient.addrB58)
  | none =>
  match ← Dialogue.query (rpc.accountGetEncryptionPublicKey recipient.addrB58)
      (.encryptionKey recipient.addrB58) .rpc with
  | none => throw (.recipientHasNoEncryptionKey recipient.addrB58)
  | some recipientPk =>
  let kFile ← recoverKFileFromOwnerBundle rpc seed operatorAddr operatorB58 info rootHex
  match wrapForRecipient ephSeed kFile recipient.addr recipientPk with
  | none => throw .panicked
  | some (.error e) => throw (.bundleWrap e)
  | some (.ok bundle) =>
  let entry : AccessEntryV2Mirror :=
    ⟨recipient.addr, some bundle, recipient.expiry.toChainValue⟩
  let _txHash ← submitAndWait rpc operatorB58 clock fun nonce =>
    buildAddAccessV2Tx seed chainId nonce fee merkleRoot entry
  pure ()

/-- `run_revoke`. -/
def runRevoke (rpc : L1RpcClient σ) (seed : Hash) (chainId fee : Nat) (merkleRoot : Hash)
    (target : RecipientSpec) (clock : List Nat) : AccessM σ Unit := do
  let operatorAddr := ownAddress seed
  let operatorB58 := l1AddressBase58 operatorAddr
  let rootHex := fileRootHex merkleRoot
  requireV2Enabled rpc
  let info ← requirePrivateV2Owner rpc rootHex operatorB58
  if target.addr = operatorAddr then throw (.ownerSelfRevoke target.addrB58)
  else
  match ← findAccessEntry rpc rootHex target.addrB58 info with
  | none => throw (.notInAccessList target.addrB58)
  | some _ =>
  let _txHash ← submitAndWait rpc operatorB58 clock fun nonce =>
    buildRemoveAccessV2Tx seed chainId nonce fee merkleRoot target.addr
  pure ()

/-- `run_update_access`; an entry without a bundle is refused with the error of the owner's. -/
def runUpdateAccess (rpc : L1RpcClient σ) (seed : Hash) (chainId fee : Nat) (merkleRoot : Hash)
    (target : RecipientSpec) (clock : List Nat) : AccessM σ Unit := do
  let operatorB58 := l1AddressBase58 (ownAddress seed)
  let rootHex := fileRootHex merkleRoot
  if target.expiry = .unset then throw .updateRequiresExpiryDirective
  else
  let newExpiresAt := target.expiry.toChainValue
  requireV2Enabled rpc
  let info ← requirePrivateV2Owner rpc rootHex operatorB58
  match ← findAccessEntry rpc rootHex target.addrB58 info with
  | none => throw (.notInAccessList target.addrB58)
  | some existing =>
  if existing.expiresAt = newExpiresAt then throw (.updateNoOp newExpiresAt)
  else
  match existing.encryptedKeyBundle with
  | none => throw .ownerBundleMissing
  | some existingBundleHex =>
  let existingBundle ← Dialogue.orStop (parseBundleHex existingBundleHex)
  let newEntry : AccessEntryV2Mirror := ⟨target.addr, some existingBundle, newExpiresAt⟩
  let _txHash ← submitAndWait rpc operatorB58 clock fun nonce =>
    buildUpdateAccessV2Tx seed chainId nonce fee merkleRoot target.addr newEntry
  pure ()

end

end Snip
