/-
The transactions that this node assembles and signs itself (`sum-node/src/tx_builder.rs`).

A builder puts one operation of `sumchain_wire` into a payload and signs it with the
node's key.  How an operation is written as bytes is the wire crate's.
-/
import Snip.Node.PrivateArtifacts
import Snip.Node.Reassign

namespace Snip

/-- `StorageMetadataOperationV2`, the operations that the modelled commands submit. -/
inductive StorageMetadataOperationV2 where
  | acceptAssignmentV2 (merkleRoot : Hash) (chunkIndices : List Nat)
  | addAccessV2 (merkleRoot : Hash) (entry : AccessEntryV2Mirror)
  | removeAccessV2 (merkleRoot : Hash) (address : Addr)
  | updateAccessV2 (merkleRoot : Hash) (address : Addr) (newEntry : AccessEntryV2Mirror)

/-- How `sumchain_wire` writes a payload. -/
class OperationWire where
  payloadBytes : StorageMetadataOperationV2 → Bytes

section

variable [SumchainWire] [OperationWire]

/-- `sign_and_encode`. -/
def signAndEncode (seed : Hash) (chainId nonce fee : Nat) (operation : StorageMetadataOperationV2) :
    Str :=
  signV2 seed ⟨chainId, ownAddress seed, nonce, fee, .other (OperationWire.payloadBytes operation)⟩

/-- `build_accept_assignment_v2_tx`. -/
def buildAcceptAssignmentV2Tx (seed : Hash) (chainId nonce fee : Nat) (merkleRoot : Hash)
    (chunkIndices : List Nat) : Str :=
  signAndEncode seed chainId nonce fee (.acceptAssignmentV2 merkleRoot chunkIndices)

/-- `build_add_access_v2_tx`. -/
def buildAddAccessV2Tx (seed : Hash) (chainId nonce fee : Nat) (merkleRoot : Hash)
    (entry : AccessEntryV2Mirror) : Str :=
  signAndEncode seed chainId nonce fee (.addAccessV2 merkleRoot entry)

/-- `build_remove_access_v2_tx`. -/
def buildRemoveAccessV2Tx (seed : Hash) (chainId nonce fee : Nat) (merkleRoot : Hash)
    (address : Addr) : Str :=
  signAndEncode seed chainId nonce fee (.removeAccessV2 merkleRoot address)

/-- `build_update_access_v2_tx`. -/
def buildUpdateAccessV2Tx (seed : Hash) (chainId nonce fee : Nat) (merkleRoot : Hash)
    (address : Addr) (newEntry : AccessEntryV2Mirror) : Str :=
  signAndEncode seed chainId nonce fee (.updateAccessV2 merkleRoot address newEntry)

end

/-! ### A file's lifecycle -/

/-- `StorageMetadataOperationV2`, the operations that move a file through its lifecycle. -/
inductive FileLifecycleOperationV2 where
  | registerFilePendingV2 (merkleRoot : Hash)
      (plaintextSizeBytes storedSizeBytes chunkCount feeDeposit visibility : Nat)
      (initialAccess : List AccessEntryV2Mirror)
  | activateFileV2 (merkleRoot : Hash)
  | abandonFileV2 (merkleRoot : Hash)

/-- How `sumchain_wire` writes the payload of one of them. -/
class FileLifecycleWire where
  payloadBytes : FileLifecycleOperationV2 → Bytes

section

variable [SumchainWire] [FileLifecycleWire]

/-- `sign_and_encode`, of one of them. -/
def signLifecycle (seed : Hash) (chainId nonce fee : Nat) (operation : FileLifecycleOperationV2) :
    Str :=
  signV2 seed
    ⟨chainId, ownAddress seed, nonce, fee, .other (FileLifecycleWire.payloadBytes operation)⟩

/-- `build_register_file_pending_v2_tx`. -/
def buildRegisterFilePendingV2Tx (seed : Hash) (chainId nonce fee : Nat) (merkleRoot : Hash)
    (plaintextSizeBytes storedSizeBytes chunkCount feeDeposit visibility : Nat)
    (initialAccess : List AccessEntryV2Mirror) : Str :=
  signLifecycle seed chainId nonce fee
    (.registerFilePendingV2 merkleRoot plaintextSizeBytes storedSizeBytes chunkCount feeDeposit
      visibility initialAccess)

/-- `build_activate_file_v2_tx`. -/
def buildActivateFileV2Tx (seed : Hash) (chainId nonce fee : Nat) (merkleRoot : Hash) : Str :=
  signLifecycle seed chainId nonce fee (.activateFileV2 merkleRoot)

/-- `build_abandon_file_v2_tx`. -/
def buildAbandonFileV2Tx (seed : Hash) (chainId nonce fee : Nat) (merkleRoot : Hash) : Str :=
  signLifecycle seed chainId nonce fee (.abandonFileV2 merkleRoot)

end

end Snip
