import QCoin.Script.Machine
import QCoin.Support.Accumulator

/-!
# Ledger and chain state

The state of `qcoin-ledger`, its commitment `state_root` and the host through
which a script sees the ledger.
-/

namespace QCoin

open Support

structure UtxoKey where
  txId : Hash256
  index : UInt32
deriving DecidableEq

namespace UtxoKey

/-- Keys are listed by transaction id, then by index. -/
def orderKey (key : UtxoKey) : Hash256 ×ₗ ℕ :=
  toLex (key.txId, key.index.toNat)

theorem orderKey_injective : Function.Injective orderKey := by
  rintro ⟨t, i⟩ ⟨t', i'⟩ h
  have hpair : (t, i.toNat) = (t', i'.toNat) := toLex.injective h
  simp only [Prod.mk.injEq] at hpair
  rw [hpair.1, UInt32.toNat_inj.mp hpair.2]

instance : LinearOrder UtxoKey :=
  LinearOrder.lift' orderKey orderKey_injective

end UtxoKey

/-- The key under which the output spent by an input is stored. -/
def TransactionInput.key (input : TransactionInput) : UtxoKey :=
  ⟨input.txId, input.index⟩

structure TrackedOutput where
  output : Output
  createdHeight : UInt64
deriving DecidableEq

abbrev UtxoSet := FinMap UtxoKey TrackedOutput

structure LedgerState where
  utxos : UtxoSet
  assets : FinMap AssetId AssetDefinition
deriving DecidableEq

namespace LedgerState

theorem eq_of_maps_eq {ledger ledger' : LedgerState}
    (hutxos : ledger.utxos = ledger'.utxos)
    (hassets : ledger.assets = ledger'.assets) : ledger = ledger' := by
  cases ledger
  cases ledger'
  exact (LedgerState.mk.injEq ..).mpr ⟨hutxos, hassets⟩

/-- `LedgerState::default()`. -/
def empty : LedgerState := ⟨∅, ∅⟩

/-- The view of the ledger given to scripts. -/
def scriptHost (ledger : LedgerState) (currentHeight : UInt64) :
    ScriptHost where
  currentHeight := some currentHeight
  inputUtxo input := (ledger.utxos.lookup input.key).map fun tracked =>
    ⟨tracked.output, some tracked.createdHeight⟩

def encodeUtxoEntry : Encoder (UtxoKey × TrackedOutput) := fun entry =>
  encodeAppend
    (some (encodeHash entry.1.txId ++ leBytes 4 entry.1.index.toNat))
    (encodeAppend (encodeOutput entry.2.output)
      (some (leBytes 8 entry.2.createdHeight.toNat)))

def encodeAssetEntry (entry : AssetId × AssetDefinition) : Bytes :=
  encodeHash entry.1.hash ++ encodeAssetDefinition entry.2

/-- The bytes fed to the hasher: all outputs and then all assets, each in key
order. -/
def stateRootPreimage (ledger : LedgerState) : Option Bytes :=
  encodeAppend (encodeAll encodeUtxoEntry (FinMap.sortedEntries ledger.utxos))
    (encodeAll (fun entry => some (encodeAssetEntry entry))
      (FinMap.sortedEntries ledger.assets))

def stateRoot [Blake3] (ledger : LedgerState) : Option Hash256 :=
  ledger.stateRootPreimage.map Blake3.hash

end LedgerState

structure ChainState where
  ledger : LedgerState
  height : UInt64
  tipHash : Hash256
  stateRoot : Hash256
  lastTimestamp : UInt64
  chainId : UInt32
deriving DecidableEq

inductive LedgerError where
  | missingInput
  | missingWitness
  | doubleSpend
  | scriptHashMismatch
  | metadataHashMismatch
  | invalidWitness
  | scriptFailed
  | assetConservationViolation
  | assetAlreadyExists
  | reservedNativeAssetId
  | missingIssuerAuthorization
  | maxSupplyExceeded
  | other (message : String)
deriving DecidableEq, Repr

def LedgerError.display : LedgerError → String
  | .missingInput => "input not found in UTXO set"
  | .missingWitness => "missing witness data for input"
  | .doubleSpend => "double spend detected"
  | .scriptHashMismatch => "owner script hash does not match provided script"
  | .metadataHashMismatch =>
      "output metadata hash does not match provided metadata"
  | .invalidWitness => "failed to decode witness data"
  | .scriptFailed => "script execution failed"
  | .assetConservationViolation => "asset conservation violated"
  | .assetAlreadyExists => "asset already exists"
  | .reservedNativeAssetId =>
      "native QCOIN asset ID is reserved and cannot be created via CreateAsset"
  | .missingIssuerAuthorization =>
      "missing issuer authorization for asset creation"
  | .maxSupplyExceeded => "asset supply exceeds declared maximum"
  | .other message => "other ledger error: " ++ message

structure InputWitness where
  script : Script
  metadata : Option Bytes
deriving DecidableEq

/-- The decoder of input witnesses which the `bincode` crate derives. -/
class Bincode where
  deserializeWitness : Bytes → Option InputWitness

end QCoin
