import QCoin.Ledger.State

/-!
# Applying a transaction

`LedgerState::apply_transaction`.  The function returns the ledger next to its
result because a failing call can already have registered an asset.
-/

namespace QCoin

open Support
open Support.Result

/-! ## Asset totals -/

def accumulateAsset (totals : Totals Hash256 128) (asset : AssetAmount) :
    Totals Hash256 128 :=
  totals.add asset.assetId.hash asset.amount

def accumulateAssets (totals : Totals Hash256 128)
    (assets : List AssetAmount) : Totals Hash256 128 :=
  assets.foldl accumulateAsset totals

def accumulateOutputs (totals : Totals Hash256 128) (outputs : List Output) :
    Totals Hash256 128 :=
  outputs.foldl (fun totals output => accumulateAssets totals output.assets)
    totals

def outputTotals (outputs : List Output) : Totals Hash256 128 :=
  accumulateOutputs ∅ outputs

/-! ## The checks -/

structure CreatedAsset where
  assetId : AssetId
  definition : AssetDefinition
  initialSupply : U128

/-- An output authorises the creation of an asset when it is locked to the
issuer script or lists the asset id. -/
def CreatedAsset.authorizedBy (created : CreatedAsset) (output : Output) :
    Bool :=
  output.ownerScriptHash == created.definition.issuerScriptHash ||
    output.assets.any fun asset => asset.assetId == created.assetId

structure InputScan where
  seenInputs : Finset UtxoKey
  consumedUtxos : List UtxoKey
  inputTotals : Totals Hash256 128
  issuerAuthorized : Bool

namespace InputScan

def init : InputScan where
  seenInputs := ∅
  consumedUtxos := []
  inputTotals := ∅
  issuerAuthorized := false

/-- Record one input which passed its checks. -/
def record (scan : InputScan) (created : Option CreatedAsset)
    (key : UtxoKey) (output : Output) : InputScan where
  seenInputs := insert key scan.seenInputs
  consumedUtxos := scan.consumedUtxos ++ [key]
  inputTotals := accumulateAssets scan.inputTotals output.assets
  issuerAuthorized := scan.issuerAuthorized ||
    created.any fun asset => asset.authorizedBy output

end InputScan

section Checks

variable [Blake3]

def metadataMatches : Option Hash256 → Option Bytes → Bool
  | some expected, some bytes => expected == Blake3.hash bytes
  | none, none => true
  | _, _ => false

namespace LedgerState

/-- The checks which depend on the kind of the transaction only. -/
def checkCreation (ledger : LedgerState) (chainId : UInt32) :
    TransactionKind → Result LedgerError (Option CreatedAsset)
  | .transfer => .ok none
  | .createAsset definition initialSupply => do
      let assetId := deriveAssetId definition chainId
      require (¬isQcoinAssetId assetId) .reservedNativeAssetId
      require (assetId ∉ ledger.assets) .assetAlreadyExists
      return some ⟨assetId, definition, initialSupply⟩

variable [Bincode]

/-- The script context of one input. -/
def inputContext (tx : Transaction) (inputIndex : ℕ) (currentHeight : UInt64)
    (chainId : UInt32) (tracked : TrackedOutput) : ScriptContext where
  tx := tx
  inputIndex := inputIndex
  currentHeight := some currentHeight
  chainId := chainId
  scriptHash := tracked.output.ownerScriptHash

/-- One iteration of the loop over the inputs. -/
def scanInput (ledger : LedgerState) (tx : Transaction)
    (engine : ScriptEngine) (currentHeight : UInt64) (chainId : UInt32)
    (created : Option CreatedAsset) (scan : InputScan)
    (entry : TransactionInput × ℕ) : Result LedgerError InputScan := do
  let key := entry.1.key
  require (key ∉ scan.seenInputs) .doubleSpend
  let tracked ← okOr (ledger.utxos.lookup key) .missingInput
  let witnessBytes ← okOr tx.witness.inputs[entry.2]? .missingWitness
  let witness ← okOr (Bincode.deserializeWitness witnessBytes) .invalidWitness
  let scriptBytes ← orPanic (encodeScript witness.script)
  require (Blake3.hash scriptBytes = tracked.output.ownerScriptHash)
    .scriptHashMismatch
  require (metadataMatches tracked.output.metadataHash witness.metadata)
    .metadataHashMismatch
  let _ ← mapErr (fun _ => LedgerError.scriptFailed)
    (engine witness.script
      (inputContext tx entry.2 currentHeight chainId tracked)
      (ledger.scriptHost currentHeight))
  return scan.record created key tracked.output

def scanInputs (ledger : LedgerState) (tx : Transaction)
    (engine : ScriptEngine) (currentHeight : UInt64) (chainId : UInt32)
    (created : Option CreatedAsset) : Result LedgerError InputScan :=
  tx.core.inputs.zipIdx.foldlM
    (ledger.scanInput tx engine currentHeight chainId created) InputScan.init

end LedgerState

end Checks

/-! ## Settlement -/

/-- The checks made on a created asset once all totals are known. -/
def settleCreation (created : CreatedAsset) (scan : InputScan)
    (outputTotals : Totals Hash256 128) : Result LedgerError Unit := do
  let mintedAmount := outputTotals.amountAt created.assetId.hash
  require (mintedAmount = created.initialSupply) .assetConservationViolation
  require (∀ max ∈ created.definition.maxSupply, ¬max < mintedAmount)
    .maxSupplyExceeded
  require (scan.inputTotals.amountAt created.assetId.hash = 0)
    .assetConservationViolation
  require scan.issuerAuthorized .missingIssuerAuthorization

/-- The two loops which compare the totals. -/
def checkConservation (inputTotals outputTotals : Totals Hash256 128) :
    Result LedgerError Unit := do
  require (∀ id ∈ inputTotals.keys,
      inputTotals.amountAt id = outputTotals.amountAt id)
    .assetConservationViolation
  require (∀ id ∈ outputTotals.keys,
      ¬(id ∉ inputTotals ∧ 0 < outputTotals.amountAt id))
    .assetConservationViolation

/-- The entries which a transaction adds to the UTXO set. -/
def createdEntries (txId : Hash256) (outputs : List Output)
    (currentHeight : UInt64) : List (UtxoKey × TrackedOutput) :=
  outputs.zipIdx.map fun entry =>
    (⟨txId, UInt32.ofNat entry.2⟩, ⟨entry.1, currentHeight⟩)

namespace LedgerState

def removeUtxos (ledger : LedgerState) (consumedUtxos : List UtxoKey) :
    LedgerState :=
  { ledger with utxos := FinMap.eraseAll ledger.utxos consumedUtxos }

def insertUtxos (ledger : LedgerState) (txId : Hash256)
    (outputs : List Output) (currentHeight : UInt64) : LedgerState :=
  { ledger with
    utxos := FinMap.insertAll ledger.utxos
      (createdEntries txId outputs currentHeight) }

/-- `self.assets.insert` of a created asset. -/
def register (ledger : LedgerState) : Option CreatedAsset → LedgerState
  | none => ledger
  | some created => { ledger with
      assets := ledger.assets.insert created.assetId created.definition }

@[simp] theorem removeUtxos_utxos (ledger : LedgerState)
    (consumedUtxos : List UtxoKey) :
    (ledger.removeUtxos consumedUtxos).utxos =
      FinMap.eraseAll ledger.utxos consumedUtxos := rfl

@[simp] theorem removeUtxos_assets (ledger : LedgerState)
    (consumedUtxos : List UtxoKey) :
    (ledger.removeUtxos consumedUtxos).assets = ledger.assets := rfl

@[simp] theorem insertUtxos_utxos (ledger : LedgerState) (txId : Hash256)
    (outputs : List Output) (currentHeight : UInt64) :
    (ledger.insertUtxos txId outputs currentHeight).utxos =
      FinMap.insertAll ledger.utxos
        (createdEntries txId outputs currentHeight) := rfl

@[simp] theorem insertUtxos_assets (ledger : LedgerState) (txId : Hash256)
    (outputs : List Output) (currentHeight : UInt64) :
    (ledger.insertUtxos txId outputs currentHeight).assets =
      ledger.assets := rfl

@[simp] theorem register_utxos (ledger : LedgerState)
    (created : Option CreatedAsset) :
    (ledger.register created).utxos = ledger.utxos := by
  cases created with
  | none => rfl
  | some asset => rfl

/-- Take the created asset out of the totals which are compared. -/
def withoutCreated (created : Option CreatedAsset)
    (totals : Totals Hash256 128) : Totals Hash256 128 :=
  match created with
  | none => totals
  | some asset => totals.erase asset.assetId.hash

end LedgerState

/-! ## The call -/

section Apply

variable [Blake3] [Bincode]

namespace LedgerState

/-- Everything checked before the ledger is first written to. -/
def checkTransaction (ledger : LedgerState) (tx : Transaction)
    (engine : ScriptEngine) (currentHeight : UInt64) (chainId : UInt32) :
    Result LedgerError (Option CreatedAsset × InputScan) := do
  let created ← ledger.checkCreation chainId tx.core.kind
  let scan ← ledger.scanInputs tx engine currentHeight chainId created
  match created with
  | none => return (none, scan)
  | some asset =>
      settleCreation asset scan (outputTotals tx.core.outputs)
      return (some asset, scan)

/-- The result of the call and the ledger it leaves behind. -/
def applyTransaction (ledger : LedgerState) (tx : Transaction)
    (engine : ScriptEngine) (currentHeight : UInt64) (chainId : UInt32) :
    Result LedgerError Unit × LedgerState :=
  match ledger.checkTransaction tx engine currentHeight chainId with
  | .error abort => (.error abort, ledger)
  | .ok (created, scan) =>
      -- The asset stays registered when the conservation check fails.
      let ledger := ledger.register created
      match checkConservation (withoutCreated created scan.inputTotals)
          (withoutCreated created (outputTotals tx.core.outputs)) with
      | .error abort => (.error abort, ledger)
      | .ok () =>
          let ledger := ledger.removeUtxos scan.consumedUtxos
          match tx.txId with
          | none => (.error .panic, ledger)
          | some txId =>
              (.ok (), ledger.insertUtxos txId tx.core.outputs currentHeight)

end LedgerState

end Apply

end QCoin
