import QCoin.Ledger.ApplyTransaction
import QCoin.Support.AssocMap
import QCoin.Support.Metering

/-!
# The ledger over hash maps

The ledger as the source stores it, with hash maps for the outputs, the assets
and the totals of a transaction.  Each pass over a map is given its order.  The
calls compute what `LedgerState` computes on the finite maps behind the lists,
whatever the orders are.
-/

namespace QCoin

open Support
open Support.Result

abbrev HashTotals := AssocMap Hash256 (BitVec 128)

/-- The orders of the passes over the totals of one transaction. -/
structure TotalsOrder where
  inputTotals : IterOrder Hash256 (BitVec 128)
  outputTotals : IterOrder Hash256 (BitVec 128)

/-- The orders of the passes over the maps of a ledger. -/
structure LedgerOrder where
  utxos : IterOrder UtxoKey TrackedOutput
  assets : IterOrder AssetId AssetDefinition

structure HashLedger where
  utxos : AssocMap UtxoKey TrackedOutput
  assets : AssocMap AssetId AssetDefinition

/-! ## Totals -/

namespace HashTotals

def accumulateAssets (totals : HashTotals) (assets : List AssetAmount) :
    HashTotals :=
  assets.foldl (fun totals asset => totals.add asset.assetId.hash asset.amount)
    totals

def outputTotals (outputs : List Output) : HashTotals :=
  outputs.foldl (fun totals output => accumulateAssets totals output.assets) ∅

def withoutCreated (created : Option CreatedAsset) (totals : HashTotals) :
    HashTotals :=
  match created with
  | none => totals
  | some asset => totals.erase asset.assetId.hash

theorem toFinmap_accumulateAssets (totals : HashTotals)
    (assets : List AssetAmount) :
    (accumulateAssets totals assets).toFinmap =
      QCoin.accumulateAssets totals.toFinmap assets := by
  induction assets generalizing totals with
  | nil => rfl
  | cons asset assets ih =>
      refine (ih (totals.add asset.assetId.hash asset.amount)).trans ?_
      rw [AssocMap.toFinmap_add]
      rfl

theorem toFinmap_outputTotals (outputs : List Output) :
    (outputTotals outputs).toFinmap = QCoin.outputTotals outputs := by
  have hfold : ∀ totals : HashTotals,
      (outputs.foldl (fun totals output =>
        accumulateAssets totals output.assets) totals).toFinmap =
      accumulateOutputs totals.toFinmap outputs := by
    induction outputs with
    | nil => exact fun _ => rfl
    | cons output outputs ih =>
        intro totals
        refine (ih (accumulateAssets totals output.assets)).trans ?_
        rw [toFinmap_accumulateAssets]
        rfl
  exact hfold ∅

theorem toFinmap_withoutCreated (created : Option CreatedAsset)
    (totals : HashTotals) :
    (withoutCreated created totals).toFinmap =
      LedgerState.withoutCreated created totals.toFinmap := by
  cases created with
  | none => rfl
  | some asset => exact (Finmap.erase_toFinmap _ _).symm

end HashTotals

/-! ## The checks -/

structure HashScan where
  seenInputs : Finset UtxoKey
  consumedUtxos : List UtxoKey
  inputTotals : HashTotals
  issuerAuthorized : Bool

namespace HashScan

def init : HashScan := ⟨∅, [], ∅, false⟩

def record (scan : HashScan) (created : Option CreatedAsset)
    (key : UtxoKey) (output : Output) : HashScan where
  seenInputs := insert key scan.seenInputs
  consumedUtxos := scan.consumedUtxos ++ [key]
  inputTotals := HashTotals.accumulateAssets scan.inputTotals output.assets
  issuerAuthorized := scan.issuerAuthorized ||
    created.any fun asset => asset.authorizedBy output

def view (scan : HashScan) : InputScan :=
  ⟨scan.seenInputs, scan.consumedUtxos, scan.inputTotals.toFinmap,
    scan.issuerAuthorized⟩

theorem view_record (scan : HashScan) (created : Option CreatedAsset)
    (key : UtxoKey) (output : Output) :
    (scan.record created key output).view =
      scan.view.record created key output := by
  rw [view, record, HashTotals.toFinmap_accumulateAssets]
  rfl

end HashScan

/-! ## Key order -/

/-- `a.tx_id.cmp(&b.tx_id).then_with(|| a.index.cmp(&b.index))`. -/
def UtxoKey.cmp (a b : UtxoKey) : Ordering :=
  (compare a.txId b.txId).then (compare a.index b.index)

/-- `a.0.cmp(&b.0)`. -/
def AssetId.cmp (a b : AssetId) : Ordering :=
  compare a.hash b.hash

theorem UtxoKey.isLE_cmp (a b : UtxoKey) : (a.cmp b).isLE ↔ a ≤ b := by
  have hle : a ≤ b ↔ a.orderKey ≤ b.orderKey := Iff.rfl
  rw [hle, UtxoKey.orderKey, UtxoKey.orderKey, Prod.Lex.toLex_le_toLex,
    UtxoKey.cmp, Ordering.isLE_then_iff_or, compare_lt_iff_lt,
    compare_eq_iff_eq, Std.isLE_compare, UInt32.le_iff_toNat_le]

theorem AssetId.isLE_cmp (a b : AssetId) : (a.cmp b).isLE ↔ a ≤ b := by
  rw [AssetId.cmp, Ordering.isLE_iff_ne_gt]
  exact compare_le_iff_le

/-! ## The ledger -/

namespace HashLedger

/-- The ledger without the arrangement of its maps. -/
def view (ledger : HashLedger) : LedgerState :=
  ⟨ledger.utxos.toFinmap, ledger.assets.toFinmap⟩

/-- The two ledgers hold the same entries. -/
structure Same (ledger ledger' : HashLedger) : Prop where
  utxos : ledger.utxos.Same ledger'.utxos
  assets : ledger.assets.Same ledger'.assets

theorem same_iff {ledger ledger' : HashLedger} :
    ledger.Same ledger' ↔ ledger.view = ledger'.view := by
  rw [view, view, LedgerState.mk.injEq, ← AssocMap.same_iff,
    ← AssocMap.same_iff]
  exact ⟨fun h => ⟨h.utxos, h.assets⟩, fun h => ⟨h.1, h.2⟩⟩

def scriptHost (ledger : HashLedger) (currentHeight : UInt64) :
    ScriptHost where
  currentHeight := some currentHeight
  inputUtxo input := (ledger.utxos.lookup input.key).map fun tracked =>
    ⟨tracked.output, some tracked.createdHeight⟩

def settleCreation (created : CreatedAsset) (scan : HashScan)
    (outputTotals : HashTotals) : Result LedgerError Unit := do
  let mintedAmount := outputTotals.amountAt created.assetId.hash
  require (mintedAmount = created.initialSupply) .assetConservationViolation
  require (∀ max ∈ created.definition.maxSupply, ¬max < mintedAmount)
    .maxSupplyExceeded
  require (scan.inputTotals.amountAt created.assetId.hash = 0)
    .assetConservationViolation
  require scan.issuerAuthorized .missingIssuerAuthorization

/-- The bytes fed to the hasher. -/
def stateRootPreimage (ledger : HashLedger) (order : LedgerOrder) :
    Option Bytes :=
  encodeAppend
    (encodeAll LedgerState.encodeUtxoEntry
      (sortBy (fun a b => a.1.cmp b.1) (order.utxos.arrange ledger.utxos)))
    (encodeAll (fun entry => some (LedgerState.encodeAssetEntry entry))
      (sortBy (fun a b => a.1.cmp b.1) (order.assets.arrange ledger.assets)))

/-- `LedgerState::state_root`. -/
def stateRoot [Blake3] (ledger : HashLedger) (order : LedgerOrder) :
    Option Hash256 :=
  (ledger.stateRootPreimage order).map Blake3.hash

/-- The two loops over the totals. -/
def checkConservation (order : TotalsOrder)
    (inputTotals outputTotals : HashTotals) : Result LedgerError Unit := do
  forM (order.inputTotals.arrange inputTotals) fun entry =>
    require (entry.2 = outputTotals.amountAt entry.1)
      .assetConservationViolation
  forM (order.outputTotals.arrange outputTotals) fun entry =>
    require (¬(entry.1 ∉ inputTotals ∧ 0 < entry.2))
      .assetConservationViolation

section Checks

variable [Blake3]

def checkCreation (ledger : HashLedger) (chainId : UInt32) :
    TransactionKind → Result LedgerError (Option CreatedAsset)
  | .transfer => .ok none
  | .createAsset definition initialSupply => do
      let assetId := deriveAssetId definition chainId
      require (¬isQcoinAssetId assetId) .reservedNativeAssetId
      require (assetId ∉ ledger.assets) .assetAlreadyExists
      return some ⟨assetId, definition, initialSupply⟩

variable [Bincode]

def scanInput (ledger : HashLedger) (tx : Transaction)
    (engine : ScriptEngine) (currentHeight : UInt64) (chainId : UInt32)
    (created : Option CreatedAsset) (scan : HashScan)
    (entry : TransactionInput × ℕ) : Result LedgerError HashScan := do
  let key := entry.1.key
  require (key ∉ scan.seenInputs) .doubleSpend
  let tracked ← okOr (ledger.utxos.lookup key) .missingInput
  let witnessBytes ← okOr tx.witness.inputs[entry.2]? .missingWitness
  let witness ← okOr (Bincode.deserializeWitness witnessBytes) .invalidWitness
  let scriptBytes ← orPanic (encodeScript witness.script)
  require (Blake3.hash scriptBytes = tracked.output.ownerScriptHash)
    .scriptHashMismatch
  require (metadataMatches tracked.output.metadataHash witness.metadata)
    .metadataHashMismatch
  let _ ← mapErr (fun _ => LedgerError.scriptFailed)
    (engine witness.script
      (LedgerState.inputContext tx entry.2 currentHeight chainId tracked)
      (ledger.scriptHost currentHeight))
  return scan.record created key tracked.output

def scanInputs (ledger : HashLedger) (tx : Transaction)
    (engine : ScriptEngine) (currentHeight : UInt64) (chainId : UInt32)
    (created : Option CreatedAsset) : Result LedgerError HashScan :=
  tx.core.inputs.zipIdx.foldlM
    (ledger.scanInput tx engine currentHeight chainId created) HashScan.init

/-- Everything checked before the ledger is first written to. -/
def checkTransaction (ledger : HashLedger) (tx : Transaction)
    (engine : ScriptEngine) (currentHeight : UInt64) (chainId : UInt32) :
    Result LedgerError (Option CreatedAsset × HashScan) := do
  let created ← ledger.checkCreation chainId tx.core.kind
  let scan ← ledger.scanInputs tx engine currentHeight chainId created
  match created with
  | none => return (none, scan)
  | some asset =>
      settleCreation asset scan (HashTotals.outputTotals tx.core.outputs)
      return (some asset, scan)

end Checks

/-! ## The call -/

def register (ledger : HashLedger) : Option CreatedAsset → HashLedger
  | none => ledger
  | some created => { ledger with
      assets := ledger.assets.insert created.assetId created.definition }

def removeUtxos (ledger : HashLedger) (consumedUtxos : List UtxoKey) :
    HashLedger :=
  { ledger with utxos := ledger.utxos.eraseAll consumedUtxos }

def insertUtxos (ledger : HashLedger) (txId : Hash256)
    (outputs : List Output) (currentHeight : UInt64) : HashLedger :=
  { ledger with
    utxos := ledger.utxos.insertAll
      (createdEntries txId outputs currentHeight) }

/-- `LedgerState::apply_transaction`. -/
def applyTransaction [Blake3] [Bincode] (ledger : HashLedger)
    (order : TotalsOrder) (tx : Transaction) (engine : ScriptEngine)
    (currentHeight : UInt64) (chainId : UInt32) :
    Result LedgerError Unit × HashLedger :=
  match ledger.checkTransaction tx engine currentHeight chainId with
  | .error abort => (.error abort, ledger)
  | .ok (created, scan) =>
      let ledger := ledger.register created
      match checkConservation order
          (HashTotals.withoutCreated created scan.inputTotals)
          (HashTotals.withoutCreated created
            (HashTotals.outputTotals tx.core.outputs)) with
      | .error abort => (.error abort, ledger)
      | .ok () =>
          let ledger := ledger.removeUtxos scan.consumedUtxos
          match tx.txId with
          | none => (.error .panic, ledger)
          | some txId =>
              (.ok (), ledger.insertUtxos txId tx.core.outputs currentHeight)

/-! ## The calls on the finite maps behind the lists -/

theorem scriptHost_view (ledger : HashLedger) (currentHeight : UInt64) :
    ledger.view.scriptHost currentHeight =
      ledger.scriptHost currentHeight := by
  simp only [LedgerState.scriptHost, scriptHost, view, Finmap.lookup_toFinmap]

/-- Sorting hides the orders of the passes. -/
theorem stateRoot_view [Blake3] (ledger : HashLedger) (order : LedgerOrder) :
    ledger.view.stateRoot = ledger.stateRoot order := by
  rw [LedgerState.stateRoot, LedgerState.stateRootPreimage, stateRoot,
    stateRootPreimage, order.utxos.sortBy_arrange UtxoKey.isLE_cmp,
    order.assets.sortBy_arrange AssetId.isLE_cmp]
  rfl

theorem settleCreation_view (created : CreatedAsset) (scan : HashScan)
    (outputTotals : HashTotals) :
    QCoin.settleCreation created scan.view outputTotals.toFinmap =
      settleCreation created scan outputTotals :=
  rfl

/-- The loops over the totals find a violation in every order or in none. -/
theorem checkConservation_view (order : TotalsOrder)
    (inputTotals outputTotals : HashTotals) :
    QCoin.checkConservation inputTotals.toFinmap outputTotals.toFinmap =
      checkConservation order inputTotals outputTotals := by
  rw [QCoin.checkConservation, checkConservation, forM_require, forM_require]
  have hinputs : (∀ entry ∈ order.inputTotals.arrange inputTotals,
        entry.2 = outputTotals.amountAt entry.1) ↔
      ∀ id ∈ inputTotals.toFinmap.keys,
        Totals.amountAt inputTotals.toFinmap id =
          Totals.amountAt outputTotals.toFinmap id := by
    simp only [AssocMap.amountAt_toFinmap outputTotals]
    exact order.inputTotals.forall_amounts
      (p := fun id amount => amount = outputTotals.amountAt id)
  have houtputs : (∀ entry ∈ order.outputTotals.arrange outputTotals,
        ¬(entry.1 ∉ inputTotals ∧ 0 < entry.2)) ↔
      ∀ id ∈ outputTotals.toFinmap.keys,
        ¬(id ∉ inputTotals.toFinmap ∧
          0 < Totals.amountAt outputTotals.toFinmap id) := by
    simp only [Finmap.mem_toFinmap]
    exact order.outputTotals.forall_amounts
      (p := fun id amount => ¬(id ∉ inputTotals ∧ 0 < amount))
  rw [require_congr hinputs, require_congr houtputs]

theorem view_register (ledger : HashLedger) (created : Option CreatedAsset) :
    (ledger.register created).view = ledger.view.register created := by
  cases created with
  | none => rfl
  | some asset =>
      rw [register, view, ← Finmap.insert_toFinmap]
      rfl

theorem view_removeUtxos (ledger : HashLedger)
    (consumedUtxos : List UtxoKey) :
    (ledger.removeUtxos consumedUtxos).view =
      ledger.view.removeUtxos consumedUtxos := by
  rw [removeUtxos, view, AssocMap.toFinmap_eraseAll]
  rfl

theorem view_insertUtxos (ledger : HashLedger) (txId : Hash256)
    (outputs : List Output) (currentHeight : UInt64) :
    (ledger.insertUtxos txId outputs currentHeight).view =
      ledger.view.insertUtxos txId outputs currentHeight := by
  rw [insertUtxos, view, AssocMap.toFinmap_insertAll]
  rfl

section Refinement

variable [Blake3]

theorem checkCreation_view (ledger : HashLedger) (chainId : UInt32)
    (kind : TransactionKind) :
    ledger.view.checkCreation chainId kind =
      ledger.checkCreation chainId kind := by
  cases kind with
  | transfer => rfl
  | createAsset definition initialSupply =>
      have hfresh : deriveAssetId definition chainId ∉ ledger.view.assets ↔
          deriveAssetId definition chainId ∉ ledger.assets :=
        not_congr Finmap.mem_toFinmap
      rw [LedgerState.checkCreation, checkCreation, require_congr hfresh]

variable [Bincode]

theorem map_scanInput (ledger : HashLedger) (tx : Transaction)
    (engine : ScriptEngine) (currentHeight : UInt64) (chainId : UInt32)
    (created : Option CreatedAsset) (scan : HashScan)
    (entry : TransactionInput × ℕ) :
    (ledger.scanInput tx engine currentHeight chainId created scan entry).map
        HashScan.view =
      ledger.view.scanInput tx engine currentHeight chainId created scan.view
        entry := by
  have hlookup : ledger.view.utxos.lookup entry.1.key =
      ledger.utxos.lookup entry.1.key := Finmap.lookup_toFinmap _ _
  simp only [scanInput, LedgerState.scanInput, map_bind_eq, hlookup,
    scriptHost_view, ← HashScan.view_record]
  rfl

theorem map_scanInputs (ledger : HashLedger) (tx : Transaction)
    (engine : ScriptEngine) (currentHeight : UInt64) (chainId : UInt32)
    (created : Option CreatedAsset) :
    (ledger.scanInputs tx engine currentHeight chainId created).map
        HashScan.view =
      ledger.view.scanInputs tx engine currentHeight chainId created :=
  foldlM_map_of_step
    (ledger.map_scanInput tx engine currentHeight chainId created)
    tx.core.inputs.zipIdx HashScan.init

theorem map_checkTransaction (ledger : HashLedger) (tx : Transaction)
    (engine : ScriptEngine) (currentHeight : UInt64) (chainId : UInt32) :
    (ledger.checkTransaction tx engine currentHeight chainId).map
        (Prod.map id HashScan.view) =
      ledger.view.checkTransaction tx engine currentHeight chainId := by
  rw [checkTransaction, LedgerState.checkTransaction, checkCreation_view,
    map_bind_eq]
  congr 1
  funext created
  rw [map_bind_eq, ← map_scanInputs, map_eq_bind]
  congr 1
  funext scan
  cases created with
  | none => rfl
  | some asset =>
      change Except.map _ (settleCreation asset scan _ >>= _) =
        QCoin.settleCreation asset scan.view _ >>= _
      rw [map_bind_eq, ← HashTotals.toFinmap_outputTotals,
        settleCreation_view]
      rfl

/-- The orders of the passes do not show in what a transaction does. -/
theorem view_applyTransaction (ledger : HashLedger) (order : TotalsOrder)
    (tx : Transaction) (engine : ScriptEngine) (currentHeight : UInt64)
    (chainId : UInt32) :
    (ledger.applyTransaction order tx engine currentHeight chainId).map id
        view =
      ledger.view.applyTransaction tx engine currentHeight chainId := by
  rw [applyTransaction, LedgerState.applyTransaction, ← map_checkTransaction]
  cases ledger.checkTransaction tx engine currentHeight chainId with
  | error abort => rfl
  | ok checked =>
      obtain ⟨created, scan⟩ := checked
      have hconservation := checkConservation_view order
        (HashTotals.withoutCreated created scan.inputTotals)
        (HashTotals.withoutCreated created
          (HashTotals.outputTotals tx.core.outputs))
      rw [HashTotals.toFinmap_withoutCreated,
        HashTotals.toFinmap_withoutCreated,
        HashTotals.toFinmap_outputTotals] at hconservation
      simp only [Except.map, Prod.map, id_eq]
      rw [show scan.view.inputTotals = scan.inputTotals.toFinmap from rfl,
        show scan.view.consumedUtxos = scan.consumedUtxos from rfl,
        hconservation, ← view_register, ← view_removeUtxos]
      cases checkConservation order
          (HashTotals.withoutCreated created scan.inputTotals)
          (HashTotals.withoutCreated created
            (HashTotals.outputTotals tx.core.outputs)) with
      | error abort => rfl
      | ok passed =>
          cases tx.txId with
          | none => rfl
          | some txId =>
              simp only [← view_insertUtxos]

end Refinement

end HashLedger

end QCoin
