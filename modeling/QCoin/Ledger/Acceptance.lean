import QCoin.Ledger.ApplyTransaction

/-!
# Accepted transactions

`applyTransaction_eq_ok` says without reference to the order of the checks
which transactions `apply_transaction` accepts and what they do to the ledger.
Everything later modules know about accepted transactions is derived from it.
-/

namespace QCoin

open Support
open Support.Result

/-! ## Totals -/

/-- The amounts listed for one asset, in order. -/
def amountsOf (id : AssetId) (outputs : List Output) : List U128 :=
  ((outputs.flatMap Output.assets).filter fun asset =>
    asset.assetId = id).map AssetAmount.amount

/-- The `u128` total of one asset. -/
def totalOf (id : AssetId) (outputs : List Output) : U128 :=
  wrapSum 0 (amountsOf id outputs)

theorem amountsOf_cons (id : AssetId) (output : Output)
    (outputs : List Output) :
    amountsOf id (output :: outputs) =
      amountsOf id [output] ++ amountsOf id outputs := by
  simp [amountsOf]

theorem accumulateAssets_eq_addAll (totals : Totals Hash256 128)
    (assets : List AssetAmount) :
    accumulateAssets totals assets =
      totals.addAll (assets.map fun asset =>
        (asset.assetId.hash, asset.amount)) := by
  rw [Totals.addAll, List.foldl_map]
  rfl

theorem amountsAt_entries (id : AssetId) (assets : List AssetAmount) :
    Totals.amountsAt id.hash (assets.map fun asset =>
        (asset.assetId.hash, asset.amount)) =
      (assets.filter fun asset => asset.assetId = id).map
        AssetAmount.amount := by
  have hiff : ∀ asset : AssetAmount,
      asset.assetId.hash = id.hash ↔ asset.assetId = id := fun asset =>
    AssetId.hash_injective.eq_iff
  simp [Totals.amountsAt, List.filter_map, Function.comp_def, hiff]

theorem amountAt_accumulateOutputs (totals : Totals Hash256 128)
    (outputs : List Output) (id : AssetId) :
    (accumulateOutputs totals outputs).amountAt id.hash =
      wrapSum (totals.amountAt id.hash) (amountsOf id outputs) := by
  induction outputs generalizing totals with
  | nil => rfl
  | cons output outputs ih =>
      change (accumulateOutputs (accumulateAssets totals output.assets)
        outputs).amountAt id.hash = _
      rw [ih, accumulateAssets_eq_addAll, Totals.amountAt_addAll,
        amountsAt_entries, amountsOf_cons]
      simp [wrapSum, List.foldl_append, amountsOf]

theorem amountAt_outputTotals (outputs : List Output) (id : AssetId) :
    (outputTotals outputs).amountAt id.hash = totalOf id outputs := by
  have h := amountAt_accumulateOutputs ∅ outputs id
  rwa [Totals.amountAt_empty] at h

/-- The two comparison loops accept exactly the totals which agree. -/
theorem checkConservation_eq_ok {xs ys : Totals Hash256 128} {u : Unit} :
    checkConservation xs ys = .ok u ↔
      ∀ k, xs.amountAt k = ys.amountAt k := by
  rw [checkConservation, bind_eq_ok]
  simp only [require_eq_ok, Finmap.mem_keys]
  constructor
  · rintro ⟨-, hinput, houtput⟩ k
    by_cases hx : k ∈ xs
    · exact hinput k hx
    · rw [Totals.amountAt_of_notMem hx]
      by_cases hy : k ∈ ys
      · have hnot : ¬0 < ys.amountAt k := fun hpos =>
          houtput k hy ⟨hx, hpos⟩
        exact (BitVec.not_lt.mp hnot |> BitVec.le_zero_iff.mp).symm
      · rw [Totals.amountAt_of_notMem hy]
  · intro h
    refine ⟨(), fun k _ => h k, ?_⟩
    rintro k - ⟨hx, hpos⟩
    rw [← h k, Totals.amountAt_of_notMem hx] at hpos
    exact absurd hpos (BitVec.lt_irrefl _)

theorem withoutCreated_none (totals : Totals Hash256 128) :
    LedgerState.withoutCreated none totals = totals := rfl

theorem amountAt_withoutCreated (created : CreatedAsset)
    (totals : Totals Hash256 128) (k : Hash256) :
    (LedgerState.withoutCreated (some created) totals).amountAt k =
      if k = created.assetId.hash then 0 else totals.amountAt k :=
  Totals.amountAt_erase totals created.assetId.hash k

/-! ## The consumed outputs -/

namespace LedgerState

/-- The outputs which the inputs refer to. -/
def consumedOutputs (ledger : LedgerState) (inputs : List TransactionInput) :
    List Output :=
  inputs.filterMap fun input =>
    (ledger.utxos.lookup input.key).map TrackedOutput.output

theorem consumedOutputs_cons {ledger : LedgerState}
    {input : TransactionInput} {tracked : TrackedOutput}
    (h : ledger.utxos.lookup input.key = some tracked)
    (inputs : List TransactionInput) :
    ledger.consumedOutputs (input :: inputs) =
      tracked.output :: ledger.consumedOutputs inputs := by
  simp [consumedOutputs, h]

theorem mem_consumedOutputs {ledger : LedgerState}
    {inputs : List TransactionInput} {output : Output} :
    output ∈ ledger.consumedOutputs inputs ↔ ∃ input ∈ inputs,
      ∃ tracked, ledger.utxos.lookup input.key = some tracked ∧
        tracked.output = output := by
  simp [consumedOutputs, List.mem_filterMap]

end LedgerState

/-- The state of the loop after scanning `inputs`, all of which are stored. -/
def InputScan.recordAll (scan : InputScan) (ledger : LedgerState)
    (created : Option CreatedAsset) (inputs : List TransactionInput) :
    InputScan where
  seenInputs := scan.seenInputs ∪
    (inputs.map TransactionInput.key).toFinset
  consumedUtxos := scan.consumedUtxos ++ inputs.map TransactionInput.key
  inputTotals :=
    accumulateOutputs scan.inputTotals (ledger.consumedOutputs inputs)
  issuerAuthorized := scan.issuerAuthorized ||
    (ledger.consumedOutputs inputs).any fun output =>
      created.any fun asset => asset.authorizedBy output

theorem InputScan.recordAll_record {ledger : LedgerState} {scan : InputScan}
    {created : Option CreatedAsset} {input : TransactionInput}
    {tracked : TrackedOutput}
    (h : ledger.utxos.lookup input.key = some tracked)
    (inputs : List TransactionInput) :
    (scan.record created input.key tracked.output).recordAll ledger created
        inputs =
      scan.recordAll ledger created (input :: inputs) := by
  simp only [InputScan.recordAll, InputScan.record,
    LedgerState.consumedOutputs_cons h, InputScan.mk.injEq]
  refine ⟨?_, by simp, rfl, by simp [Bool.or_assoc]⟩
  ext key
  simp only [Finset.mem_union, Finset.mem_insert, List.mem_toFinset,
    List.map_cons, List.mem_cons]
  tauto

theorem InputScan.inputTotals_recordAll (ledger : LedgerState)
    (created : Option CreatedAsset) (id : AssetId)
    (inputs : List TransactionInput) :
    (init.recordAll ledger created inputs).inputTotals.amountAt id.hash =
      totalOf id (ledger.consumedOutputs inputs) :=
  amountAt_outputTotals (ledger.consumedOutputs inputs) id

/-! ## What acceptance means -/

section Spec

variable [Blake3]

/-- The asset which a transaction of this kind creates. -/
def TransactionKind.createdAsset (chainId : UInt32) :
    TransactionKind → Option CreatedAsset
  | .transfer => none
  | .createAsset definition initialSupply =>
      some ⟨deriveAssetId definition chainId, definition, initialSupply⟩

namespace LedgerState

/-- An input passes the checks of the input loop. -/
structure InputUnlocked [Bincode] (ledger : LedgerState) (tx : Transaction)
    (engine : ScriptEngine) (currentHeight : UInt64) (chainId : UInt32)
    (input : TransactionInput) (inputIndex : ℕ) (tracked : TrackedOutput)
    (witness : InputWitness) : Prop where
  found : ledger.utxos.lookup input.key = some tracked
  presented : ∃ bytes, tx.witness.inputs[inputIndex]? = some bytes ∧
    Bincode.deserializeWitness bytes = some witness
  scriptMatches : ∃ bytes, encodeScript witness.script = some bytes ∧
    Blake3.hash bytes = tracked.output.ownerScriptHash
  metadataOk :
    metadataMatches tracked.output.metadataHash witness.metadata = true
  evaluates : ∃ result, engine witness.script
    (inputContext tx inputIndex currentHeight chainId tracked)
    (ledger.scriptHost currentHeight) = .ok result

/-- The created asset passes the checks on it. -/
structure CreationAccepted (ledger : LedgerState) (core : TransactionCore)
    (created : CreatedAsset) : Prop where
  notNative : created.assetId ≠ QCOIN_ASSET_ID
  fresh : created.assetId ∉ ledger.assets
  minted : totalOf created.assetId core.outputs = created.initialSupply
  withinMax : ∀ max ∈ created.definition.maxSupply,
    created.initialSupply ≤ max
  notSpent :
    totalOf created.assetId (ledger.consumedOutputs core.inputs) = 0
  authorized : ∃ output ∈ ledger.consumedOutputs core.inputs,
    created.authorizedBy output = true

structure Accepts [Bincode] (ledger : LedgerState) (tx : Transaction)
    (engine : ScriptEngine) (currentHeight : UInt64) (chainId : UInt32) :
    Prop where
  inputsDistinct : (tx.core.inputs.map TransactionInput.key).Nodup
  unlocked : ∀ entry ∈ tx.core.inputs.zipIdx, ∃ tracked witness,
    ledger.InputUnlocked tx engine currentHeight chainId entry.1 entry.2
      tracked witness
  creation : ∀ created ∈ tx.core.kind.createdAsset chainId,
    ledger.CreationAccepted tx.core created
  conserved : ∀ id,
    (∀ created ∈ tx.core.kind.createdAsset chainId, id ≠ created.assetId) →
      totalOf id (ledger.consumedOutputs tx.core.inputs) =
        totalOf id tx.core.outputs

/-- The ledger after an accepted transaction; only its core matters. -/
def afterCore (ledger : LedgerState) (core : TransactionCore)
    (txId : Hash256) (currentHeight : UInt64) (chainId : UInt32) :
    LedgerState :=
  ((ledger.register (core.kind.createdAsset chainId)).removeUtxos
    (core.inputs.map TransactionInput.key)).insertUtxos txId core.outputs
      currentHeight

end LedgerState

/-! ## The loop over the inputs -/

namespace LedgerState

variable [Bincode] {ledger : LedgerState} {tx : Transaction}
  {engine : ScriptEngine} {currentHeight : UInt64} {chainId : UInt32}
  {created : Option CreatedAsset}

theorem scanInput_eq_ok {scan scan' : InputScan}
    {entry : TransactionInput × ℕ} :
    ledger.scanInput tx engine currentHeight chainId created scan entry =
        .ok scan' ↔
      entry.1.key ∉ scan.seenInputs ∧ ∃ tracked witness,
        ledger.InputUnlocked tx engine currentHeight chainId entry.1 entry.2
          tracked witness ∧
        scan.record created entry.1.key tracked.output = scan' := by
  simp only [scanInput, bind_eq_ok, require_eq_ok, okOr_eq_ok, orPanic_eq_ok,
    mapErr_eq_ok, pure_eq_ok]
  constructor
  · rintro ⟨-, hseen, tracked, hfound, bytes, hbytes, witness, hwitness,
      scriptBytes, hscript, -, hhash, -, hmeta, result, heval, hscan⟩
    exact ⟨hseen, tracked, witness, ⟨hfound, ⟨bytes, hbytes, hwitness⟩,
      ⟨scriptBytes, hscript, hhash⟩, hmeta, ⟨result, heval⟩⟩, hscan⟩
  · rintro ⟨hseen, tracked, witness, ⟨hfound, ⟨bytes, hbytes, hwitness⟩,
      ⟨scriptBytes, hscript, hhash⟩, hmeta, ⟨result, heval⟩⟩, hscan⟩
    exact ⟨(), hseen, tracked, hfound, bytes, hbytes, witness, hwitness,
      scriptBytes, hscript, (), hhash, (), hmeta, result, heval, hscan⟩

/-- The loop accepts exactly pairwise distinct unlocked inputs. -/
theorem scanInput_foldlM_eq_ok {scan scan' : InputScan}
    {entries : List (TransactionInput × ℕ)} :
    entries.foldlM
        (ledger.scanInput tx engine currentHeight chainId created) scan =
        .ok scan' ↔
      (entries.map fun entry => entry.1.key).Nodup ∧
      (∀ entry ∈ entries, entry.1.key ∉ scan.seenInputs) ∧
      (∀ entry ∈ entries, ∃ tracked witness,
        ledger.InputUnlocked tx engine currentHeight chainId entry.1 entry.2
          tracked witness) ∧
      scan.recordAll ledger created (entries.map Prod.fst) = scan' := by
  induction entries generalizing scan with
  | nil =>
      simp [InputScan.recordAll, consumedOutputs, accumulateOutputs]
  | cons entry entries ih =>
      rw [List.foldlM_cons, bind_eq_ok]
      simp only [ih, scanInput_eq_ok, List.map_cons, List.nodup_cons,
        List.forall_mem_cons]
      constructor
      · rintro ⟨mid, ⟨hseen, tracked, witness, hunlocked, rfl⟩, hnodup,
          hnotseen, hrest, hscan⟩
        have hseenRest : ∀ e ∈ entries, e.1.key ∉ scan.seenInputs ∧
            e.1.key ≠ entry.1.key := by
          intro e he
          have h := hnotseen e he
          simp only [InputScan.record, Finset.mem_insert, not_or] at h
          exact ⟨h.2, h.1⟩
        refine ⟨⟨?_, hnodup⟩, ⟨hseen, fun e he => (hseenRest e he).1⟩,
          ⟨⟨tracked, witness, hunlocked⟩, hrest⟩, ?_⟩
        · intro hmem
          obtain ⟨e, he, hkey⟩ := List.mem_map.mp hmem
          exact (hseenRest e he).2 hkey
        · rw [← hscan, InputScan.recordAll_record hunlocked.found]
      · rintro ⟨⟨hnew, hnodup⟩, ⟨hseen, hnotseen⟩,
          ⟨⟨tracked, witness, hunlocked⟩, hrest⟩, hscan⟩
        refine ⟨_, ⟨hseen, tracked, witness, hunlocked, rfl⟩, hnodup, ?_,
          hrest, ?_⟩
        · intro e he
          simp only [InputScan.record, Finset.mem_insert, not_or]
          refine ⟨fun hkey => hnew ?_, hnotseen e he⟩
          exact List.mem_map.mpr ⟨e, he, hkey⟩
        · rw [InputScan.recordAll_record hunlocked.found, hscan]

theorem scanInputs_eq_ok {scan : InputScan} :
    ledger.scanInputs tx engine currentHeight chainId created = .ok scan ↔
      (tx.core.inputs.map TransactionInput.key).Nodup ∧
      (∀ entry ∈ tx.core.inputs.zipIdx, ∃ tracked witness,
        ledger.InputUnlocked tx engine currentHeight chainId entry.1 entry.2
          tracked witness) ∧
      InputScan.init.recordAll ledger created tx.core.inputs = scan := by
  have hkeys : (tx.core.inputs.zipIdx.map fun entry => entry.1.key) =
      tx.core.inputs.map TransactionInput.key := by
    have hmap : (tx.core.inputs.zipIdx.map Prod.fst).map
        TransactionInput.key = tx.core.inputs.map TransactionInput.key := by
      rw [List.zipIdx_map_fst]
    rwa [List.map_map] at hmap
  rw [scanInputs, scanInput_foldlM_eq_ok, hkeys, List.zipIdx_map_fst]
  simp [InputScan.init]

/-! ## The remaining checks -/

omit [Bincode] in
theorem checkCreation_eq_ok {kind : TransactionKind} :
    ledger.checkCreation chainId kind = .ok created ↔
      kind.createdAsset chainId = created ∧
      ∀ asset ∈ kind.createdAsset chainId,
        asset.assetId ≠ QCOIN_ASSET_ID ∧ asset.assetId ∉ ledger.assets := by
  cases kind with
  | transfer =>
      simp [checkCreation, TransactionKind.createdAsset]
  | createAsset definition initialSupply =>
      have hnative : isQcoinAssetId (deriveAssetId definition chainId) = true ↔
          deriveAssetId definition chainId = QCOIN_ASSET_ID := by
        rw [isQcoinAssetId, beq_iff_eq, AssetId.hash_injective.eq_iff]
      simp only [checkCreation, bind_eq_ok, require_eq_ok, pure_eq_ok,
        TransactionKind.createdAsset, Option.mem_some_iff, forall_eq', hnative]
      constructor
      · rintro ⟨-, hne, -, hfresh, hcreated⟩
        exact ⟨hcreated, hne, hfresh⟩
      · rintro ⟨hcreated, hne, hfresh⟩
        exact ⟨(), hne, (), hfresh, hcreated⟩

omit [Blake3] [Bincode] in
theorem settleCreation_eq_ok {asset : CreatedAsset}
    {core : TransactionCore} {u : Unit} :
    settleCreation asset
        (InputScan.init.recordAll ledger (some asset) core.inputs)
        (outputTotals core.outputs) = .ok u ↔
      totalOf asset.assetId core.outputs = asset.initialSupply ∧
      (∀ max ∈ asset.definition.maxSupply, asset.initialSupply ≤ max) ∧
      totalOf asset.assetId (ledger.consumedOutputs core.inputs) = 0 ∧
      ∃ output ∈ ledger.consumedOutputs core.inputs,
        asset.authorizedBy output = true := by
  have hauthorized :
      (InputScan.init.recordAll ledger (some asset)
          core.inputs).issuerAuthorized = true ↔
        ∃ output ∈ ledger.consumedOutputs core.inputs,
          asset.authorizedBy output = true := by
    simp [InputScan.recordAll, InputScan.init]
  have hspent := InputScan.inputTotals_recordAll ledger (some asset)
    asset.assetId core.inputs
  simp only [settleCreation, bind_eq_ok, require_eq_ok, amountAt_outputTotals,
    hspent, hauthorized, BitVec.not_lt]
  constructor
  · rintro ⟨-, hminted, -, hmax, -, hspent, houtput⟩
    rw [hminted] at hmax
    exact ⟨hminted, hmax, hspent, houtput⟩
  · rintro ⟨hminted, hmax, hspent, houtput⟩
    rw [← hminted] at hmax
    exact ⟨(), hminted, (), hmax, (), hspent, houtput⟩

theorem checkTransaction_eq_ok {scan : InputScan} :
    ledger.checkTransaction tx engine currentHeight chainId =
        .ok (created, scan) ↔
      tx.core.kind.createdAsset chainId = created ∧
      InputScan.init.recordAll ledger created tx.core.inputs = scan ∧
      (tx.core.inputs.map TransactionInput.key).Nodup ∧
      (∀ entry ∈ tx.core.inputs.zipIdx, ∃ tracked witness,
        ledger.InputUnlocked tx engine currentHeight chainId entry.1 entry.2
          tracked witness) ∧
      ∀ asset ∈ tx.core.kind.createdAsset chainId,
        ledger.CreationAccepted tx.core asset := by
  simp only [checkTransaction, bind_eq_ok, checkCreation_eq_ok,
    scanInputs_eq_ok]
  cases hkind : tx.core.kind.createdAsset chainId with
  | none =>
      constructor
      · rintro ⟨_, ⟨rfl, -⟩, _, ⟨hnodup, hunlocked, rfl⟩, hpair⟩
        simp only [pure_eq_ok, Prod.mk.injEq] at hpair
        obtain ⟨rfl, rfl⟩ := hpair
        exact ⟨rfl, rfl, hnodup, hunlocked, by simp⟩
      · rintro ⟨rfl, rfl, hnodup, hunlocked, -⟩
        exact ⟨none, ⟨rfl, by simp⟩, _, ⟨hnodup, hunlocked, rfl⟩, rfl⟩
  | some asset =>
      simp only [Option.mem_some_iff, forall_eq']
      constructor
      · rintro ⟨_, ⟨rfl, hnative, hfresh⟩, _, ⟨hnodup, hunlocked, rfl⟩,
          hsettle⟩
        simp only [bind_eq_ok, settleCreation_eq_ok, pure_eq_ok,
          Prod.mk.injEq] at hsettle
        obtain ⟨-, ⟨hminted, hmax, hspent, houtput⟩, rfl, rfl⟩ := hsettle
        exact ⟨rfl, rfl, hnodup, hunlocked,
          ⟨hnative, hfresh, hminted, hmax, hspent, houtput⟩⟩
      · rintro ⟨rfl, rfl, hnodup, hunlocked,
          ⟨hnative, hfresh, hminted, hmax, hspent, houtput⟩⟩
        refine ⟨some asset, ⟨rfl, hnative, hfresh⟩, _,
          ⟨hnodup, hunlocked, rfl⟩, ?_⟩
        simp only [bind_eq_ok, settleCreation_eq_ok, pure_eq_ok, and_true]
        exact ⟨(), hminted, hmax, hspent, houtput⟩

omit [Blake3] [Bincode] in
/-- The compared totals agree when all assets but the created one do. -/
theorem checkConservation_withoutCreated_eq_ok
    {core : TransactionCore} {u : Unit} :
    checkConservation
        (withoutCreated created (InputScan.init.recordAll ledger created
          core.inputs).inputTotals)
        (withoutCreated created (outputTotals core.outputs)) = .ok u ↔
      ∀ id, (∀ asset ∈ created, id ≠ asset.assetId) →
        totalOf id (ledger.consumedOutputs core.inputs) =
          totalOf id core.outputs := by
  rw [checkConservation_eq_ok]
  cases created with
  | none =>
      simp only [withoutCreated_none, Option.not_mem_none, false_implies,
        implies_true, true_implies]
      constructor
      · intro h id
        rw [← InputScan.inputTotals_recordAll ledger none, h id.hash,
          amountAt_outputTotals]
      · intro h k
        rw [InputScan.inputTotals_recordAll ledger none ⟨k⟩, h ⟨k⟩,
          amountAt_outputTotals _ ⟨k⟩]
  | some asset =>
      simp only [amountAt_withoutCreated, Option.mem_some_iff, forall_eq']
      constructor
      · intro h id hne
        have hhash : id.hash ≠ asset.assetId.hash := fun heq =>
          hne (AssetId.hash_injective heq)
        have hid := h id.hash
        rwa [if_neg hhash, if_neg hhash, InputScan.inputTotals_recordAll,
          amountAt_outputTotals] at hid
      · intro h k
        by_cases hk : k = asset.assetId.hash
        · rw [if_pos hk, if_pos hk]
        · rw [if_neg hk, if_neg hk]
          have hne : (⟨k⟩ : AssetId) ≠ asset.assetId := fun heq =>
            hk (congrArg AssetId.hash heq)
          rw [InputScan.inputTotals_recordAll ledger _ ⟨k⟩, h ⟨k⟩ hne,
            amountAt_outputTotals _ ⟨k⟩]

/-- A transaction is accepted when its core and witness meet `Accepts`; the
ledger left behind depends on the core alone. -/
theorem applyTransaction_eq_ok {ledger' : LedgerState} {u : Unit} :
    ledger.applyTransaction tx engine currentHeight chainId =
        (.ok u, ledger') ↔
      ledger.Accepts tx engine currentHeight chainId ∧
      ∃ txId, tx.txId = some txId ∧
        ledger.afterCore tx.core txId currentHeight chainId = ledger' := by
  constructor
  · intro happly
    unfold applyTransaction at happly
    split at happly
    · simp at happly
    · rename_i created scan hcheck
      obtain ⟨rfl, rfl, hnodup, hunlocked, hcreation⟩ :=
        checkTransaction_eq_ok.mp hcheck
      split at happly
      · simp at happly
      · rename_i hconserved
        split at happly
        · simp at happly
        · rename_i txId htxId
          simp only [Prod.mk.injEq] at happly
          refine ⟨⟨hnodup, hunlocked, hcreation, ?_⟩, txId, htxId, ?_⟩
          · exact checkConservation_withoutCreated_eq_ok.mp hconserved
          · simpa [afterCore, InputScan.recordAll, InputScan.init] using
              happly.2
  · rintro ⟨haccepts, txId, htxId, rfl⟩
    have hcheck : ledger.checkTransaction tx engine currentHeight chainId =
        .ok (tx.core.kind.createdAsset chainId,
          InputScan.init.recordAll ledger
            (tx.core.kind.createdAsset chainId) tx.core.inputs) :=
      checkTransaction_eq_ok.mpr ⟨rfl, rfl, haccepts.inputsDistinct,
        haccepts.unlocked, haccepts.creation⟩
    have hconserved :=
      (checkConservation_withoutCreated_eq_ok (u := ())).mpr
        haccepts.conserved
    rw [applyTransaction, hcheck]
    simp only [hconserved, htxId]
    simp [afterCore, InputScan.recordAll, InputScan.init]

end LedgerState

end Spec

end QCoin
