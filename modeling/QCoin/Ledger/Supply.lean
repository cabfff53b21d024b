import QCoin.Ledger.History
import QCoin.Ledger.Issuance

/-!
# Supply over whole runs

Where no total overflows, the amount of an asset in the UTXO set is the supply
declared at its creation.  Conservation by each step is not enough for this,
because a transaction which is applied a second time overwrites its outputs.
The spend log of the run shows that only transactions without any amount in
their outputs can recur, so what is overwritten is worth nothing.
-/

namespace QCoin

open Support

/-- An output which holds a nonzero amount of some asset. -/
def Output.Valuable (output : Output) : Prop :=
  ∃ asset ∈ output.assets, asset.amount ≠ 0

/-- The amount of an asset which a stored output holds. -/
def TrackedOutput.amountOf (id : AssetId) (tracked : TrackedOutput) : ℕ :=
  exactTotalOf id [tracked.output]

/-- The amount of an asset in the UTXO set. -/
def LedgerState.supplyOf (ledger : LedgerState) (id : AssetId) : ℕ :=
  FinMap.total (TrackedOutput.amountOf id) ledger.utxos

theorem exactTotalOf_cons (id : AssetId) (output : Output)
    (outputs : List Output) :
    exactTotalOf id (output :: outputs) =
      exactTotalOf id [output] + exactTotalOf id outputs := by
  rw [exactTotalOf, amountsOf_cons, exactSum_append]
  rfl

theorem exactTotalOf_eq_sum (id : AssetId) (outputs : List Output) :
    exactTotalOf id outputs =
      (outputs.map fun output => exactTotalOf id [output]).sum := by
  induction outputs with
  | nil => rfl
  | cons output outputs ih =>
      rw [exactTotalOf_cons, ih, List.map_cons, List.sum_cons]

theorem exactTotalOf_eq_zero {id : AssetId} {outputs : List Output}
    (h : ∀ output ∈ outputs, ¬output.Valuable) :
    exactTotalOf id outputs = 0 := by
  rw [exactTotalOf, exactSum_eq_zero_iff]
  intro amount hamount
  obtain ⟨asset, hasset, rfl⟩ := List.mem_map.mp hamount
  obtain ⟨output, houtput, hmem⟩ :=
    List.mem_flatMap.mp (List.mem_of_mem_filter hasset)
  by_contra hne
  exact h output houtput ⟨asset, hmem, hne⟩

theorem exists_exactTotalOf_ne_zero {outputs : List Output} {output : Output}
    (hmem : output ∈ outputs) (h : output.Valuable) :
    ∃ id, exactTotalOf id outputs ≠ 0 := by
  obtain ⟨asset, hasset, hne⟩ := h
  refine ⟨asset.assetId, fun hzero => hne ?_⟩
  rw [exactTotalOf, exactSum_eq_zero_iff] at hzero
  refine hzero asset.amount (List.mem_map.mpr ⟨asset, ?_, rfl⟩)
  exact List.mem_filter.mpr
    ⟨List.mem_flatMap.mpr ⟨output, hmem, hasset⟩, by simp⟩

theorem sum_createdEntries (id : AssetId) (txId : Hash256)
    (outputs : List Output) (currentHeight : UInt64) :
    ((createdEntries txId outputs currentHeight).map fun entry =>
        entry.2.amountOf id).sum = exactTotalOf id outputs := by
  have hfst := congrArg (List.map fun output => exactTotalOf id [output])
    (List.zipIdx_map_fst 0 outputs)
  rw [exactTotalOf_eq_sum, ← hfst, List.map_map, createdEntries, List.map_map]
  rfl

section Runs

variable [Blake3] [Bincode] {chainId : UInt32}

/-- No addition of amounts overflows while the step is checked. -/
def AppliedStep.NoOverflow (step : AppliedStep chainId) : Prop :=
  ∀ id, overflowsOf id
      (step.before.consumedOutputs step.tx.core.inputs) = 0 ∧
    overflowsOf id step.tx.core.outputs = 0

namespace AppliedStep

variable (step : AppliedStep chainId)

/-- The total held by the consumed outputs, entry by entry. -/
theorem sum_valueAt_consumed (id : AssetId) :
    (step.consumedKeys.map (FinMap.valueAt (TrackedOutput.amountOf id)
        step.before.utxos)).sum =
      exactTotalOf id (step.before.consumedOutputs step.tx.core.inputs) := by
  have hstored : ∀ input ∈ step.tx.core.inputs, ∃ tracked,
      step.before.utxos.lookup input.key = some tracked := by
    intro input hinput
    obtain ⟨i, tracked, witness, hunlocked⟩ := step.exists_unlocked hinput
    exact ⟨tracked, hunlocked.found⟩
  rw [consumedKeys]
  generalize step.tx.core.inputs = inputs at hstored
  induction inputs with
  | nil => rfl
  | cons input inputs ih =>
      rw [List.forall_mem_cons] at hstored
      obtain ⟨tracked, hfound⟩ := hstored.1
      rw [List.map_cons, List.map_cons, List.sum_cons, ih hstored.2,
        LedgerState.consumedOutputs_cons hfound, exactTotalOf_cons,
        FinMap.valueAt_of_lookup _ hfound]
      rfl

/-- Where the overwritten entries are worth nothing, the step adds what it
creates and takes away what it consumes. -/
theorem supplyOf_after (id : AssetId)
    (hworthless : ∀ key ∈ step.insertedKeys, ∀ tracked,
      step.before.utxos.lookup key = some tracked →
        tracked.amountOf id = 0) :
    step.after.supplyOf id +
        exactTotalOf id (step.before.consumedOutputs step.tx.core.inputs) =
      step.before.supplyOf id + exactTotalOf id step.tx.core.outputs := by
  have hkeys : (createdEntries step.txId step.tx.core.outputs
      step.currentHeight).map Prod.fst = step.insertedKeys :=
    map_fst_createdEntries _ _ _
  have hreplaced : ((createdEntries step.txId step.tx.core.outputs
      step.currentHeight).map fun entry => FinMap.valueAt
        (TrackedOutput.amountOf id) step.keptUtxos entry.1).sum = 0 := by
    apply List.sum_eq_zero
    intro n hn
    obtain ⟨entry, hentry, rfl⟩ := List.mem_map.mp hn
    have hkey : entry.1 ∈ step.insertedKeys := by
      rw [← hkeys]
      exact List.mem_map_of_mem hentry
    cases hlookup : step.keptUtxos.lookup entry.1 with
    | none =>
        exact FinMap.valueAt_of_notMem _ (Finmap.lookup_eq_none.mp hlookup)
    | some tracked =>
        rw [FinMap.valueAt_of_lookup _ hlookup]
        exact hworthless _ hkey _ (step.lookup_kept_iff.mp hlookup).2
  have herase := FinMap.total_eraseAll (TrackedOutput.amountOf id)
    (m := step.before.utxos) step.consumedKeys_nodup
  have hinsert := FinMap.total_insertAll (TrackedOutput.amountOf id)
    (m := step.keptUtxos) (hkeys ▸ step.insertedKeys_nodup)
  rw [hreplaced, sum_createdEntries, ← step.after_utxos] at hinsert
  rw [step.sum_valueAt_consumed] at herase
  rw [LedgerState.supplyOf, LedgerState.supplyOf, ← herase, ← keptUtxos]
  omega

/-- A step without overflow consumes what it creates, and nothing of an asset
it registers. -/
theorem exactTotalOf_consumed (hno : step.NoOverflow) (id : AssetId) :
    exactTotalOf id (step.before.consumedOutputs step.tx.core.inputs) =
      if ∃ created ∈ step.created, created.assetId = id then 0
      else exactTotalOf id step.tx.core.outputs := by
  by_cases hid : ∃ created ∈ step.created, created.assetId = id
  · rw [if_pos hid]
    obtain ⟨created, hcreated, rfl⟩ := hid
    have hnotSpent := (step.accepts.creation created hcreated).notSpent
    have hexact := exactSum_eq_toNat_iff.mpr (hno created.assetId).1
    rw [exactTotalOf, hexact]
    exact congrArg BitVec.toNat hnotSpent
  · rw [if_neg hid]
    have htotal := step.accepts.conserved id fun created hcreated heq =>
      hid ⟨created, hcreated, heq.symm⟩
    rw [exactTotalOf_eq_iff_overflowsOf_eq htotal, (hno id).1, (hno id).2]

theorem exactTotalOf_created (hno : step.NoOverflow) {created : CreatedAsset}
    (hcreated : created ∈ step.created) :
    exactTotalOf created.assetId step.tx.core.outputs =
      created.initialSupply.toNat :=
  ((step.accepts.creation created hcreated).exactTotalOf_eq_iff.mpr
    (hno created.assetId).2).1

end AppliedStep

/-! ## Which transactions can recur -/

/-- The keys of the valuable outputs of some cores. -/
def valuableKeys (cores : List TransactionCore) : Set UtxoKey :=
  {key | ∃ core ∈ cores, core.txId = some key.txId ∧
    ∃ i output, core.outputs[i]? = some output ∧
      key.index = UInt32.ofNat i ∧ output.Valuable}

omit [Bincode] in
def valuableCores : Set TransactionCore :=
  {core | ∃ output ∈ core.outputs, output.Valuable}

variable {steps : List (AppliedStep chainId)} {ledger : LedgerState}

theorem TxIdsCollisionFree.attributed (h : TxIdsCollisionFree steps) :
    utxoLog.Attributed (valuableKeys (coresOf steps)) valuableCores
      (coresOf steps) where
  creator_unique core hcore core' hcore' key hkey hkey' :=
    h.creator_unique hcore hcore' hkey hkey'
  solid_of_marked := by
    intro core hcore key hkey hvaluable
    obtain ⟨core', hcore', htxId, i, output, houtput, -, hv⟩ := hvaluable
    have heq : core' = core :=
      h hcore' hcore (htxId.trans (txId_of_mem_creates hkey).symm)
    exact ⟨output, heq ▸ List.mem_of_getElem? houtput, hv⟩

/-- A creation does not recur, because its asset id stays registered. -/
theorem LedgerRun.createAsset_notMem
    {step : AppliedStep chainId} (run : LedgerRun chainId steps step.before)
    {created : CreatedAsset} (hcreated : step.created = some created) :
    step.tx.core ∉ coresOf steps := by
  intro hmem
  obtain ⟨earlier, hearlier, hcore⟩ := List.mem_map.mp hmem
  have hsame : earlier.created = some created := by
    rw [AppliedStep.created, hcore]
    exact hcreated
  have hregistered : created ∈ registrations steps created.assetId := by
    refine List.mem_filter.mpr ⟨?_, by simp⟩
    exact List.mem_filterMap.mpr ⟨earlier, hearlier, hsame⟩
  have hnone := run.registrations_eq created.assetId
  rw [Finmap.lookup_eq_none.mpr (step.created_fresh hcreated)] at hnone
  rw [hnone] at hregistered
  exact absurd hregistered List.not_mem_nil

/-- A transfer of value spends an output of value. -/
theorem AppliedStep.exists_valuable_consumed (step : AppliedStep chainId)
    (hno : step.NoOverflow) (hcreated : step.created = none)
    (hvaluable : step.tx.core ∈ valuableCores) :
    ∃ key ∈ step.consumedKeys, ∃ tracked,
      step.before.utxos.lookup key = some tracked ∧
        tracked.output.Valuable := by
  obtain ⟨output, houtput, hv⟩ := hvaluable
  obtain ⟨id, hid⟩ := exists_exactTotalOf_ne_zero houtput hv
  have hconsumed := step.exactTotalOf_consumed hno id
  rw [if_neg (by simp [hcreated])] at hconsumed
  by_contra hnone
  push Not at hnone
  refine hid (hconsumed ▸ exactTotalOf_eq_zero ?_)
  intro consumed hmem
  obtain ⟨input, hinput, tracked, hfound, rfl⟩ :=
    LedgerState.mem_consumedOutputs.mp hmem
  exact hnone input.key (List.mem_map_of_mem hinput) tracked hfound

theorem LedgerRun.grounded (run : LedgerRun chainId steps ledger)
    (hno : ∀ step ∈ steps, step.NoOverflow) {cores : List TransactionCore}
    (hcores : ∀ core ∈ coresOf steps, core ∈ cores) :
    utxoLog.Grounded (valuableKeys cores) valuableCores (coresOf steps) := by
  induction run with
  | empty => trivial
  | @apply steps step run ih =>
      rw [List.forall_mem_cons] at hno
      have hearlier : ∀ core ∈ coresOf steps, core ∈ cores :=
        fun core hcore => hcores core (List.mem_cons_of_mem _ hcore)
      refine ⟨?_, ih hno.2 hearlier⟩
      intro hsolid hrepeated
      cases hcreated : step.created with
      | some created =>
          exact absurd hrepeated (run.createAsset_notMem hcreated)
      | none =>
          obtain ⟨key, hkey, tracked, hfound, hv⟩ :=
            step.exists_valuable_consumed hno.1 hcreated hsolid
          obtain ⟨origin, horigin, i, output, houtput, rfl, rfl⟩ :=
            run.provenance hfound
          exact ⟨_, hkey, origin.tx.core,
            hearlier _ (List.mem_map_of_mem horigin), origin.txId_eq, i,
            output, houtput, rfl, hv⟩

/-- What a step overwrites is worth nothing. -/
theorem LedgerRun.overwrites_worthless {step : AppliedStep chainId}
    (run : LedgerRun chainId steps step.before)
    (hno : ∀ s ∈ step :: steps, s.NoOverflow)
    (hids : TxIdsCollisionFree (step :: steps)) (id : AssetId)
    {key : UtxoKey} (hkey : key ∈ step.insertedKeys)
    {tracked : TrackedOutput}
    (hlookup : step.before.utxos.lookup key = some tracked) :
    tracked.amountOf id = 0 := by
  have hrun : LedgerRun chainId (step :: steps) step.after := .apply step run
  have hreuse := SpendLog.noReuse hrun.lawful hids.attributed
    (hrun.grounded hno fun _ h => h)
  have hfresh := (List.pairwise_cons.mp hreuse.distinct).1
  obtain ⟨origin, horigin, i, output, houtput, rfl, rfl⟩ :=
    run.provenance hlookup
  have hcore : origin.tx.core ∈ coresOf steps := List.mem_map_of_mem horigin
  have horiginKey : (⟨origin.txId, UInt32.ofNat i⟩ : UtxoKey) ∈
      utxoLog.creates origin.tx.core := by
    refine origin.mem_creates_iff.mpr (mem_createdKeys.mpr ⟨i, ?_, rfl⟩)
    exact (List.getElem?_eq_some_iff.mp houtput).1
  have hsame : step.tx.core = origin.tx.core :=
    hids.creator_unique List.mem_cons_self (List.mem_cons_of_mem _ hcore)
      (step.mem_creates_iff.mpr hkey) horiginKey
  apply exactTotalOf_eq_zero
  intro output' houtput' hv
  rw [List.mem_singleton] at houtput'
  subst houtput'
  have hsolid : step.tx.core ∈ valuableCores :=
    ⟨_, hsame ▸ List.mem_of_getElem? houtput, hv⟩
  exact hfresh _ hcore hsolid hsame

/-! ## Supply -/

/-- The supply declared by the registrations of an asset. -/
def declaredSupply (steps : List (AppliedStep chainId)) (id : AssetId) : ℕ :=
  ((registrations steps id).map fun created =>
    created.initialSupply.toNat).sum

theorem LedgerRun.supplyOf_eq_declared (run : LedgerRun chainId steps ledger)
    (hno : ∀ step ∈ steps, step.NoOverflow)
    (hids : TxIdsCollisionFree steps) (id : AssetId) :
    ledger.supplyOf id = declaredSupply steps id := by
  induction run with
  | empty => rfl
  | @apply steps step run ih =>
      have hbefore := ih (List.forall_mem_cons.mp hno).2 hids.tail
      have hafter := step.supplyOf_after id fun key hkey tracked hlookup =>
        run.overwrites_worthless hno hids id hkey hlookup
      have hstep := (List.forall_mem_cons.mp hno).1
      have hconsumed := step.exactTotalOf_consumed hstep id
      rw [declaredSupply, step.registrations_cons]
      cases hcreated : step.created with
      | none =>
          rw [hcreated, if_neg (by simp)] at hconsumed
          rw [List.nil_append, ← declaredSupply]
          omega
      | some created =>
          have hsupply := step.exactTotalOf_created hstep hcreated
          by_cases hid : created.assetId = id
          · rw [hcreated, if_pos ⟨created, rfl, hid⟩] at hconsumed
            rw [hid] at hsupply
            simp only [hid, if_true, List.map_append, List.sum_append,
              List.map_singleton, List.sum_singleton]
            rw [← declaredSupply]
            omega
          · rw [hcreated, if_neg (by simpa using hid)] at hconsumed
            simp only [hid, if_false, List.nil_append]
            rw [← declaredSupply]
            omega

/-- What the registry and the UTXO set of a reachable ledger say about each
other. -/
structure WholeRunSupply (steps : List (AppliedStep chainId))
    (ledger : LedgerState) : Prop where
  native_unregistered : QCOIN_ASSET_ID ∉ ledger.assets
  native_supply : ledger.supplyOf QCOIN_ASSET_ID = 0
  unregistered_supply : ∀ id, id ∉ ledger.assets → ledger.supplyOf id = 0
  registered_supply : ∀ id definition,
    ledger.assets.lookup id = some definition →
      id = deriveAssetId definition chainId ∧
      ∃ created, registrations steps id = [created] ∧
        created.definition = definition ∧
        ledger.supplyOf id = created.initialSupply.toNat ∧
        ∀ max ∈ definition.maxSupply, created.initialSupply ≤ max
  permanent : ∀ step ∈ steps, ∀ id definition,
    step.before.assets.lookup id = some definition →
      ledger.assets.lookup id = some definition

/-- In a run without overflow and without id collisions, the UTXO set holds
of every registered asset its initial supply and of no other asset
anything. -/
theorem whole_run_supply (run : LedgerRun chainId steps ledger)
    (hno : ∀ step ∈ steps, step.NoOverflow)
    (hids : TxIdsCollisionFree steps) : WholeRunSupply steps ledger := by
  have hunregistered : ∀ id, id ∉ ledger.assets →
      ledger.supplyOf id = 0 := by
    intro id hid
    have hnone := run.registrations_eq id
    rw [Finmap.lookup_eq_none.mpr hid] at hnone
    rw [run.supplyOf_eq_declared hno hids, declaredSupply, hnone]
    rfl
  refine ⟨run.qcoin_notMem_assets, hunregistered _ run.qcoin_notMem_assets,
    hunregistered, ?_, fun step hstep id definition =>
      run.lookup_assets_permanent hstep⟩
  intro id definition hlookup
  have hregistered := run.registrations_eq id
  rw [hlookup] at hregistered
  obtain ⟨created, hone, -, hdefinition, hderived⟩ := hregistered
  refine ⟨hderived, created, hone, hdefinition, ?_, ?_⟩
  · rw [run.supplyOf_eq_declared hno hids, declaredSupply, hone,
      List.map_singleton, List.sum_singleton]
  · intro max hmax
    have hmem : created ∈ registrations steps id := by
      rw [hone]
      exact List.mem_singleton_self created
    obtain ⟨step, -, hcreated⟩ :=
      List.mem_filterMap.mp (List.mem_of_mem_filter hmem)
    rw [← hdefinition] at hmax
    exact (step.accepts.creation created hcreated).withinMax max hmax

end Runs

section Token

open StandIns

/-- A run of two steps, the second of which creates a token. -/
theorem tokenCreation_whole_run_supply :
    ∃ (steps : List (AppliedStep 0)) (ledger : LedgerState),
      LedgerRun 0 steps ledger ∧
      ledger.assets.lookup (tokenId StandIns.nopScriptHash) =
        some (tokenDefinition StandIns.nopScriptHash) ∧
      WholeRunSupply steps ledger := by
  obtain ⟨first, hfirst, run⟩ := openTransfer_run []
    (fun id => rfl) (by decide +kernel)
  obtain ⟨ledger', happly⟩ := tokenCreation_applies []
    StandIns.nopScriptHash (fun id => rfl)
    (by decide +kernel) (by decide +kernel) (by decide +kernel)
  let second : AppliedStep 0 := ⟨_, _, _, _, _, happly⟩
  have hrun : LedgerRun 0 [second, first] second.after := .apply second run
  have hnoFirst : first.NoOverflow := by
    intro id
    rw [hfirst]
    exact ⟨rfl, rfl⟩
  have hnoSecond : second.NoOverflow := by
    intro id
    refine ⟨?_, ?_⟩
    · rw [openLedger_consumedOutputs]
      rfl
    · by_cases hid : tokenId StandIns.nopScriptHash = id
      · simp [overflowsOf, amountsOf, second, tokenCreation, openOutput, hid,
          carries]
      · simp [overflowsOf, amountsOf, second, tokenCreation, openOutput, hid,
          carries]
  have hids : TxIdsCollisionFree [second, first] := by
    have hne : (tokenCreation [] StandIns.nopScriptHash).core.txId ≠
        (openTransfer []).core.txId := by
      decide +kernel
    intro core hcore core' hcore' heq
    have hcores : coresOf [second, first] =
        [(tokenCreation [] StandIns.nopScriptHash).core,
          (openTransfer []).core] := by
      rw [← hfirst]
      rfl
    simp only [Set.mem_ofPred_eq, hcores, List.mem_pair] at hcore hcore'
    rcases hcore with rfl | rfl <;> rcases hcore' with rfl | rfl
    · rfl
    · exact absurd heq hne
    · exact absurd heq.symm hne
    · rfl
  refine ⟨[second, first], second.after, hrun, ?_,
    whole_run_supply hrun ?_ hids⟩
  · exact second.lookup_assets_after_iff.mpr
      (Or.inr ⟨⟨tokenId StandIns.nopScriptHash,
        tokenDefinition StandIns.nopScriptHash, 1000⟩, rfl, rfl, rfl⟩)
  · intro step hstep
    rcases List.mem_pair.mp hstep with rfl | rfl
    · exact hnoSecond
    · exact hnoFirst

end Token

end QCoin
