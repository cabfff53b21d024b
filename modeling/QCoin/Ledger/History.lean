import QCoin.Ledger.Run
import QCoin.Support.SpendLog

/-!
# Histories of the ledger

A run, reduced to its transaction cores, is a lawful spend log over UTXO keys
whose pool is the key set of the ledger.  The module also follows the asset
registry along a run.
-/

namespace QCoin

open Support

variable [Blake3]

/-- A core spends the keys of its inputs and creates the keys of its
outputs. -/
def utxoLog : SpendLog TransactionCore UtxoKey where
  spends core := {key | key ∈ core.inputs.map TransactionInput.key}
  creates core := {key | ∃ txId, core.txId = some txId ∧
    key ∈ createdKeys txId core.outputs}

/-- Keys name the transaction that created them. -/
theorem txId_of_mem_creates {core : TransactionCore} {key : UtxoKey}
    (h : key ∈ utxoLog.creates core) : core.txId = some key.txId := by
  obtain ⟨txId, htxId, hkey⟩ := h
  obtain ⟨i, -, rfl⟩ := mem_createdKeys.mp hkey
  exact htxId

variable [Bincode] {chainId : UInt32}

/-- The transaction cores of a run, latest first. -/
def coresOf (steps : List (AppliedStep chainId)) : List TransactionCore :=
  steps.map fun step => step.tx.core

/-- Transaction ids determine cores within a run. -/
def TxIdsCollisionFree (steps : List (AppliedStep chainId)) : Prop :=
  Set.InjOn TransactionCore.txId {core | core ∈ coresOf steps}

namespace AppliedStep

variable (step : AppliedStep chainId)

theorem mem_creates_iff {key : UtxoKey} :
    key ∈ utxoLog.creates step.tx.core ↔ key ∈ step.insertedKeys := by
  have htxId : step.tx.core.txId = some step.txId := step.txId_eq
  constructor
  · rintro ⟨txId, hsome, hkey⟩
    rw [htxId, Option.some.injEq] at hsome
    rwa [insertedKeys, hsome]
  · intro hkey
    exact ⟨step.txId, htxId, hkey⟩

end AppliedStep

variable {steps : List (AppliedStep chainId)} {ledger : LedgerState}

theorem TxIdsCollisionFree.tail {step : AppliedStep chainId}
    (h : TxIdsCollisionFree (step :: steps)) : TxIdsCollisionFree steps :=
  h.mono fun _ hcore => List.mem_cons_of_mem _ hcore

theorem TxIdsCollisionFree.creator_unique (h : TxIdsCollisionFree steps)
    {core core' : TransactionCore} (hcore : core ∈ coresOf steps)
    (hcore' : core' ∈ coresOf steps) {key : UtxoKey}
    (hkey : key ∈ utxoLog.creates core)
    (hkey' : key ∈ utxoLog.creates core') : core = core' :=
  h hcore hcore'
    ((txId_of_mem_creates hkey).trans (txId_of_mem_creates hkey').symm)

namespace LedgerRun

theorem mem_utxos_iff (run : LedgerRun chainId steps ledger)
    {key : UtxoKey} :
    key ∈ ledger.utxos ↔ key ∈ utxoLog.live (coresOf steps) := by
  induction run with
  | empty =>
      constructor
      · intro h
        exact absurd h Finmap.notMem_empty
      · intro h
        exact absurd h (Set.notMem_empty key)
  | apply step run ih =>
      rw [step.mem_after_iff, ih, ← step.mem_creates_iff]
      rfl

theorem lawful (run : LedgerRun chainId steps ledger) :
    utxoLog.Lawful (coresOf steps) := by
  induction run with
  | empty => trivial
  | apply step run ih =>
      refine ⟨?_, ih⟩
      intro key hkey
      exact run.mem_utxos_iff.mp (step.mem_before_of_consumed hkey)

end LedgerRun

/-! ## The asset registry -/

/-- The asset which a step registers. -/
def AppliedStep.created (step : AppliedStep chainId) : Option CreatedAsset :=
  step.tx.core.kind.createdAsset chainId

/-- The registrations of an asset id in a run. -/
def registrations (steps : List (AppliedStep chainId)) (id : AssetId) :
    List CreatedAsset :=
  (steps.filterMap AppliedStep.created).filter fun created =>
    created.assetId = id

namespace AppliedStep

variable (step : AppliedStep chainId)

theorem after_assets : step.after.assets =
    (step.before.register step.created).assets := by
  rw [step.after_eq]
  rfl

theorem created_fresh {created : CreatedAsset}
    (h : step.created = some created) :
    created.assetId ∉ step.before.assets :=
  (step.accepts.creation created h).fresh

theorem created_assetId {created : CreatedAsset}
    (h : step.created = some created) :
    created.assetId = deriveAssetId created.definition chainId := by
  unfold AppliedStep.created at h
  cases hkind : step.tx.core.kind with
  | transfer =>
      rw [hkind] at h
      exact absurd h (by simp [TransactionKind.createdAsset])
  | createAsset definition initialSupply =>
      rw [hkind] at h
      rw [← Option.some.inj h]

theorem lookup_assets_after_iff {id : AssetId}
    {definition : AssetDefinition} :
    step.after.assets.lookup id = some definition ↔
      step.before.assets.lookup id = some definition ∨
        ∃ created, step.created = some created ∧ created.assetId = id ∧
          created.definition = definition := by
  rw [after_assets]
  cases hcreated : step.created with
  | none => simp [LedgerState.register]
  | some created =>
      simp only [LedgerState.register, Option.some.injEq, exists_eq_left']
      by_cases hid : id = created.assetId
      · subst hid
        have hfresh := step.created_fresh hcreated
        rw [Finmap.lookup_insert, Finmap.lookup_eq_none.mpr hfresh]
        simp
      · rw [Finmap.lookup_insert_of_ne _ hid]
        simp [Ne.symm hid]

/-- A registered definition stays as it is. -/
theorem lookup_assets_mono {id : AssetId} {definition : AssetDefinition}
    (h : step.before.assets.lookup id = some definition) :
    step.after.assets.lookup id = some definition :=
  step.lookup_assets_after_iff.mpr (Or.inl h)

theorem registrations_cons (steps : List (AppliedStep chainId))
    (id : AssetId) :
    registrations (step :: steps) id =
      (match step.created with
        | none => []
        | some created => if created.assetId = id then [created] else []) ++
      registrations steps id := by
  cases hcreated : step.created with
  | none => simp [registrations, hcreated]
  | some created =>
      by_cases hid : created.assetId = id
      · simp [registrations, hcreated, hid]
      · simp [registrations, hcreated, hid]

end AppliedStep

namespace LedgerRun

/-- An id is in the registry exactly when one step registered it. -/
theorem registrations_eq (run : LedgerRun chainId steps ledger)
    (id : AssetId) :
    match ledger.assets.lookup id with
    | none => registrations steps id = []
    | some definition => ∃ created, registrations steps id = [created] ∧
        created.assetId = id ∧ created.definition = definition ∧
        id = deriveAssetId definition chainId := by
  induction run with
  | empty => simp [LedgerState.empty, registrations]
  | apply step run ih =>
      rw [step.registrations_cons]
      cases hcreated : step.created with
      | none =>
          rw [step.after_assets, hcreated]
          exact ih
      | some created =>
          rw [step.after_assets, hcreated]
          by_cases hid : created.assetId = id
          · have hfresh := step.created_fresh hcreated
            rw [hid] at hfresh
            rw [Finmap.lookup_eq_none.mpr hfresh] at ih
            simp only [LedgerState.register, hid, Finmap.lookup_insert,
              if_true, ih, List.append_nil]
            refine ⟨created, rfl, hid, rfl, ?_⟩
            rw [← hid, step.created_assetId hcreated]
          · simp only [LedgerState.register, if_neg hid, List.nil_append,
              Finmap.lookup_insert_of_ne _ (Ne.symm hid)]
            exact ih

theorem lookup_assets_permanent (run : LedgerRun chainId steps ledger)
    {step : AppliedStep chainId} (hstep : step ∈ steps) {id : AssetId}
    {definition : AssetDefinition}
    (h : step.before.assets.lookup id = some definition) :
    ledger.assets.lookup id = some definition := by
  induction run with
  | empty => exact absurd hstep List.not_mem_nil
  | apply last run ih =>
      apply last.lookup_assets_mono
      rcases List.mem_cons.mp hstep with rfl | hearlier
      · exact h
      · exact ih hearlier

theorem qcoin_notMem_assets (run : LedgerRun chainId steps ledger) :
    QCOIN_ASSET_ID ∉ ledger.assets := by
  induction run with
  | empty => exact Finmap.notMem_empty
  | apply step run ih =>
      intro hmem
      obtain ⟨definition, hlookup⟩ := Finmap.mem_iff.mp hmem
      rcases step.lookup_assets_after_iff.mp hlookup with
        hold | ⟨created, hcreated, hid, -⟩
      · exact ih (Finmap.mem_iff.mpr ⟨definition, hold⟩)
      · exact (step.accepts.creation created hcreated).notNative hid

end LedgerRun

end QCoin
