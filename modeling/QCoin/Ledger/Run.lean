import QCoin.Ledger.Acceptance

/-!
# Runs of the ledger

A run is a sequence of transactions, each successfully applied by
`apply_transaction` to the ledger left by the one before, starting from the
empty ledger.  The script engine and the height may change from step to step.
-/

namespace QCoin

open Support

/-! ## Created entries -/

theorem mem_createdEntries {txId : Hash256} {outputs : List Output}
    {currentHeight : UInt64} {key : UtxoKey} {tracked : TrackedOutput} :
    (key, tracked) ∈ createdEntries txId outputs currentHeight ↔
      ∃ i output, outputs[i]? = some output ∧
        key = ⟨txId, UInt32.ofNat i⟩ ∧ tracked = ⟨output, currentHeight⟩ := by
  simp only [createdEntries, List.mem_map, Prod.exists, Prod.mk.injEq,
    List.mem_zipIdx_iff_getElem?]
  constructor
  · rintro ⟨output, i, hi, hkey, htracked⟩
    exact ⟨i, output, hi, hkey.symm, htracked.symm⟩
  · rintro ⟨i, output, hi, rfl, rfl⟩
    exact ⟨output, i, hi, rfl, rfl⟩

/-- The keys of the outputs which a transaction creates. -/
def createdKeys (txId : Hash256) (outputs : List Output) : List UtxoKey :=
  outputs.zipIdx.map fun entry => ⟨txId, UInt32.ofNat entry.2⟩

theorem map_fst_createdEntries (txId : Hash256) (outputs : List Output)
    (currentHeight : UInt64) :
    (createdEntries txId outputs currentHeight).map Prod.fst =
      createdKeys txId outputs := by
  simp [createdEntries, createdKeys, Function.comp_def]

theorem mem_createdKeys {txId : Hash256} {outputs : List Output}
    {key : UtxoKey} :
    key ∈ createdKeys txId outputs ↔
      ∃ i < outputs.length, key = ⟨txId, UInt32.ofNat i⟩ := by
  simp only [createdKeys, List.mem_map, Prod.exists,
    List.mem_zipIdx_iff_getElem?]
  constructor
  · rintro ⟨output, i, hi, rfl⟩
    exact ⟨i, (List.getElem?_eq_some_iff.mp hi).1, rfl⟩
  · rintro ⟨i, hi, rfl⟩
    exact ⟨outputs[i], i, List.getElem?_eq_getElem hi, rfl⟩

/-- A core which can be serialized has fewer outputs than `u32` values. -/
theorem outputs_length_lt {core : TransactionCore} {bytes : Bytes}
    (h : encodeTxCore core = some bytes) : core.outputs.length < 2 ^ 32 := by
  obtain ⟨_, _, -, hfields, -⟩ := encodeAppend_eq_some.mp h
  obtain ⟨_, _, -, hrest, -⟩ := encodeAppend_eq_some.mp hfields
  obtain ⟨_, _, houtputs, -, -⟩ := encodeAppend_eq_some.mp hrest
  obtain ⟨_, _, hlen, -, -⟩ := encodeAppend_eq_some.mp houtputs
  exact (encodeLen_eq_some.mp hlen).1

theorem ofNat_injective_of_lt {i j : ℕ} (hi : i < 2 ^ 32) (hj : j < 2 ^ 32)
    (h : UInt32.ofNat i = UInt32.ofNat j) : i = j := by
  have hnat := congrArg UInt32.toNat h
  rwa [UInt32.toNat_ofNat_of_lt' hi, UInt32.toNat_ofNat_of_lt' hj] at hnat

theorem createdKeys_nodup {txId : Hash256} {outputs : List Output}
    (h : outputs.length < 2 ^ 32) : (createdKeys txId outputs).Nodup := by
  have hindices : (outputs.zipIdx.map Prod.snd).Nodup := by
    rw [List.zipIdx_map_snd]
    exact List.nodup_range'
  rw [createdKeys, ← Function.comp_def (fun i => (⟨txId, UInt32.ofNat i⟩ :
    UtxoKey)) Prod.snd, ← List.map_map]
  refine hindices.map_on ?_
  intro i hi j hj hkey
  have hbound : ∀ k ∈ outputs.zipIdx.map Prod.snd, k < 2 ^ 32 := by
    intro k hk
    rw [List.zipIdx_map_snd, List.mem_range'_1] at hk
    omega
  exact ofNat_injective_of_lt (hbound i hi) (hbound j hj)
    (congrArg UtxoKey.index hkey)

/-! ## Steps and runs -/

variable [Blake3] [Bincode]

/-- One successful call of `apply_transaction`. -/
structure AppliedStep (chainId : UInt32) where
  before : LedgerState
  tx : Transaction
  engine : ScriptEngine
  currentHeight : UInt64
  after : LedgerState
  applied : before.applyTransaction tx engine currentHeight chainId =
    (.ok (), after)

/-- The steps of a run, latest first, and the ledger it reaches. -/
inductive LedgerRun (chainId : UInt32) :
    List (AppliedStep chainId) → LedgerState → Prop where
  | empty : LedgerRun chainId [] LedgerState.empty
  | apply {steps : List (AppliedStep chainId)}
      (step : AppliedStep chainId) (run : LedgerRun chainId steps step.before) :
      LedgerRun chainId (step :: steps) step.after

namespace AppliedStep

variable {chainId : UInt32} (step : AppliedStep chainId)

theorem accepts : step.before.Accepts step.tx step.engine step.currentHeight
    chainId :=
  (LedgerState.applyTransaction_eq_ok.mp step.applied).1

theorem exists_txId : ∃ txId, step.tx.txId = some txId ∧
    step.before.afterCore step.tx.core txId step.currentHeight chainId =
      step.after :=
  (LedgerState.applyTransaction_eq_ok.mp step.applied).2

/-- The identifier of the applied transaction. -/
def txId : Hash256 := step.tx.txId.getD default

theorem txId_eq : step.tx.txId = some step.txId := by
  obtain ⟨txId, htxId, -⟩ := step.exists_txId
  simp [AppliedStep.txId, htxId]

theorem after_eq : step.after = step.before.afterCore step.tx.core step.txId
    step.currentHeight chainId := by
  obtain ⟨txId, htxId, hafter⟩ := step.exists_txId
  rw [step.txId_eq, Option.some.injEq] at htxId
  rw [htxId, hafter]

theorem outputs_length_lt : step.tx.core.outputs.length < 2 ^ 32 := by
  have h := step.txId_eq
  rw [Transaction.txId, TransactionCore.txId, Option.map_eq_some_iff] at h
  obtain ⟨bytes, hbytes, -⟩ := h
  exact QCoin.outputs_length_lt hbytes

/-- The keys of the outputs it consumes. -/
def consumedKeys : List UtxoKey :=
  step.tx.core.inputs.map TransactionInput.key

/-- The keys of the outputs it creates. -/
def insertedKeys : List UtxoKey :=
  createdKeys step.txId step.tx.core.outputs

theorem insertedKeys_nodup : step.insertedKeys.Nodup :=
  createdKeys_nodup step.outputs_length_lt

theorem consumedKeys_nodup : step.consumedKeys.Nodup :=
  step.accepts.inputsDistinct

theorem exists_unlocked {input : TransactionInput}
    (h : input ∈ step.tx.core.inputs) : ∃ i tracked witness,
      step.before.InputUnlocked step.tx step.engine step.currentHeight
        chainId input i tracked witness := by
  obtain ⟨i, hi⟩ := List.mem_iff_getElem?.mp h
  obtain ⟨tracked, witness, hunlocked⟩ := step.accepts.unlocked (input, i)
    (List.mem_zipIdx_iff_getElem?.mpr hi)
  exact ⟨i, tracked, witness, hunlocked⟩

theorem mem_before_of_consumed {key : UtxoKey} (h : key ∈ step.consumedKeys) :
    key ∈ step.before.utxos := by
  obtain ⟨input, hinput, rfl⟩ := List.mem_map.mp h
  obtain ⟨i, tracked, witness, hunlocked⟩ := step.exists_unlocked hinput
  exact Finmap.mem_iff.mpr ⟨tracked, hunlocked.found⟩

/-- The UTXO set between the removals and the insertions. -/
def keptUtxos : UtxoSet :=
  FinMap.eraseAll step.before.utxos step.consumedKeys

theorem after_utxos : step.after.utxos =
    FinMap.insertAll step.keptUtxos
      (createdEntries step.txId step.tx.core.outputs step.currentHeight) := by
  rw [step.after_eq, LedgerState.afterCore, LedgerState.insertUtxos_utxos,
    LedgerState.removeUtxos_utxos, LedgerState.register_utxos]
  rfl

theorem lookup_kept_iff {key : UtxoKey} {tracked : TrackedOutput} :
    step.keptUtxos.lookup key = some tracked ↔
      key ∉ step.consumedKeys ∧
        step.before.utxos.lookup key = some tracked := by
  rw [keptUtxos, FinMap.lookup_eraseAll]
  by_cases hconsumed : key ∈ step.consumedKeys
  · simp [hconsumed]
  · simp [hconsumed]

theorem mem_after_iff {key : UtxoKey} :
    key ∈ step.after.utxos ↔
      (key ∈ step.before.utxos ∧ key ∉ step.consumedKeys) ∨
        key ∈ step.insertedKeys := by
  have hkept : key ∈ step.keptUtxos ↔
      key ∈ step.before.utxos ∧ key ∉ step.consumedKeys := by
    simp only [Finmap.mem_iff, lookup_kept_iff, exists_and_left]
    exact And.comm
  rw [step.after_utxos, FinMap.mem_insertAll, map_fst_createdEntries, hkept,
    Or.comm]
  rfl

/-- An output found after the step was created by it or was there before and
not consumed. -/
theorem lookup_after_cases {key : UtxoKey} {tracked : TrackedOutput}
    (h : step.after.utxos.lookup key = some tracked) :
    (∃ i output, step.tx.core.outputs[i]? = some output ∧
      key = ⟨step.txId, UInt32.ofNat i⟩ ∧
      tracked = ⟨output, step.currentHeight⟩) ∨
    (key ∉ step.insertedKeys ∧ key ∉ step.consumedKeys ∧
      step.before.utxos.lookup key = some tracked) := by
  rw [step.after_utxos] at h
  rcases FinMap.lookup_insertAll_cases h with hmem | ⟨hnot, hold⟩
  · exact Or.inl (mem_createdEntries.mp hmem)
  · rw [map_fst_createdEntries] at hnot
    exact Or.inr ⟨hnot, step.lookup_kept_iff.mp hold⟩

end AppliedStep

/-! ## What holds along a run -/

variable {chainId : UInt32} {steps : List (AppliedStep chainId)}
  {ledger : LedgerState}

/-- Every stored output was created by a step of the run. -/
theorem LedgerRun.provenance (run : LedgerRun chainId steps ledger)
    {key : UtxoKey} {tracked : TrackedOutput}
    (h : ledger.utxos.lookup key = some tracked) :
    ∃ step ∈ steps, ∃ i output, step.tx.core.outputs[i]? = some output ∧
      key = ⟨step.txId, UInt32.ofNat i⟩ ∧
      tracked = ⟨output, step.currentHeight⟩ := by
  induction run with
  | empty => simp [LedgerState.empty] at h
  | apply step run ih =>
      rcases step.lookup_after_cases h with hcreated | ⟨-, -, hold⟩
      · exact ⟨step, List.mem_cons_self, hcreated⟩
      · obtain ⟨origin, horigin, hcreated⟩ := ih hold
        exact ⟨origin, List.mem_cons_of_mem _ horigin, hcreated⟩

end QCoin
