import QCoin.Ledger.Run
import QCoin.Script.PanicFree

/-!
# Transactions which cannot panic

A ledger only stores outputs which have been encoded, so the lengths of a
transaction and of the scripts which it presents are all that can make
`apply_transaction` panic.  What it has accepted once cannot.
-/

namespace QCoin

open Support
open Support.Result

section Transactions

variable [Bincode]

/-- Nothing of the transaction is too long to be encoded. -/
structure Transaction.Fits (tx : Transaction) : Prop where
  core : tx.core.LengthsFit
  scripts : ∀ (i : ℕ) (bytes : Bytes) (witness : InputWitness),
    i < tx.core.inputs.length → tx.witness.inputs[i]? = some bytes →
      Bincode.deserializeWitness bytes = some witness →
        (encodeScript witness.script).isSome

/-- Every stored output can be encoded. -/
def LedgerState.Fits (ledger : LedgerState) : Prop :=
  ∀ key tracked, ledger.utxos.lookup key = some tracked →
    tracked.output.assets.length < 2 ^ 32

variable [Blake3] [PqCrypto]

omit [Bincode] [PqCrypto] in
theorem Transaction.exists_txId {tx : Transaction} (h : tx.core.LengthsFit) :
    ∃ txId, tx.txId = some txId := by
  rw [← Option.isSome_iff_exists, Transaction.txId, TransactionCore.txId,
    Option.isSome_map]
  exact encodeTxCore_isSome.mpr h

omit [Bincode] [PqCrypto] in
theorem Transaction.lengthsFit_of_txId {tx : Transaction} {txId : Hash256}
    (h : tx.txId = some txId) : tx.core.LengthsFit := by
  rw [← encodeTxCore_isSome, Option.isSome_iff_exists]
  obtain ⟨bytes, hbytes, -⟩ := Option.map_eq_some_iff.mp h
  exact ⟨bytes, hbytes⟩

namespace LedgerState

variable {ledger : LedgerState} {tx : Transaction} {config : VmConfig}
  {currentHeight : UInt64} {chainId : UInt32} {created : Option CreatedAsset}

omit [Bincode] [PqCrypto] [Blake3] in
theorem empty_fits : LedgerState.empty.Fits := by
  intro key tracked h
  simp [empty] at h

omit [Blake3] [PqCrypto] [Bincode] in
theorem Fits.encodable (h : ledger.Fits) (hcore : tx.core.LengthsFit)
    (inputIndex : ℕ) (tracked : TrackedOutput) :
    Encodable (inputContext tx inputIndex currentHeight chainId tracked)
      (ledger.scriptHost currentHeight) where
  core := hcore
  outputs input resolved hresolved := by
    obtain ⟨found, hfound, rfl⟩ := Option.map_eq_some_iff.mp hresolved
    exact h input.key found hfound

theorem Fits.scanInput_panicFree (h : ledger.Fits) (htx : tx.Fits)
    (scan : InputScan) {entry : TransactionInput × ℕ}
    (hentry : entry ∈ tx.core.inputs.zipIdx) :
    PanicFree (ledger.scanInput tx (deterministicScriptEngine config)
      currentHeight chainId created scan entry) := by
  have hindex : entry.2 < tx.core.inputs.length :=
    (List.getElem?_eq_some_iff.mp (List.mem_zipIdx_iff_getElem?.mp hentry)).1
  refine (PanicFree.require _ _).bind fun _ _ => ?_
  refine (PanicFree.okOr _ _).bind fun tracked _ => ?_
  refine (PanicFree.okOr _ _).bind fun bytes hbytes => ?_
  refine (PanicFree.okOr _ _).bind fun witness hwitness => ?_
  have hscript := htx.scripts entry.2 bytes witness hindex
    (okOr_eq_ok.mp hbytes) (okOr_eq_ok.mp hwitness)
  refine (PanicFree.orPanic hscript).bind fun _ _ => ?_
  refine (PanicFree.require _ _).bind fun _ _ => ?_
  refine (PanicFree.require _ _).bind fun _ _ => ?_
  refine PanicFree.bind ?_ fun _ _ => .pure _
  exact (deterministicScriptEngine_panicFree
    (h.encodable htx.core entry.2 tracked) config witness.script).mapErr

theorem Fits.checkTransaction_panicFree (h : ledger.Fits) (htx : tx.Fits) :
    PanicFree (ledger.checkTransaction tx (deterministicScriptEngine config)
      currentHeight chainId) := by
  have hcreation : PanicFree (ledger.checkCreation chainId tx.core.kind) := by
    cases tx.core.kind with
    | transfer => exact .ok _
    | createAsset definition initialSupply =>
        exact (PanicFree.require _ _).bind fun _ _ =>
          (PanicFree.require _ _).bind fun _ _ => .pure _
  refine hcreation.bind fun created _ => ?_
  refine PanicFree.bind ?_ fun scan _ => ?_
  · exact .foldlM (fun _ => True) trivial
      (fun entry hentry scan _ => h.scanInput_panicFree htx scan hentry)
      fun _ _ _ _ _ _ => trivial
  · cases created with
    | none => exact .pure _
    | some asset =>
        refine PanicFree.bind ?_ fun _ _ => .pure _
        refine (PanicFree.require _ _).bind fun _ _ => ?_
        refine (PanicFree.require _ _).bind fun _ _ => ?_
        exact (PanicFree.require _ _).bind fun _ _ => .require _ _

omit [Bincode] [Blake3] [PqCrypto] in
theorem checkConservation_panicFree (xs ys : Totals Hash256 128) :
    PanicFree (checkConservation xs ys) :=
  (PanicFree.require _ _).bind fun _ _ => .require _ _

/-- A transaction whose lengths fit is accepted or refused with an error. -/
theorem Fits.applyTransaction_panicFree (h : ledger.Fits) (htx : tx.Fits) :
    PanicFree (ledger.applyTransaction tx (deterministicScriptEngine config)
      currentHeight chainId).1 := by
  rw [applyTransaction]
  split
  · rename_i abort hcheck
    have hfree : PanicFree (ledger.checkTransaction tx
        (deterministicScriptEngine config) currentHeight chainId) :=
      h.checkTransaction_panicFree htx
    rw [hcheck] at hfree
    exact PanicFree.of_error hfree
  · rename_i created scan _
    dsimp only
    split
    · rename_i abort hconservation
      have hfree := checkConservation_panicFree
        (withoutCreated created scan.inputTotals)
        (withoutCreated created (outputTotals tx.core.outputs))
      rw [hconservation] at hfree
      exact PanicFree.of_error hfree
    · obtain ⟨txId, htxId⟩ := Transaction.exists_txId htx.core
      rw [htxId]
      exact .ok ()

/-! ## The ledger afterwards -/

omit [PqCrypto] in
/-- Whatever becomes of a call, only outputs of a transaction with an id are
added. -/
theorem Fits.applyTransaction (h : ledger.Fits) (engine : ScriptEngine) :
    (ledger.applyTransaction tx engine currentHeight chainId).2.Fits := by
  have hremoved : ∀ created keys,
      ((ledger.register created).removeUtxos keys).Fits := by
    intro created keys key tracked hlookup
    rw [removeUtxos_utxos, register_utxos, FinMap.lookup_eraseAll] at hlookup
    split at hlookup
    · cases hlookup
    · exact h key tracked hlookup
  have hregistered : ∀ created, (ledger.register created).Fits := by
    intro created key tracked hlookup
    rw [register_utxos] at hlookup
    exact h key tracked hlookup
  rw [LedgerState.applyTransaction]
  split
  · exact h
  · rename_i created scan hcheck
    dsimp only
    split
    · exact hregistered created
    · split
      · exact hremoved created _
      · rename_i txId htxId
        intro key tracked hlookup
        rw [insertUtxos_utxos] at hlookup
        rcases FinMap.lookup_insertAll_cases hlookup with hnew | ⟨-, hold⟩
        · obtain ⟨i, output, houtput, -, rfl⟩ := mem_createdEntries.mp hnew
          exact (Transaction.lengthsFit_of_txId htxId).assets output
            (List.mem_of_getElem? houtput)
        · exact hremoved created _ key tracked hold

omit [Bincode] [PqCrypto] in
/-- The state root of such a ledger exists. -/
theorem Fits.exists_stateRoot (h : ledger.Fits) :
    ∃ stateRoot, ledger.stateRoot = some stateRoot := by
  have hutxos : (encodeAll encodeUtxoEntry
      (FinMap.sortedEntries ledger.utxos)).isSome := by
    rw [encodeAll_isSome]
    rintro ⟨key, tracked⟩ hentry
    have hlookup : ledger.utxos.lookup key = some tracked := by
      convert FinMap.mem_sortedEntries.mp hentry
    have houtput := h key tracked hlookup
    simp [encodeUtxoEntry, encodeAppend_isSome,
      encodeOutput_isSome.mpr houtput]
  have hassets : (encodeAll (fun entry => some (encodeAssetEntry entry))
      (FinMap.sortedEntries ledger.assets)).isSome := by
    simp [encodeAll_isSome]
  rw [← Option.isSome_iff_exists, stateRoot, Option.isSome_map,
    stateRootPreimage, encodeAppend_isSome]
  exact ⟨hutxos, hassets⟩

omit [PqCrypto] in
/-- An accepted transaction fits. -/
theorem Accepts.fits {engine : ScriptEngine}
    (h : ledger.Accepts tx engine currentHeight chainId) {txId : Hash256}
    (htxId : tx.txId = some txId) : tx.Fits where
  core := Transaction.lengthsFit_of_txId htxId
  scripts i bytes witness hi hbytes hwitness := by
    obtain ⟨tracked, presented, hunlocked⟩ := h.unlocked
      (tx.core.inputs[i], i)
      (List.mem_zipIdx_iff_getElem?.mpr (List.getElem?_eq_getElem hi))
    obtain ⟨bytes', hbytes', hpresented⟩ := hunlocked.presented
    obtain rfl : bytes = bytes' := Option.some.inj (hbytes.symm.trans hbytes')
    obtain rfl : witness = presented :=
      Option.some.inj (hwitness.symm.trans hpresented)
    obtain ⟨encoded, hencoded, -⟩ := hunlocked.scriptMatches
    rw [hencoded]
    rfl

end LedgerState

end Transactions

end QCoin
