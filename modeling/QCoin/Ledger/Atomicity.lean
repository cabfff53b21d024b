import QCoin.Ledger.Acceptance
import QCoin.Ledger.StandIns

/-!
# Failing transactions

The one write of `apply_transaction` which comes before the last check is the
registration of a created asset.  A call which fails leaves the ledger as it
was unless it fails between these two.
-/

namespace QCoin

open Support
open Support.Result

section Atomicity

variable [Blake3] [Bincode]

namespace LedgerState

/-- All checks up to the registration of the created asset pass, and the sums
of some other asset differ. -/
structure FailsAfterRegistration (ledger : LedgerState) (tx : Transaction)
    (engine : ScriptEngine) (currentHeight : UInt64) (chainId : UInt32)
    (created : CreatedAsset) : Prop where
  creates : tx.core.kind.createdAsset chainId = some created
  inputsDistinct : (tx.core.inputs.map TransactionInput.key).Nodup
  unlocked : ∀ entry ∈ tx.core.inputs.zipIdx, ∃ tracked witness,
    ledger.InputUnlocked tx engine currentHeight chainId entry.1 entry.2
      tracked witness
  accepted : ledger.CreationAccepted tx.core created
  unbalanced : ∃ id, id ≠ created.assetId ∧
    totalOf id (ledger.consumedOutputs tx.core.inputs) ≠
      totalOf id tx.core.outputs

variable {ledger : LedgerState} {tx : Transaction} {engine : ScriptEngine}
  {currentHeight : UInt64} {chainId : UInt32}

/-- The ways in which a call reports an error, and the ledger it leaves. -/
theorem applyTransaction_err_cases {err : LedgerError}
    (h : (ledger.applyTransaction tx engine currentHeight chainId).1 =
      .error (.err err)) :
    ((∀ created scan, ledger.checkTransaction tx engine currentHeight
          chainId ≠ .ok (created, scan)) ∧
      (ledger.applyTransaction tx engine currentHeight chainId).2 = ledger) ∨
    ∃ created scan, ledger.checkTransaction tx engine currentHeight chainId =
        .ok (created, scan) ∧
      checkConservation (withoutCreated created scan.inputTotals)
        (withoutCreated created (outputTotals tx.core.outputs)) ≠ .ok () ∧
      (ledger.applyTransaction tx engine currentHeight chainId).2 =
        ledger.register created := by
  rw [applyTransaction] at h ⊢
  cases hcheck : ledger.checkTransaction tx engine currentHeight chainId with
  | error abort =>
      left
      simp
  | ok checked =>
      obtain ⟨created, scan⟩ := checked
      right
      refine ⟨created, scan, rfl, ?_⟩
      simp only [hcheck] at h ⊢
      cases hconserved : checkConservation
          (withoutCreated created scan.inputTotals)
          (withoutCreated created (outputTotals tx.core.outputs)) with
      | error abort => simp
      | ok u =>
          simp only [hconserved] at h
          -- The remaining exits are a panic and the successful return.
          cases htxId : tx.txId with
          | none => simp [htxId] at h
          | some txId => simp [htxId] at h

theorem checkTransaction_of_failsAfterRegistration {created : CreatedAsset}
    (h : ledger.FailsAfterRegistration tx engine currentHeight chainId
      created) :
    ledger.checkTransaction tx engine currentHeight chainId =
      .ok (some created, InputScan.init.recordAll ledger (some created)
        tx.core.inputs) := by
  refine checkTransaction_eq_ok.mpr ⟨h.creates, rfl, h.inputsDistinct,
    h.unlocked, ?_⟩
  intro asset hasset
  rw [h.creates, Option.mem_some_iff] at hasset
  rw [← hasset]
  exact h.accepted

/-- Failing there leaves the asset registered. -/
theorem applyTransaction_of_failsAfterRegistration {created : CreatedAsset}
    (h : ledger.FailsAfterRegistration tx engine currentHeight chainId
      created) :
    (ledger.applyTransaction tx engine currentHeight chainId).1 =
        .error (.err .assetConservationViolation) ∧
      (ledger.applyTransaction tx engine currentHeight chainId).2 =
        ledger.register (some created) := by
  have hcheck := checkTransaction_of_failsAfterRegistration h
  have hviolated : checkConservation
      (withoutCreated (some created) (InputScan.init.recordAll ledger
        (some created) tx.core.inputs).inputTotals)
      (withoutCreated (some created) (outputTotals tx.core.outputs)) =
        .error (.err .assetConservationViolation) := by
    cases hconserved : checkConservation
        (withoutCreated (some created) (InputScan.init.recordAll ledger
          (some created) tx.core.inputs).inputTotals)
        (withoutCreated (some created) (outputTotals tx.core.outputs)) with
    | ok u =>
        obtain ⟨id, hid, hne⟩ := h.unbalanced
        have hbalanced :=
          checkConservation_withoutCreated_eq_ok.mp hconserved id
        refine absurd (hbalanced fun asset hasset => ?_) hne
        rw [← Option.some.inj hasset]
        exact hid
    | error abort =>
        rw [checkConservation, bind_eq_error] at hconserved
        simp only [require_eq_error] at hconserved
        rcases hconserved with ⟨-, rfl⟩ | ⟨-, -, -, rfl⟩
        · rfl
        · rfl
  rw [applyTransaction, hcheck]
  simp only [hviolated, and_self]

/-- A failing call leaves the ledger as it was, except for a creation which
fails on the balance of some other asset. -/
theorem applyTransaction_atomic_iff :
    (∀ err, (ledger.applyTransaction tx engine currentHeight chainId).1 =
        .error (.err err) →
      (ledger.applyTransaction tx engine currentHeight chainId).2.utxos =
          ledger.utxos ∧
        (ledger.applyTransaction tx engine currentHeight chainId).2.assets =
          ledger.assets) ↔
    ¬∃ created, ledger.FailsAfterRegistration tx engine currentHeight chainId
      created := by
  constructor
  · rintro hatomic ⟨created, h⟩
    obtain ⟨hresult, hafter⟩ := applyTransaction_of_failsAfterRegistration h
    obtain ⟨-, hassets⟩ := hatomic _ hresult
    rw [hafter] at hassets
    have hmem : created.assetId ∈ ledger.assets := by
      rw [← hassets]
      exact Finmap.mem_insert.mpr (Or.inl rfl)
    exact h.accepted.fresh hmem
  · intro hnever err herr
    rcases applyTransaction_err_cases herr with ⟨-, hafter⟩ |
      ⟨created, scan, hcheck, hviolated, hafter⟩
    · rw [hafter]
      exact ⟨rfl, rfl⟩
    · cases created with
      | none =>
          rw [hafter]
          exact ⟨rfl, rfl⟩
      | some created =>
          obtain ⟨hcreates, rfl, hdistinct, hunlocked, haccepted⟩ :=
            checkTransaction_eq_ok.mp hcheck
          refine absurd ⟨created, hcreates, hdistinct, hunlocked,
            haccepted created hcreates, ?_⟩ hnever
          by_contra hbalanced
          push Not at hbalanced
          apply hviolated
          refine checkConservation_withoutCreated_eq_ok.mpr fun id hid => ?_
          exact hbalanced id (hid created rfl)

end LedgerState

end Atomicity

/-! ## A creation which mints another asset on the side -/

section SideMint

open scoped StandIns

/-- An asset whose issuer is anybody. -/
def openDefinition : AssetDefinition where
  issuerScriptHash := StandIns.nopScriptHash
  metadataRoot := Hash256.fill 5
  maxSupply := none
  decimals := 0
  kind := .fungible

def openAsset : CreatedAsset where
  assetId := deriveAssetId openDefinition 0
  definition := openDefinition
  initialSupply := 10

def issuerOutput (assets : List AssetAmount) : Output :=
  ⟨StandIns.nopScriptHash, assets, none⟩

def issuerLedger : LedgerState :=
  ⟨Finmap.singleton ⟨Hash256.fill 6, 0⟩ ⟨issuerOutput [], 0⟩, ∅⟩

def unrelatedAsset : AssetId := ⟨Hash256.fill 7⟩

/-- The creation of ten units, with one unit of an unrelated asset added. -/
def sideMint : Transaction where
  core := {
    kind := .createAsset openDefinition 10
    inputs := [⟨Hash256.fill 6, 0⟩]
    outputs := [issuerOutput [⟨openAsset.assetId, 10⟩],
      issuerOutput [⟨unrelatedAsset, 1⟩]] }
  witness := ⟨[StandIns.nopWitness]⟩

theorem issuerLedger_lookup :
    issuerLedger.utxos.lookup (TransactionInput.key ⟨Hash256.fill 6, 0⟩) =
      some ⟨issuerOutput [], 0⟩ :=
  Finmap.lookup_singleton_eq

theorem issuerLedger_consumedOutputs :
    issuerLedger.consumedOutputs sideMint.core.inputs = [issuerOutput []] :=
  LedgerState.consumedOutputs_cons issuerLedger_lookup []

theorem sideMint_fails : issuerLedger.FailsAfterRegistration sideMint
    StandIns.acceptAll 0 0 openAsset := by
  have hother : openAsset.assetId ≠ unrelatedAsset := by
    decide +kernel
  have hminted : totalOf openAsset.assetId sideMint.core.outputs = 10 := by
    have hamounts : amountsOf openAsset.assetId sideMint.core.outputs =
        [10] := by
      simp [amountsOf, sideMint, issuerOutput, Ne.symm hother]
    rw [totalOf, hamounts]
    rfl
  have hside : totalOf unrelatedAsset sideMint.core.outputs = 1 := by
    have hamounts : amountsOf unrelatedAsset sideMint.core.outputs = [1] := by
      simp [amountsOf, sideMint, issuerOutput, hother]
    rw [totalOf, hamounts]
    rfl
  exact {
    creates := rfl
    inputsDistinct := List.nodup_singleton _
    unlocked := by
      intro entry hentry
      rw [show entry = (⟨Hash256.fill 6, 0⟩, 0) from
        List.mem_singleton.mp hentry]
      exact ⟨⟨issuerOutput [], 0⟩, ⟨StandIns.nopScript, none⟩,
        issuerLedger_lookup, ⟨_, rfl, by decide⟩, ⟨_, rfl, rfl⟩, rfl, _, rfl⟩
    accepted := {
      notNative := by decide +kernel
      fresh := Finmap.notMem_empty
      minted := hminted
      withinMax := by
        intro max hmax
        exact absurd hmax (Option.not_mem_none _)
      notSpent := by
        rw [issuerLedger_consumedOutputs]
        rfl
      authorized := by
        rw [issuerLedger_consumedOutputs]
        exact ⟨_, List.mem_singleton_self _, by simp [
          CreatedAsset.authorizedBy, issuerOutput, openAsset, openDefinition]⟩ }
    unbalanced := by
      refine ⟨unrelatedAsset, Ne.symm hother, ?_⟩
      rw [issuerLedger_consumedOutputs, hside]
      decide }

/-- The call fails and registers the asset. -/
theorem sideMint_registers :
    (issuerLedger.applyTransaction sideMint StandIns.acceptAll 0 0).1 =
        .error (.err .assetConservationViolation) ∧
      openAsset.assetId ∉ issuerLedger.assets ∧
      openAsset.assetId ∈
        (issuerLedger.applyTransaction sideMint StandIns.acceptAll 0
          0).2.assets := by
  obtain ⟨hresult, hafter⟩ :=
    LedgerState.applyTransaction_of_failsAfterRegistration sideMint_fails
  refine ⟨hresult, Finmap.notMem_empty, ?_⟩
  rw [hafter]
  exact Finmap.mem_insert.mpr (Or.inl rfl)

end SideMint

end QCoin
