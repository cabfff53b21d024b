import QCoin.Ledger.StandIns
import QCoin.Support.Metering

/-!
# Gas metering

The interpreter loop is a metered run of the opcodes on the stack: gas is the
budget, `gas_cost` the price of an opcode and `OutOfGas` the report that the
budget is exhausted.
-/

namespace QCoin

open Support
open Support.Result

/-! ## The meter -/

theorem GasMeter.consume_of_le {gas : GasMeter} {amount : UInt64}
    (h : amount.toNat ≤ gas.remaining.toNat) :
    gas.consume amount =
      .ok { gas with remaining := gas.remaining - amount } := by
  rw [consume, if_neg]
  rw [UInt64.lt_iff_toNat_lt]
  omega

theorem GasMeter.consume_of_lt {gas : GasMeter} {amount : UInt64}
    (h : gas.remaining.toNat < amount.toNat) :
    gas.consume amount = .error (.err .outOfGas) := by
  rw [consume, if_pos (UInt64.lt_iff_toNat_lt.mpr h)]

/-- The gas cost of an opcode as a natural number. -/
def OpCode.price (maxPushBytes : ℕ) (op : OpCode) : Result ScriptError ℕ :=
  (gasCost op maxPushBytes).map UInt64.toNat

theorem mapM_price_eq_ok {maxPushBytes : ℕ} {ops : List OpCode}
    {prices : List ℕ} :
    ops.mapM (OpCode.price maxPushBytes) = .ok prices ↔
      ∃ costs, ops.mapM (fun op => gasCost op maxPushBytes) = .ok costs ∧
        costs.map UInt64.toNat = prices := by
  induction ops generalizing prices with
  | nil => simp
  | cons op ops ih =>
      simp only [List.mapM_cons, bind_eq_ok, pure_eq_ok, ih, OpCode.price]
      constructor
      · rintro ⟨price, hprice, _, ⟨costs, hcosts, rfl⟩, rfl⟩
        cases hcost : gasCost op maxPushBytes with
        | error e => rw [hcost] at hprice; cases hprice
        | ok cost =>
            rw [hcost] at hprice
            rw [← Except.ok.inj hprice]
            exact ⟨cost :: costs, ⟨cost, rfl, costs, hcosts, rfl⟩, rfl⟩
      · rintro ⟨_, ⟨cost, hcost, costs, hcosts, rfl⟩, rfl⟩
        exact ⟨cost.toNat, by rw [hcost]; rfl, _, ⟨costs, hcosts, rfl⟩, rfl⟩

section Evaluation

variable [Blake3] [PqCrypto]

/-! ## The interpreter loop as a metered run -/

variable {config : VmConfig} {script : Script} {ctx : ScriptContext}
  {host : ScriptHost}

def Vm.meter (vm : Vm) : ℕ × Stack :=
  (vm.gas.remaining.toNat, vm.stack)

/-- One iteration of the loop is one metered step. -/
theorem Vm.step_meter (vm : Vm) (op : OpCode) :
    (vm.step config ctx host op).map Vm.meter =
      meteredStep (OpCode.price config.maxPushBytes) (runOp config ctx host)
        .outOfGas vm.meter op := by
  cases hcost : gasCost op config.maxPushBytes with
  | error e => simp [step, meteredStep, OpCode.price, hcost, bind,
      Except.bind, Except.map]
  | ok cost =>
      by_cases hle : cost.toNat ≤ vm.gas.remaining.toNat
      · have hsub : (vm.gas.remaining - cost).toNat =
            vm.gas.remaining.toNat - cost.toNat :=
          UInt64.toNat_sub_of_le _ _ (UInt64.le_iff_toNat_le.mpr hle)
        cases hrun : runOp config ctx host vm.stack op with
        | error e => simp [step, meteredStep, OpCode.price, hcost, hrun, hle,
            meter, GasMeter.consume_of_le, require, bind, Except.bind,
            Except.map]
        | ok stack => simp [step, meteredStep, OpCode.price, hcost, hrun, hle,
            hsub, meter, GasMeter.consume_of_le, require, bind, Except.bind,
            Except.map, pure, Except.pure]
      · have hlt : vm.gas.remaining.toNat < cost.toNat := Nat.lt_of_not_le hle
        simp [step, meteredStep, OpCode.price, hcost, hle, meter,
          GasMeter.consume_of_lt hlt, require, bind, Except.bind, Except.map]

theorem Vm.run_meter (ops : List OpCode) (vm : Vm) :
    (ops.foldlM (Vm.step config ctx host) vm).map Vm.meter =
      ops.foldlM (meteredStep (OpCode.price config.maxPushBytes)
        (runOp config ctx host) .outOfGas) vm.meter :=
  foldlM_map_of_step Vm.step_meter ops vm

theorem Vm.step_limit {vm vm' : Vm} {op : OpCode}
    (h : vm.step config ctx host op = .ok vm') :
    vm'.gas.limit = vm.gas.limit := by
  simp only [step, bind_eq_ok, pure_eq_ok] at h
  obtain ⟨cost, -, gas, hgas, stack, -, rfl⟩ := h
  rw [GasMeter.consume] at hgas
  split at hgas
  · cases hgas
  · rw [← Except.ok.inj hgas]

theorem Vm.run_limit {ops : List OpCode} {vm vm' : Vm}
    (h : ops.foldlM (Vm.step config ctx host) vm = .ok vm') :
    vm'.gas.limit = vm.gas.limit := by
  induction ops generalizing vm with
  | nil => rw [← Except.ok.inj h]
  | cons op ops ih =>
      rw [List.foldlM_cons, bind_eq_ok] at h
      obtain ⟨mid, hmid, hrest⟩ := h
      exact (ih hrest).trans (step_limit hmid)

/-- A successful run, seen without its meter. -/
theorem Vm.run_eq_ok {ops : List OpCode} {vm vm' : Vm} :
    ops.foldlM (Vm.step config ctx host) vm = .ok vm' ↔
      ∃ prices, ops.mapM (OpCode.price config.maxPushBytes) = .ok prices ∧
        ops.foldlM (runOp config ctx host) vm.stack = .ok vm'.stack ∧
        vm'.gas.remaining.toNat + prices.sum = vm.gas.remaining.toNat ∧
        vm'.gas.limit = vm.gas.limit := by
  have hmeter : (ops.foldlM (Vm.step config ctx host) vm).map Vm.meter = _ :=
    run_meter ops vm
  constructor
  · intro h
    rw [h] at hmeter
    obtain ⟨prices, hprices, hrun, hsum⟩ := metered_eq_ok.mp hmeter.symm
    exact ⟨prices, hprices, hrun, hsum, run_limit h⟩
  · rintro ⟨prices, hprices, hrun, hsum, hlimit⟩
    have hview : ops.foldlM (meteredStep (OpCode.price config.maxPushBytes)
        (runOp config ctx host) .outOfGas) vm.meter = .ok vm'.meter :=
      metered_eq_ok.mpr ⟨prices, hprices, hrun, hsum⟩
    rw [← hmeter] at hview
    cases hloop : ops.foldlM (Vm.step config ctx host) vm with
    | error e => rw [hloop] at hview; cases hview
    | ok vm'' =>
        rw [hloop] at hview
        have heq : vm''.meter = vm'.meter := Except.ok.inj hview
        simp only [meter, Prod.mk.injEq, UInt64.toNat_inj] at heq
        have hlimit'' := (run_limit hloop).trans hlimit.symm
        obtain ⟨⟨remaining'', limit''⟩, stack''⟩ := vm''
        obtain ⟨⟨remaining', limit'⟩, stack'⟩ := vm'
        simp_all

theorem runOp_maxGas (maxGas : UInt64) :
    runOp { config with maxGas := maxGas } ctx host = runOp config ctx host := by
  funext stack op
  cases op <;> rfl

/-! ## Two budgets -/

/-- What a successful evaluation says about the script and the budget. -/
theorem deterministicScriptEngine_eq_ok {result : ScriptResult} :
    deterministicScriptEngine config script ctx host = .ok result ↔
      script.ops.length ≤ config.maxScriptLen ∧ ∃ prices stack,
        script.ops.mapM (OpCode.price config.maxPushBytes) = .ok prices ∧
        script.ops.foldlM (runOp config ctx host)
          (Stack.new config.maxStackItems) = .ok stack ∧
        prices.sum ≤ config.maxGas.toNat ∧
        result.gasConsumed.toNat = prices.sum := by
  simp only [deterministicScriptEngine, bind_eq_ok, require_eq_ok, pure_eq_ok,
    Vm.run_eq_ok, Vm.init, GasMeter.new, GasMeter.used, not_lt]
  constructor
  · rintro ⟨-, hlength, vm, ⟨prices, hprices, hrun, hsum, hlimit⟩, rfl⟩
    refine ⟨hlength, prices, vm.stack, hprices, hrun, by omega, ?_⟩
    dsimp only
    rw [hlimit, UInt64.toNat_sub_of_le _ _
      (UInt64.le_iff_toNat_le.mpr (by omega))]
    omega
  · rintro ⟨hlength, prices, stack, hprices, hrun, hsum, hresult⟩
    have hle : result.gasConsumed ≤ config.maxGas :=
      UInt64.le_iff_toNat_le.mpr (by omega)
    refine ⟨(), hlength,
      ⟨⟨config.maxGas - result.gasConsumed, config.maxGas⟩, stack⟩,
      ⟨prices, hprices, hrun, ?_, rfl⟩, ?_⟩
    · dsimp only
      rw [UInt64.toNat_sub_of_le _ _ hle]
      omega
    · have hused : config.maxGas - (config.maxGas - result.gasConsumed) =
          result.gasConsumed := by
        apply UInt64.toNat_inj.mp
        have hsub := UInt64.toNat_sub_of_le _ _ hle
        rw [UInt64.toNat_sub_of_le _ _
          (UInt64.le_iff_toNat_le.mpr (by omega)), hsub]
        omega
      rw [hused]

/-- Below the sum of the prices, a script which would succeed runs out of
gas. -/
theorem deterministicScriptEngine_outOfGas {prices : List ℕ} {stack : Stack}
    (hlength : script.ops.length ≤ config.maxScriptLen)
    (hprices : script.ops.mapM (OpCode.price config.maxPushBytes) = .ok prices)
    (hrun : script.ops.foldlM (runOp config ctx host)
      (Stack.new config.maxStackItems) = .ok stack)
    (hgas : config.maxGas.toNat < prices.sum) :
    deterministicScriptEngine config script ctx host =
      .error (.err .outOfGas) := by
  have hview : script.ops.foldlM
      (meteredStep (OpCode.price config.maxPushBytes)
        (runOp config ctx host) .outOfGas) (Vm.init config).meter =
      .error (.err .outOfGas) := metered_exhausted hprices hrun hgas
  have hmeter : (script.ops.foldlM (Vm.step config ctx host)
      (Vm.init config)).map Vm.meter = _ := Vm.run_meter _ _
  have hloop : script.ops.foldlM (Vm.step config ctx host) (Vm.init config) =
      .error (.err .outOfGas) := by
    cases h : script.ops.foldlM (Vm.step config ctx host) (Vm.init config) with
    | ok vm =>
        rw [h] at hmeter
        cases hmeter.trans hview
    | error e =>
        rw [h] at hmeter
        rw [Except.error.inj (hmeter.trans hview)]
  simp [deterministicScriptEngine, hloop, require, hlength, bind, Except.bind]

/-- An evaluation which succeeds under one gas limit costs the sum of the
`gas_cost` of its opcodes.  Under any other limit it succeeds at the same cost
when the limit covers that sum, and is out of gas when it does not. -/
theorem gasMetering_exact (config : VmConfig) (maxGas maxGas' : UInt64)
    (script : Script) (ctx : ScriptContext) (host : ScriptHost)
    (result : ScriptResult)
    (h : deterministicScriptEngine { config with maxGas := maxGas' } script ctx
      host = .ok result) :
    (∃ costs, script.ops.mapM (fun op => gasCost op config.maxPushBytes) =
        .ok costs ∧
      result.gasConsumed.toNat = (costs.map UInt64.toNat).sum) ∧
    result.gasConsumed ≤ maxGas' ∧
    (result.gasConsumed ≤ maxGas →
      deterministicScriptEngine { config with maxGas := maxGas } script ctx
        host = .ok result) ∧
    (maxGas < result.gasConsumed →
      deterministicScriptEngine { config with maxGas := maxGas } script ctx
        host = .error (.err .outOfGas)) := by
  obtain ⟨hlength, prices, stack, hprices, hrun, hbudget, hconsumed⟩ :=
    deterministicScriptEngine_eq_ok.mp h
  rw [runOp_maxGas] at hrun
  obtain ⟨costs, hcosts, hsum⟩ := mapM_price_eq_ok.mp hprices
  refine ⟨⟨costs, hcosts, by rw [hsum, hconsumed]⟩, ?_, ?_, ?_⟩
  · rw [UInt64.le_iff_toNat_le, hconsumed]
    exact hbudget
  · intro hle
    rw [UInt64.le_iff_toNat_le, hconsumed] at hle
    refine deterministicScriptEngine_eq_ok.mpr ⟨hlength, prices, stack,
      hprices, ?_, hle, hconsumed⟩
    rw [runOp_maxGas]
    exact hrun
  · intro hlt
    rw [UInt64.lt_iff_toNat_lt, hconsumed] at hlt
    rw [← runOp_maxGas maxGas] at hrun
    exact deterministicScriptEngine_outOfGas hlength hprices hrun hlt

end Evaluation

/-! ## An example -/

section Example

open StandIns

/-- A script of one push and one no-op costs `14` gas. -/
def pushScript : Script := ⟨[.pushBytes [1, 2, 3], .nop]⟩

def pushContext : ScriptContext where
  tx := ⟨⟨.transfer, [], []⟩, ⟨[]⟩⟩
  inputIndex := 0
  currentHeight := none
  chainId := 0
  scriptHash := default

def emptyHost : ScriptHost := ⟨none, fun _ => none⟩

theorem gasMetering_exact_pushScript :
    defaultScriptEngine pushScript pushContext emptyHost = .ok ⟨14⟩ ∧
    deterministicScriptEngine { VmConfig.default with maxGas := 14 } pushScript
      pushContext emptyHost = .ok ⟨14⟩ ∧
    deterministicScriptEngine { VmConfig.default with maxGas := 13 } pushScript
      pushContext emptyHost = .error (.err .outOfGas) := by
  have hrun : deterministicScriptEngine
      { VmConfig.default with maxGas := 50000 } pushScript pushContext
        emptyHost = .ok ⟨14⟩ := rfl
  refine ⟨hrun, ?_, ?_⟩
  · exact (gasMetering_exact VmConfig.default 14 50000 pushScript pushContext
      emptyHost ⟨14⟩ hrun).2.2.1 (by decide)
  · exact (gasMetering_exact VmConfig.default 13 50000 pushScript pushContext
      emptyHost ⟨14⟩ hrun).2.2.2 (by decide)

end Example

end QCoin
