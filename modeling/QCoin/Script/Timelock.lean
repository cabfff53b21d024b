import QCoin.Script.Gas
import QCoin.Script.Opcodes

/-!
# Timelocks

Which heights a successful evaluation has compared.  The absolute lock is
compared as it stands.  The relative lock is added to the creation height in
`u64`, so it is compared as a number unless that sum wraps; lock values come
from the pushes of the script, so the script tells whether it does.
-/

namespace QCoin

open Support
open Support.Result

section Timelocks

variable [Blake3] [PqCrypto]

/-! ## Points of an evaluation -/

/-- An evaluation of the script has run `before` and now executes `op`. -/
def Executes (config : VmConfig) (ctx : ScriptContext) (host : ScriptHost)
    (script : Script) (before : List OpCode) (op : OpCode) (vm : Vm) : Prop :=
  (∃ after, script.ops = before ++ op :: after) ∧
    before.foldlM (Vm.step config ctx host) (Vm.init config) = .ok vm

/-- At every executed timelock the popped value was eight bytes long and,
read as a number, it was reached by the current height. -/
structure TimelocksExact (config : VmConfig) (ctx : ScriptContext)
    (host : ScriptHost) (script : Script) : Prop where
  absolute : ∀ before vm,
    Executes config ctx host script before .checkTimeLock vm →
      ∃ bytes ∈ vm.stack.items.head?, bytes.length = 8 ∧
        ∃ current ∈ lockHeight ctx host, leValue bytes ≤ current.toNat
  relative : ∀ before vm,
    Executes config ctx host script before .checkRelativeTimeLock vm →
      ∃ bytes ∈ vm.stack.items.head?, bytes.length = 8 ∧
        ∃ created ∈ inputCreatedHeight ctx host,
        ∃ current ∈ lockHeight ctx host,
          created.toNat + leValue bytes ≤ current.toNat

/-- No relative lock of the script, added to the creation height of the
current input, leaves the range of `u64`. -/
def RelativeLocksFit (ctx : ScriptContext) (host : ScriptHost)
    (script : Script) : Prop :=
  ∀ before after, script.ops = before ++ .checkRelativeTimeLock :: after →
    ∀ bytes ∈ (before.foldl stackAfter []).head?,
      ∀ created ∈ inputCreatedHeight ctx host,
        created.toNat + leValue bytes < 2 ^ 64

variable {config : VmConfig} {ctx : ScriptContext} {host : ScriptHost}
  {script : Script}

theorem Executes.items {before : List OpCode} {op : OpCode} {vm : Vm}
    (h : Executes config ctx host script before op vm) :
    vm.stack.items = before.foldl stackAfter [] :=
  items_of_run h.2

theorem Executes.demand {result : ScriptResult} {before : List OpCode}
    {op : OpCode} {vm : Vm} (h : Executes config ctx host script before op vm)
    (heval : deterministicScriptEngine config script ctx host = .ok result) :
    op.Demand config ctx host vm.stack := by
  obtain ⟨⟨after, hops⟩, hvm⟩ := h
  obtain ⟨vm', hvm', -, hdemand⟩ := demand_of_eval heval hops
  rwa [Except.ok.inj (hvm.symm.trans hvm')]

/-! ## The comparisons -/

omit [Blake3] [PqCrypto] in
theorem leValue_lt (bytes : Bytes) : leValue bytes < 256 ^ bytes.length := by
  induction bytes with
  | nil => simp [leValue]
  | cons b bytes ih =>
      have hbyte := b.toNat_lt
      rw [leValue, List.length_cons, pow_succ]
      omega

omit [Blake3] [PqCrypto] in
/-- Eight bytes are read without loss. -/
theorem toNat_leValue {bytes : Bytes} (h : bytes.length = 8) :
    (UInt64.ofNat (leValue bytes)).toNat = leValue bytes := by
  have hlt := leValue_lt bytes
  rw [h] at hlt
  exact UInt64.toNat_ofNat_of_lt' hlt

omit [Blake3] [PqCrypto] in
theorem absoluteLock_open {bytes : Bytes} {current : UInt64}
    (h : bytes.length = 8) :
    ¬current < UInt64.ofNat (leValue bytes) ↔
      leValue bytes ≤ current.toNat := by
  rw [UInt64.lt_iff_toNat_lt, toNat_leValue h, not_lt]

omit [Blake3] [PqCrypto] in
/-- The code asks for less than the lock says exactly when the sum wraps. -/
theorem relativeLock_open {bytes : Bytes} {created current : UInt64}
    (h : bytes.length = 8)
    (hopen : ¬current < created + UInt64.ofNat (leValue bytes)) :
    created.toNat + leValue bytes ≤ current.toNat ↔
      created.toNat + leValue bytes < 2 ^ 64 := by
  have hcurrent := current.toNat_lt
  rw [UInt64.lt_iff_toNat_lt, UInt64.toNat_add, toNat_leValue h,
    not_lt] at hopen
  constructor
  · intro hle
    omega
  · intro hfits
    rwa [Nat.mod_eq_of_lt hfits] at hopen

/-- The absolute locks of a successful evaluation were all reached. -/
theorem absoluteLocks_exact {result : ScriptResult}
    (heval : deterministicScriptEngine config script ctx host = .ok result) :
    ∀ before vm, Executes config ctx host script before .checkTimeLock vm →
      ∃ bytes ∈ vm.stack.items.head?, bytes.length = 8 ∧
        ∃ current ∈ lockHeight ctx host, leValue bytes ≤ current.toNat := by
  intro before vm hexecutes
  obtain ⟨bytes, hbytes, hlength, current, hcurrent, hopen⟩ :=
    hexecutes.demand heval
  exact ⟨bytes, hbytes, hlength, current, hcurrent,
    (absoluteLock_open hlength).mp hopen⟩

/-- A successful evaluation has honoured its timelocks exactly when no
relative lock of the script wraps. -/
theorem timelocksExact_iff {result : ScriptResult}
    (heval : deterministicScriptEngine config script ctx host = .ok result) :
    TimelocksExact config ctx host script ↔
      RelativeLocksFit ctx host script := by
  constructor
  · intro hexact before after hops bytes hbytes created hcreated
    obtain ⟨vm, hvm, -, -⟩ := demand_of_eval heval hops
    have hexecutes : Executes config ctx host script before
        .checkRelativeTimeLock vm := ⟨⟨after, hops⟩, hvm⟩
    obtain ⟨bytes', hbytes', -, created', hcreated', current, -, hle⟩ :=
      hexact.relative before vm hexecutes
    rw [hexecutes.items] at hbytes'
    obtain rfl := Option.mem_unique hbytes hbytes'
    obtain rfl := Option.mem_unique hcreated hcreated'
    exact lt_of_le_of_lt hle current.toNat_lt
  · intro hfit
    refine ⟨absoluteLocks_exact heval, fun before vm hexecutes => ?_⟩
    obtain ⟨bytes, hbytes, hlength, created, hcreated, current, hcurrent,
      hopen⟩ := hexecutes.demand heval
    obtain ⟨after, hops⟩ := hexecutes.1
    have hsum := hfit before after hops bytes
      (by rwa [← hexecutes.items]) created hcreated
    exact ⟨bytes, hbytes, hlength, created, hcreated, current, hcurrent,
      (relativeLock_open hlength hopen).mpr hsum⟩

end Timelocks

/-! ## A lock which wraps -/

section Example

open StandIns

def lockScript (lock : Bytes) : Script :=
  ⟨[.pushBytes lock, .checkRelativeTimeLock]⟩

def lockInput : TransactionInput := ⟨Hash256.fill 1, 0⟩

/-- A transaction which spends one output at height `6`. -/
def lockContext : ScriptContext where
  tx := ⟨⟨.transfer, [lockInput], []⟩, ⟨[]⟩⟩
  inputIndex := 0
  currentHeight := some 6
  chainId := 0
  scriptHash := default

/-- The output was created at height `5`. -/
def lockHost : ScriptHost where
  currentHeight := some 6
  inputUtxo _ := some ⟨⟨default, [], none⟩, some 5⟩

/-- The machine when it comes to the lock. -/
def lockVm (lock : Bytes) : Vm :=
  ⟨⟨50000 - (10 + UInt64.ofNat lock.length), 50000⟩, ⟨[lock], 1024⟩⟩

theorem lockScript_split {lock : Bytes} {before after : List OpCode}
    (h : (lockScript lock).ops = before ++ .checkRelativeTimeLock :: after) :
    before = [.pushBytes lock] := by
  match before, h with
  | [op], h =>
      simp only [lockScript, List.cons_append, List.cons.injEq] at h
      rw [h.1]
  | _ :: _ :: _, h => simp [lockScript] at h

theorem lockScript_eval_one :
    deterministicScriptEngine VmConfig.default (lockScript (leBytes 8 1))
      lockContext lockHost = .ok ⟨28⟩ := rfl

/-- A lock of one block which has passed. -/
theorem timelocksExact_iff_one :
    TimelocksExact VmConfig.default lockContext lockHost
      (lockScript (leBytes 8 1)) := by
  refine (timelocksExact_iff lockScript_eval_one).mpr ?_
  intro before after hops bytes hbytes created hcreated
  rw [lockScript_split hops] at hbytes
  obtain rfl : leBytes 8 1 = bytes := Option.some.inj hbytes
  obtain rfl : 5 = created := Option.some.inj hcreated
  decide

/-- A lock of `2 ^ 64 - 1` blocks opens after one block. -/
theorem lockScript_max_wraps :
    deterministicScriptEngine VmConfig.default
      (lockScript (leBytes 8 (2 ^ 64 - 1))) lockContext lockHost = .ok ⟨28⟩ ∧
    ¬TimelocksExact VmConfig.default lockContext lockHost
      (lockScript (leBytes 8 (2 ^ 64 - 1))) := by
  refine ⟨rfl, fun hexact => ?_⟩
  obtain ⟨bytes, hbytes, -, created, hcreated, current, hcurrent, hle⟩ :=
    hexact.relative [.pushBytes (leBytes 8 (2 ^ 64 - 1))]
      (lockVm (leBytes 8 (2 ^ 64 - 1))) ⟨⟨[], rfl⟩, rfl⟩
  obtain rfl : leBytes 8 (2 ^ 64 - 1) = bytes := Option.some.inj hbytes
  obtain rfl : 6 = current := Option.some.inj hcurrent
  rw [leValue_leBytes] at hle
  have hcurrent : (6 : UInt64).toNat = 6 := rfl
  omega

end Example

end QCoin
