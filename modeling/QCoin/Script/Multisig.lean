import Mathlib.Order.Fin.Basic
import QCoin.Ledger.StandIns
import QCoin.Script.Opcodes

/-!
# Multisignatures

`CheckMultiSig` verifies the `i`-th signature under the `i`-th key, so of all
the groups of signers which reach the threshold it accepts the one whose keys
come off the stack first.
-/

namespace QCoin

open Support
open Support.Result

section Multisig

variable [Blake3] [PqCrypto]

/-- The signatures can be assigned, in order, to different positions among the
keys so that each verifies under its key. -/
def SignedBySome (ctx : ScriptContext) (host : ScriptHost)
    (publicKeys : List PublicKey) (signatures : List Signature) : Prop :=
  ∃ position : Fin signatures.length → Fin publicKeys.length,
    StrictMono position ∧
      ∀ i, Verifies ctx host (publicKeys.get (position i)) (signatures.get i)

/-- The top of the stack holds `threshold` well-formed signatures and, below
them, `total` well-formed keys. -/
structure MultiSigItems (threshold total : UInt8) (items : List Bytes)
    (signatures : List Signature) (publicKeys : List PublicKey) : Prop where
  positive : 1 ≤ threshold.toNat
  enough : threshold.toNat ≤ total.toNat
  present : threshold.toNat + total.toNat ≤ items.length
  signatures : List.Forall₂
    (fun bytes signature => Signature.fromBytes bytes = .ok signature)
    (items.take threshold.toNat) signatures
  publicKeys : List.Forall₂
    (fun bytes publicKey => PublicKey.fromBytes bytes = .ok publicKey)
    ((items.drop threshold.toNat).take total.toNat) publicKeys

variable {config : VmConfig} {ctx : ScriptContext} {host : ScriptHost}
  {threshold total : UInt8} {vm : Vm} {signatures : List Signature}
  {publicKeys : List PublicKey}

omit [Blake3] [PqCrypto] in
theorem parsed_unique {κ : Type} {parse : Bytes → Except CryptoError κ}
    {items : List Bytes} {keys keys' : List κ}
    (h : List.Forall₂ (fun bytes key => parse bytes = .ok key) items keys)
    (h' : List.Forall₂ (fun bytes key => parse bytes = .ok key) items keys') :
    keys = keys' := by
  refine List.right_unique_forall₂' ?_ h h'
  intro bytes key key' hkey hkey'
  exact Except.ok.inj (hkey.symm.trans hkey')

/-- With enough gas and well-formed items, the opcode succeeds when every
signature verifies under the key at its own position. -/
theorem step_checkMultiSig_iff
    (hitems : MultiSigItems threshold total vm.stack.items signatures
      publicKeys)
    (hgas : SIG_COST * max threshold.toUInt64 1 ≤ vm.gas.remaining) :
    (∃ vm', vm.step config ctx host (.checkMultiSig threshold total) =
        .ok vm') ↔ VerifiesPaired ctx host publicKeys signatures := by
  constructor
  · rintro ⟨vm', hstep⟩
    obtain ⟨⟨-, -, -, signatures', publicKeys', hsignatures, hpublicKeys,
      hverifies⟩, -⟩ := Vm.step_demand hstep
    rw [parsed_unique hitems.signatures hsignatures,
      parsed_unique hitems.publicKeys hpublicKeys]
    exact hverifies
  · intro hverifies
    have hdemand : OpCode.Demand config ctx host vm.stack
        (.checkMultiSig threshold total) :=
      ⟨hitems.positive, hitems.enough, hitems.present, signatures, publicKeys,
        hitems.signatures, hitems.publicKeys, hverifies⟩
    have hrun := runOp_eq_ok.mpr ⟨hdemand, rfl⟩
    have hcharge : vm.gas.consume (SIG_COST * max threshold.toUInt64 1) =
        .ok { vm.gas with remaining :=
          vm.gas.remaining - SIG_COST * max threshold.toUInt64 1 } := by
      rw [GasMeter.consume, if_neg (UInt64.not_lt.mpr hgas)]
    simp only [Vm.step, bind_eq_ok, pure_eq_ok]
    exact ⟨_, _, rfl, _, hcharge, _, hrun, rfl⟩

/-- Pairing by position is one of the assignments. -/
theorem VerifiesPaired.signedBySome
    (hlength : signatures.length ≤ publicKeys.length)
    (h : VerifiesPaired ctx host publicKeys signatures) :
    SignedBySome ctx host publicKeys signatures := by
  refine ⟨Fin.castLE hlength, Fin.strictMono_castLE hlength, fun i => ?_⟩
  obtain ⟨publicKey, hkey, hverifies⟩ :=
    h i (signatures.get i) (List.getElem?_eq_getElem i.isLt)
  obtain ⟨hbound, rfl⟩ := List.getElem?_eq_some_iff.mp hkey
  exact hverifies

/-- `CheckMultiSig` succeeds for exactly the groups of signers which it should
accept when, of the groups which could have signed, the one with the first
keys is among them. -/
theorem checkMultiSig_threshold_iff
    (hitems : MultiSigItems threshold total vm.stack.items signatures
      publicKeys)
    (hgas : SIG_COST * max threshold.toUInt64 1 ≤ vm.gas.remaining) :
    ((∃ vm', vm.step config ctx host (.checkMultiSig threshold total) =
        .ok vm') ↔ SignedBySome ctx host publicKeys signatures) ↔
      (SignedBySome ctx host publicKeys signatures →
        VerifiesPaired ctx host publicKeys signatures) := by
  have hsignatures := hitems.signatures.length_eq
  have hpublicKeys := hitems.publicKeys.length_eq
  rw [List.length_take] at hsignatures
  rw [List.length_take, List.length_drop] at hpublicKeys
  have hlength : signatures.length ≤ publicKeys.length := by
    have hpresent := hitems.present
    have henough := hitems.enough
    omega
  rw [step_checkMultiSig_iff hitems hgas]
  constructor
  · intro h hsome
    exact h.mpr hsome
  · intro h
    exact ⟨fun hpaired => hpaired.signedBySome hlength, h⟩

end Multisig

/-! ## One signature out of two -/

section Example

open StandIns

def pairInput : TransactionInput := ⟨Hash256.fill 1, 0⟩

def pairContext : ScriptContext where
  tx := ⟨⟨.transfer, [pairInput], []⟩, ⟨[]⟩⟩
  inputIndex := 0
  currentHeight := some 1
  chainId := 0
  scriptHash := default

def pairHost : ScriptHost where
  currentHeight := some 1
  inputUtxo _ := some ⟨⟨default, [], none⟩, some 0⟩

def pairSighash : Hash256 :=
  Blake3.hash ((pairContext.tx.sighashPreimage 0 ⟨default, [], none⟩ default 0
    {}).getD [])

theorem pairSighash_eq : inputSighash pairContext pairHost = .ok pairSighash :=
  rfl

/-- The signature of the spend by a stand-in validator. -/
def pairSignature (n : UInt8) : Signature :=
  ⟨.dilithium2, n :: pairSighash.bytes⟩

theorem pairSignature_verifies (m n : UInt8) :
    Verifies pairContext pairHost (validatorKey m) (pairSignature n) ↔
      m = n := by
  have hverify : dilithium2Scheme.verify (validatorKey m) pairSighash.bytes
      (pairSignature n) = .ok () ↔ m = n := by
    have hlength : (n :: pairSighash.bytes).length ≤ 128 := by
      simp [pairSighash.size]
    rw [dilithium2Scheme, moduleScheme_verify_eq_ok]
    constructor
    · rintro ⟨-, -, -, hsigned⟩
      exact (List.cons.inj (beq_iff_eq.mp hsigned)).1.symm
    · rintro rfl
      exact ⟨⟨rfl, rfl⟩, rfl, decide_eq_true hlength, beq_self_eq_true _⟩
  constructor
  · rintro ⟨scheme, sighash, hscheme, hsighash, h⟩
    obtain rfl : dilithium2Scheme = scheme := Option.some.inj hscheme
    obtain rfl : pairSighash = sighash :=
      Except.ok.inj (pairSighash_eq.symm.trans hsighash)
    exact hverify.mp h
  · intro h
    exact ⟨dilithium2Scheme, pairSighash, rfl, pairSighash_eq, hverify.mpr h⟩

/-- The bytes in which keys and signatures of the stand-ins are pushed. -/
def pushed (payload : Bytes) : Bytes :=
  leBytes 2 1 ++ leBytes 4 payload.length ++ payload

/-- A signature on top of the keys of validators `1` and `2`. -/
def pairVm (n : UInt8) : Vm where
  gas := ⟨SIG_COST, SIG_COST⟩
  stack := ⟨[pushed (n :: pairSighash.bytes), pushed [1], pushed [2]], 1024⟩

theorem pairVm_items (n : UInt8) :
    MultiSigItems 1 2 (pairVm n).stack.items [pairSignature n]
      [validatorKey 1, validatorKey 2] where
  positive := by decide
  enough := by decide
  present := Nat.le_refl 3
  signatures := by
    have hencode : (pairSignature n).toBytes =
        .ok (pushed (n :: pairSighash.bytes)) := by
      simp [Signature.toBytes, encodeWithScheme, validateKeySize, pairSignature,
        signatureSize, moduleSize, PqCrypto.dilithium2, echoModule,
        pairSighash.size, bind, Except.bind, pure, Except.pure, pushed]
      rfl
    have hparse := Signature.fromBytes_toBytes (by
      simp [pairSignature, pairSighash.size]) hencode
    exact List.Forall₂.cons hparse List.Forall₂.nil
  publicKeys := by
    have hparse : ∀ k : UInt8, PublicKey.fromBytes (pushed [k]) =
        .ok (validatorKey k) := by
      intro k
      have hlength : (validatorKey k).bytes.length < 2 ^ 32 := by
        simp [validatorKey]
      exact PublicKey.fromBytes_toBytes hlength rfl
    exact List.Forall₂.cons (hparse 1) (List.Forall₂.cons (hparse 2)
      List.Forall₂.nil)

/-- The holder of the first key signs. -/
theorem pairVm_firstSigner :
    (∃ vm', (pairVm 1).step VmConfig.default pairContext pairHost
      (.checkMultiSig 1 2) = .ok vm') ↔
      SignedBySome pairContext pairHost [validatorKey 1, validatorKey 2]
        [pairSignature 1] := by
  refine (checkMultiSig_threshold_iff (pairVm_items 1) (by decide)).mpr ?_
  rintro - i signature hsignature
  match i, hsignature with
  | 0, hsignature =>
      obtain rfl : pairSignature 1 = signature := Option.some.inj hsignature
      exact ⟨validatorKey 1, rfl, (pairSignature_verifies 1 1).mpr rfl⟩

/-- The holder of the second key signs, and the opcode fails. -/
theorem pairVm_secondSigner :
    MultiSigItems 1 2 (pairVm 2).stack.items [pairSignature 2]
        [validatorKey 1, validatorKey 2] ∧
      SIG_COST * max (1 : UInt8).toUInt64 1 ≤ (pairVm 2).gas.remaining ∧
      SignedBySome pairContext pairHost [validatorKey 1, validatorKey 2]
        [pairSignature 2] ∧
      ¬∃ vm', (pairVm 2).step VmConfig.default pairContext pairHost
        (.checkMultiSig 1 2) = .ok vm' := by
  refine ⟨pairVm_items 2, by decide, ?_, ?_⟩
  · refine ⟨fun _ => 1, ?_, fun i => ?_⟩
    · intro i j hij
      exact absurd hij (by simp)
    · match i with
      | 0 => exact (pairSignature_verifies 2 2).mpr rfl
  · rw [step_checkMultiSig_iff (pairVm_items 2) (by decide)]
    intro hpaired
    obtain ⟨publicKey, hkey, hverifies⟩ := hpaired 0 (pairSignature 2) rfl
    obtain rfl : validatorKey 1 = publicKey := Option.some.inj hkey
    exact absurd ((pairSignature_verifies 1 2).mp hverifies) (by decide)

end Example

end QCoin
