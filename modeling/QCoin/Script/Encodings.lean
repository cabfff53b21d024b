import QCoin.Script.Machine

/-!
# Injectivity of the consensus encodings

Nothing in the repository decodes these formats, and nothing has to: values
whose lists have lengths of 32 bits are encoded, and different values have
different encodings.
-/

namespace QCoin

open Support

/-! ## Which values are encoded -/

theorem encodeAppend_isSome {x y : Option Bytes} :
    (encodeAppend x y).isSome ↔ x.isSome ∧ y.isSome := by
  simp only [Option.isSome_iff_exists, encodeAppend_eq_some]
  constructor
  · rintro ⟨_, a, b, ha, hb, -⟩
    exact ⟨⟨a, ha⟩, b, hb⟩
  · rintro ⟨⟨a, ha⟩, b, hb⟩
    exact ⟨a ++ b, a, b, ha, hb, rfl⟩

theorem encodeAll_isSome {α : Type} {enc : Encoder α} {xs : List α} :
    (encodeAll enc xs).isSome ↔ ∀ x ∈ xs, (enc x).isSome := by
  induction xs with
  | nil => simp [encodeAll]
  | cons x xs ih =>
      rw [encodeAll, encodeAppend_isSome, ih, List.forall_mem_cons]

theorem encodeVec_isSome {α : Type} {enc : Encoder α} {xs : List α} :
    (encodeVec enc xs).isSome ↔
      xs.length < 2 ^ 32 ∧ ∀ x ∈ xs, (enc x).isSome := by
  have hlen : (encodeLen xs.length).isSome ↔ xs.length < 2 ^ 32 := by
    simp [encodeLen]
  rw [encodeVec, encodeAppend_isSome, encodeAll_isSome, hlen]

theorem encodeOutput_isSome {output : Output} :
    (encodeOutput output).isSome ↔ output.assets.length < 2 ^ 32 := by
  have hmetadata : (encodeOption (fun hash => some (encodeHash hash))
      output.metadataHash).isSome := by
    cases output.metadataHash <;> rfl
  rw [encodeOutput, encodeAppend_isSome, encodeAppend_isSome,
    encodeVec_isSome]
  simp [hmetadata]

/-- The lists of the core have lengths which fit into 32 bits. -/
structure TransactionCore.LengthsFit (core : TransactionCore) : Prop where
  inputs : core.inputs.length < 2 ^ 32
  outputs : core.outputs.length < 2 ^ 32
  assets : ∀ output ∈ core.outputs, output.assets.length < 2 ^ 32

theorem encodeTxCore_isSome {core : TransactionCore} :
    (encodeTxCore core).isSome ↔ core.LengthsFit := by
  rw [encodeTxCore, encodeAppend_isSome, encodeAppend_isSome,
    encodeAppend_isSome, encodeVec_isSome, encodeVec_isSome]
  simp only [encodeOutput_isSome, Option.isSome_some, implies_true,
    and_true, true_and]
  constructor
  · rintro ⟨hinputs, houtputs, hassets⟩
    exact ⟨hinputs, houtputs, hassets⟩
  · intro h
    exact ⟨h.inputs, h.outputs, h.assets⟩

/-- The script and the data which it pushes have lengths of 32 bits. -/
structure Script.LengthsFit (script : Script) : Prop where
  ops : script.ops.length < 2 ^ 32
  pushes : ∀ data, .pushBytes data ∈ script.ops → data.length < 2 ^ 32

theorem encodeOpCode_isSome {op : OpCode}
    (h : ∀ data, op = .pushBytes data → data.length < 2 ^ 32) :
    (encodeOpCode op).isSome := by
  cases op with
  | pushBytes data =>
      have hlength := h data rfl
      simpa [encodeOpCode, encodeAppend_isSome, encodeLen] using hlength
  | checkMultiSig threshold total => rfl
  | checkSig => rfl
  | checkTimeLock => rfl
  | checkRelativeTimeLock => rfl
  | checkHashLock => rfl
  | nop => rfl

theorem encodeScript_isSome {script : Script} (h : script.LengthsFit) :
    (encodeScript script).isSome := by
  refine encodeVec_isSome.mpr ⟨h.ops, fun op hop => ?_⟩
  refine encodeOpCode_isSome fun data hdata => ?_
  subst hdata
  exact h.pushes data hop

/-! ## Signed messages -/

/-- What a signature hash is made of. -/
structure SighashMessage where
  chainId : UInt32
  core : TransactionCore
  prevOutput : Output
  inputIndex : ℕ
  scriptHash : Hash256
  flags : SighashFlags

/-- The hashed bytes.  A signature does not cover the witness. -/
def SighashMessage.preimage : Encoder SighashMessage := fun message =>
  Transaction.sighashPreimage ⟨message.core, ⟨[]⟩⟩ message.inputIndex
    message.prevOutput message.scriptHash message.chainId message.flags

structure SighashMessage.Fits (message : SighashMessage) : Prop where
  core : message.core.LengthsFit
  prevOutput : message.prevOutput.assets.length < 2 ^ 32
  inputIndex : message.inputIndex < 2 ^ 64

theorem sighashPreimage_eq (tx : Transaction) (inputIndex : ℕ)
    (prevOutput : Output) (scriptHash : Hash256) (chainId : UInt32)
    (flags : SighashFlags) :
    tx.sighashPreimage inputIndex prevOutput scriptHash chainId flags =
      SighashMessage.preimage
        ⟨chainId, tx.core, prevOutput, inputIndex, scriptHash, flags⟩ := rfl

theorem SighashMessage.preimage_isSome {message : SighashMessage}
    (h : message.Fits) : message.preimage.isSome := by
  have hcore := encodeTxCore_isSome.mpr h.core
  have houtput := encodeOutput_isSome.mpr h.prevOutput
  simp [preimage, Transaction.sighashPreimage, encodeAppend_isSome, hcore,
    houtput]

theorem SighashMessage.preimage_distinguishes :
    Distinguishes SighashMessage.preimage SighashMessage.Fits where
  encoded _ h := Option.isSome_iff_exists.mp (preimage_isSome h)
  distinct a b ha hb hne heq := by
    obtain ⟨x, hx⟩ := Option.isSome_iff_exists.mp (preimage_isSome ha)
    obtain ⟨hchain, hcore, houtput, hbytes, hscript, hflags⟩ :=
      sighashPreimage_injective hx (heq.symm.trans hx)
    have hindex : a.inputIndex = b.inputIndex :=
      leBytes_injective_of_lt ha.inputIndex hb.inputIndex hbytes
    apply hne
    cases a
    cases b
    simp only [SighashMessage.mk.injEq]
    exact ⟨hchain, hcore, houtput, hindex, hscript, hflags⟩

/-- The preimage of an asset id names the chain. -/
theorem assetIdPreimage_injective {definition definition' : AssetDefinition}
    {chainId chainId' : UInt32}
    (h : assetIdPreimage definition chainId =
      assetIdPreimage definition' chainId') :
    chainId = chainId' ∧ definition = definition' := by
  rw [assetIdPreimage, assetIdPreimage, List.append_assoc, List.append_assoc,
    List.append_cancel_left_eq] at h
  obtain ⟨hchain, hrest⟩ := u32_selfDelimiting rfl rfl h
  exact ⟨hchain, encodeAssetDefinition_selfDelimiting.uniquelyEncoded
    (congrArg some hrest) rfl⟩

/-- Every consensus encoding tells its values apart. -/
theorem consensus_encodings_injective :
    Distinguishes encodeTxCore TransactionCore.LengthsFit ∧
    Distinguishes encodeOutput (fun output =>
      output.assets.length < 2 ^ 32) ∧
    Function.Injective encodeAssetDefinition ∧
    Function.Injective encodeBlockHeader ∧
    Distinguishes encodeScript Script.LengthsFit ∧
    Distinguishes SighashMessage.preimage SighashMessage.Fits ∧
    Function.Injective fun p : AssetDefinition × UInt32 =>
      assetIdPreimage p.1 p.2 := by
  refine ⟨?_, ?_, ?_, encodeBlockHeader_injective, ?_,
    SighashMessage.preimage_distinguishes, ?_⟩
  · exact encodeTxCore_selfDelimiting.uniquelyEncoded.distinguishes
      fun _ h => encodeTxCore_isSome.mpr h
  · exact encodeOutput_selfDelimiting.uniquelyEncoded.distinguishes
      fun _ h => encodeOutput_isSome.mpr h
  · intro a b h
    exact encodeAssetDefinition_selfDelimiting.uniquelyEncoded rfl
      (congrArg some h.symm)
  · exact encodeScript_selfDelimiting.uniquelyEncoded.distinguishes
      fun _ h => encodeScript_isSome h
  · intro p q h
    obtain ⟨hchain, hdefinition⟩ := assetIdPreimage_injective h
    exact Prod.ext hdefinition hchain

/-- A push of one byte is told apart from the opcode with that number. -/
theorem consensus_encodings_pushes :
    encodeScript ⟨[.pushBytes [4]]⟩ ≠ encodeScript ⟨[.checkHashLock]⟩ := by
  obtain ⟨-, -, -, -, hscript, -, -⟩ := consensus_encodings_injective
  refine hscript.distinct _ _ ⟨by decide, ?_⟩ ⟨by decide, ?_⟩ (by decide)
  · intro data hdata
    simp only [List.mem_singleton, OpCode.pushBytes.injEq] at hdata
    rw [hdata]
    decide
  · intro data hdata
    simp at hdata

end QCoin
