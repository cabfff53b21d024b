import QCoin.Types.Basic

/-!
# The consensus byte format

Encoders of `qcoin_types::consensus_codec`.  Lengths are written as 32-bit
numbers and the code panics on longer lists, so an encoder of a value with
lists in it is partial.  Every encoder is shown self-delimiting; that is what
turns equality of hashes into equality of the hashed values.
-/

namespace QCoin

open Support

/-! ## Encoders -/

def encodeLen : Encoder ℕ := fun len =>
  if len < 2 ^ 32 then some (leBytes 4 len) else none

def encodeHash (hash : Hash256) : Bytes :=
  hash.bytes

def encodeTransactionInput (input : TransactionInput) : Bytes :=
  encodeHash input.txId ++ leBytes 4 input.index.toNat

def encodeAssetAmount (asset : AssetAmount) : Bytes :=
  encodeHash asset.assetId.hash ++ leBytes 16 asset.amount.toNat

def AssetKind.code : AssetKind → UInt8
  | .fungible => 0
  | .nonFungible => 1
  | .semiFungible => 2

def encodeMaxSupply : Option U128 → Bytes
  | some max => 1 :: leBytes 16 max.toNat
  | none => [0]

def encodeAssetDefinition (definition : AssetDefinition) : Bytes :=
  encodeHash definition.issuerScriptHash ++ ([definition.kind.code] ++
    (encodeHash definition.metadataRoot ++
      (encodeMaxSupply definition.maxSupply ++ [definition.decimals])))

/-- A 32-bit length followed by the elements. -/
def encodeVec {α : Type} (enc : Encoder α) : Encoder (List α) := fun xs =>
  encodeAppend (encodeLen xs.length) (encodeAll enc xs)

def encodeOutput : Encoder Output := fun output =>
  encodeAppend (some (encodeHash output.ownerScriptHash))
    (encodeAppend
      (encodeVec (fun asset => some (encodeAssetAmount asset)) output.assets)
      (encodeOption (fun hash => some (encodeHash hash)) output.metadataHash))

def TransactionKind.code : TransactionKind → UInt8
  | .transfer => 0
  | .createAsset _ _ => 1

/-- The part of a transaction core which depends on its kind; it is written
last. -/
def encodeKindPayload : TransactionKind → Bytes
  | .transfer => []
  | .createAsset definition initialSupply =>
      encodeAssetDefinition definition ++ leBytes 16 initialSupply.toNat

def encodeTxCore : Encoder TransactionCore := fun core =>
  encodeAppend (some [core.kind.code])
    (encodeAppend
      (encodeVec (fun input => some (encodeTransactionInput input)) core.inputs)
      (encodeAppend (encodeVec encodeOutput core.outputs)
        (some (encodeKindPayload core.kind))))

def encodeBlockHeader (header : BlockHeader) : Bytes :=
  encodeHash header.parentHash ++ (encodeHash header.stateRoot ++
    (encodeHash header.txRoot ++
      (leBytes 8 header.height.toNat ++ leBytes 8 header.timestamp.toNat)))

/-! ## Identifiers and signature hashes -/

section Hashed

variable [Blake3]

def ASSET_ID_DOMAIN_SEPARATOR : Bytes := asciiBytes "QCOIN_ASSET_ID_V1"

def assetIdPreimage (definition : AssetDefinition) (chainId : UInt32) : Bytes :=
  ASSET_ID_DOMAIN_SEPARATOR ++ leBytes 4 chainId.toNat ++
    encodeAssetDefinition definition

def deriveAssetId (definition : AssetDefinition) (chainId : UInt32) : AssetId :=
  ⟨Blake3.hash (assetIdPreimage definition chainId)⟩

/-- Undefined where serializing the core panics. -/
def TransactionCore.txId (core : TransactionCore) : Option Hash256 :=
  (encodeTxCore core).map Blake3.hash

def Transaction.txId (tx : Transaction) : Option Hash256 :=
  tx.core.txId

def SIGHASH_DOMAIN_SEPARATOR : Bytes := asciiBytes "QCOIN_SIGHASH_V1"

def Transaction.sighashPreimage (tx : Transaction) (inputIndex : ℕ)
    (prevOutput : Output) (scriptHash : Hash256) (chainId : UInt32)
    (flags : SighashFlags) : Option Bytes :=
  encodeAppend (some (SIGHASH_DOMAIN_SEPARATOR ++ leBytes 4 chainId.toNat))
    (encodeAppend (encodeTxCore tx.core)
      (encodeAppend (encodeOutput prevOutput)
        (some (leBytes 8 inputIndex ++ (scriptHash.bytes ++
          leBytes 4 flags.bits.toNat)))))

def Transaction.sighash (tx : Transaction) (inputIndex : ℕ)
    (prevOutput : Output) (scriptHash : Hash256) (chainId : UInt32)
    (flags : SighashFlags) : Option Hash256 :=
  (tx.sighashPreimage inputIndex prevOutput scriptHash chainId flags).map
    Blake3.hash

end Hashed

/-! ## Injectivity -/

theorem encodeLen_eq_some {n : ℕ} {x : Bytes} :
    encodeLen n = some x ↔ n < 2 ^ 32 ∧ leBytes 4 n = x := by
  by_cases hn : n < 2 ^ 32
  · rw [encodeLen, if_pos hn]
    simp only [Option.some.injEq, hn, true_and]
  · rw [encodeLen, if_neg hn]
    simp only [reduceCtorEq, hn, false_and]

theorem encodeLen_selfDelimiting : SelfDelimiting encodeLen := by
  apply selfDelimiting_of_length 4
  · intro n x hx
    rw [← (encodeLen_eq_some.mp hx).2, length_leBytes]
  · intro m n x hm hn
    obtain ⟨hmlt, hmx⟩ := encodeLen_eq_some.mp hm
    obtain ⟨hnlt, hnx⟩ := encodeLen_eq_some.mp hn
    exact leBytes_injective_of_lt (by omega) (by omega) (hmx.trans hnx.symm)

theorem encodeVec_selfDelimiting {α : Type} {enc : Encoder α}
    (h : SelfDelimiting enc) : SelfDelimiting (encodeVec enc) :=
  encodeLen_selfDelimiting.counted h

theorem encodeHash_selfDelimiting :
    SelfDelimiting fun hash => some (encodeHash hash) := by
  apply selfDelimiting_of_length 32
  · intro h x hx
    rw [← Option.some.inj hx]
    exact h.size
  · intro a b x ha hb
    exact Hash256.bytes_injective (Option.some.inj (ha.trans hb.symm))

theorem u32_selfDelimiting :
    SelfDelimiting fun n : UInt32 => some (leBytes 4 n.toNat) := by
  apply selfDelimiting_leBytes
  · intro n
    exact n.toNat_lt
  · exact fun a b h => UInt32.toNat_inj.mp h

theorem u64_selfDelimiting :
    SelfDelimiting fun n : UInt64 => some (leBytes 8 n.toNat) := by
  apply selfDelimiting_leBytes
  · intro n
    exact n.toNat_lt
  · exact fun a b h => UInt64.toNat_inj.mp h

theorem u128_selfDelimiting :
    SelfDelimiting fun n : U128 => some (leBytes 16 n.toNat) := by
  apply selfDelimiting_leBytes
  · intro n
    exact n.isLt
  · exact fun a b h => BitVec.eq_of_toNat_eq h

theorem encodeTransactionInput_selfDelimiting :
    SelfDelimiting fun input => some (encodeTransactionInput input) := by
  have hfields := encodeHash_selfDelimiting.append u32_selfDelimiting
  refine hfields.comap (f := fun i : TransactionInput => (i.txId, i.index)) ?_
  rintro ⟨t, i⟩ ⟨t', i'⟩ h
  simpa using h

theorem encodeAssetAmount_selfDelimiting :
    SelfDelimiting fun asset => some (encodeAssetAmount asset) := by
  have hfields := encodeHash_selfDelimiting.append u128_selfDelimiting
  refine hfields.comap
    (f := fun a : AssetAmount => (a.assetId.hash, a.amount)) ?_
  rintro ⟨⟨i⟩, n⟩ ⟨⟨i'⟩, n'⟩ h
  simpa using h

theorem assetKindCode_selfDelimiting :
    SelfDelimiting fun kind : AssetKind => some [kind.code] := by
  refine selfDelimiting_byte.comap (f := AssetKind.code) ?_
  intro a b h
  cases a <;> cases b <;> first | rfl | simp [AssetKind.code] at h

theorem encodeMaxSupply_selfDelimiting :
    SelfDelimiting fun max => some (encodeMaxSupply max) := by
  have h := u128_selfDelimiting.option
  have heq : (fun max => some (encodeMaxSupply max)) =
      encodeOption (fun n : U128 => some (leBytes 16 n.toNat)) := by
    funext max
    cases max <;> rfl
  rwa [heq]

theorem encodeAssetDefinition_selfDelimiting :
    SelfDelimiting fun definition =>
      some (encodeAssetDefinition definition) := by
  have hfields := encodeHash_selfDelimiting.append
    (assetKindCode_selfDelimiting.append
      (encodeHash_selfDelimiting.append
        (encodeMaxSupply_selfDelimiting.append selfDelimiting_byte)))
  refine hfields.comap (f := fun d : AssetDefinition =>
    (d.issuerScriptHash, d.kind, d.metadataRoot, d.maxSupply, d.decimals)) ?_
  rintro ⟨i, m, s, d, k⟩ ⟨i', m', s', d', k'⟩ h
  simp only [Prod.mk.injEq] at h
  obtain ⟨rfl, rfl, rfl, rfl, rfl⟩ := h
  rfl

theorem encodeOutput_selfDelimiting : SelfDelimiting encodeOutput := by
  have hfields := encodeHash_selfDelimiting.append
    ((encodeVec_selfDelimiting encodeAssetAmount_selfDelimiting).append
      encodeHash_selfDelimiting.option)
  refine hfields.comap (f := fun o : Output =>
    (o.ownerScriptHash, o.assets, o.metadataHash)) ?_
  rintro ⟨h, a, m⟩ ⟨h', a', m'⟩ heq
  simp only [Prod.mk.injEq] at heq
  obtain ⟨rfl, rfl, rfl⟩ := heq
  rfl

/-- Between kinds with one code, the payload is self-delimiting. -/
theorem encodeKindPayload_inj {k l : TransactionKind} {s t : Bytes}
    (hcode : k.code = l.code)
    (h : encodeKindPayload k ++ s = encodeKindPayload l ++ t) :
    k = l ∧ s = t := by
  cases k with
  | transfer =>
      cases l with
      | transfer => exact ⟨rfl, by simpa [encodeKindPayload] using h⟩
      | createAsset d n => simp [TransactionKind.code] at hcode
  | createAsset d n =>
      cases l with
      | transfer => simp [TransactionKind.code] at hcode
      | createAsset d' n' =>
          have hpair := encodeAssetDefinition_selfDelimiting.append
            u128_selfDelimiting
          obtain ⟨heq, hst⟩ := hpair (a := (d, n)) (b := (d', n')) rfl rfl h
          simp only [Prod.mk.injEq] at heq
          exact ⟨by rw [heq.1, heq.2], hst⟩

theorem encodeTxCore_selfDelimiting : SelfDelimiting encodeTxCore := by
  rintro ⟨k, is, os⟩ ⟨k', is', os'⟩ x y s t hx hy h
  obtain ⟨xk, xf, hxk, hxf, rfl⟩ := encodeAppend_eq_some.mp hx
  obtain ⟨yk, yf, hyk, hyf, rfl⟩ := encodeAppend_eq_some.mp hy
  obtain ⟨xi, xg, hxi, hxg, rfl⟩ := encodeAppend_eq_some.mp hxf
  obtain ⟨yi, yg, hyi, hyg, rfl⟩ := encodeAppend_eq_some.mp hyf
  obtain ⟨xo, xp, hxo, hxp, rfl⟩ := encodeAppend_eq_some.mp hxg
  obtain ⟨yo, yp, hyo, hyp, rfl⟩ := encodeAppend_eq_some.mp hyg
  simp only [List.append_assoc] at h
  obtain ⟨hcode, h⟩ := selfDelimiting_byte hxk hyk h
  obtain ⟨rfl, h⟩ := encodeVec_selfDelimiting
    encodeTransactionInput_selfDelimiting hxi hyi h
  obtain ⟨rfl, h⟩ := encodeVec_selfDelimiting
    encodeOutput_selfDelimiting hxo hyo h
  rw [← Option.some.inj hxp, ← Option.some.inj hyp] at h
  obtain ⟨rfl, hst⟩ := encodeKindPayload_inj hcode h
  exact ⟨rfl, hst⟩

/-- A signed message names everything it is made of. -/
theorem sighashPreimage_injective {tx tx' : Transaction}
    {inputIndex inputIndex' : ℕ} {prevOutput prevOutput' : Output}
    {scriptHash scriptHash' : Hash256} {chainId chainId' : UInt32}
    {flags flags' : SighashFlags} {x : Bytes}
    (h : tx.sighashPreimage inputIndex prevOutput scriptHash chainId flags =
      some x)
    (h' : tx'.sighashPreimage inputIndex' prevOutput' scriptHash' chainId'
      flags' = some x) :
    chainId = chainId' ∧ tx.core = tx'.core ∧ prevOutput = prevOutput' ∧
      leBytes 8 inputIndex = leBytes 8 inputIndex' ∧
      scriptHash = scriptHash' ∧ flags = flags' := by
  obtain ⟨xc, xf, hxc, hxf, rfl⟩ := encodeAppend_eq_some.mp h
  obtain ⟨yc, yf, hyc, hyf, heq⟩ := encodeAppend_eq_some.mp h'
  obtain ⟨xt, xg, hxt, hxg, rfl⟩ := encodeAppend_eq_some.mp hxf
  obtain ⟨yt, yg, hyt, hyg, rfl⟩ := encodeAppend_eq_some.mp hyf
  obtain ⟨xo, xs, hxo, hxs, rfl⟩ := encodeAppend_eq_some.mp hxg
  obtain ⟨yo, ys, hyo, hys, rfl⟩ := encodeAppend_eq_some.mp hyg
  rw [← Option.some.inj hxc, ← Option.some.inj hyc, List.append_assoc,
    List.append_assoc, List.append_cancel_left_eq] at heq
  obtain ⟨hchain, hrest⟩ := u32_selfDelimiting rfl rfl heq
  obtain ⟨hcore, hrest⟩ := encodeTxCore_selfDelimiting hyt hxt hrest
  obtain ⟨houtput, htail⟩ := encodeOutput_selfDelimiting hyo hxo hrest
  rw [← Option.some.inj hys, ← Option.some.inj hxs] at htail
  obtain ⟨hindex, htail⟩ := List.append_inj htail (by
    rw [length_leBytes, length_leBytes])
  obtain ⟨hscript, hflags⟩ := List.append_inj htail (by
    rw [scriptHash.size, scriptHash'.size])
  have hbits := u32_selfDelimiting.uniquelyEncoded (a := flags'.bits)
    (b := flags.bits) rfl (congrArg some hflags.symm)
  refine ⟨hchain.symm, hcore.symm, houtput.symm, hindex.symm,
    (Hash256.bytes_injective hscript).symm, ?_⟩
  cases flags
  cases flags'
  exact congrArg SighashFlags.mk hbits.symm

theorem length_encodeBlockHeader (header : BlockHeader) :
    (encodeBlockHeader header).length = 112 := by
  simp [encodeBlockHeader, encodeHash, Hash256.size]

theorem encodeBlockHeader_injective :
    Function.Injective encodeBlockHeader := by
  intro a b h
  have hfields := encodeHash_selfDelimiting.append
    (encodeHash_selfDelimiting.append
      (encodeHash_selfDelimiting.append
        (u64_selfDelimiting.append u64_selfDelimiting)))
  have heq := hfields.uniquelyEncoded
    (a := (a.parentHash, a.stateRoot, a.txRoot, a.height, a.timestamp))
    (b := (b.parentHash, b.stateRoot, b.txRoot, b.height, b.timestamp))
    (x := encodeBlockHeader a) rfl (by rw [h]; rfl)
  simp only [Prod.mk.injEq] at heq
  cases a
  cases b
  simp_all

end QCoin
