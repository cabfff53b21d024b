import QCoin.Ledger.Acceptance

/-!
# Stand-ins for third-party code

Executable instances of the parameters of the model, for evaluating it on
concrete inputs: a polynomial hash in place of BLAKE3, the decoder which
`bincode` derives for `InputWitness`, and a signature module.  They are
instances only where this namespace is opened.
-/

namespace QCoin.StandIns

open Support

/-- A polynomial in base 257, kept to 32 bytes; injective on short strings. -/
scoped instance polynomialHash : Blake3 where
  hash data :=
    ⟨leBytes 32 (data.foldl (fun acc b => acc * 257 + b.toNat + 1) 0),
      length_leBytes _ _⟩

/-! ## Decoding of input witnesses -/

/-- A decoder returns the value and the bytes it left over. -/
abbrev Decoder (α : Type) := Bytes → Option (α × Bytes)

/-- A fixed-width little-endian number. -/
def decodeNat (width : ℕ) : Decoder ℕ := fun bytes =>
  if width ≤ bytes.length then
    some (leValue (bytes.take width), bytes.drop width)
  else none

/-- A byte string behind its 64-bit length. -/
def decodeBytes : Decoder Bytes := fun bytes => do
  let (len, bytes) ← decodeNat 8 bytes
  if len ≤ bytes.length then some (bytes.take len, bytes.drop len) else none

/-- An opcode behind its 32-bit variant number. -/
def decodeOpCode : Decoder OpCode := fun bytes => do
  let (variant, bytes) ← decodeNat 4 bytes
  match variant with
  | 0 => some (.checkSig, bytes)
  | 1 => do
      let (threshold, bytes) ← decodeNat 1 bytes
      let (total, bytes) ← decodeNat 1 bytes
      some (.checkMultiSig (UInt8.ofNat threshold) (UInt8.ofNat total), bytes)
  | 2 => some (.checkTimeLock, bytes)
  | 3 => some (.checkRelativeTimeLock, bytes)
  | 4 => some (.checkHashLock, bytes)
  | 5 => do
      let (data, bytes) ← decodeBytes bytes
      some (.pushBytes data, bytes)
  | 6 => some (.nop, bytes)
  | _ => none

def decodeOps : ℕ → Decoder (List OpCode)
  | 0 => fun bytes => some ([], bytes)
  | n + 1 => fun bytes => do
      let (op, bytes) ← decodeOpCode bytes
      let (ops, bytes) ← decodeOps n bytes
      some (op :: ops, bytes)

def decodeMetadata : Decoder (Option Bytes) := fun bytes => do
  let (tag, bytes) ← decodeNat 1 bytes
  match tag with
  | 0 => some (none, bytes)
  | 1 => do
      let (data, bytes) ← decodeBytes bytes
      some (some data, bytes)
  | _ => none

/-- `bincode::deserialize`, which ignores left-over bytes. -/
scoped instance bincode : Bincode where
  deserializeWitness bytes := do
    let (count, bytes) ← decodeNat 8 bytes
    -- Every opcode takes at least four bytes.
    if count ≤ bytes.length then
      let (ops, bytes) ← decodeOps count bytes
      let (metadata, _) ← decodeMetadata bytes
      some ⟨⟨ops⟩, metadata⟩
    else none

/-! ## A script which always succeeds -/

def nopScript : Script := ⟨[.nop]⟩

/-- The serialized witness which presents `nopScript` without metadata. -/
def nopWitness : Bytes := leBytes 8 1 ++ leBytes 4 6 ++ [0]

example : bincode.deserializeWitness nopWitness = some ⟨nopScript, none⟩ := by
  decide

/-- The owner hash of outputs locked to `nopScript`. -/
def nopScriptHash : Hash256 := polynomialHash.hash (leBytes 4 1 ++ [6])

/-- A script engine which accepts every script. -/
def acceptAll : ScriptEngine := fun _ _ _ => .ok ⟨0⟩

/-! ## Outputs which anybody can spend -/

def openOutput (assets : List AssetAmount) : Output where
  ownerScriptHash := nopScriptHash
  assets := assets
  metadataHash := none

def openTransfer (assets : List AssetAmount) : Transaction where
  core := ⟨.transfer, [], [openOutput assets]⟩
  witness := ⟨[]⟩

def openTransferId (assets : List AssetAmount) : Hash256 :=
  (openTransfer assets).txId.getD default

/-- Spend the output of an open transfer without assets. -/
def openSpend : Transaction where
  core := ⟨.transfer, [⟨openTransferId [], 0⟩], [openOutput []]⟩
  witness := ⟨[nopWitness]⟩

/-! ## A token -/

def tokenDefinition (issuerScriptHash : Hash256) : AssetDefinition where
  issuerScriptHash := issuerScriptHash
  metadataRoot := default
  maxSupply := some 1000
  decimals := 0
  kind := .fungible

def tokenId (issuerScriptHash : Hash256) : AssetId :=
  deriveAssetId (tokenDefinition issuerScriptHash) 0

theorem amountsOf_token (issuerScriptHash : Hash256) (id : AssetId) :
    amountsOf id [openOutput [⟨tokenId issuerScriptHash, 1000⟩]] =
      if tokenId issuerScriptHash = id then [1000] else [] := by
  by_cases hid : tokenId issuerScriptHash = id
  · simp [amountsOf, openOutput, hid]
  · simp [amountsOf, openOutput, hid]

theorem totalOf_token (issuerScriptHash : Hash256) :
    totalOf (tokenId issuerScriptHash)
      [openOutput [⟨tokenId issuerScriptHash, 1000⟩]] = 1000 := by
  rw [totalOf, amountsOf_token, if_pos rfl]
  rfl

theorem totalOf_token_of_ne {issuerScriptHash : Hash256} {id : AssetId}
    (h : tokenId issuerScriptHash ≠ id) :
    totalOf id [openOutput [⟨tokenId issuerScriptHash, 1000⟩]] = 0 := by
  rw [totalOf, amountsOf_token, if_neg h]
  rfl

/-! ## Signatures -/

/-- Signatures repeat the key and the message. -/
def echoModule : PqModule where
  publicKeyBytes := 1
  secretKeyBytes := 1
  signatureBytes := 128
  publicKeyFromBytes := fun bytes => bytes.length == 1
  secretKeyFromBytes := fun bytes => bytes.length == 1
  signatureFromBytes := fun bytes => decide (bytes.length ≤ 128)
  detachedSign := fun _ message secretKey => secretKey ++ message
  verifyDetachedSignature := fun signature message publicKey =>
    signature == publicKey ++ message

scoped instance pqCrypto : PqCrypto := ⟨echoModule, echoModule⟩

theorem echoModule_checksSizes : echoModule.ChecksSizes where
  publicKey := beq_iff_eq.mp
  signature := of_decide_eq_true

theorem pqCrypto_checksSizes : PqCrypto.ChecksSizes :=
  ⟨echoModule_checksSizes, echoModule_checksSizes⟩

/-- The key pairs of the stand-in validators are numbered. -/
def validatorKey (n : UInt8) : PublicKey := ⟨.dilithium2, [n]⟩

def validatorSecret (n : UInt8) : PrivateKey := ⟨.dilithium2, [n]⟩

end QCoin.StandIns
