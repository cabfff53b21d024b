import Mathlib.Data.List.Lex
import Mathlib.Data.Prod.Lex
import Mathlib.Data.Set.Function
import Mathlib.Order.Basic
import QCoin.Crypto.Schemes

/-!
# Consensus data types

The data of `qcoin-types`.  Byte arrays of 32 bytes carry their length, and
`u128` amounts are 128-bit words so that addition wraps as in a release build.
-/

namespace QCoin

open Support

/-- A `[u8; 32]` value. -/
structure Hash256 where
  bytes : Bytes
  size : bytes.length = 32
deriving DecidableEq

namespace Hash256

def fill (b : UInt8) : Hash256 where
  bytes := List.replicate 32 b
  size := by simp

instance : Inhabited Hash256 := ⟨fill 0⟩

theorem bytes_injective : Function.Injective Hash256.bytes := by
  rintro ⟨xs, hxs⟩ ⟨ys, hys⟩ h
  congr

/-- Byte arrays compare lexicographically. -/
def orderKey (h : Hash256) : List ℕ :=
  h.bytes.map UInt8.toNat

theorem orderKey_injective : Function.Injective orderKey := by
  intro a b h
  apply bytes_injective
  exact List.map_injective_iff.mpr (fun x y hxy => UInt8.toNat_inj.mp hxy) h

instance : LinearOrder Hash256 :=
  LinearOrder.lift' orderKey orderKey_injective

end Hash256

/-- The hash function of the `blake3` crate. -/
class Blake3 where
  hash : Bytes → Hash256

/-- No two different strings of the set have one hash. -/
def CollisionFree [Blake3] (strings : Set Bytes) : Prop :=
  Set.InjOn Blake3.hash strings

theorem CollisionFree.mono [Blake3] {s t : Set Bytes} (h : CollisionFree t)
    (hsub : s ⊆ t) : CollisionFree s :=
  Set.InjOn.mono hsub h

section Lists

variable [Blake3] {α : Type} {strings : α → Set Bytes} {a b : α}
  {as bs : List α}

/-- Two lists without collisions start without collisions. -/
theorem CollisionFree.heads
    (h : CollisionFree ({x | ∃ c ∈ a :: as, x ∈ strings c} ∪
      {x | ∃ c ∈ b :: bs, x ∈ strings c})) :
    CollisionFree (strings a ∪ strings b) := by
  apply h.mono
  rintro x (hx | hx)
  · exact Or.inl ⟨a, List.mem_cons_self, hx⟩
  · exact Or.inr ⟨b, List.mem_cons_self, hx⟩

/-- Two lists without collisions go on without collisions. -/
theorem CollisionFree.tails
    (h : CollisionFree ({x | ∃ c ∈ a :: as, x ∈ strings c} ∪
      {x | ∃ c ∈ b :: bs, x ∈ strings c})) :
    CollisionFree ({x | ∃ c ∈ as, x ∈ strings c} ∪
      {x | ∃ c ∈ bs, x ∈ strings c}) := by
  apply h.mono
  rintro x (⟨c, hc, hx⟩ | ⟨c, hc, hx⟩)
  · exact Or.inl ⟨c, List.mem_cons_of_mem _ hc, hx⟩
  · exact Or.inr ⟨c, List.mem_cons_of_mem _ hc, hx⟩

end Lists

/-- The bytes of an ASCII literal. -/
def asciiBytes (s : String) : Bytes :=
  s.toList.map fun c => UInt8.ofNat c.toNat

abbrev U128 := BitVec 128

/-! ## Assets and outputs -/

inductive AssetKind where
  | fungible
  | nonFungible
  | semiFungible
deriving DecidableEq, Repr

structure AssetId where
  hash : Hash256
deriving DecidableEq

namespace AssetId

theorem hash_injective : Function.Injective AssetId.hash := by
  rintro ⟨a⟩ ⟨b⟩ h
  congr

instance : LinearOrder AssetId :=
  LinearOrder.lift' AssetId.hash hash_injective

end AssetId

/-- `loadngo`, zero-padded to 32 bytes. -/
def qcoinAssetIdBytes : Hash256 where
  bytes := asciiBytes "loadngo" ++ List.replicate 25 0
  size := by decide

def QCOIN_ASSET_ID : AssetId := ⟨qcoinAssetIdBytes⟩

def isQcoinAssetId (assetId : AssetId) : Bool :=
  assetId.hash == QCOIN_ASSET_ID.hash

structure AssetDefinition where
  issuerScriptHash : Hash256
  metadataRoot : Hash256
  maxSupply : Option U128
  decimals : UInt8
  kind : AssetKind
deriving DecidableEq

structure AssetAmount where
  assetId : AssetId
  amount : U128
deriving DecidableEq

structure Output where
  ownerScriptHash : Hash256
  assets : List AssetAmount
  metadataHash : Option Hash256
deriving DecidableEq

/-! ## Transactions -/

structure TransactionInput where
  txId : Hash256
  index : UInt32
deriving DecidableEq

inductive TransactionKind where
  | transfer
  | createAsset (definition : AssetDefinition) (initialSupply : U128)
deriving DecidableEq

structure TransactionCore where
  kind : TransactionKind
  inputs : List TransactionInput
  outputs : List Output
deriving DecidableEq

structure TransactionWitness where
  inputs : List Bytes
deriving DecidableEq

structure Transaction where
  core : TransactionCore
  witness : TransactionWitness
deriving DecidableEq

/-- Signature-hash flags; the default value is `0`. -/
structure SighashFlags where
  bits : UInt32 := 0
deriving DecidableEq

/-! ## Blocks -/

structure BlockHeader where
  parentHash : Hash256
  stateRoot : Hash256
  txRoot : Hash256
  height : UInt64
  timestamp : UInt64
deriving DecidableEq

structure Block where
  header : BlockHeader
  transactions : List Transaction
  proposerPublicKey : PublicKey
  signature : Signature
deriving DecidableEq

end QCoin
