import QCoin.Consensus.Engine
import QCoin.Support.CrashDisk

/-!
# Storage of a node

The two files of `qcoin-node`: a snapshot of the chain state and the block
history it can be rebuilt from.  Calls which write return the file operations
they make; how far these get is decided by their users.
-/

namespace QCoin

open Support
open Support.Result

/-- Two lower-case hexadecimal digits a byte. -/
def toHex (bytes : Bytes) : String :=
  String.ofList (bytes.flatMap fun b =>
    [Nat.digitChar (b.toNat / 16), Nat.digitChar (b.toNat % 16)])

/-- A path by the text up to its last separator and the name after it.  Paths
such as `/` and `..` have no file name. -/
structure FilePath where
  directory : String
  fileName : Option String
deriving DecidableEq

namespace FilePath

def display (path : FilePath) : String :=
  path.directory ++ path.fileName.getD ""

/-- The path next to `path` with `.tmp` at the end of its name. -/
def temp (path : FilePath) : FilePath :=
  { path with fileName := path.fileName.map fun name => name ++ ".tmp" }

end FilePath

/-- The path of the block history unless another one is given. -/
def blocksPathFromStatePath (statePath : FilePath) : FilePath :=
  { statePath with
    fileName := some (statePath.fileName.getD "" ++ ".blocks.json") }

/-! ## The snapshot -/

structure PersistedUtxoEntry where
  key : UtxoKey
  trackedOutput : TrackedOutput
deriving DecidableEq

structure PersistedAssetEntry where
  assetId : AssetId
  definition : AssetDefinition
deriving DecidableEq

structure PersistedLedgerState where
  utxos : List PersistedUtxoEntry
  assets : List PersistedAssetEntry
deriving DecidableEq

structure PersistedChainState where
  ledger : PersistedLedgerState
  height : UInt64
  tipHash : Hash256
  stateRoot : Hash256
  lastTimestamp : UInt64
  chainId : UInt32
deriving DecidableEq

namespace PersistedChainState

/-- `PersistedChainState::from`. -/
def fromChainState (chain : ChainState) : PersistedChainState where
  ledger := {
    utxos := chain.ledger.utxos.sortedEntries.map fun entry =>
      ⟨entry.1, entry.2⟩
    assets := chain.ledger.assets.sortedEntries.map fun entry =>
      ⟨entry.1, entry.2⟩ }
  height := chain.height
  tipHash := chain.tipHash
  stateRoot := chain.stateRoot
  lastTimestamp := chain.lastTimestamp
  chainId := chain.chainId

/-- Insert an entry whose key must be new. -/
def insertFresh {κ ν : Type} [DecidableEq κ] (error : κ → String)
    (m : FinMap κ ν) (entry : κ × ν) : Result String (FinMap κ ν) := do
  require (entry.1 ∉ m) (error entry.1)
  return m.insert entry.1 entry.2

def duplicateUtxo (key : UtxoKey) : String :=
  "duplicate UTXO entry in persisted chain state for tx " ++
    toHex key.txId.bytes ++ " index " ++ toString key.index

def duplicateAsset (assetId : AssetId) : String :=
  "duplicate asset entry in persisted chain state for asset " ++
    toHex assetId.hash.bytes

def intoChainState (snapshot : PersistedChainState) :
    Result String ChainState := do
  let utxos ← (snapshot.ledger.utxos.map fun entry =>
    (entry.key, entry.trackedOutput)).foldlM (insertFresh duplicateUtxo) ∅
  let assets ← (snapshot.ledger.assets.map fun entry =>
    (entry.assetId, entry.definition)).foldlM (insertFresh duplicateAsset) ∅
  return {
    ledger := ⟨utxos, assets⟩
    height := snapshot.height
    tipHash := snapshot.tipHash
    stateRoot := snapshot.stateRoot
    lastTimestamp := snapshot.lastTimestamp
    chainId := snapshot.chainId }

theorem foldlM_insertFresh {κ ν : Type} [DecidableEq κ] {error : κ → String}
    {m : FinMap κ ν} {entries : List (κ × ν)}
    (hnodup : (entries.map Prod.fst).Nodup)
    (hfresh : ∀ k ∈ entries.map Prod.fst, k ∉ m) :
    entries.foldlM (insertFresh error) m = .ok (m.insertAll entries) := by
  induction entries generalizing m with
  | nil => rfl
  | cons entry entries ih =>
      rw [List.map_cons, List.nodup_cons] at hnodup
      rw [List.map_cons, List.forall_mem_cons] at hfresh
      rw [List.foldlM_cons, bind_eq_ok]
      refine ⟨m.insert entry.1 entry.2, ?_, ?_⟩
      · rw [insertFresh, bind_eq_ok]
        exact ⟨(), require_eq_ok.mpr hfresh.1, rfl⟩
      · rw [FinMap.insertAll_cons]
        apply ih hnodup.2
        intro k hk
        rw [Finmap.mem_insert, not_or]
        exact ⟨fun h => hnodup.1 (h ▸ hk), hfresh.2 k hk⟩

/-- A map is restored from its persisted listing. -/
theorem restore_sortedEntries {κ ν : Type} [LinearOrder κ]
    [inst : DecidableEq κ] (error : κ → String) (m : FinMap κ ν) :
    m.sortedEntries.foldlM (insertFresh error) ∅ = .ok m := by
  -- The two ways to decide equality of keys agree.
  cases Subsingleton.elim inst LinearOrder.toDecidableEq
  rw [foldlM_insertFresh m.nodup_sortedEntries fun k _ => Finmap.notMem_empty,
    m.insertAll_sortedEntries]

theorem intoChainState_fromChainState (chain : ChainState) :
    (fromChainState chain).intoChainState = .ok chain := by
  simp only [intoChainState, fromChainState, List.map_map,
    Function.comp_def, Prod.mk.eta, List.map_id', restore_sortedEntries]
  rfl

end PersistedChainState

/-! ## Reading and writing the files -/

/-- The JSON codec of `serde_json`.  Its texts stay abstract.  Snapshots used
to be serialized `ChainState` values. -/
class SerdeJson where
  Text : Type
  emptyText : Text
  snapshotToString : PersistedChainState → Except String Text
  snapshotFromStr : Text → Except String PersistedChainState
  legacySnapshotFromStr : Text → Except String ChainState
  blocksToString : List Block → Except String Text
  blocksFromStr : Text → Except String (List Block)

/-- What opening a file and reading it to the end gives. -/
inductive FileRead (Text : Type) where
  | notFound
  | openFailed (err : String)
  | readFailed (err : String)
  | contents (text : Text)

section Files

variable [SerdeJson]

abbrev FileOp := DiskOp FilePath SerdeJson.Text

def loadChainState (path : FilePath) (file : FileRead SerdeJson.Text) :
    Result String (Option ChainState) :=
  match file with
  | .notFound => .ok none
  | .openFailed err =>
      .error (.err ("failed to open chain state " ++ path.display ++ ": " ++ err))
  | .readFailed err =>
      .error (.err ("failed to read chain state " ++ path.display ++ ": " ++ err))
  | .contents text =>
      match SerdeJson.snapshotFromStr text with
      | .ok snapshot => do
          let chain ← mapErr (fun err => "failed to parse chain state " ++
            path.display ++ ": " ++ err) snapshot.intoChainState
          return some chain
      | .error snapshotErr =>
          match SerdeJson.legacySnapshotFromStr text with
          | .ok chain => .ok (some chain)
          | .error legacyErr =>
              .error (.err ("failed to parse chain state " ++ path.display ++
                ": snapshot format error: " ++ snapshotErr ++
                "; legacy format error: " ++ legacyErr))

def loadBlockHistory (path : FilePath) (file : FileRead SerdeJson.Text) :
    Result String (Option (List Block)) :=
  match file with
  | .notFound => .ok none
  | .openFailed err =>
      .error (.err ("failed to open block history " ++ path.display ++ ": " ++
        err))
  | .readFailed err =>
      .error (.err ("failed to read block history " ++ path.display ++ ": " ++
        err))
  | .contents text =>
      match SerdeJson.blocksFromStr text with
      | .ok blocks => .ok (some blocks)
      | .error err =>
          .error (.err ("failed to parse block history " ++ path.display ++
            ": " ++ err))

def writeFileAtomically (path : FilePath) (contents : SerdeJson.Text) :
    Result String (List FileOp) := do
  require (path.fileName ≠ none)
    ("path '" ++ path.display ++ "' has no file name")
  return atomicWrite path.temp path SerdeJson.emptyText contents

/-- A serialized value, or the text of the serializer's error. -/
def serialized (text : Except String SerdeJson.Text) :
    Result String SerdeJson.Text :=
  match text with
  | .ok text => .ok text
  | .error err => .error (.err err)

def saveChainState (path : FilePath) (chain : ChainState) :
    Result String (List FileOp) := do
  let state ← serialized
    (SerdeJson.snapshotToString (PersistedChainState.fromChainState chain))
  writeFileAtomically path state

def saveBlockHistory (path : FilePath) (blocks : List Block) :
    Result String (List FileOp) := do
  let encoded ← serialized (SerdeJson.blocksToString blocks)
  writeFileAtomically path encoded

end Files

/-! ## Rebuilding the chain state -/

section Rebuild

variable [Blake3] [Bincode] [PqCrypto]

/-- Replay the history entry `entry.1`, which has index `entry.2`. -/
def replayEntry (validators : List PublicKey) (chain : ChainState)
    (entry : Block × ℕ) : Result String ChainState := do
  mapErr (fun err => "block history entry " ++ toString (entry.2 + 1) ++
      " failed validation while rebuilding state: " ++
      ConsensusError.display err)
    (validateReplayedBlock defaultRegistry chain entry.1 validators)
  mapErr (fun err => "block history entry " ++ toString (entry.2 + 1) ++
      " failed ledger replay while rebuilding state: " ++
      LedgerError.display err)
    (chain.applyBlock entry.1 defaultScriptEngine)

def rebuildChainStateFromBlocks (blocks : List Block)
    (expectedChainId : UInt32) (validators : List PublicKey) :
    Result String ChainState :=
  blocks.zipIdx.foldlM (replayEntry validators)
    (defaultChainStateWithId expectedChainId)

/-- Whether the snapshot has to be written anew. -/
def stateDiffers (statePath : FilePath) (expectedChainId : UInt32)
    (storedChain : Option ChainState) (storedBlocks : List Block)
    (rebuiltChain : ChainState) : Result String Bool :=
  match storedChain with
  | some chain => do
      require (¬chain.chainId ≠ expectedChainId)
        ("chain state " ++ statePath.display ++ " has chain_id " ++
          toString chain.chainId ++ ", expected " ++ toString expectedChainId)
      return chain.height != rebuiltChain.height ||
        chain.tipHash != rebuiltChain.tipHash ||
        chain.stateRoot != rebuiltChain.stateRoot ||
        chain.lastTimestamp != rebuiltChain.lastTimestamp
  | none => .ok (!storedBlocks.isEmpty)

variable [SerdeJson]

/-- The part of `load_or_repair_storage` before the repair: the rebuilt chain,
the stored blocks and whether the snapshot differs. -/
def inspectStorage (statePath blocksPath : FilePath)
    (stateFile blocksFile : FileRead SerdeJson.Text)
    (expectedChainId : UInt32) (validators : List PublicKey) :
    Result String (ChainState × List Block × Bool) := do
  let storedChain ← loadChainState statePath stateFile
  let history ← loadBlockHistory blocksPath blocksFile
  let storedBlocks := history.getD []
  let rebuiltChain ←
    rebuildChainStateFromBlocks storedBlocks expectedChainId validators
  let differs ← stateDiffers statePath expectedChainId storedChain
    storedBlocks rebuiltChain
  return (rebuiltChain, storedBlocks, differs)

/-- `load_or_repair_storage`, where `save` is the outcome of the repair. -/
def loadOrRepairStorage (statePath blocksPath : FilePath)
    (stateFile blocksFile : FileRead SerdeJson.Text)
    (save : Except String Unit) (expectedChainId : UInt32)
    (validators : List PublicKey) :
    Result String (ChainState × List Block) := do
  let (chain, blocks, differs) ← inspectStorage statePath blocksPath
    stateFile blocksFile expectedChainId validators
  match differs, save with
  | true, .error err => .error (.err err)
  | _, _ => return (chain, blocks)

end Rebuild

end QCoin
