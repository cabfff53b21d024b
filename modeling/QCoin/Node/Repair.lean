import QCoin.Node.CrashConsistency

/-!
# Storage repair

What a completed call of `load_or_repair_storage` leaves in the snapshot file.
The snapshot is compared with the replayed chain in four header fields; its
ledger is not looked at.
-/

namespace QCoin

open Support
open Support.Result

section Repair

variable [SerdeJson]

/-! ## Reading back a saved snapshot -/

theorem loadChainState_of_decodes {path : FilePath} {text : SerdeJson.Text}
    {chain : ChainState}
    (h : SerdeJson.snapshotFromStr text =
      .ok (PersistedChainState.fromChainState chain)) :
    loadChainState path (readFile (.settled (some text))) =
      .ok (some chain) := by
  simp only [loadChainState, readFile, FileState.settled_visible, h,
    PersistedChainState.intoChainState_fromChainState]
  rfl

theorem loadChainState_saved (hjson : SerdeJson.SnapshotsRoundTrip)
    {path : FilePath} {chain : ChainState} {ops : List FileOp}
    (h : saveChainState path chain = .ok ops) (disk : StorageDisk) :
    loadChainState path (readFile (DiskOp.runAll disk ops path)) =
      .ok (some chain) := by
  obtain ⟨_, -, hname, -⟩ := saveChainState_eq_ok.mp h
  obtain ⟨text, rfl, hdecode⟩ := saveChainState_ops hjson h
  rw [atomicWrite_complete (FilePath.ne_temp hname)]
  exact loadChainState_of_decodes hdecode

/-! ## The comparison -/

/-- Agreement in the fields which are compared. -/
structure ChainState.SameFields (stored rebuilt : ChainState) : Prop where
  height : stored.height = rebuilt.height
  tipHash : stored.tipHash = rebuilt.tipHash
  stateRoot : stored.stateRoot = rebuilt.stateRoot
  lastTimestamp : stored.lastTimestamp = rebuilt.lastTimestamp

omit [SerdeJson] in
theorem stateDiffers_some_eq_ok {statePath : FilePath} {chainId : UInt32}
    {stored rebuilt : ChainState} {blocks : List Block} {differs : Bool} :
    stateDiffers statePath chainId (some stored) blocks rebuilt =
        .ok differs ↔
      stored.chainId = chainId ∧
      (differs = false ↔ stored.SameFields rebuilt) := by
  have hfields : (stored.height != rebuilt.height ||
      stored.tipHash != rebuilt.tipHash ||
      stored.stateRoot != rebuilt.stateRoot ||
      stored.lastTimestamp != rebuilt.lastTimestamp) = false ↔
        stored.SameFields rebuilt := by
    simp only [Bool.or_eq_false_iff, bne_eq_false_iff_eq]
    constructor
    · rintro ⟨⟨⟨hheight, htip⟩, hroot⟩, htimestamp⟩
      exact ⟨hheight, htip, hroot, htimestamp⟩
    · intro h
      exact ⟨⟨⟨h.height, h.tipHash⟩, h.stateRoot⟩, h.lastTimestamp⟩
  simp only [stateDiffers, bind_eq_ok, require_eq_ok, not_not, pure_eq_ok,
    exists_const]
  apply and_congr_right
  intro _
  rw [← hfields]
  constructor
  · rintro rfl
    exact Iff.rfl
  · intro hiff
    exact Bool.eq_iff_iff.mpr (not_iff_not.mp (by simpa using hiff.symm))

omit [SerdeJson] in
theorem stateDiffers_none {statePath : FilePath} {chainId : UInt32}
    {rebuilt : ChainState} {blocks : List Block} {differs : Bool} :
    stateDiffers statePath chainId none blocks rebuilt = .ok differs ↔
      (differs = false ↔ blocks = []) := by
  rw [stateDiffers, Except.ok.injEq]
  cases differs <;> simp

end Repair

/-! ## The call on a disk -/

namespace NodeConfig

variable [Blake3] [Bincode] [PqCrypto] [SerdeJson] {config : NodeConfig}

omit [Blake3] [Bincode] [PqCrypto] in
/-- `load_chain_state` on a disk. -/
def readSnapshot (config : NodeConfig) (disk : StorageDisk) :
    Result String (Option ChainState) :=
  loadChainState config.statePath (readFile (disk config.statePath))

/-- `load_block_history` on a disk. -/
def readHistory (config : NodeConfig) (disk : StorageDisk) :
    Result String (Option (List Block)) :=
  loadBlockHistory config.blocksPath (readFile (disk config.blocksPath))

/-- `load_or_repair_storage` when its file operations succeed: the result and
the disk it leaves. -/
def loadAndRepair (config : NodeConfig) (disk : StorageDisk) :
    Result String ((ChainState × List Block) × StorageDisk) := do
  let (chain, blocks, differs) ← config.inspect disk
  let ops ← config.repairOps chain differs
  return ((chain, blocks), DiskOp.runAll disk ops)

theorem loadAndRepair_eq_ok {disk after : StorageDisk} {chain : ChainState}
    {blocks : List Block} :
    config.loadAndRepair disk = .ok ((chain, blocks), after) ↔
      ∃ stored history differs ops,
        config.readSnapshot disk = .ok stored ∧
        config.readHistory disk = .ok history ∧ history.getD [] = blocks ∧
        rebuildChainStateFromBlocks blocks config.chainId
          config.validators = .ok chain ∧
        stateDiffers config.statePath config.chainId stored blocks chain =
          .ok differs ∧
        config.repairOps chain differs = .ok ops ∧
        DiskOp.runAll disk ops = after := by
  simp only [loadAndRepair, inspect, inspectStorage, bind_eq_ok, pure_eq_ok,
    Prod.mk.injEq, readSnapshot, readHistory]
  constructor
  · rintro ⟨_, ⟨stored, hstored, history, hhistory, rebuilt, hrebuild,
      differs, hdiffers, rfl⟩, ops, hops, ⟨rfl, rfl⟩, rfl⟩
    exact ⟨stored, history, differs, ops, hstored, hhistory, rfl, hrebuild,
      hdiffers, hops, rfl⟩
  · rintro ⟨stored, history, differs, ops, hstored, hhistory, rfl, hrebuild,
      hdiffers, hops, rfl⟩
    exact ⟨_, ⟨stored, hstored, history, hhistory, chain, hrebuild, differs,
      hdiffers, rfl⟩, ops, hops, ⟨rfl, rfl⟩, rfl⟩

/-- The snapshot agrees with the replayed history in the compared fields and
holds another ledger. -/
def LedgerAloneDiffers (config : NodeConfig) (disk : StorageDisk) : Prop :=
  ∃ stored history rebuilt, config.readSnapshot disk = .ok (some stored) ∧
    config.readHistory disk = .ok history ∧
    rebuildChainStateFromBlocks (history.getD []) config.chainId
      config.validators = .ok rebuilt ∧
    stored.SameFields rebuilt ∧ stored.ledger ≠ rebuilt.ledger

/-- After the call the snapshot file holds the returned chain, or it was and
stays absent over an empty history, unless its ledger alone was wrong. -/
theorem repair_reads_back_iff (hjson : SerdeJson.SnapshotsRoundTrip)
    {disk after : StorageDisk} {chain : ChainState} {blocks : List Block}
    (h : config.loadAndRepair disk = .ok ((chain, blocks), after)) :
    (config.readSnapshot after = .ok (some chain) ∨
      config.readSnapshot after = .ok none ∧
        config.readSnapshot disk = .ok none ∧ blocks = []) ↔
      ¬config.LedgerAloneDiffers disk := by
  obtain ⟨stored, history, differs, ops, hstored, hhistory, rfl, hrebuild,
    hdiffers, hops, rfl⟩ := loadAndRepair_eq_ok.mp h
  have halone : config.LedgerAloneDiffers disk ↔ ∃ snapshot,
      stored = some snapshot ∧ snapshot.SameFields chain ∧
        snapshot.ledger ≠ chain.ledger := by
    constructor
    · rintro ⟨snapshot, read, rebuilt, hsnapshot, hread, hrebuilt, hsame, hne⟩
      rw [hstored, Except.ok.injEq] at hsnapshot
      rw [hhistory, Except.ok.injEq] at hread
      rw [← hread, hrebuild, Except.ok.injEq] at hrebuilt
      rw [hrebuilt]
      exact ⟨snapshot, hsnapshot, hsame, hne⟩
    · rintro ⟨snapshot, rfl, hsame, hne⟩
      exact ⟨snapshot, history, chain, hstored, hhistory, hrebuild, hsame, hne⟩
  rw [halone]
  cases differs with
  | true =>
      have hsaved := loadChainState_saved hjson
        (show saveChainState config.statePath chain = .ok ops from hops) disk
      refine iff_of_true (Or.inl hsaved) ?_
      rintro ⟨snapshot, rfl, hsame, -⟩
      exact absurd ((stateDiffers_some_eq_ok.mp hdiffers).2.mpr hsame)
        Bool.true_eq_false_eq_False
  | false =>
      obtain rfl : [] = ops := Except.ok.inj hops
      rw [DiskOp.runAll_nil, hstored]
      cases stored with
      | none =>
          have hempty := (stateDiffers_none.mp hdiffers).mp rfl
          exact iff_of_true (Or.inr ⟨rfl, rfl, hempty⟩) (by simp)
      | some snapshot =>
          obtain ⟨hchainId, hfields⟩ := stateDiffers_some_eq_ok.mp hdiffers
          have hsame := hfields.mp rfl
          rw [← chainId_of_rebuild hrebuild] at hchainId
          have hledger : snapshot = chain ↔
              snapshot.ledger = chain.ledger := by
            constructor
            · rintro rfl
              rfl
            · intro hledger
              cases snapshot
              cases chain
              simp only [ChainState.mk.injEq]
              exact ⟨hledger, hsame.height, hsame.tipHash, hsame.stateRoot,
                hsame.lastTimestamp, hchainId⟩
          simp [hledger, hsame]

end NodeConfig

/-! ## A snapshot with a foreign ledger -/

section StraySnapshot

open scoped StandIns

/-- The chain state before the first block, with an output nobody created. -/
def strayChain : ChainState :=
  { defaultChainStateWithId 0 with
    ledger := ⟨Finmap.singleton ⟨default, 0⟩ ⟨⟨default, [], none⟩, 0⟩, ∅⟩ }

def strayDisk : StorageDisk := fun path =>
  if path = loneNode.statePath then
    .settled (some (.snapshot (PersistedChainState.fromChainState strayChain)))
  else .settled none

theorem strayDisk_snapshot :
    loneNode.readSnapshot strayDisk = .ok (some strayChain) :=
  loadChainState_of_decodes rfl

/-- The node starts on the empty history and leaves the stray output in its
snapshot file. -/
theorem strayDisk_not_repaired :
    ∃ chain after, loneNode.loadAndRepair strayDisk =
        .ok ((chain, []), after) ∧
      loneNode.readSnapshot after = .ok (some strayChain) ∧
      strayChain.ledger.utxos ≠ chain.ledger.utxos := by
  refine ⟨defaultChainStateWithId 0, strayDisk, ?_, strayDisk_snapshot, ?_⟩
  · refine NodeConfig.loadAndRepair_eq_ok.mpr ⟨some strayChain, none, false,
      [], strayDisk_snapshot, rfl, rfl, rfl, ?_, rfl, rfl⟩
    exact stateDiffers_some_eq_ok.mpr
      ⟨rfl, iff_of_true rfl ⟨rfl, rfl, rfl, rfl⟩⟩
  · intro heq
    have hmem : (⟨default, 0⟩ : UtxoKey) ∈ strayChain.ledger.utxos :=
      Finmap.mem_singleton _ _ _ |>.mpr rfl
    rw [heq] at hmem
    exact Finmap.notMem_empty hmem

/-- A missing snapshot is written from the history. -/
theorem halfSaved_reads_back :
    ∃ after, loneNode.loadAndRepair halfSavedDisk =
        .ok ((StandIns.emptyBlockChain, [StandIns.emptyBlock 1]), after) ∧
      (loneNode.readSnapshot after = .ok (some StandIns.emptyBlockChain) ∨
        loneNode.readSnapshot after = .ok none ∧
          loneNode.readSnapshot halfSavedDisk = .ok none ∧
          [StandIns.emptyBlock 1] = []) := by
  have hrebuild : rebuildChainStateFromBlocks ([] ++ [StandIns.emptyBlock 1])
      loneNode.chainId loneNode.validators = .ok StandIns.emptyBlockChain :=
    rebuild_append_eq_ok.mpr
      ⟨defaultChainStateWithId 0, rfl, validateReplayedBlock_eq_ok.mp
        (StandIns.emptyBlock_valid 1 [] (by simp)),
        StandIns.emptyBlock_applies 1⟩
  have hsnapshot : loneNode.readSnapshot halfSavedDisk = .ok none := rfl
  have hload : ∃ after, loneNode.loadAndRepair halfSavedDisk =
      .ok ((StandIns.emptyBlockChain, [StandIns.emptyBlock 1]), after) :=
    ⟨_, NodeConfig.loadAndRepair_eq_ok.mpr ⟨none, some [StandIns.emptyBlock 1],
      true, _, hsnapshot, rfl, rfl, hrebuild, rfl, rfl, rfl⟩⟩
  obtain ⟨after, hload⟩ := hload
  refine ⟨after, hload,
    (NodeConfig.repair_reads_back_iff serdeJson_roundTrips.snapshots
      hload).mpr ?_⟩
  rintro ⟨stored, _, _, hstored, -⟩
  rw [hsnapshot] at hstored
  cases hstored

end StraySnapshot

end QCoin
