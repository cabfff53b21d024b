import QCoin.Node.Repair

/-!
# Failing saves

`apply_block` on a disk whose file operations can fail.  A failing call leaves
the runtime as it was.  The files keep up with it as long as the new history
has not been renamed into place; from then on a restart loads the new block.
-/

namespace QCoin

open Support
open Support.Result

section Saves

variable [SerdeJson]

/-- A save which never reaches the disk, or an attempt at its operations: the
outcome, the executed operations and the disk they leave. -/
inductive SaveAttempt (disk : StorageDisk) :
    Result String (List FileOp) → Except String Unit → List FileOp →
      StorageDisk → Prop where
  /-- The value is not serialized, or the path has no file name. -/
  | refused {err : String} :
      SaveAttempt disk (.error (.err err)) (.error err) [] disk
  | attempted {ops done : List FileOp} {outcome : Except String Unit}
      {after : StorageDisk} (attempt : Attempt disk ops outcome done after) :
      SaveAttempt disk (.ok ops) outcome done after

/-- The two saves of `apply_block`; the second is made if the first
succeeds. -/
inductive NodeRuntime.Saves (runtime : NodeRuntime)
    (next : ChainState × List Block) (disk : StorageDisk) :
    SaveOutcomes → List FileOp → StorageDisk → Prop where
  | historyFailed {err : String} {unused : Except String Unit}
      {done : List FileOp} {after : StorageDisk}
      (history : SaveAttempt disk
        (saveBlockHistory runtime.blocksPath next.2) (.error err) done after) :
      runtime.Saves next disk ⟨.error err, unused⟩ done after
  | historySaved {outcome : Except String Unit} {done₁ done₂ : List FileOp}
      {mid after : StorageDisk}
      (history : SaveAttempt disk
        (saveBlockHistory runtime.blocksPath next.2) (.ok ()) done₁ mid)
      (state : SaveAttempt mid
        (saveChainState runtime.statePath next.1) outcome done₂ after) :
      runtime.Saves next disk ⟨.ok (), outcome⟩ (done₁ ++ done₂) after

variable [Blake3] [Bincode] [PqCrypto]

/-- `apply_block` on a disk: the outcomes of its saves, the executed file
operations and the disk it leaves. -/
inductive NodeRuntime.AppliesOn (runtime : NodeRuntime) (block : Block)
    (disk : StorageDisk) : SaveOutcomes → List FileOp → StorageDisk → Prop where
  | rejected {abort : Abort NodeError} {unused : SaveOutcomes}
      (prepared : runtime.prepareBlock block = .error abort) :
      runtime.AppliesOn block disk unused [] disk
  | saved {next : ChainState × List Block} {saves : SaveOutcomes}
      {done : List FileOp} {after : StorageDisk}
      (prepared : runtime.prepareBlock block = .ok next)
      (attempt : runtime.Saves next disk saves done after) :
      runtime.AppliesOn block disk saves done after

/-- The files of the node load to what the runtime holds in memory. -/
structure NodeConfig.FilesAgree (config : NodeConfig) (runtime : NodeRuntime)
    (disk : StorageDisk) : Prop where
  statePath : runtime.statePath = config.statePath
  blocksPath : runtime.blocksPath = config.blocksPath
  loads : config.loadFrom disk = .ok (runtime.chain, runtime.blocks)

end Saves

/-! ## Memory -/

namespace NodeRuntime

variable [Blake3] [Bincode] {err : NodeError}

theorem retain_ne_err {engine : ScriptEngine} {height : UInt64}
    {chainId : UInt32} {committedTxIds : List Hash256} {ledger : LedgerState}
    {txs : List Transaction} :
    retain engine height chainId committedTxIds ledger txs ≠
      .error (.err err) := by
  induction txs generalizing ledger with
  | nil => simp [retain]
  | cons tx txs ih =>
      intro h
      rw [retain, bind_eq_error] at h
      rcases h with h | ⟨txId, -, h⟩
      · simp [orPanic_eq_error] at h
      split at h
      · exact ih h
      · split at h
        · rw [bind_eq_error] at h
          rcases h with h | ⟨rest, -, h⟩
          · exact ih h
          · exact pure_ne_error h
        · exact ih h
        · cases h

variable [PqCrypto] {runtime : NodeRuntime} {block : Block}
  {saves : SaveOutcomes}

theorem reconcilePendingTransactions_ne_err :
    runtime.reconcilePendingTransactions.1 ≠ .error (.err err) := by
  unfold reconcilePendingTransactions
  split
  · simp
  · split
    · simp
    · split
      · simp
      · rename_i abort hretain
        intro h
        rw [Except.error.injEq] at h
        exact retain_ne_err (h ▸ hretain)

/-- A call which returns an error has changed nothing in memory. -/
theorem applyBlock_err
    (h : (runtime.applyBlock block saves).1 = .error (.err err)) :
    (runtime.applyBlock block saves).2 = runtime := by
  rcases runtime.applyBlock_cases block saves with ⟨abort, happly⟩ |
    ⟨nextChain, nextBlocks, -, -, -, happly⟩
  · rw [happly]
  · rw [happly] at h
    -- The blocks were saved, and reconciling reports no error.
    cases hreconciled : (runtime.advance nextChain
        nextBlocks).reconcilePendingTransactions.1 with
    | ok u => simp [hreconciled, Except.map] at h
    | error abort =>
        simp only [hreconciled, Except.map, Except.error.injEq] at h
        exact absurd (h ▸ hreconciled) reconcilePendingTransactions_ne_err

end NodeRuntime

/-! ## Disk -/

section Files

variable [SerdeJson] {disk after : StorageDisk} {done : List FileOp}
  {outcome : Except String Unit}

theorem SaveAttempt.attempt_of_ok {ops : List FileOp}
    (h : SaveAttempt disk (.ok ops) outcome done after) :
    Attempt disk ops outcome done after := by
  cases h with
  | attempted attempt => exact attempt

/-- An attempt to save a history is refused, or it is one to put a text of the
history in place. -/
theorem saveBlockHistory_attempt (hjson : SerdeJson.HistoriesRoundTrip)
    {path : FilePath} {blocks : List Block}
    (h : SaveAttempt disk (saveBlockHistory path blocks) outcome done after) :
    (∃ err, outcome = .error err) ∧ done = [] ∧ after = disk ∨
      ∃ text, SerdeJson.blocksFromStr text = .ok blocks ∧
        Attempt disk (atomicWrite path.temp path SerdeJson.emptyText text)
          outcome done after := by
  cases hsave : saveBlockHistory path blocks with
  | ok ops =>
      rw [hsave] at h
      obtain ⟨text, rfl, hdecode⟩ := saveBlockHistory_ops hjson hsave
      exact Or.inr ⟨text, hdecode, h.attempt_of_ok⟩
  | error abort =>
      rw [hsave] at h
      cases h with
      | refused => exact Or.inl ⟨⟨_, rfl⟩, rfl, rfl⟩

/-- An attempt to save a snapshot shows readers of other files nothing. -/
theorem saveChainState_attempt {path : FilePath} {chain : ChainState}
    (h : SaveAttempt disk (saveChainState path chain) outcome done after)
    {other : FilePath} (htemp : other ≠ path.temp) (hother : other ≠ path) :
    (after other).visible = (disk other).visible := by
  cases hsave : saveChainState path chain with
  | ok ops =>
      rw [hsave] at h
      obtain ⟨text, -, -, rfl⟩ := saveChainState_eq_ok.mp hsave
      exact h.attempt_of_ok.visible_frame htemp hother
  | error abort =>
      rw [hsave] at h
      cases h with
      | refused => rfl

namespace NodeConfig

/-- The operation which replaces the block history. -/
def replaceHistory (config : NodeConfig) : FileOp :=
  .rename config.blocksPath.temp config.blocksPath

variable [Blake3] [Bincode] [PqCrypto] {config : NodeConfig}

/-- A restart looks at what a reader sees of the two files. -/
theorem loadFrom_congr
    (hstate : (after config.statePath).visible =
      (disk config.statePath).visible)
    (hblocks : (after config.blocksPath).visible =
      (disk config.blocksPath).visible) :
    config.loadFrom after = config.loadFrom disk := by
  simp only [loadFrom, readFile, hstate, hblocks]

/-- A restart loads the blocks which the history file decodes to. -/
theorem loadFrom_blocks {text : SerdeJson.Text} {history blocks : List Block}
    {chain : ChainState}
    (hvisible : (disk config.blocksPath).visible = some text)
    (hdecode : SerdeJson.blocksFromStr text = .ok history)
    (h : config.loadFrom disk = .ok (chain, blocks)) : blocks = history := by
  have hhistory : loadBlockHistory config.blocksPath
      (readFile (disk config.blocksPath)) = .ok (some history) := by
    simp only [loadBlockHistory, readFile, hvisible, hdecode]
  rw [loadFrom, loadOrRepairStorage, bind_eq_ok] at h
  obtain ⟨⟨rebuilt, stored, differs⟩, hinspect, h⟩ := h
  simp only [inspectStorage, bind_eq_ok, pure_eq_ok, Prod.mk.injEq] at hinspect
  obtain ⟨_, -, loaded, hloaded, _, -, _, -, -, hstored, -⟩ := hinspect
  rw [hhistory, Except.ok.injEq] at hloaded
  have hblocks : stored = blocks := by
    cases differs <;> exact (Prod.mk.inj (Except.ok.inj h)).2
  rw [← hblocks, ← hstored, ← hloaded, Option.getD_some]

variable {runtime : NodeRuntime} {block : Block} {saves : SaveOutcomes}

/-- The files stand for the runtime exactly until the history is replaced. -/
theorem loads_iff_of_appliesOn (hjson : SerdeJson.HistoriesRoundTrip)
    (hpaths : config.PathsDistinct) (hagree : config.FilesAgree runtime disk)
    (hcall : runtime.AppliesOn block disk saves done after) :
    config.loadFrom after = .ok (runtime.chain, runtime.blocks) ↔
      config.replaceHistory ∉ done := by
  obtain ⟨hblocksTemp, hblocksState, hblocksStateTemp, htempState, -,
    hstateTemp⟩ := ne_of_nodup hpaths
  cases hcall with
  | rejected prepared => exact iff_of_true hagree.loads List.not_mem_nil
  | @saved next _ _ _ prepared attempt =>
      obtain ⟨-, -, hnext⟩ := NodeRuntime.prepareBlock_eq_ok.mp prepared
      have hreplaced : ∀ text, SerdeJson.blocksFromStr text = .ok next.2 →
          (after config.blocksPath).visible = some text →
          config.loadFrom after ≠ .ok (runtime.chain, runtime.blocks) := by
        intro text hdecode hvisible hload
        have hblocks := loadFrom_blocks hvisible hdecode hload
        rw [hnext] at hblocks
        have hlength := congrArg List.length hblocks
        simp at hlength
      cases attempt with
      | historyFailed history =>
          rw [hagree.blocksPath] at history
          rcases saveBlockHistory_attempt hjson history with
            ⟨-, rfl, rfl⟩ | ⟨text, hdecode, hattempt⟩
          · exact iff_of_true hagree.loads List.not_mem_nil
          obtain ⟨hnew, hold⟩ := hattempt.visible_replaced hblocksTemp
          by_cases hrename : config.replaceHistory ∈ done
          · exact iff_of_false (hreplaced text hdecode (hnew hrename))
              (not_not_intro hrename)
          · rw [loadFrom_congr (hattempt.visible_frame (Ne.symm htempState)
              (Ne.symm hblocksState)) (hold hrename)]
            exact iff_of_true hagree.loads hrename
      | historySaved history state =>
          rw [hagree.blocksPath] at history
          rw [hagree.statePath] at state
          rcases saveBlockHistory_attempt hjson history with
            ⟨⟨_, hfailed⟩, -, -⟩ | ⟨text, hdecode, hattempt⟩
          · cases hfailed
          obtain ⟨hnew, -⟩ := hattempt.visible_replaced hblocksTemp
          cases hattempt with
          | completed =>
              have hrename : config.replaceHistory ∈
                  atomicWrite config.blocksPath.temp config.blocksPath
                    SerdeJson.emptyText text := by
                simp [replaceHistory, atomicWrite]
              have hvisible :=
                saveChainState_attempt state hblocksStateTemp hblocksState
              rw [hnew hrename] at hvisible
              exact iff_of_false (hreplaced text hdecode hvisible)
                (not_not_intro (List.mem_append_left _ hrename))

/-- A failing `apply_block` leaves memory and files as they were, unless it
fails after the history was replaced. -/
theorem applyBlock_all_or_nothing_iff
    (hjson : SerdeJson.HistoriesRoundTrip) (hpaths : config.PathsDistinct)
    (hagree : config.FilesAgree runtime disk)
    (hcall : runtime.AppliesOn block disk saves done after) {err : NodeError}
    (herr : (runtime.applyBlock block saves).1 = .error (.err err)) :
    ((runtime.applyBlock block saves).2.chain = runtime.chain ∧
      (runtime.applyBlock block saves).2.blocks = runtime.blocks ∧
      (runtime.applyBlock block saves).2.pendingTransactions =
        runtime.pendingTransactions ∧
      config.loadFrom after = .ok (runtime.chain, runtime.blocks)) ↔
      config.replaceHistory ∉ done := by
  rw [NodeRuntime.applyBlock_err herr,
    ← loads_iff_of_appliesOn hjson hpaths hagree hcall]
  simp only [true_and]

end NodeConfig

end Files

/-! ## Failing saves of a first block -/

section FirstSave

open scoped StandIns

theorem emptyDisk_agrees :
    loneNode.FilesAgree (StandIns.freshRuntime 1 []) emptyDisk :=
  ⟨rfl, rfl, rfl⟩

theorem loneNode_pathsDistinct : loneNode.PathsDistinct :=
  loneNode.pathsDistinct_default rfl rfl

/-- The device fills up before the snapshot of the first block is written. -/
def snapshotFailed : SaveOutcomes := ⟨.ok (), .error "No space left on device"⟩

theorem firstBlock_snapshotFailed :
    (StandIns.freshRuntime 1 []).AppliesOn (StandIns.emptyBlock 1) emptyDisk
      snapshotFailed (firstHistoryOps ++ [])
      (DiskOp.runAll emptyDisk firstHistoryOps) := by
  have hhistory : SaveAttempt emptyDisk
      (saveBlockHistory (StandIns.freshRuntime 1 []).blocksPath
        [StandIns.emptyBlock 1]) (.ok ()) firstHistoryOps
      (DiskOp.runAll emptyDisk firstHistoryOps) :=
    SaveAttempt.attempted Attempt.completed
  have hstate : SaveAttempt (DiskOp.runAll emptyDisk firstHistoryOps)
      (saveChainState (StandIns.freshRuntime 1 []).statePath
        StandIns.emptyBlockChain) snapshotFailed.chainState []
      (DiskOp.runAll emptyDisk firstHistoryOps) :=
    SaveAttempt.attempted (Attempt.failed (List.nil_append _) fun _ => rfl)
  exact NodeRuntime.AppliesOn.saved (StandIns.prepare_firstBlock 1 1 [] rfl)
    (NodeRuntime.Saves.historySaved hhistory hstate)

/-- The call fails, the runtime stays at height zero, and a restart loads the
rejected block. -/
theorem snapshotFailed_keeps_block :
    ∃ err, ((StandIns.freshRuntime 1 []).applyBlock (StandIns.emptyBlock 1)
        snapshotFailed).1 = .error (.err err) ∧
      loneNode.FilesAgree (StandIns.freshRuntime 1 []) emptyDisk ∧
      (StandIns.freshRuntime 1 []).AppliesOn (StandIns.emptyBlock 1) emptyDisk
        snapshotFailed (firstHistoryOps ++ [])
        (DiskOp.runAll emptyDisk firstHistoryOps) ∧
      loneNode.loadFrom (DiskOp.runAll emptyDisk firstHistoryOps) ≠
        .ok ((StandIns.freshRuntime 1 []).chain,
          (StandIns.freshRuntime 1 []).blocks) := by
  refine ⟨.save "No space left on device", ?_, emptyDisk_agrees,
    firstBlock_snapshotFailed, ?_⟩
  · rw [NodeRuntime.applyBlock, NodeRuntime.prepareAndSave,
      StandIns.prepare_firstBlock 1 1 [] rfl]
    rfl
  · rw [ne_eq, NodeConfig.loads_iff_of_appliesOn
      serdeJson_roundTrips.histories loneNode_pathsDistinct emptyDisk_agrees
      firstBlock_snapshotFailed, not_not]
    simp [NodeConfig.replaceHistory, firstHistoryOps, atomicWrite]

/-- The device fills up while the temporary history file is written. -/
def historyFailed : SaveOutcomes := ⟨.error "No space left on device", .ok ()⟩

def createHistoryOps : List FileOp :=
  [.createDirs loneNode.blocksPath,
    .create loneNode.blocksPath.temp SerdeJson.emptyText]

theorem firstBlock_historyFailed :
    (StandIns.freshRuntime 1 []).AppliesOn (StandIns.emptyBlock 1) emptyDisk
      historyFailed createHistoryOps
      (DiskOp.runAll emptyDisk createHistoryOps) := by
  have hattempt : Attempt emptyDisk firstHistoryOps
      historyFailed.blockHistory createHistoryOps
      (DiskOp.runAll emptyDisk createHistoryOps) :=
    Attempt.failed rfl fun _ _ => rfl
  have hhistory : SaveAttempt emptyDisk
      (saveBlockHistory (StandIns.freshRuntime 1 []).blocksPath
        [StandIns.emptyBlock 1]) historyFailed.blockHistory createHistoryOps
      (DiskOp.runAll emptyDisk createHistoryOps) :=
    SaveAttempt.attempted hattempt
  exact NodeRuntime.AppliesOn.saved (StandIns.prepare_firstBlock 1 1 [] rfl)
    (NodeRuntime.Saves.historyFailed hhistory)

/-- Here the call fails before the history is replaced. -/
theorem historyFailed_all_or_nothing :
    loneNode.loadFrom (DiskOp.runAll emptyDisk createHistoryOps) =
      .ok ((StandIns.freshRuntime 1 []).chain,
        (StandIns.freshRuntime 1 []).blocks) := by
  have herr : ((StandIns.freshRuntime 1 []).applyBlock (StandIns.emptyBlock 1)
      historyFailed).1 = .error (.err (.save "No space left on device")) := by
    rw [NodeRuntime.applyBlock, NodeRuntime.prepareAndSave,
      StandIns.prepare_firstBlock 1 1 [] rfl]
    rfl
  have hkept : loneNode.replaceHistory ∉ createHistoryOps := by
    simp [NodeConfig.replaceHistory, createHistoryOps]
  exact ((NodeConfig.applyBlock_all_or_nothing_iff
    serdeJson_roundTrips.histories loneNode_pathsDistinct emptyDisk_agrees
    firstBlock_historyFailed herr).mpr hkept).2.2.2

end FirstSave

end QCoin
