import QCoin.Node.Replay

/-!
# Crash consistency

A node runs over a disk, crashes at any point of a write and restarts, again
and again.  The block history decides: after a crash it holds the settled
blocks or the blocks of the interrupted call, and the snapshot is repaired
from it whatever it holds.
-/

namespace QCoin

open Support
open Support.Result

/-- A snapshot which was encoded decodes to itself. -/
def SerdeJson.SnapshotsRoundTrip [SerdeJson] : Prop :=
  ∀ {state text}, SerdeJson.snapshotToString state = .ok text →
    SerdeJson.snapshotFromStr text = .ok state

/-- A history which was encoded decodes to itself.  The encoder refuses a
block with a key or a signature of an unknown scheme or a wrong size. -/
def SerdeJson.HistoriesRoundTrip [SerdeJson] : Prop :=
  ∀ {history text}, SerdeJson.blocksToString history = .ok text →
    SerdeJson.blocksFromStr text = .ok history

/-- What was encoded decodes to itself. -/
structure SerdeJson.RoundTrips [SerdeJson] : Prop where
  snapshots : SerdeJson.SnapshotsRoundTrip
  histories : SerdeJson.HistoriesRoundTrip

/-- The two files and their temporary files are four files. -/
def NodeConfig.PathsDistinct (config : NodeConfig) : Prop :=
  [config.blocksPath, config.blocksPath.temp, config.statePath,
    config.statePath.temp].Nodup

/-- The default path of the history meets the assumption. -/
theorem NodeConfig.pathsDistinct_default (config : NodeConfig) {name : String}
    (hname : config.statePath.fileName = some name)
    (hblocks : config.blocksPath =
      blocksPathFromStatePath config.statePath) : config.PathsDistinct := by
  have hlengths : [config.blocksPath, config.blocksPath.temp,
      config.statePath, config.statePath.temp].map
        (fun path => (path.fileName.getD "").length) =
      [name.length + 12, name.length + 16, name.length, name.length + 4] := by
    rw [hblocks]
    simp [blocksPathFromStatePath, FilePath.temp, hname, String.length_append,
      Nat.add_assoc]
    decide
  apply List.Nodup.of_map (fun path => (path.fileName.getD "").length)
  rw [hlengths]
  simp

section Disks

variable [SerdeJson]

abbrev StorageDisk := Disk FilePath SerdeJson.Text

/-- Reading a file of a disk which does not fail. -/
def readFile (file : FileState SerdeJson.Text) : FileRead SerdeJson.Text :=
  match file.visible with
  | none => .notFound
  | some text => .contents text

/-- The writes of `apply_block`, history first. -/
def NodeRuntime.saveOps (runtime : NodeRuntime)
    (next : ChainState × List Block) : Result String (List FileOp) := do
  let history ← saveBlockHistory runtime.blocksPath next.2
  let state ← saveChainState runtime.statePath next.1
  return history ++ state

/-- The writes of `load_or_repair_storage`. -/
def NodeConfig.repairOps (config : NodeConfig) (chain : ChainState)
    (differs : Bool) : Result String (List FileOp) :=
  if differs then saveChainState config.statePath chain else .ok []

/-- `settled` is the chain and the history after the last call of
`apply_block` which returned `Ok`, or those with which the node last started;
`interrupted` is what the call cut short by the last crash was saving. -/
structure StorageWorld where
  disk : StorageDisk
  node : Option NodeRuntime
  settled : ChainState × List Block
  interrupted : Option (ChainState × List Block)

end Disks

namespace NodeConfig

variable [Blake3] [Bincode] [PqCrypto] [SerdeJson]

/-- `load_or_repair_storage` on a disk. -/
def loadFrom (config : NodeConfig) (disk : StorageDisk) :
    Result String (ChainState × List Block) :=
  loadOrRepairStorage config.statePath config.blocksPath
    (readFile (disk config.statePath)) (readFile (disk config.blocksPath))
    (.ok ()) config.chainId config.validators

def inspect (config : NodeConfig) (disk : StorageDisk) :
    Result String (ChainState × List Block × Bool) :=
  inspectStorage config.statePath config.blocksPath
    (readFile (disk config.statePath)) (readFile (disk config.blocksPath))
    config.chainId config.validators

inductive StorageStep (config : NodeConfig) :
    StorageWorld → StorageWorld → Prop where
  /-- A call to `apply_block` which returns `Ok`. -/
  | applied {world : StorageWorld} {runtime after : NodeRuntime}
      {block : Block} {next : ChainState × List Block} {ops : List FileOp}
      {height : UInt64}
      (running : world.node = some runtime)
      (prepared : runtime.prepareBlock block = .ok next)
      (saves : runtime.saveOps next = .ok ops)
      (returned : runtime.applyBlock block ⟨.ok (), .ok ()⟩ =
        (.ok height, after)) :
      StorageStep config world {
        disk := DiskOp.runAll world.disk ops
        node := some after
        settled := (after.chain, after.blocks)
        interrupted := none }
  /-- A crash inside `apply_block`, after some of its file operations. -/
  | applyCrash {world : StorageWorld} {runtime : NodeRuntime} {block : Block}
      {next : ChainState × List Block} {ops done : List FileOp}
      {disk : StorageDisk}
      (running : world.node = some runtime)
      (prepared : runtime.prepareBlock block = .ok next)
      (saves : runtime.saveOps next = .ok ops) (started : done <+: ops)
      (crash : (DiskOp.runAll world.disk done).CrashesTo disk) :
      StorageStep config world { world with
        disk := disk
        node := none
        interrupted := some next }
  /-- A call which does not reach the disk: a rejected block or a change of
  the mempool. -/
  | unsaved {world : StorageWorld} {runtime : NodeRuntime}
      {pending : List Transaction}
      (running : world.node = some runtime) :
      StorageStep config world { world with
        node := some { runtime with pendingTransactions := pending } }
  /-- A crash between calls. -/
  | crash {world : StorageWorld} {disk : StorageDisk}
      (crash : world.disk.CrashesTo disk) :
      StorageStep config world { world with
        disk := disk
        node := none }
  | started {world : StorageWorld} {chain : ChainState} {blocks : List Block}
      {differs : Bool} {ops : List FileOp} {runtime : NodeRuntime}
      (stopped : world.node = none)
      (inspected : config.inspect world.disk = .ok (chain, blocks, differs))
      (repair : config.repairOps chain differs = .ok ops)
      (launched : config.runtime chain blocks = .ok runtime) :
      StorageStep config world {
        disk := DiskOp.runAll world.disk ops
        node := some runtime
        settled := (chain, blocks)
        interrupted := none }
  /-- A crash during the repair. -/
  | startCrash {world : StorageWorld} {chain : ChainState}
      {blocks : List Block} {differs : Bool} {ops done : List FileOp}
      {disk : StorageDisk}
      (stopped : world.node = none)
      (inspected : config.inspect world.disk = .ok (chain, blocks, differs))
      (repair : config.repairOps chain differs = .ok ops)
      (started : done <+: ops)
      (crash : (DiskOp.runAll world.disk done).CrashesTo disk) :
      StorageStep config world { world with disk := disk }

/-- Runs from a disk on which the two files do not exist. -/
inductive StorageReachable (config : NodeConfig) : StorageWorld → Prop where
  | fresh {disk : StorageDisk}
      (noState : disk config.statePath = FileState.settled none)
      (noBlocks : disk config.blocksPath = FileState.settled none) :
      StorageReachable config {
        disk := disk
        node := none
        settled := (defaultChainStateWithId config.chainId, [])
        interrupted := none }
  | step {world after : StorageWorld}
      (past : StorageReachable config world)
      (event : config.StorageStep world after) :
      StorageReachable config after

end NodeConfig

/-! ## What the files hold -/

section Contents

variable [SerdeJson]

def HoldsHistory (contents : Option SerdeJson.Text) (blocks : List Block) :
    Prop :=
  match contents with
  | none => blocks = []
  | some text => SerdeJson.blocksFromStr text = .ok blocks

/-- No snapshot, or one of some chain with the right chain id. -/
def HoldsSnapshot (contents : Option SerdeJson.Text) (chainId : UInt32) :
    Prop :=
  ∀ text ∈ contents, ∃ chain : ChainState,
    SerdeJson.snapshotFromStr text =
      .ok (PersistedChainState.fromChainState chain) ∧
    chain.chainId = chainId

theorem loadBlockHistory_settled {contents : Option SerdeJson.Text}
    {blocks : List Block} (path : FilePath) (h : HoldsHistory contents blocks) :
    ∃ history, loadBlockHistory path (readFile (.settled contents)) =
        .ok history ∧ history.getD [] = blocks := by
  cases contents with
  | none => exact ⟨none, rfl, h.symm⟩
  | some text =>
      refine ⟨some blocks, ?_, rfl⟩
      have hparse : SerdeJson.blocksFromStr text = .ok blocks := h
      simp only [loadBlockHistory, readFile, FileState.settled_visible, hparse]

theorem loadChainState_settled {contents : Option SerdeJson.Text}
    {chainId : UInt32} (path : FilePath) (h : HoldsSnapshot contents chainId) :
    ∃ stored, loadChainState path (readFile (.settled contents)) =
        .ok stored ∧ ∀ chain ∈ stored, chain.chainId = chainId := by
  cases contents with
  | none => exact ⟨none, rfl, by simp⟩
  | some text =>
      obtain ⟨chain, hparse, hchainId⟩ := h text rfl
      refine ⟨some chain, ?_, by simpa using hchainId⟩
      simp only [loadChainState, readFile, FileState.settled_visible, hparse,
        PersistedChainState.intoChainState_fromChainState]
      rfl

omit [SerdeJson] in
theorem stateDiffers_eq_ok {statePath : FilePath} {chainId : UInt32}
    {stored : Option ChainState} (blocks : List Block) (rebuilt : ChainState)
    (h : ∀ chain ∈ stored, chain.chainId = chainId) :
    ∃ differs, stateDiffers statePath chainId stored blocks rebuilt =
      .ok differs := by
  cases stored with
  | none => exact ⟨_, rfl⟩
  | some chain =>
      have hchainId : chain.chainId = chainId := h chain rfl
      simp only [stateDiffers, bind_eq_ok, require_eq_ok, not_not, pure_eq_ok]
      exact ⟨_, (), hchainId, rfl⟩

/-! ## What the writes leave -/

omit [SerdeJson] in
theorem FilePath.ne_temp {path : FilePath} (h : path.fileName ≠ none) :
    path ≠ path.temp := by
  intro heq
  obtain ⟨name, hname⟩ := Option.ne_none_iff_exists'.mp h
  have hnames : some name = some (name ++ ".tmp") := by
    have hfile := congrArg FilePath.fileName heq
    rwa [FilePath.temp, hname] at hfile
  have hlength := congrArg String.length (Option.some.inj hnames)
  rw [String.length_append] at hlength
  have htmp : ".tmp".length = 4 := by decide
  omega

theorem writeFileAtomically_eq_ok {path : FilePath} {text : SerdeJson.Text}
    {ops : List FileOp} :
    writeFileAtomically path text = .ok ops ↔ path.fileName ≠ none ∧
      atomicWrite path.temp path SerdeJson.emptyText text = ops := by
  simp only [writeFileAtomically, bind_eq_ok, require_eq_ok, pure_eq_ok,
    exists_const]

theorem serialized_eq_ok {encoded : Except String SerdeJson.Text}
    {text : SerdeJson.Text} : serialized encoded = .ok text ↔
      encoded = .ok text := by
  cases encoded <;> simp [serialized]

theorem saveChainState_eq_ok {path : FilePath} {chain : ChainState}
    {ops : List FileOp} :
    saveChainState path chain = .ok ops ↔ ∃ text,
      SerdeJson.snapshotToString (PersistedChainState.fromChainState chain) =
        .ok text ∧ path.fileName ≠ none ∧
      atomicWrite path.temp path SerdeJson.emptyText text = ops := by
  simp only [saveChainState, bind_eq_ok, serialized_eq_ok,
    writeFileAtomically_eq_ok]

theorem saveBlockHistory_eq_ok {path : FilePath} {blocks : List Block}
    {ops : List FileOp} :
    saveBlockHistory path blocks = .ok ops ↔ ∃ text,
      SerdeJson.blocksToString blocks = .ok text ∧ path.fileName ≠ none ∧
      atomicWrite path.temp path SerdeJson.emptyText text = ops := by
  simp only [saveBlockHistory, bind_eq_ok, serialized_eq_ok,
    writeFileAtomically_eq_ok]

/-- The operations which save a snapshot put one of the chain in place. -/
theorem saveChainState_ops (hjson : SerdeJson.SnapshotsRoundTrip)
    {path : FilePath} {chain : ChainState} {ops : List FileOp}
    (h : saveChainState path chain = .ok ops) :
    ∃ text, ops = atomicWrite path.temp path SerdeJson.emptyText text ∧
      SerdeJson.snapshotFromStr text =
        .ok (PersistedChainState.fromChainState chain) := by
  obtain ⟨text, hencode, -, rfl⟩ := saveChainState_eq_ok.mp h
  exact ⟨text, rfl, hjson hencode⟩

/-- The operations which save a history put its blocks in place. -/
theorem saveBlockHistory_ops (hjson : SerdeJson.HistoriesRoundTrip)
    {path : FilePath} {blocks : List Block} {ops : List FileOp}
    (h : saveBlockHistory path blocks = .ok ops) :
    ∃ text, ops = atomicWrite path.temp path SerdeJson.emptyText text ∧
      SerdeJson.blocksFromStr text = .ok blocks := by
  obtain ⟨text, hencode, -, rfl⟩ := saveBlockHistory_eq_ok.mp h
  exact ⟨text, rfl, hjson hencode⟩

theorem holdsSnapshot_of_decodes {text : SerdeJson.Text} {chain : ChainState}
    (h : SerdeJson.snapshotFromStr text =
      .ok (PersistedChainState.fromChainState chain)) :
    HoldsSnapshot (some text) chain.chainId := by
  intro other hother
  obtain rfl : text = other := Option.some.inj hother
  exact ⟨chain, h, rfl⟩

/-- A file which a crash leaves with one of two contents. -/
theorem crashed_contents {disk after : StorageDisk} {path : FilePath}
    {text : SerdeJson.Text} {contents : Option SerdeJson.Text}
    (hcrash : disk.CrashesTo after)
    (hsub : (disk path).afterCrash ⊆ insert (some text) {contents}) :
    after path = .settled (some text) ∨ after path = .settled contents := by
  obtain ⟨left, hleft, hafter⟩ := hcrash path
  rcases hsub hleft with rfl | rfl
  · exact Or.inl hafter
  · exact Or.inr hafter

theorem crashed_settled {disk after : StorageDisk} {path : FilePath}
    {contents : Option SerdeJson.Text} (hcrash : disk.CrashesTo after)
    (hsettled : disk path = .settled contents) :
    after path = .settled contents := by
  obtain ⟨left, hleft, hafter⟩ := hcrash path
  rw [hsettled, FileState.afterCrash_settled, Set.mem_singleton_iff] at hleft
  rw [hafter, hleft]

variable [Blake3] [Bincode] [PqCrypto] {config : NodeConfig}

/-- Intact files load, whatever chain the snapshot is of. -/
theorem NodeConfig.inspect_eq_ok {disk : StorageDisk}
    {state history : Option SerdeJson.Text} {chain : ChainState}
    {blocks : List Block}
    (hstate : disk config.statePath = .settled state)
    (hhistory : disk config.blocksPath = .settled history)
    (hsnapshot : HoldsSnapshot state config.chainId)
    (hblocks : HoldsHistory history blocks)
    (hrebuild : rebuildChainStateFromBlocks blocks config.chainId
      config.validators = .ok chain) :
    ∃ differs, config.inspect disk = .ok (chain, blocks, differs) := by
  obtain ⟨stored, hstored, hchainId⟩ :=
    loadChainState_settled config.statePath hsnapshot
  obtain ⟨loaded, hloaded, rfl⟩ :=
    loadBlockHistory_settled config.blocksPath hblocks
  obtain ⟨differs, hdiffers⟩ := stateDiffers_eq_ok (loaded.getD []) chain
    hchainId
  refine ⟨differs, ?_⟩
  simp only [NodeConfig.inspect, inspectStorage, hstate, hhistory, bind_eq_ok,
    pure_eq_ok]
  exact ⟨stored, hstored, loaded, hloaded, chain, hrebuild, differs, hdiffers,
    rfl⟩

theorem NodeConfig.loadFrom_eq_ok {disk : StorageDisk} {chain : ChainState}
    {blocks : List Block} {differs : Bool}
    (h : config.inspect disk = .ok (chain, blocks, differs)) :
    config.loadFrom disk = .ok (chain, blocks) := by
  rw [NodeConfig.loadFrom, loadOrRepairStorage, bind_eq_ok]
  exact ⟨_, h, by cases differs <;> rfl⟩

end Contents

/-! ## The invariant -/

namespace NodeConfig

variable [Blake3] [Bincode] [PqCrypto] {config : NodeConfig}

/-- `next` is the settled chain with one more block. -/
def Extends (config : NodeConfig) (settled next : ChainState × List Block) :
    Prop :=
  ∃ block, next.2 = settled.2 ++ [block] ∧
    ReplayValid defaultRegistry settled.1 block config.validators ∧
    settled.1.applyBlock block defaultScriptEngine = .ok next.1

/-- A runtime which works on the settled chain. -/
structure Runs (config : NodeConfig) (settled : ChainState × List Block)
    (runtime : NodeRuntime) : Prop where
  replayable : Replayable config runtime
  current : (runtime.chain, runtime.blocks) = settled
  statePath : runtime.statePath = config.statePath
  blocksPath : runtime.blocksPath = config.blocksPath

/-- Between the steps of a world both files are intact.  The history is the
settled one or the interrupted one, and the snapshot is of any chain. -/
structure StorageInv [SerdeJson] (config : NodeConfig)
    (world : StorageWorld) : Prop where
  history : ∃ contents blocks,
    world.disk config.blocksPath = .settled contents ∧
    HoldsHistory contents blocks ∧ (blocks = world.settled.2 ∨
      ∃ next, world.interrupted = some next ∧ blocks = next.2)
  snapshot : ∃ contents, world.disk config.statePath = .settled contents ∧
    HoldsSnapshot contents config.chainId
  rebuilt : rebuildChainStateFromBlocks world.settled.2 config.chainId
    config.validators = .ok world.settled.1
  extended : ∀ next, world.interrupted = some next →
    config.Extends world.settled next
  running : ∀ runtime, world.node = some runtime →
    config.Runs world.settled runtime ∧ world.interrupted = none

theorem Extends.rebuilt {settled next : ChainState × List Block}
    (h : config.Extends settled next)
    (hsettled : rebuildChainStateFromBlocks settled.2 config.chainId
      config.validators = .ok settled.1) :
    rebuildChainStateFromBlocks next.2 config.chainId config.validators =
      .ok next.1 := by
  obtain ⟨block, hblocks, hvalid, happlied⟩ := h
  rw [hblocks]
  exact rebuild_append_eq_ok.mpr ⟨settled.1, hsettled, hvalid, happlied⟩

theorem chainId_of_rebuild {blocks : List Block} {chain : ChainState}
    (h : rebuildChainStateFromBlocks blocks config.chainId config.validators =
      .ok chain) : chain.chainId = config.chainId := by
  obtain ⟨steps, hsteps⟩ := AcceptedChain.of_rebuild h
  exact hsteps.chainId_eq

/-- A prepared block extends the settled chain. -/
theorem Runs.extends {settled next : ChainState × List Block}
    {runtime : NodeRuntime} (h : config.Runs settled runtime) {block : Block}
    (hprepare : runtime.prepareBlock block = .ok next) :
    config.Extends settled next := by
  obtain ⟨hvalid, happlied, hblocks⟩ :=
    NodeRuntime.prepareBlock_eq_ok.mp hprepare
  rw [h.replayable.engine_eq] at happlied
  have hconfigured :=
    (h.replayable.validateBlock_eq_ok.mp hvalid).configured
  rw [← h.current]
  exact ⟨block, hblocks, hconfigured, happlied⟩

variable [SerdeJson]

/-- The blocks of a stopped world and what they rebuild to. -/
theorem StorageInv.stored {world : StorageWorld}
    (h : config.StorageInv world) :
    ∃ stored differs, config.inspect world.disk =
        .ok (stored.1, stored.2, differs) ∧
      rebuildChainStateFromBlocks stored.2 config.chainId
        config.validators = .ok stored.1 ∧
      (∃ contents, world.disk config.blocksPath = .settled contents ∧
        HoldsHistory contents stored.2) ∧
      (stored = world.settled ∨ world.interrupted = some stored) := by
  obtain ⟨contents, blocks, hhistory, hholds, hblocks⟩ := h.history
  obtain ⟨state, hstate, hsnapshot⟩ := h.snapshot
  have hstored : ∃ stored : ChainState × List Block, stored.2 = blocks ∧
      rebuildChainStateFromBlocks stored.2 config.chainId
        config.validators = .ok stored.1 ∧
      (stored = world.settled ∨ world.interrupted = some stored) := by
    rcases hblocks with rfl | ⟨next, hnext, rfl⟩
    · exact ⟨world.settled, rfl, h.rebuilt, Or.inl rfl⟩
    · exact ⟨next, rfl, (h.extended next hnext).rebuilt h.rebuilt,
        Or.inr hnext⟩
  obtain ⟨stored, rfl, hrebuild, horigin⟩ := hstored
  obtain ⟨differs, hinspect⟩ :=
    inspect_eq_ok hstate hhistory hsnapshot hholds hrebuild
  exact ⟨stored, differs, hinspect, hrebuild, ⟨contents, hhistory, hholds⟩,
    horigin⟩

/-- The two writes of a call and the contents they carry. -/
theorem Runs.saveOps_eq {settled next : ChainState × List Block}
    {runtime : NodeRuntime} (h : config.Runs settled runtime)
    (hjson : SerdeJson.RoundTrips)
    (hnext : next.1.chainId = config.chainId) {ops : List FileOp}
    (hops : runtime.saveOps next = .ok ops) :
    ∃ history state, ops =
        atomicWrite config.blocksPath.temp config.blocksPath
            SerdeJson.emptyText history ++
          atomicWrite config.statePath.temp config.statePath
            SerdeJson.emptyText state ∧
      HoldsHistory (some history) next.2 ∧
      HoldsSnapshot (some state) config.chainId := by
  simp only [NodeRuntime.saveOps, h.blocksPath, h.statePath, bind_eq_ok,
    pure_eq_ok] at hops
  obtain ⟨historyOps, hhistory, stateOps, hstate, rfl⟩ := hops
  obtain ⟨history, rfl, hholds⟩ :=
    saveBlockHistory_ops hjson.histories hhistory
  obtain ⟨state, rfl, hdecodes⟩ := saveChainState_ops hjson.snapshots hstate
  exact ⟨history, state, rfl, hholds,
    hnext ▸ holdsSnapshot_of_decodes hdecodes⟩

omit [Blake3] [Bincode] [PqCrypto] in
/-- A repair which is interrupted leaves the history alone and an intact
snapshot. -/
theorem repairOps_prefix (hjson : SerdeJson.RoundTrips)
    (hpaths : config.PathsDistinct) {chain : ChainState} {differs : Bool}
    (hchain : chain.chainId = config.chainId) {ops done : List FileOp}
    (hops : config.repairOps chain differs = .ok ops) (hdone : done <+: ops)
    (disk : StorageDisk) :
    DiskOp.runAll disk done config.blocksPath = disk config.blocksPath ∧
    (ops = [] ∨ ∃ state, HoldsSnapshot (some state) config.chainId ∧
      (DiskOp.runAll disk done config.statePath).afterCrash ⊆
        insert (some state) (disk config.statePath).afterCrash ∧
      DiskOp.runAll disk ops config.statePath = .settled (some state)) := by
  obtain ⟨-, hstate, hstateTemp, -, -, hstateNe⟩ := ne_of_nodup hpaths
  cases differs with
  | false =>
      obtain rfl : [] = ops := Except.ok.inj hops
      obtain rfl : done = [] := List.prefix_nil.mp hdone
      exact ⟨rfl, Or.inl rfl⟩
  | true =>
      rw [repairOps, if_pos rfl] at hops
      obtain ⟨state, rfl, hdecodes⟩ := saveChainState_ops hjson.snapshots hops
      exact ⟨atomicWrite_frame hdone hstateTemp hstate disk, Or.inr ⟨state,
        hchain ▸ holdsSnapshot_of_decodes hdecodes,
        atomicWrite_interrupted hstateNe hdone disk,
        atomicWrite_complete hstateNe disk⟩⟩

/-- What `load_or_repair_storage` finds. -/
theorem StorageInv.stored_of_inspect {world : StorageWorld}
    (h : config.StorageInv world) {chain : ChainState} {blocks : List Block}
    {differs : Bool}
    (hinspect : config.inspect world.disk = .ok (chain, blocks, differs)) :
    rebuildChainStateFromBlocks blocks config.chainId config.validators =
        .ok chain ∧
      ∃ contents, world.disk config.blocksPath = .settled contents ∧
        HoldsHistory contents blocks := by
  obtain ⟨stored, found, hstored, hrebuild, hcontents, -⟩ := h.stored
  rw [hstored, Except.ok.injEq, Prod.mk.injEq, Prod.mk.injEq] at hinspect
  obtain ⟨rfl, rfl, -⟩ := hinspect
  exact ⟨hrebuild, hcontents⟩

/-- A call which returned `Ok` settles its block. -/
theorem StorageInv.applied {world : StorageWorld}
    (hjson : SerdeJson.RoundTrips) (hpaths : config.PathsDistinct)
    (h : config.StorageInv world) {runtime after : NodeRuntime} {block : Block}
    {next : ChainState × List Block} {ops : List FileOp} {height : UInt64}
    (running : world.node = some runtime)
    (prepared : runtime.prepareBlock block = .ok next)
    (saves : runtime.saveOps next = .ok ops)
    (returned : runtime.applyBlock block ⟨.ok (), .ok ()⟩ =
      (.ok height, after)) :
    config.StorageInv {
      disk := DiskOp.runAll world.disk ops
      node := some after
      settled := (after.chain, after.blocks)
      interrupted := none } := by
  obtain ⟨hruns, -⟩ := h.running runtime running
  have hextends := hruns.extends prepared
  have hrebuild := hextends.rebuilt h.rebuilt
  obtain ⟨history, state, rfl, hholds, hsnapshot⟩ :=
    hruns.saveOps_eq hjson (chainId_of_rebuild hrebuild) saves
  obtain ⟨hblocks, hstate⟩ := atomicWrites_complete hpaths world.disk
  -- The runtime after the call works on the prepared chain.
  have hafter : ∃ pending, after =
      { runtime.advance next.1 next.2 with
        pendingTransactions := pending } := by
    rcases runtime.applyBlock_cases block ⟨.ok (), .ok ()⟩ with
      ⟨abort, happly⟩ | ⟨nextChain, nextBlocks, hprepare, -, -, happly⟩
    · rw [returned] at happly
      cases happly
    · rw [prepared, Except.ok.injEq] at hprepare
      obtain ⟨pending, hpending⟩ :=
        NodeRuntime.reconcilePendingTransactions_snd
          (runtime.advance nextChain nextBlocks)
      refine ⟨pending, ?_⟩
      rw [hprepare, ← hpending]
      rw [returned, Prod.mk.injEq] at happly
      exact happly.2
  obtain ⟨pending, rfl⟩ := hafter
  refine ⟨⟨some history, next.2, hblocks, hholds, Or.inl rfl⟩,
    ⟨some state, hstate, hsnapshot⟩, hrebuild, by simp, ?_⟩
  rintro _ ⟨rfl⟩
  exact ⟨⟨⟨hruns.replayable.engine, hruns.replayable.scriptEngine, hrebuild⟩,
    rfl, hruns.statePath, hruns.blocksPath⟩, rfl⟩

theorem StorageInv.applyCrash {world : StorageWorld}
    (hjson : SerdeJson.RoundTrips) (hpaths : config.PathsDistinct)
    (h : config.StorageInv world) {runtime : NodeRuntime} {block : Block}
    {next : ChainState × List Block} {ops done : List FileOp}
    {disk : StorageDisk}
    (running : world.node = some runtime)
    (prepared : runtime.prepareBlock block = .ok next)
    (saves : runtime.saveOps next = .ok ops) (started : done <+: ops)
    (crash : (DiskOp.runAll world.disk done).CrashesTo disk) :
    config.StorageInv { world with
      disk := disk
      node := none
      interrupted := some next } := by
  obtain ⟨hruns, hnone⟩ := h.running runtime running
  have hextends := hruns.extends prepared
  have hrebuild := hextends.rebuilt h.rebuilt
  obtain ⟨history, state, rfl, hholds, hsnapshot⟩ :=
    hruns.saveOps_eq hjson (chainId_of_rebuild hrebuild) saves
  obtain ⟨contents, blocks, holdBlocks, holdHolds, horigin⟩ := h.history
  obtain ⟨oldState, holdState, holdSnapshot⟩ := h.snapshot
  have hsettled : blocks = world.settled.2 := by
    rcases horigin with hblocks | ⟨other, hother, -⟩
    · exact hblocks
    · rw [hnone] at hother
      cases hother
  obtain ⟨hblocks, hstate⟩ :=
    atomicWrites_interrupted hpaths started world.disk
  rw [holdBlocks, FileState.afterCrash_settled] at hblocks
  rw [holdState, FileState.afterCrash_settled] at hstate
  refine ⟨?_, ?_, h.rebuilt, ?_, by simp⟩
  · rcases crashed_contents crash hblocks with hnew | hold
    · exact ⟨some history, next.2, hnew, hholds, Or.inr ⟨next, rfl, rfl⟩⟩
    · exact ⟨contents, blocks, hold, holdHolds, Or.inl hsettled⟩
  · rcases crashed_contents crash hstate with hnew | hold
    · exact ⟨some state, hnew, hsnapshot⟩
    · exact ⟨oldState, hold, holdSnapshot⟩
  · rintro _ ⟨rfl⟩
    exact hextends

theorem StorageInv.started {world : StorageWorld}
    (hjson : SerdeJson.RoundTrips) (hpaths : config.PathsDistinct)
    (h : config.StorageInv world) {chain : ChainState} {blocks : List Block}
    {differs : Bool} {ops : List FileOp} {runtime : NodeRuntime}
    (inspected : config.inspect world.disk = .ok (chain, blocks, differs))
    (repair : config.repairOps chain differs = .ok ops)
    (launched : config.runtime chain blocks = .ok runtime) :
    config.StorageInv {
      disk := DiskOp.runAll world.disk ops
      node := some runtime
      settled := (chain, blocks)
      interrupted := none } := by
  obtain ⟨hrebuild, contents, hcontents, hholds⟩ :=
    h.stored_of_inspect inspected
  obtain ⟨oldState, holdState, holdSnapshot⟩ := h.snapshot
  obtain ⟨hhistory, hrepair⟩ :=
    repairOps_prefix hjson hpaths (chainId_of_rebuild hrebuild) repair
      (List.prefix_refl ops) world.disk
  have hreplayable : Replayable config runtime :=
    NodeConfig.runtime_replayable hrebuild launched
  simp only [NodeConfig.runtime, bind_eq_ok, pure_eq_ok] at launched
  obtain ⟨consensus, -, rfl⟩ := launched
  refine ⟨⟨contents, blocks, hhistory.trans hcontents, hholds, Or.inl rfl⟩,
    ?_, hrebuild, by simp, ?_⟩
  · rcases hrepair with rfl | ⟨state, hsnapshot, -, hnew⟩
    · exact ⟨oldState, holdState, holdSnapshot⟩
    · exact ⟨some state, hnew, hsnapshot⟩
  · rintro _ ⟨rfl⟩
    exact ⟨⟨hreplayable, rfl, rfl, rfl⟩, rfl⟩

theorem StorageInv.startCrash {world : StorageWorld}
    (hjson : SerdeJson.RoundTrips) (hpaths : config.PathsDistinct)
    (h : config.StorageInv world) {chain : ChainState} {blocks : List Block}
    {differs : Bool} {ops done : List FileOp} {disk : StorageDisk}
    (stopped : world.node = none)
    (inspected : config.inspect world.disk = .ok (chain, blocks, differs))
    (repair : config.repairOps chain differs = .ok ops)
    (started : done <+: ops)
    (crash : (DiskOp.runAll world.disk done).CrashesTo disk) :
    config.StorageInv { world with disk := disk } := by
  obtain ⟨hrebuild, -⟩ := h.stored_of_inspect inspected
  obtain ⟨contents, blocks, hcontents, hholds, horigin⟩ := h.history
  obtain ⟨oldState, holdState, holdSnapshot⟩ := h.snapshot
  obtain ⟨hhistory, hrepair⟩ :=
    repairOps_prefix hjson hpaths (chainId_of_rebuild hrebuild) repair started
      world.disk
  refine ⟨⟨contents, blocks,
    crashed_settled crash (hhistory.trans hcontents), hholds, horigin⟩, ?_,
    h.rebuilt, h.extended, by simp [stopped]⟩
  rcases hrepair with rfl | ⟨state, hsnapshot, hstate, -⟩
  · rw [List.prefix_nil.mp started] at crash
    exact ⟨oldState, crashed_settled crash holdState, holdSnapshot⟩
  · rw [holdState, FileState.afterCrash_settled] at hstate
    rcases crashed_contents crash hstate with hnew | hold
    · exact ⟨some state, hnew, hsnapshot⟩
    · exact ⟨oldState, hold, holdSnapshot⟩

theorem StorageInv.step {world after : StorageWorld}
    (hjson : SerdeJson.RoundTrips) (hpaths : config.PathsDistinct)
    (h : config.StorageInv world) (hstep : config.StorageStep world after) :
    config.StorageInv after := by
  cases hstep with
  | applied running prepared saves returned =>
      exact h.applied hjson hpaths running prepared saves returned
  | applyCrash running prepared saves started crash =>
      exact h.applyCrash hjson hpaths running prepared saves started crash
  | @unsaved runtime pending running =>
      refine { h with running := ?_ }
      rintro _ ⟨rfl⟩
      obtain ⟨hruns, hnone⟩ := h.running runtime running
      have hreplayable : Replayable config
          { runtime with pendingTransactions := pending } :=
        hruns.replayable.chainStep (Or.inl ⟨pending, rfl⟩)
      exact ⟨⟨hreplayable, hruns.current, hruns.statePath,
        hruns.blocksPath⟩, hnone⟩
  | crash crash =>
      obtain ⟨contents, blocks, hhistory, hholds, hblocks⟩ := h.history
      obtain ⟨state, hstate, hsnapshot⟩ := h.snapshot
      exact ⟨⟨contents, blocks, crashed_settled crash hhistory, hholds,
        hblocks⟩, ⟨state, crashed_settled crash hstate, hsnapshot⟩,
        h.rebuilt, h.extended, by simp⟩
  | started stopped inspected repair launched =>
      exact h.started hjson hpaths inspected repair launched
  | startCrash stopped inspected repair started crash =>
      exact h.startCrash hjson hpaths stopped inspected repair started crash

theorem StorageReachable.inv {world : StorageWorld}
    (hjson : SerdeJson.RoundTrips) (hpaths : config.PathsDistinct)
    (h : config.StorageReachable world) : config.StorageInv world := by
  induction h with
  | fresh noState noBlocks =>
      exact ⟨⟨none, [], noBlocks, rfl, Or.inl rfl⟩, ⟨none, noState, by simp
        [HoldsSnapshot]⟩, rfl, by simp, by simp⟩
  | step past event ih => exact ih.step hjson hpaths event

/-- Crash consistency: a restart succeeds, and it gives the settled chain and
history or those of the interrupted call, which have one more block. -/
theorem crash_consistency {world : StorageWorld}
    (hjson : SerdeJson.RoundTrips) (hpaths : config.PathsDistinct)
    (h : config.StorageReachable world) :
    ∃ chain blocks, config.loadFrom world.disk = .ok (chain, blocks) ∧
      ((chain, blocks) = world.settled ∨
        world.interrupted = some (chain, blocks) ∧
          ∃ block, blocks = world.settled.2 ++ [block] ∧
            world.settled.1.applyBlock block defaultScriptEngine =
              .ok chain) := by
  have hinv := h.inv hjson hpaths
  obtain ⟨stored, differs, hinspect, -, -, horigin⟩ := hinv.stored
  refine ⟨stored.1, stored.2, loadFrom_eq_ok hinspect, ?_⟩
  rcases horigin with hsettled | hinterrupted
  · exact Or.inl hsettled
  · obtain ⟨block, hblocks, -, happlied⟩ :=
      hinv.extended stored hinterrupted
    exact Or.inr ⟨hinterrupted, block, hblocks, happlied⟩

end NodeConfig

section InterruptedFirstBlock

open scoped StandIns

theorem serdeJson_roundTrips : SerdeJson.RoundTrips where
  snapshots h := by
    cases h
    rfl
  histories h := by
    cases h
    rfl

def loneNode : NodeConfig := StandIns.nodeConfig 1 []

def emptyDisk : StorageDisk := fun _ => .settled none

/-- The history of the first block was written, the snapshot was not. -/
def halfSavedDisk : StorageDisk := fun path =>
  if path = loneNode.blocksPath then
    .settled (some (.blocks [StandIns.emptyBlock 1]))
  else .settled none

/-- The operations which write the first history. -/
def firstHistoryOps : List FileOp :=
  atomicWrite loneNode.blocksPath.temp loneNode.blocksPath
    SerdeJson.emptyText (.blocks [StandIns.emptyBlock 1])

theorem halfSavedDisk_crash :
    (DiskOp.runAll emptyDisk firstHistoryOps).CrashesTo halfSavedDisk := by
  intro path
  have hne : loneNode.blocksPath ≠ loneNode.blocksPath.temp := by decide
  by_cases hpath : path = loneNode.blocksPath
  · refine ⟨some (.blocks [StandIns.emptyBlock 1]), ?_, if_pos hpath⟩
    rw [hpath, firstHistoryOps, atomicWrite_complete hne,
      FileState.afterCrash_settled]
    rfl
  · refine ⟨none, ?_, if_neg hpath⟩
    by_cases htemp : path = loneNode.blocksPath.temp
    · rw [htemp]
      simp [firstHistoryOps, atomicWrite, writeTemp, DiskOp.run,
        FileState.afterCrash, hne.symm]
    · rw [firstHistoryOps,
        atomicWrite_frame (List.prefix_refl _) htemp hpath, emptyDisk,
        FileState.afterCrash_settled]
      rfl

def loneWorld (disk : StorageDisk) (node : Option NodeRuntime)
    (interrupted : Option (ChainState × List Block)) : StorageWorld where
  disk := disk
  node := node
  settled := (defaultChainStateWithId 0, [])
  interrupted := interrupted

theorem loneWorld_started : loneNode.StorageReachable
    (loneWorld emptyDisk (some (StandIns.freshRuntime 1 [])) none) := by
  have hfresh : loneNode.StorageReachable (loneWorld emptyDisk none none) :=
    NodeConfig.StorageReachable.fresh rfl rfl
  have hinspect : loneNode.inspect emptyDisk =
      .ok (defaultChainStateWithId 0, [], false) := rfl
  have hrepair : loneNode.repairOps (defaultChainStateWithId 0) false =
      .ok [] := rfl
  exact hfresh.step (NodeConfig.StorageStep.started rfl hinspect hrepair
    (StandIns.runtime_fresh 1 []))

theorem loneWorld_crashed : loneNode.StorageReachable
    (loneWorld halfSavedDisk none
      (some (StandIns.emptyBlockChain, [StandIns.emptyBlock 1]))) := by
  have hprepare := StandIns.prepare_firstBlock 1 1 [] rfl
  have hsaves : ∃ rest, (StandIns.freshRuntime 1 []).saveOps
      (StandIns.emptyBlockChain, [StandIns.emptyBlock 1]) =
        .ok (firstHistoryOps ++ rest) := ⟨_, rfl⟩
  obtain ⟨rest, hsaves⟩ := hsaves
  exact loneWorld_started.step (NodeConfig.StorageStep.applyCrash rfl
    hprepare hsaves (List.prefix_append _ _) halfSavedDisk_crash)

/-- The restart after a crash between the two writes of the first block. -/
theorem halfSaved_crash_consistency :
    ∃ chain blocks, loneNode.loadFrom halfSavedDisk = .ok (chain, blocks) ∧
      ((chain, blocks) = (defaultChainStateWithId 0, []) ∨
        some (StandIns.emptyBlockChain, [StandIns.emptyBlock 1]) =
          some (chain, blocks) ∧
        ∃ block, blocks = [] ++ [block] ∧
          (defaultChainStateWithId 0).applyBlock block defaultScriptEngine =
            .ok chain) := by
  have hpaths : loneNode.PathsDistinct :=
    loneNode.pathsDistinct_default rfl rfl
  have hrestart := NodeConfig.crash_consistency serdeJson_roundTrips hpaths
    loneWorld_crashed
  exact hrestart

end InterruptedFirstBlock

end QCoin
