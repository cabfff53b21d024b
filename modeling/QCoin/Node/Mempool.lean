import QCoin.Node.StandIns

/-!
# The mempool

The pending transactions of a node replay on its ledger, in order, at the next
height.  Reconciling is the delicate step: a transaction dropped by it may have
registered an asset on the simulated ledger, so the retained transactions were
checked on a ledger with more assets than the real one.
-/

namespace QCoin

open Support
open Support.Result

/-! ## Ledgers with more assets -/

namespace LedgerState

/-- The same outputs and at least the same assets. -/
structure Shadows (simulated ledger : LedgerState) : Prop where
  utxos : simulated.utxos = ledger.utxos
  assets : ∀ id, id ∈ ledger.assets → id ∈ simulated.assets

theorem Shadows.refl (ledger : LedgerState) : ledger.Shadows ledger :=
  ⟨rfl, fun _ h => h⟩

theorem Shadows.trans {a b c : LedgerState} (hab : a.Shadows b)
    (hbc : b.Shadows c) : a.Shadows c :=
  ⟨hab.utxos.trans hbc.utxos, fun id h => hab.assets id (hbc.assets id h)⟩

section

variable [Blake3] {simulated ledger : LedgerState} {tx : Transaction}
  {engine : ScriptEngine} {currentHeight : UInt64} {chainId : UInt32}

/-- Extra assets can only make a transaction fail. -/
theorem Accepts.of_shadows [Bincode] (hshadow : simulated.Shadows ledger)
    (h : simulated.Accepts tx engine currentHeight chainId) :
    ledger.Accepts tx engine currentHeight chainId := by
  obtain ⟨utxos, extended⟩ := simulated
  obtain ⟨utxos', assets⟩ := ledger
  obtain ⟨hutxos, hassets⟩ := hshadow
  obtain rfl : utxos = utxos' := hutxos
  refine ⟨h.inputsDistinct, ?_, ?_, h.conserved⟩
  · intro entry hentry
    obtain ⟨tracked, witness, hunlocked⟩ := h.unlocked entry hentry
    exact ⟨tracked, witness, hunlocked.found, hunlocked.presented,
      hunlocked.scriptMatches, hunlocked.metadataOk, hunlocked.evaluates⟩
  · intro created hcreated
    have haccepted := h.creation created hcreated
    exact ⟨haccepted.notNative,
      fun hmem => haccepted.fresh (hassets _ hmem), haccepted.minted,
      haccepted.withinMax, haccepted.notSpent, haccepted.authorized⟩

theorem Shadows.afterCore (hshadow : simulated.Shadows ledger)
    (core : TransactionCore) (txId : Hash256) :
    (simulated.afterCore core txId currentHeight chainId).Shadows
      (ledger.afterCore core txId currentHeight chainId) := by
  constructor
  · simp [LedgerState.afterCore, hshadow.utxos]
  · intro id
    simp only [LedgerState.afterCore, insertUtxos_assets, removeUtxos_assets]
    cases core.kind.createdAsset chainId with
    | none => exact hshadow.assets id
    | some created =>
        simp only [register, Finmap.mem_insert]
        exact Or.imp_right (hshadow.assets id)

/-- A transaction accepted in the presence of more assets is accepted, and the
ledgers stay alike. -/
theorem Shadows.applyTransaction [Bincode] {simulated' : LedgerState}
    (hshadow : simulated.Shadows ledger)
    (h : simulated.applyTransaction tx engine currentHeight chainId =
      (.ok (), simulated')) :
    ∃ ledger', ledger.applyTransaction tx engine currentHeight chainId =
        (.ok (), ledger') ∧ simulated'.Shadows ledger' := by
  obtain ⟨haccepts, txId, htxId, rfl⟩ := applyTransaction_eq_ok.mp h
  exact ⟨_, applyTransaction_eq_ok.mpr
      ⟨haccepts.of_shadows hshadow, txId, htxId, rfl⟩,
    hshadow.afterCore tx.core txId⟩

/-- All a failing transaction can do is to register an asset. -/
theorem shadows_of_applyTransaction_err [Bincode] {ledger' : LedgerState}
    {err : LedgerError}
    (h : ledger.applyTransaction tx engine currentHeight chainId =
      (.error (.err err), ledger')) : ledger'.Shadows ledger := by
  unfold LedgerState.applyTransaction at h
  split at h
  · simp only [Prod.mk.injEq] at h
    rw [← h.2]
    exact Shadows.refl ledger
  · rename_i created scan hcheck
    split at h
    · simp only [Prod.mk.injEq] at h
      rw [← h.2]
      refine ⟨register_utxos ledger created, fun id hid => ?_⟩
      cases created with
      | none => exact hid
      | some asset => exact Finmap.mem_insert.mpr (Or.inr hid)
    · split at h
      · simp at h
      · simp at h

theorem applyAll_append_singleton [Bincode] {txs : List Transaction}
    {mid ledger' : LedgerState}
    (hmid : ledger.applyAll txs engine currentHeight chainId = .ok mid)
    (h : mid.applied tx engine currentHeight chainId = .ok ledger') :
    ledger.applyAll (txs ++ [tx]) engine currentHeight chainId =
      .ok ledger' := by
  rw [applyAll, List.foldlM_append, bind_eq_ok]
  refine ⟨mid, hmid, ?_⟩
  rw [List.foldlM_cons, bind_eq_ok]
  exact ⟨ledger', h, rfl⟩

end

end LedgerState

/-! ## Retained transactions -/

namespace NodeRuntime

variable [Blake3] [Bincode]

section Retain

variable {engine : ScriptEngine} {height : UInt64} {chainId : UInt32}
  {committedTxIds : List Hash256} {simulated ledger : LedgerState}
  {txs kept : List Transaction}

/-- What one iteration of the reconciliation loop does. -/
theorem retain_cons {tx : Transaction}
    (h : retain engine height chainId committedTxIds simulated (tx :: txs) =
      .ok kept) :
    ∃ txId, tx.txId = some txId ∧
      ((txId ∈ committedTxIds ∧
          retain engine height chainId committedTxIds simulated txs =
            .ok kept) ∨
        (∃ err after, simulated.applyTransaction tx engine height chainId =
            (.error (.err err), after) ∧
          retain engine height chainId committedTxIds after txs = .ok kept) ∨
        (txId ∉ committedTxIds ∧ ∃ after rest,
          simulated.applyTransaction tx engine height chainId =
            (.ok (), after) ∧
          retain engine height chainId committedTxIds after txs = .ok rest ∧
          kept = tx :: rest)) := by
  rw [retain, bind_eq_ok] at h
  obtain ⟨txId, htxId, h⟩ := h
  refine ⟨txId, orPanic_eq_ok.mp htxId, ?_⟩
  split at h
  · rename_i hcommitted
    exact Or.inl ⟨hcommitted, h⟩
  · rename_i hnew
    split at h
    · rename_i after happly
      rw [bind_eq_ok] at h
      obtain ⟨rest, hrest, hkept⟩ := h
      exact Or.inr (Or.inr ⟨hnew, after, rest, happly, hrest,
        (pure_eq_ok.mp hkept).symm⟩)
    · rename_i err after happly
      exact Or.inr (Or.inl ⟨err, after, happly, h⟩)
    · simp at h

/-- The retained transactions replay on any ledger which the simulated one
shadows. -/
theorem retain_replays
    (h : retain engine height chainId committedTxIds simulated txs = .ok kept)
    (hshadow : simulated.Shadows ledger) :
    ∃ ledger', ledger.applyAll kept engine height chainId = .ok ledger' := by
  induction txs generalizing simulated ledger kept with
  | nil =>
      obtain rfl : [] = kept := Except.ok.inj h
      exact ⟨ledger, rfl⟩
  | cons tx txs ih =>
      obtain ⟨txId, -, ⟨-, hrest⟩ | ⟨err, after, happly, hrest⟩ |
        ⟨-, after, rest, happly, hrest, rfl⟩⟩ := retain_cons h
      · exact ih hrest hshadow
      · exact ih hrest
          ((LedgerState.shadows_of_applyTransaction_err happly).trans hshadow)
      · obtain ⟨mid, hmid, hshadow'⟩ := hshadow.applyTransaction happly
        obtain ⟨ledger', hledger'⟩ := ih hrest hshadow'
        exact ⟨ledger', LedgerState.applyAll_cons_eq_ok.mpr
          ⟨mid, hmid, hledger'⟩⟩

theorem retain_sublist
    (h : retain engine height chainId committedTxIds simulated txs =
      .ok kept) : kept.Sublist txs := by
  induction txs generalizing simulated kept with
  | nil =>
      obtain rfl : [] = kept := Except.ok.inj h
      exact List.Sublist.refl []
  | cons tx txs ih =>
      obtain ⟨txId, -, ⟨-, hrest⟩ | ⟨err, after, -, hrest⟩ |
        ⟨-, after, rest, -, hrest, rfl⟩⟩ := retain_cons h
      · exact (ih hrest).cons tx
      · exact (ih hrest).cons tx
      · exact (ih hrest).cons_cons tx

theorem retain_uncommitted
    (h : retain engine height chainId committedTxIds simulated txs = .ok kept)
    {tx : Transaction} (htx : tx ∈ kept) :
    ∃ txId, tx.txId = some txId ∧ txId ∉ committedTxIds := by
  induction txs generalizing simulated kept with
  | nil =>
      obtain rfl : [] = kept := Except.ok.inj h
      exact absurd htx List.not_mem_nil
  | cons first txs ih =>
      obtain ⟨txId, htxId, ⟨-, hrest⟩ | ⟨err, after, -, hrest⟩ |
        ⟨hnew, after, rest, -, hrest, rfl⟩⟩ := retain_cons h
      · exact ih hrest htx
      · exact ih hrest htx
      · rcases List.mem_cons.mp htx with rfl | hmem
        · exact ⟨txId, htxId, hnew⟩
        · exact ih hrest hmem

end Retain

variable [PqCrypto]

/-! ## The invariant -/

/-- The pending transactions replay, their ids are distinct, and none of them
is in the history. -/
structure MempoolValid (runtime : NodeRuntime) : Prop where
  replays : ∃ ledger, runtime.chain.ledger.applyAll
    runtime.pendingTransactions runtime.engine runtime.nextHeight
    runtime.chain.chainId = .ok ledger
  distinct : (runtime.pendingTransactions.map Transaction.txId).Nodup
  uncommitted : ∀ tx ∈ runtime.pendingTransactions, ∃ txId,
    tx.txId = some txId ∧ Avoids (committedTransactions runtime.blocks) txId

theorem mempoolValid_of_nil {runtime : NodeRuntime}
    (h : runtime.pendingTransactions = []) : runtime.MempoolValid where
  replays := ⟨runtime.chain.ledger, by rw [h]; rfl⟩
  distinct := by simp [h]
  uncommitted := by simp [h]

/-- The transactions of a valid block have ids. -/
theorem exists_txId_of_prepared {runtime : NodeRuntime} {block : Block}
    {next : ChainState × List Block}
    (hprepare : runtime.prepareBlock block = .ok next) {tx : Transaction}
    (htx : tx ∈ block.transactions) : ∃ txId, tx.txId = some txId := by
  have hvalid := validateReplayedBlock_eq_ok.mp
    (prepareBlock_eq_ok.mp hprepare).1
  obtain ⟨x, hx, -⟩ := Option.map_eq_some_iff.mp hvalid.txRoot
  obtain ⟨ids, hids, -⟩ := txRootPreimage_eq_some hx
  have hmem : tx.txId ∈ ids.map some := hids ▸ List.mem_map_of_mem htx
  obtain ⟨txId, -, htxId⟩ := List.mem_map.mp hmem
  exact ⟨txId, htxId.symm⟩

namespace MempoolValid

variable {runtime : NodeRuntime}

/-- The ids of the extended history can be listed unless nothing is
pending. -/
theorem txIds_of_prepared (h : runtime.MempoolValid)
    (hpending : runtime.pendingTransactions ≠ []) {block : Block}
    {nextChain : ChainState} {nextBlocks : List Block}
    (hprepare : runtime.prepareBlock block = .ok (nextChain, nextBlocks)) :
    ∃ ids, txIdsOf (committedTransactions nextBlocks) = some ids := by
  rw [exists_txIdsOf]
  intro tx htx
  obtain ⟨-, -, rfl⟩ := prepareBlock_eq_ok.mp hprepare
  rw [committedTransactions, List.flatMap_append, List.flatMap_singleton,
    List.mem_append] at htx
  rcases htx with hold | hnew
  · obtain ⟨pending, hmem⟩ := List.exists_mem_of_ne_nil _ hpending
    obtain ⟨txId, -, havoids⟩ := h.uncommitted pending hmem
    obtain ⟨other, hother, -⟩ := havoids tx hold
    exact ⟨other, hother⟩
  · exact exists_txId_of_prepared hprepare hnew

/-- Reconciling after a block keeps the mempool valid, and no retained
transaction is in the history. -/
theorem reconcile (h : runtime.MempoolValid) {block : Block}
    {nextChain : ChainState} {nextBlocks : List Block}
    (hprepare : runtime.prepareBlock block = .ok (nextChain, nextBlocks)) :
    (runtime.advance nextChain nextBlocks).reconcilePendingTransactions.2
        |>.MempoolValid := by
  unfold reconcilePendingTransactions
  split
  · rename_i hempty
    exact mempoolValid_of_nil hempty
  · rename_i hpending
    obtain ⟨ids, hids⟩ := h.txIds_of_prepared hpending hprepare
    change txIdsOf (committedTransactions
      (runtime.advance nextChain nextBlocks).blocks) = some ids at hids
    rw [hids]
    dsimp only
    split
    · rename_i kept hretain
      refine ⟨retain_replays hretain (LedgerState.Shadows.refl _), ?_, ?_⟩
      · exact h.distinct.sublist ((retain_sublist hretain).map _)
      · intro tx htx
        obtain ⟨txId, htxId, hnew⟩ := retain_uncommitted hretain htx
        refine ⟨txId, htxId, fun other hother => ?_⟩
        obtain ⟨otherId, hotherId⟩ := exists_txIdsOf.mp ⟨ids, hids⟩ other hother
        refine ⟨otherId, hotherId, ?_⟩
        rintro rfl
        exact hnew ((mem_of_txIdsOf hids).mpr ⟨other, hother, hotherId⟩)
    · exact mempoolValid_of_nil rfl

theorem applyBlock (h : runtime.MempoolValid) (block : Block)
    (saves : SaveOutcomes) :
    (runtime.applyBlock block saves).2.MempoolValid := by
  rcases runtime.applyBlock_cases block saves with ⟨abort, happly⟩ |
    ⟨nextChain, nextBlocks, hprepare, -, -, happly⟩
  · rwa [happly]
  · rw [happly]
    exact h.reconcile hprepare

/-- What an admission has checked. -/
theorem checkAdmission_acceptedNew {tx : Transaction} {txId : Hash256}
    (h : runtime.checkAdmission tx = .ok (.acceptedNew txId)) :
    tx.txId = some txId ∧
      Avoids (committedTransactions runtime.blocks) txId ∧
      Avoids runtime.pendingTransactions txId ∧
      ∃ mid ledger, runtime.chain.ledger.applyAll runtime.pendingTransactions
          runtime.engine runtime.nextHeight runtime.chain.chainId = .ok mid ∧
        mid.applied tx runtime.engine runtime.nextHeight
          runtime.chain.chainId = .ok ledger := by
  simp only [checkAdmission, bind_eq_ok, orPanic_eq_ok, require_eq_ok,
    Bool.not_eq_true] at h
  obtain ⟨id, hid, committed, hcommitted, -, rfl, already, halready, h⟩ := h
  split at h
  · simp at h
  · rename_i hnotPending
    rw [Bool.not_eq_true] at hnotPending
    subst hnotPending
    simp only [bind_eq_ok, mapErr_eq_ok, pure_eq_ok,
      TransactionAcceptStatus.acceptedNew.injEq] at h
    obtain ⟨mid, hmid, ledger, hledger, rfl⟩ := h
    exact ⟨hid, anyTxId_eq_false.mp hcommitted,
      anyTxId_eq_false.mp halready, mid, ledger, hmid, hledger⟩

theorem acceptTransaction (h : runtime.MempoolValid) (tx : Transaction) :
    (runtime.acceptTransaction tx).2.MempoolValid := by
  rcases runtime.acceptTransaction_cases tx with hsame |
    ⟨txId, hcheck, haccept⟩
  · rwa [hsame]
  · rw [haccept]
    obtain ⟨htxId, hcommitted, hpending, mid, ledger, hmid, hledger⟩ :=
      checkAdmission_acceptedNew hcheck
    refine ⟨⟨ledger, LedgerState.applyAll_append_singleton hmid hledger⟩,
      ?_, ?_⟩
    · rw [List.map_append, List.map_singleton, List.nodup_append]
      refine ⟨h.distinct, List.nodup_singleton _, ?_⟩
      intro id hid other hother
      rw [List.mem_singleton] at hother
      obtain ⟨pending, hmem, rfl⟩ := List.mem_map.mp hid
      obtain ⟨pendingId, hpendingId, hne⟩ := hpending pending hmem
      rw [hother, htxId, hpendingId]
      exact fun heq => hne (Option.some.inj heq)
    · intro other hother
      rcases List.mem_append.mp hother with hold | hnew
      · exact h.uncommitted other hold
      · rw [List.mem_singleton] at hnew
        exact ⟨txId, hnew ▸ htxId, hcommitted⟩

theorem perform (h : runtime.MempoolValid) (call : Call) :
    (runtime.perform call).MempoolValid := by
  cases call with
  | acceptTransaction tx => exact h.acceptTransaction tx
  | applyBlock block saves => exact h.applyBlock block saves
  | produceOneBlock clock entropy saves =>
      rcases runtime.produceOneBlock_cases clock entropy saves with
        ⟨-, hsame⟩ | ⟨block, -, -, hproduce⟩
      · rw [NodeRuntime.perform, hsame]
        exact h
      · rw [NodeRuntime.perform, hproduce]
        exact h.applyBlock block saves

end MempoolValid

/-! ## Consequences -/

omit [Blake3] [Bincode] [PqCrypto] in
theorem saturatingSucc_of_lt {n : UInt64} (h : n.toNat + 1 < 2 ^ 64) :
    saturatingSucc n = n + 1 :=
  if_pos h

theorem perform_scriptEngine (runtime : NodeRuntime) (call : Call) :
    (runtime.perform call).scriptEngine = runtime.scriptEngine := by
  rcases runtime.perform_chainStep call with ⟨pending, h⟩ |
    ⟨block, nextChain, nextBlocks, pending, -, h⟩
  · rw [h]
  · rw [h]
    rfl

theorem checkAdmission_ne_pendingInvalid {runtime : NodeRuntime}
    (h : runtime.MempoolValid) (tx : Transaction) (err : LedgerError) :
    runtime.checkAdmission tx ≠ .error (.err (.pendingInvalid err)) := by
  intro hcheck
  obtain ⟨ledger, hledger⟩ := h.replays
  simp only [checkAdmission, bind_eq_error, orPanic_eq_error,
    require_eq_error, hledger] at hcheck
  rcases hcheck with ⟨-, hpanic⟩ | ⟨txId, -, ⟨-, hpanic⟩ |
    ⟨committed, -, ⟨-, herr⟩ | ⟨-, -, ⟨-, hpanic⟩ | ⟨pending, -, hrest⟩⟩⟩⟩
  · cases hpanic
  · cases hpanic
  · cases herr
  · cases hpanic
  · split at hrest
    · exact pure_ne_error hrest
    · simp only [mapErr, bind_eq_error, reduceCtorEq, false_or] at hrest
      obtain ⟨mid, -, hadmit | ⟨after, -, hpure⟩⟩ := hrest
      · obtain ⟨other, -, herr⟩ := mapErr_eq_err.mp hadmit
        cases herr
      · exact pure_ne_error hpure

/-- A block which was produced takes all pending transactions with it. -/
theorem pendingTransactions_of_produced {runtime : NodeRuntime}
    {clock : Except String UInt64} {entropy : ℕ} {saves : SaveOutcomes}
    {produced : UInt64 × Block}
    (h : (runtime.produceOneBlock clock entropy saves).1 =
      .ok (some produced)) :
    (runtime.produceOneBlock clock entropy saves).2.pendingTransactions =
      [] := by
  rcases runtime.produceOneBlock_cases clock entropy saves with
    ⟨hnone, -⟩ | ⟨block, -, hpropose, hproduce⟩
  · exact absurd h (hnone produced)
  obtain ⟨-, htxs, -, -⟩ := proposeBlock_spec hpropose
  rw [hproduce] at h ⊢
  rcases runtime.applyBlock_cases block saves with ⟨abort, happly⟩ |
    ⟨nextChain, nextBlocks, hprepare, -, -, happly⟩
  · simp [happly, Except.map] at h
  obtain ⟨-, -, rfl⟩ := prepareBlock_eq_ok.mp hprepare
  rw [happly] at h ⊢
  revert h
  unfold reconcilePendingTransactions
  split
  · rename_i hempty
    exact fun _ => hempty
  split
  · simp [Except.map]
  rename_i ids hids
  split
  · rename_i kept hretain
    intro _
    -- Every pending transaction is in the block, hence committed.
    apply List.eq_nil_iff_forall_not_mem.mpr
    intro tx htx
    obtain ⟨txId, htxId, hnew⟩ := retain_uncommitted hretain htx
    have hpending : tx ∈ runtime.pendingTransactions :=
      (retain_sublist hretain).mem htx
    apply hnew
    refine (mem_of_txIdsOf hids).mpr ⟨tx, ?_, htxId⟩
    rw [advance, committedTransactions, List.flatMap_append,
      List.flatMap_singleton, htxs]
    exact List.mem_append_right _ hpending
  · simp [Except.map]

end NodeRuntime

/-- The mempool of every runtime reached from an empty one replays, is free of
duplicates and of committed transactions; the errors which say otherwise do not
occur, only an admission changes it in `accept_transaction`, and a produced
block empties it. -/
theorem mempool_valid [Blake3] [Bincode] [PqCrypto] {start : NodeRuntime}
    (hempty : start.pendingTransactions = [])
    (hengine : start.scriptEngine = VmConfig.default)
    (calls : List NodeRuntime.Call)
    (hheight : (start.performAll calls).chain.height.toNat + 1 < 2 ^ 64) :
    let runtime := start.performAll calls
    (∃ ledger, runtime.chain.ledger.applyAll runtime.pendingTransactions
      runtime.engine (runtime.chain.height + 1) runtime.chain.chainId =
        .ok ledger) ∧
      (runtime.pendingTransactions.map Transaction.txId).Nodup ∧
      (∀ tx ∈ runtime.pendingTransactions, ∃ txId, tx.txId = some txId ∧
        ∀ block ∈ runtime.blocks, ∀ other ∈ block.transactions,
          other.txId ≠ some txId) ∧
      (∀ tx err, (runtime.acceptTransaction tx).1 ≠
        .error (.err (.pendingInvalid err))) ∧
      (∀ clock entropy message, runtime.consensus.proposeBlock runtime.chain
        runtime.pendingTransactions clock entropy ≠
          .error (.err (.ledgerError message))) ∧
      (∀ tx, (∀ txId, (runtime.acceptTransaction tx).1 ≠
          .ok (.acceptedNew txId)) →
        (runtime.acceptTransaction tx).2 = runtime) ∧
      ∀ clock entropy saves produced,
        (runtime.produceOneBlock clock entropy saves).1 =
          .ok (some produced) →
        (runtime.produceOneBlock clock entropy
          saves).2.pendingTransactions = [] := by
  intro runtime
  have hvalid : runtime.MempoolValid := NodeRuntime.performAll_invariant
    NodeRuntime.MempoolValid (fun _ call h => h.perform call)
    (NodeRuntime.mempoolValid_of_nil hempty) calls
  have hdefault : runtime.scriptEngine = VmConfig.default :=
    NodeRuntime.performAll_invariant
      (fun runtime => runtime.scriptEngine = VmConfig.default)
      (fun runtime call h => (runtime.perform_scriptEngine call).trans h)
      hengine calls
  have hnext : runtime.nextHeight = runtime.chain.height + 1 :=
    NodeRuntime.saturatingSucc_of_lt hheight
  obtain ⟨ledger, hledger⟩ := hvalid.replays
  rw [hnext] at hledger
  refine ⟨⟨ledger, hledger⟩, hvalid.distinct, ?_, ?_, ?_, ?_, ?_⟩
  · intro tx htx
    obtain ⟨txId, htxId, havoids⟩ := hvalid.uncommitted tx htx
    refine ⟨txId, htxId, fun block hblock other hother hsame => ?_⟩
    obtain ⟨otherId, hotherId, hne⟩ := havoids other
      (List.mem_flatMap.mpr ⟨block, hblock, hother⟩)
    exact hne (Option.some.inj (hotherId.symm.trans hsame))
  · intro tx err h
    apply runtime.checkAdmission_ne_pendingInvalid hvalid tx err
    revert h
    unfold NodeRuntime.acceptTransaction
    split
    · simp
    · exact id
  · intro clock entropy message
    rw [NodeRuntime.engine, hdefault, ← defaultScriptEngine] at hledger
    exact proposeBlock_ne_ledgerError hledger message
  · intro tx hnot
    rcases runtime.acceptTransaction_cases tx with hsame |
      ⟨txId, -, haccept⟩
    · exact hsame
    · exact absurd (congrArg Prod.fst haccept) (hnot txId)
  · intro clock entropy saves produced hproduced
    exact NodeRuntime.pendingTransactions_of_produced hproduced

section Admission

open scoped StandIns

/-- A transaction without inputs and outputs. -/
def emptyTransfer : Transaction := ⟨⟨.transfer, [], []⟩, ⟨[]⟩⟩

theorem emptyTransfer_pending :
    ((StandIns.freshRuntime 1 []).performAll
      [.acceptTransaction emptyTransfer]).pendingTransactions =
        [emptyTransfer] := by
  decide +kernel

/-- Admit a transaction and one which spends its output. -/
def spendingCalls : List NodeRuntime.Call :=
  [.acceptTransaction (StandIns.openTransfer []),
    .acceptTransaction StandIns.openSpend]

theorem spendingCalls_pending :
    ((StandIns.freshRuntime 1 []).performAll
      spendingCalls).pendingTransactions = StandIns.spendingTxs := by
  decide +kernel

/-- Both replay at the next height. -/
theorem spendingCalls_mempool_valid :
    ∃ runtime, runtime =
        (StandIns.freshRuntime 1 []).performAll spendingCalls ∧
      runtime.pendingTransactions = StandIns.spendingTxs ∧
      ∃ ledger, runtime.chain.ledger.applyAll runtime.pendingTransactions
        runtime.engine (runtime.chain.height + 1) runtime.chain.chainId =
          .ok ledger := by
  have hempty : (StandIns.freshRuntime 1 []).pendingTransactions = [] := rfl
  have hheight : ((StandIns.freshRuntime 1 []).performAll
      spendingCalls).chain.height.toNat + 1 < 2 ^ 64 := by
    decide +kernel
  have hreplays := (mempool_valid hempty rfl spendingCalls hheight).1
  have hpending := spendingCalls_pending
  generalize (StandIns.freshRuntime 1 []).performAll spendingCalls = runtime
    at hreplays hpending ⊢
  exact ⟨runtime, rfl, hpending, hreplays⟩

end Admission

end QCoin
