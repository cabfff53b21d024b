import QCoin.Consensus.StandIns

/-!
# Reuse of UTXO keys

Block validation does not compare a transaction with earlier ones.  A
transaction with inputs cannot occur twice all the same, since its inputs are
gone; a transaction without inputs can, and then it overwrites its own outputs.
-/

namespace QCoin

open Support

section KeyReuse

variable [Blake3] [Bincode] {chainId : UInt32}

/-- The transactions of a chain. -/
def transactionsOf (blocks : List Block) : List Transaction :=
  blocks.flatMap fun block => block.transactions.reverse

/-- No transaction id and no UTXO key is used twice, and a spent output stays
spent. -/
structure KeysNeverReused (blocks : List Block)
    (steps : List (AppliedStep chainId)) (chain : ChainState) : Prop where
  ids_nodup : ((transactionsOf blocks).map Transaction.txId).Nodup
  inserted_once : (steps.flatMap AppliedStep.insertedKeys).Nodup
  no_overwrite : ∀ step ∈ steps, ∀ key ∈ step.insertedKeys,
    key ∉ step.before.utxos
  spent_before : steps.Pairwise fun later earlier =>
    ∀ key ∈ earlier.consumedKeys, key ∉ later.before.utxos
  spent_forever : ∀ step ∈ steps, ∀ key ∈ step.consumedKeys,
    key ∉ chain.ledger.utxos

/-- The ids of the transactions without inputs. -/
def inputlessIds (blocks : List Block) : List (Option Hash256) :=
  ((transactionsOf blocks).filter fun tx => tx.core.inputs = []).map
    Transaction.txId

variable {steps : List (AppliedStep chainId)} {ledger : LedgerState}

theorem TxIdsCollisionFree.attributed_univ (h : TxIdsCollisionFree steps) :
    utxoLog.Attributed Set.univ Set.univ (coresOf steps) where
  creator_unique _ hcore _ hcore' _ hkey hkey' :=
    h.creator_unique hcore hcore' hkey hkey'
  solid_of_marked _ _ _ _ _ := Set.mem_univ _

/-- A core which recurs spends a key, provided no core without inputs
recurs. -/
theorem grounded_univ
    (h : (steps.filter fun step => step.tx.core.inputs = []).Pairwise
      fun later earlier => later.tx.core ≠ earlier.tx.core) :
    utxoLog.Grounded Set.univ Set.univ (coresOf steps) := by
  induction steps with
  | nil => trivial
  | cons step steps ih =>
      have htail := h.sublist
        ((List.sublist_cons_self step steps).filter _)
      refine ⟨?_, ih htail⟩
      intro _ hrepeated
      cases hinputs : step.tx.core.inputs with
      | cons input inputs =>
          refine ⟨input.key, ?_, Set.mem_univ _⟩
          change input.key ∈ step.tx.core.inputs.map TransactionInput.key
          rw [hinputs]
          exact List.mem_cons_self
      | nil =>
          obtain ⟨earlier, hearlier, hcore⟩ := List.mem_map.mp hrepeated
          rw [List.filter_cons_of_pos (by simpa using hinputs),
            List.pairwise_cons] at h
          refine absurd hcore.symm (h.1 earlier (List.mem_filter.mpr
            ⟨hearlier, ?_⟩))
          rw [hcore]
          simpa using hinputs

/-- What a run without repeated input-less cores has in common with a log
without reuse. -/
theorem LedgerRun.noReuse (run : LedgerRun chainId steps ledger)
    (hids : TxIdsCollisionFree steps)
    (h : (steps.filter fun step => step.tx.core.inputs = []).Pairwise
      fun later earlier => later.tx.core ≠ earlier.tx.core) :
    utxoLog.NoReuse Set.univ Set.univ (coresOf steps) :=
  SpendLog.noReuse run.lawful hids.attributed_univ (grounded_univ h)

theorem cores_pairwise_of_noReuse
    (h : utxoLog.NoReuse Set.univ Set.univ (coresOf steps)) :
    steps.Pairwise fun later earlier =>
      later.tx.core ≠ earlier.tx.core := by
  have hcores := h.distinct
  rw [coresOf, List.pairwise_map] at hcores
  exact hcores.imp fun hne => hne (Set.mem_univ _)

/-- Keys inserted by steps with different cores differ. -/
theorem TxIdsCollisionFree.insertedKeys_disjoint
    (hids : TxIdsCollisionFree steps) {step step' : AppliedStep chainId}
    (hstep : step ∈ steps) (hstep' : step' ∈ steps)
    (hne : step.tx.core ≠ step'.tx.core) {key : UtxoKey}
    (hkey : key ∈ step.insertedKeys) : key ∉ step'.insertedKeys := by
  intro hkey'
  exact hne (hids.creator_unique (List.mem_map_of_mem hstep)
    (List.mem_map_of_mem hstep') (step.mem_creates_iff.mpr hkey)
    (step'.mem_creates_iff.mpr hkey'))

theorem insertedKeys_nodup_of_pairwise (hids : TxIdsCollisionFree steps)
    (h : steps.Pairwise fun later earlier =>
      later.tx.core ≠ earlier.tx.core) :
    (steps.flatMap AppliedStep.insertedKeys).Nodup := by
  rw [List.nodup_flatMap]
  refine ⟨fun step _ => step.insertedKeys_nodup, ?_⟩
  refine h.imp_of_mem ?_
  intro later earlier hlater hearlier hne
  exact fun key hkey hkey' =>
    hids.insertedKeys_disjoint hlater hearlier hne hkey hkey'

/-- No step of a run without reuse overwrites a stored output. -/
theorem LedgerRun.no_overwrite (run : LedgerRun chainId steps ledger)
    (hids : TxIdsCollisionFree steps)
    (h : steps.Pairwise fun later earlier =>
      later.tx.core ≠ earlier.tx.core) :
    ∀ step ∈ steps, ∀ key ∈ step.insertedKeys, key ∉ step.before.utxos := by
  induction run with
  | empty => exact fun step hstep => absurd hstep List.not_mem_nil
  | apply last run ih =>
      rw [List.pairwise_cons] at h
      intro step hstep key hkey hstored
      rcases List.mem_cons.mp hstep with rfl | hearlier
      · obtain ⟨tracked, hlookup⟩ := Finmap.mem_iff.mp hstored
        obtain ⟨origin, horigin, i, output, houtput, rfl, -⟩ :=
          run.provenance hlookup
        have horiginKey : (⟨origin.txId, UInt32.ofNat i⟩ : UtxoKey) ∈
            origin.insertedKeys :=
          mem_createdKeys.mpr
            ⟨i, (List.getElem?_eq_some_iff.mp houtput).1, rfl⟩
        exact hids.insertedKeys_disjoint List.mem_cons_self
          (List.mem_cons_of_mem _ horigin) (h.1 origin horigin) hkey
          horiginKey
      · exact ih hids.tail h.2 step hearlier key hkey hstored

/-- An output spent in the past is absent from every later ledger. -/
theorem LedgerRun.spent_absent (run : LedgerRun chainId steps ledger)
    (hids : TxIdsCollisionFree steps)
    (h : (steps.filter fun step => step.tx.core.inputs = []).Pairwise
      fun later earlier => later.tx.core ≠ earlier.tx.core) :
    (steps.Pairwise fun later earlier =>
      ∀ key ∈ earlier.consumedKeys, key ∉ later.before.utxos) ∧
    ∀ step ∈ steps, ∀ key ∈ step.consumedKeys, key ∉ ledger.utxos := by
  have hfinal : ∀ step ∈ steps, ∀ key ∈ step.consumedKeys,
      key ∉ ledger.utxos := by
    intro step hstep key hkey hstored
    exact (run.noReuse hids h).spent_absent step.tx.core
      (List.mem_map_of_mem hstep) key hkey (Set.mem_univ _)
      (run.mem_utxos_iff.mp hstored)
  refine ⟨?_, hfinal⟩
  induction run with
  | empty => exact List.Pairwise.nil
  | @apply steps last run ih =>
      have htail := h.sublist ((List.sublist_cons_self last steps).filter _)
      have hpast : ∀ step ∈ steps, ∀ key ∈ step.consumedKeys,
          key ∉ last.before.utxos := by
        intro step hstep key hkey hstored
        exact (run.noReuse hids.tail htail).spent_absent step.tx.core
          (List.mem_map_of_mem hstep) key hkey (Set.mem_univ _)
          (run.mem_utxos_iff.mp hstored)
      exact List.pairwise_cons.mpr ⟨hpast, ih hids.tail htail hpast⟩

/-! ## Chains -/

variable [PqCrypto] {blocks : List Block} {chain : ChainState}

theorem AcceptedChain.txIds_eq
    (accepted : AcceptedChain chainId blocks steps chain) :
    (transactionsOf blocks).map Transaction.txId =
      steps.map fun step => step.tx.core.txId := by
  rw [transactionsOf, ← accepted.run.2, List.map_map]
  rfl

theorem AcceptedChain.inputlessIds_eq
    (accepted : AcceptedChain chainId blocks steps chain) :
    inputlessIds blocks =
      (steps.filter fun step => step.tx.core.inputs = []).map fun step =>
        step.tx.core.txId := by
  rw [inputlessIds, transactionsOf, ← accepted.run.2, List.filter_map,
    List.map_map]
  rfl

/-- Keys are never reused exactly when no two transactions without inputs
have one id. -/
theorem keys_never_reused_iff
    (accepted : AcceptedChain chainId blocks steps chain)
    (hids : TxIdsCollisionFree steps) :
    KeysNeverReused blocks steps chain ↔ (inputlessIds blocks).Nodup := by
  constructor
  · intro h
    exact h.ids_nodup.sublist (List.filter_sublist.map Transaction.txId)
  · intro h
    rw [accepted.inputlessIds_eq, List.Nodup, List.pairwise_map] at h
    have hinputless := h.imp
      (S := fun later earlier : AppliedStep chainId =>
        later.tx.core ≠ earlier.tx.core)
      fun hne heq => hne (congrArg TransactionCore.txId heq)
    have run := accepted.run.1
    have hcores :=
      cores_pairwise_of_noReuse (run.noReuse hids hinputless)
    have hspent := run.spent_absent hids hinputless
    refine ⟨?_, insertedKeys_nodup_of_pairwise hids hcores,
      run.no_overwrite hids hcores, hspent.1, hspent.2⟩
    rw [accepted.txIds_eq, List.Nodup, List.pairwise_map]
    refine hcores.imp_of_mem ?_
    intro later earlier hlater hearlier hne heq
    have hmem : ∀ step ∈ steps, step.tx.core ∈ coresOf steps :=
      fun step hstep => List.mem_map_of_mem hstep
    exact hne (hids (hmem later hlater) (hmem earlier hearlier) heq)

end KeyReuse

/-! ## A repeated anchor -/

section Anchors

open scoped StandIns

/-- A transfer without inputs or assets which anchors a payload hash. -/
def anchorTransfer (payload : Hash256) : Transaction where
  core := ⟨.transfer, [], [⟨StandIns.nopScriptHash, [], some payload⟩]⟩
  witness := ⟨[]⟩

def anchorId (payload : Hash256) : Hash256 :=
  (anchorTransfer payload).txId.getD default

/-- Every ledger accepts an anchor, at any time. -/
theorem anchorTransfer_applies (payload : Hash256) (ledger : LedgerState)
    (engine : ScriptEngine) (currentHeight : UInt64) (chainId : UInt32) :
    ledger.applyTransaction (anchorTransfer payload) engine currentHeight
        chainId =
      (.ok (), ledger.afterCore (anchorTransfer payload).core
        (anchorId payload) currentHeight chainId) := by
  have haccepts : ledger.Accepts (anchorTransfer payload) engine
      currentHeight chainId := {
    inputsDistinct := List.nodup_nil
    unlocked := by
      intro entry hentry
      simp [anchorTransfer] at hentry
    creation := by
      intro created hcreated
      simp [anchorTransfer, TransactionKind.createdAsset] at hcreated
    conserved := fun id _ => rfl }
  exact LedgerState.applyTransaction_eq_ok.mpr ⟨haccepts, _, rfl, rfl⟩

/-- The ledger after a list of anchors in one block. -/
def anchorLedger (ledger : LedgerState) (payloads : List Hash256)
    (currentHeight : UInt64) (chainId : UInt32) : LedgerState :=
  payloads.foldl (fun ledger payload =>
    ledger.afterCore (anchorTransfer payload).core (anchorId payload)
      currentHeight chainId) ledger

theorem anchors_applyAll (payloads : List Hash256) (ledger : LedgerState)
    (engine : ScriptEngine) (currentHeight : UInt64) (chainId : UInt32) :
    ledger.applyAll (payloads.map anchorTransfer) engine currentHeight
        chainId =
      .ok (anchorLedger ledger payloads currentHeight chainId) := by
  induction payloads generalizing ledger with
  | nil => rfl
  | cons payload payloads ih =>
      exact LedgerState.applyAll_cons_eq_ok.mpr
        ⟨_, anchorTransfer_applies payload ledger engine currentHeight
          chainId, ih _⟩

/-- One sealed block of anchors on the default chain state is accepted. -/
theorem anchorBlock_accepted (payloads : List Hash256)
    (hroot : (anchorLedger LedgerState.empty payloads 1 0).stateRoot.isSome =
      true)
    (htxs : (computeTxRoot (payloads.map anchorTransfer)).isSome = true) :
    ∃ (block : Block) (steps : List (AppliedStep 0)) (chain : ChainState),
      block.transactions = payloads.map anchorTransfer ∧
      AcceptedChain 0 [block] steps chain := by
  obtain ⟨stateRoot, hstateRoot⟩ := Option.isSome_iff_exists.mp hroot
  obtain ⟨txRoot, htxRoot⟩ := Option.isSome_iff_exists.mp htxs
  have hheight : (defaultChainStateWithId 0).height + 1 = 1 := rfl
  have hledger : (defaultChainStateWithId 0).ledger.applyAll
      (payloads.map anchorTransfer) defaultScriptEngine
      ((defaultChainStateWithId 0).height + 1)
      (defaultChainStateWithId 0).chainId =
        .ok (anchorLedger LedgerState.empty payloads 1 0) := by
    rw [hheight]
    exact anchors_applyAll payloads LedgerState.empty _ 1 0
  have hvalid := StandIns.sealBlock_valid 1 1 [] hledger hstateRoot htxRoot
    (by decide) (by simp)
  obtain ⟨chain, happlied⟩ :=
    StandIns.sealBlock_applies 1 txRoot 1 hledger hstateRoot
  exact ⟨_, _, chain, rfl, AcceptedChain.extend AcceptedChain.genesis
    (validateReplayedBlock_eq_ok.mpr hvalid) happlied⟩

/-- Two different anchors in one block do not share a key. -/
theorem distinct_anchors_never_reuse :
    ∃ (blocks : List Block) (steps : List (AppliedStep 0))
      (chain : ChainState), AcceptedChain 0 blocks steps chain ∧
      transactionsOf blocks =
        [anchorTransfer (Hash256.fill 1), anchorTransfer (Hash256.fill 2)] ∧
      KeysNeverReused blocks steps chain := by
  obtain ⟨block, steps, chain, htxs, accepted⟩ := anchorBlock_accepted
    [Hash256.fill 2, Hash256.fill 1] (by decide +kernel) (by decide +kernel)
  have htransactions : transactionsOf [block] =
      [anchorTransfer (Hash256.fill 1), anchorTransfer (Hash256.fill 2)] := by
    simp [transactionsOf, htxs]
  have hne : (anchorTransfer (Hash256.fill 1)).core.txId ≠
      (anchorTransfer (Hash256.fill 2)).core.txId := by
    decide +kernel
  have hids : TxIdsCollisionFree steps := by
    have hcores : coresOf steps = [(anchorTransfer (Hash256.fill 1)).core,
        (anchorTransfer (Hash256.fill 2)).core] := by
      have htx := accepted.run.2
      rw [← transactionsOf, htransactions] at htx
      rw [coresOf, ← Function.comp_def Transaction.core, ← List.map_map, htx]
      rfl
    intro core hcore core' hcore' heq
    simp only [Set.mem_ofPred_eq, hcores, List.mem_pair] at hcore hcore'
    rcases hcore with rfl | rfl <;> rcases hcore' with rfl | rfl
    · rfl
    · exact absurd heq hne
    · exact absurd heq.symm hne
    · rfl
  refine ⟨[block], steps, chain, accepted, htransactions,
    (keys_never_reused_iff accepted hids).mpr ?_⟩
  rw [inputlessIds, htransactions]
  exact List.nodup_cons.mpr ⟨fun hmem => hne (List.mem_singleton.mp hmem),
    List.nodup_singleton _⟩

/-- A block may contain the same anchor twice; the second one overwrites the
output of the first. -/
theorem repeated_anchor_reuses_keys :
    ¬∀ (blocks : List Block) (steps : List (AppliedStep 0))
      (chain : ChainState), AcceptedChain 0 blocks steps chain →
      TxIdsCollisionFree steps → KeysNeverReused blocks steps chain := by
  intro hclaim
  obtain ⟨block, steps, chain, htxs, accepted⟩ := anchorBlock_accepted
    [Hash256.fill 1, Hash256.fill 1] (by decide +kernel) (by decide +kernel)
  have htransactions : transactionsOf [block] =
      [anchorTransfer (Hash256.fill 1), anchorTransfer (Hash256.fill 1)] := by
    simp [transactionsOf, htxs]
  have hids : TxIdsCollisionFree steps := by
    have hsingle : ∀ core ∈ coresOf steps,
        core = (anchorTransfer (Hash256.fill 1)).core := by
      intro core hcore
      obtain ⟨step, hstep, rfl⟩ := List.mem_map.mp hcore
      have htx := List.mem_map_of_mem (f := AppliedStep.tx) hstep
      rw [accepted.run.2, ← transactionsOf, htransactions] at htx
      rcases List.mem_pair.mp htx with h | h <;> rw [h]
    intro core hcore core' hcore' _
    rw [hsingle core hcore, hsingle core' hcore']
  have hnodup := (hclaim [block] steps chain accepted hids).ids_nodup
  rw [htransactions] at hnodup
  exact absurd hnodup (by simp)

end Anchors

end QCoin
