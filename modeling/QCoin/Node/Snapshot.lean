import QCoin.Node.IterationOrder

/-!
# Snapshots

`into_chain_state` restores what `PersistedChainState::from` lists.  It refuses
the listings in which a key occurs twice and takes the others in any order.
-/

namespace QCoin

open Support
open Support.Result

namespace PersistedChainState

/-- The key of an output or of an asset occurs twice. -/
def HasDuplicate (snapshot : PersistedChainState) : Prop :=
  ¬(snapshot.ledger.utxos.map PersistedUtxoEntry.key).Nodup ∨
    ¬(snapshot.ledger.assets.map PersistedAssetEntry.assetId).Nodup

/-- The snapshot with its outputs sorted by transaction id and index, and its
assets sorted by id. -/
def sorted (snapshot : PersistedChainState) : PersistedChainState :=
  { snapshot with
    ledger := {
      utxos := sortBy (fun left right => left.key.cmp right.key)
        snapshot.ledger.utxos
      assets := sortBy (fun left right => left.assetId.cmp right.assetId)
        snapshot.ledger.assets } }

/-- Insertion of fresh entries stops at the first key which is there
already. -/
theorem foldlM_insertFresh_error {κ ν : Type} [DecidableEq κ]
    {error : κ → String} {m : FinMap κ ν} {entries : List (κ × ν)}
    (h : ¬((entries.map Prod.fst).Nodup ∧
      ∀ k ∈ entries.map Prod.fst, k ∉ m)) :
    ∃ k, entries.foldlM (insertFresh error) m = .error (.err (error k)) := by
  induction entries generalizing m with
  | nil =>
      refine absurd ⟨List.nodup_nil, fun k hk => ?_⟩ h
      exact absurd hk List.not_mem_nil
  | cons entry entries ih =>
      by_cases hmem : entry.1 ∈ m
      · refine ⟨entry.1, ?_⟩
        rw [List.foldlM_cons, bind_eq_error]
        left
        rw [insertFresh, bind_eq_error]
        exact Or.inl (require_eq_error.mpr ⟨fun hnot => hnot hmem, rfl⟩)
      · have hrest : ¬((entries.map Prod.fst).Nodup ∧
            ∀ k ∈ entries.map Prod.fst, k ∉ m.insert entry.1 entry.2) := by
          rintro ⟨hnodup, hfresh⟩
          apply h
          rw [List.map_cons, List.nodup_cons, List.forall_mem_cons]
          refine ⟨⟨fun hk => ?_, hnodup⟩, hmem, fun k hk hkm => ?_⟩
          · exact hfresh _ hk (Finmap.mem_insert.mpr (Or.inl rfl))
          · exact hfresh k hk (Finmap.mem_insert.mpr (Or.inr hkm))
        obtain ⟨k, hk⟩ := ih hrest
        refine ⟨k, ?_⟩
        rw [List.foldlM_cons, bind_eq_error]
        right
        refine ⟨m.insert entry.1 entry.2, ?_, hk⟩
        rw [insertFresh, bind_eq_ok]
        exact ⟨(), require_eq_ok.mpr hmem, rfl⟩

theorem foldlM_insertFresh_cases {κ ν : Type} [DecidableEq κ]
    (error : κ → String) (entries : List (κ × ν)) :
    ((entries.map Prod.fst).Nodup ∧
      ∃ m, entries.foldlM (insertFresh error) ∅ = .ok m) ∨
    (¬(entries.map Prod.fst).Nodup ∧
      ∃ k, entries.foldlM (insertFresh error) ∅ = .error (.err (error k))) := by
  by_cases hnodup : (entries.map Prod.fst).Nodup
  · exact Or.inl ⟨hnodup, _,
      foldlM_insertFresh hnodup fun _ _ => Finmap.notMem_empty⟩
  · exact Or.inr ⟨hnodup, foldlM_insertFresh_error fun h => hnodup h.1⟩

variable {snapshot : PersistedChainState}

/-- The restored chain state has the fields of the snapshot and the maps of
its entries. -/
theorem intoChainState_eq_ok {chain : ChainState} :
    snapshot.intoChainState = .ok chain ↔
      ∃ utxos assets,
        (snapshot.ledger.utxos.map fun entry =>
          (entry.key, entry.trackedOutput)).foldlM
            (insertFresh duplicateUtxo) ∅ = .ok utxos ∧
        (snapshot.ledger.assets.map fun entry =>
          (entry.assetId, entry.definition)).foldlM
            (insertFresh duplicateAsset) ∅ = .ok assets ∧
        chain = {
          ledger := ⟨utxos, assets⟩
          height := snapshot.height
          tipHash := snapshot.tipHash
          stateRoot := snapshot.stateRoot
          lastTimestamp := snapshot.lastTimestamp
          chainId := snapshot.chainId } := by
  simp only [intoChainState, bind_eq_ok, pure_eq_ok]
  constructor
  · rintro ⟨utxos, hutxos, assets, hassets, rfl⟩
    exact ⟨utxos, assets, hutxos, hassets, rfl⟩
  · rintro ⟨utxos, assets, hutxos, hassets, rfl⟩
    exact ⟨utxos, hutxos, assets, hassets, rfl⟩

theorem restored_of_nodup (h : ¬snapshot.HasDuplicate) :
    ∃ chain, snapshot.intoChainState = .ok chain ∧
      fromChainState chain = snapshot.sorted := by
  rw [HasDuplicate, not_or, not_not, not_not] at h
  have hutxos : ((snapshot.ledger.utxos.map fun entry =>
      (entry.key, entry.trackedOutput)).map Prod.fst).Nodup := by
    rw [List.map_map]
    exact h.1
  have hassets : ((snapshot.ledger.assets.map fun entry =>
      (entry.assetId, entry.definition)).map Prod.fst).Nodup := by
    rw [List.map_map]
    exact h.2
  refine ⟨_, intoChainState_eq_ok.mpr ⟨_, _,
    foldlM_insertFresh hutxos fun _ _ => Finmap.notMem_empty,
    foldlM_insertFresh hassets fun _ _ => Finmap.notMem_empty, rfl⟩, ?_⟩
  rw [fromChainState, sorted]
  simp only [
    ← sortBy_eq_sortedEntries_insertAll UtxoKey.isLE_cmp hutxos,
    ← sortBy_eq_sortedEntries_insertAll AssetId.isLE_cmp hassets,
    sortBy_map, List.map_map, Function.comp_def, List.map_id']

theorem error_of_duplicate (h : snapshot.HasDuplicate) :
    ∃ message, snapshot.intoChainState = .error (.err message) := by
  have hutxos := foldlM_insertFresh_cases duplicateUtxo
    (snapshot.ledger.utxos.map fun entry => (entry.key, entry.trackedOutput))
  have hassets := foldlM_insertFresh_cases duplicateAsset
    (snapshot.ledger.assets.map fun entry =>
      (entry.assetId, entry.definition))
  rw [List.map_map] at hutxos hassets
  rw [intoChainState]
  rcases hutxos with ⟨hnodup, utxos, hloop⟩ | ⟨-, key, hloop⟩
  · rcases hassets with ⟨hnodup', -⟩ | ⟨-, id, hloop'⟩
    · exact absurd h (not_or.mpr ⟨not_not.mpr hnodup, not_not.mpr hnodup'⟩)
    · refine ⟨duplicateAsset id, ?_⟩
      rw [hloop, bind_eq_error]
      right
      refine ⟨utxos, rfl, ?_⟩
      rw [hloop', bind_eq_error]
      exact Or.inl rfl
  · refine ⟨duplicateUtxo key, ?_⟩
    rw [hloop, bind_eq_error]
    exact Or.inl rfl

/-- Snapshots of a chain state restore it.  A snapshot from elsewhere is
refused exactly when it lists a key twice, and is otherwise the listing of
what it restores but for its order. -/
theorem snapshots_round_trip :
    (∀ chain, (fromChainState chain).intoChainState = .ok chain) ∧
    ∀ snapshot : PersistedChainState,
      ((∃ message, snapshot.intoChainState = .error (.err message)) ↔
        snapshot.HasDuplicate) ∧
      (¬snapshot.HasDuplicate → ∃ chain, snapshot.intoChainState = .ok chain ∧
        fromChainState chain = snapshot.sorted) := by
  refine ⟨intoChainState_fromChainState, fun snapshot => ⟨⟨?_, ?_⟩, ?_⟩⟩
  · rintro ⟨message, herror⟩
    by_contra hnot
    obtain ⟨chain, hok, -⟩ := restored_of_nodup hnot
    rw [hok] at herror
    cases herror
  · exact error_of_duplicate
  · exact restored_of_nodup

end PersistedChainState

end QCoin
