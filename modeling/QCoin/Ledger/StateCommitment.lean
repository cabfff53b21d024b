import QCoin.Ledger.State

/-!
# What the state root commits to

`state_root` hashes the outputs and then the assets, with neither a count nor
a tag between the two sections.  Equal streams therefore belong to equal
ledgers unless one of the two asset sections starts like a run of outputs.
-/

namespace QCoin

open Support

/-! ## The entries -/

theorem encodeUtxoEntry_selfDelimiting :
    SelfDelimiting LedgerState.encodeUtxoEntry := by
  have hfields := (encodeHash_selfDelimiting.append u32_selfDelimiting).append
    (encodeOutput_selfDelimiting.append u64_selfDelimiting)
  refine hfields.comap (f := fun entry : UtxoKey × TrackedOutput =>
    ((entry.1.txId, entry.1.index),
      (entry.2.output, entry.2.createdHeight))) ?_
  rintro ⟨⟨txId, index⟩, ⟨output, height⟩⟩
    ⟨⟨txId', index'⟩, ⟨output', height'⟩⟩ h
  simp only [Prod.mk.injEq] at h
  obtain ⟨⟨rfl, rfl⟩, rfl, rfl⟩ := h
  rfl

theorem encodeAssetEntry_selfDelimiting :
    SelfDelimiting fun entry => some (LedgerState.encodeAssetEntry entry) := by
  have hfields := encodeHash_selfDelimiting.append
    encodeAssetDefinition_selfDelimiting
  refine hfields.comap
    (f := fun entry : AssetId × AssetDefinition => (entry.1.hash, entry.2)) ?_
  rintro ⟨⟨hash⟩, definition⟩ ⟨⟨hash'⟩, definition'⟩ h
  simpa using h

theorem encodeAssetEntries_uniquelyEncoded : UniquelyEncoded
    (encodeAll fun entry => some (LedgerState.encodeAssetEntry entry)) := by
  apply encodeAssetEntry_selfDelimiting.encodeAll_uniquelyEncoded
  intro entry hnil
  have hlength := congrArg List.length (Option.some.inj hnil)
  rw [LedgerState.encodeAssetEntry, List.length_append, encodeHash,
    entry.1.hash.size, List.length_nil] at hlength
  omega

/-- Over one UTXO set, the preimage determines the registered assets. -/
theorem assets_eq_of_stateRootPreimage_eq {ledger ledger' : LedgerState}
    (hutxos : ledger.utxos = ledger'.utxos) {x : Bytes}
    (h : ledger.stateRootPreimage = some x)
    (h' : ledger'.stateRootPreimage = some x) :
    ledger.assets = ledger'.assets := by
  obtain ⟨u, a, hu, ha, rfl⟩ := encodeAppend_eq_some.mp h
  obtain ⟨u', a', hu', ha', heq⟩ := encodeAppend_eq_some.mp h'
  rw [hutxos, hu', Option.some.injEq] at hu
  rw [hu, List.append_cancel_left_eq] at heq
  rw [heq] at ha'
  exact FinMap.sortedEntries_injective
    (encodeAssetEntries_uniquelyEncoded ha ha')

namespace LedgerState

/-- The part of the stream which lists the assets. -/
def assetSection (ledger : LedgerState) : Option Bytes :=
  encodeAll (fun entry => some (encodeAssetEntry entry))
    (FinMap.sortedEntries ledger.assets)

/-- The second ledger has further outputs, behind all those of the first, and
the assets of the first read like these outputs followed by the assets of the
second. -/
def Rereads (ledger ledger' : LedgerState) : Prop :=
  ∃ extra, extra ≠ [] ∧
    FinMap.sortedEntries ledger'.utxos =
      FinMap.sortedEntries ledger.utxos ++ extra ∧
    ledger.assetSection =
      encodeAppend (encodeAll encodeUtxoEntry extra) ledger'.assetSection

variable {ledger ledger' : LedgerState} {x : Bytes}

theorem Rereads.stateRootPreimage_eq (h : ledger.Rereads ledger') :
    ledger'.stateRootPreimage = ledger.stateRootPreimage := by
  obtain ⟨extra, -, hutxos, hassets⟩ := h
  calc
    ledger'.stateRootPreimage =
        encodeAppend (encodeAppend
          (encodeAll encodeUtxoEntry (FinMap.sortedEntries ledger.utxos))
          (encodeAll encodeUtxoEntry extra)) ledger'.assetSection := by
      rw [stateRootPreimage, hutxos, encodeAll_append]
      rfl
    _ = encodeAppend
          (encodeAll encodeUtxoEntry (FinMap.sortedEntries ledger.utxos))
          ledger.assetSection := by
      rw [encodeAppend_assoc, ← hassets]

theorem Rereads.utxos_ne (h : ledger.Rereads ledger') :
    ledger.utxos ≠ ledger'.utxos := by
  obtain ⟨extra, hextra, hutxos, -⟩ := h
  intro heq
  rw [heq, List.self_eq_append_right] at hutxos
  exact hextra hutxos

/-- Outputs behind those of the other ledger are a rereading, unless there are
none of them. -/
theorem eq_or_rereads {extra : List (UtxoKey × TrackedOutput)}
    (h : ledger.stateRootPreimage = some x)
    (h' : ledger'.stateRootPreimage = some x)
    (hutxos : FinMap.sortedEntries ledger'.utxos =
      FinMap.sortedEntries ledger.utxos ++ extra)
    (hassets : ledger.assetSection =
      encodeAppend (encodeAll encodeUtxoEntry extra) ledger'.assetSection) :
    ledger = ledger' ∨ ledger.Rereads ledger' := by
  by_cases hnil : extra = []
  · left
    rw [hnil, List.append_nil] at hutxos
    have heq := (FinMap.sortedEntries_injective hutxos).symm
    exact eq_of_maps_eq heq (assets_eq_of_stateRootPreimage_eq heq h h')
  · exact Or.inr ⟨extra, hnil, hutxos, hassets⟩

/-- Ledgers with one stream are equal, or one of them rereads as the other. -/
theorem stateRootPreimage_cases (h : ledger.stateRootPreimage = some x)
    (h' : ledger'.stateRootPreimage = some x) :
    ledger = ledger' ∨ ledger.Rereads ledger' ∨ ledger'.Rereads ledger := by
  obtain ⟨u, a, hu, ha, rfl⟩ := encodeAppend_eq_some.mp h
  obtain ⟨u', a', hu', ha', heq⟩ := encodeAppend_eq_some.mp h'
  rcases encodeUtxoEntry_selfDelimiting.encodeAll_cases hu hu' heq.symm with
    ⟨extra, z, hextra, hz, htail⟩ | ⟨extra, z, hextra, hz, htail⟩
  · have hassets : ledger.assetSection = encodeAppend
        (encodeAll encodeUtxoEntry extra) ledger'.assetSection := by
      rw [assetSection, assetSection, ha, hz, ha']
      exact congrArg some htail
    rcases eq_or_rereads h h' hextra hassets with hsame | hrereads
    · exact Or.inl hsame
    · exact Or.inr (Or.inl hrereads)
  · have hassets : ledger'.assetSection = encodeAppend
        (encodeAll encodeUtxoEntry extra) ledger.assetSection := by
      rw [assetSection, assetSection, ha, hz, ha']
      exact congrArg some htail
    rcases eq_or_rereads h' h hextra hassets with hsame | hrereads
    · exact Or.inl hsame.symm
    · exact Or.inr (Or.inr hrereads)

/-- The stream which is hashed determines the ledger exactly when neither of
the two ledgers rereads as the other. -/
theorem stateRoot_commits_iff {x' : Bytes}
    (h : ledger.stateRootPreimage = some x)
    (h' : ledger'.stateRootPreimage = some x') :
    (x = x' → ledger.utxos = ledger'.utxos ∧ ledger.assets = ledger'.assets) ↔
      ¬ledger.Rereads ledger' ∧ ¬ledger'.Rereads ledger := by
  constructor
  · intro hcommits
    constructor
    · intro hrereads
      rw [hrereads.stateRootPreimage_eq, h, Option.some.injEq] at h'
      exact hrereads.utxos_ne (hcommits h').1
    · intro hrereads
      rw [hrereads.stateRootPreimage_eq, h', Option.some.injEq] at h
      exact hrereads.utxos_ne (hcommits h.symm).1.symm
  · rintro ⟨hnot, hnot'⟩ rfl
    rcases stateRootPreimage_cases h h' with rfl | hrereads | hrereads
    · exact ⟨rfl, rfl⟩
    · exact absurd hrereads hnot
    · exact absurd hrereads hnot'

end LedgerState

/-! ## Few assets -/

theorem encodeAssetEntry_length (entry : AssetId × AssetDefinition) :
    (LedgerState.encodeAssetEntry entry).length = 99 ∨
      (LedgerState.encodeAssetEntry entry).length = 99 + 16 := by
  obtain ⟨⟨id⟩, ⟨issuer, root, maxSupply, decimals, kind⟩⟩ := entry
  cases maxSupply with
  | none =>
      left
      simp [LedgerState.encodeAssetEntry, encodeAssetDefinition, encodeHash,
        encodeMaxSupply, id.size, issuer.size, root.size]
  | some max =>
      right
      simp [LedgerState.encodeAssetEntry, encodeAssetDefinition, encodeHash,
        encodeMaxSupply, id.size, issuer.size, root.size]

theorem encodeAssetEntries_length {entries : List (AssetId × AssetDefinition)}
    {x : Bytes} (h : encodeAll (fun entry =>
      some (LedgerState.encodeAssetEntry entry)) entries = some x) :
    ∃ m ≤ entries.length, x.length = 99 * entries.length + 16 * m := by
  induction entries generalizing x with
  | nil =>
      rw [← Option.some.inj h]
      exact ⟨0, le_rfl, rfl⟩
  | cons entry entries ih =>
      obtain ⟨first, rest, hfirst, hrest, rfl⟩ := encodeAppend_eq_some.mp h
      obtain ⟨m, hm, hlength⟩ := ih hrest
      rw [List.length_append, hlength, ← Option.some.inj hfirst,
        List.length_cons]
      rcases encodeAssetEntry_length entry with hentry | hentry
      · exact ⟨m, by omega, by omega⟩
      · exact ⟨m + 1, by omega, by omega⟩

theorem encodeAssetAmounts_length {assets : List AssetAmount} {x : Bytes}
    (h : encodeAll (fun asset => some (encodeAssetAmount asset)) assets =
      some x) : x.length = 48 * assets.length := by
  induction assets generalizing x with
  | nil =>
      rw [← Option.some.inj h]
      rfl
  | cons asset assets ih =>
      obtain ⟨first, rest, hfirst, hrest, rfl⟩ := encodeAppend_eq_some.mp h
      rw [List.length_append, ih hrest, ← Option.some.inj hfirst,
        encodeAssetAmount, List.length_append, length_leBytes, encodeHash,
        asset.assetId.hash.size, List.length_cons]
      omega

theorem encodeOutput_length {output : Output} {x : Bytes}
    (h : encodeOutput output = some x) : ∃ n, x.length = 37 + 16 * n := by
  obtain ⟨owner, fields, howner, hfields, rfl⟩ := encodeAppend_eq_some.mp h
  obtain ⟨vec, metadata, hvec, hmetadata, rfl⟩ :=
    encodeAppend_eq_some.mp hfields
  obtain ⟨len, assets, hlen, hassets, rfl⟩ := encodeAppend_eq_some.mp hvec
  have hlenLength : len.length = 4 := by
    rw [← (encodeLen_eq_some.mp hlen).2, length_leBytes]
  simp only [List.length_append, ← Option.some.inj howner, encodeHash,
    output.ownerScriptHash.size, hlenLength,
    encodeAssetAmounts_length hassets]
  cases hmeta : output.metadataHash with
  | none =>
      rw [hmeta] at hmetadata
      obtain rfl := Option.some.inj hmetadata
      exact ⟨3 * output.assets.length, by simp; omega⟩
  | some hash =>
      rw [hmeta] at hmetadata
      obtain rfl := Option.some.inj hmetadata
      refine ⟨3 * output.assets.length + 2, ?_⟩
      simp only [List.singleton_append, List.length_cons, encodeHash,
        hash.size]
      omega

theorem encodeUtxoEntries_length {entries : List (UtxoKey × TrackedOutput)}
    {x : Bytes} (h : encodeAll LedgerState.encodeUtxoEntry entries = some x) :
    ∃ n, x.length = 81 * entries.length + 16 * n := by
  induction entries generalizing x with
  | nil =>
      rw [← Option.some.inj h]
      exact ⟨0, rfl⟩
  | cons entry entries ih =>
      obtain ⟨first, rest, hfirst, hrest, rfl⟩ := encodeAppend_eq_some.mp h
      obtain ⟨key, fields, hkey, hfields, rfl⟩ :=
        encodeAppend_eq_some.mp hfirst
      obtain ⟨output, height, houtput, hheight, rfl⟩ :=
        encodeAppend_eq_some.mp hfields
      obtain ⟨n, hn⟩ := ih hrest
      obtain ⟨m, hm⟩ := encodeOutput_length houtput
      refine ⟨n + m, ?_⟩
      simp only [List.length_append, ← Option.some.inj hkey,
        ← Option.some.inj hheight, encodeHash, entry.1.txId.size,
        length_leBytes, hn, hm, List.length_cons]
      omega

/-- Five assets are too short to read like outputs and further assets. -/
theorem not_rereads_of_few_assets {ledger ledger' : LedgerState} {x : Bytes}
    (hfew : ledger.assets.keys.card ≤ 5)
    (h' : ledger'.stateRootPreimage = some x) : ¬ledger.Rereads ledger' := by
  rintro ⟨extra, hextra, hutxos, hassets⟩
  obtain ⟨u', a', hu', ha', -⟩ := encodeAppend_eq_some.mp h'
  rw [hutxos, encodeAll_append] at hu'
  obtain ⟨u, z, -, hz, -⟩ := encodeAppend_eq_some.mp hu'
  rw [LedgerState.assetSection, LedgerState.assetSection, hz, ha'] at hassets
  obtain ⟨m, hm, hlength⟩ := encodeAssetEntries_length hassets
  obtain ⟨m', hm', hlength'⟩ := encodeAssetEntries_length ha'
  obtain ⟨n, hn⟩ := encodeUtxoEntries_length hz
  have hpos : 0 < extra.length := List.length_pos_iff.mpr hextra
  have hcount := FinMap.length_sortedEntries ledger.assets
  rw [List.length_append, hlength', hn] at hlength
  generalize (FinMap.sortedEntries ledger.assets).length = k at *
  generalize (FinMap.sortedEntries ledger'.assets).length = j at *
  have hlt : j < k := by omega
  obtain ⟨d, rfl⟩ := Nat.exists_eq_add_of_le hlt.le
  -- Modulo sixteen an asset counts three bytes and an output one.
  have hmod : extra.length % 16 = 3 * d := by omega
  have hle : 3 * d ≤ extra.length := by omega
  omega

/-! ## Six assets which read like two outputs -/

section Example

/-- Zeros but for one byte. -/
def markedHash (i : ℕ) (b : UInt8) : Hash256 where
  bytes := (List.replicate 32 0).set i b
  size := by simp

def plainDefinition (issuer : Hash256) : AssetDefinition where
  issuerScriptHash := issuer
  metadataRoot := Hash256.fill 0
  maxSupply := none
  decimals := 0
  kind := .fungible

def sixAssets : List (AssetId × AssetDefinition) :=
  [(⟨markedHash 0 0⟩, plainDefinition (Hash256.fill 0)),
    (⟨markedHash 0 1⟩, plainDefinition (markedHash 18 9)),
    (⟨markedHash 0 2⟩, plainDefinition (Hash256.fill 0)),
    (⟨markedHash 0 3⟩, plainDefinition (Hash256.fill 0)),
    (⟨markedHash 0 4⟩, plainDefinition (Hash256.fill 0)),
    (⟨markedHash 0 5⟩, plainDefinition (Hash256.fill 0))]

/-- The issuer of the second asset is read as the number of these. -/
def nineAmounts : List AssetAmount :=
  [⟨⟨Hash256.fill 0⟩, BitVec.ofNat 128 (2 ^ 105)⟩, ⟨⟨Hash256.fill 0⟩, 0⟩,
    ⟨⟨Hash256.fill 0⟩, 0⟩, ⟨⟨markedHash 0 3⟩, 0⟩, ⟨⟨Hash256.fill 0⟩, 0⟩,
    ⟨⟨markedHash 3 4⟩, 0⟩, ⟨⟨Hash256.fill 0⟩, 0⟩, ⟨⟨markedHash 6 5⟩, 0⟩,
    ⟨⟨Hash256.fill 0⟩, 0⟩]

def twoOutputs : List (UtxoKey × TrackedOutput) :=
  [(⟨Hash256.fill 0, 0⟩, ⟨⟨Hash256.fill 0, [], none⟩, 0⟩),
    (⟨markedHash 18 1, 0⟩, ⟨⟨Hash256.fill 0, nineAmounts, none⟩, 0⟩)]

/-- A ledger with these assets and no outputs. -/
def assetLedger (entries : List (AssetId × AssetDefinition)) : LedgerState :=
  ⟨∅, FinMap.insertAll ∅ entries⟩

def outputLedger : LedgerState := ⟨FinMap.insertAll ∅ twoOutputs, ∅⟩

theorem sixAssets_sorted : sixAssets.Pairwise fun a b => a.1 < b.1 := by
  decide

theorem twoOutputs_sorted : twoOutputs.Pairwise fun a b => a.1 < b.1 := by
  decide

set_option maxRecDepth 4000 in
theorem sixAssets_read_as_twoOutputs :
    encodeAll (fun entry => some (LedgerState.encodeAssetEntry entry))
      sixAssets = encodeAll LedgerState.encodeUtxoEntry twoOutputs := by
  rfl

theorem sortedEntries_assetLedger {entries : List (AssetId × AssetDefinition)}
    (hsorted : entries.Pairwise fun a b => a.1 < b.1) :
    FinMap.sortedEntries (assetLedger entries).utxos = [] ∧
      FinMap.sortedEntries (assetLedger entries).assets = entries :=
  ⟨FinMap.sortedEntries_empty, FinMap.sortedEntries_insertAll hsorted⟩

theorem sortedEntries_outputLedger :
    FinMap.sortedEntries outputLedger.utxos = twoOutputs ∧
      FinMap.sortedEntries outputLedger.assets = [] :=
  ⟨FinMap.sortedEntries_insertAll twoOutputs_sorted,
    FinMap.sortedEntries_empty⟩

theorem assetLedger_stateRootPreimage
    {entries : List (AssetId × AssetDefinition)}
    (hsorted : entries.Pairwise fun a b => a.1 < b.1) :
    (assetLedger entries).stateRootPreimage =
      encodeAll (fun entry => some (LedgerState.encodeAssetEntry entry))
        entries := by
  obtain ⟨hutxos, hassets⟩ := sortedEntries_assetLedger hsorted
  rw [LedgerState.stateRootPreimage, hutxos, hassets, encodeAll_nil,
    encodeAppend_nil_left]

theorem outputLedger_stateRootPreimage :
    outputLedger.stateRootPreimage =
      encodeAll LedgerState.encodeUtxoEntry twoOutputs := by
  obtain ⟨hutxos, hassets⟩ := sortedEntries_outputLedger
  rw [LedgerState.stateRootPreimage, hutxos, hassets, encodeAll_nil,
    encodeAppend_nil_right]

/-- A ledger with six assets and one with two outputs have one stream. -/
theorem assetLedger_rereads : ∃ x,
    (assetLedger sixAssets).stateRootPreimage = some x ∧
      outputLedger.stateRootPreimage = some x ∧
      (assetLedger sixAssets).utxos ≠ outputLedger.utxos ∧
      (assetLedger sixAssets).assets ≠ outputLedger.assets := by
  obtain ⟨x, hx⟩ : ∃ x, encodeAll (fun entry =>
      some (LedgerState.encodeAssetEntry entry)) sixAssets = some x := ⟨_, rfl⟩
  refine ⟨x, ?_, ?_, ?_, ?_⟩
  · rw [assetLedger_stateRootPreimage sixAssets_sorted, hx]
  · rw [outputLedger_stateRootPreimage, ← sixAssets_read_as_twoOutputs, hx]
  · intro heq
    have hentries := congrArg FinMap.sortedEntries heq
    rw [(sortedEntries_assetLedger sixAssets_sorted).1,
      sortedEntries_outputLedger.1] at hentries
    exact List.cons_ne_nil _ _ hentries.symm
  · intro heq
    have hentries := congrArg FinMap.sortedEntries heq
    rw [(sortedEntries_assetLedger sixAssets_sorted).2,
      sortedEntries_outputLedger.2] at hentries
    exact List.cons_ne_nil _ _ hentries

/-- The first five of the assets do not read like outputs. -/
theorem fiveAssets_commit : ∃ x x',
    (assetLedger (sixAssets.take 5)).stateRootPreimage = some x ∧
      outputLedger.stateRootPreimage = some x' ∧
      (x = x' →
        (assetLedger (sixAssets.take 5)).utxos = outputLedger.utxos ∧
        (assetLedger (sixAssets.take 5)).assets = outputLedger.assets) := by
  have hsorted : (sixAssets.take 5).Pairwise fun a b => a.1 < b.1 :=
    sixAssets_sorted.sublist (List.take_sublist _ _)
  obtain ⟨x, hx⟩ : ∃ x, encodeAll (fun entry =>
      some (LedgerState.encodeAssetEntry entry)) (sixAssets.take 5) = some x :=
    ⟨_, rfl⟩
  obtain ⟨x', hx'⟩ : ∃ x', encodeAll LedgerState.encodeUtxoEntry twoOutputs =
      some x' := ⟨_, rfl⟩
  rw [← assetLedger_stateRootPreimage hsorted] at hx
  rw [← outputLedger_stateRootPreimage] at hx'
  refine ⟨x, x', hx, hx', ?_⟩
  refine (LedgerState.stateRoot_commits_iff hx hx').mpr ⟨?_, ?_⟩
  · refine not_rereads_of_few_assets ?_ hx'
    rw [← FinMap.length_sortedEntries, (sortedEntries_assetLedger hsorted).2]
    exact le_rfl
  · refine not_rereads_of_few_assets ?_ hx
    rw [← FinMap.length_sortedEntries, sortedEntries_outputLedger.2]
    exact Nat.zero_le 5

end Example

end QCoin
