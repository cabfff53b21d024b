import Mathlib.Data.Finmap
import Mathlib.Data.List.Sort
import Mathlib.Algebra.GroupWithZero.Nat
import Mathlib.Algebra.BigOperators.Group.Multiset.Basic

/-!
# Finite maps

Bulk removal and insertion on Mathlib's `Finmap`, the total of a quantity over
all values of a map, and the listing of a map in key order.
-/

namespace QCoin.Support

abbrev FinMap (κ ν : Type) := Finmap fun _ : κ => ν

namespace FinMap

variable {κ ν : Type} [DecidableEq κ]

theorem eq_empty_of_lookup {m : FinMap κ ν}
    (h : ∀ k v, m.lookup k = some v → False) : m = ∅ := by
  apply Finmap.ext_lookup
  intro k
  rw [Finmap.lookup_empty]
  by_contra hsome
  obtain ⟨v, hlookup⟩ := Option.ne_none_iff_exists'.mp hsome
  exact h k v hlookup

/-! ## Removal and insertion of lists -/

def eraseAll (m : FinMap κ ν) (ks : List κ) : FinMap κ ν :=
  ks.foldl (fun m k => m.erase k) m

/-- Entries further down the list replace earlier ones with the same key. -/
def insertAll (m : FinMap κ ν) (entries : List (κ × ν)) : FinMap κ ν :=
  entries.foldl (fun m entry => m.insert entry.1 entry.2) m

@[simp] theorem eraseAll_nil (m : FinMap κ ν) : eraseAll m [] = m := rfl

@[simp] theorem eraseAll_cons (m : FinMap κ ν) (k : κ) (ks : List κ) :
    eraseAll m (k :: ks) = eraseAll (m.erase k) ks := rfl

@[simp] theorem insertAll_nil (m : FinMap κ ν) : insertAll m [] = m := rfl

@[simp] theorem insertAll_cons (m : FinMap κ ν) (entry : κ × ν)
    (entries : List (κ × ν)) :
    insertAll m (entry :: entries) =
      insertAll (m.insert entry.1 entry.2) entries := rfl

theorem lookup_eraseAll (m : FinMap κ ν) (ks : List κ) (k : κ) :
    (eraseAll m ks).lookup k = if k ∈ ks then none else m.lookup k := by
  induction ks generalizing m with
  | nil => simp
  | cons k' ks ih =>
      rw [eraseAll_cons, ih]
      by_cases hks : k ∈ ks
      · simp [hks]
      · by_cases hk : k = k'
        · subst hk
          simp [hks]
        · simp [hks, hk, Finmap.lookup_erase_ne hk]

theorem lookup_insertAll_of_notMem {m : FinMap κ ν} {entries : List (κ × ν)}
    {k : κ} (h : k ∉ entries.map Prod.fst) :
    (insertAll m entries).lookup k = m.lookup k := by
  induction entries generalizing m with
  | nil => rfl
  | cons entry entries ih =>
      rw [List.map_cons, List.mem_cons, not_or] at h
      rw [insertAll_cons, ih h.2, Finmap.lookup_insert_of_ne _ h.1]

theorem lookup_insertAll_of_mem {m : FinMap κ ν} {entries : List (κ × ν)}
    (hnodup : (entries.map Prod.fst).Nodup) {k : κ} {v : ν}
    (h : (k, v) ∈ entries) : (insertAll m entries).lookup k = some v := by
  induction entries generalizing m with
  | nil => simp at h
  | cons entry entries ih =>
      rw [List.map_cons, List.nodup_cons] at hnodup
      rcases List.mem_cons.mp h with rfl | hmem
      · rw [insertAll_cons, lookup_insertAll_of_notMem hnodup.1,
          Finmap.lookup_insert]
      · rw [insertAll_cons]
        exact ih hnodup.2 hmem

/-- Every value found after a bulk insertion was inserted or already there. -/
theorem lookup_insertAll_cases {m : FinMap κ ν} {entries : List (κ × ν)}
    {k : κ} {v : ν} (h : (insertAll m entries).lookup k = some v) :
    (k, v) ∈ entries ∨ (k ∉ entries.map Prod.fst ∧ m.lookup k = some v) := by
  induction entries generalizing m with
  | nil => exact Or.inr ⟨by simp, h⟩
  | cons entry entries ih =>
      rw [insertAll_cons] at h
      rcases ih h with hmem | ⟨hnot, hold⟩
      · exact Or.inl (List.mem_cons_of_mem _ hmem)
      · by_cases hk : k = entry.1
        · subst hk
          rw [Finmap.lookup_insert, Option.some.injEq] at hold
          subst hold
          exact Or.inl List.mem_cons_self
        · rw [Finmap.lookup_insert_of_ne _ hk] at hold
          refine Or.inr ⟨?_, hold⟩
          rw [List.map_cons, List.mem_cons, not_or]
          exact ⟨hk, hnot⟩

theorem lookup_insertAll_empty {entries : List (κ × ν)}
    (hnodup : (entries.map Prod.fst).Nodup) {k : κ} {v : ν} :
    (insertAll ∅ entries : FinMap κ ν).lookup k = some v ↔
      (k, v) ∈ entries := by
  constructor
  · intro h
    rcases lookup_insertAll_cases h with hmem | ⟨-, hempty⟩
    · exact hmem
    · rw [Finmap.lookup_empty] at hempty
      cases hempty
  · exact lookup_insertAll_of_mem hnodup

theorem mem_insertAll {m : FinMap κ ν} {entries : List (κ × ν)} {k : κ} :
    k ∈ insertAll m entries ↔ k ∈ entries.map Prod.fst ∨ k ∈ m := by
  induction entries generalizing m with
  | nil => simp
  | cons entry entries ih =>
      rw [insertAll_cons, ih, Finmap.mem_insert, List.map_cons, List.mem_cons]
      tauto

/-! ## Totals -/

/-- The quantity `f` summed over all values of the map. -/
def total (f : ν → ℕ) (m : FinMap κ ν) : ℕ :=
  (m.entries.map fun entry => f entry.2).sum

/-- The quantity held under one key, which is zero when the key is absent. -/
def valueAt (f : ν → ℕ) (m : FinMap κ ν) (k : κ) : ℕ :=
  ((m.lookup k).map f).getD 0

variable (f : ν → ℕ)

omit [DecidableEq κ] in
@[simp] theorem total_empty : total f (∅ : FinMap κ ν) = 0 := rfl

theorem valueAt_of_lookup {m : FinMap κ ν} {k : κ} {v : ν}
    (h : m.lookup k = some v) : valueAt f m k = f v := by
  simp [valueAt, h]

theorem valueAt_of_notMem {m : FinMap κ ν} {k : κ} (h : k ∉ m) :
    valueAt f m k = 0 := by
  simp [valueAt, Finmap.lookup_eq_none.mpr h]

theorem total_insert_of_notMem {m : FinMap κ ν} {k : κ} (v : ν) (h : k ∉ m) :
    total f (m.insert k v) = f v + total f m := by
  rw [total, total, Finmap.entries_insert_of_notMem h, Multiset.map_cons,
    Multiset.sum_cons]

theorem total_erase (m : FinMap κ ν) (k : κ) :
    total f (m.erase k) + valueAt f m k = total f m := by
  by_cases hk : k ∈ m
  · obtain ⟨v, hv⟩ := Finmap.mem_iff.mp hk
    have hrestore : (m.erase k).insert k v = m := by
      apply Finmap.ext_lookup
      intro k'
      by_cases h : k' = k
      · subst h
        rw [Finmap.lookup_insert, hv]
      · rw [Finmap.lookup_insert_of_ne _ h, Finmap.lookup_erase_ne h]
    have hsum : total f ((m.erase k).insert k v) =
        f v + total f (m.erase k) :=
      total_insert_of_notMem f v Finmap.notMem_erase_self
    rw [hrestore] at hsum
    rw [valueAt_of_lookup f hv, hsum, Nat.add_comm]
  · have herase : m.erase k = m := by
      apply Finmap.ext_lookup
      intro k'
      by_cases h : k' = k
      · subst h
        rw [Finmap.lookup_erase, Finmap.lookup_eq_none.mpr hk]
      · rw [Finmap.lookup_erase_ne h]
    rw [herase, valueAt_of_notMem f hk, Nat.add_zero]

/-- An insertion adds the new value and takes away the one it replaces. -/
theorem total_insert (m : FinMap κ ν) (k : κ) (v : ν) :
    total f (m.insert k v) + valueAt f m k = total f m + f v := by
  have hinsert : m.insert k v = (m.erase k).insert k v := by
    apply Finmap.ext_lookup
    intro k'
    by_cases h : k' = k
    · subst h
      rw [Finmap.lookup_insert, Finmap.lookup_insert]
    · rw [Finmap.lookup_insert_of_ne _ h, Finmap.lookup_insert_of_ne _ h,
        Finmap.lookup_erase_ne h]
  have hsum : total f ((m.erase k).insert k v) = f v + total f (m.erase k) :=
    total_insert_of_notMem f v Finmap.notMem_erase_self
  have herase := total_erase f m k
  rw [hinsert, hsum]
  omega

theorem total_eraseAll {m : FinMap κ ν} {ks : List κ} (hnodup : ks.Nodup) :
    total f (eraseAll m ks) + (ks.map (valueAt f m)).sum = total f m := by
  induction ks generalizing m with
  | nil => simp
  | cons k ks ih =>
      rw [List.nodup_cons] at hnodup
      have hvalues : ks.map (valueAt f m) = ks.map (valueAt f (m.erase k)) := by
        apply List.map_congr_left
        intro k' hk'
        have hne : k' ≠ k := fun h => hnodup.1 (h ▸ hk')
        rw [valueAt, valueAt, Finmap.lookup_erase_ne hne]
      have hrest := ih (m := m.erase k) hnodup.2
      have herase := total_erase f m k
      rw [eraseAll_cons, List.map_cons, List.sum_cons, hvalues]
      omega

theorem total_insertAll {m : FinMap κ ν} {entries : List (κ × ν)}
    (hnodup : (entries.map Prod.fst).Nodup) :
    total f (insertAll m entries) +
        (entries.map fun entry => valueAt f m entry.1).sum =
      total f m + (entries.map fun entry => f entry.2).sum := by
  induction entries generalizing m with
  | nil => simp
  | cons entry entries ih =>
      rw [List.map_cons, List.nodup_cons] at hnodup
      have hvalues : (entries.map fun e => valueAt f m e.1) =
          entries.map fun e => valueAt f (m.insert entry.1 entry.2) e.1 := by
        apply List.map_congr_left
        intro e he
        have hne : e.1 ≠ entry.1 := fun h =>
          hnodup.1 (h ▸ List.mem_map_of_mem he)
        rw [valueAt, valueAt, Finmap.lookup_insert_of_ne _ hne]
      have hrest := ih (m := m.insert entry.1 entry.2) hnodup.2
      have hinsert := total_insert f m entry.1 entry.2
      rw [insertAll_cons, List.map_cons, List.map_cons, List.sum_cons,
        List.sum_cons, hvalues]
      omega

end FinMap

/-! ## Listing in key order -/

section Sorted

variable {κ ν : Type} [LinearOrder κ]

/-- The members of a finite set in ascending order, by insertion sort so that
small instances evaluate. -/
def sortedList (s : Finset κ) : List κ :=
  Quot.liftOn s.val (List.insertionSort (· ≤ ·)) fun xs ys h => by
    have hperm : (List.insertionSort (· ≤ ·) xs).Perm
        (List.insertionSort (· ≤ ·) ys) :=
      (List.perm_insertionSort _ xs).trans
        (h.trans (List.perm_insertionSort _ ys).symm)
    exact hperm.eq_of_pairwise (fun a b _ _ hab hba => le_antisymm hab hba)
      (List.pairwise_insertionSort _ xs) (List.pairwise_insertionSort _ ys)

/-- The entries of a map, sorted by key. -/
def FinMap.sortedEntries (m : FinMap κ ν) : List (κ × ν) :=
  (sortedList m.keys).filterMap fun k => (m.lookup k).map fun v => (k, v)

theorem perm_sortedList {s : Finset κ} {xs : List κ}
    (h : (xs : Multiset κ) = s.val) : (sortedList s).Perm xs := by
  rw [sortedList, ← h]
  exact List.perm_insertionSort _ xs

theorem mem_sortedList {s : Finset κ} {k : κ} : k ∈ sortedList s ↔ k ∈ s := by
  obtain ⟨xs, hxs⟩ := Quot.exists_rep s.val
  rw [(perm_sortedList hxs).mem_iff, ← Finset.mem_val, ← hxs]
  exact Multiset.mem_coe.symm

theorem nodup_sortedList (s : Finset κ) : (sortedList s).Nodup := by
  obtain ⟨xs, hxs⟩ := Quot.exists_rep s.val
  have hnodup := s.nodup
  rw [← hxs] at hnodup
  exact (perm_sortedList hxs).nodup_iff.mpr (Multiset.coe_nodup.mp hnodup)

theorem pairwise_sortedList (s : Finset κ) :
    (sortedList s).Pairwise (· < ·) := by
  obtain ⟨xs, hxs⟩ := Quot.exists_rep s.val
  have hsorted : (sortedList s).Pairwise (· ≤ ·) := by
    rw [sortedList, ← hxs]
    exact List.pairwise_insertionSort _ xs
  exact hsorted.imp₂ (fun a b hle hne => lt_of_le_of_ne hle hne)
    (nodup_sortedList s)

namespace FinMap

theorem mem_sortedEntries {m : FinMap κ ν} {k : κ} {v : ν} :
    (k, v) ∈ m.sortedEntries ↔ m.lookup k = some v := by
  rw [sortedEntries, List.mem_filterMap]
  constructor
  · rintro ⟨k', -, hentry⟩
    obtain ⟨v', hv', heq⟩ := Option.map_eq_some_iff.mp hentry
    rw [Prod.mk.injEq] at heq
    rw [← heq.1, ← heq.2, hv']
  · intro h
    refine ⟨k, mem_sortedList.mpr (Finmap.mem_keys.mpr ?_), by rw [h]; rfl⟩
    exact Finmap.mem_iff.mpr ⟨v, h⟩

theorem nodup_sortedEntries (m : FinMap κ ν) :
    (m.sortedEntries.map Prod.fst).Nodup := by
  have hkey : ∀ k, ((m.lookup k).map fun v => (k, v)).map Prod.fst =
      if k ∈ m then some k else none := by
    intro k
    by_cases hk : k ∈ m
    · obtain ⟨v, hv⟩ := Finmap.mem_iff.mp hk
      rw [hv, if_pos hk]
      rfl
    · rw [Finmap.lookup_eq_none.mpr hk, if_neg hk]
      rfl
  rw [sortedEntries, List.map_filterMap]
  simp only [hkey]
  refine (nodup_sortedList m.keys).filterMap ?_
  intro k k' b hk hk'
  rw [Option.mem_def, Option.ite_none_right_eq_some] at hk hk'
  exact (Option.some.inj hk.2).trans (Option.some.inj hk'.2).symm

theorem length_sortedEntries (m : FinMap κ ν) :
    m.sortedEntries.length = m.keys.card := by
  have hkeys : (m.sortedEntries.map Prod.fst).toFinset = m.keys := by
    ext k
    rw [List.mem_toFinset, List.mem_map, Finmap.mem_keys, Finmap.mem_iff]
    constructor
    · rintro ⟨⟨k, v⟩, hentry, rfl⟩
      exact ⟨v, mem_sortedEntries.mp hentry⟩
    · rintro ⟨v, hv⟩
      exact ⟨(k, v), mem_sortedEntries.mpr hv, rfl⟩
  rw [← hkeys, List.toFinset_card_of_nodup m.nodup_sortedEntries,
    List.length_map]

/-- A map is restored from its listing. -/
theorem insertAll_sortedEntries (m : FinMap κ ν) :
    insertAll ∅ m.sortedEntries = m := by
  apply Finmap.ext_lookup
  intro k
  cases hk : m.lookup k with
  | some v =>
      exact lookup_insertAll_of_mem m.nodup_sortedEntries
        (mem_sortedEntries.mpr hk)
  | none =>
      rw [lookup_insertAll_of_notMem, Finmap.lookup_empty]
      intro hmem
      obtain ⟨⟨k', v⟩, hentry, rfl⟩ := List.mem_map.mp hmem
      rw [mem_sortedEntries, hk] at hentry
      cases hentry

theorem sortedEntries_injective :
    Function.Injective (sortedEntries : FinMap κ ν → List (κ × ν)) := by
  intro m m' h
  rw [← insertAll_sortedEntries m, h, insertAll_sortedEntries]

theorem pairwise_sortedEntries (m : FinMap κ ν) :
    m.sortedEntries.Pairwise fun a b => a.1 < b.1 := by
  rw [sortedEntries, List.pairwise_filterMap]
  refine (pairwise_sortedList m.keys).imp ?_
  intro k k' hlt a ha b hb
  obtain ⟨v, -, rfl⟩ := Option.map_eq_some_iff.mp ha
  obtain ⟨v', -, rfl⟩ := Option.map_eq_some_iff.mp hb
  exact hlt

/-- Any listing of the entries in key order is this one. -/
theorem sortedEntries_eq [inst : DecidableEq κ] {m : FinMap κ ν}
    {xs : List (κ × ν)} (hsorted : xs.Pairwise fun a b => a.1 < b.1)
    (hmem : ∀ k v, (k, v) ∈ xs ↔ m.lookup k = some v) :
    m.sortedEntries = xs := by
  -- The two ways to decide equality of keys agree.
  cases Subsingleton.elim inst LinearOrder.toDecidableEq
  have hnodup : ∀ {ys : List (κ × ν)},
      (ys.Pairwise fun a b => a.1 < b.1) → ys.Nodup := fun h =>
    h.imp fun hlt heq => absurd (congrArg Prod.fst heq) hlt.ne
  have hperm : m.sortedEntries.Perm xs := by
    refine (List.perm_ext_iff_of_nodup (hnodup m.pairwise_sortedEntries)
      (hnodup hsorted)).mpr ?_
    rintro ⟨k, v⟩
    rw [mem_sortedEntries, hmem]
  refine hperm.eq_of_pairwise ?_ m.pairwise_sortedEntries hsorted
  intro a b _ _ hab hba
  exact absurd hba (not_lt_of_gt hab)

theorem sortedEntries_insertAll [DecidableEq κ] {xs : List (κ × ν)}
    (hsorted : xs.Pairwise fun a b => a.1 < b.1) :
    (insertAll ∅ xs : FinMap κ ν).sortedEntries = xs := by
  have hkeys : (xs.map Prod.fst).Nodup := by
    rw [List.Nodup, List.pairwise_map]
    exact hsorted.imp fun hlt => hlt.ne
  exact sortedEntries_eq hsorted fun k v => (lookup_insertAll_empty hkeys).symm

theorem sortedEntries_empty : (∅ : FinMap κ ν).sortedEntries = [] :=
  sortedEntries_insertAll List.Pairwise.nil

end FinMap

end Sorted

end QCoin.Support
