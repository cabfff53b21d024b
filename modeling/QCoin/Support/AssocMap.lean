import QCoin.Support.Accumulator
import QCoin.Support.Outcome

/-!
# Association lists

A hash map is a list of entries without duplicate keys, and every pass over it
visits the entries in an order of its own.  The finite map behind the list
forgets how it is arranged.  What a pass computes depends on the finite map
alone when it sorts the entries by key or checks each of them.
-/

namespace QCoin.Support

abbrev AssocMap (κ ν : Type) := AList fun _ : κ => ν

namespace AssocMap

variable {κ ν : Type} {m : AssocMap κ ν}

/-- The two lists arrange one map. -/
def Same (m m' : AssocMap κ ν) : Prop :=
  m.entries.Perm m'.entries

theorem same_iff {m' : AssocMap κ ν} :
    m.Same m' ↔ m.toFinmap = m'.toFinmap :=
  AList.toFinmap_eq.symm

def pairs (m : AssocMap κ ν) : List (κ × ν) :=
  m.entries.map fun entry => (entry.1, entry.2)

theorem keys_pairs (m : AssocMap κ ν) : m.pairs.map Prod.fst = m.keys := by
  rw [pairs, List.map_map]
  rfl

theorem mem_pairs [DecidableEq κ] {k : κ} {v : ν} :
    (k, v) ∈ m.pairs ↔ m.toFinmap.lookup k = some v := by
  rw [Finmap.lookup_toFinmap, ← Option.mem_def, AList.mem_lookup_iff, pairs,
    List.mem_map]
  constructor
  · rintro ⟨⟨k', v'⟩, hentry, heq⟩
    rw [Prod.mk.injEq] at heq
    obtain ⟨rfl, rfl⟩ := heq
    exact hentry
  · intro h
    exact ⟨⟨k, v⟩, h, rfl⟩

end AssocMap

/-! ## Passes over a map -/

/-- The order in which one pass over a map visits its entries. -/
structure IterOrder (κ ν : Type) where
  arrange : AssocMap κ ν → List (κ × ν)
  perm : ∀ m, (arrange m).Perm m.pairs

namespace IterOrder

variable {κ ν : Type}

/-- The order of the list. -/
def stored : IterOrder κ ν := ⟨AssocMap.pairs, fun _ => List.Perm.refl _⟩

def reversed : IterOrder κ ν :=
  ⟨fun m => m.pairs.reverse, fun _ => List.reverse_perm _⟩

variable (order : IterOrder κ ν) {m : AssocMap κ ν}

theorem mem_arrange [DecidableEq κ] {k : κ} {v : ν} :
    (k, v) ∈ order.arrange m ↔ m.toFinmap.lookup k = some v := by
  rw [(order.perm m).mem_iff, AssocMap.mem_pairs]

/-- No key is visited twice. -/
theorem nodup_arrange : ((order.arrange m).map Prod.fst).Nodup := by
  rw [((order.perm m).map Prod.fst).nodup_iff, AssocMap.keys_pairs]
  exact m.keys_nodup

/-- A pass which visits every entry visits every key with its value. -/
theorem forall_arrange [DecidableEq κ] {p : κ → ν → Prop} :
    (∀ entry ∈ order.arrange m, p entry.1 entry.2) ↔
      ∀ k v, m.toFinmap.lookup k = some v → p k v := by
  constructor
  · intro h k v hv
    exact h (k, v) (order.mem_arrange.mpr hv)
  · rintro h ⟨k, v⟩ hentry
    exact h k v (order.mem_arrange.mp hentry)

end IterOrder

/-! ## Passes which check every entry -/

namespace Result

variable {ε α β γ : Type}

theorem map_bind_eq {x : Result ε α} {f : α → Result ε β} {g : β → γ} :
    (x >>= f).map g = x >>= fun a => (f a).map g := by
  cases x with
  | error e => rfl
  | ok a => rfl

theorem map_eq_bind {x : Result ε α} {f : α → β} {g : β → Result ε γ} :
    x.map f >>= g = x >>= fun a => g (f a) := by
  cases x with
  | error e => rfl
  | ok a => rfl

theorem require_congr {p q : Prop} [Decidable p] [Decidable q] {error : ε}
    (h : p ↔ q) : require p error = require q error := by
  by_cases hp : p
  · rw [require, require, if_pos hp, if_pos (h.mp hp)]
  · rw [require, require, if_neg hp, if_neg fun hq => hp (h.mpr hq)]

/-- A loop which stops at the first offending entry finds one exactly when
there is one. -/
theorem forM_require (p : α → Prop) [DecidablePred p] (error : ε)
    (xs : List α) :
    (forM xs fun x => require (p x) error) =
      require (∀ x ∈ xs, p x) error := by
  induction xs with
  | nil =>
      rw [require, if_pos (by simp)]
      rfl
  | cons x xs ih =>
      rw [List.forM_cons, ih]
      by_cases hx : p x
      · have hall : (∀ y ∈ x :: xs, p y) ↔ ∀ y ∈ xs, p y := by simp [hx]
        rw [require_congr hall, require, if_pos hx]
        rfl
      · have hnot : ¬∀ y ∈ x :: xs, p y := fun h =>
          hx (h x List.mem_cons_self)
        rw [require, if_neg hx, require, require, if_neg hnot]
        rfl

end Result

/-! ## Passes which sort the entries -/

/-- `sort_by`, a stable sort. -/
def sortBy {α : Type} (cmp : α → α → Ordering) (xs : List α) : List α :=
  xs.insertionSort fun a b => (cmp a b).isLE

theorem sortBy_map {α β : Type} (f : α → β) (cmp : β → β → Ordering)
    (xs : List α) :
    sortBy cmp (xs.map f) =
      (sortBy (fun a b => cmp (f a) (f b)) xs).map f :=
  (List.map_insertionSort _ _ f xs fun _ _ _ _ => Iff.rfl).symm

section Sorted

variable {κ ν : Type} [LinearOrder κ] {cmp : κ → κ → Ordering}
  (hcmp : ∀ a b, (cmp a b).isLE ↔ a ≤ b)

include hcmp

theorem pairwise_sortBy (xs : List (κ × ν)) :
    (sortBy (fun a b => cmp a.1 b.1) xs).Pairwise fun a b => a.1 ≤ b.1 := by
  have : Std.Total fun a b : κ × ν => (cmp a.1 b.1).isLE = true :=
    ⟨fun a b => by rw [hcmp, hcmp]; exact le_total a.1 b.1⟩
  have : IsTrans (κ × ν) fun a b => (cmp a.1 b.1).isLE = true :=
    ⟨fun a b c => by rw [hcmp, hcmp, hcmp]; exact le_trans⟩
  exact (List.pairwise_insertionSort _ xs).imp fun h => (hcmp _ _).mp h

/-- Sorting by key undoes any order in which the entries were listed. -/
theorem sortBy_eq_sortedEntries [DecidableEq κ] {m : FinMap κ ν}
    {xs : List (κ × ν)} (hnodup : (xs.map Prod.fst).Nodup)
    (hmem : ∀ k v, (k, v) ∈ xs ↔ m.lookup k = some v) :
    sortBy (fun a b => cmp a.1 b.1) xs = FinMap.sortedEntries m := by
  have hperm : (sortBy (fun a b => cmp a.1 b.1) xs).Perm xs :=
    List.perm_insertionSort _ _
  have hdistinct : (sortBy (fun a b => cmp a.1 b.1) xs).Pairwise
      fun a b => a.1 ≠ b.1 :=
    List.pairwise_map.mp ((hperm.map Prod.fst).nodup_iff.mpr hnodup)
  refine (FinMap.sortedEntries_eq ?_ fun k v => ?_).symm
  · exact (pairwise_sortBy hcmp _).imp₂
      (fun _ _ hle hne => lt_of_le_of_ne hle hne) hdistinct
  · rw [hperm.mem_iff, hmem]

theorem IterOrder.sortBy_arrange (order : IterOrder κ ν)
    (m : AssocMap κ ν) :
    sortBy (fun a b => cmp a.1 b.1) (order.arrange m) =
      FinMap.sortedEntries m.toFinmap :=
  sortBy_eq_sortedEntries hcmp order.nodup_arrange fun _ _ =>
    order.mem_arrange

/-- Sorted, the entries of a list with distinct keys are those of the map
which is built from it. -/
theorem sortBy_eq_sortedEntries_insertAll [DecidableEq κ]
    {xs : List (κ × ν)} (hnodup : (xs.map Prod.fst).Nodup) :
    sortBy (fun a b => cmp a.1 b.1) xs =
      FinMap.sortedEntries (FinMap.insertAll ∅ xs) :=
  sortBy_eq_sortedEntries hcmp hnodup fun _ _ =>
    (FinMap.lookup_insertAll_empty hnodup).symm

end Sorted

/-! ## Updates -/

namespace AssocMap

variable {κ ν : Type} [DecidableEq κ]

def eraseAll (m : AssocMap κ ν) (ks : List κ) : AssocMap κ ν :=
  ks.foldl (fun m k => m.erase k) m

def insertAll (m : AssocMap κ ν) (entries : List (κ × ν)) : AssocMap κ ν :=
  entries.foldl (fun m entry => m.insert entry.1 entry.2) m

@[simp] theorem toFinmap_eraseAll (m : AssocMap κ ν) (ks : List κ) :
    (m.eraseAll ks).toFinmap = FinMap.eraseAll m.toFinmap ks := by
  induction ks generalizing m with
  | nil => rfl
  | cons k ks ih =>
      rw [FinMap.eraseAll_cons, Finmap.erase_toFinmap]
      exact ih (m.erase k)

@[simp] theorem toFinmap_insertAll (m : AssocMap κ ν)
    (entries : List (κ × ν)) :
    (m.insertAll entries).toFinmap =
      FinMap.insertAll m.toFinmap entries := by
  induction entries generalizing m with
  | nil => rfl
  | cons entry entries ih =>
      rw [FinMap.insertAll_cons, Finmap.insert_toFinmap]
      exact ih (m.insert entry.1 entry.2)

variable {w : ℕ}

/-- `get(..).copied().unwrap_or_default()`. -/
def amountAt (totals : AssocMap κ (BitVec w)) (k : κ) : BitVec w :=
  (totals.lookup k).getD 0

/-- `*entry(..).or_insert(0) += ..`. -/
def add (totals : AssocMap κ (BitVec w)) (k : κ) (x : BitVec w) :
    AssocMap κ (BitVec w) :=
  totals.insert k (totals.amountAt k + x)

@[simp] theorem amountAt_toFinmap (totals : AssocMap κ (BitVec w)) (k : κ) :
    Totals.amountAt totals.toFinmap k = totals.amountAt k := by
  rw [Totals.amountAt, Finmap.lookup_toFinmap, amountAt]

@[simp] theorem toFinmap_add (totals : AssocMap κ (BitVec w)) (k : κ)
    (x : BitVec w) :
    (totals.add k x).toFinmap = Totals.add totals.toFinmap k x := by
  rw [Totals.add, amountAt_toFinmap, Finmap.insert_toFinmap, add]

end AssocMap

/-- The keys which a pass over totals visits, with their amounts. -/
theorem IterOrder.forall_amounts {κ : Type} [DecidableEq κ] {w : ℕ}
    (order : IterOrder κ (BitVec w))
    {totals : AssocMap κ (BitVec w)} {p : κ → BitVec w → Prop} :
    (∀ entry ∈ order.arrange totals, p entry.1 entry.2) ↔
      ∀ k ∈ totals.toFinmap.keys,
        p k (Totals.amountAt totals.toFinmap k) := by
  rw [order.forall_arrange]
  constructor
  · intro h k hk
    obtain ⟨x, hx⟩ := Finmap.mem_iff.mp (Finmap.mem_keys.mp hk)
    rw [Totals.amountAt, hx]
    exact h k x hx
  · intro h k x hx
    have hk := h k (Finmap.mem_keys.mpr (Finmap.mem_iff.mpr ⟨x, hx⟩))
    rwa [Totals.amountAt, hx] at hk

end QCoin.Support
