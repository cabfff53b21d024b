import Mathlib.Algebra.BigOperators.Group.List.Basic
import Mathlib.Tactic.Ring
import QCoin.Support.FiniteMap

/-!
# Wrapping accumulators

Sums of machine words, accumulated per key in a map.  The accumulated word
differs from the exact sum by one multiple of the word range for each addition
that carries out of the word, which makes the number of carries the exact
measure of what wrapping loses.
-/

namespace QCoin.Support

section Words

variable {w : ℕ}

/-- The sum a fixed-width accumulator ends with when started from `acc`. -/
def wrapSum (acc : BitVec w) (xs : List (BitVec w)) : BitVec w :=
  xs.foldl (· + ·) acc

/-- The sum over the natural numbers. -/
def exactSum (xs : List (BitVec w)) : ℕ :=
  (xs.map BitVec.toNat).sum

/-- How many of the additions carry out of the word. -/
def carries : BitVec w → List (BitVec w) → ℕ
  | _, [] => 0
  | acc, x :: xs =>
      (if 2 ^ w ≤ acc.toNat + x.toNat then 1 else 0) + carries (acc + x) xs

@[simp] theorem exactSum_nil : exactSum ([] : List (BitVec w)) = 0 := rfl

@[simp] theorem exactSum_cons (x : BitVec w) (xs : List (BitVec w)) :
    exactSum (x :: xs) = x.toNat + exactSum xs := rfl

@[simp] theorem exactSum_append (xs ys : List (BitVec w)) :
    exactSum (xs ++ ys) = exactSum xs + exactSum ys := by
  simp [exactSum]

theorem exactSum_eq_zero_iff {xs : List (BitVec w)} :
    exactSum xs = 0 ↔ ∀ x ∈ xs, x = 0 := by
  induction xs with
  | nil => simp
  | cons x xs ih =>
      rw [exactSum_cons, Nat.add_eq_zero_iff, ih, List.forall_mem_cons]
      have hx : x.toNat = 0 ↔ x = 0 := by
        constructor
        · intro h
          exact BitVec.eq_of_toNat_eq (by simpa using h)
        · intro h
          simp [h]
      rw [hx]

/-- One addition, with the carry made explicit. -/
theorem toNat_add_toNat (acc x : BitVec w) :
    acc.toNat + x.toNat = (acc + x).toNat +
      2 ^ w * (if 2 ^ w ≤ acc.toNat + x.toNat then 1 else 0) := by
  have hacc := acc.isLt
  have hx := x.isLt
  rw [BitVec.toNat_add]
  by_cases hcarry : 2 ^ w ≤ acc.toNat + x.toNat
  · rw [if_pos hcarry, Nat.mod_eq_sub_mod hcarry,
      Nat.mod_eq_of_lt (by omega)]
    omega
  · rw [if_neg hcarry, Nat.mod_eq_of_lt (by omega)]
    omega

/-- The exact sum is the accumulated word plus the lost carries. -/
theorem exactSum_eq_wrapSum (acc : BitVec w) (xs : List (BitVec w)) :
    acc.toNat + exactSum xs =
      (wrapSum acc xs).toNat + 2 ^ w * carries acc xs := by
  induction xs generalizing acc with
  | nil => simp [wrapSum, carries]
  | cons x xs ih =>
      calc
        acc.toNat + exactSum (x :: xs) =
            acc.toNat + x.toNat + exactSum xs := by
          rw [exactSum_cons, Nat.add_assoc]
        _ = ((acc + x).toNat + exactSum xs) + 2 ^ w *
              (if 2 ^ w ≤ acc.toNat + x.toNat then 1 else 0) := by
          have hstep := toNat_add_toNat acc x
          omega
        _ = (wrapSum acc (x :: xs)).toNat +
              2 ^ w * carries acc (x :: xs) := by
          rw [ih (acc + x), carries]
          simp only [wrapSum, List.foldl_cons]
          ring

theorem exactSum_eq_wrapSum_zero (xs : List (BitVec w)) :
    exactSum xs = (wrapSum 0 xs).toNat + 2 ^ w * carries 0 xs := by
  simpa using exactSum_eq_wrapSum 0 xs

/-- Two accumulations with one result have equal exact sums exactly when they
lose equally many carries. -/
theorem exactSum_eq_iff_carries_eq {xs ys : List (BitVec w)}
    (h : wrapSum 0 xs = wrapSum 0 ys) :
    exactSum xs = exactSum ys ↔ carries 0 xs = carries 0 ys := by
  rw [exactSum_eq_wrapSum_zero xs, exactSum_eq_wrapSum_zero ys, h]
  constructor
  · intro heq
    exact Nat.eq_of_mul_eq_mul_left (Nat.two_pow_pos w)
      (Nat.add_left_cancel heq)
  · intro heq
    rw [heq]

theorem exactSum_eq_toNat_iff {xs : List (BitVec w)} :
    exactSum xs = (wrapSum 0 xs).toNat ↔ carries 0 xs = 0 := by
  have h := exactSum_eq_wrapSum_zero xs
  have hpos := Nat.two_pow_pos w
  constructor
  · intro heq
    have hzero : 2 ^ w * carries 0 xs = 0 := by omega
    rcases Nat.mul_eq_zero.mp hzero with hw | hc
    · omega
    · exact hc
  · intro hc
    rw [h, hc, Nat.mul_zero, Nat.add_zero]

end Words

/-! ## Accumulation per key -/

section Totals

variable {κ : Type} [DecidableEq κ] {w : ℕ}

abbrev Totals (κ : Type) (w : ℕ) := FinMap κ (BitVec w)

namespace Totals

/-- The word accumulated under a key, zero by default. -/
def amountAt (totals : Totals κ w) (k : κ) : BitVec w :=
  (totals.lookup k).getD 0

/-- Add to the entry of a key, which starts from zero. -/
def add (totals : Totals κ w) (k : κ) (x : BitVec w) : Totals κ w :=
  totals.insert k (totals.amountAt k + x)

def addAll (totals : Totals κ w) (entries : List (κ × BitVec w)) :
    Totals κ w :=
  entries.foldl (fun totals entry => totals.add entry.1 entry.2) totals

@[simp] theorem amountAt_empty (k : κ) :
    amountAt (∅ : Totals κ w) k = 0 := by
  simp [amountAt]

theorem amountAt_add (totals : Totals κ w) (k k' : κ) (x : BitVec w) :
    (totals.add k x).amountAt k' =
      if k' = k then totals.amountAt k' + x else totals.amountAt k' := by
  by_cases h : k' = k
  · subst h
    simp [add, amountAt, Finmap.lookup_insert]
  · simp [add, amountAt, Finmap.lookup_insert_of_ne _ h, h]

/-- The words listed under one key, in order. -/
def amountsAt (k : κ) (entries : List (κ × BitVec w)) : List (BitVec w) :=
  (entries.filter fun entry => entry.1 = k).map Prod.snd

theorem amountAt_addAll (totals : Totals κ w) (entries : List (κ × BitVec w))
    (k : κ) :
    (totals.addAll entries).amountAt k =
      wrapSum (totals.amountAt k) (amountsAt k entries) := by
  induction entries generalizing totals with
  | nil => rfl
  | cons entry entries ih =>
      change ((totals.add entry.1 entry.2).addAll entries).amountAt k = _
      rw [ih, amountAt_add]
      by_cases h : entry.1 = k
      · subst h
        simp [amountsAt, wrapSum]
      · have h' : ¬k = entry.1 := fun heq => h heq.symm
        simp [amountsAt, h, h']

theorem amountAt_of_notMem {totals : Totals κ w} {k : κ} (h : k ∉ totals) :
    totals.amountAt k = 0 := by
  simp [amountAt, Finmap.lookup_eq_none.mpr h]

theorem amountAt_erase (totals : Totals κ w) (k k' : κ) :
    amountAt (totals.erase k) k' =
      if k' = k then 0 else totals.amountAt k' := by
  by_cases h : k' = k
  · subst h
    simp [amountAt]
  · simp [amountAt, Finmap.lookup_erase_ne h, h]

end Totals

end Totals

end QCoin.Support
