import Mathlib.Data.Fintype.Basic
import Mathlib.Logic.Relation

/-!
# Progress of a transition system

What can be reached from every state of an invariant.  A measure which some
step decreases can be brought to zero, and goals which the runs for other goals
keep can be reached together.
-/

namespace QCoin.Support

open Relation

variable {σ ι : Type} (Step : σ → σ → Prop) (Inv : σ → Prop)

/-- Measure rule. -/
theorem reaches_zero (measure : σ → ℕ)
    (hstep : ∀ s, Inv s → measure s ≠ 0 →
      ∃ s', Step s s' ∧ Inv s' ∧ measure s' < measure s)
    {s : σ} (hinv : Inv s) :
    ∃ s', ReflTransGen Step s s' ∧ Inv s' ∧ measure s' = 0 := by
  induction hmeasure : measure s using Nat.strong_induction_on
    generalizing s with
  | _ n ih =>
      by_cases hzero : measure s = 0
      · exact ⟨s, .refl, hinv, hzero⟩
      · obtain ⟨s', hfirst, hinv', hless⟩ := hstep s hinv hzero
        obtain ⟨last, hrest, hdone⟩ :=
          ih (measure s') (hmeasure ▸ hless) hinv' rfl
        exact ⟨last, .head hfirst hrest, hdone⟩

/-- One goal after the other. -/
theorem reaches_all [Finite ι] (Done : ι → σ → Prop)
    (hreach : ∀ i s, Inv s → ∃ s', ReflTransGen Step s s' ∧ Inv s' ∧
      Done i s' ∧ ∀ j, Done j s → Done j s')
    {s : σ} (hinv : Inv s) :
    ∃ s', ReflTransGen Step s s' ∧ Inv s' ∧ ∀ i, Done i s' := by
  classical
  cases nonempty_fintype ι
  have hsome : ∀ goals : Finset ι, ∃ s', ReflTransGen Step s s' ∧ Inv s' ∧
      ∀ i ∈ goals, Done i s' := by
    intro goals
    induction goals using Finset.induction_on with
    | empty => exact ⟨s, .refl, hinv, by simp⟩
    | insert i goals _ ih =>
        obtain ⟨mid, hmid, hinvMid, hdone⟩ := ih
        obtain ⟨last, hlast, hinvLast, hgoal, hkept⟩ := hreach i mid hinvMid
        refine ⟨last, hmid.trans hlast, hinvLast, fun j hj => ?_⟩
        rcases Finset.mem_insert.mp hj with rfl | hj
        · exact hgoal
        · exact hkept j (hdone j hj)
  obtain ⟨last, hlast, hinvLast, hdone⟩ := hsome Finset.univ
  exact ⟨last, hlast, hinvLast, fun i => hdone i (Finset.mem_univ i)⟩

end QCoin.Support
