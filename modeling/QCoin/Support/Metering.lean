import Mathlib.Algebra.GroupWithZero.Nat
import QCoin.Support.Outcome

/-!
# Metered runs

A machine which pays for every step out of a budget before it takes the step.
A metered run is a run of the machine without a meter next to a payment, so
the budget decides between success and exhaustion and nothing else.
-/

namespace QCoin.Support

open Result

section Metering

variable {ε α σ τ : Type}

/-- A view which commutes with every step commutes with every run. -/
theorem foldlM_map_of_step {f : σ → α → Result ε σ} {g : τ → α → Result ε τ}
    {view : σ → τ} (hstep : ∀ s a, (f s a).map view = g (view s) a)
    (as : List α) (s : σ) :
    (as.foldlM f s).map view = as.foldlM g (view s) := by
  induction as generalizing s with
  | nil => rfl
  | cons a as ih =>
      rw [List.foldlM_cons, List.foldlM_cons, ← hstep]
      cases hfirst : f s a with
      | error e => rfl
      | ok next => exact ih next

variable (price : α → Result ε ℕ) (run : σ → α → Result ε σ) (exhausted : ε)

/-- The price is paid before the step is taken.  The first component is what
is left of the budget. -/
def meteredStep (state : ℕ × σ) (a : α) : Result ε (ℕ × σ) := do
  let cost ← price a
  require (cost ≤ state.1) exhausted
  let s ← run state.2 a
  return (state.1 - cost, s)

variable {price run exhausted} {as : List α} {costs : List ℕ} {s s' : σ}

/-- A metered run succeeds when every step has a price, the run without a
meter succeeds and the budget covers the prices. -/
theorem metered_eq_ok {state state' : ℕ × σ} :
    as.foldlM (meteredStep price run exhausted) state = .ok state' ↔
      ∃ costs, as.mapM price = .ok costs ∧
        as.foldlM run state.2 = .ok state'.2 ∧
        state'.1 + costs.sum = state.1 := by
  induction as generalizing state with
  | nil =>
      simp only [List.foldlM_nil, List.mapM_nil, pure_eq_ok,
        exists_eq_left', List.sum_nil, Nat.add_zero]
      rw [Prod.ext_iff]
      tauto
  | cons a as ih =>
      simp only [List.foldlM_cons, List.mapM_cons, bind_eq_ok, ih, meteredStep,
        require_eq_ok, pure_eq_ok]
      constructor
      · rintro ⟨_, ⟨cost, hcost, -, hle, s, hs, rfl⟩, costs, hcosts, hrun,
          hsum⟩
        refine ⟨cost :: costs, ⟨cost, hcost, costs, hcosts, rfl⟩,
          ⟨s, hs, hrun⟩, ?_⟩
        rw [List.sum_cons]
        omega
      · rintro ⟨_, ⟨cost, hcost, costs, hcosts, rfl⟩, ⟨s, hs, hrun⟩, hsum⟩
        rw [List.sum_cons] at hsum
        refine ⟨_, ⟨cost, hcost, (), by omega, s, hs, rfl⟩, costs, hcosts,
          hrun, ?_⟩
        change state'.1 + costs.sum = state.1 - cost
        omega

/-- A budget below the sum of the prices is exhausted before anything else
can go wrong, if nothing goes wrong without a meter. -/
theorem metered_exhausted {budget : ℕ} (hcosts : as.mapM price = .ok costs)
    (hrun : as.foldlM run s = .ok s') (hbudget : budget < costs.sum) :
    as.foldlM (meteredStep price run exhausted) (budget, s) =
      .error (.err exhausted) := by
  induction as generalizing budget costs s with
  | nil =>
      rw [List.mapM_nil, pure_eq_ok] at hcosts
      rw [← hcosts] at hbudget
      exact absurd hbudget (Nat.not_lt_zero _)
  | cons a as ih =>
      simp only [List.mapM_cons, bind_eq_ok, pure_eq_ok] at hcosts
      obtain ⟨cost, hcost, rest, hrest, rfl⟩ := hcosts
      rw [List.foldlM_cons, bind_eq_ok] at hrun
      obtain ⟨next, hnext, hrun⟩ := hrun
      rw [List.sum_cons] at hbudget
      rw [List.foldlM_cons, bind_eq_error]
      by_cases hle : cost ≤ budget
      · -- The first step is paid for, so the rest of the run is not.
        refine Or.inr ⟨(budget - cost, next), ?_, ?_⟩
        · simp only [meteredStep, bind_eq_ok, require_eq_ok, pure_eq_ok]
          exact ⟨cost, hcost, (), hle, next, hnext, rfl⟩
        · exact ih hrest hrun (by omega)
      · left
        rw [meteredStep, hcost]
        simp [bind, Except.bind, require, hle]

end Metering

end QCoin.Support
