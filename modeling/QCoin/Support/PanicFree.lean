import QCoin.Support.Outcome

/-!
# Calls which do not panic

A call which ends with a value or an error returns to its caller.  The rules
below follow the way a call is put together, and a value which an earlier part
returned is known to the later ones.
-/

namespace QCoin.Support

open Result

variable {ε ε' α β σ : Type}

def PanicFree (x : Result ε α) : Prop :=
  x ≠ .error .panic

namespace PanicFree

theorem ok (a : α) : PanicFree (.ok a : Result ε α) :=
  fun h => nomatch h

theorem err (error : ε) : PanicFree (.error (.err error) : Result ε α) :=
  fun h => nomatch h

theorem pure (a : α) : PanicFree (Pure.pure a : Result ε α) :=
  ok a

/-- An error is passed on as it is. -/
theorem of_error {abort : Abort ε} (h : PanicFree (.error abort : Result ε α)) :
    PanicFree (.error abort : Result ε β) := by
  rintro ⟨⟩
  exact h rfl

theorem bind {x : Result ε α} {f : α → Result ε β} (hx : PanicFree x)
    (hf : ∀ a, x = .ok a → PanicFree (f a)) : PanicFree (x >>= f) := by
  intro h
  rcases bind_eq_error.mp h with hpanic | ⟨a, ha, hpanic⟩
  · exact hx hpanic
  · exact hf a ha hpanic

theorem require (p : Prop) [Decidable p] (error : ε) :
    PanicFree (Result.require p error) := by
  intro h
  cases (require_eq_error.mp h).2

theorem okOr (value : Option α) (error : ε) :
    PanicFree (Result.okOr value error) := by
  intro h
  cases (okOr_eq_error.mp h).2

theorem orPanic {value : Option α} (h : value.isSome = true) :
    PanicFree (Result.orPanic value : Result ε α) := by
  intro hpanic
  rw [(orPanic_eq_error.mp hpanic).1] at h
  cases h

theorem mapErr {f : ε → ε'} {x : Result ε α} (h : PanicFree x) :
    PanicFree (Result.mapErr f x) := by
  rcases x with (error | _) | a
  · exact err (f error)
  · exact absurd rfl h
  · exact ok a

theorem ite {p : Prop} [Decidable p] {x y : Result ε α}
    (hx : p → PanicFree x) (hy : ¬p → PanicFree y) :
    PanicFree (if p then x else y) := by
  by_cases hp : p
  · rw [if_pos hp]
    exact hx hp
  · rw [if_neg hp]
    exact hy hp

/-- A loop whose rounds do not panic as long as the state keeps an
invariant. -/
theorem foldlM {f : σ → β → Result ε σ} {bs : List β} {s : σ}
    (Inv : σ → Prop) (hinit : Inv s)
    (hround : ∀ b ∈ bs, ∀ s, Inv s → PanicFree (f s b))
    (hkeeps : ∀ b ∈ bs, ∀ s s', Inv s → f s b = .ok s' → Inv s') :
    PanicFree (bs.foldlM f s) := by
  induction bs generalizing s with
  | nil => exact pure s
  | cons b bs ih =>
      rw [List.foldlM_cons]
      refine bind (hround b List.mem_cons_self s hinit) fun s' hs' => ?_
      exact ih (hkeeps b List.mem_cons_self s s' hinit hs')
        (fun c hc => hround c (List.mem_cons_of_mem b hc))
        (fun c hc => hkeeps c (List.mem_cons_of_mem b hc))

end PanicFree

end QCoin.Support
