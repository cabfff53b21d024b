import Mathlib.Data.List.Rotate

/-!
# Periodic lists

A list which follows a period from its first entry on shows a rotation of the
period in each of its windows.
-/

namespace QCoin.Support

variable {α : Type} {xs period window : List α}

/-- Every entry is the one which the period has at its position. -/
def FollowsPeriod (xs period : List α) : Prop :=
  ∀ (i : ℕ) (x : α), xs[i]? = some x → period[i % period.length]? = some x

/-- A window in front of which some entries stand. -/
theorem FollowsPeriod.eq_rotate {before after : List α}
    (h : FollowsPeriod (before ++ window ++ after) period)
    (hlength : window.length = period.length) :
    window = period.rotate before.length := by
  have hrotated : window.length = (period.rotate before.length).length := by
    rw [List.length_rotate, hlength]
  refine List.ext_getElem? fun i => ?_
  rcases Nat.lt_or_ge i window.length with hi | hi
  · have hentry : (before ++ window ++ after)[before.length + i]? =
        some window[i] := by
      rw [List.append_assoc, List.getElem?_append_right (by omega),
        Nat.add_sub_cancel_left, List.getElem?_append_left hi,
        List.getElem?_eq_getElem hi]
    have hperiod := h _ _ hentry
    rw [List.getElem?_rotate (hlength ▸ hi), Nat.add_comm i, hperiod,
      List.getElem?_eq_getElem hi]
  · rw [List.getElem?_eq_none hi, List.getElem?_eq_none (hrotated ▸ hi)]

theorem FollowsPeriod.isRotated (h : FollowsPeriod xs period)
    (hwindow : window <:+: xs) (hlength : window.length = period.length) :
    window.IsRotated period := by
  obtain ⟨before, after, rfl⟩ := hwindow
  rw [h.eq_rotate hlength]
  exact .forall period _

end QCoin.Support
