import Mathlib.Data.List.Nodup
import QCoin.Support.Stateful

/-!
# Rounds of a loop

A loop over a list which ends at its first failure gets to some of its rounds
only.  `Rounds` says to which ones, and `Rounds.all_iff` under which failures
they are all values of the list.  A loop whose rounds cannot fail is a fold.
-/

namespace QCoin.Support

open Stateful

variable {σ ε α β : Type} {stops : β → σ → Prop} {next : σ → β → σ}

/-! ## Positions of a list -/

/-- Distinct values do not come again. -/
theorem forall_mem_before_iff {before after : List β} {b : β}
    (hnodup : (before ++ b :: after).Nodup) :
    (∀ later ∈ after, later ∈ before ++ [b]) ↔ after = [] := by
  rw [List.append_cons] at hnodup
  constructor
  · intro hseen
    exact List.eq_nil_iff_forall_not_mem.mpr fun later hlater =>
      hnodup.disjoint (hseen later hlater) hlater
  · rintro rfl later hlater
    exact absurd hlater List.not_mem_nil

/-- Every position in front of the last one. -/
theorem forall_split_iff_forall_lt {values : List β} {P : ℕ → Prop} :
    (∀ before b after, values = before ++ b :: after →
      ¬P before.length → after = []) ↔
      ∀ i, i + 1 < values.length → P i := by
  constructor
  · intro h i hi
    by_contra hP
    have hlength : (values.take i).length = i :=
      List.length_take_of_le (Nat.le_of_succ_le (Nat.le_of_lt hi))
    have hsplit : values =
        values.take i ++ values[i] :: values.drop (i + 1) := by
      rw [← List.drop_eq_getElem_cons, List.take_append_drop]
    have hend := h _ _ _ hsplit (by rwa [hlength])
    rw [List.drop_eq_nil_iff] at hend
    omega
  · rintro h before b after rfl hP
    by_contra hafter
    refine hP (h _ ?_)
    have hpos := List.length_pos_iff.mpr hafter
    rw [List.length_append, List.length_cons]
    omega

/-! ## Rounds -/

/-- From `s` on, a loop over a list gets to the rounds `made`.  A round which
stops the loop still belongs to them. -/
inductive Rounds (stops : β → σ → Prop) (next : σ → β → σ) :
    List β → σ → List β → Prop where
  | done {s : σ} : Rounds stops next [] s []
  | stop {b : β} {rest : List β} {s : σ} (hstop : stops b s) :
      Rounds stops next (b :: rest) s [b]
  | go {b : β} {rest made : List β} {s : σ} (hgo : ¬stops b s)
      (hrest : Rounds stops next rest (next s b) made) :
      Rounds stops next (b :: rest) s (b :: made)

namespace Rounds

variable {values made : List β} {s : σ}

theorem exists_made (values : List β) (s : σ) :
    ∃ made, Rounds stops next values s made := by
  induction values generalizing s with
  | nil => exact ⟨[], done⟩
  | cons b rest ih =>
      by_cases hstop : stops b s
      · exact ⟨[b], stop hstop⟩
      · obtain ⟨made, hrest⟩ := ih (next s b)
        exact ⟨b :: made, go hstop hrest⟩

/-- The loop leaves behind what its rounds do. -/
theorem after_forM (h : Rounds stops next values s made)
    {f : β → Stateful σ ε PUnit} (hafter : ∀ b s, (f b).after s = next s b)
    (hreturns : ∀ b s, Returns (f b) s ↔ ¬stops b s) :
    (values.forM f).after s = made.foldl next s := by
  induction h with
  | done => rfl
  | @stop b rest s hstop =>
      have hfails := mt (hreturns b s).mp (not_not.mpr hstop)
      rw [returns_iff] at hfails
      change (f b >>= fun _ => rest.forM f).after s = next s b
      cases hresult : (f b).result s with
      | ok u => exact absurd ⟨u, hresult⟩ hfails
      | error e =>
          have hexec : (f b).exec s = (.error e, next s b) :=
            Prod.ext hresult (hafter b s)
          rw [after, exec_bind_of_error hexec]
  | @go b rest made s hgo _ ih =>
      obtain ⟨u, hresult⟩ := returns_iff.mp ((hreturns b s).mpr hgo)
      have hexec : (f b).exec s = (.ok u, next s b) :=
        Prod.ext hresult (hafter b s)
      change (f b >>= fun _ => rest.forM f).after s = _
      rw [after, exec_bind_of_ok hexec]
      exact ih

/-- A loop gets to its end unless a round before the last one stops it. -/
theorem eq_iff (h : Rounds stops next values s made) :
    made = values ↔
      ∀ before b after, values = before ++ b :: after → after ≠ [] →
        ¬stops b (before.foldl next s) := by
  induction h with
  | done => exact iff_of_true rfl forall_split_nil
  | @stop b rest s hstop =>
      rw [forall_split_cons]
      cases rest with
      | nil => exact iff_of_true rfl ⟨fun h => absurd rfl h, forall_split_nil⟩
      | cons c rest =>
          refine iff_of_false (by simp) fun h => ?_
          exact h.1 (List.cons_ne_nil c rest) hstop
  | @go b rest made s hgo _ ih =>
      rw [forall_split_cons, List.cons_inj_right, ih]
      exact (and_iff_right fun _ => hgo).symm

/-- Beside what was seen before, the rounds reach every value unless one of
them stops the loop in front of a new one. -/
theorem covers_iff (h : Rounds stops next values s made) (seen : List β) :
    (∀ b ∈ values, b ∈ seen ++ made) ↔
      ∀ before b after, values = before ++ b :: after →
        stops b (before.foldl next s) →
          ∀ later ∈ after, later ∈ seen ++ before ++ [b] := by
  induction h generalizing seen with
  | done =>
      refine iff_of_true (fun b hb => ?_) forall_split_nil
      exact absurd hb List.not_mem_nil
  | @stop b rest s hstop =>
      rw [forall_split_cons, List.forall_mem_cons, List.append_nil]
      constructor
      · rintro ⟨-, hrest⟩
        refine ⟨fun _ => hrest, ?_⟩
        rintro before c after rfl - later hlater
        have hseen := hrest later
          (List.mem_append_right _ (List.mem_cons_of_mem _ hlater))
        simp only [List.mem_append, List.mem_cons] at hseen ⊢
        tauto
      · rintro ⟨hrest, -⟩
        exact ⟨List.mem_append_right _ (List.mem_singleton_self b),
          hrest hstop⟩
  | @go b rest made s hgo _ ih =>
      rw [forall_split_cons, List.forall_mem_cons]
      have hself : b ∈ seen ++ b :: made :=
        List.mem_append_right _ List.mem_cons_self
      have hhead : stops b (([] : List β).foldl next s) →
          ∀ later ∈ rest, later ∈ seen ++ [] ++ [b] :=
        fun hstop => absurd hstop hgo
      have hrest := ih (seen ++ [b])
      simp only [List.append_assoc, List.singleton_append] at hrest hhead ⊢
      rw [and_iff_right hself, and_iff_right hhead]
      exact hrest

/-- The rounds reach every value unless one of them stops the loop in front of
a new one. -/
theorem all_iff (h : Rounds stops next values s made) :
    (∀ b ∈ values, b ∈ made) ↔
      ∀ before b after, values = before ++ b :: after →
        stops b (before.foldl next s) → ∀ later ∈ after, later ∈ before ++ [b] :=
  h.covers_iff []

/-- Among distinct values only the last one may stop the loop. -/
theorem all_iff_of_nodup (h : Rounds stops next values s made)
    (hnodup : values.Nodup) :
    (∀ b ∈ values, b ∈ made) ↔
      ∀ before b after, values = before ++ b :: after →
        stops b (before.foldl next s) → after = [] := by
  rw [h.all_iff]
  refine forall_congr' fun before => forall_congr' fun b =>
    forall_congr' fun after => imp_congr_right fun hsplit =>
      imp_congr_right fun _ => ?_
  exact forall_mem_before_iff (hsplit ▸ hnodup)

end Rounds

/-- A loop whose rounds all return. -/
theorem exec_foldlM {f : α → β → Stateful σ ε α} {step : α × σ → β → α × σ}
    (h : ∀ a b s, (f a b).exec s =
      (.ok (step (a, s) b).1, (step (a, s) b).2))
    (values : List β) (a : α) (s : σ) :
    (values.foldlM f a).exec s =
      (.ok (values.foldl step (a, s)).1, (values.foldl step (a, s)).2) := by
  induction values generalizing a s with
  | nil => rfl
  | cons b rest ih =>
      rw [List.foldlM_cons, exec_bind_of_ok (h a b s), ih]
      rfl

end QCoin.Support
