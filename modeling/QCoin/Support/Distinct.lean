import Mathlib.Data.List.Forall2
import Mathlib.Data.List.Induction
import Mathlib.Data.List.Nodup

/-!
# Lists without repeats

A loop which pushes a value unless it has been pushed before.  What it leaves
are the values in the order of their first occurrence.
-/

namespace QCoin.Support

variable {α β : Type} [DecidableEq α] [DecidableEq β]

def pushNew (merged : List α) (value : α) : List α :=
  if value ∈ merged then merged else merged ++ [value]

/-- The values in the order of their first occurrence. -/
def distinct (values : List α) : List α :=
  values.foldl pushNew []

theorem pushNew_of_mem {merged : List α} {value : α} (h : value ∈ merged) :
    pushNew merged value = merged := if_pos h

theorem pushNew_of_notMem {merged : List α} {value : α} (h : value ∉ merged) :
    pushNew merged value = merged ++ [value] := if_neg h

theorem distinct_append (values : List α) (value : α) :
    distinct (values ++ [value]) = pushNew (distinct values) value := by
  rw [distinct, List.foldl_append, ← distinct]
  rfl

theorem mem_pushNew {merged : List α} {value a : α} :
    a ∈ pushNew merged value ↔ a ∈ merged ∨ a = value := by
  by_cases h : value ∈ merged
  · rw [pushNew_of_mem h]
    constructor
    · exact .inl
    · rintro (ha | rfl)
      · exact ha
      · exact h
  · rw [pushNew_of_notMem h, List.mem_append, List.mem_singleton]

theorem mem_distinct {values : List α} {a : α} :
    a ∈ distinct values ↔ a ∈ values := by
  induction values using List.reverseRecOn with
  | nil => rfl
  | append_singleton values value ih =>
      rw [distinct_append, mem_pushNew, ih, List.mem_append,
        List.mem_singleton]

/-- Values stand in the order of their first occurrence. -/
theorem pairwise_distinct (values : List α) :
    (distinct values).Pairwise fun a b => values.idxOf a < values.idxOf b := by
  induction values using List.reverseRecOn with
  | nil => exact List.Pairwise.nil
  | append_singleton values value ih =>
      have hold : ∀ a ∈ distinct values,
          (values ++ [value]).idxOf a = values.idxOf a := fun a ha =>
        List.idxOf_append_of_mem (mem_distinct.mp ha)
      have hkept : (distinct values).Pairwise fun a b =>
          (values ++ [value]).idxOf a < (values ++ [value]).idxOf b := by
        apply ih.imp_of_mem
        intro a b ha hb hab
        rwa [hold a ha, hold b hb]
      rw [distinct_append]
      by_cases hvalue : value ∈ distinct values
      · rwa [pushNew_of_mem hvalue]
      · rw [pushNew_of_notMem hvalue, List.pairwise_append]
        refine ⟨hkept, List.pairwise_singleton _ _, ?_⟩
        intro a ha b hb
        rw [List.mem_singleton.mp hb, hold a ha,
          List.idxOf_append_of_notMem (mt mem_distinct.mpr hvalue),
          List.idxOf_cons_self, Nat.add_zero]
        exact List.idxOf_lt_length_of_mem (mem_distinct.mp ha)

theorem nodup_distinct (values : List α) : (distinct values).Nodup := by
  apply (pairwise_distinct values).imp
  rintro a b hab rfl
  exact Nat.lt_irrefl _ hab

omit [DecidableEq α] [DecidableEq β] in
theorem exists_mem_of_forall₂ {R : α → β → Prop} {as : List α} {bs : List β}
    (h : List.Forall₂ R as bs) {a : α} (ha : a ∈ as) : ∃ b ∈ bs, R a b := by
  induction h with
  | nil => cases ha
  | @cons a' b' as bs hab _ ih =>
      rcases List.mem_cons.mp ha with rfl | ha
      · exact ⟨b', List.mem_cons_self, hab⟩
      · obtain ⟨b, hb, hR⟩ := ih ha
        exact ⟨b, List.mem_cons_of_mem b' hb, hR⟩

/-- A one-to-one relation keeps the repeats. -/
theorem forall₂_distinct {R : α → β → Prop} (hR : Relator.BiUnique R)
    {as : List α} {bs : List β} (h : List.Forall₂ R as bs) :
    List.Forall₂ R (distinct as) (distinct bs) := by
  refine List.rel_foldl ?_ List.Forall₂.nil h
  intro merged merged' hmerged a b hab
  have hmem : a ∈ merged ↔ b ∈ merged' := List.rel_mem hR hab hmerged
  by_cases ha : a ∈ merged
  · rw [pushNew_of_mem ha, pushNew_of_mem (hmem.mp ha)]
    exact hmerged
  · rw [pushNew_of_notMem ha, pushNew_of_notMem (mt hmem.mpr ha)]
    exact List.rel_append hmerged (List.Forall₂.cons hab List.Forall₂.nil)

end QCoin.Support
