import Mathlib.Data.Set.Basic
import Mathlib.Data.List.Pairwise

/-!
# Spend logs

Events take tokens from a pool and put tokens into it, and the same event may
occur again.  Tokens are distinguished by the event that creates them, not by
the occurrence, so a repeated event can bring a spent token back.

Call some tokens marked and call the events which create marked tokens solid.
If a solid event can only recur by spending a marked token, then no solid event
recurs at all: the token it would have to spend is gone since its first
occurrence, and bringing it back would take the recurrence of an earlier solid
event.  The induction runs over the history and carries, with the conclusion,
that marked tokens once spent are absent.
-/

namespace QCoin.Support

structure SpendLog (ε τ : Type) where
  spends : ε → Set τ
  creates : ε → Set τ

namespace SpendLog

variable {ε τ : Type} (log : SpendLog ε τ)

/-- The tokens in the pool after a history, whose latest event comes first. -/
def live : List ε → Set τ
  | [] => ∅
  | e :: past => (live past \ log.spends e) ∪ log.creates e

/-- Every event spends tokens which are in the pool. -/
def Lawful : List ε → Prop
  | [] => True
  | e :: past => log.spends e ⊆ log.live past ∧ Lawful past

/-- A solid event that recurs spends a marked token. -/
def Grounded (marked : Set τ) (solid : Set ε) : List ε → Prop
  | [] => True
  | e :: past =>
      (e ∈ solid → e ∈ past → ∃ t ∈ log.spends e, t ∈ marked) ∧
        Grounded marked solid past

/-- Within a history, a token determines its creator, and creators of marked
tokens are solid. -/
structure Attributed (marked : Set τ) (solid : Set ε) (history : List ε) :
    Prop where
  creator_unique : ∀ e ∈ history, ∀ e' ∈ history, ∀ t ∈ log.creates e,
    t ∈ log.creates e' → e = e'
  solid_of_marked : ∀ e ∈ history, ∀ t ∈ log.creates e, t ∈ marked → e ∈ solid

/-- No solid event recurs and no marked token comes back. -/
structure NoReuse (marked : Set τ) (solid : Set ε) (history : List ε) :
    Prop where
  distinct : history.Pairwise fun e e' => e ∈ solid → e ≠ e'
  spent_absent : ∀ e ∈ history, ∀ t ∈ log.spends e, t ∈ marked →
    t ∉ log.live history

variable {log} {marked : Set τ} {solid : Set ε}

theorem exists_creator_of_live {history : List ε} {t : τ}
    (h : t ∈ log.live history) : ∃ e ∈ history, t ∈ log.creates e := by
  induction history with
  | nil => exact absurd h (Set.notMem_empty t)
  | cons e past ih =>
      rcases h with ⟨hlive, -⟩ | hcreated
      · obtain ⟨e', he', ht⟩ := ih hlive
        exact ⟨e', List.mem_cons_of_mem e he', ht⟩
      · exact ⟨e, List.mem_cons_self, hcreated⟩

/-- A spent token was created earlier in the history. -/
theorem exists_creator_of_spent {history : List ε} {e : ε} {t : τ}
    (hlawful : log.Lawful history) (he : e ∈ history)
    (ht : t ∈ log.spends e) : ∃ a ∈ history, t ∈ log.creates a := by
  induction history with
  | nil => exact absurd he List.not_mem_nil
  | cons b past ih =>
      have hcreator : ∃ a ∈ past, t ∈ log.creates a := by
        rcases List.mem_cons.mp he with rfl | hin
        · exact exists_creator_of_live (hlawful.1 ht)
        · exact ih hlawful.2 hin
      obtain ⟨a, ha, hta⟩ := hcreator
      exact ⟨a, List.mem_cons_of_mem b ha, hta⟩

theorem Attributed.tail {e : ε} {past : List ε}
    (h : log.Attributed marked solid (e :: past)) :
    log.Attributed marked solid past where
  creator_unique a ha b hb :=
    h.creator_unique a (List.mem_cons_of_mem e ha) b
      (List.mem_cons_of_mem e hb)
  solid_of_marked a ha := h.solid_of_marked a (List.mem_cons_of_mem e ha)

/-- A marked token created by the latest event was never created before. -/
theorem notMem_creates_of_marked {e : ε} {past : List ε}
    (hattr : log.Attributed marked solid (e :: past))
    (hfresh : e ∈ solid → e ∉ past) {t : τ} (ht : t ∈ log.creates e)
    (hmarked : t ∈ marked) : ∀ e' ∈ past, t ∉ log.creates e' := by
  intro e' he' ht'
  have heq := hattr.creator_unique e List.mem_cons_self e'
    (List.mem_cons_of_mem e he') t ht ht'
  have hsolid := hattr.solid_of_marked e List.mem_cons_self t ht hmarked
  exact hfresh hsolid (heq ▸ he')

/-- A solid event does not recur on a pool from which its marked tokens are
absent. -/
theorem notMem_of_solid {e : ε} {past : List ε}
    (hlawful : log.Lawful (e :: past))
    (hground : log.Grounded marked solid (e :: past))
    (hpast : log.NoReuse marked solid past) (hsolid : e ∈ solid) :
    e ∉ past := by
  intro hmem
  obtain ⟨t, ht, hmarked⟩ := hground.1 hsolid hmem
  exact hpast.spent_absent e hmem t ht hmarked (hlawful.1 ht)

theorem noReuse {history : List ε} (hlawful : log.Lawful history)
    (hattr : log.Attributed marked solid history)
    (hground : log.Grounded marked solid history) :
    log.NoReuse marked solid history := by
  induction history with
  | nil => exact ⟨List.Pairwise.nil, fun e he => absurd he List.not_mem_nil⟩
  | cons e past ih =>
      have hpast := ih hlawful.2 hattr.tail hground.2
      have hfresh : e ∈ solid → e ∉ past :=
        notMem_of_solid hlawful hground hpast
      refine ⟨List.pairwise_cons.mpr ⟨?_, hpast.distinct⟩, ?_⟩
      · intro e' he' hsolid heq
        exact hfresh hsolid (heq ▸ he')
      · intro e' he' t ht hmarked hlive
        -- The token was in the pool when it was spent, so it has an earlier
        -- creator; a new creation of it is excluded.
        have hold : ∃ a ∈ past, t ∈ log.creates a := by
          rcases List.mem_cons.mp he' with rfl | hin
          · exact exists_creator_of_live (hlawful.1 ht)
          · exact exists_creator_of_spent hlawful.2 hin ht
        rcases hlive with ⟨hlive, hnotspent⟩ | hcreated
        · rcases List.mem_cons.mp he' with rfl | hin
          · exact hnotspent ht
          · exact hpast.spent_absent e' hin t ht hmarked hlive
        · obtain ⟨a, ha, hta⟩ := hold
          exact notMem_creates_of_marked hattr hfresh hcreated hmarked a ha hta

end SpendLog

end QCoin.Support
