import Mathlib.Data.List.Basic
import Mathlib.Data.Set.Basic

/-!
# Throttles

A system which notes for every key when it last served it, on a clock that does
not run backwards.  What it emits under a limit is spaced when each such
emission waits for the gap since the last note: a note is never older than an
emission it was made for.
-/

namespace QCoin.Support

/-- A system with states `σ` which reacts to events `ε` by emissions `β`, each
for a key `κ`. -/
structure Throttle (σ ε κ β : Type) where
  step : σ → ε → σ
  emit : σ → ε → List β
  /-- When the system last noted that it served a key. -/
  last : σ → κ → Option ℕ
  /-- What the clock shows during an event. -/
  readings : ε → Set ℕ
  key : β → κ
  time : β → ℕ
  limited : β → Prop

namespace Throttle

variable {σ ε κ β : Type} (T : Throttle σ ε κ β)

/-- Everything emitted in a run. -/
def emissions (s : σ) : List ε → List β
  | [] => []
  | e :: es => T.emit s e ++ emissions (T.step s e) es

/-- The clock does not run backwards from event to event. -/
def Ordered (es : List ε) : Prop :=
  es.Pairwise fun e e' => ∀ t ∈ T.readings e, ∀ t' ∈ T.readings e', t ≤ t'

/-- No note is younger than the events to come. -/
def NotedBefore (s : σ) (es : List ε) : Prop :=
  ∀ k t, T.last s k = some t → ∀ e ∈ es, ∀ t' ∈ T.readings e, t ≤ t'

/-- The rules of a throttle, for events which are `proper`. -/
structure Spaces (gap : ℕ) (proper : ε → Prop) : Prop where
  noted : ∀ s e k, T.last (T.step s e) k = T.last s k ∨
    ∃ t ∈ T.readings e, T.last (T.step s e) k = some t
  single : ∀ s e, (T.emit s e).length ≤ 1
  served : ∀ s e, ∀ b ∈ T.emit s e,
    T.last (T.step s e) (T.key b) = some (T.time b)
  due : ∀ s e, proper e → ∀ b ∈ T.emit s e, T.limited b →
    ∀ t, T.last s (T.key b) = some t → t + gap ≤ T.time b

variable {T} {gap : ℕ} {proper : ε → Prop} {s : σ} {e : ε} {es : List ε}

theorem NotedBefore.step (h : T.NotedBefore s (e :: es))
    (hspaces : T.Spaces gap proper) (hordered : T.Ordered (e :: es)) :
    T.NotedBefore (T.step s e) es := by
  intro k t ht e' he' t' ht'
  rcases hspaces.noted s e k with hsame | ⟨reading, hreading, hnoted⟩
  · rw [hsame] at ht
    exact h k t ht e' (List.mem_cons_of_mem _ he') t' ht'
  · rw [hnoted, Option.some.injEq] at ht
    rw [← ht]
    exact (List.pairwise_cons.mp hordered).1 e' he' reading hreading t' ht'

/-- A limited emission waits for the gap since any earlier note. -/
theorem due_emissions (hspaces : T.Spaces gap proper)
    (hproper : ∀ e ∈ es, proper e) (hordered : T.Ordered es)
    (hnoted : T.NotedBefore s es) :
    ∀ b ∈ T.emissions s es, T.limited b →
      ∀ t, T.last s (T.key b) = some t → t + gap ≤ T.time b := by
  induction es generalizing s with
  | nil => exact fun b hb => absurd hb List.not_mem_nil
  | cons e es ih =>
      intro b hb hlimited t ht
      rw [List.forall_mem_cons] at hproper
      rcases List.mem_append.mp hb with hhead | htail
      · exact hspaces.due s e hproper.1 b hhead hlimited t ht
      · have hrest := ih hproper.2 (List.pairwise_cons.mp hordered).2
          (hnoted.step hspaces hordered) b htail hlimited
        rcases hspaces.noted s e (T.key b) with hsame | ⟨t', ht', hnew⟩
        · exact hrest t (hsame.trans ht)
        · have hle := hnoted (T.key b) t ht e List.mem_cons_self t' ht'
          have hgap := hrest t' hnew
          omega

/-- Run rule: limited emissions follow every earlier emission for their key by
the gap. -/
theorem pairwise_emissions (hspaces : T.Spaces gap proper)
    (hproper : ∀ e ∈ es, proper e) (hordered : T.Ordered es)
    (hnoted : T.NotedBefore s es) :
    (T.emissions s es).Pairwise fun a b =>
      T.key a = T.key b → T.limited b → T.time a + gap ≤ T.time b := by
  induction es generalizing s with
  | nil => exact List.Pairwise.nil
  | cons e es ih =>
      rw [List.forall_mem_cons] at hproper
      have htail := (List.pairwise_cons.mp hordered).2
      have hnext := hnoted.step hspaces hordered
      refine List.pairwise_append.mpr ⟨?_, ih hproper.2 htail hnext, ?_⟩
      · match T.emit s e, hspaces.single s e with
        | [], _ => exact List.Pairwise.nil
        | [b], _ => exact List.pairwise_singleton _ _
      · intro a ha b hb hkey hlimited
        refine due_emissions hspaces hproper.2 htail hnext b hb hlimited _ ?_
        rw [← hkey]
        exact hspaces.served s e a ha

end Throttle

end QCoin.Support
