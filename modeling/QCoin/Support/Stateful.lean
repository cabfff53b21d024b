import Mathlib.Logic.Relation
import QCoin.Support.Outcome

/-!
# Stateful calls

A call on a mutable state ends with a result, and it leaves a state behind
whether it succeeds, fails or panics.  What a call does to the state is
described by the single steps it consists of: `Takes E x s` says that `x`,
called in `s`, moves along steps of `E`.  A fact which every step of `E`
preserves holds after the call, however it ends.  How a call ends is computed
backwards from its end by the rules of `Ends`, and `Keeps` is the case of one
condition before and after.
-/

namespace QCoin.Support

abbrev Stateful (σ ε α : Type) := ExceptT (Abort ε) (StateM σ) α

namespace Stateful

variable {σ ε α β γ : Type}

/-- The result of a call and the state it leaves behind. -/
def exec (x : Stateful σ ε α) (s : σ) : Result ε α × σ :=
  (ExceptT.run x).run s

def result (x : Stateful σ ε α) (s : σ) : Result ε α :=
  (x.exec s).1

def after (x : Stateful σ ε α) (s : σ) : σ :=
  (x.exec s).2

/-! ## Primitive calls -/

/-- A call given by what it returns and leaves behind. -/
def call (f : σ → Result ε α × σ) : Stateful σ ε α :=
  ExceptT.mk fun s => f s

def inspect (f : σ → α) : Stateful σ ε α :=
  call fun s => (.ok (f s), s)

def update (f : σ → σ) : Stateful σ ε Unit :=
  call fun s => (.ok (), f s)

def fail (error : ε) : Stateful σ ε α :=
  call fun s => (.error (.err error), s)

/-- A call which touches no state. -/
def lift (r : Result ε α) : Stateful σ ε α :=
  call fun s => (r, s)

/-- A call which touches no state and does not panic. -/
def ofExcept (r : Except ε α) : Stateful σ ε α :=
  call fun s => (r.mapError Abort.err, s)

/-- Hand an error to the caller as a value; a panic still ends the caller. -/
def attempt (x : Stateful σ ε α) : Stateful σ ε (Except ε α) :=
  call fun s =>
    match x.exec s with
    | (.ok a, s) => (.ok (.ok a), s)
    | (.error (.err error), s) => (.ok (.error error), s)
    | (.error .panic, s) => (.error .panic, s)

@[simp] theorem exec_call (f : σ → Result ε α × σ) (s : σ) :
    (call f).exec s = f s := rfl

@[simp] theorem exec_inspect (f : σ → α) (s : σ) :
    (inspect f : Stateful σ ε α).exec s = (.ok (f s), s) := rfl

@[simp] theorem exec_update (f : σ → σ) (s : σ) :
    (update f : Stateful σ ε Unit).exec s = (.ok (), f s) := rfl

@[simp] theorem exec_fail (error : ε) (s : σ) :
    (fail error : Stateful σ ε α).exec s = (.error (.err error), s) := rfl

@[simp] theorem exec_pure (a : α) (s : σ) :
    (pure a : Stateful σ ε α).exec s = (.ok a, s) := rfl

theorem exec_bind (x : Stateful σ ε α) (f : α → Stateful σ ε β) (s : σ) :
    (x >>= f).exec s =
      match x.exec s with
      | (.ok a, s) => (f a).exec s
      | (.error e, s) => (.error e, s) := by
  change ((ExceptT.run x >>= ExceptT.bindCont f).run s) = _
  rw [StateT.run_bind]
  change (ExceptT.bindCont f (x.exec s).1).run (x.exec s).2 = _
  obtain ⟨r, s'⟩ := x.exec s
  cases r with
  | ok a => rfl
  | error e => rfl

theorem exec_bind_of_ok {x : Stateful σ ε α} {f : α → Stateful σ ε β}
    {s s' : σ} {a : α} (h : x.exec s = (.ok a, s')) :
    (x >>= f).exec s = (f a).exec s' := by
  rw [exec_bind, h]

theorem exec_bind_of_error {x : Stateful σ ε α} {f : α → Stateful σ ε β}
    {s s' : σ} {e : Abort ε} (h : x.exec s = (.error e, s')) :
    (x >>= f).exec s = (.error e, s') := by
  rw [exec_bind, h]

theorem after_bind_congr (x : Stateful σ ε α) {f : α → Stateful σ ε β}
    {g : α → Stateful σ ε γ} (h : ∀ a s, (f a).after s = (g a).after s)
    (s : σ) :
    (x >>= f).after s = (x >>= g).after s := by
  rw [after, after, exec_bind, exec_bind]
  obtain ⟨r, s'⟩ := x.exec s
  cases r with
  | ok a => exact h a s'
  | error e => rfl

/-- What is done with the value does not change the state. -/
theorem after_bind_pure (x : Stateful σ ε α) (f : α → β) (s : σ) :
    (x >>= fun a => pure (f a)).after s = x.after s := by
  rw [after, after, exec_bind]
  obtain ⟨r, s'⟩ := x.exec s
  cases r with
  | ok a => rfl
  | error e => rfl

theorem after_attempt (x : Stateful σ ε α) (s : σ) :
    (attempt x).after s = x.after s := by
  rw [after, after, attempt, exec_call]
  obtain ⟨r, s'⟩ := x.exec s
  cases r with
  | ok a => rfl
  | error e => cases e <;> rfl

/-! ## The steps of a call -/

/-- Called in `s`, the call moves along steps of `E`. -/
def Takes (E : σ → σ → Prop) (x : Stateful σ ε α) (s : σ) : Prop :=
  Relation.ReflTransGen E s (x.after s)

namespace Takes

variable {E : σ → σ → Prop} {s : σ}

theorem still {x : Stateful σ ε α} (h : x.after s = s) : Takes E x s := by
  rw [Takes, h]

theorem step {x : Stateful σ ε α} (h : E s (x.after s)) : Takes E x s :=
  Relation.ReflTransGen.single h

theorem pure (a : α) : Takes E (Pure.pure a : Stateful σ ε α) s :=
  still rfl

theorem mono {E' : σ → σ → Prop} {x : Stateful σ ε α} (hx : Takes E x s)
    (h : ∀ s s', E s s' → E' s s') : Takes E' x s :=
  Relation.ReflTransGen.mono h _ _ hx

theorem inspect (f : σ → α) : Takes E (inspect f : Stateful σ ε α) s :=
  still rfl

theorem fail (error : ε) : Takes E (fail error : Stateful σ ε α) s :=
  still rfl

theorem update {f : σ → σ} (h : E s (f s)) :
    Takes E (update f : Stateful σ ε Unit) s :=
  step h

/-- The second call is made only if the first one succeeds. -/
theorem bind {x : Stateful σ ε α} {f : α → Stateful σ ε β}
    (hx : Takes E x s)
    (hf : ∀ a, x.result s = .ok a → Takes E (f a) (x.after s)) :
    Takes E (x >>= f) s := by
  rw [Takes, after, exec_bind]
  rw [Takes] at hx
  cases hr : x.result s with
  | error e =>
      have hexec : x.exec s = (.error e, x.after s) := Prod.ext hr rfl
      rw [hexec]
      exact hx
  | ok a =>
      have hexec : x.exec s = (.ok a, x.after s) := Prod.ext hr rfl
      rw [hexec]
      exact hx.trans (hf a hr)

theorem attempt {x : Stateful σ ε α} (hx : Takes E x s) :
    Takes E (attempt x) s := by
  rw [Takes, after_attempt]
  exact hx

theorem ite {p : Prop} [Decidable p] {x y : Stateful σ ε α}
    (hx : p → Takes E x s) (hy : ¬p → Takes E y s) :
    Takes E (if p then x else y) s := by
  by_cases hp : p
  · rw [if_pos hp]
    exact hx hp
  · rw [if_neg hp]
    exact hy hp

/-- A loop over a list takes the steps of its rounds. -/
theorem forM {xs : List β} {f : β → Stateful σ ε PUnit}
    (h : ∀ b ∈ xs, ∀ s, Takes E (f b) s) : Takes E (xs.forM f) s := by
  induction xs generalizing s with
  | nil => exact pure _
  | cons b xs ih =>
      have hrest : ∀ s, Takes E (xs.forM f) s := fun s =>
        ih fun b' hb' => h b' (List.mem_cons_of_mem _ hb')
      exact bind (f := fun _ => xs.forM f) (h b List.mem_cons_self s)
        fun _ _ => hrest _

/-- What every step preserves holds after the call. -/
theorem invariant {x : Stateful σ ε α} (hx : Takes E x s)
    (Inv : σ → Prop) (hstep : ∀ s s', E s s' → Inv s → Inv s')
    (h : Inv s) : Inv (x.after s) := by
  rw [Takes] at hx
  generalize x.after s = s' at hx
  induction hx with
  | refl => exact h
  | tail _ hlast ih => exact hstep _ _ hlast ih

/-- A preorder which contains the steps contains the call. -/
theorem related {R : σ → σ → Prop} {x : Stateful σ ε α} (hx : Takes E x s)
    (hrefl : ∀ s, R s s)
    (htrans : ∀ s₁ s₂ s₃, R s₁ s₂ → R s₂ s₃ → R s₁ s₃)
    (hstep : ∀ s s', E s s' → R s s') : R s (x.after s) :=
  hx.invariant (R s)
    (fun s₁ s₂ h h' => htrans s s₁ s₂ h' (hstep s₁ s₂ h)) (hrefl s)

end Takes

/-! ## Positions of a list -/

theorem forall_split_nil {P : List β → β → List β → Prop} (before : List β)
    (b : β) (after : List β) (h : [] = before ++ b :: after) :
    P before b after := by
  cases before <;> cases h

theorem forall_split_cons {P : List β → β → List β → Prop} {x : β}
    {xs : List β} :
    (∀ before b after, x :: xs = before ++ b :: after → P before b after) ↔
      P [] x xs ∧
        ∀ before b after, xs = before ++ b :: after →
          P (x :: before) b after := by
  constructor
  · intro h
    refine ⟨h [] x xs rfl, fun before b after hsplit => ?_⟩
    exact h (x :: before) b after (congrArg (x :: ·) hsplit)
  · rintro ⟨hx, hxs⟩ before b after hsplit
    cases before with
    | nil =>
        obtain ⟨rfl, rfl⟩ := List.cons.inj hsplit
        exact hx
    | cons y before =>
        obtain ⟨rfl, hrest⟩ := List.cons.inj hsplit
        exact hxs before b after hrest

/-! ## Pre- and postconditions -/

/-- Called in `s`, the call returns with `Q` or fails with `R`, and does not
panic. -/
def Ends (x : Stateful σ ε α) (Q : α → σ → Prop) (R : ε → σ → Prop) (s : σ) :
    Prop :=
  match x.exec s with
  | (.ok a, s') => Q a s'
  | (.error (.err error), s') => R error s'
  | (.error .panic, _) => False

/-- Called in `s`, the call returns. -/
abbrev Returns (x : Stateful σ ε α) (s : σ) : Prop :=
  Ends x (fun _ _ => True) (fun _ _ => False) s

/-- Called in `s`, the call does not panic. -/
abbrev Survives (x : Stateful σ ε α) (s : σ) : Prop :=
  Ends x (fun _ _ => True) (fun _ _ => True) s

namespace Ends

variable {Q : α → σ → Prop} {R : ε → σ → Prop} {s : σ}

theorem pure_iff {a : α} :
    Ends (Pure.pure a : Stateful σ ε α) Q R s ↔ Q a s := Iff.rfl

theorem fail_iff {error : ε} :
    Ends (Stateful.fail error : Stateful σ ε α) Q R s ↔ R error s := Iff.rfl

theorem ofExcept_iff {r : Except ε α} :
    Ends (Stateful.ofExcept r : Stateful σ ε α) Q R s ↔
      (∀ a, r = .ok a → Q a s) ∧ ∀ error, r = .error error → R error s := by
  cases r with
  | ok a => simp [Ends, Stateful.ofExcept, Except.mapError]
  | error error => simp [Ends, Stateful.ofExcept, Except.mapError]

theorem bind_iff {x : Stateful σ ε α} {f : α → Stateful σ ε β}
    {Q : β → σ → Prop} :
    Ends (x >>= f) Q R s ↔ Ends x (fun a s => Ends (f a) Q R s) R s := by
  rw [Ends, Ends, exec_bind]
  obtain ⟨r, s'⟩ := x.exec s
  cases r with
  | ok a => exact Iff.rfl
  | error e => cases e with
    | err error => exact Iff.rfl
    | panic => exact Iff.rfl

/-- The errors of the call are values for its caller. -/
theorem attempt_iff {x : Stateful σ ε α} {Q : Except ε α → σ → Prop} :
    Ends (Stateful.attempt x) Q R s ↔
      Ends x (fun a => Q (.ok a)) (fun error => Q (.error error)) s := by
  rw [Ends, Ends, Stateful.attempt, exec_call]
  obtain ⟨r, s'⟩ := x.exec s
  cases r with
  | ok a => exact Iff.rfl
  | error e => cases e with
    | err error => exact Iff.rfl
    | panic => exact Iff.rfl

theorem ite_iff {p : Prop} [Decidable p] {x y : Stateful σ ε α} :
    Ends (if p then x else y) Q R s ↔
      (p → Ends x Q R s) ∧ (¬p → Ends y Q R s) := by
  by_cases hp : p
  · simp only [hp, if_true, true_implies, not_true, false_implies, and_true]
  · simp only [hp, if_false, false_implies, not_false_iff, true_implies,
      true_and]

theorem mono {x : Stateful σ ε α} {Q' : α → σ → Prop} {R' : ε → σ → Prop}
    (h : Ends x Q R s) (hQ : ∀ a s, Q a s → Q' a s)
    (hR : ∀ error s, R error s → R' error s) : Ends x Q' R' s := by
  rw [Ends] at h ⊢
  generalize x.exec s = ending at h ⊢
  obtain ⟨r, s'⟩ := ending
  cases r with
  | ok a => exact hQ a s' h
  | error e => cases e with
    | err error => exact hR error s' h
    | panic => exact h

/-- What holds however the call ends holds of the state it leaves behind. -/
theorem after {x : Stateful σ ε α} {P : σ → Prop}
    (h : Ends x (fun _ => P) (fun _ => P) s) : P (x.after s) := by
  rw [Ends] at h
  rw [Stateful.after]
  generalize x.exec s = ending at h ⊢
  obtain ⟨r, s'⟩ := ending
  cases r with
  | ok a => exact h
  | error e => cases e with
    | err error => exact h
    | panic => exact h.elim

theorem of_exec_ok {x : Stateful σ ε α} {s' : σ} {a : α} (h : Ends x Q R s)
    (hexec : x.exec s = (.ok a, s')) : Q a s' := by
  rwa [Ends, hexec] at h

/-- A loop in which every round returns under a condition on its state. -/
theorem forM_iff {f : β → Stateful σ ε PUnit} {runs : β → σ → Prop}
    {next : σ → β → σ} {Q : PUnit → σ → Prop}
    (h : ∀ b s (Q : PUnit → σ → Prop),
      Ends (f b) Q R s ↔ runs b s ∧ Q ⟨⟩ (next s b)) (xs : List β) :
    Ends (xs.forM f) Q R s ↔
      (∀ before b after, xs = before ++ b :: after →
        runs b (before.foldl next s)) ∧ Q ⟨⟩ (xs.foldl next s) := by
  induction xs generalizing s with
  | nil => exact (and_iff_right forall_split_nil).symm
  | cons x xs ih =>
      change Ends (f x >>= fun _ => xs.forM f) Q R s ↔ _
      rw [bind_iff, h, ih, forall_split_cons, and_assoc]
      rfl

end Ends

theorem returns_iff {x : Stateful σ ε α} {s : σ} :
    Returns x s ↔ ∃ a, x.result s = .ok a := by
  rw [Returns, Ends, result]
  generalize x.exec s = ending
  obtain ⟨r, s'⟩ := ending
  cases r with
  | ok a => exact iff_of_true trivial ⟨a, rfl⟩
  | error e => cases e with
    | err error =>
        refine iff_of_false not_false ?_
        rintro ⟨a, ⟨⟩⟩
    | panic =>
        refine iff_of_false not_false ?_
        rintro ⟨a, ⟨⟩⟩

namespace Survives

variable {s : σ}

theorem bind_ends {x : Stateful σ ε α} {f : α → Stateful σ ε β}
    {Q : β → σ → Prop} (hx : Survives x s)
    (hf : ∀ a s, Ends (f a) Q (fun _ _ => True) s) :
    Ends (x >>= f) Q (fun _ _ => True) s :=
  Ends.bind_iff.mpr (hx.mono (fun a s _ => hf a s) fun _ _ h => h)

theorem bind {x : Stateful σ ε α} {f : α → Stateful σ ε β}
    (hx : Survives x s) (hf : ∀ a s, Survives (f a) s) :
    Survives (x >>= f) s :=
  hx.bind_ends hf

theorem attempt {x : Stateful σ ε α} (hx : Survives x s) :
    Survives (attempt x) s :=
  Ends.attempt_iff.mpr hx

theorem forM {f : β → Stateful σ ε PUnit} (hf : ∀ b s, Survives (f b) s)
    (xs : List β) : Survives (xs.forM f) s := by
  induction xs generalizing s with
  | nil => exact trivial
  | cons x xs ih => exact bind (hf x s) fun _ _ => ih

theorem ite {p : Prop} [Decidable p] {x y : Stateful σ ε α}
    (hx : Survives x s) (hy : Survives y s) :
    Survives (if p then x else y) s :=
  Ends.ite_iff.mpr ⟨fun _ => hx, fun _ => hy⟩

end Survives

/-! ## Calls which keep a condition -/

/-- Called where `P` holds the call does not panic, and `P` holds after it,
whether it succeeds or fails. -/
def Keeps (P : σ → Prop) (x : Stateful σ ε α) : Prop :=
  ∀ s, P s → Ends x (fun _ => P) (fun _ => P) s

namespace Keeps

variable {P : σ → Prop}

theorem pure (a : α) : Keeps P (Pure.pure a : Stateful σ ε α) :=
  fun _ h => h

theorem fail (error : ε) : Keeps P (fail error : Stateful σ ε α) :=
  fun _ h => h

theorem inspect (f : σ → α) : Keeps P (inspect f : Stateful σ ε α) :=
  fun _ h => h

theorem update {f : σ → σ} (hf : ∀ s, P s → P (f s)) :
    Keeps P (update f : Stateful σ ε Unit) :=
  fun s h => hf s h

theorem bind {x : Stateful σ ε α} {f : α → Stateful σ ε β}
    (hx : Keeps P x) (hf : ∀ a, Keeps P (f a)) : Keeps P (x >>= f) :=
  fun s h => Ends.bind_iff.mpr
    ((hx s h).mono (fun a s' h' => hf a s' h') fun _ _ h' => h')

theorem attempt {x : Stateful σ ε α} (hx : Keeps P x) :
    Keeps P (attempt x) :=
  fun s h => Ends.attempt_iff.mpr (hx s h)

theorem ite {p : Prop} [Decidable p] {x y : Stateful σ ε α}
    (hx : Keeps P x) (hy : Keeps P y) : Keeps P (if p then x else y) :=
  fun s h => Ends.ite_iff.mpr ⟨fun _ => hx s h, fun _ => hy s h⟩

theorem forM {f : β → Stateful σ ε PUnit} (hf : ∀ b, Keeps P (f b))
    (xs : List β) : Keeps P (xs.forM f) := by
  induction xs with
  | nil => exact pure _
  | cons x xs ih => exact bind (hf x) fun _ => ih

theorem foldlM {f : γ → β → Stateful σ ε γ} (hf : ∀ c b, Keeps P (f c b))
    (c : γ) (xs : List β) : Keeps P (xs.foldlM f c) := by
  induction xs generalizing c with
  | nil => exact pure c
  | cons x xs ih => exact bind (hf c x) fun c' => ih c'

theorem after {x : Stateful σ ε α} (hx : Keeps P x) {s : σ} (h : P s) :
    P (x.after s) :=
  (hx s h).after

/-- How the call ended is not a panic. -/
theorem result_ne_panic {x : Stateful σ ε α} (hx : Keeps P x) {s : σ}
    (h : P s) : x.result s ≠ .error .panic := by
  intro hpanic
  have hends := hx s h
  rw [Ends, show x.exec s = (.error .panic, x.after s) from
    Prod.ext hpanic rfl] at hends
  exact hends

end Keeps

end Stateful

end QCoin.Support
