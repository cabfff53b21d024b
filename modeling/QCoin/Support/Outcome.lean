import Mathlib.Data.List.Forall2

/-!
# Outcomes of fallible calls

A call ends with a value, with an error value, or with a panic.  Panics are
kept apart from errors because a caller can inspect an error and carry on,
whereas a panic never returns to it.  The `Except` monad supplies sequencing;
this module supplies the guards and the inversion rules which let a proof take
a successful computation apart without unfolding it.
-/

namespace QCoin.Support

/-- The ways in which a call can fail to return a value. -/
inductive Abort (ε : Type) where
  | err (error : ε)
  | panic
deriving DecidableEq, Repr

abbrev Result (ε α : Type) := Except (Abort ε) α

namespace Result

variable {ε ε' α β σ : Type}

/-- Fail with `error` unless the condition holds. -/
def require (p : Prop) [Decidable p] (error : ε) : Result ε Unit :=
  if p then .ok () else .error (.err error)

/-- Turn a missing value into an error. -/
def okOr (value : Option α) (error : ε) : Result ε α :=
  match value with
  | some a => .ok a
  | none => .error (.err error)

/-- Turn a missing value into a panic. -/
def orPanic (value : Option α) : Result ε α :=
  match value with
  | some a => .ok a
  | none => .error .panic

def isPanic : Result ε α → Bool
  | .error .panic => true
  | _ => false

/-- Rewrite the error value and leave successes and panics alone. -/
def mapErr (f : ε → ε') : Result ε α → Result ε' α
  | .ok a => .ok a
  | .error (.err e) => .error (.err (f e))
  | .error .panic => .error .panic

@[simp] theorem bind_eq_ok {x : Except ε α} {f : α → Except ε β} {b : β} :
    (x >>= f) = .ok b ↔ ∃ a, x = .ok a ∧ f a = .ok b := by
  cases x with
  | error e => simp [bind, Except.bind]
  | ok a => simp [bind, Except.bind]

@[simp] theorem pure_eq_ok {a b : α} :
    (pure a : Except ε α) = .ok b ↔ a = b := by
  simp [pure, Except.pure]

/-- All calls on a list succeed. -/
theorem mapM_eq_ok {f : α → Except ε β} {as : List α} {bs : List β} :
    as.mapM f = .ok bs ↔ List.Forall₂ (fun a b => f a = .ok b) as bs := by
  induction as generalizing bs with
  | nil => rw [List.mapM_nil, pure_eq_ok, List.forall₂_nil_left_iff, eq_comm]
  | cons a as ih =>
      simp only [List.mapM_cons, bind_eq_ok, pure_eq_ok, ih,
        List.forall₂_cons_left_iff]
      constructor
      · rintro ⟨b, hb, bs, hbs, rfl⟩
        exact ⟨b, bs, hb, hbs, rfl⟩
      · rintro ⟨b, bs, hb, hbs, rfl⟩
        exact ⟨b, hb, bs, hbs, rfl⟩

theorem exists_mapM_eq_ok {f : α → Except ε β} {as : List α}
    (h : ∀ a ∈ as, ∃ b, f a = .ok b) : ∃ bs, as.mapM f = .ok bs := by
  induction as with
  | nil => exact ⟨[], rfl⟩
  | cons a as ih =>
      obtain ⟨b, hb⟩ := h a List.mem_cons_self
      obtain ⟨bs, hbs⟩ := ih fun x hx => h x (List.mem_cons_of_mem a hx)
      refine ⟨b :: bs, ?_⟩
      rw [mapM_eq_ok] at hbs ⊢
      exact List.Forall₂.cons hb hbs

@[simp] theorem require_eq_ok {p : Prop} [Decidable p] {error : ε} {u : Unit} :
    require p error = .ok u ↔ p := by
  by_cases hp : p
  · simp [require, hp]
  · simp [require, hp]

@[simp] theorem okOr_eq_ok {value : Option α} {error : ε} {a : α} :
    okOr value error = .ok a ↔ value = some a := by
  cases value with
  | none => simp [okOr]
  | some b => simp [okOr]

@[simp] theorem orPanic_eq_ok {value : Option α} {a : α} :
    (orPanic value : Result ε α) = .ok a ↔ value = some a := by
  cases value with
  | none => simp [orPanic]
  | some b => simp [orPanic]

@[simp] theorem mapErr_eq_ok {f : ε → ε'} {x : Result ε α} {a : α} :
    mapErr f x = .ok a ↔ x = .ok a := by
  cases x with
  | ok b => simp [mapErr]
  | error e => cases e <;> simp [mapErr]

/-! ## How an error arises -/

theorem bind_eq_error {x : Result ε α} {f : α → Result ε β} {e : Abort ε} :
    (x >>= f) = .error e ↔
      x = .error e ∨ ∃ a, x = .ok a ∧ f a = .error e := by
  cases x with
  | error e' => simp [bind, Except.bind]
  | ok a => simp [bind, Except.bind]

theorem pure_ne_error {a : α} {e : Abort ε} :
    (pure a : Result ε α) ≠ .error e := by
  simp [pure, Except.pure]

theorem require_eq_error {p : Prop} [Decidable p] {error : ε} {e : Abort ε} :
    require p error = .error e ↔ ¬p ∧ e = .err error := by
  by_cases hp : p
  · simp [require, hp]
  · simp [require, hp, eq_comm]

theorem okOr_eq_error {value : Option α} {error : ε} {e : Abort ε} :
    okOr value error = .error e ↔ value = none ∧ e = .err error := by
  cases value with
  | none => simp [okOr, eq_comm]
  | some a => simp [okOr]

theorem orPanic_eq_error {value : Option α} {e : Abort ε} :
    orPanic value = .error e ↔ value = none ∧ e = .panic := by
  cases value with
  | none => simp [orPanic, eq_comm]
  | some a => simp [orPanic]

theorem mapErr_eq_err {f : ε → ε'} {x : Result ε α} {e' : ε'} :
    mapErr f x = .error (.err e') ↔ ∃ e, x = .error (.err e) ∧ f e = e' := by
  cases x with
  | ok a => simp [mapErr]
  | error e => cases e <;> simp [mapErr]

/-- A call without a result value either succeeds or reports an abort. -/
theorem eq_ok_of_isOk {x : Result ε Unit} (h : x.isOk = true) :
    x = .ok () := by
  cases x with
  | ok u => rfl
  | error e => simp [Except.isOk, Except.toBool] at h

end Result

end QCoin.Support
