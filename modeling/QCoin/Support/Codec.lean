import Mathlib.Data.List.Basic
import Mathlib.Tactic.Ring

/-!
# Self-delimiting byte encodings

An encoder is a partial map into byte strings; it is undefined where the code
it stands for would refuse to produce output.  An encoder is self-delimiting
when two encodings followed by arbitrary tails can only agree if the values
and the tails agree.  Self-delimiting encoders may be concatenated without
losing information, so the injectivity of a record or list format follows from
that of its fields.
-/

namespace QCoin.Support

abbrev Bytes := List UInt8

/-! ## Fixed-width little-endian numbers -/

/-- The `width` low-order bytes of `n`, least significant first. -/
def leBytes : ℕ → ℕ → Bytes
  | 0, _ => []
  | width + 1, n => UInt8.ofNat n :: leBytes width (n / 256)

/-- The number denoted by a little-endian byte string. -/
def leValue : Bytes → ℕ
  | [] => 0
  | b :: bs => b.toNat + 256 * leValue bs

@[simp] theorem length_leBytes (width n : ℕ) :
    (leBytes width n).length = width := by
  induction width generalizing n with
  | zero => rfl
  | succ width ih => simp [leBytes, ih]

theorem leValue_leBytes (width n : ℕ) :
    leValue (leBytes width n) = n % 256 ^ width := by
  induction width generalizing n with
  | zero => simp [leBytes, leValue, Nat.mod_one]
  | succ width ih =>
      have hbyte : (UInt8.ofNat n).toNat = n % 256 := by simp
      calc
        leValue (leBytes (width + 1) n) =
            n % 256 + 256 * (n / 256 % 256 ^ width) := by
          simp only [leBytes, leValue, ih, hbyte]
        _ = n % (256 * 256 ^ width) := (Nat.mod_mul).symm
        _ = n % 256 ^ (width + 1) := by rw [pow_succ, Nat.mul_comm]

theorem leBytes_injective_of_lt {width m n : ℕ}
    (hm : m < 256 ^ width) (hn : n < 256 ^ width)
    (h : leBytes width m = leBytes width n) : m = n := by
  have hvalue := congrArg leValue h
  rwa [leValue_leBytes, leValue_leBytes, Nat.mod_eq_of_lt hm,
    Nat.mod_eq_of_lt hn] at hvalue

theorem leValue_lt (bytes : Bytes) : leValue bytes < 256 ^ bytes.length := by
  induction bytes with
  | nil => exact Nat.one_pos
  | cons b bytes ih =>
      have hb := b.toNat_lt
      rw [leValue, List.length_cons, pow_succ]
      omega

/-- A byte string is the number which it denotes, at its own width. -/
theorem leBytes_leValue {width : ℕ} {bytes : Bytes}
    (h : bytes.length = width) : leBytes width (leValue bytes) = bytes := by
  induction bytes generalizing width with
  | nil =>
      subst h
      rfl
  | cons b bytes ih =>
      subst h
      have hb := b.toNat_lt
      have hdiv : (b.toNat + 256 * leValue bytes) / 256 = leValue bytes := by
        omega
      have hbyte : UInt8.ofNat (b.toNat + 256 * leValue bytes) = b := by
        apply UInt8.toNat_inj.mp
        rw [UInt8.toNat_ofNat']
        omega
      rw [leValue, List.length_cons, leBytes, hdiv, hbyte, ih rfl]

/-! ## Canonical encodings -/

/-- A writer and a reader which may refuse their arguments and invert each
other where they do not.  No value is read from two byte strings. -/
structure Canonical {ε α : Type} (write : α → Except ε Bytes)
    (read : Bytes → Except ε α) : Prop where
  readBack : ∀ value bytes, write value = .ok bytes → read bytes = .ok value
  rewritten : ∀ value bytes, read bytes = .ok value → write value = .ok bytes
  once : ∀ value bytes bytes', read bytes = .ok value →
    read bytes' = .ok value → bytes = bytes'

theorem Canonical.of_iff {ε α : Type} {write : α → Except ε Bytes}
    {read : Bytes → Except ε α}
    (h : ∀ value bytes, write value = .ok bytes ↔ read bytes = .ok value) :
    Canonical write read where
  readBack value bytes := (h value bytes).mp
  rewritten value bytes := (h value bytes).mpr
  once value bytes bytes' hread hread' := by
    have hwrite := (h value bytes).mpr hread
    have hwrite' := (h value bytes').mpr hread'
    exact Except.ok.inj (hwrite.symm.trans hwrite')

/-! ## Self-delimiting encoders -/

abbrev Encoder (α : Type) := α → Option Bytes

section SelfDelimiting

variable {α β : Type}

def SelfDelimiting (enc : Encoder α) : Prop :=
  ∀ ⦃a b : α⦄ ⦃x y s t : Bytes⦄,
    enc a = some x → enc b = some y → x ++ s = y ++ t → a = b ∧ s = t

/-- Two values with one encoding are equal. -/
def UniquelyEncoded (enc : Encoder α) : Prop :=
  ∀ ⦃a b : α⦄ ⦃x : Bytes⦄, enc a = some x → enc b = some x → a = b

theorem SelfDelimiting.uniquelyEncoded {enc : Encoder α}
    (h : SelfDelimiting enc) : UniquelyEncoded enc := by
  intro a b x ha hb
  exact (h (s := []) (t := []) ha hb rfl).1

/-- Values which fit are encoded, different ones differently. -/
structure Distinguishes (enc : Encoder α) (fits : α → Prop) : Prop where
  encoded : ∀ a, fits a → ∃ x, enc a = some x
  distinct : ∀ a b, fits a → fits b → a ≠ b → enc a ≠ enc b

theorem UniquelyEncoded.distinguishes {enc : Encoder α} {fits : α → Prop}
    (h : UniquelyEncoded enc) (hencoded : ∀ a, fits a → (enc a).isSome) :
    Distinguishes enc fits where
  encoded a ha := Option.isSome_iff_exists.mp (hencoded a ha)
  distinct a b ha hb hne heq := by
    obtain ⟨x, hx⟩ := Option.isSome_iff_exists.mp (hencoded a ha)
    exact hne (h hx (heq.symm.trans hx))

/-- An injective format whose encodings all have one length is
self-delimiting. -/
theorem selfDelimiting_of_length {enc : Encoder α} (width : ℕ)
    (hlength : ∀ a x, enc a = some x → x.length = width)
    (hunique : UniquelyEncoded enc) : SelfDelimiting enc := by
  intro a b x y s t ha hb h
  have hlen : x.length = y.length := by
    rw [hlength a x ha, hlength b y hb]
  obtain ⟨hxy, hst⟩ := List.append_inj h hlen
  subst hxy
  exact ⟨hunique ha hb, hst⟩

/-- Encode through an injective change of representation. -/
theorem SelfDelimiting.comap {enc : Encoder β} {f : α → β}
    (h : SelfDelimiting enc) (hf : Function.Injective f) :
    SelfDelimiting fun a => enc (f a) := by
  intro a b x y s t ha hb hxy
  obtain ⟨hab, hst⟩ := h ha hb hxy
  exact ⟨hf hab, hst⟩

/-! ## Concatenation -/

/-- The first encoding followed by the second. -/
def encodeAppend (x y : Option Bytes) : Option Bytes := do
  let first ← x
  let second ← y
  return first ++ second

@[simp] theorem encodeAppend_eq_some {x y : Option Bytes} {z : Bytes} :
    encodeAppend x y = some z ↔
      ∃ a b, x = some a ∧ y = some b ∧ a ++ b = z := by
  simp [encodeAppend, Option.bind_eq_some_iff]

@[simp] theorem encodeAppend_nil_left (y : Option Bytes) :
    encodeAppend (some []) y = y := by
  cases y <;> rfl

@[simp] theorem encodeAppend_nil_right (x : Option Bytes) :
    encodeAppend x (some []) = x := by
  cases x <;> simp [encodeAppend]

theorem encodeAppend_assoc (x y z : Option Bytes) :
    encodeAppend (encodeAppend x y) z =
      encodeAppend x (encodeAppend y z) := by
  cases x <;> cases y <;> cases z <;> simp [encodeAppend]

/-- A self-delimiting head lets the tail be read with the same precision. -/
theorem SelfDelimiting.append {f : Encoder α} {g : Encoder β}
    (hf : SelfDelimiting f) (hg : SelfDelimiting g) :
    SelfDelimiting fun p : α × β => encodeAppend (f p.1) (g p.2) := by
  rintro ⟨a, a'⟩ ⟨b, b'⟩ x y s t hx hy h
  obtain ⟨x₁, x₂, hx₁, hx₂, rfl⟩ := encodeAppend_eq_some.mp hx
  obtain ⟨y₁, y₂, hy₁, hy₂, rfl⟩ := encodeAppend_eq_some.mp hy
  rw [List.append_assoc, List.append_assoc] at h
  obtain ⟨hab, htail⟩ := hf hx₁ hy₁ h
  obtain ⟨hab', hst⟩ := hg hx₂ hy₂ htail
  exact ⟨Prod.ext hab hab', hst⟩

/-! ## Lists -/

/-- The encodings of the elements, one after the other. -/
def encodeAll (enc : Encoder α) : List α → Option Bytes
  | [] => some []
  | a :: as => encodeAppend (enc a) (encodeAll enc as)

/-- Lists of one common length can be read back element by element. -/
theorem encodeAll_selfDelimiting {enc : Encoder α} (h : SelfDelimiting enc)
    (n : ℕ) :
    ∀ ⦃as bs : List α⦄ ⦃x y s t : Bytes⦄, as.length = n → bs.length = n →
      encodeAll enc as = some x → encodeAll enc bs = some y →
        x ++ s = y ++ t → as = bs ∧ s = t := by
  induction n with
  | zero =>
      intro as bs x y s t has hbs hx hy hxy
      rw [List.length_eq_zero_iff] at has hbs
      subst has hbs
      simp only [encodeAll, Option.some.injEq] at hx hy
      subst hx hy
      exact ⟨rfl, by simpa using hxy⟩
  | succ n ih =>
      intro as bs x y s t has hbs hx hy hxy
      obtain ⟨a, as, rfl⟩ := List.exists_cons_of_length_eq_add_one has
      obtain ⟨b, bs, rfl⟩ := List.exists_cons_of_length_eq_add_one hbs
      obtain ⟨x₁, x₂, hx₁, hx₂, rfl⟩ := encodeAppend_eq_some.mp hx
      obtain ⟨y₁, y₂, hy₁, hy₂, rfl⟩ := encodeAppend_eq_some.mp hy
      rw [List.append_assoc, List.append_assoc] at hxy
      obtain ⟨hab, htail⟩ := h hx₁ hy₁ hxy
      obtain ⟨habs, hst⟩ := ih (by simpa using has) (by simpa using hbs)
        hx₂ hy₂ htail
      exact ⟨by rw [hab, habs], hst⟩

@[simp] theorem encodeAll_nil (enc : Encoder α) : encodeAll enc [] = some [] :=
  rfl

theorem encodeAll_append {enc : Encoder α} {as bs : List α} :
    encodeAll enc (as ++ bs) =
      encodeAppend (encodeAll enc as) (encodeAll enc bs) := by
  induction as with
  | nil => exact (encodeAppend_nil_left _).symm
  | cons a as ih =>
      rw [List.cons_append, encodeAll, encodeAll, ih, encodeAppend_assoc]

/-- Two runs of elements with arbitrary tails agree up to the end of the
shorter run, whose tail then starts with the rest of the longer one. -/
theorem SelfDelimiting.encodeAll_cases {enc : Encoder α}
    (h : SelfDelimiting enc) {as bs : List α} {x y s t : Bytes}
    (hx : encodeAll enc as = some x) (hy : encodeAll enc bs = some y)
    (hxy : x ++ s = y ++ t) :
    (∃ rest z, bs = as ++ rest ∧ encodeAll enc rest = some z ∧ s = z ++ t) ∨
      ∃ rest z, as = bs ++ rest ∧ encodeAll enc rest = some z ∧
        t = z ++ s := by
  induction as generalizing bs x y with
  | nil =>
      rw [← Option.some.inj hx] at hxy
      exact Or.inl ⟨bs, y, rfl, hy, hxy⟩
  | cons a as ih =>
      cases bs with
      | nil =>
          rw [← Option.some.inj hy] at hxy
          exact Or.inr ⟨a :: as, x, rfl, hx, hxy.symm⟩
      | cons b bs =>
          obtain ⟨x₁, x₂, hx₁, hx₂, rfl⟩ := encodeAppend_eq_some.mp hx
          obtain ⟨y₁, y₂, hy₁, hy₂, rfl⟩ := encodeAppend_eq_some.mp hy
          rw [List.append_assoc, List.append_assoc] at hxy
          obtain ⟨rfl, htail⟩ := h hx₁ hy₁ hxy
          rcases ih hx₂ hy₂ htail with ⟨rest, z, rfl, hz, hs⟩ |
            ⟨rest, z, rfl, hz, ht⟩
          · exact Or.inl ⟨rest, z, rfl, hz, hs⟩
          · exact Or.inr ⟨rest, z, rfl, hz, ht⟩

/-- A list written after its own length is self-delimiting. -/
theorem SelfDelimiting.counted {count : Encoder ℕ} {enc : Encoder α}
    (hcount : SelfDelimiting count) (henc : SelfDelimiting enc) :
    SelfDelimiting fun as : List α =>
      encodeAppend (count as.length) (encodeAll enc as) := by
  intro as bs x y s t hx hy h
  obtain ⟨x₁, x₂, hx₁, hx₂, rfl⟩ := encodeAppend_eq_some.mp hx
  obtain ⟨y₁, y₂, hy₁, hy₂, rfl⟩ := encodeAppend_eq_some.mp hy
  rw [List.append_assoc, List.append_assoc] at h
  obtain ⟨hlength, htail⟩ := hcount hx₁ hy₁ h
  exact encodeAll_selfDelimiting henc bs.length hlength rfl hx₂ hy₂ htail

/-- Elements which are never encoded to nothing need no count. -/
theorem SelfDelimiting.encodeAll_uniquelyEncoded {enc : Encoder α}
    (h : SelfDelimiting enc) (hsome : ∀ a, enc a ≠ some []) :
    UniquelyEncoded (encodeAll enc) := by
  have hcons : ∀ a as, encodeAll enc (a :: as) ≠ some [] := by
    intro a as hnil
    obtain ⟨x, y, hx, -, hxy⟩ := encodeAppend_eq_some.mp hnil
    rw [(List.append_eq_nil_iff.mp hxy).1] at hx
    exact hsome a hx
  intro as
  induction as with
  | nil =>
      intro bs x has hbs
      cases bs with
      | nil => rfl
      | cons b bs =>
          rw [← Option.some.inj has] at hbs
          exact absurd hbs (hcons b bs)
  | cons a as ih =>
      intro bs x has hbs
      cases bs with
      | nil =>
          rw [← Option.some.inj hbs] at has
          exact absurd has (hcons a as)
      | cons b bs =>
          obtain ⟨x₁, x₂, hx₁, hx₂, rfl⟩ := encodeAppend_eq_some.mp has
          obtain ⟨y₁, y₂, hy₁, hy₂, hxy⟩ := encodeAppend_eq_some.mp hbs
          obtain ⟨hab, htail⟩ := h hx₁ hy₁ hxy.symm
          subst htail
          rw [hab, ih hx₂ hy₂]

/-- In particular elements of one fixed positive width. -/
theorem encodeAll_uniquelyEncoded {enc : Encoder α} {width : ℕ}
    (hwidth : 0 < width)
    (hlength : ∀ a x, enc a = some x → x.length = width)
    (hunique : UniquelyEncoded enc) : UniquelyEncoded (encodeAll enc) := by
  refine (selfDelimiting_of_length width hlength
    hunique).encodeAll_uniquelyEncoded fun a hnil => ?_
  have hzero := hlength a [] hnil
  rw [List.length_nil] at hzero
  exact absurd hzero hwidth.ne

/-! ## Primitive fields -/

/-- A fixed-width number held in a wider representation. -/
theorem selfDelimiting_leBytes {width : ℕ} {toNat : α → ℕ}
    (hbound : ∀ a, toNat a < 256 ^ width) (hinj : Function.Injective toNat) :
    SelfDelimiting fun a => some (leBytes width (toNat a)) := by
  apply selfDelimiting_of_length width
  · intro a x hx
    rw [← Option.some.inj hx, length_leBytes]
  · intro a b x ha hb
    have h : leBytes width (toNat a) = leBytes width (toNat b) :=
      Option.some.inj (ha.trans hb.symm)
    exact hinj (leBytes_injective_of_lt (hbound a) (hbound b) h)

theorem selfDelimiting_byte : SelfDelimiting fun b : UInt8 => some [b] := by
  apply selfDelimiting_of_length 1
  · intro b x hx
    rw [← Option.some.inj hx]
    rfl
  · intro a b x ha hb
    simpa using ha.trans hb.symm

/-- A presence byte followed by the value, if there is one. -/
def encodeOption (enc : Encoder α) : Encoder (Option α)
  | some a => encodeAppend (some [1]) (enc a)
  | none => some [0]

theorem SelfDelimiting.option {enc : Encoder α} (h : SelfDelimiting enc) :
    SelfDelimiting (encodeOption enc) := by
  intro a b x y s t ha hb hxy
  cases a with
  | none =>
      cases b with
      | none =>
          simp only [encodeOption, Option.some.injEq] at ha hb
          subst ha hb
          exact ⟨rfl, by simpa using hxy⟩
      | some b =>
          obtain ⟨y₁, y₂, hy₁, hy₂, rfl⟩ := encodeAppend_eq_some.mp hb
          simp only [encodeOption, Option.some.injEq] at ha hy₁
          subst ha hy₁
          simp at hxy
  | some a =>
      obtain ⟨x₁, x₂, hx₁, hx₂, rfl⟩ := encodeAppend_eq_some.mp ha
      simp only [Option.some.injEq] at hx₁
      subst hx₁
      cases b with
      | none =>
          simp only [encodeOption, Option.some.injEq] at hb
          subst hb
          simp at hxy
      | some b =>
          obtain ⟨y₁, y₂, hy₁, hy₂, rfl⟩ := encodeAppend_eq_some.mp hb
          simp only [Option.some.injEq] at hy₁
          subst hy₁
          obtain ⟨hab, hst⟩ := h hx₂ hy₂ (by simpa using hxy)
          exact ⟨by rw [hab], hst⟩

end SelfDelimiting

end QCoin.Support
