import Mathlib.Algebra.GroupWithZero.Nat
import Mathlib.Data.List.DropRight

/-!
# Texts

Removal of whitespace and of a repeated pattern, case, the bytes of a text and
the reading of decimal numbers, on lists of characters.
-/

namespace QCoin.Support

/-! ## Trimming -/

/-- `trim_start_matches`: remove the pattern as often as the text starts with
it. -/
def trimStartMatches (pattern text : List Char) : List Char :=
  if pattern ≠ [] ∧ pattern <+: text then
    trimStartMatches pattern (text.drop pattern.length)
  else text
termination_by text.length
decreasing_by
  rename_i h
  have hpattern := List.length_pos_iff.mpr h.1
  have hle := h.2.length_le
  rw [List.length_drop]
  omega

theorem trimStartMatches_of_not_isPrefix {pattern text : List Char}
    (h : ¬pattern <+: text) : trimStartMatches pattern text = text := by
  rw [trimStartMatches, if_neg fun hboth => h hboth.2]

theorem trimStartMatches_append {pattern rest : List Char}
    (hne : pattern ≠ []) (h : ¬pattern <+: rest) :
    trimStartMatches pattern (pattern ++ rest) = rest := by
  rw [trimStartMatches, if_pos ⟨hne, List.prefix_append pattern rest⟩,
    List.drop_left, trimStartMatches_of_not_isPrefix h]

/-- `char::is_whitespace`: the characters with the Unicode property
`White_Space`. -/
def isWhitespace (c : Char) : Bool :=
  decide (9 ≤ c.toNat ∧ c.toNat ≤ 13) || c.toNat == 0x20 || c.toNat == 0x85 ||
    c.toNat == 0xa0 || c.toNat == 0x1680 ||
    decide (0x2000 ≤ c.toNat ∧ c.toNat ≤ 0x200a) || c.toNat == 0x2028 ||
    c.toNat == 0x2029 || c.toNat == 0x202f || c.toNat == 0x205f ||
    c.toNat == 0x3000

/-- `trim`: the text without whitespace at its two ends. -/
def trim (text : List Char) : List Char :=
  (text.dropWhile isWhitespace).rdropWhile isWhitespace

theorem trim_trim (text : List Char) : trim (trim text) = trim text := by
  have hfront : (trim text).dropWhile isWhitespace = trim text := by
    apply List.dropWhile_eq_self_iff.mpr
    intro hpos
    have hinitial : trim text <+: text.dropWhile isWhitespace :=
      List.rdropWhile_prefix _ _
    have hlong := lt_of_lt_of_le hpos hinitial.length_le
    have hhead := List.dropWhile_get_zero_not isWhitespace text hlong
    simp only [List.get_eq_getElem] at hhead ⊢
    rwa [hinitial.getElem hpos]
  rw [trim, hfront, trim, List.rdropWhile_idempotent]

theorem trim_eq_self {text : List Char}
    (h : ∀ c ∈ text, isWhitespace c = false) : trim text = text := by
  have hfront : text.dropWhile isWhitespace = text := by
    apply List.dropWhile_eq_self_iff.mpr
    intro hpos
    rw [h _ (List.getElem_mem hpos)]
    exact Bool.false_ne_true
  rw [trim, hfront]
  apply List.rdropWhile_eq_self_iff.mpr
  intro hne
  rw [h _ (List.getLast_mem hne)]
  exact Bool.false_ne_true

theorem trim_map {f : Char → Char}
    (hf : ∀ c, isWhitespace (f c) = isWhitespace c) (text : List Char) :
    trim (text.map f) = (trim text).map f := by
  have hcomp : isWhitespace ∘ f = isWhitespace := funext hf
  simp only [trim, List.rdropWhile, List.dropWhile_map, ← List.map_reverse,
    hcomp]

/-! ## Lower case -/

/-- `to_ascii_lowercase`, character by character. -/
theorem toNat_toLower (c : Char) : c.toLower.toNat =
    if 65 ≤ c.toNat ∧ c.toNat ≤ 90 then c.toNat + 32 else c.toNat := by
  have hrange : (c.val ≥ 'A'.val ∧ c.val ≤ 'Z'.val) ↔
      65 ≤ c.toNat ∧ c.toNat ≤ 90 := by
    simp [UInt32.le_iff_toNat_le]
  unfold Char.toLower
  split
  · rename_i h
    have hbound := hrange.mp h
    rw [if_pos hbound]
    change (c.val + 32).toNat = c.val.toNat + 32
    have hshift : (32 : UInt32).toNat = 32 := rfl
    rw [UInt32.toNat_add, hshift]
    have hupper : c.val.toNat ≤ 90 := hbound.2
    omega
  · rename_i h
    rw [if_neg (mt hrange.mpr h)]

theorem isWhitespace_toLower (c : Char) :
    isWhitespace c.toLower = isWhitespace c := by
  rw [Bool.eq_iff_iff]
  simp only [isWhitespace, toNat_toLower]
  split
  · simp
    omega
  · rfl

theorem toLower_toLower (c : Char) : c.toLower.toLower = c.toLower := by
  apply Char.toNat_inj.mp
  have htwice := toNat_toLower c.toLower
  have honce := toNat_toLower c
  split at honce <;> split at htwice <;> omega

/-! ## UTF-8 -/

/-- `as_bytes`: the text in UTF-8. -/
def utf8Bytes (text : List Char) : List UInt8 :=
  text.flatMap String.utf8EncodeChar

/-- A character is its own byte or starts with a byte outside ASCII. -/
theorem utf8EncodeChar_cases (c : Char) :
    (c.toNat < 128 ∧ String.utf8EncodeChar c = [UInt8.ofNat c.toNat]) ∨
    (128 ≤ c.toNat ∧ ∃ b more, String.utf8EncodeChar c = b :: more ∧
      128 ≤ b.toNat) := by
  by_cases hascii : c.toNat < 128
  · exact .inl ⟨hascii, if_pos (Nat.lt_succ_iff.mp hascii)⟩
  · refine .inr ⟨not_lt.mp hascii, ?_⟩
    fun_cases String.utf8EncodeChar c with
    | case1 v h => exact absurd (Nat.lt_succ_iff.mpr h) hascii
    | case2 v => exact ⟨_, _, rfl, by simp; omega⟩
    | case3 v => exact ⟨_, _, rfl, by simp; omega⟩
    | case4 v => exact ⟨_, _, rfl, by simp; omega⟩

/-! ## Decimal numbers -/

/-- `parse::<u64>().ok()`: an optional plus sign and decimal digits, without
overflow. -/
def parseU64 (text : List Char) : Option UInt64 :=
  let digits := if text.head? = some '+' then text.tail else text
  if digits ≠ [] ∧ digits.all Char.isDigit then
    let value := Nat.ofDigitChars 10 digits 0
    if value < 2 ^ 64 then some (UInt64.ofNat value) else none
  else none

theorem toList_toString (n : UInt64) :
    (toString n).toList = Nat.toDigits 10 n.toNat :=
  Nat.toList_repr

theorem isDigit_of_mem_toString {n : UInt64} {c : Char}
    (h : c ∈ (toString n).toList) : c.isDigit = true := by
  rw [toList_toString] at h
  exact Nat.isDigit_of_mem_toDigits (by decide) (by decide) h

/-- No other character occurs in a decimal number. -/
theorem ne_of_mem_toString {n : UInt64} {c d : Char}
    (h : c ∈ (toString n).toList) (hd : d.isDigit = false) : c ≠ d := by
  rintro rfl
  rw [isDigit_of_mem_toString h] at hd
  cases hd

theorem toString_ne_nil (n : UInt64) : (toString n).toList ≠ [] := by
  rw [toList_toString]
  exact Nat.toDigits_ne_nil

/-- Numbers are read back. -/
theorem parseU64_toString (n : UInt64) :
    parseU64 (toString n).toList = some n := by
  have hplus : (toString n).toList.head? ≠ some '+' := by
    intro hhead
    exact ne_of_mem_toString (List.mem_of_head? hhead) (by decide) rfl
  have hdigits : (toString n).toList.all Char.isDigit = true :=
    List.all_eq_true.mpr fun c hc => isDigit_of_mem_toString hc
  have hvalue : Nat.ofDigitChars 10 (toString n).toList 0 = n.toNat := by
    rw [toList_toString, Nat.ofDigitChars_ten_toDigits]
  rw [parseU64, if_neg hplus, if_pos ⟨toString_ne_nil n, hdigits⟩, hvalue,
    if_pos n.toNat_lt, UInt64.ofNat_toNat]

end QCoin.Support
