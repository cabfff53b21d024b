import Mathlib.Tactic.IntervalCases
import QCoin.Node.Storage
import QCoin.Support.Text

/-!
# Hexadecimal text

Keys are configured as hexadecimal text in either case, with or without
whitespace around it.  Decoding and encoding agree on the text in lower case.
-/

namespace QCoin

open Support
open Support.Result

/-- `to_ascii_lowercase` of the trimmed text. -/
def normalized (value : String) : String :=
  String.ofList ((trim value.toList).map Char.toLower)

def decodeHexNibble (byte : UInt8) : Except String UInt8 :=
  if 0x30 ≤ byte ∧ byte ≤ 0x39 then .ok (byte - 0x30)
  else if 0x61 ≤ byte ∧ byte ≤ 0x66 then .ok (byte - 0x61 + 10)
  else if 0x41 ≤ byte ∧ byte ≤ 0x46 then .ok (byte - 0x41 + 10)
  else .error ("invalid hex character '" ++
    String.singleton (Char.ofNat byte.toNat) ++ "'")

/-- The loop of `from_hex`. -/
def decodeHexPairs : Bytes → Except String Bytes
  | [] => .ok []
  -- Not reached, as the length has been found even.
  | [_] => .error "hex string has odd length"
  | hi :: lo :: bytes => do
      let hi ← decodeHexNibble hi
      let lo ← decodeHexNibble lo
      return ((hi <<< 4) ||| lo) :: (← decodeHexPairs bytes)

def fromHex (hex : String) : Except String Bytes :=
  let clean := utf8Bytes (trim hex.toList)
  if clean.length % 2 ≠ 0 then .error "hex string has odd length"
  else decodeHexPairs clean

/-! ## Digits -/

/-- The character is a digit, in either case, of the value. -/
def IsNibble (c : Char) (value : UInt8) : Prop :=
  value.toNat < 16 ∧ c.toLower = Nat.digitChar value.toNat

theorem toNat_digitChar {n : ℕ} (h : n < 16) :
    (Nat.digitChar n).toNat = if n < 10 then n + 48 else n + 87 := by
  interval_cases n <;> rfl

theorem isNibble_iff {c : Char} {value : UInt8} :
    IsNibble c value ↔
      (48 ≤ c.toNat ∧ c.toNat ≤ 57 ∧ value.toNat + 48 = c.toNat) ∨
      (97 ≤ c.toNat ∧ c.toNat ≤ 102 ∧ value.toNat + 87 = c.toNat) ∨
      (65 ≤ c.toNat ∧ c.toNat ≤ 70 ∧ value.toNat + 55 = c.toNat) := by
  have hlower := toNat_toLower c
  constructor
  · rintro ⟨hvalue, hdigit⟩
    rw [hdigit, toNat_digitChar hvalue] at hlower
    split at hlower <;> split at hlower <;> omega
  · intro h
    have hvalue : value.toNat < 16 := by omega
    refine ⟨hvalue, Char.toNat_inj.mp ?_⟩
    rw [hlower, toNat_digitChar hvalue]
    split <;> split <;> omega

theorem decodeHexNibble_eq_ok {byte value : UInt8} :
    decodeHexNibble byte = .ok value ↔
      (48 ≤ byte.toNat ∧ byte.toNat ≤ 57 ∧ value.toNat + 48 = byte.toNat) ∨
      (97 ≤ byte.toNat ∧ byte.toNat ≤ 102 ∧
        value.toNat + 87 = byte.toNat) ∨
      (65 ≤ byte.toNat ∧ byte.toNat ≤ 70 ∧
        value.toNat + 55 = byte.toNat) := by
  have hshift (base offset : UInt8) : byte - base + offset = value ↔
      (byte.toNat + offset.toNat) % 256 =
        (value.toNat + base.toNat) % 256 := by
    rw [← UInt8.toNat_inj, UInt8.toNat_add, UInt8.toNat_sub]
    have hbase := base.toNat_lt
    have hvalue := value.toNat_lt
    omega
  have hdigit := hshift 0x30 0
  rw [UInt8.add_zero] at hdigit
  have hlower := hshift 0x61 10
  have hupper := hshift 0x41 10
  have hbyte := byte.toNat_lt
  have hvalue := value.toNat_lt
  unfold decodeHexNibble
  simp only [UInt8.le_iff_toNat_le, UInt8.reduceToNat] at *
  split
  · rw [Except.ok.injEq, hdigit]
    omega
  · split
    · rw [Except.ok.injEq, hlower]
      omega
    · split
      · rw [Except.ok.injEq, hupper]
        omega
      · constructor
        · rintro ⟨⟩
        · omega

/-- The value of a pair of digits. -/
theorem toNat_nibbles {hi lo : UInt8} (hhi : hi.toNat < 16)
    (hlo : lo.toNat < 16) :
    ((hi <<< 4) ||| lo).toNat = 16 * hi.toNat + lo.toNat := by
  rw [UInt8.toNat_or, UInt8.toNat_shiftLeft]
  change hi.toNat <<< 4 % 2 ^ 8 ||| lo.toNat = _
  rw [Nat.mod_eq_of_lt (by rw [Nat.shiftLeft_eq]; omega),
    ← Nat.shiftLeft_add_eq_or_of_lt hlo, Nat.shiftLeft_eq, mul_comm]

theorem toList_toHex_cons (b : UInt8) (bytes : Bytes) :
    (toHex (b :: bytes)).toList =
      Nat.digitChar (b.toNat / 16) :: Nat.digitChar (b.toNat % 16) ::
        (toHex bytes).toList := by
  simp [toHex]

/-! ## Both directions -/

/-- The first byte of a text which is decoded belongs to a digit. -/
theorem isNibble_of_decodeHexNibble {c : Char} {text : List Char}
    {b value : UInt8} {bytes : Bytes}
    (hbytes : utf8Bytes (c :: text) = b :: bytes)
    (h : decodeHexNibble b = .ok value) :
    bytes = utf8Bytes text ∧ IsNibble c value := by
  rw [decodeHexNibble_eq_ok] at h
  rw [utf8Bytes, List.flatMap_cons, ← utf8Bytes] at hbytes
  rcases utf8EncodeChar_cases c with ⟨hascii, hc⟩ | ⟨-, first, more, hc, hb⟩
  · rw [hc] at hbytes
    obtain ⟨rfl, hrest⟩ := List.cons.inj hbytes
    rw [UInt8.toNat_ofNat_of_lt' (by rw [UInt8.size]; omega)] at h
    exact ⟨hrest.symm, isNibble_iff.mpr h⟩
  · rw [hc] at hbytes
    obtain ⟨rfl, -⟩ := List.cons.inj hbytes
    omega

/-- A digit is one byte, which is decoded. -/
theorem IsNibble.utf8Bytes_cons {c : Char} {value : UInt8}
    (h : IsNibble c value) (text : List Char) :
    ∃ b, utf8Bytes (c :: text) = b :: utf8Bytes text ∧
      decodeHexNibble b = .ok value := by
  have hcode := isNibble_iff.mp h
  rcases utf8EncodeChar_cases c with ⟨hascii, hc⟩ | ⟨hwide, -⟩
  · refine ⟨UInt8.ofNat c.toNat, ?_, ?_⟩
    · rw [utf8Bytes, List.flatMap_cons, hc]
      rfl
    · rw [decodeHexNibble_eq_ok,
        UInt8.toNat_ofNat_of_lt' (by rw [UInt8.size]; omega)]
      exact hcode
  · omega

theorem utf8Bytes_eq_cons {text : List Char} {b : UInt8} {bytes : Bytes}
    (h : utf8Bytes text = b :: bytes) : ∃ c rest, text = c :: rest := by
  cases text with
  | nil => cases h
  | cons c rest => exact ⟨c, rest, rfl⟩

/-- What is decoded is the text in lower case. -/
theorem map_toLower_of_decodeHexPairs {raw : Bytes} {text : List Char}
    {bytes : Bytes} (hraw : utf8Bytes text = raw)
    (h : decodeHexPairs raw = .ok bytes) :
    text.map Char.toLower = (toHex bytes).toList := by
  induction raw using decodeHexPairs.induct generalizing text bytes with
  | case1 =>
      obtain rfl := Except.ok.inj h
      cases text with
      | nil => rfl
      | cons c rest =>
          have hc := (List.append_eq_nil_iff.mp hraw).1
          exact absurd hc String.utf8EncodeChar_ne_nil
  | case2 => cases h
  | case3 hi lo more ih =>
      simp only [decodeHexPairs, bind_eq_ok, pure_eq_ok] at h
      obtain ⟨hiValue, hhi, loValue, hlo, rest, hrest, rfl⟩ := h
      obtain ⟨c, text, rfl⟩ := utf8Bytes_eq_cons hraw
      obtain ⟨htext, hc⟩ := isNibble_of_decodeHexNibble hraw hhi
      obtain ⟨d, text, rfl⟩ := utf8Bytes_eq_cons htext.symm
      obtain ⟨hmore, hd⟩ := isNibble_of_decodeHexNibble htext.symm hlo
      have hpair := toNat_nibbles hc.1 hd.1
      have hbound := hd.1
      have hquot : (16 * hiValue.toNat + loValue.toNat) / 16 =
          hiValue.toNat := by omega
      have hrem : (16 * hiValue.toNat + loValue.toNat) % 16 =
          loValue.toNat := by omega
      rw [toList_toHex_cons, hpair, hquot, hrem, ← hc.2, ← hd.2,
        ← ih hmore.symm hrest]
      rfl

/-- Every text whose lower case is the encoding is decoded. -/
theorem decodeHexPairs_of_map_toLower {text : List Char} {bytes : Bytes}
    (h : text.map Char.toLower = (toHex bytes).toList) :
    decodeHexPairs (utf8Bytes text) = .ok bytes := by
  induction bytes generalizing text with
  | nil =>
      rw [show (toHex []).toList = [] from rfl, List.map_eq_nil_iff] at h
      rw [h]
      rfl
  | cons b bytes ih =>
      rw [toList_toHex_cons] at h
      obtain ⟨c, rest, rfl, hc, hrest⟩ := List.map_eq_cons_iff.mp h
      obtain ⟨d, rest, rfl, hd, hrest⟩ := List.map_eq_cons_iff.mp hrest
      have hbound := b.toNat_lt
      have hhi : (UInt8.ofNat (b.toNat / 16)).toNat = b.toNat / 16 :=
        UInt8.toNat_ofNat_of_lt' (by rw [UInt8.size]; omega)
      have hlo : (UInt8.ofNat (b.toNat % 16)).toNat = b.toNat % 16 :=
        UInt8.toNat_ofNat_of_lt' (by rw [UInt8.size]; omega)
      have hcNibble : IsNibble c (UInt8.ofNat (b.toNat / 16)) :=
        ⟨by omega, by rw [hc, hhi]⟩
      have hdNibble : IsNibble d (UInt8.ofNat (b.toNat % 16)) :=
        ⟨by omega, by rw [hd, hlo]⟩
      obtain ⟨first, hfirst, hdecoded⟩ := hcNibble.utf8Bytes_cons (d :: rest)
      obtain ⟨second, hsecond, hdecoded'⟩ := hdNibble.utf8Bytes_cons rest
      rw [hfirst, hsecond]
      simp only [decodeHexPairs, bind_eq_ok, pure_eq_ok]
      refine ⟨_, hdecoded, _, hdecoded', bytes, ih hrest, ?_⟩
      congr 1
      apply UInt8.toNat_inj.mp
      rw [toNat_nibbles hcNibble.1 hdNibble.1, hhi, hlo]
      omega

theorem even_length_of_decodeHexPairs {raw bytes : Bytes}
    (h : decodeHexPairs raw = .ok bytes) : raw.length % 2 = 0 := by
  induction raw using decodeHexPairs.induct generalizing bytes with
  | case1 => rfl
  | case2 => cases h
  | case3 hi lo more ih =>
      simp only [decodeHexPairs, bind_eq_ok] at h
      obtain ⟨_, -, _, -, rest, hrest, -⟩ := h
      have hmore := ih hrest
      simp only [List.length_cons]
      omega

/-- A text is decoded to the bytes it is the encoding of, up to whitespace
around it and its case. -/
theorem fromHex_eq_ok {hex : String} {bytes : Bytes} :
    fromHex hex = .ok bytes ↔ normalized hex = toHex bytes := by
  have hdecode : decodeHexPairs (utf8Bytes (trim hex.toList)) = .ok bytes ↔
      (trim hex.toList).map Char.toLower = (toHex bytes).toList :=
    ⟨map_toLower_of_decodeHexPairs rfl, decodeHexPairs_of_map_toLower⟩
  have htext : normalized hex = toHex bytes ↔
      (trim hex.toList).map Char.toLower = (toHex bytes).toList := by
    rw [normalized, ← String.toList_inj, String.toList_ofList]
  rw [htext, ← hdecode, fromHex]
  constructor
  · intro h
    split at h
    · cases h
    · exact h
  · intro h
    rwa [if_neg (not_not.mpr (even_length_of_decodeHexPairs h))]

theorem normalized_normalized (hex : String) :
    normalized (normalized hex) = normalized hex := by
  rw [normalized, normalized, String.toList_ofList,
    trim_map isWhitespace_toLower, trim_trim, List.map_map]
  congr 2
  exact funext toLower_toLower

/-- What every character of an encoding is. -/
theorem digitChar_of_mem_toHex {bytes : Bytes} {c : Char}
    (h : c ∈ (toHex bytes).toList) : ∃ n < 16, c = Nat.digitChar n := by
  induction bytes with
  | nil => cases h
  | cons b bytes ih =>
      have hbound := b.toNat_lt
      rw [toList_toHex_cons, List.mem_cons, List.mem_cons] at h
      rcases h with rfl | rfl | h
      · exact ⟨_, by omega, rfl⟩
      · exact ⟨_, by omega, rfl⟩
      · exact ih h

theorem normalized_toHex (bytes : Bytes) :
    normalized (toHex bytes) = toHex bytes := by
  have htrim : trim (toHex bytes).toList = (toHex bytes).toList := by
    apply trim_eq_self
    intro c hc
    obtain ⟨n, hn, rfl⟩ := digitChar_of_mem_toHex hc
    interval_cases n <;> rfl
  have hlower : (toHex bytes).toList.map Char.toLower =
      (toHex bytes).toList.map id := by
    apply List.map_congr_left
    intro c hc
    obtain ⟨n, hn, rfl⟩ := digitChar_of_mem_toHex hc
    interval_cases n <;> rfl
  rw [normalized, htrim, hlower, List.map_id, String.ofList_toList]

theorem fromHex_toHex (bytes : Bytes) : fromHex (toHex bytes) = .ok bytes :=
  fromHex_eq_ok.mpr (normalized_toHex bytes)

theorem toHex_inj {bytes bytes' : Bytes} :
    toHex bytes = toHex bytes' ↔ bytes = bytes' := by
  constructor
  · intro h
    apply Except.ok.inj (ε := String)
    rw [← fromHex_toHex bytes, h, fromHex_toHex]
  · exact congrArg toHex

end QCoin
