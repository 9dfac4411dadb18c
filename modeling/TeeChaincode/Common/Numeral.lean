import TeeChaincode.Common.Bytes
import Mathlib.Data.Nat.Digits.Lemmas

/-!
# Decimal numerals as byte strings

`numeral n` is the canonical decimal numeral of `n`, and `leadingValue b`
the value of the digits a byte string starts with. The first is read back
by the second, and a numeral is a C string: not empty, and without NUL.
The strings that are the numeral of their value are the canonical ones:
digits without a leading zero, but for `0` itself.
-/

namespace TeeChaincode

namespace Common

/-- `'0' ≤ c ≤ '9'`. -/
def isDigit (c : UInt8) : Bool := 48 ≤ c && c ≤ 57

/-- One more digit behind a value. -/
def pushDigit (v : ℕ) (c : UInt8) : ℕ := v * 10 + (c.toNat - 48)

/-- The value of a string of digits. -/
def digitsValue (b : Bytes) : ℕ := b.foldl pushDigit 0

/-- The value of the digits a byte string starts with. -/
def leadingValue (b : Bytes) : ℕ := digitsValue (b.takeWhile isDigit)

/-- The digit `d` as a character. -/
def digitChar (d : ℕ) : UInt8 := UInt8.ofNat (48 + d)

/-- The canonical decimal numeral. -/
def numeral (n : ℕ) : Bytes :=
  if n = 0 then [48] else ((Nat.digits 10 n).map digitChar).reverse

/-- A string of decimal digits. -/
def IsNumeral (b : Bytes) : Prop := ∀ c ∈ b, isDigit c = true

theorem toNat_digitChar {d : ℕ} (h : d < 10) : (digitChar d).toNat = 48 + d := by
  rw [digitChar, UInt8.toNat_ofNat', Nat.mod_eq_of_lt (by omega)]

theorem isDigit_iff {c : UInt8} : isDigit c = true ↔ 48 ≤ c.toNat ∧ c.toNat ≤ 57 := by
  simp only [isDigit, Bool.and_eq_true, decide_eq_true_eq, UInt8.le_iff_toNat_le]
  rfl

theorem isDigit_digitChar {d : ℕ} (h : d < 10) : isDigit (digitChar d) = true := by
  rw [isDigit_iff, toNat_digitChar h]
  omega

theorem IsNumeral.of_all {b : Bytes} (h : b.all isDigit = true) : IsNumeral b :=
  List.all_eq_true.1 h

/-- A digit is not a NUL. -/
theorem IsNumeral.zero_notMem {b : Bytes} (h : IsNumeral b) : (0 : UInt8) ∉ b := by
  intro h0
  exact absurd (h 0 h0) (by decide)

/-- A numeral is its own leading digits. -/
theorem IsNumeral.leadingValue {b : Bytes} (h : IsNumeral b) : leadingValue b = digitsValue b := by
  rw [Common.leadingValue, List.takeWhile_eq_self_iff.2 h]

theorem isNumeral_numeral (n : ℕ) : IsNumeral (numeral n) := by
  intro c hc
  rw [numeral] at hc
  split at hc
  · rw [List.mem_singleton] at hc
    subst hc
    decide
  · rw [List.mem_reverse, List.mem_map] at hc
    obtain ⟨d, hd, rfl⟩ := hc
    exact isDigit_digitChar (Nat.digits_lt_base (by omega) hd)

theorem numeral_ne_nil (n : ℕ) : numeral n ≠ [] := by
  rw [numeral]
  split
  · simp
  · rename_i h
    simpa using Nat.digits_ne_nil_iff_ne_zero.2 h

/-- Pushing the digits of `n` from the highest on. -/
theorem foldr_pushDigit (l : List ℕ) (h : ∀ d ∈ l, d < 10) :
    (l.map digitChar).foldr (fun c v => pushDigit v c) 0 = Nat.ofDigits 10 l := by
  induction l with
  | nil => rfl
  | cons d l ih =>
    have hd : d < 10 := h d (by simp)
    rw [List.map_cons, List.foldr_cons, ih fun d hd => h d (by simp [hd]), Nat.ofDigits_cons,
      pushDigit, toNat_digitChar hd]
    omega

/-- **A numeral is read back as its value.** -/
theorem digitsValue_numeral (n : ℕ) : digitsValue (numeral n) = n := by
  rw [numeral]
  split
  · subst_vars
    rfl
  · rw [digitsValue, List.foldl_reverse,
      foldr_pushDigit _ fun d hd => Nat.digits_lt_base (by omega) hd, Nat.ofDigits_digits]

theorem leadingValue_numeral (n : ℕ) : leadingValue (numeral n) = n := by
  rw [(isNumeral_numeral n).leadingValue, digitsValue_numeral]

/-- Different values have different numerals. -/
theorem numeral_inj {m n : ℕ} (h : numeral m = numeral n) : m = n := by
  rw [← digitsValue_numeral m, h, digitsValue_numeral]

/-! ## Canonical numerals -/

/-- A numeral without a leading zero, unless it is `0`. -/
structure Canonical (b : Bytes) : Prop where
  digits : IsNumeral b
  ne_nil : b ≠ []
  head : b.head? = some 48 → b = [48]

theorem canonical_numeral (n : ℕ) : Canonical (numeral n) := by
  refine ⟨isNumeral_numeral n, numeral_ne_nil n, fun h => ?_⟩
  by_cases hn : n = 0
  · exact if_pos hn
  -- the first character stands for the highest digit, which is not zero
  exfalso
  have hne : Nat.digits 10 n ≠ [] := Nat.digits_ne_nil_iff_ne_zero.2 hn
  have hlast : (Nat.digits 10 n).getLast? = some ((Nat.digits 10 n).getLast hne) :=
    List.getLast?_eq_getLast_of_ne_nil hne
  have hlt : (Nat.digits 10 n).getLast hne < 10 :=
    Nat.digits_lt_base (by omega) (List.getLast_mem hne)
  rw [numeral, if_neg hn, List.head?_reverse, List.getLast?_map, hlast, Option.map_some,
    Option.some_inj] at h
  have hval : 48 + (Nat.digits 10 n).getLast hne = 48 := by
    rw [← toNat_digitChar hlt, h]
    rfl
  exact Nat.getLast_digit_ne_zero 10 hn (by omega)

/-- The value of a digit. -/
def digitValue (c : UInt8) : ℕ := c.toNat - 48

theorem digitValue_lt {c : UInt8} (h : isDigit c = true) : digitValue c < 10 := by
  obtain ⟨h1, h2⟩ := isDigit_iff.1 h
  rw [digitValue]
  omega

theorem digitChar_digitValue {c : UInt8} (h : isDigit c = true) : digitChar (digitValue c) = c := by
  obtain ⟨h1, h2⟩ := isDigit_iff.1 h
  apply UInt8.toNat_inj.1
  rw [toNat_digitChar (digitValue_lt h), digitValue]
  omega

/-- A string of digits, written from their values. -/
theorem IsNumeral.map_digitChar {b : Bytes} (h : IsNumeral b) :
    (b.map digitValue).map digitChar = b := by
  rw [List.map_map]
  exact (List.map_congr_left fun c hc => digitChar_digitValue (h c hc)).trans (List.map_id b)

theorem IsNumeral.digitValue_lt {b : Bytes} (h : IsNumeral b) :
    ∀ d ∈ (b.map digitValue).reverse, d < 10 := by
  intro d hd
  obtain ⟨c, hc, rfl⟩ := List.mem_map.1 (List.mem_reverse.1 hd)
  exact Common.digitValue_lt (h c hc)

/-- A string of digits has the value of its digits, the lowest first. -/
theorem IsNumeral.digitsValue_eq {b : Bytes} (h : IsNumeral b) :
    digitsValue b = Nat.ofDigits 10 (b.map digitValue).reverse := by
  rw [← foldr_pushDigit _ h.digitValue_lt, List.map_reverse, h.map_digitChar, List.foldr_reverse]
  rfl

/-- **A canonical string is the numeral of its value.** -/
theorem Canonical.numeral_digitsValue {b : Bytes} (h : Canonical b) :
    numeral (digitsValue b) = b := by
  by_cases hzero : b = [48]
  · rw [hzero]
    rfl
  have hlast : ∀ hne : (b.map digitValue).reverse ≠ [],
      (b.map digitValue).reverse.getLast hne ≠ 0 := by
    intro hne hl
    obtain ⟨c, b, rfl⟩ := List.exists_cons_of_ne_nil h.ne_nil
    rw [List.getLast_reverse] at hl
    have hvalue : digitValue c = 0 := hl
    have hc : c = 48 := by
      rw [← digitChar_digitValue (h.digits c List.mem_cons_self), hvalue]
      rfl
    exact hzero (h.head (by rw [hc]; rfl))
  have hdigits : Nat.digits 10 (digitsValue b) = (b.map digitValue).reverse := by
    rw [h.digits.digitsValue_eq]
    exact Nat.digits_ofDigits 10 (by omega) _ h.digits.digitValue_lt hlast
  have hne : Nat.digits 10 (digitsValue b) ≠ [] := by
    rw [hdigits]
    simpa using h.ne_nil
  have hpos : digitsValue b ≠ 0 := Nat.digits_ne_nil_iff_ne_zero.1 hne
  rw [numeral, if_neg hpos, hdigits, List.map_reverse, h.digits.map_digitChar, List.reverse_reverse]

/-- The strings that are numerals. -/
theorem exists_numeral_iff {b : Bytes} {bound : ℕ} :
    (∃ n, n < bound ∧ numeral n = b) ↔ Canonical b ∧ digitsValue b < bound := by
  constructor
  · rintro ⟨n, hn, rfl⟩
    exact ⟨canonical_numeral n, by rw [digitsValue_numeral]; exact hn⟩
  · rintro ⟨hc, hlt⟩
    exact ⟨digitsValue b, hlt, hc.numeral_digitsValue⟩

/-- A numeral below `10 ^ k` has at most `k` digits. -/
theorem length_numeral_le {n k : ℕ} (h : n < 10 ^ k) (hk : 0 < k) : (numeral n).length ≤ k := by
  rw [numeral]
  split
  · simpa using Nat.succ_le_of_lt hk
  · rw [List.length_reverse, List.length_map]
    exact (Nat.digits_length_le_iff (by omega) n).2 h

end Common

end TeeChaincode
