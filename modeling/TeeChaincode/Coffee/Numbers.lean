import TeeChaincode.Coffee.Memory

/-!
# Decimal printing and parsing

`s_ultoa` and `s_atoul` on any buffer, not only on those of the chaincode.
`s_ultoa` lays the canonical numeral of its value into the buffer, cut to
leave room for the terminator, and stays inside; `s_atoul` takes the value
of the digits a string starts with, modulo `2 ^ 32`. So parsing undoes
printing where the numeral fits, and printing undoes parsing on the
canonical numerals of machine words and on no other string.
-/

namespace TeeChaincode

namespace Coffee

open Common

variable {m : Memory} {out : UInt32} {v : UInt32} {outLen : ℕ}

/-! ## Printing -/

/-- The scratch buffer of `s_ultoa` has room to spare. -/
theorem length_ultoaDigits (v : UInt32) : (ultoaDigits 32 v).length ≤ 10 := by
  have hlen : (Nat.digits 10 v.toNat).length ≤ 10 := by
    refine (Nat.digits_length_le_iff (by omega) _).2 ?_
    have := v.toNat_lt
    omega
  rw [ultoaDigits_eq 32 v (by omega), List.length_map]
  exact hlen

/-- What `s_ultoa` lays into a buffer of two bytes or more. -/
def printed (v : UInt32) (outLen : ℕ) : Bytes := (numeral v.toNat).take (outLen - 1)

theorem length_printed_lt (hlen : 2 ≤ outLen) : (printed v outLen).length < outLen := by
  rw [printed, List.length_take]
  omega

/-- A numeral that fits is printed in full. -/
theorem printed_of_fits (h : (numeral v.toNat).length < outLen) :
    printed v outLen = numeral v.toNat :=
  List.take_of_length_le (by omega)

/-- **What is printed stands at the front of the buffer, terminated**, and
nothing else changes. -/
theorem sUltoa_prints (hout : out ≠ 0) (hlen : 2 ≤ outLen) :
    (sUltoa m v out outLen).read out.toNat ((printed v outLen).length + 1) =
        printed v outLen ++ [0] ∧
      m.SameOutside (sUltoa m v out outLen) out.toNat outLen := by
  have hlt := length_printed_lt (v := v) hlen
  have heq : sUltoa m v out outLen = m.write out.toNat (printed v outLen ++ [0]) :=
    sUltoa_eq hout m v outLen hlen
  have hlength : (printed v outLen ++ [0]).length = (printed v outLen).length + 1 := by
    rw [List.length_append, List.length_singleton]
  rw [heq]
  refine ⟨?_, Memory.SameOutside.write le_rfl (by omega)⟩
  rw [Memory.read_write_self rfl hlength.le, hlength, List.drop_of_length_le, List.append_nil]
  rw [Memory.length_read]

theorem cstrAt_sUltoa (hout : out ≠ 0) (hlen : 2 ≤ outLen) :
    (sUltoa m v out outLen).CStrAt out.toNat (printed v outLen) := by
  have h0 : (0 : UInt8) ∉ printed v outLen :=
    fun h => (isNumeral_numeral v.toNat).zero_notMem (List.mem_of_mem_take h)
  exact Memory.cstrAt_of_read h0 (sUltoa_prints hout hlen).1

/-- A numeral is longer than nothing, so room for it is room for two. -/
theorem two_le_of_fits (h : (numeral v.toNat).length < outLen) : 2 ≤ outLen := by
  have := List.length_pos_iff.2 (numeral_ne_nil v.toNat)
  omega

/-- **Parsing undoes printing.** -/
theorem sAtoul_sUltoa (hout : out ≠ 0) (hin : out.toNat + outLen ≤ m.size)
    (h : (numeral v.toNat).length < outLen) : sAtoul (sUltoa m v out outLen) out = v := by
  have hlen := two_le_of_fits h
  have hsize : (sUltoa m v out outLen).size = m.size := (sUltoa_prints hout hlen).2.size
  rw [sAtoul_of_cstrAt hout (cstrAt_sUltoa hout hlen)
    (by have := length_printed_lt (v := v) hlen; omega), printed_of_fits h, leadingValue_numeral,
    UInt32.ofNat_toNat]

/-! ## Printing what was parsed -/

/-- The numeral of the value of a string's leading digits is the string
for canonical numerals of machine words only. -/
theorem numeral_leadingValue_eq_iff (b : Bytes) :
    numeral (UInt32.ofNat (leadingValue b)).toNat = b ↔ Canonical b ∧ digitsValue b < 2 ^ 32 := by
  constructor
  · intro h
    exact exists_numeral_iff.1 ⟨_, UInt32.toNat_lt _, h⟩
  · rintro ⟨hc, hlt⟩
    rw [hc.digits.leadingValue, UInt32.toNat_ofNat', Nat.mod_eq_of_lt hlt, hc.numeral_digitsValue]

/-- **Printing and parsing are inverse.** For every machine word and every
buffer with room for its digits and a terminator, `s_ultoa` writes the
canonical numeral and the terminator, nothing behind the buffer, does not
exhaust its 32 scratch bytes, and `s_atoul` reads the word back. In a
shorter buffer, of two bytes or more, the leading digits that fit are
written and terminated. For every terminated string, `s_atoul` is the
value of the longest run of digits in front, modulo `2 ^ 32`; and printing
that value gives the string back exactly for the canonical numerals below
`2 ^ 32`. -/
theorem print_parse_inverse :
    (∀ (m : Memory) (v out : UInt32) (outLen : ℕ), out ≠ 0 → out.toNat + outLen ≤ m.size →
      (numeral v.toNat).length < outLen →
      (sUltoa m v out outLen).read out.toNat ((numeral v.toNat).length + 1) =
          numeral v.toNat ++ [0] ∧
        m.SameOutside (sUltoa m v out outLen) out.toNat outLen ∧
        (ultoaDigits 32 v).length < 32 ∧
        sAtoul (sUltoa m v out outLen) out = v) ∧
    (∀ (m : Memory) (v out : UInt32) (outLen : ℕ), out ≠ 0 → out.toNat + outLen ≤ m.size →
      2 ≤ outLen →
      ∃ k, k = min (numeral v.toNat).length (outLen - 1) ∧ k < outLen ∧
        (sUltoa m v out outLen).read out.toNat (k + 1) = (numeral v.toNat).take k ++ [0] ∧
        m.SameOutside (sUltoa m v out outLen) out.toNat outLen) ∧
    (∀ (m : Memory) (s : UInt32) (b : Bytes), s ≠ 0 → m.CStrAt s.toNat b →
      s.toNat + b.length < m.size →
      sAtoul m s = UInt32.ofNat (digitsValue (b.takeWhile isDigit))) ∧
    (∀ (m : Memory) (s out : UInt32) (b : Bytes) (outLen : ℕ), s ≠ 0 → m.CStrAt s.toNat b →
      s.toNat + b.length < m.size → out ≠ 0 → out.toNat + outLen ≤ m.size →
      (numeral (sAtoul m s).toNat).length < outLen →
      ((sUltoa m (sAtoul m s) out outLen).CStrAt out.toNat b ↔
        Canonical b ∧ digitsValue b < 2 ^ 32)) := by
  refine ⟨fun m v out outLen hout hin h => ?_, fun m v out outLen hout _ hlen => ?_,
    fun m s b hs h hb => sAtoul_of_cstrAt hs h (by omega),
    fun m s out b outLen hs h hb hout _ hfits => ?_⟩
  · obtain ⟨hread, hframe⟩ := sUltoa_prints (m := m) (v := v) hout (two_le_of_fits h)
    rw [printed_of_fits h] at hread
    have hscratch := length_ultoaDigits v
    exact ⟨hread, hframe, by omega, sAtoul_sUltoa hout hin h⟩
  · obtain ⟨hread, hframe⟩ := sUltoa_prints (m := m) (v := v) hout hlen
    have hk : (printed v outLen).length = min (numeral v.toNat).length (outLen - 1) := by
      rw [printed, List.length_take, Nat.min_comm]
    have htake : (numeral v.toNat).take (printed v outLen).length = printed v outLen := by
      rw [printed, List.length_take, ← List.take_eq_take_min]
    refine ⟨(printed v outLen).length, hk, length_printed_lt hlen, ?_, hframe⟩
    rw [htake]
    exact hread
  · have hcstr := cstrAt_sUltoa (m := m) (v := sAtoul m s) hout (two_le_of_fits hfits)
    have hval : sAtoul m s = UInt32.ofNat (leadingValue b) := sAtoul_of_cstrAt hs h (by omega)
    rw [printed_of_fits hfits, hval] at hcstr
    rw [← numeral_leadingValue_eq_iff b, hval]
    exact ⟨fun hb => hcstr.unique hb, fun hb => by rw [hb] at hcstr; exact hcstr⟩

/-- A memory that holds `042` at address `8`. -/
def holds042 : Memory := ⟨65536, fun i => (ascii "042").getD (i - 8) 0⟩

/-- `120` is printed and read back, and cut in a buffer of three bytes;
`042` is read as `42`, which is not printed as it stood. -/
theorem print_parse_inverse_120 :
    ((sUltoa holds042 120 32 16).read 32 4 = ascii "120" ++ [0] ∧
      sAtoul (sUltoa holds042 120 32 16) 32 = 120) ∧
    (sUltoa holds042 120 32 3).read 32 3 = ascii "12" ++ [0] ∧
    sAtoul holds042 8 = 42 ∧
    ¬ (sUltoa holds042 (sAtoul holds042 8) 32 16).CStrAt 32 (ascii "042") := by
  have hcstr : holds042.CStrAt 8 (ascii "042") :=
    ⟨rfl, by decide, rfl, by decide, rfl, by decide, rfl⟩
  have hval : sAtoul holds042 8 = 42 :=
    print_parse_inverse.2.2.1 holds042 8 (ascii "042") (by decide) hcstr (by decide)
  have hnumeral : ∀ v : UInt32, (numeral v.toNat).length < 16 := by
    intro v
    have := length_numeral_toNat v
    omega
  obtain ⟨hread, -, -, hback⟩ := print_parse_inverse.1 holds042 120 32 16 (by decide) (by decide)
    (hnumeral 120)
  have h120 : numeral (UInt32.toNat 120) = ascii "120" := by
    simp [numeral, ascii, digitChar]
  obtain ⟨k, rfl, -, hcut, -⟩ := print_parse_inverse.2.1 holds042 120 32 3 (by decide) (by decide)
    (by decide)
  have hiff := print_parse_inverse.2.2.2 holds042 8 32 (ascii "042") 16 (by decide) hcstr
    (by decide) (by decide) (by decide) (hnumeral _)
  rw [h120] at hread hcut
  refine ⟨⟨hread, hback⟩, hcut, hval, fun h => ?_⟩
  exact absurd ((hiff.1 h).1.head rfl) (by decide)

end Coffee

end TeeChaincode
