import TeeChaincode.Model.Coffee

/-!
# The chaincode's buffers

`Layout.Holds L m w`: in memory `m`, each static array holds the string
`w` gives it, at the front of an otherwise cleared buffer and with room
for a NUL, and the literals stand where the linker put them. The string
utilities of the chaincode are read off it: what they compute is a
function of the strings, and none of them leaves its buffer.
-/

namespace TeeChaincode

namespace Coffee

open Common

variable {L : Layout} {m m' : Memory} {w : Static → Bytes}

/-- What the chaincode's memory holds. -/
structure Layout.Holds (L : Layout) (m : Memory) (w : Static → Bytes) : Prop where
  size : m.size = L.image.size
  zero_notMem : ∀ v, (0 : UInt8) ∉ w v
  length_lt : ∀ v, (w v).length < v.size
  static : ∀ v, m.read (L.addr v).toNat v.size = pad v.size (w v)
  lit : ∀ l, m.read (L.lit l).toNat (l.text.length + 1) = l.text ++ [0]

theorem Static.size_pos (v : Static) : 0 < v.size := by
  cases v <;> decide

theorem Static.size_le (v : Static) : v.size ≤ 256 := by
  cases v <;> decide

/-- No literal holds a NUL. -/
theorem Lit.zero_notMem (l : Lit) : (0 : UInt8) ∉ l.text := by
  cases l <;> decide

/-- No literal is empty. -/
theorem Lit.text_ne_nil (l : Lit) : l.text ≠ [] := by
  cases l <;> decide

/-- The memory a module starts with holds empty strings. -/
theorem Layout.holds_image (L : Layout) : L.Holds L.image fun _ => [] where
  size := rfl
  zero_notMem _ := by simp
  length_lt v := v.size_pos
  static v := by rw [L.image_static, pad_nil]
  lit l := L.image_lit l

namespace Layout.Holds

/-- **One array is rewritten, the rest stays.** -/
theorem update (h : L.Holds m w) {v : Static} {b : Bytes} (h0 : (0 : UInt8) ∉ b)
    (hl : b.length < v.size) (hs : m.SameOutside m' (L.addr v).toNat v.size)
    (hr : m'.read (L.addr v).toNat v.size = pad v.size b) :
    L.Holds m' (Function.update w v b) where
  size := hs.size.trans h.size
  zero_notMem u := by
    by_cases huv : u = v
    · subst huv; simpa using h0
    · simpa [huv] using h.zero_notMem u
  length_lt u := by
    by_cases huv : u = v
    · subst huv; simpa using hl
    · simpa [huv] using h.length_lt u
  static u := by
    by_cases huv : u = v
    · subst huv; simpa using hr
    · rw [Function.update_of_ne huv, hs.read (L.static_disjoint u v huv), h.static u]
  lit l := by rw [hs.read (L.lit_disjoint l v), h.lit l]

theorem cstrAt (h : L.Holds m w) (v : Static) : m.CStrAt (L.addr v).toNat (w v) :=
  Memory.cstrAt_of_pad (h.zero_notMem v) (h.length_lt v) (h.static v)

theorem cstrAt_lit (h : L.Holds m w) (l : Lit) : m.CStrAt (L.lit l).toNat l.text :=
  Memory.cstrAt_of_read l.zero_notMem (h.lit l)

/-- A buffer and what it holds fit the memory, with addresses to
spare. -/
theorem addr_add_le (h : L.Holds m w) (v : Static) : (L.addr v).toNat + v.size ≤ m.size := by
  rw [h.size]
  exact L.addr_in v

theorem length_lt_size (h : L.Holds m w) (v : Static) : (w v).length < m.size := by
  have h1 := h.addr_add_le v
  have h2 := h.length_lt v
  omega

/-- **The first byte tells whether a buffer is empty.** -/
theorem byte_eq_zero_iff (h : L.Holds m w) (v : Static) :
    m.byte (L.addr v).toNat = 0 ↔ w v = [] := by
  have hc := h.cstrAt v
  cases hb : w v with
  | nil =>
    rw [hb] at hc
    simpa [Memory.CStrAt] using hc
  | cons x b =>
    rw [hb] at hc
    obtain ⟨hx, hne, -⟩ := hc
    simp [hx, hne]

/-- A cleared buffer is empty. -/
theorem sMemset (h : L.Holds m w) (v : Static) :
    L.Holds (sMemset m (L.addr v) 0 v.size) (Function.update w v []) :=
  h.update (by simp) v.size_pos Memory.SameOutside.fill (by
    rw [Coffee.sMemset, Memory.read_fill_self, pad_nil])

end Layout.Holds

/-! ## Scans -/

/-- The loop of `s_strlen` measures the string it starts at. -/
theorem scanLen_eq {s fuel : ℕ} {b : Bytes} (h : m.CStrAt s b) (hf : b.length < fuel) :
    scanLen m s fuel = b.length := by
  induction b generalizing s fuel with
  | nil =>
    obtain ⟨k, rfl⟩ : ∃ k, fuel = k + 1 := ⟨fuel - 1, by simp at hf; omega⟩
    have h' : m.byte s = 0 := h
    simp [scanLen, h']
  | cons x b ih =>
    obtain ⟨k, rfl⟩ : ∃ k, fuel = k + 1 := ⟨fuel - 1, by simp at hf; omega⟩
    obtain ⟨hx, hne, ht⟩ := h
    rw [scanLen, hx, if_neg hne, ih ht (by simpa using hf), List.length_cons]

theorem sStrlen_eq (h : L.Holds m w) (v : Static) : sStrlen m (L.addr v) = (w v).length := by
  rw [sStrlen, if_neg (L.addr_ne_zero v), scanLen_eq (h.cstrAt v) (h.length_lt_size v)]

/-- The loop of `s_streq` compares the strings it starts at. -/
theorem streqFrom_eq {a c fuel : ℕ} {x y : Bytes} (hx : m.CStrAt a x) (hy : m.CStrAt c y)
    (hf : x.length < fuel) : streqFrom m a c fuel = decide (x = y) := by
  induction x generalizing a c y fuel with
  | nil =>
    obtain ⟨k, rfl⟩ : ∃ k, fuel = k + 1 := ⟨fuel - 1, by simp at hf; omega⟩
    have ha : m.byte a = 0 := hx
    cases y with
    | nil =>
      have hc : m.byte c = 0 := hy
      simp [streqFrom, ha, hc]
    | cons z y =>
      obtain ⟨hz, hne, -⟩ := hy
      simp [streqFrom, ha, hz, Ne.symm hne]
  | cons u x ih =>
    obtain ⟨k, rfl⟩ : ∃ k, fuel = k + 1 := ⟨fuel - 1, by simp at hf; omega⟩
    obtain ⟨hu, hune, hxt⟩ := hx
    cases y with
    | nil =>
      have hc : m.byte c = 0 := hy
      simp [streqFrom, hu, hc, hune]
    | cons z y =>
      obtain ⟨hz, hne, hyt⟩ := hy
      rw [streqFrom, hu, hz]
      by_cases huz : u = z
      · subst huz
        rw [if_neg (by simp), if_neg hune, ih hxt hyt (by simpa using hf)]
        simp
      · simp [huz]

theorem sStreq_eq (h : L.Holds m w) (v : Static) (l : Lit) :
    sStreq m (L.addr v) (L.lit l) = decide (w v = l.text) := by
  rw [sStreq, streqFrom_eq (h.cstrAt v) (h.cstrAt_lit l) (h.length_lt_size v)]

/-! ## Numbers -/

/-- One more digit behind a machine value. -/
def pushDigit32 (v : UInt32) (c : UInt8) : UInt32 := v * 10 + (c - 48).toUInt32

/-- The loop of `s_atoul` reads the leading digits. -/
theorem atoulFrom_eq {s fuel : ℕ} {b : Bytes} (v : UInt32) (h : m.CStrAt s b)
    (hf : b.length < fuel) :
    atoulFrom m s v fuel = (b.takeWhile isDigit).foldl pushDigit32 v := by
  induction b generalizing s v fuel with
  | nil =>
    obtain ⟨k, rfl⟩ : ∃ k, fuel = k + 1 := ⟨fuel - 1, by simp at hf; omega⟩
    have h' : m.byte s = 0 := h
    simp [atoulFrom, h', isDigit]
  | cons x b ih =>
    obtain ⟨k, rfl⟩ : ∃ k, fuel = k + 1 := ⟨fuel - 1, by simp at hf; omega⟩
    obtain ⟨hx, -, ht⟩ := h
    rw [atoulFrom, hx]
    by_cases hd : isDigit x = true
    · rw [if_pos hd, ih _ ht (by simpa using hf), List.takeWhile_cons_of_pos hd, List.foldl_cons]
      rfl
    · rw [if_neg hd, List.takeWhile_cons_of_neg hd, List.foldl_nil]

/-- A digit's value as a machine word. -/
theorem toUInt32_sub_digit {c : UInt8} (h : isDigit c = true) :
    (c - 48).toUInt32 = UInt32.ofNat (c.toNat - 48) := by
  obtain ⟨h1, h2⟩ := isDigit_iff.1 h
  apply UInt32.toNat_inj.1
  have hle : (48 : UInt8) ≤ c := by simpa [UInt8.le_iff_toNat_le] using h1
  rw [UInt8.toNat_toUInt32, UInt8.toNat_sub_of_le _ _ hle, UInt32.toNat_ofNat',
    Nat.mod_eq_of_lt (by omega)]
  rfl

/-- Reading digits into a machine word is reading them modulo its
width. -/
theorem foldl_pushDigit32 {b : Bytes} (h : IsNumeral b) (n : ℕ) :
    b.foldl pushDigit32 (UInt32.ofNat n) = UInt32.ofNat (b.foldl pushDigit n) := by
  induction b generalizing n with
  | nil => rfl
  | cons c b ih =>
    have hstep : pushDigit32 (UInt32.ofNat n) c = UInt32.ofNat (pushDigit n c) := by
      rw [pushDigit32, pushDigit, toUInt32_sub_digit (h c (by simp)), UInt32.ofNat_add,
        UInt32.ofNat_mul]
      rfl
    rw [List.foldl_cons, List.foldl_cons, hstep, ih fun c hc => h c (by simp [hc])]

/-- **`s_atoul` is the value of the leading digits, modulo `2 ^ 32`.** -/
theorem sAtoul_of_cstrAt {s : UInt32} {b : Bytes} (hs : s ≠ 0) (h : m.CStrAt s.toNat b)
    (hb : b.length < m.size) : sAtoul m s = UInt32.ofNat (leadingValue b) := by
  rw [sAtoul, if_neg hs, atoulFrom_eq 0 h hb]
  exact foldl_pushDigit32 (fun c hc => List.mem_takeWhile_imp hc) 0

theorem sAtoul_eq (h : L.Holds m w) (v : Static) :
    sAtoul m (L.addr v) = UInt32.ofNat (leadingValue (w v)) :=
  sAtoul_of_cstrAt (L.addr_ne_zero v) (h.cstrAt v) (h.length_lt_size v)

/-- The digits `s_ultoa` collects, where the buffer has room for them. -/
theorem ultoaDigits_eq (room : ℕ) (v : UInt32) (h : (Nat.digits 10 v.toNat).length ≤ room) :
    ultoaDigits room v = (Nat.digits 10 v.toNat).map digitChar := by
  induction room generalizing v with
  | zero =>
    have hnil : Nat.digits 10 v.toNat = [] := List.length_eq_zero_iff.1 (by omega)
    rw [hnil, ultoaDigits, List.map_nil]
  | succ room ih =>
    rw [ultoaDigits]
    by_cases hv : v = 0
    · subst hv
      simp
    · have hpos : 0 < v.toNat := by
        rcases Nat.eq_zero_or_pos v.toNat with h0 | h0
        · exact absurd (UInt32.toNat_inj.1 (by rw [h0]; rfl)) hv
        · exact h0
      have hdiv : (v / 10).toNat = v.toNat / 10 := UInt32.toNat_div v 10
      have hdig : Nat.digits 10 v.toNat = v.toNat % 10 :: Nat.digits 10 (v.toNat / 10) :=
        Nat.digits_def' (by omega) hpos
      rw [hdig] at h ⊢
      rw [if_neg hv, ih _ (by rw [hdiv]; simpa using h), hdiv, List.map_cons]
      congr 1
      apply UInt8.toNat_inj.1
      have hmod : (v % 10).toNat = v.toNat % 10 := UInt32.toNat_mod v 10
      have hlt : v.toNat % 10 < 10 := Nat.mod_lt _ (by omega)
      rw [toNat_digitChar hlt, UInt8.toNat_add, UInt32.toNat_toUInt8, hmod]
      change (48 + v.toNat % 10 % 256) % 256 = _
      omega

/-- The copying loop of `s_ultoa` lays the digits out from the highest
on, as many as fit, and terminates them. -/
theorem ultoaCopy_eq (buf : Bytes) (out outLen : ℕ) (i k : ℕ) (m : Memory) (hi : i ≤ buf.length)
    (hk : k < outLen) :
    ultoaCopy buf out outLen i k m =
      m.write (out + k) ((buf.take i).reverse.take (outLen - 1 - k) ++ [0]) := by
  induction i generalizing k m with
  | zero => simp [ultoaCopy]
  | succ i ih =>
    rw [ultoaCopy]
    by_cases hlt : (k : ℤ) < (outLen : ℤ) - 1
    · rw [if_pos hlt, ih (k + 1) _ (by omega) (by omega), ← Nat.add_assoc, Memory.write_cons]
      congr 1
      obtain ⟨j, hj⟩ : ∃ j, outLen - 1 - k = j + 1 := ⟨outLen - 2 - k, by omega⟩
      rw [List.take_succ_eq_append_getElem (by omega), List.reverse_append,
        List.getD_eq_getElem _ _ (by omega), hj,
        show outLen - 1 - (k + 1) = j by omega]
      simp
    · rw [if_neg hlt, show outLen - 1 - k = 0 by omega]
      simp

/-- **`s_ultoa` prints the canonical numeral**, cut to the room before
the terminator. -/
theorem sUltoa_eq {out : UInt32} (hout : out ≠ 0) (m : Memory) (v : UInt32) (outLen : ℕ)
    (hlen : 2 ≤ outLen) :
    sUltoa m v out outLen = m.write out.toNat ((numeral v.toNat).take (outLen - 1) ++ [0]) := by
  rw [sUltoa, if_neg (by simp only [not_or]; exact ⟨hout, by omega⟩)]
  by_cases hv : v = 0
  · subst hv
    obtain ⟨j, hj⟩ : ∃ j, outLen - 1 = j + 1 := ⟨outLen - 2, by omega⟩
    have h0 : numeral (UInt32.toNat 0) = [48] := if_pos rfl
    rw [if_pos rfl, if_pos (by omega), Memory.write_cons, hj, h0, List.take_succ_cons,
      List.take_nil, List.singleton_append]
  · have hne : v.toNat ≠ 0 := fun h => hv (UInt32.toNat_inj.1 (by rw [h]; rfl))
    have hroom : (Nat.digits 10 v.toNat).length ≤ 32 := by
      refine (Nat.digits_length_le_iff (by omega) _).2 ?_
      have := v.toNat_lt
      omega
    rw [if_neg hv, ultoaDigits_eq 32 v hroom,
      ultoaCopy_eq _ _ _ _ _ _ le_rfl (by omega), List.take_length, numeral, if_neg hne,
      Nat.add_zero, Nat.sub_zero]

/-- The numeral of a machine word fits the chaincode's buffers. -/
theorem length_numeral_toNat (v : UInt32) : (numeral v.toNat).length ≤ 10 :=
  length_numeral_le (by have := v.toNat_lt; omega) (by omega)

/-- **Printing into a cleared buffer.** -/
theorem Layout.Holds.sUltoa (h : L.Holds m w) (hw : w .gTmp = []) (v : UInt32) :
    L.Holds (sUltoa m v (L.addr .gTmp) 256) (Function.update w .gTmp (numeral v.toNat)) := by
  have hlen := length_numeral_toNat v
  have htake : (numeral v.toNat).take (256 - 1) = numeral v.toNat :=
    List.take_of_length_le (by omega)
  have heq := sUltoa_eq (L.addr_ne_zero .gTmp) m v 256 (by omega)
  rw [htake] at heq
  have hold : m.read (L.addr .gTmp).toNat 256 = List.replicate 256 0 := by
    rw [← pad_nil, ← hw]
    exact h.static .gTmp
  rw [show ((256 : ℤ)) = ((256 : ℕ) : ℤ) from rfl, heq]
  refine h.update (isNumeral_numeral _).zero_notMem (by simp only [Static.size]; omega)
    (Memory.SameOutside.write le_rfl ?_) ?_
  · simp only [List.length_append, List.length_singleton, Static.size]
    omega
  · rw [Static.size, Memory.read_write_self hold (by simp; omega), pad,
      List.take_of_length_le (by omega), List.drop_replicate, List.append_assoc,
      List.length_append, List.length_singleton, ← List.replicate_one,
      List.replicate_append_replicate]
    congr 2
    omega

end Coffee

end TeeChaincode
