import TeeChaincode.Common.Bytes
import Mathlib.Data.List.GetD

/-!
# Byte-addressed memory

A memory is a size and the byte at each address. `read` takes a range out
as a byte string; `fill` and `write` are the block writes. The laws are
the usual three: a range reads back what was last written to it, a write
elsewhere does not touch it, and neither write changes the size.
-/

namespace TeeChaincode

namespace Common

/-- A byte-addressed memory. Addresses at or above `size` are not mapped. -/
structure Memory where
  /-- The number of mapped bytes. -/
  size : ℕ
  /-- The byte at an address. -/
  byte : ℕ → UInt8

namespace Memory

variable {m m' : Memory} {off off' len len' : ℕ} {v : UInt8} {data : Bytes}

/-- The bytes of a range. -/
def read (m : Memory) (off len : ℕ) : Bytes :=
  (List.range len).map fun i => m.byte (off + i)

/-- Set every byte of a range. -/
def fill (m : Memory) (off len : ℕ) (v : UInt8) : Memory :=
  { m with byte := fun i => if off ≤ i ∧ i < off + len then v else m.byte i }

/-- Copy a byte string to an address. -/
def write (m : Memory) (off : ℕ) (data : Bytes) : Memory :=
  { m with
    byte := fun i => if off ≤ i ∧ i < off + data.length then data.getD (i - off) 0 else m.byte i }

@[simp] theorem fill_size : (m.fill off len v).size = m.size := rfl

@[simp] theorem write_size : (m.write off data).size = m.size := rfl

@[simp] theorem length_read : (m.read off len).length = len := by
  simp [read]

theorem getElem_read {i : ℕ} (h : i < (m.read off len).length) :
    (m.read off len)[i] = m.byte (off + i) := by
  simp [read]

/-- Two memories that agree on a range read the same there. -/
theorem read_congr (h : ∀ i, i < len → m.byte (off + i) = m'.byte (off' + i)) :
    m.read off len = m'.read off' len := by
  refine List.map_congr_left fun i hi => h i (List.mem_range.1 hi)

/-- What a range reads, byte by byte. -/
theorem read_eq_iff : m.read off len = data ↔
    data.length = len ∧ ∀ i, i < len → m.byte (off + i) = data.getD i 0 := by
  constructor
  · rintro rfl
    refine ⟨length_read, fun i hi => ?_⟩
    rw [List.getD_eq_getElem _ _ (by simpa using hi), getElem_read]
  · rintro ⟨hl, hb⟩
    refine List.ext_getElem (by simp [hl]) fun i h1 h2 => ?_
    rw [getElem_read, hb i (by simpa using h1), List.getD_eq_getElem _ _ h2]

/-- The front of a range. -/
theorem take_read (k : ℕ) : (m.read off len).take k = m.read off (min k len) := by
  rw [read, read, ← List.map_take, List.take_range]

/-- The string at the front of a range. -/
theorem read_of_pad {b : Bytes} (h : m.read off len = pad len b) (hb : b.length ≤ len) :
    m.read off b.length = b := by
  rw [← Nat.min_eq_left hb, ← take_read, h, pad, List.take_of_length_le hb,
    List.take_append_of_le_length le_rfl, List.take_length]

theorem byte_of_read (h : m.read off len = data) {i : ℕ} (hi : i < len) :
    m.byte (off + i) = data.getD i 0 :=
  (read_eq_iff.1 h).2 i hi

/-- A copy elsewhere does not touch a range. -/
theorem read_write_of_disjoint (h : off + len ≤ off' ∨ off' + data.length ≤ off) :
    (m.write off' data).read off len = m.read off len := by
  refine read_congr fun i hi => ?_
  simp only [write]
  rw [if_neg (by omega)]

/-- A filled range reads its filling. -/
theorem read_fill_self : (m.fill off len v).read off len = List.replicate len v := by
  refine read_eq_iff.2 ⟨by simp, fun i hi => ?_⟩
  have h : off ≤ off + i ∧ off + i < off + len := by omega
  simp only [fill]
  rw [if_pos h, List.getD_eq_getElem _ _ (by simpa using hi), List.getElem_replicate]

/-- What a copy leaves in a range it starts: the data, and behind it what
stood there. -/
theorem read_write_self {b : Bytes} (h : m.read off len = b) (hd : data.length ≤ len) :
    (m.write off data).read off len = data ++ b.drop data.length := by
  obtain ⟨hb, hbyte⟩ := read_eq_iff.1 h
  refine read_eq_iff.2 ⟨by simp; omega, fun i hi => ?_⟩
  simp only [write]
  by_cases hid : i < data.length
  · rw [if_pos (by omega), Nat.add_sub_cancel_left, List.getD_append _ _ _ _ hid]
  · rw [if_neg (by omega), hbyte i hi, List.getD_append_right _ _ _ _ (by omega),
      List.getD_eq_getElem _ _ (by omega : i < b.length),
      List.getD_eq_getElem _ _ (by simp; omega), List.getElem_drop]
    congr 1
    omega

/-- **A string copied to the front of a cleared range** is laid in a
cleared buffer. -/
theorem read_write_fill (hd : data.length ≤ len) :
    ((m.fill off len 0).write off data).read off len = pad len data := by
  rw [read_write_self read_fill_self hd, pad, List.take_of_length_le hd, List.drop_replicate]

@[ext] theorem ext (hs : m.size = m'.size) (hb : ∀ i, m.byte i = m'.byte i) : m = m' := by
  cases m; cases m'
  simp only [Memory.mk.injEq] at *
  exact ⟨hs, funext hb⟩

/-- Copying byte by byte. -/
theorem write_cons {x : UInt8} :
    (m.write off [x]).write (off + 1) data = m.write off (x :: data) := by
  refine Memory.ext rfl fun i => ?_
  simp only [write, List.length_cons, List.length_nil]
  rcases Nat.lt_trichotomy i off with h | rfl | h
  · rw [if_neg (by omega), if_neg (by omega), if_neg (by omega)]
  · rw [if_neg (by omega), if_pos (by omega), if_pos (by omega)]
    simp
  · obtain ⟨k, rfl⟩ : ∃ k, i = off + 1 + k := ⟨i - off - 1, by omega⟩
    have hk : off + 1 + k - off = k + 1 := by omega
    by_cases hd : k < data.length
    · rw [if_pos (by omega), if_pos (by omega), Nat.add_sub_cancel_left, hk, List.getD_cons_succ]
    · rw [if_neg (by omega), if_neg (by omega), if_neg (by omega)]

/-- Filling byte by byte. -/
theorem fill_succ : (m.write off [v]).fill (off + 1) len v = m.fill off (len + 1) v := by
  refine Memory.ext rfl fun i => ?_
  simp only [fill, write, List.length_cons, List.length_nil]
  by_cases hi : i = off
  · subst hi
    rw [if_neg (by omega), if_pos (by omega), if_pos (by omega), Nat.sub_self, List.getD_cons_zero]
  · by_cases hr : off + 1 ≤ i ∧ i < off + 1 + len
    · rw [if_pos hr, if_pos (by omega)]
    · rw [if_neg hr, if_neg (by omega), if_neg (by omega)]

/-! ## Frames -/

/-- Two memories that differ at most in one range. -/
structure SameOutside (m m' : Memory) (off len : ℕ) : Prop where
  size : m'.size = m.size
  byte : ∀ i, i < off ∨ off + len ≤ i → m'.byte i = m.byte i

theorem SameOutside.trans {m'' : Memory} (h : SameOutside m m' off len)
    (h' : SameOutside m' m'' off len) : SameOutside m m'' off len :=
  ⟨h'.size.trans h.size, fun i hi => (h'.byte i hi).trans (h.byte i hi)⟩

theorem SameOutside.fill : SameOutside m (m.fill off len v) off len :=
  ⟨rfl, fun i hi => by simp only [Memory.fill]; rw [if_neg (by omega)]⟩

theorem SameOutside.write (h : off ≤ off') (hl : off' + data.length ≤ off + len) :
    SameOutside m (m.write off' data) off len :=
  ⟨rfl, fun i hi => by simp only [Memory.write]; rw [if_neg (by omega)]⟩

/-- A range apart from it reads the same. -/
theorem SameOutside.read (h : SameOutside m m' off len)
    (hd : off' + len' ≤ off ∨ off + len ≤ off') : m'.read off' len' = m.read off' len' :=
  read_congr fun i hi => h.byte _ (by omega)

/-- **Nothing changed outside the memory**, which may have grown. -/
structure Within (m m' : Memory) : Prop where
  size : m.size ≤ m'.size
  byte : ∀ i, m'.size ≤ i → m'.byte i = m.byte i

theorem Within.refl (m : Memory) : Within m m := ⟨le_rfl, fun _ _ => rfl⟩

theorem Within.trans {m'' : Memory} (h : Within m m') (h' : Within m' m'') : Within m m'' :=
  ⟨h.size.trans h'.size, fun i hi => (h'.byte i hi).trans (h.byte i (h'.size.trans hi))⟩

theorem SameOutside.within (h : SameOutside m m' off len) (hin : off + len ≤ m.size) :
    Within m m' :=
  ⟨h.size.ge, fun i hi => h.byte i (.inr (by have := h.size; omega))⟩

/-- **Two memories that are the same inside.** -/
structure SameInside (m m' : Memory) : Prop where
  size : m'.size = m.size
  byte : ∀ i, i < m.size → m'.byte i = m.byte i

theorem SameInside.read (h : SameInside m m') (hin : off + len ≤ m.size) :
    m'.read off len = m.read off len :=
  read_congr fun i hi => h.byte _ (by omega)

theorem SameInside.fill (h : SameInside m m') : SameInside (m.fill off len v) (m'.fill off len v) :=
  ⟨h.size, fun i hi => by simp only [Memory.fill]; rw [h.byte i hi]⟩

theorem SameInside.write (h : SameInside m m') :
    SameInside (m.write off data) (m'.write off data) :=
  ⟨h.size, fun i hi => by simp only [Memory.write]; rw [h.byte i hi]⟩

/-! ## C strings in memory -/

/-- The C string at an address is `b`. -/
def CStrAt (m : Memory) : ℕ → Bytes → Prop
  | s, [] => m.byte s = 0
  | s, x :: b => m.byte s = x ∧ x ≠ 0 ∧ CStrAt m (s + 1) b

/-- A range that reads `b` with a NUL behind it holds the C string
`b`. -/
theorem cstrAt_of_read {b r : Bytes} (h0 : (0 : UInt8) ∉ b)
    (h : m.read off len = b ++ 0 :: r) : CStrAt m off b := by
  induction b generalizing off len with
  | nil =>
    obtain ⟨hl, hb⟩ := read_eq_iff.1 h
    have := hb 0 (by simp at hl; omega)
    simpa [CStrAt] using this
  | cons x b ih =>
    obtain ⟨hl, hb⟩ := read_eq_iff.1 h
    have hx : x ≠ 0 := fun e => h0 (by simp [e])
    have hhead := hb 0 (by simp at hl; omega)
    have htail : m.read (off + 1) (len - 1) = b ++ 0 :: r := by
      refine read_eq_iff.2 ⟨by simp at hl ⊢; omega, fun i hi => ?_⟩
      have := hb (i + 1) (by omega)
      rw [Nat.add_right_comm, Nat.add_assoc off]
      simpa [Nat.add_comm, Nat.add_left_comm] using this
    exact ⟨by simpa using hhead, hx, ih (fun e => h0 (by simp [e])) htail⟩

/-- At most one C string starts at an address. -/
theorem CStrAt.unique {b b' : Bytes} (h : m.CStrAt off b) (h' : m.CStrAt off b') : b = b' := by
  induction b generalizing off b' with
  | nil =>
    have h0 : m.byte off = 0 := h
    cases b' with
    | nil => rfl
    | cons y b' => exact absurd (h'.1.symm.trans h0) h'.2.1
  | cons x b ih =>
    obtain ⟨hx, hne, ht⟩ := h
    cases b' with
    | nil => exact absurd (hx.symm.trans h') hne
    | cons y b' =>
      obtain ⟨hy, -, ht'⟩ := h'
      rw [hx.symm.trans hy, ih ht ht']

theorem cstrAt_of_pad {b : Bytes} (h0 : (0 : UInt8) ∉ b) (hl : b.length < len)
    (h : m.read off len = pad len b) : CStrAt m off b :=
  cstrAt_of_read h0 (h.trans (pad_eq hl))

end Memory

end Common

end TeeChaincode
