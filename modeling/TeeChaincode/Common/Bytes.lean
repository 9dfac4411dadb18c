import Mathlib.Data.List.TakeWhile
import Mathlib.Tactic.Linarith

/-!
# Byte strings, C strings and zero-filled buffers

Programs that pass strings through fixed-size buffers do three things to
them: they stop at the first NUL (`cstr`), they cut at a bound (`clip`),
and they lay the result at the front of a cleared buffer (`pad`). This
file fixes these operations over lists of bytes, with the laws by which
they compose: what is read back from a cleared buffer is what was laid
there, as long as it held no NUL and left room for one.

`memFill` and `memMove` are the two block writes on a buffer given as a
list, and `Buf n` is a buffer that carries its length.
-/

namespace TeeChaincode

namespace Common

/-- A byte string. -/
abbrev Bytes := List UInt8

/-- The bytes of an ASCII literal. -/
def ascii (s : String) : Bytes := s.toList.map fun c => UInt8.ofNat c.toNat

/-- The C string a byte sequence starts with: the bytes before its first
NUL. -/
def cstr (b : Bytes) : Bytes := b.takeWhile (· ≠ 0)

/-- The C string a byte sequence starts with, cut to `n` bytes. -/
def clip (n : ℕ) (b : Bytes) : Bytes := (cstr b).take n

/-- A cleared buffer of `n` bytes with `b` laid at its front. -/
def pad (n : ℕ) (b : Bytes) : Bytes := b.take n ++ List.replicate (n - b.length) 0

/-! ## C strings -/

@[simp] theorem cstr_nil : cstr [] = [] := rfl

@[simp] theorem cstr_cons_zero {b : Bytes} : cstr (0 :: b) = [] := by
  simp [cstr]

theorem cstr_cons_of_ne {x : UInt8} {b : Bytes} (h : x ≠ 0) : cstr (x :: b) = x :: cstr b := by
  simp [cstr, h]

/-- A C string holds no NUL. -/
theorem zero_notMem_cstr (b : Bytes) : (0 : UInt8) ∉ cstr b := by
  intro h
  simpa using List.mem_takeWhile_imp h

/-- And neither does a cut one. -/
theorem zero_notMem_clip (n : ℕ) (b : Bytes) : (0 : UInt8) ∉ clip n b :=
  fun h => zero_notMem_cstr b (List.mem_of_mem_take h)

theorem length_clip_le (n : ℕ) (b : Bytes) : (clip n b).length ≤ n :=
  List.length_take_le _ _

/-- A byte string with a NUL behind it is the C string that starts
there. -/
theorem cstr_append_zero {b r : Bytes} (h : (0 : UInt8) ∉ b) : cstr (b ++ 0 :: r) = b := by
  induction b with
  | nil => simp
  | cons x b ih =>
    have hx : x ≠ 0 := fun e => h (by simp [e])
    rw [List.cons_append, cstr_cons_of_ne hx, ih (fun e => h (by simp [e]))]

theorem cstr_eq_self {b : Bytes} (h : (0 : UInt8) ∉ b) : cstr b = b := by
  induction b with
  | nil => rfl
  | cons x b ih =>
    have hx : x ≠ 0 := fun e => h (by simp [e])
    rw [cstr_cons_of_ne hx, ih (fun e => h (by simp [e]))]

/-- Cutting first and stopping at the NUL first is the same. -/
theorem cstr_take (n : ℕ) (b : Bytes) : cstr (b.take n) = clip n b := by
  induction b generalizing n with
  | nil => simp [clip]
  | cons x b ih =>
    cases n with
    | zero => simp [clip]
    | succ n =>
      by_cases hx : x = 0
      · subst hx; simp [clip]
      · rw [List.take_succ_cons, cstr_cons_of_ne hx, ih, clip, clip, cstr_cons_of_ne hx,
          List.take_succ_cons]

theorem clip_eq_self {n : ℕ} {b : Bytes} (h : (0 : UInt8) ∉ b) (hn : b.length ≤ n) :
    clip n b = b := by
  rw [clip, cstr_eq_self h, List.take_of_length_le hn]

/-- A NUL within the first bytes bounds the string, however far it is
scanned. -/
theorem clip_of_zero_mem_take {n : ℕ} {b : Bytes} (h : (0 : UInt8) ∈ b.take (n + 1)) (m : ℕ) :
    clip m b = (clip n b).take m := by
  have hle : (cstr b).length ≤ n := by
    by_contra hlt
    obtain ⟨r, hr⟩ : cstr b <+: b := List.takeWhile_prefix _
    have htake : (cstr b ++ r).take (n + 1) = (cstr b).take (n + 1) :=
      List.take_append_of_le_length (by omega)
    rw [hr] at htake
    rw [htake] at h
    exact zero_notMem_cstr b (List.mem_of_mem_take h)
  rw [clip, clip, List.take_of_length_le hle]

theorem cstr_clip (n : ℕ) (b : Bytes) : cstr (clip n b) = clip n b :=
  cstr_eq_self (zero_notMem_clip n b)

/-! ## Cleared buffers -/

@[simp] theorem length_pad (n : ℕ) (b : Bytes) : (pad n b).length = n := by
  simp [pad]
  omega

@[simp] theorem pad_nil (n : ℕ) : pad n [] = List.replicate n 0 := by
  simp [pad]

/-- A string of the buffer's size fills it. -/
theorem pad_of_length {n : ℕ} {b : Bytes} (h : b.length = n) : pad n b = b := by
  rw [pad, List.take_of_length_le (le_of_eq h), h, Nat.sub_self, List.replicate_zero,
    List.append_nil]

/-- A string that leaves room for a NUL has one right behind it. -/
theorem pad_eq {n : ℕ} {b : Bytes} (h : b.length < n) :
    pad n b = b ++ 0 :: List.replicate (n - b.length - 1) 0 := by
  obtain ⟨k, hk⟩ : ∃ k, n - b.length = k + 1 := ⟨n - b.length - 1, by omega⟩
  rw [pad, List.take_of_length_le (le_of_lt h), hk, List.replicate_succ, Nat.add_sub_cancel]

/-- **What is laid in a cleared buffer is read back**, whatever stands
behind the buffer. -/
theorem cstr_pad_append {n : ℕ} {b : Bytes} (r : Bytes) (h0 : (0 : UInt8) ∉ b)
    (h : b.length < n) : cstr (pad n b ++ r) = b := by
  rw [pad_eq h, List.append_assoc, List.cons_append, cstr_append_zero h0]

theorem cstr_pad {n : ℕ} {b : Bytes} (h0 : (0 : UInt8) ∉ b) (h : b.length < n) :
    cstr (pad n b) = b := by
  simpa using cstr_pad_append [] h0 h

/-- What stands behind a NUL is not read. -/
theorem cstr_append_of_mem {b r : Bytes} (h : (0 : UInt8) ∈ b) : cstr (b ++ r) = cstr b := by
  induction b with
  | nil => cases h
  | cons x b ih =>
    by_cases hx : x = 0
    · subst hx; simp
    · have hb : (0 : UInt8) ∈ b := by
        rcases List.mem_cons.1 h with h | h
        · exact absurd h.symm hx
        · exact h
      rw [List.cons_append, cstr_cons_of_ne hx, cstr_cons_of_ne hx, ih hb]

/-- A string laid into a cleared buffer that is longer than its cut. -/
theorem clip_pad_take {m n : ℕ} (b : Bytes) (h : n < m) : clip n (pad m (b.take n)) = clip n b := by
  have hl : (b.take n).length ≤ n := List.length_take_le _ _
  rw [pad_eq (by omega)]
  by_cases h0 : (0 : UInt8) ∈ b.take n
  · rw [clip, cstr_append_of_mem h0, cstr_take, List.take_of_length_le (length_clip_le n b)]
  · rw [clip, cstr_append_zero h0, ← cstr_take, cstr_eq_self h0, List.take_of_length_le hl]

theorem clip_pad {m n : ℕ} {b : Bytes} (h0 : (0 : UInt8) ∉ b) (hn : b.length ≤ n) (h : n < m) :
    clip n (pad m b) = b := by
  rw [clip, cstr_pad h0 (by omega), List.take_of_length_le hn]

/-! ## Bounded scans -/

/-- A scan for the first NUL among the first `maxLen` bytes. A sequence
that ends earlier ends the scan. -/
def boundedLen : Bytes → ℕ → ℕ
  | _, 0 => 0
  | [], _ + 1 => 0
  | x :: s, n + 1 => if x = 0 then 0 else boundedLen s n + 1

/-- **A bounded scan measures the cut string.** -/
theorem take_boundedLen (s : Bytes) (n : ℕ) : s.take (boundedLen s n) = clip n s := by
  induction s generalizing n with
  | nil => cases n <;> simp [clip]
  | cons x s ih =>
    cases n with
    | zero => simp [boundedLen, clip]
    | succ n =>
      by_cases hx : x = 0
      · subst hx; simp [boundedLen, clip]
      · rw [boundedLen, if_neg hx, List.take_succ_cons, ih, clip, clip, cstr_cons_of_ne hx,
          List.take_succ_cons]

theorem boundedLen_eq (s : Bytes) (n : ℕ) : boundedLen s n = (clip n s).length := by
  induction s generalizing n with
  | nil => cases n <;> simp [clip, boundedLen]
  | cons x s ih =>
    cases n with
    | zero => simp [boundedLen, clip]
    | succ n =>
      by_cases hx : x = 0
      · subst hx; simp [boundedLen, clip]
      · rw [boundedLen, if_neg hx, ih, clip, clip, cstr_cons_of_ne hx, List.take_succ_cons,
          List.length_cons]

/-- How many bytes a bounded scan reads: those of the string, and the one
it stops at. -/
def scanReads : Bytes → ℕ → ℕ
  | _, 0 => 0
  | [], _ + 1 => 1
  | x :: s, n + 1 => if x = 0 then 1 else scanReads s n + 1

/-- A scan that may go on reads at least one byte. -/
theorem scanReads_pos {n : ℕ} (s : Bytes) (h : 0 < n) : 0 < scanReads s n := by
  obtain ⟨n, rfl⟩ : ∃ k, n = k + 1 := ⟨n - 1, by omega⟩
  cases s with
  | nil => exact Nat.one_pos
  | cons x s =>
    rw [scanReads]
    split <;> omega

/-- **What a scan has not read does not matter.** -/
theorem clip_of_scanReads {s s' : Bytes} {n : ℕ}
    (h : s.take (scanReads s n) = s'.take (scanReads s n)) : clip n s = clip n s' := by
  induction s generalizing s' n with
  | nil =>
    cases n with
    | zero => rfl
    | succ n =>
      cases s' with
      | nil => rfl
      | cons y s' => simp [scanReads] at h
  | cons x s ih =>
    cases n with
    | zero => rfl
    | succ n =>
      cases s' with
      | nil =>
        rw [scanReads] at h
        split at h <;> simp at h
      | cons y s' =>
        rw [scanReads] at h
        by_cases hx : x = 0
        · rw [if_pos hx, List.take_succ_cons, List.take_succ_cons] at h
          obtain rfl : x = y := (List.cons.inj h).1
          rw [clip, clip, hx, cstr_cons_zero, cstr_cons_zero]
        · rw [if_neg hx, List.take_succ_cons, List.take_succ_cons] at h
          obtain ⟨rfl, htail⟩ := List.cons.inj h
          have hclip := ih htail
          rw [clip, clip] at hclip
          rw [clip, clip, cstr_cons_of_ne hx, cstr_cons_of_ne hx, List.take_succ_cons,
            List.take_succ_cons, hclip]

/-- **A scan stays in the first bytes** if it is bounded by them or they
hold a NUL. -/
theorem scanReads_le_iff {s : Bytes} {n k : ℕ} (hk : k ≤ s.length) :
    scanReads s n ≤ k ↔ n ≤ k ∨ (0 : UInt8) ∈ s.take k := by
  induction s generalizing n k with
  | nil =>
    obtain rfl : k = 0 := Nat.le_zero.1 hk
    cases n <;> simp [scanReads]
  | cons x s ih =>
    cases n with
    | zero => simp [scanReads]
    | succ n =>
      cases k with
      | zero =>
        have hpos : 0 < scanReads (x :: s) (n + 1) := scanReads_pos _ (Nat.succ_pos n)
        simp only [List.take_zero, List.not_mem_nil, or_false]
        omega
      | succ k =>
        rw [scanReads, List.take_succ_cons, List.mem_cons]
        by_cases hx : x = 0
        · rw [if_pos hx]
          exact iff_of_true (by omega) (.inr (.inl hx.symm))
        · rw [if_neg hx, Nat.add_le_add_iff_right, Nat.add_le_add_iff_right,
            ih (by simpa using hk), or_iff_right (fun h => hx h.symm : ¬ (0 : UInt8) = x)]

/-! ## Block writes -/

/-- Fill `len` bytes from offset `off` on. -/
def memFill (b : Bytes) (off len : ℕ) (v : UInt8) : Bytes :=
  b.take off ++ List.replicate len v ++ b.drop (off + len)

/-- Copy `data` to offset `off`. -/
def memMove (b : Bytes) (off : ℕ) (data : Bytes) : Bytes :=
  b.take off ++ data ++ b.drop (off + data.length)

/-- A string copied to the front of a cleared range of `n` bytes. -/
theorem memMove_memFill_zero {b data : Bytes} {n : ℕ} (h : data.length ≤ n) :
    memMove (memFill b 0 n 0) 0 data = pad n data ++ b.drop n := by
  simp only [memMove, memFill, pad, List.take_zero, List.nil_append, Nat.zero_add,
    List.take_of_length_le h]
  rw [List.drop_append_of_le_length (by simpa using h), List.drop_replicate, List.append_assoc]

/-- What is read from offset `off` after a copy to it. -/
theorem drop_memMove {b data : Bytes} {off : ℕ} (h : off ≤ b.length) :
    (memMove b off data).drop off = data ++ b.drop (off + data.length) := by
  have hl : (b.take off).length = off := by simp [h]
  rw [memMove, List.append_assoc, List.drop_append_of_le_length (by omega),
    List.drop_of_length_le (by omega), List.nil_append]

/-! ## Buffers of a fixed size -/

/-- A buffer of `n` bytes. -/
structure Buf (n : ℕ) where
  /-- Its contents. -/
  bytes : Bytes
  /-- There are `n` of them. -/
  size_eq : bytes.length = n
deriving DecidableEq, Repr

namespace Buf

variable {n : ℕ}

/-- A cleared buffer with `b` laid at its front. -/
def load (n : ℕ) (b : Bytes) : Buf n := ⟨pad n b, length_pad n b⟩

/-- Store one byte; a store outside the buffer is not one of its bytes. -/
def set (b : Buf n) (i : ℕ) (v : UInt8) : Buf n :=
  ⟨b.bytes.set i v, by rw [List.length_set, b.size_eq]⟩

@[simp] theorem load_bytes (n : ℕ) (b : Bytes) : (load n b).bytes = pad n b := rfl

@[simp] theorem set_bytes (b : Buf n) (i : ℕ) (v : UInt8) :
    (b.set i v).bytes = b.bytes.set i v := rfl

@[ext] theorem ext {a b : Buf n} (h : a.bytes = b.bytes) : a = b := by
  cases a; cases b; congr

end Buf

end Common

end TeeChaincode
