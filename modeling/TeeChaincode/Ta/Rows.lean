import TeeChaincode.Ta.Leftover

/-!
# What the natives read of the arguments

`cc_get_function` scans the argument table from its first row on and
`cc_get_arg` from row `idx + 1` on. The scan is bounded by the length of
the output range, not by the row, and the index is checked against the
number of rows before it is shifted by one. So a row without a terminator
is read together with what follows it, and the tenth argument is read from
the fields behind the table. This module gives the bytes each of the two
reads, and says exactly when they are bytes of its row.
-/

namespace TeeChaincode

open Common

variable {m : Memory} {s s' : Session} {outPtr : UInt32} {outLen : Int32}

/-! ## The bytes read -/

/-- The offsets into the context that `cc_get_function` reads. -/
def FunctionReads (s : Session) (outLen : Int32) (off : ℕ) : Prop :=
  off < scanReads s.image (outLen.toInt.toNat - 1)

/-- The offsets into the context that `cc_get_arg` reads. Where the index
is refused it reads an empty literal instead. -/
def ArgReads (s : Session) (idx outLen : Int32) (off : ℕ) : Prop :=
  (0 ≤ idx.toInt ∧ idx.toInt < argsNumber) ∧ argSize * (idx.toInt.toNat + 1) ≤ off ∧
    off < argSize * (idx.toInt.toNat + 1) +
      scanReads (s.image.drop (argSize * (idx.toInt.toNat + 1))) (outLen.toInt.toNat - 1)

/-- What a call shows the module: the value returned, linear memory behind
it, and whether it raised an exception. -/
def NativeResult.shown (r : NativeResult) : Int32 × Memory × Option Bytes := (r.ret, r.mem, r.ex)

/-- Two byte strings that agree on a range read the same there. -/
theorem take_eq_of_getElem? {b b' : Bytes} {n : ℕ} (h : ∀ i, i < n → b'[i]? = b[i]?) :
    b.take n = b'.take n := by
  refine List.ext_getElem? fun i => ?_
  rw [List.getElem?_take, List.getElem?_take]
  split
  · next hi => rw [h i hi]
  · rfl

/-- **`cc_get_function` is determined by the bytes it reads.** -/
theorem ccGetFunction_determined (hlen : 0 < outLen.toInt)
    (hin : outPtr.toNat + outLen.toInt.toNat ≤ m.size)
    (h : ∀ off, FunctionReads s outLen off → s'.image[off]? = s.image[off]?) :
    (ccGetFunctionNative outPtr outLen m s').shown =
      (ccGetFunctionNative outPtr outLen m s).shown := by
  have hclip : clip (outLen.toInt.toNat - 1) s.image = clip (outLen.toInt.toNat - 1) s'.image :=
    clip_of_scanReads (take_eq_of_getElem? h)
  rw [ccGetFunctionNative_eq hlen hin, ccGetFunctionNative_eq hlen hin,
    copyOut_congr outPtr.toNat outLen hclip]
  rfl

/-- **`cc_get_arg` is determined by the bytes it reads.** -/
theorem ccGetArg_determined {idx : Int32} (hlen : 0 < outLen.toInt)
    (hin : outPtr.toNat + outLen.toInt.toNat ≤ m.size)
    (h : ∀ off, ArgReads s idx outLen off → s'.image[off]? = s.image[off]?) :
    (ccGetArgNative idx outPtr outLen m s').shown =
      (ccGetArgNative idx outPtr outLen m s).shown := by
  have hclip : clip (outLen.toInt.toNat - 1) (argText s idx.toInt) =
      clip (outLen.toInt.toNat - 1) (argText s' idx.toInt) := by
    unfold argText
    split
    · next hidx =>
      refine clip_of_scanReads (take_eq_of_getElem? fun i hi => ?_)
      rw [List.getElem?_drop, List.getElem?_drop]
      exact h _ ⟨hidx, Nat.le_add_right _ _, Nat.add_lt_add_left hi _⟩
    · rfl
  rw [ccGetArgNative_eq idx hlen hin, ccGetArgNative_eq idx hlen hin,
    copyOut_congr outPtr.toNat outLen hclip]
  rfl

/-! ## Rows -/

/-- The bytes of a row are those of the context at its offset. -/
theorem take_image_row (s : Session) {i : ℕ} (hi : i < argsNumber) :
    (s.image.drop (argSize * i)).take argSize = cell s.args.bytes i := by
  obtain ⟨rest, hrest⟩ := s.image_eq
  have hlen : s.args.bytes.length = 640 := s.args.size_eq
  have hten : i < 10 := hi
  rw [show argSize = 64 from rfl, hrest, List.drop_append_of_le_length (by omega),
    List.take_append_of_le_length (by rw [List.length_drop]; omega), cell]

theorem length_image_row (s : Session) {i : ℕ} (hi : i < argsNumber) :
    argSize ≤ (s.image.drop (argSize * i)).length := by
  obtain ⟨rest, hrest⟩ := s.image_eq
  have hlen : s.args.bytes.length = 640 := s.args.size_eq
  have hten : i < 10 := hi
  rw [List.length_drop, hrest, List.length_append, show argSize = 64 from rfl]
  omega

/-- Contexts with the same row have the same bytes there. -/
theorem getElem?_image_of_cell {i : ℕ} (hi : i < argsNumber)
    (h : cell s'.args.bytes i = cell s.args.bytes i) {off : ℕ} (hlo : argSize * i ≤ off)
    (hhi : off < argSize * (i + 1)) : s'.image[off]? = s.image[off]? := by
  obtain ⟨k, rfl⟩ : ∃ k, off = argSize * i + k := ⟨off - argSize * i, by omega⟩
  have hk : k < argSize := by
    rw [Nat.mul_succ] at hhi
    omega
  have hread : ∀ u : Session, u.image[argSize * i + k]? = (cell u.args.bytes i)[k]? := by
    intro u
    rw [← take_image_row u hi, List.getElem?_take_of_lt hk, List.getElem?_drop]
  rw [hread, hread, h]

/-- **A scan from a row stays in it** if the output range is no longer
than the row and a terminator, or the row holds one. -/
theorem scan_row_iff (s : Session) {i : ℕ} (hi : i < argsNumber) (hlen : 0 < outLen.toInt) :
    scanReads (s.image.drop (argSize * i)) (outLen.toInt.toNat - 1) ≤ argSize ↔
      outLen.toInt ≤ argSize + 1 ∨ (0 : UInt8) ∈ cell s.args.bytes i := by
  rw [scanReads_le_iff (length_image_row s hi), take_image_row s hi]
  refine or_congr_left ?_
  rw [show ((argSize : ℕ) : ℤ) = 64 from rfl, show argSize = 64 from rfl]
  omega

/-! ## Reads that stay in their row -/

/-- **`cc_get_function` stays in the first row**: it reads no other byte,
and shows the same in every session with that row. -/
structure FunctionConfined (m : Memory) (outPtr : UInt32) (outLen : Int32) (s : Session) :
    Prop where
  reads : ∀ off, FunctionReads s outLen off → off < argSize
  independent : ∀ s' : Session, cell s'.args.bytes 0 = cell s.args.bytes 0 →
    (ccGetFunctionNative outPtr outLen m s').shown = (ccGetFunctionNative outPtr outLen m s).shown

/-- There is a row for an argument. -/
def HasRow (idx : Int32) : Prop := 0 ≤ idx.toInt ∧ idx.toInt + 1 < argsNumber

/-- **`cc_get_arg` stays in its row**: it reads no byte of another, shows
the same in every session with that row, and brings an empty string where
there is no such row. -/
structure ArgConfined (m : Memory) (idx : Int32) (outPtr : UInt32) (outLen : Int32)
    (s : Session) : Prop where
  reads : ∀ off, ArgReads s idx outLen off → HasRow idx ∧
    argSize * (idx.toInt.toNat + 1) ≤ off ∧ off < argSize * (idx.toInt.toNat + 2)
  independent : ∀ s' : Session, (HasRow idx →
      cell s'.args.bytes (idx.toInt.toNat + 1) = cell s.args.bytes (idx.toInt.toNat + 1)) →
    (ccGetArgNative idx outPtr outLen m s').shown = (ccGetArgNative idx outPtr outLen m s).shown
  absent : ¬ HasRow idx → (ccGetArgNative idx outPtr outLen m s).ret = 0 ∧
    (ccGetArgNative idx outPtr outLen m s).mem.read outPtr.toNat outLen.toInt.toNat =
      List.replicate outLen.toInt.toNat 0

theorem functionConfined_iff (hlen : 0 < outLen.toInt)
    (hin : outPtr.toNat + outLen.toInt.toNat ≤ m.size) :
    FunctionConfined m outPtr outLen s ↔
      outLen.toInt ≤ argSize + 1 ∨ (0 : UInt8) ∈ cell s.args.bytes 0 := by
  have hscan := scan_row_iff s (i := 0) (by decide) hlen
  rw [Nat.mul_zero, List.drop_zero] at hscan
  rw [← hscan]
  constructor
  · intro h
    by_contra hlt
    exact absurd (h.reads argSize (not_le.1 hlt)) (lt_irrefl _)
  · intro h
    have hreads : ∀ off, FunctionReads s outLen off → off < argSize := by
      intro off hoff
      exact lt_of_lt_of_le hoff h
    refine ⟨hreads, fun s' hs' => ccGetFunction_determined hlen hin fun off hoff => ?_⟩
    exact getElem?_image_of_cell (by decide) hs' (Nat.zero_le _) (by simpa using hreads off hoff)

/-- Where nothing of the context is read the call brings an empty
string. -/
theorem ccGetArg_empty {idx : Int32} (hlen : 0 < outLen.toInt)
    (hin : outPtr.toNat + outLen.toInt.toNat ≤ m.size)
    (h : clip (outLen.toInt.toNat - 1) (argText s idx.toInt) = []) :
    (ccGetArgNative idx outPtr outLen m s).ret = 0 ∧
      (ccGetArgNative idx outPtr outLen m s).mem.read outPtr.toNat outLen.toInt.toNat =
        List.replicate outLen.toInt.toNat 0 := by
  obtain ⟨-, hread, hret⟩ := copyOut_spec m outPtr.toNat outLen hlen (argText s idx.toInt)
  rw [h] at hread hret
  rw [ccGetArgNative_eq idx hlen hin]
  exact ⟨hret, by rw [hread, pad_nil]⟩

theorem argConfined_iff {idx : Int32} (hlen : 0 < outLen.toInt)
    (hin : outPtr.toNat + outLen.toInt.toNat ≤ m.size) :
    ArgConfined m idx outPtr outLen s ↔
      idx.toInt < 0 ∨ argsNumber ≤ idx.toInt ∨ outLen.toInt = 1 ∨
        HasRow idx ∧ (outLen.toInt ≤ argSize + 1 ∨
          (0 : UInt8) ∈ cell s.args.bytes (idx.toInt.toNat + 1)) := by
  have hten : ((argsNumber : ℕ) : ℤ) = 10 := rfl
  constructor
  · intro h
    by_contra hno
    simp only [not_or, not_lt, not_le] at hno
    obtain ⟨h0, h10, h1, hrow⟩ := hno
    -- the scan reads at least its first byte, so there is a row
    have hpos := scanReads_pos (s.image.drop (argSize * (idx.toInt.toNat + 1)))
      (n := outLen.toInt.toNat - 1) (by omega)
    obtain ⟨hhas, -⟩ := h.reads (argSize * (idx.toInt.toNat + 1)) ⟨⟨h0, h10⟩, le_rfl, by omega⟩
    have hi : idx.toInt.toNat + 1 < argsNumber := by
      have := hhas.2
      omega
    refine hrow ⟨hhas, (scan_row_iff s hi hlen).1 ?_⟩
    by_contra hlt
    have hout := (h.reads (argSize * (idx.toInt.toNat + 1) + argSize)
      ⟨⟨h0, h10⟩, Nat.le_add_right _ _, Nat.add_lt_add_left (not_le.1 hlt) _⟩).2.2
    exact absurd hout (by rw [← Nat.mul_succ]; exact lt_irrefl _)
  · -- where the text is empty whatever the session, nothing is left to show
    have hempty : (∀ u : Session, clip (outLen.toInt.toNat - 1) (argText u idx.toInt) = []) →
        (∀ off, ¬ ArgReads s idx outLen off) → ArgConfined m idx outPtr outLen s := by
      intro htext hno
      refine ⟨fun off hoff => absurd hoff (hno off), fun s' _ => ?_,
        fun _ => ccGetArg_empty hlen hin (htext s)⟩
      exact ccGetArg_determined hlen hin fun off hoff => absurd hoff (hno off)
    have hrefused : ¬ (0 ≤ idx.toInt ∧ idx.toInt < argsNumber) →
        ArgConfined m idx outPtr outLen s := by
      intro hidx
      refine hempty (fun u => ?_) fun off hoff => hidx hoff.1
      rw [argText, if_neg hidx]
      simp [clip]
    rintro (hneg | hbig | hone | ⟨hhas, hrow⟩)
    · exact hrefused (by omega)
    · exact hrefused (by omega)
    · refine hempty (fun u => ?_) fun off hoff => ?_
      · rw [hone]
        rfl
      · have hlt := hoff.2.2
        rw [hone] at hlt
        exact absurd hlt (by simpa [scanReads] using hoff.2.1)
    · have hi : idx.toInt.toNat + 1 < argsNumber := by
        have := hhas.2
        omega
      have hscan := (scan_row_iff s hi hlen).2 hrow
      have hreads : ∀ off, ArgReads s idx outLen off →
          argSize * (idx.toInt.toNat + 1) ≤ off ∧ off < argSize * (idx.toInt.toNat + 2) := by
        rintro off ⟨-, hlo, hhi⟩
        refine ⟨hlo, lt_of_lt_of_le hhi ?_⟩
        rw [Nat.mul_succ argSize (idx.toInt.toNat + 1)]
        exact Nat.add_le_add_left hscan _
      refine ⟨fun off hoff => ⟨hhas, hreads off hoff⟩, fun s' hs' => ?_,
        fun hno => absurd hhas hno⟩
      refine ccGetArg_determined hlen hin fun off hoff => ?_
      obtain ⟨hlo, hhi⟩ := hreads off hoff
      exact getElem?_image_of_cell hi (hs' hhas) hlo hhi

/-- **The reads stay in their row** exactly where the scan cannot leave
it. For every session, index and output range that checks out:
`cc_get_function` is confined to the first row if and only if the range is
at most 65 bytes long or the row holds a NUL; and `cc_get_arg` is confined
to row `idx + 1`, and empty where there is none, if and only if the index
is refused, or the range has room for the terminator only, or the index is
below nine and the range is at most 65 bytes long or the row holds a
NUL. -/
theorem rows_confined_iff (m : Memory) (s : Session) (idx : Int32) (outPtr : UInt32)
    (outLen : Int32) (hlen : 0 < outLen.toInt)
    (hin : outPtr.toNat + outLen.toInt.toNat ≤ m.size) :
    (FunctionConfined m outPtr outLen s ↔
      outLen.toInt ≤ 65 ∨ (0 : UInt8) ∈ cell s.args.bytes 0) ∧
    (ArgConfined m idx outPtr outLen s ↔
      idx.toInt < 0 ∨ 10 ≤ idx.toInt ∨ outLen.toInt = 1 ∨
        idx.toInt < 9 ∧ (outLen.toInt ≤ 65 ∨
          (0 : UInt8) ∈ cell s.args.bytes (idx.toInt.toNat + 1))) := by
  refine ⟨functionConfined_iff hlen hin, (argConfined_iff hlen hin).trans ?_⟩
  have hhas : HasRow idx ↔ 0 ≤ idx.toInt ∧ idx.toInt < 9 := by
    rw [HasRow, show ((argsNumber : ℕ) : ℤ) = 10 from rfl]
    omega
  rw [hhas, show ((argsNumber : ℕ) : ℤ) = 10 from rfl,
    show ((argSize : ℕ) : ℤ) + 1 = 65 from rfl]
  by_cases hneg : idx.toInt < 0
  · simp [hneg]
  · simp [hneg, not_lt.1 hneg]

/-- A session with rows in its table. -/
def withRows (rows : List Bytes) : Session :=
  { Session.zero with args := Buf.load _ (rows.flatMap (pad argSize)) }

/-- The rows of a transfer. -/
def transfer : Session :=
  withRows [ascii "transfer", ascii "alice", ascii "bob", ascii "coffee", ascii "7"]

/-- They are read into eight bytes, which cut the name. -/
theorem rows_confined_iff_eight :
    (ccGetFunctionNative 8 8 ⟨wasmPage, fun _ => 0⟩ transfer).ret = 7 ∧
      FunctionConfined ⟨wasmPage, fun _ => 0⟩ 8 8 transfer ∧
      (ccGetArgNative 3 8 8 ⟨wasmPage, fun _ => 0⟩ transfer).ret = 1 ∧
      ArgConfined ⟨wasmPage, fun _ => 0⟩ 3 8 8 transfer := by
  have h := rows_confined_iff ⟨wasmPage, fun _ => 0⟩ transfer 3 8 8 (by decide) (by decide)
  exact ⟨by decide +kernel, h.1.2 (.inl (by decide)), by decide +kernel,
    h.2.2 (.inr (.inr (.inr ⟨by decide, .inl (by decide)⟩)))⟩

/-- A table that one name fills. -/
def filledRows : Session := withRows (List.replicate argsNumber (List.replicate argSize 97))

/-- The tenth argument shows that a PUT is pending, and rows without a
terminator are read on into the next. -/
theorem rows_not_confined :
    ((ccGetArgNative 9 8 8 ⟨wasmPage, fun _ => 0⟩
        { transfer with pendingType := .putState }).ret = 1 ∧
      ¬ ArgConfined ⟨wasmPage, fun _ => 0⟩ 9 8 8 { transfer with pendingType := .putState }) ∧
    (ccGetFunctionNative 0 100 ⟨wasmPage, fun _ => 0⟩ filledRows).ret = 99 ∧
      ¬ FunctionConfined ⟨wasmPage, fun _ => 0⟩ 0 100 filledRows := by
  refine ⟨⟨by decide +kernel, fun h => ?_⟩, by decide +kernel, fun h => ?_⟩
  · have hno : ¬ HasRow 9 := fun hr => absurd hr.2 (by decide)
    exact absurd (h.absent hno).1 (by decide +kernel)
  · exact absurd (h.reads 64 (by unfold FunctionReads; decide +kernel)) (by decide)

end TeeChaincode
