import TeeChaincode.Model.Ta

/-!
# What the natives do on ranges that check out

One specification for each native, where its pointers pass WAMR's check:
an output range is left holding the cut string and zeros behind it, a
request is recorded with the addressed bytes, a response is recorded with
its terminator. Callers read these and do not unfold the natives.
-/

namespace TeeChaincode

open Common

variable {m : Memory} {s : Session}

/-- A range inside linear memory is converted. -/
theorem toNative_of_le {off size : UInt32} (h : off.toNat + size.toNat ≤ m.size)
    (hlt : off.toNat < m.size) : toNative m off size = (some off.toNat, none) := by
  have hv : validateAppAddr m off size = true := by simpa [validateAppAddr] using h
  rw [toNative, if_neg (by simp [hv]), addrAppToNative, if_pos hlt]

/-- Any other range of some length is refused. -/
theorem toNative_of_not_le {off size : UInt32} (hsize : 0 < size.toNat)
    (h : ¬ off.toNat + size.toNat ≤ m.size) : toNative m off size = (none, some outOfBounds) := by
  refine if_pos ⟨fun hz => ?_, ?_⟩
  · rw [hz] at hsize
    exact absurd hsize (by decide)
  · rw [validateAppAddr, decide_eq_false_iff_not]
    exact h

theorem toUInt32_toNat {len : Int32} (h : 0 ≤ len.toInt) :
    len.toUInt32.toNat = len.toInt.toNat := by
  have h1 : len.toInt = len.toUInt32.toNat := by
    have := Int32.toInt_toBitVec len
    rw [BitVec.toInt_eq_toNat_cond] at this
    split at this
    · rw [← this]; rfl
    · have hlt : len.toBitVec.toNat < 2 ^ 32 := len.toBitVec.isLt
      omega
  omega

/-- A length that is not negative is passed on as it is. -/
theorem clampLen_toNat {len : Int32} (h : 0 ≤ len.toInt) :
    (clampLen len).toNat = len.toInt.toNat := by
  rw [clampLen]
  split
  · exact toUInt32_toNat h
  · have : len.toInt = 0 := by omega
    rw [this]
    rfl

/-! ## Copying a string out -/

/-- **The output range holds the cut string and zeros**, and nothing else
changes. -/
theorem copyOut_spec (m : Memory) (out : ℕ) (outLen : Int32) (h : 0 < outLen.toInt) (src : Bytes) :
    m.SameOutside (copyOut m out outLen src).1 out outLen.toInt.toNat ∧
    (copyOut m out outLen src).1.read out outLen.toInt.toNat =
      pad outLen.toInt.toNat (clip (outLen.toInt.toNat - 1) src) ∧
    (copyOut m out outLen src).2 =
      Int32.ofNat (clip (outLen.toInt.toNat - 1) src).length := by
  have hle := length_clip_le (outLen.toInt.toNat - 1) src
  have hlen := boundedLen_eq src (outLen.toInt.toNat - 1)
  simp only [copyOut, safeStrlen, take_boundedLen]
  split
  · refine ⟨Memory.SameOutside.fill.trans (Memory.SameOutside.write le_rfl (by omega)),
      Memory.read_write_fill (by omega), by rw [hlen]⟩
  · have hnil : clip (outLen.toInt.toNat - 1) src = [] := List.length_eq_zero_iff.1 (by omega)
    exact ⟨Memory.SameOutside.fill, by rw [Memory.read_fill_self, hnil, pad_nil], by rw [hlen]⟩

theorem copyOut_size (m : Memory) (out : ℕ) (outLen : Int32) (src : Bytes) :
    (copyOut m out outLen src).1.size = m.size := by
  simp only [copyOut]
  split <;> rfl

variable {outPtr : UInt32} {outLen : Int32}

/-- `cc_get_function` on a range that checks out. -/
theorem ccGetFunctionNative_eq (h : 0 < outLen.toInt)
    (hin : outPtr.toNat + outLen.toInt.toNat ≤ m.size) :
    ccGetFunctionNative outPtr outLen m s =
      ⟨(copyOut m outPtr.toNat outLen s.image).2, (copyOut m outPtr.toNat outLen s.image).1, s,
        none⟩ := by
  have hv : validateAppAddr m outPtr outLen.toUInt32 = true := by
    simpa [validateAppAddr, toUInt32_toNat (le_of_lt h)] using hin
  have ha : addrAppToNative m outPtr = some outPtr.toNat := by
    rw [addrAppToNative, if_pos (by omega)]
  rw [ccGetFunctionNative, if_neg (by omega), if_neg (by simp [hv]), ha]

/-- The text `cc_get_arg` scans: from the row on, or nothing. -/
def argText (s : Session) (idx : ℤ) : Bytes :=
  if 0 ≤ idx ∧ idx < argsNumber then s.image.drop (argSize * (idx.toNat + 1)) else []

/-- `cc_get_arg` on a range that checks out. -/
theorem ccGetArgNative_eq (idx : Int32) (h : 0 < outLen.toInt)
    (hin : outPtr.toNat + outLen.toInt.toNat ≤ m.size) :
    ccGetArgNative idx outPtr outLen m s =
      ⟨(copyOut m outPtr.toNat outLen (argText s idx.toInt)).2,
        (copyOut m outPtr.toNat outLen (argText s idx.toInt)).1, s, none⟩ := by
  have ht : toNative m outPtr outLen.toUInt32 = (some outPtr.toNat, none) :=
    toNative_of_le (by rw [toUInt32_toNat (le_of_lt h)]; exact hin) (by omega)
  simp only [ccGetArgNative, ht]
  rw [if_neg (by omega)]
  rfl

/-! ## Requests and responses -/

variable {keyPtr valPtr msgPtr : UInt32} {keyLen valLen msgLen : Int32}

/-- The bytes behind a pointer and a length that check out. -/
def addressed (m : Memory) (ptr : UInt32) (len : Int32) : Bytes := m.read ptr.toNat len.toInt.toNat

theorem copied_toNative {ptr : UInt32} {len : Int32} (bound : ℤ) (hb : 0 ≤ bound)
    (h : 0 ≤ len.toInt) (hin : ptr.toNat + len.toInt.toNat ≤ m.size) :
    copied m (toNative m ptr (clampLen len)).1 (min len.toInt bound) =
        (addressed m ptr len).take bound.toNat ∧
      (toNative m ptr (clampLen len)).2 = none := by
  have hc := clampLen_toNat h
  have hmin : (min len.toInt bound).toNat = min bound.toNat len.toInt.toNat := by omega
  have hthrow : ¬ (clampLen len ≠ 0 ∧ validateAppAddr m ptr (clampLen len) = false) := by
    rintro ⟨-, hv⟩
    rw [validateAppAddr, decide_eq_false_iff_not, hc] at hv
    exact hv hin
  rw [toNative, if_neg hthrow, addressed, Memory.take_read, addrAppToNative]
  refine ⟨?_, rfl⟩
  by_cases hpos : 0 < min len.toInt bound
  · rw [if_pos (by omega), copied, if_pos hpos, hmin]
  · have hz : min bound.toNat len.toInt.toNat = 0 := by omega
    rw [hz]
    split <;> simp [copied, hpos, Memory.read]

/-- `cc_get_state` on ranges that check out records the request. -/
theorem ccGetStateNative_eq (hk : 0 ≤ keyLen.toInt)
    (hkin : keyPtr.toNat + keyLen.toInt.toNat ≤ m.size) (ho : 0 < outLen.toInt)
    (hoin : outPtr.toNat + outLen.toInt.toNat ≤ m.size) :
    ccGetStateNative keyPtr keyLen outPtr outLen m s =
      ⟨Int32.ofInt (min keyLen.toInt 63), m,
        { s with
          key := Buf.load _ ((addressed m keyPtr keyLen).take 63)
          pendingType := .getState
          wasmOutOffset := outPtr
          wasmOutLen := outLen }, none⟩ := by
  have ht : toNative m outPtr outLen.toUInt32 = (some outPtr.toNat, none) :=
    toNative_of_le (by rw [toUInt32_toNat (le_of_lt ho)]; exact hoin) (by omega)
  obtain ⟨hc, hx⟩ := copied_toNative 63 (by omega) hk hkin
  have hneg : ¬ ((some outPtr.toNat : Option ℕ) = none ∨ outLen.toInt ≤ 0) := by
    simp only [reduceCtorEq, false_or, not_le]
    exact ho
  simp only [ccGetStateNative, ht, hx]
  rw [if_neg hneg]
  simp only [show ((keySize : ℤ) - 1) = 63 from rfl, hc]
  rfl

/-- `cc_put_state` on ranges that check out records the request. -/
theorem ccPutStateNative_eq (hk : 0 ≤ keyLen.toInt)
    (hkin : keyPtr.toNat + keyLen.toInt.toNat ≤ m.size) (hv : 0 ≤ valLen.toInt)
    (hvin : valPtr.toNat + valLen.toInt.toNat ≤ m.size) :
    ccPutStateNative keyPtr keyLen valPtr valLen m s =
      ⟨-1, m,
        { s with
          key := Buf.load _ ((addressed m keyPtr keyLen).take 63)
          value := Buf.load _ ((addressed m valPtr valLen).take 255)
          pendingType := .putState
          wasmOutOffset := 0
          wasmOutLen := 0 }, none⟩ := by
  obtain ⟨hc, hx⟩ := copied_toNative 63 (by omega) hk hkin
  obtain ⟨hc', hx'⟩ := copied_toNative 255 (by omega) hv hvin
  simp only [ccPutStateNative, show ((keySize : ℤ) - 1) = 63 from rfl,
    show ((valSize : ℤ) - 1) = 255 from rfl, hc, hc', hx, hx']
  rfl

/-- Storing a terminator behind a string in a cleared buffer changes
nothing. -/
theorem Buf.set_load {n : ℕ} {b : Bytes} (h : b.length < n) :
    (Buf.load n b).set b.length 0 = Buf.load n b := by
  apply Buf.ext
  rw [Buf.set_bytes, Buf.load_bytes, pad_eq h, List.set_append_right _ _ le_rfl, Nat.sub_self,
    List.set_cons_zero]

/-- A store at an index of `response` itself. -/
theorem Session.storeResponse_of_nonneg (n : ℕ) :
    s.storeResponse n = { s with response := s.response.set n 0 } := by
  have hoff : (Session.responseOff : ℤ) + n = ((972 + n : ℕ) : ℤ) := by
    rw [show Session.responseOff = 972 from rfl]
    omega
  rw [Session.storeResponse, hoff, if_neg (by omega), Int.toNat_natCast, Session.storeZero]
  simp only [show Session.pendingTypeOff = 640 from rfl, show Session.keyOff = 644 from rfl,
    show Session.valueOff = 708 from rfl, show Session.wasmOutOffsetOff = 964 from rfl,
    show Session.wasmOutLenOff = 968 from rfl, show Session.responseOff = 972 from rfl]
  rw [if_neg (by omega), if_neg (by omega), if_neg (by omega), if_neg (by omega),
    if_neg (by omega), if_neg (by omega), Nat.add_sub_cancel_left]

/-- `cc_return_response` on a range that checks out records the
message. -/
theorem ccReturnResponseNative_eq (h : 0 ≤ msgLen.toInt)
    (hin : msgPtr.toNat + msgLen.toInt.toNat ≤ m.size) :
    ccReturnResponseNative msgPtr msgLen m s =
      ⟨Int32.ofInt (min msgLen.toInt 255), m,
        { s with
          response := Buf.load _ ((addressed m msgPtr msgLen).take 255)
          hasResponse := true }, none⟩ := by
  obtain ⟨hc, hx⟩ := copied_toNative 255 (by omega) h hin
  have hn : min msgLen.toInt 255 = (((addressed m msgPtr msgLen).take 255).length : ℤ) := by
    simp only [addressed, List.length_take, Memory.length_read]
    omega
  have hlt : ((addressed m msgPtr msgLen).take 255).length < responseSize := by
    rw [List.length_take, show responseSize = 256 from rfl]
    omega
  simp only [ccReturnResponseNative, show ((responseSize : ℤ) - 1) = 255 from rfl, hx]
  rw [show (255 : ℤ).toNat = 255 from rfl] at hc
  rw [hc, hn, Session.storeResponse_of_nonneg]
  simp only [Buf.set_load hlt]

end TeeChaincode
