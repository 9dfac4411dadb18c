import TeeChaincode.Ta.Failures

/-!
# Lengths and pointers that do not check out

A module chooses every pointer and every length it passes, and lengths are
signed. `cc_get_state` gives up where its output range is bad, but a bad
key range only makes it record an empty key, and `cc_put_state` does the
same for its key and its value. `cc_return_response` clamps its length
from above only, and stores its terminator where the length points: with a
negative one, in front of the response. This module says exactly which
arguments are handled as they should be.
-/

namespace TeeChaincode

open Common

variable {m : Memory} {s : Session}

/-! ## Ranges -/

/-- Every byte a pointer and a length address is in linear memory, and the
length is not negative. -/
structure Inside (m : Memory) (ptr : UInt32) (len : Int32) : Prop where
  nonneg : 0 ≤ len.toInt
  byte : ∀ i, i < len.toInt.toNat → ptr.toNat + i < m.size

/-- An output range: inside, and of at least one byte. -/
def OutputFits (m : Memory) (ptr : UInt32) (len : Int32) : Prop :=
  0 < len.toInt ∧ Inside m ptr len

variable {ptr : UInt32} {len : Int32}

/-- A range of some length is inside where WAMR's check passes. -/
theorem inside_iff (hpos : 0 < len.toInt) :
    Inside m ptr len ↔ ptr.toNat + len.toInt.toNat ≤ m.size := by
  constructor
  · intro h
    have hlast := h.byte (len.toInt.toNat - 1) (by omega)
    omega
  · intro h
    exact ⟨by omega, fun i hi => by omega⟩

/-- What is copied from a range that is inside. -/
theorem copied_of_inside (h : Inside m ptr len) {bound : ℤ} (hb : 0 ≤ bound) :
    copied m (toNative m ptr (clampLen len)).1 (min len.toInt bound) =
      (addressed m ptr len).take bound.toNat := by
  refine copied_of_unraised bound hb ?_
  by_cases hpos : 0 < len.toInt
  · have hin := (inside_iff hpos).1 h
    exact (copied_toNative bound hb h.nonneg hin).2
  · have hclamp : clampLen len = 0 := if_neg hpos
    rw [toNative, if_neg (by rw [hclamp]; simp)]

/-- From any other range nothing is. -/
theorem copied_of_not_inside (h : ¬ Inside m ptr len) (bound : ℤ) :
    copied m (toNative m ptr (clampLen len)).1 (min len.toInt bound) = [] := by
  by_cases hneg : len.toInt < 0
  · unfold copied
    split
    · rw [if_neg (by omega)]
    · rfl
  · have hpos : 0 < len.toInt := by
      rcases lt_or_eq_of_le (not_lt.1 hneg) with hlt | hz
      · exact hlt
      · exact absurd ⟨by omega, fun i hi => by omega⟩ h
    have hout : ¬ ptr.toNat + len.toInt.toNat ≤ m.size := fun hin => h ((inside_iff hpos).2 hin)
    have hsize := clampLen_toNat (le_of_lt hpos)
    rw [toNative_of_not_le (by omega) (by rw [hsize]; exact hout)]
    rfl

/-- The output check of `cc_get_state`. -/
theorem toNative_eq_none_iff :
    (toNative m ptr len.toUInt32).1 = none ∨ len.toInt ≤ 0 ↔ ¬ OutputFits m ptr len := by
  by_cases hpos : 0 < len.toInt
  · have hsize := toUInt32_toNat (le_of_lt hpos)
    rw [OutputFits, inside_iff hpos, or_iff_left (by omega), and_iff_right hpos]
    by_cases hin : ptr.toNat + len.toInt.toNat ≤ m.size
    · rw [toNative_of_le (by omega) (by omega)]
      exact iff_of_false (by simp) (not_not.2 hin)
    · rw [toNative_of_not_le (by omega) (by omega)]
      exact iff_of_true rfl hin
  · exact iff_of_true (.inr (by omega)) fun h => hpos h.1

/-! ## State requests -/

variable {keyPtr outPtr valPtr : UInt32} {keyLen outLen valLen : Int32}

/-- The context with a GET request on record. -/
def Session.recordGet (s : Session) (key : Bytes) (outPtr : UInt32) (outLen : Int32) : Session :=
  { s with
    key := Buf.load _ key
    pendingType := .getState
    wasmOutOffset := outPtr
    wasmOutLen := outLen }

/-- The context with a PUT request on record. -/
def Session.recordPut (s : Session) (key value : Bytes) : Session :=
  { s with
    key := Buf.load _ key
    value := Buf.load _ value
    pendingType := .putState
    wasmOutOffset := 0
    wasmOutLen := 0 }

/-- `cc_get_state`, whatever it is given. -/
theorem ccGetStateNative_sess (keyPtr outPtr : UInt32) (keyLen outLen : Int32) (m : Memory)
    (s : Session) :
    (OutputFits m outPtr outLen → Inside m keyPtr keyLen →
      (ccGetStateNative keyPtr keyLen outPtr outLen m s).sess =
        s.recordGet ((addressed m keyPtr keyLen).take 63) outPtr outLen) ∧
    (OutputFits m outPtr outLen → ¬ Inside m keyPtr keyLen →
      (ccGetStateNative keyPtr keyLen outPtr outLen m s).sess = s.recordGet [] outPtr outLen) ∧
    (¬ OutputFits m outPtr outLen →
      (ccGetStateNative keyPtr keyLen outPtr outLen m s).sess = s) := by
  have hnone : (toNative m outPtr outLen.toUInt32).1 = none ∨ outLen.toInt ≤ 0 ↔
      ¬ OutputFits m outPtr outLen := toNative_eq_none_iff
  simp only [ccGetStateNative, show ((keySize : ℤ) - 1) = 63 from rfl]
  refine ⟨fun hout hkey => ?_, fun hout hkey => ?_, fun hout => ?_⟩
  · rw [if_neg (fun h => hnone.1 h hout), copied_of_inside hkey (by omega)]
    rfl
  · rw [if_neg (fun h => hnone.1 h hout), copied_of_not_inside hkey]
    rfl
  · rw [if_pos (hnone.2 hout)]

/-- **A GET request is handled as it should be**: recorded with the bytes
addressed where all its ranges check out, and rejected without effect
where one does not. -/
structure GetHandled (m : Memory) (keyPtr : UInt32) (keyLen : Int32) (outPtr : UInt32)
    (outLen : Int32) (s : Session) : Prop where
  recorded : Inside m keyPtr keyLen → OutputFits m outPtr outLen →
    (ccGetStateNative keyPtr keyLen outPtr outLen m s).sess =
      s.recordGet ((addressed m keyPtr keyLen).take 63) outPtr outLen
  rejected : ¬ (Inside m keyPtr keyLen ∧ OutputFits m outPtr outLen) →
    (ccGetStateNative keyPtr keyLen outPtr outLen m s).sess = s

/-- **A PUT request is handled as it should be.** -/
structure PutHandled (m : Memory) (keyPtr : UInt32) (keyLen : Int32) (valPtr : UInt32)
    (valLen : Int32) (s : Session) : Prop where
  recorded : Inside m keyPtr keyLen → Inside m valPtr valLen →
    (ccPutStateNative keyPtr keyLen valPtr valLen m s).sess =
      s.recordPut ((addressed m keyPtr keyLen).take 63) ((addressed m valPtr valLen).take 255)
  rejected : ¬ (Inside m keyPtr keyLen ∧ Inside m valPtr valLen) →
    (ccPutStateNative keyPtr keyLen valPtr valLen m s).sess = s

theorem getHandled_iff (m : Memory) :
    (∀ s, GetHandled m keyPtr keyLen outPtr outLen s) ↔
      (OutputFits m outPtr outLen → Inside m keyPtr keyLen) := by
  constructor
  · intro h hout
    by_contra hkey
    -- the call leaves a request where there was none
    have hrej := (h Session.zero).rejected fun hb => hkey hb.1
    rw [(ccGetStateNative_sess _ _ _ _ m Session.zero).2.1 hout hkey] at hrej
    exact absurd (congrArg Session.pendingType hrej) (by simp [Session.recordGet, Session.zero])
  · intro h s
    obtain ⟨hrec, -, hrej⟩ := ccGetStateNative_sess keyPtr outPtr keyLen outLen m s
    exact ⟨fun hkey hout => hrec hout hkey, fun hbad => hrej fun hout => hbad ⟨h hout, hout⟩⟩

theorem putHandled_iff (m : Memory) :
    (∀ s, PutHandled m keyPtr keyLen valPtr valLen s) ↔
      Inside m keyPtr keyLen ∧ Inside m valPtr valLen := by
  constructor
  · intro h
    by_contra hbad
    have hrej := (h Session.zero).rejected hbad
    exact absurd (congrArg Session.pendingType hrej) (by simp [ccPutStateNative, Session.zero])
  · rintro ⟨hkey, hval⟩ s
    refine ⟨fun _ _ => ?_, fun hbad => absurd ⟨hkey, hval⟩ hbad⟩
    simp only [ccPutStateNative, show ((keySize : ℤ) - 1) = 63 from rfl,
      show ((valSize : ℤ) - 1) = 255 from rfl]
    rw [copied_of_inside hkey (by omega), copied_of_inside hval (by omega)]
    rfl

/-- **Bad state requests are rejected without effect** exactly where they
are rejected for another reason or are not bad. For every linear memory and
all arguments: `cc_get_state` handles every session as it should if and
only if its key range is inside linear memory, with a length that is not
negative, or its output range is refused; and `cc_put_state` if and only
if both its ranges are inside. -/
theorem bad_requests_rejected_iff (m : Memory) (keyPtr : UInt32) (keyLen : Int32) :
    (∀ (outPtr : UInt32) (outLen : Int32),
      (∀ s, GetHandled m keyPtr keyLen outPtr outLen s) ↔
        (OutputFits m outPtr outLen → Inside m keyPtr keyLen)) ∧
    ∀ (valPtr : UInt32) (valLen : Int32),
      (∀ s, PutHandled m keyPtr keyLen valPtr valLen s) ↔
        Inside m keyPtr keyLen ∧ Inside m valPtr valLen :=
  ⟨fun _ _ => getHandled_iff m, fun _ _ => putHandled_iff m⟩

/-- A module whose key lies outside its page of memory. -/
def badKey : WasmModule ℕ := scripted [] fun _ => ⟨[.ccGetState 70000 4 8 8], none⟩

/-- Its request goes out, with an empty key. -/
theorem bad_key_is_recorded :
    ¬ Inside ⟨wasmPage, fun _ => 0⟩ 70000 4 ∧
      ¬ GetHandled ⟨wasmPage, fun _ => 0⟩ 70000 4 8 8 Session.zero ∧
      dispatchReply (firstReply badKey).tee = .writeRequest .get (.getStateRequest []) := by
  have hout : ¬ Inside ⟨wasmPage, fun _ => 0⟩ 70000 4 :=
    fun h => absurd (h.byte 0 (by decide)) (by decide)
  refine ⟨hout, fun h => ?_, by decide +kernel⟩
  have hrej := h.rejected fun hb => hout hb.1
  exact absurd (congrArg Session.pendingType hrej) (by decide)

/-! ## Responses -/

/-- A write of `cc_return_response` to memory at `response`. -/
inductive ResponseWrite
  /-- `TEE_MemFill(response, 0, len)`. -/
  | fill (len : ℕ)
  /-- `TEE_MemMove(response, msg, n)`. -/
  | move (data : Bytes)
  /-- `response[n] = '\0'`. -/
  | store (n : ℤ)

/-- The index written, counted from the start of `response`. -/
def ResponseWrite.Writes : ResponseWrite → ℤ → Prop
  | .fill len, i => 0 ≤ i ∧ i < len
  | .move data, i => 0 ≤ i ∧ i < data.length
  | .store n, i => i = n

/-- What a write makes of the context. -/
def ResponseWrite.apply (s : Session) : ResponseWrite → Session
  | .fill len => { s with response := Buf.load _ (memFill s.response.bytes 0 len 0) }
  | .move data => { s with response := Buf.load _ (memMove s.response.bytes 0 data) }
  | .store n => s.storeResponse n

/-- The writes of `cc_return_response`, in order. -/
def responseWrites (m : Memory) (msgPtr : UInt32) (msgLen : Int32) : List ResponseWrite :=
  let msg := (toNative m msgPtr (clampLen msgLen)).1
  let n : ℤ := min msgLen.toInt (responseSize - 1)
  [.fill responseSize, .move (copied m msg n), .store n]

variable {msgPtr : UInt32} {msgLen : Int32}

/-- At most the clamped length is copied. -/
theorem length_copied_le (m : Memory) (p : Option ℕ) (n : ℤ) :
    ((copied m p n).length : ℤ) ≤ max 0 n := by
  unfold copied
  repeat' split
  · rw [Memory.length_read]
    omega
  · exact le_max_left _ _
  · exact le_max_left _ _

/-- **They are what it does to the context**, besides the flag. -/
theorem ccReturnResponseNative_writes (m : Memory) (s : Session) :
    (ccReturnResponseNative msgPtr msgLen m s).sess =
      { (responseWrites m msgPtr msgLen).foldl ResponseWrite.apply s with
        hasResponse := true } := by
  have hlen := length_copied_le m (toNative m msgPtr (clampLen msgLen)).1
    (min msgLen.toInt (responseSize - 1))
  have hle : (copied m (toNative m msgPtr (clampLen msgLen)).1
      (min msgLen.toInt (responseSize - 1))).length ≤ responseSize := by
    rw [show responseSize = 256 from rfl] at *
    omega
  -- a copy to the front of the cleared response
  have hmove : ∀ b : Bytes, b.length ≤ responseSize →
      Buf.load responseSize (memMove (Buf.load responseSize
        (memFill s.response.bytes 0 responseSize 0)).bytes 0 b) = Buf.load _ b := by
    intro b hb
    have hdrop : s.response.bytes.drop responseSize = [] :=
      List.drop_of_length_le s.response.size_eq.le
    have hfill : pad responseSize (memFill s.response.bytes 0 responseSize 0) =
        memFill s.response.bytes 0 responseSize 0 := by
      refine pad_of_length ?_
      simp [memFill, s.response.size_eq]
    apply Buf.ext
    rw [Buf.load_bytes, Buf.load_bytes, Buf.load_bytes, hfill, memMove_memFill_zero hb, hdrop,
      List.append_nil, pad_of_length (length_pad _ _)]
  simp only [responseWrites, List.foldl_cons, List.foldl_nil, ResponseWrite.apply, hmove _ hle]
  rfl

/-- With a length that is not negative they are all inside `response`. -/
theorem responseWrites_inside (m : Memory) (msgPtr : UInt32) (h : 0 ≤ msgLen.toInt)
    {w : ResponseWrite} (hw : w ∈ responseWrites m msgPtr msgLen) {i : ℤ} (hi : w.Writes i) :
    0 ≤ i ∧ i < responseSize := by
  have hlen := length_copied_le m (toNative m msgPtr (clampLen msgLen)).1
    (min msgLen.toInt (responseSize - 1))
  have hn : min msgLen.toInt ((responseSize : ℤ) - 1) < responseSize := by
    rw [show ((responseSize : ℕ) : ℤ) = 256 from rfl]
    omega
  simp only [responseWrites, List.mem_cons, List.not_mem_nil, or_false] at hw
  rcases hw with rfl | rfl | rfl
  · exact hi
  · have hlt : i < _ := hi.2
    exact ⟨hi.1, by omega⟩
  · rw [show i = _ from hi]
    exact ⟨le_min h (by decide), hn⟩

/-- **A response that stays in its place**: every index written is one of
`response`, the response is terminated, and no other field than `response`
and `has_response` is changed. -/
structure Confined (m : Memory) (msgPtr : UInt32) (msgLen : Int32) (s : Session) : Prop where
  writes : ∀ w ∈ responseWrites m msgPtr msgLen, ∀ i, w.Writes i → 0 ≤ i ∧ i < responseSize
  terminated : (0 : UInt8) ∈ (ccReturnResponseNative msgPtr msgLen m s).sess.response.bytes
  frame : (ccReturnResponseNative msgPtr msgLen m s).sess =
    { s with
      response := (ccReturnResponseNative msgPtr msgLen m s).sess.response
      hasResponse := (ccReturnResponseNative msgPtr msgLen m s).sess.hasResponse }

/-- **`cc_return_response` is confined to its own fields** if and only if
its length is not negative, in every session and for every memory and
pointer. -/
theorem response_confined_iff (m : Memory) (msgPtr : UInt32) (msgLen : Int32) (s : Session) :
    Confined m msgPtr msgLen s ↔ 0 ≤ msgLen.toInt := by
  constructor
  · intro h
    have hstore := h.writes (.store (min msgLen.toInt (responseSize - 1)))
      (by simp [responseWrites]) _ rfl
    omega
  · intro hpos
    have hn : min msgLen.toInt ((responseSize : ℤ) - 1) < responseSize := by
      rw [show ((responseSize : ℕ) : ℤ) = 256 from rfl]
      omega
    refine ⟨fun w hw i hi => responseWrites_inside m msgPtr hpos hw hi, ?_, ?_⟩
    · obtain ⟨k, hk⟩ : ∃ k : ℕ, min msgLen.toInt (responseSize - 1) = k :=
        ⟨(min msgLen.toInt (responseSize - 1)).toNat, by
          rw [show ((responseSize : ℕ) : ℤ) = 256 from rfl]
          omega⟩
      have hklt : k < responseSize := by
        rw [hk] at hn
        exact_mod_cast hn
      simp only [ccReturnResponseNative, hk, Session.storeResponse_of_nonneg, Buf.set_bytes,
        Buf.load_bytes]
      exact List.mem_iff_getElem.2 ⟨k, by simpa using hklt, by simp⟩
    · obtain ⟨response, hs⟩ := ccReturnResponseNative_sess msgPtr m s hpos
      rw [hs]

/-- With a length of `-332` the terminator falls on `pending_type`, and a
request on record is gone; with `-973` it falls in front of the context. -/
theorem negative_length_clears_request :
    (∃ s : Session, s.pendingType = .putState ∧
      (ccReturnResponseNative 0 (-332) ⟨wasmPage, fun _ => 0⟩ s).sess.pendingType = .none ∧
      ¬ Confined ⟨wasmPage, fun _ => 0⟩ 0 (-332) s) ∧
    ResponseWrite.Writes (.store (-973)) (-973) ∧
      .store (-973) ∈ responseWrites ⟨wasmPage, fun _ => 0⟩ 0 (-973) := by
  refine ⟨⟨Session.zero.recordPut [] [], rfl, by decide +kernel, fun h => ?_⟩, rfl, ?_⟩
  · have hstore := h.writes (.store (-332)) (by simp [responseWrites]) _ rfl
    omega
  · simp [responseWrites]

end TeeChaincode
