import TeeChaincode.Ta.Commands

/-!
# What a module's calls leave in the session

For an arbitrary module the session behind a step is what its native
calls make of the session before it, whatever else the module did. Two
things are read off the calls: the request that is pending is the last
one made, and the response on record is the last message passed to
`cc_return_response`. With that, a command that is answered lays out the
last request of its steps, or the last message, or a text of its own
where a step failed.
-/

namespace TeeChaincode

open Common

variable {σ : Type}

/-! ## Calls -/

/-- The session behind a list of native calls. -/
abbrev Session.after (s : Session) (calls : List (NativeCall × Instance σ)) : Session :=
  Guest.hostAfter natives s calls

namespace NativeCall

/-- The natives that write to the session. -/
def Records : NativeCall → Prop
  | .ccGetState .. | .ccPutState .. | .ccReturnResponse .. => True
  | _ => False

/-- The state request a call makes. -/
def request (m : Memory) : NativeCall → Option Request
  | .ccGetState keyPtr keyLen _ _ => some (.get (clip 63 (addressed m keyPtr keyLen)))
  | .ccPutState keyPtr keyLen valPtr valLen =>
    some (.put (clip 63 (addressed m keyPtr keyLen)) (clip 255 (addressed m valPtr valLen)))
  | _ => none

/-- The message a call passes to `cc_return_response`. -/
def message (m : Memory) : NativeCall → Option Bytes
  | .ccReturnResponse msgPtr msgLen => some (clip 255 (addressed m msgPtr msgLen))
  | _ => none

/-- The ranges of a state call lie in linear memory, and no length is
negative. -/
def Valid (m : Memory) : NativeCall → Prop
  | .ccGetState keyPtr keyLen outPtr outLen =>
    (0 ≤ keyLen.toInt ∧ keyPtr.toNat + keyLen.toInt.toNat ≤ m.size) ∧
      0 < outLen.toInt ∧ outPtr.toNat + outLen.toInt.toNat ≤ m.size
  | .ccPutState keyPtr keyLen valPtr valLen =>
    (0 ≤ keyLen.toInt ∧ keyPtr.toNat + keyLen.toInt.toNat ≤ m.size) ∧
      0 ≤ valLen.toInt ∧ valPtr.toNat + valLen.toInt.toNat ≤ m.size
  | .ccReturnResponse _ msgLen => 0 ≤ msgLen.toInt
  | _ => True

instance (m : Memory) : (c : NativeCall) → Decidable (c.Valid m)
  | .ccGetState .. | .ccPutState .. => inferInstanceAs (Decidable ((_ ∧ _) ∧ _ ∧ _))
  | .ccReturnResponse _ msgLen => inferInstanceAs (Decidable (0 ≤ msgLen.toInt))
  | .ccGetFunction .. | .ccGetArg .. | .ccLog .. | .debugLog .. | .memset .. | .memcpy ..
  | .memmove .. => inferInstanceAs (Decidable True)

end NativeCall

variable {c : NativeCall} {m : Memory} {s : Session}

/-- What the other natives leave alone: the session, which does not decide
whether they raise an exception either, and the size of linear memory. -/
theorem callNative_plain (h : ¬ c.Records) (m : Memory) (s s' : Session) :
    (callNative c m s).sess = s ∧ (callNative c m s).ex = (callNative c m s').ex ∧
      (callNative c m s).mem.size = m.size := by
  have hmove : ∀ dst src n : UInt32, (envMemmoveNative dst src n m s).sess = s ∧
      (envMemmoveNative dst src n m s).ex = (envMemmoveNative dst src n m s').ex ∧
      (envMemmoveNative dst src n m s).mem.size = m.size := by
    intro dst src n
    simp only [envMemmoveNative]
    repeat' split
    all_goals exact ⟨rfl, rfl, rfl⟩
  cases c with
  | ccGetFunction outPtr outLen =>
    simp only [callNative, ccGetFunctionNative]
    repeat' split
    all_goals first | exact ⟨rfl, rfl, rfl⟩ | exact ⟨rfl, rfl, copyOut_size ..⟩
  | ccGetArg idx outPtr outLen =>
    simp only [callNative, ccGetArgNative]
    repeat' split
    all_goals first | exact ⟨rfl, rfl, rfl⟩ | exact ⟨rfl, rfl, copyOut_size ..⟩
  | ccLog msgPtr msgLen =>
    simp only [callNative, ccLogNative]
    repeat' split
    all_goals exact ⟨rfl, rfl, rfl⟩
  | debugLog stepNum => exact ⟨rfl, rfl, rfl⟩
  | memset dstPtr v n =>
    simp only [callNative, envMemsetNative]
    repeat' split
    all_goals exact ⟨rfl, rfl, rfl⟩
  | memcpy dstPtr srcPtr n => exact hmove dstPtr srcPtr n
  | memmove dstPtr srcPtr n => exact hmove dstPtr srcPtr n
  | ccGetState | ccPutState | ccReturnResponse => exact absurd trivial h

/-- The other natives leave the session as it is. -/
theorem callNative_sess (h : ¬ c.Records) : (callNative c m s).sess = s :=
  (callNative_plain h m s s).1

/-- Whether a call raises an exception is a matter of its arguments and
of linear memory. -/
theorem callNative_ex (c : NativeCall) (m : Memory) (s s' : Session) :
    (callNative c m s).ex = (callNative c m s').ex := by
  cases c with
  | ccGetState keyPtr keyLen outPtr outLen =>
    simp only [callNative, ccGetStateNative]
    split <;> rfl
  | ccPutState | ccReturnResponse => rfl
  | _ => exact (callNative_plain (by exact id) m s s').2.1

/-- A range of some length whose check threw nothing lies in linear
memory. -/
theorem range_of_unraised {off size : UInt32} (hsize : 0 < size.toNat)
    (h : (toNative m off size).2 = none) : off.toNat + size.toNat ≤ m.size := by
  by_contra hout
  rw [toNative_of_not_le hsize hout] at h
  cases h

/-! ## The pending request -/

/-- The request pending in a session. -/
def Session.request (s : Session) : Option Request :=
  match s.pendingType with
  | .none => none
  | .getState => some (.get (clip 63 s.key.bytes))
  | .putState => some (.put (clip 63 s.key.bytes) (clip 255 s.value.bytes))

/-- `cc_return_response` writes to the response only, where its length is
not negative. -/
theorem ccReturnResponseNative_sess {msgLen : Int32} (msgPtr : UInt32) (m : Memory) (s : Session)
    (h : 0 ≤ msgLen.toInt) :
    ∃ response, (ccReturnResponseNative msgPtr msgLen m s).sess =
      { s with response, hasResponse := true } := by
  obtain ⟨n, hn⟩ : ∃ n : ℕ, min msgLen.toInt (responseSize - 1) = n :=
    ⟨(min msgLen.toInt (responseSize - 1)).toNat, by
      rw [show responseSize = 256 from rfl]
      omega⟩
  simp only [ccReturnResponseNative, hn, Session.storeResponse_of_nonneg]
  exact ⟨_, rfl⟩

/-- **A call makes its request the pending one**, or leaves it. -/
theorem request_callNative (h : c.Valid m) :
    (callNative c m s).sess.request = (c.request m).or s.request := by
  cases c with
  | ccGetState keyPtr keyLen outPtr outLen =>
    obtain ⟨⟨hk, hkin⟩, ho, hoin⟩ := h
    simp only [callNative, ccGetStateNative_eq hk hkin ho hoin, Session.request,
      NativeCall.request, Option.some_or, Buf.load_bytes]
    rw [clip_pad_take _ (by decide)]
  | ccPutState keyPtr keyLen valPtr valLen =>
    obtain ⟨⟨hk, hkin⟩, hv, hvin⟩ := h
    simp only [callNative, ccPutStateNative_eq hk hkin hv hvin, Session.request,
      NativeCall.request, Option.some_or, Buf.load_bytes]
    rw [clip_pad_take _ (by decide), clip_pad_take _ (by decide)]
  | ccReturnResponse msgPtr msgLen =>
    obtain ⟨response, hs⟩ := ccReturnResponseNative_sess msgPtr m s h
    rw [callNative, hs]
    rfl
  | _ =>
    rw [callNative_sess (by exact id)]
    rfl

/-- The requests of a list of calls, in order. -/
def requests (calls : List (NativeCall × Instance σ)) : List Request :=
  calls.filterMap fun c => c.1.request c.2.mem

/-- **The last request made is pending.** -/
theorem request_after {calls : List (NativeCall × Instance σ)}
    (h : ∀ c ∈ calls, c.1.Valid c.2.mem) (s : Session) :
    (s.after calls).request = (requests calls).getLast?.or s.request :=
  Guest.hostAfter_last (fun c hc _ => request_callNative (h c hc)) s

/-- The calls that leave a request pending, where they raise nothing. -/
def NativeCall.Asks : NativeCall → Prop
  | .ccGetState _ _ _ outLen => 0 < outLen.toInt
  | .ccPutState .. => True
  | _ => False

instance : (c : NativeCall) → Decidable c.Asks
  | .ccGetState _ _ _ outLen => inferInstanceAs (Decidable (0 < outLen.toInt))
  | .ccPutState .. => inferInstanceAs (Decidable True)
  | .ccGetFunction .. | .ccGetArg .. | .ccReturnResponse .. | .ccLog .. | .debugLog ..
  | .memset .. | .memcpy .. | .memmove .. => inferInstanceAs (Decidable False)

/-- The length a call passes to `cc_return_response` is not negative. -/
def NativeCall.Measured : NativeCall → Prop
  | .ccReturnResponse _ msgLen => 0 ≤ msgLen.toInt
  | _ => True

instance : (c : NativeCall) → Decidable c.Measured
  | .ccReturnResponse _ msgLen => inferInstanceAs (Decidable (0 ≤ msgLen.toInt))
  | .ccGetFunction .. | .ccGetArg .. | .ccGetState .. | .ccPutState .. | .ccLog .. | .debugLog ..
  | .memset .. | .memcpy .. | .memmove .. => inferInstanceAs (Decidable True)

/-- A call that asks leaves a request pending, and no other call takes
one away. -/
theorem pending_callNative (hex : (callNative c m s).ex = none) (hlen : c.Measured)
    (h : c.Asks ∨ s.pendingType ≠ .none) : (callNative c m s).sess.pendingType ≠ .none := by
  cases c with
  | ccGetState keyPtr keyLen outPtr outLen =>
    simp only [callNative, ccGetStateNative] at hex ⊢
    split
    · next hno =>
      rw [if_pos hno] at hex
      rcases h with hask | hs
      · -- an output range that is NULL has thrown
        have hpos : 0 < outLen.toInt := hask
        have hnat := toUInt32_toNat (le_of_lt hpos)
        have hout : (toNative m outPtr outLen.toUInt32).2 = none := by
          cases hx : (toNative m outPtr outLen.toUInt32).2 with
          | none => rfl
          | some e => simp [hx] at hex
        have hin := range_of_unraised (by omega) hout
        rw [toNative_of_le hin (by omega)] at hno
        simp at hno
        omega
      · exact hs
    · simp
  | ccPutState keyPtr keyLen valPtr valLen => simp [callNative, ccPutStateNative]
  | ccReturnResponse msgPtr msgLen =>
    obtain ⟨response, hs⟩ := ccReturnResponseNative_sess msgPtr m s hlen
    rw [callNative, hs]
    exact h.resolve_left id
  | _ =>
    rw [callNative_sess (by exact id)]
    exact h.resolve_left id

/-- **What has been asked for stays pending.** -/
theorem pending_after {calls : List (NativeCall × Instance σ)}
    (hun : ∀ c ∈ calls, ∃ s', (natives c.1 c.2 s').ex = none)
    (hlen : ∀ c ∈ calls, c.1.Measured) {s : Session}
    (h : (∃ c ∈ calls, c.1.Asks) ∨ s.pendingType ≠ .none) :
    (s.after calls).pendingType ≠ .none := by
  induction calls generalizing s with
  | nil =>
    rcases h with ⟨c, hc, -⟩ | h
    · exact absurd hc List.not_mem_nil
    · exact h
  | cons c calls ih =>
    refine ih (fun d hd => hun d (List.mem_cons_of_mem _ hd))
      (fun d hd => hlen d (List.mem_cons_of_mem _ hd)) ?_
    have hex : (callNative c.1 c.2.mem s).ex = none := by
      obtain ⟨s', hs'⟩ := hun c List.mem_cons_self
      rw [callNative_ex c.1 c.2.mem s s']
      exact Option.map_eq_none_iff.1 hs'
    have hkeep := pending_callNative hex (hlen c List.mem_cons_self)
    rcases h with ⟨d, hd, hask⟩ | h
    · rcases List.mem_cons.1 hd with rfl | hd
      · exact .inr (hkeep (.inl hask))
      · exact .inl ⟨d, hd, hask⟩
    · exact .inr (hkeep (.inr h))

/-! ## The response on record -/

/-- The message on record. -/
def Session.message (s : Session) : Option Bytes :=
  if s.hasResponse then some (clip 255 s.response.bytes) else none

/-- A store in front of `response` leaves it. -/
theorem Session.storeResponse_response {n : ℤ} (h : n < 0) :
    (s.storeResponse n).response = s.response ∧
      (s.storeResponse n).hasResponse = s.hasResponse := by
  unfold storeResponse
  split
  · exact ⟨rfl, rfl⟩
  · have hlt : ((responseOff : ℤ) + n).toNat < responseOff := by omega
    unfold storeZero
    rw [if_pos hlt]
    repeat' split
    all_goals exact ⟨rfl, rfl⟩

/-- What is copied from a range whose check threw nothing. -/
theorem copied_of_unraised {ptr : UInt32} {len : Int32} (bound : ℤ) (hb : 0 ≤ bound)
    (h : (toNative m ptr (clampLen len)).2 = none) :
    copied m (toNative m ptr (clampLen len)).1 (min len.toInt bound) =
      (addressed m ptr len).take bound.toNat := by
  by_cases hpos : 0 < len.toInt
  · have hc := clampLen_toNat (le_of_lt hpos)
    have hin := range_of_unraised (by omega) h
    exact (copied_toNative bound hb (le_of_lt hpos) (by omega)).1
  · have hread : addressed m ptr len = [] := by
      rw [addressed, show len.toInt.toNat = 0 by omega]
      rfl
    rw [hread, List.take_nil]
    unfold copied
    split
    · rw [if_neg (by omega)]
    · rfl

/-- `cc_return_response` puts its message on record, where its range
checks out. -/
theorem message_ccReturnResponse {msgPtr : UInt32} {msgLen : Int32}
    (h : (ccReturnResponseNative msgPtr msgLen m s).ex = none) :
    (ccReturnResponseNative msgPtr msgLen m s).sess.message =
      some (clip 255 (addressed m msgPtr msgLen)) := by
  have hc : copied m (toNative m msgPtr (clampLen msgLen)).1 (min msgLen.toInt 255) =
      (addressed m msgPtr msgLen).take 255 := copied_of_unraised 255 (by omega) h
  have hlen : ((addressed m msgPtr msgLen).take 255).length = min 255 msgLen.toInt.toNat := by
    rw [List.length_take, addressed, Memory.length_read]
  have hload : (Buf.load responseSize ((addressed m msgPtr msgLen).take 255)).bytes =
      pad 256 ((addressed m msgPtr msgLen).take 255) := rfl
  simp only [ccReturnResponseNative, show ((responseSize : ℤ) - 1) = 255 from rfl, hc,
    Session.message, if_true]
  by_cases hneg : msgLen.toInt < 0
  · -- the terminator lands in front of the buffer
    obtain ⟨hresp, -⟩ := Session.storeResponse_response (n := min msgLen.toInt 255)
      (s := { s with response := Buf.load _ ((addressed m msgPtr msgLen).take 255) }) (by omega)
    rw [hresp, hload, clip_pad_take _ (by omega)]
  · have hn : min msgLen.toInt 255 = (((addressed m msgPtr msgLen).take 255).length : ℤ) := by
      rw [hlen]
      omega
    have hlt : ((addressed m msgPtr msgLen).take 255).length < responseSize := by
      rw [hlen, show responseSize = 256 from rfl]
      omega
    rw [hn, Session.storeResponse_of_nonneg]
    simp only [Buf.set_load hlt]
    rw [hload, clip_pad_take _ (by omega)]

/-- **A call that raises nothing puts its message on record**, or leaves
the one there. -/
theorem message_callNative (h : (callNative c m s).ex = none) :
    (callNative c m s).sess.message = (c.message m).or s.message := by
  cases c with
  | ccReturnResponse msgPtr msgLen => exact message_ccReturnResponse h
  | ccGetState keyPtr keyLen outPtr outLen =>
    simp only [callNative, ccGetStateNative, NativeCall.message, Option.none_or]
    split <;> rfl
  | ccPutState => rfl
  | _ =>
    rw [callNative_sess (by exact id)]
    rfl

/-- The messages of a list of calls, in order. -/
def messages (calls : List (NativeCall × Instance σ)) : List Bytes :=
  calls.filterMap fun c => c.1.message c.2.mem

/-- **The last message passed on is on record.** -/
theorem message_after {calls : List (NativeCall × Instance σ)}
    (h : ∀ c ∈ calls, ∃ s', (natives c.1 c.2 s').ex = none) (s : Session) :
    (s.after calls).message = (messages calls).getLast?.or s.message := by
  refine Guest.hostAfter_last (fun c hc s => message_callNative ?_) s
  obtain ⟨s', hs'⟩ := h c hc
  rw [callNative_ex c.1 c.2.mem s s']
  exact Option.map_eq_none_iff.1 hs'

end TeeChaincode
