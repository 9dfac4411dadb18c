import TeeChaincode.Common.Guest
import TeeChaincode.Common.Memory
import TeeChaincode.Model.Session

/-!
# The native functions

`chaincode_native_functions.c`: the ten imports a module may call. Each
is a function of its integer arguments, of linear memory and of the
session context, and answers with a value, the memory and the context
behind the call, and the exception WAMR holds when it returns.

WAMR is not part of the repository. Its two address functions are defined
here by what its documentation says of them: the check holds for a range
inside linear memory and throws where it fails, and the translation gives
the address, or NULL outside linear memory. A native does not see the
exception: it goes on with a NULL pointer, and the exception stops the
module when the native has returned.
-/

namespace TeeChaincode

open Common

/-! ## WAMR's address functions -/

/-- The exception `wasm_runtime_validate_app_addr` throws. -/
def outOfBounds : Bytes := ascii "Exception: out of bounds memory access"

/-- `wasm_runtime_validate_app_addr`. -/
def validateAppAddr (m : Memory) (appOffset size : UInt32) : Bool :=
  appOffset.toNat + size.toNat ≤ m.size

/-- `wasm_runtime_addr_app_to_native`: the address, or NULL outside
linear memory. -/
def addrAppToNative (m : Memory) (appOffset : UInt32) : Option ℕ :=
  if appOffset.toNat < m.size then some appOffset.toNat else none

/-- What WAMR's documentation says of two such functions: the check holds
for a range exactly if linear memory contains it, and an offset has an
address exactly if it is one of linear memory. -/
structure AsDocumented (validate : Memory → UInt32 → UInt32 → Bool)
    (native : Memory → UInt32 → Option ℕ) : Prop where
  validate_iff : ∀ m off size, validate m off size = true ↔ off.toNat + size.toNat ≤ m.size
  native_inside : ∀ m off, off.toNat < m.size → native m off = some off.toNat
  native_outside : ∀ m off, m.size ≤ off.toNat → native m off = none

/-- The definitions above are the only ones: nothing is assumed of WAMR
through them beyond its documentation. -/
theorem asDocumented_iff {validate : Memory → UInt32 → UInt32 → Bool}
    {native : Memory → UInt32 → Option ℕ} :
    AsDocumented validate native ↔ validate = validateAppAddr ∧ native = addrAppToNative := by
  constructor
  · intro h
    constructor
    · funext m off size
      rw [Bool.eq_iff_iff, h.validate_iff, validateAppAddr, decide_eq_true_iff]
    · funext m off
      rw [addrAppToNative]
      split
      next hin => exact h.native_inside m off hin
      next hout => exact h.native_outside m off (Nat.le_of_not_lt hout)
  · rintro ⟨rfl, rfl⟩
    refine ⟨fun m off size => decide_eq_true_iff, fun m off hin => if_pos hin, fun m off hout => ?_⟩
    exact if_neg (Nat.not_lt_of_le hout)

/-- `to_native`: the pointer, and the exception its address check
threw. -/
def toNative (m : Memory) (appOffset size : UInt32) : Option ℕ × Option Bytes :=
  if size ≠ 0 ∧ validateAppAddr m appOffset size = false then (none, some outOfBounds)
  else (addrAppToNative m appOffset, none)

/-- `safe_strlen` on a pointer that is not NULL. -/
abbrev safeStrlen (s : Bytes) (maxLen : ℕ) : ℕ := boundedLen s maxLen

/-! ## The calls -/

/-- A call of an import, with its arguments. -/
inductive NativeCall
  | ccGetFunction (outPtr : UInt32) (outLen : Int32)
  | ccGetArg (idx : Int32) (outPtr : UInt32) (outLen : Int32)
  | ccGetState (keyPtr : UInt32) (keyLen : Int32) (outPtr : UInt32) (outLen : Int32)
  | ccPutState (keyPtr : UInt32) (keyLen : Int32) (valPtr : UInt32) (valLen : Int32)
  | ccReturnResponse (msgPtr : UInt32) (msgLen : Int32)
  | ccLog (msgPtr : UInt32) (msgLen : Int32)
  | debugLog (stepNum : Int32)
  | memset (dstPtr : UInt32) (c : Int32) (n : UInt32)
  | memcpy (dstPtr srcPtr n : UInt32)
  | memmove (dstPtr srcPtr n : UInt32)
deriving DecidableEq, Repr

/-- What a native leaves behind. -/
structure NativeResult where
  ret : Int32
  mem : Memory
  sess : Session
  ex : Option Bytes

/-- A length as `to_native` is given it: `len > 0 ? len : 0`. -/
def clampLen (len : Int32) : UInt32 := if 0 < len.toInt then len.toUInt32 else 0

/-- The bytes at a pointer that `TEE_MemMove` copies under
`n > 0 && ptr`. -/
def copied (m : Memory) (ptr : Option ℕ) (n : ℤ) : Bytes :=
  match ptr with
  | some p => if 0 < n then m.read p n.toNat else []
  | none => []

/-- Clear an output range and copy the string found at `src` into it, cut
to leave a terminator. The tail of `cc_get_function` and `cc_get_arg`. -/
def copyOut (m : Memory) (out : ℕ) (outLen : Int32) (src : Bytes) : Memory × Int32 :=
  let len := safeStrlen src (outLen.toInt.toNat - 1)
  let m := m.fill out outLen.toInt.toNat 0
  (if 0 < len then m.write out (src.take len) else m, Int32.ofNat len)

/-- `cc_get_function_native`. -/
def ccGetFunctionNative (outPtr : UInt32) (outLen : Int32) (m : Memory) (s : Session) :
    NativeResult :=
  if outLen.toInt ≤ 0 then ⟨0, m, s, none⟩
  else if validateAppAddr m outPtr outLen.toUInt32 = false then ⟨0, m, s, some outOfBounds⟩
  else
    match addrAppToNative m outPtr with
    | none => ⟨0, m, s, none⟩
    | some out =>
      -- `args.arguments[0]`, scanned from the front of the struct
      let r := copyOut m out outLen s.image
      ⟨r.2, r.1, s, none⟩

/-- `cc_get_arg_native`. The index is checked against the table size
before it is shifted by one, and the scan starts at that row. -/
def ccGetArgNative (idx : Int32) (outPtr : UInt32) (outLen : Int32) (m : Memory) (s : Session) :
    NativeResult :=
  let (out, ex) := toNative m outPtr outLen.toUInt32
  match out with
  | none => ⟨0, m, s, ex⟩
  | some out =>
    if outLen.toInt ≤ 0 then ⟨0, m, s, ex⟩
    else
      let arg :=
        if 0 ≤ idx.toInt ∧ idx.toInt < argsNumber then
          s.image.drop (argSize * (idx.toInt.toNat + 1))
        else []
      let r := copyOut m out outLen arg
      ⟨r.2, r.1, s, ex⟩

/-- `cc_get_state_native`. The request is recorded in the one pending slot
and the module goes on; the value is copied at the next resume. -/
def ccGetStateNative (keyPtr : UInt32) (keyLen : Int32) (outPtr : UInt32) (outLen : Int32)
    (m : Memory) (s : Session) : NativeResult :=
  let (out, exOut) := toNative m outPtr outLen.toUInt32
  let (key, exKey) := toNative m keyPtr (clampLen keyLen)
  let ex := exOut <|> exKey
  if out = none ∨ outLen.toInt ≤ 0 then ⟨0, m, s, ex⟩
  else
    let klen : ℤ := min keyLen.toInt (keySize - 1)
    let s' := { s with
      key := Buf.load _ (copied m key klen)
      pendingType := .getState
      wasmOutOffset := outPtr
      wasmOutLen := outLen }
    ⟨Int32.ofInt klen, m, s', ex⟩

/-- `cc_put_state_native`. -/
def ccPutStateNative (keyPtr : UInt32) (keyLen : Int32) (valPtr : UInt32) (valLen : Int32)
    (m : Memory) (s : Session) : NativeResult :=
  let (key, exKey) := toNative m keyPtr (clampLen keyLen)
  let (val, exVal) := toNative m valPtr (clampLen valLen)
  let klen : ℤ := min keyLen.toInt (keySize - 1)
  let vlen : ℤ := min valLen.toInt (valSize - 1)
  let s' := { s with
    key := Buf.load _ (copied m key klen)
    value := Buf.load _ (copied m val vlen)
    pendingType := .putState
    wasmOutOffset := 0
    wasmOutLen := 0 }
  ⟨-1, m, s', exKey <|> exVal⟩

/-- `cc_return_response_native`. The terminator is stored at the clamped
length, which is negative where `msg_len` is. -/
def ccReturnResponseNative (msgPtr : UInt32) (msgLen : Int32) (m : Memory) (s : Session) :
    NativeResult :=
  let (msg, ex) := toNative m msgPtr (clampLen msgLen)
  let n : ℤ := min msgLen.toInt (responseSize - 1)
  let s' := { s with response := Buf.load _ (copied m msg n) }.storeResponse n
  ⟨Int32.ofInt n, m, { s' with hasResponse := true }, ex⟩

/-- `cc_log_native`. -/
def ccLogNative (msgPtr : UInt32) (msgLen : Int32) (m : Memory) (s : Session) : NativeResult :=
  let (msg, ex) := toNative m msgPtr (clampLen msgLen)
  match msg with
  | some _ => if 0 < msgLen.toInt then ⟨Int32.ofInt (min msgLen.toInt 127), m, s, ex⟩
    else ⟨0, m, s, ex⟩
  | none => ⟨0, m, s, ex⟩

/-- `debug_log_native`. -/
def debugLogNative (_stepNum : Int32) (m : Memory) (s : Session) : NativeResult :=
  ⟨0, m, s, none⟩

/-- `env_memset_native`. -/
def envMemsetNative (dstPtr : UInt32) (c : Int32) (n : UInt32) (m : Memory) (s : Session) :
    NativeResult :=
  let (dst, ex) := toNative m dstPtr n
  match dst with
  | none => if n ≠ 0 then ⟨0, m, s, ex⟩ else ⟨dstPtr.toInt32, m, s, ex⟩
  | some d => ⟨dstPtr.toInt32, m.fill d n.toNat c.toUInt32.toUInt8, s, ex⟩

/-- `env_memmove_native`. -/
def envMemmoveNative (dstPtr srcPtr n : UInt32) (m : Memory) (s : Session) : NativeResult :=
  let (dst, exDst) := toNative m dstPtr n
  let (src, exSrc) := toNative m srcPtr n
  let ex := exDst <|> exSrc
  match dst, src with
  | some d, some p => ⟨dstPtr.toInt32, m.write d (m.read p n.toNat), s, ex⟩
  | _, _ => if n ≠ 0 then ⟨0, m, s, ex⟩ else ⟨dstPtr.toInt32, m, s, ex⟩

/-- `env_memcpy_native`, whose body is that of `env_memmove_native`. -/
def envMemcpyNative (dstPtr srcPtr n : UInt32) (m : Memory) (s : Session) : NativeResult :=
  envMemmoveNative dstPtr srcPtr n m s

/-- `chaincode_native_symbols`: the import table. -/
def callNative : NativeCall → Memory → Session → NativeResult
  | .ccGetFunction outPtr outLen => ccGetFunctionNative outPtr outLen
  | .ccGetArg idx outPtr outLen => ccGetArgNative idx outPtr outLen
  | .ccGetState keyPtr keyLen outPtr outLen => ccGetStateNative keyPtr keyLen outPtr outLen
  | .ccPutState keyPtr keyLen valPtr valLen => ccPutStateNative keyPtr keyLen valPtr valLen
  | .ccReturnResponse msgPtr msgLen => ccReturnResponseNative msgPtr msgLen
  | .ccLog msgPtr msgLen => ccLogNative msgPtr msgLen
  | .debugLog stepNum => debugLogNative stepNum
  | .memset dstPtr c n => envMemsetNative dstPtr c n
  | .memcpy dstPtr srcPtr n => envMemcpyNative dstPtr srcPtr n
  | .memmove dstPtr srcPtr n => envMemmoveNative dstPtr srcPtr n

/-! ## Modules -/

/-- A module instance: its globals and its linear memory. -/
structure Instance (σ : Type) where
  globals : σ
  mem : Memory

/-- A WASM function as the TA sees it run: its native calls, and how it
ends. A trap carries WAMR's exception text, where there is one. -/
abbrev WasmCode (σ α : Type) := GuestM NativeCall Int32 (Instance σ) (Option Bytes) α

/-- The exports the TA calls. -/
inductive StepName
  | stepInit
  | stepResume
deriving DecidableEq, Repr

/-- A loaded module: its exports, and an instance of it as instantiation
leaves it. -/
structure WasmModule (σ : Type) where
  export? : StepName → Option (WasmCode σ Unit)
  initial : Instance σ

/-- The natives as the host of a module. -/
def natives {σ : Type} : Host NativeCall Int32 (Instance σ) (Option Bytes) Session :=
  fun c g s =>
    let r := callNative c g.mem s
    ⟨r.ret, { g with mem := r.mem }, r.sess, r.ex.map some⟩

end TeeChaincode
