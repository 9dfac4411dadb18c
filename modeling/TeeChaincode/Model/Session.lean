import TeeChaincode.Model.Comm

/-!
# The session context

`chaincode_session_ctx` of `session.h`. The character arrays are buffers
that carry their size. Two things make the byte layout of the struct part
of the model: `cc_get_arg` scans from a row on without regard to where
the row ends, and `cc_return_response` stores its terminator at an index
that may be negative. `Session.image` is the struct as bytes, for the
first, and `Session.storeResponse` the store at an index relative to
`response`, for the second.
-/

namespace TeeChaincode

open Common

/-- The values of `pending_type`. -/
inductive PendingType
  | none
  | getState
  | putState
deriving DecidableEq, Repr

/-- The code of a pending type, which is also its one non-zero byte. -/
def PendingType.code : PendingType → UInt8
  | .none => 0
  | .getState => 1
  | .putState => 2

/-- `chaincode_session_ctx`. The three pointers are kept as whether they
are set: `runtime` only ever points to the one static `runtime_ctx`, and
nothing reads through the two owned buffers. -/
structure Session where
  /-- `struct arguments args`; row `0` is the function. -/
  args : Buf sizeofArguments
  pendingType : PendingType
  key : Buf keySize
  value : Buf valSize
  /-- App offset of the buffer a GET reply goes to. -/
  wasmOutOffset : UInt32
  wasmOutLen : Int32
  response : Buf responseSize
  hasResponse : Bool
  /-- `runtime` is not NULL. -/
  runtime : Bool
  heapBufOwned : Bool
  trustedWasmOwned : Bool
deriving DecidableEq

namespace Session

/-- The zero-filled context. -/
def zero : Session where
  args := Buf.load _ []
  pendingType := .none
  key := Buf.load _ []
  value := Buf.load _ []
  wasmOutOffset := 0
  wasmOutLen := 0
  response := Buf.load _ []
  hasResponse := false
  runtime := false
  heapBufOwned := false
  trustedWasmOwned := false

/-- The little-endian bytes of a 32-bit word. -/
def le32 (x : UInt32) : Bytes :=
  [x.toUInt8, (x >>> 8).toUInt8, (x >>> 16).toUInt8, (x >>> 24).toUInt8]

/-- The context as the bytes of the struct, up to `has_response`. The
pointers behind it are not part of the image. -/
def image (s : Session) : Bytes :=
  s.args.bytes ++ [s.pendingType.code, 0, 0, 0] ++ s.key.bytes ++ s.value.bytes ++
    le32 s.wasmOutOffset ++ le32 s.wasmOutLen.toUInt32 ++ s.response.bytes ++
    [if s.hasResponse then 1 else 0, 0, 0, 0]

/-- Clear byte `i` of a 32-bit word. -/
def clearByte (x : UInt32) (i : ℕ) : UInt32 :=
  x &&& ~~~(0xFF <<< UInt32.ofNat (8 * i))

/-- Offsets into the struct. -/
abbrev pendingTypeOff : ℕ := sizeofArguments
abbrev keyOff : ℕ := pendingTypeOff + 4
abbrev valueOff : ℕ := keyOff + keySize
abbrev wasmOutOffsetOff : ℕ := valueOff + valSize
abbrev wasmOutLenOff : ℕ := wasmOutOffsetOff + 4
abbrev responseOff : ℕ := wasmOutLenOff + 4

/-- Store a zero byte at a struct offset at or below `response`. -/
def storeZero (s : Session) (off : ℕ) : Session :=
  if off < pendingTypeOff then { s with args := s.args.set off 0 }
  else if off < keyOff then
    { s with pendingType := if off = pendingTypeOff then .none else s.pendingType }
  else if off < valueOff then { s with key := s.key.set (off - keyOff) 0 }
  else if off < wasmOutOffsetOff then { s with value := s.value.set (off - valueOff) 0 }
  else if off < wasmOutLenOff then
    { s with wasmOutOffset := clearByte s.wasmOutOffset (off - wasmOutOffsetOff) }
  else if off < responseOff then
    { s with wasmOutLen := (clearByte s.wasmOutLen.toUInt32 (off - wasmOutLenOff)).toInt32 }
  else { s with response := s.response.set (off - responseOff) 0 }

/-- `response[n] = '\0'`. A store in front of the struct (`n` below
`-responseOff`) hits TA memory that is not part of the context, or nothing
the TA may write: no field of the context changes, and what becomes of the
TA is not said here. Results about the TA as a whole ask for lengths that
are not negative. -/
def storeResponse (s : Session) (n : ℤ) : Session :=
  if (responseOff : ℤ) + n < 0 then s else s.storeZero ((responseOff : ℤ) + n).toNat

end Session

end TeeChaincode
