import TeeChaincode.Model.Wrapper

/-!
# The wrapper's entry point and its UUID

`ChaincodeWrapper.Invoke` and `setup` of `chaincode.go`. The wrapper keeps
one thing between transactions, the UUID that `setup` decodes and that
`invoke` puts into every request. `hex.DecodeString` gives back the bytes
it has decoded before an error, and `setup` stores them before it looks at
the error.
-/

namespace TeeChaincode

open Common

/-! ## `encoding/hex` -/

/-- The value of a hexadecimal digit. -/
def fromHexChar (c : UInt8) : Option UInt8 :=
  if 48 ≤ c ∧ c ≤ 57 then some (c - 48)
  else if 97 ≤ c ∧ c ≤ 102 then some (c - 87)
  else if 65 ≤ c ∧ c ≤ 70 then some (c - 55)
  else none

/-- Its errors. -/
inductive HexError
  | invalidByte (b : UInt8)
  | oddLength
deriving DecidableEq, Repr

/-- `hex.DecodeString`: the bytes decoded, and the error that stopped it.
A digit that is left over is looked at before the length is. -/
def decodeString : Bytes → Bytes × Option HexError
  | [] => ([], none)
  | [c] =>
    match fromHexChar c with
    | none => ([], some (.invalidByte c))
    | some _ => ([], some .oddLength)
  | p :: q :: rest =>
    match fromHexChar p, fromHexChar q with
    | none, _ => ([], some (.invalidByte p))
    | some _, none => ([], some (.invalidByte q))
    | some a, some b => ((a <<< 4 ||| b) :: (decodeString rest).1, (decodeString rest).2)

/-- A hexadecimal digit as `fmt` prints it in `%U`. -/
def upperHexDigit (d : ℕ) : UInt8 := UInt8.ofNat (if d < 10 then 48 + d else 55 + d)

/-- `strconv.IsPrint`, below 256. -/
def isPrint (b : UInt8) : Bool :=
  32 ≤ b && b ≤ 126 || 161 ≤ b && b ≠ 173

/-- A character below 256 in UTF-8. -/
def utf8 (b : UInt8) : Bytes :=
  if b < 128 then [b] else [(192 : UInt8) ||| (b >>> 6), (128 : UInt8) ||| (b &&& 63)]

/-- The verb `%#U`: the code point, and the character if it can be
printed. -/
def formatSharpU (b : UInt8) : Bytes :=
  ascii "U+00" ++ [upperHexDigit (b.toNat / 16), upperHexDigit (b.toNat % 16)] ++
    if isPrint b then ascii " '" ++ utf8 b ++ ascii "'" else []

/-- The texts of the errors. -/
def HexError.text : HexError → Bytes
  | .invalidByte b => ascii "encoding/hex: invalid byte: " ++ formatSharpU b
  | .oddLength => ascii "encoding/hex: odd length hex string"

/-! ## The entry point -/

/-- `stub.GetFunctionAndParameters`. -/
def getFunctionAndParameters : List Bytes → Bytes × List Bytes
  | [] => ([], [])
  | function :: params => (function, params)

/-- The texts of a `setup` that fails. -/
def setupCountError : Bytes :=
  ascii ("Failed to invoke setup function of chaincode_wrapper with error: " ++
    "incorrect number of args, expecting 1 arg (uuid).")

def setupDecodeError (e : HexError) : Bytes :=
  ascii "Failed to invoke setup function of chaincode_wrapper with error: " ++ e.text

/-- `setup`: the response, and the UUID behind it. -/
def setup (uuid : Bytes) : List Bytes → ShimResponse × Bytes
  | [uuidInput] =>
    match decodeString uuidInput with
    | (decoded, none) => (.success [], decoded)
    | (decoded, some e) => (.error (setupDecodeError e), decoded)
  | _ => (.error setupCountError, uuid)

/-- The function name that `Invoke` does not take for a file. -/
def setupName : Bytes := ascii "setup"

/-- `Invoke`: the wrapper's next outside call, and the UUID behind it. -/
def invokeEntry (uuid : Bytes) (args : List Bytes) : Wrapper × Bytes :=
  let (function, params) := getFunctionAndParameters args
  if function = setupName then
    let (response, uuid) := setup uuid params
    (.done response, uuid)
  else (invoke uuid function params, uuid)

end TeeChaincode
