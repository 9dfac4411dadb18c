import TeeChaincode.Common.Bytes

/-!
# What the two worlds share

The sizes and reply codes of `chaincode_tee_ree_communication.h`, the
command numbers of `wamr_ta.h`, the result codes of the TEE API the code
uses, and the messages of `invocation.proto`. The shared buffer is
reinterpreted as four structs; each is an offset and a size into one byte
list: `key_value` is a key at `0` and a value at `keySize`, `arguments`
is `argsNumber` rows of `argSize`, and the two others start at `0`.
-/

namespace TeeChaincode

open Common

/-! ## Sizes -/

/-- `KEY_SIZE`. -/
abbrev keySize : ℕ := 64

/-- `VAL_SIZE`. -/
abbrev valSize : ℕ := 256

/-- `ARG_SIZE`. -/
abbrev argSize : ℕ := 64

/-- `ARGS_NUMBER`. -/
abbrev argsNumber : ℕ := 10

/-- `RESPONSE_SIZE`. -/
abbrev responseSize : ℕ := 256

/-- `ACK_SIZE`. -/
abbrev ackSize : ℕ := 20

/-- `sizeof(struct key_value)`. -/
abbrev sizeofKeyValue : ℕ := keySize + valSize

/-- `sizeof(struct arguments)`. -/
abbrev sizeofArguments : ℕ := argsNumber * argSize

/-! ## Codes -/

/-- `INVOCATION_RESPONSE`, the code of a final answer in
`params[1].value.a`. -/
abbrev invocationResponse : UInt32 := 0

/-- `GET_STATE_REQUEST`. -/
abbrev getStateRequest : UInt32 := 1

/-- `PUT_STATE_REQUEST`. -/
abbrev putStateRequest : UInt32 := 2

/-- The results of TEE calls the code returns or receives. `targetDead`
is what a client gets from a TA that has panicked, `communication` stands
for every error raised on the way to the TA. -/
inductive TeeResult
  | success
  | badParameters
  | generic
  | outOfMemory
  | targetDead
  | communication
deriving DecidableEq, Repr

/-! ## Messages -/

/-- `InvocationRequest`. -/
structure InvocationRequest where
  chaincodeUuid : Bytes
  functionName : Bytes
  arguments : List Bytes
  aotFile : Bytes
deriving DecidableEq, Repr

/-- `ChaincodeWrapperMessage`: a oneof, which may also be unset. -/
inductive WrapperMessage
  | invocationRequest (r : InvocationRequest)
  | getStateResponse (value : Bytes)
  | putStateResponse (acknowledgement : Bytes)
  | unset
deriving DecidableEq, Repr

/-- `ChaincodeProxyMessage`. -/
inductive ProxyMessage
  | invocationResponse (executionResponse : Bytes)
  | getStateRequest (key : Bytes)
  | putStateRequest (key value : Bytes)
  | unset
deriving DecidableEq, Repr

namespace WrapperMessage

/-- The getter `invocation_request()`: an empty message where the oneof
holds another case. -/
def getInvocationRequest : WrapperMessage → InvocationRequest
  | .invocationRequest r => r
  | _ => ⟨[], [], [], []⟩

/-- The getter `get_state_response().value()`. -/
def getGetStateResponse : WrapperMessage → Bytes
  | .getStateResponse v => v
  | _ => []

/-- The getter `put_state_response().acknowledgement()`. -/
def getPutStateResponse : WrapperMessage → Bytes
  | .putStateResponse a => a
  | _ => []

end WrapperMessage

/-! ## Requests -/

/-- A state request. -/
inductive Request
  | get (key : Bytes)
  | put (key value : Bytes)
deriving DecidableEq, Repr

/-- The message that carries a request. -/
def Request.message : Request → ProxyMessage
  | .get key => .getStateRequest key
  | .put key value => .putStateRequest key value

/-- The request a message carries. -/
def ProxyMessage.request : ProxyMessage → Option Request
  | .getStateRequest key => some (.get key)
  | .putStateRequest key value => some (.put key value)
  | _ => none

end TeeChaincode
