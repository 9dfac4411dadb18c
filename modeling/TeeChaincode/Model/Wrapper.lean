import TeeChaincode.Model.Comm

/-!
# The chaincode wrapper

`ChaincodeWrapper.invoke` of `chaincode.go`, as a machine of the same
kind as the proxy's handlers: a state is the next outside call, and every
error is an input.
-/

namespace TeeChaincode

open Common

/-- `pb.Response`, as `shim.Success` and `shim.Error` build it. -/
inductive ShimResponse
  | success (payload : Bytes)
  | error (message : Bytes)
deriving DecidableEq, Repr

/-- The next outside call of `invoke`. -/
inductive Wrapper
  /-- `grpc.Dial` and `client.TransactionInvocation`. -/
  | dial (req : InvocationRequest)
  /-- `stream.Send`. -/
  | send (m : WrapperMessage)
  /-- `stream.Recv`. -/
  | recv
  /-- `stub.GetState`. -/
  | getState (key : Bytes)
  /-- `stub.PutState`. -/
  | putState (key value : Bytes)
  /-- Returned. -/
  | done (r : ShimResponse)
deriving DecidableEq, Repr

/-- What an outside call brings back; an error comes with its text. -/
inductive WrapperInput
  | dialled (err : Option Bytes)
  | sent (err : Option Bytes)
  | received (m : Except Bytes ProxyMessage)
  | gotState (value : Except Bytes (Option Bytes))
  | putDone (err : Option Bytes)

/-- The answer to an invocation without a function to execute. -/
def argCountError : Bytes :=
  ascii ("Failed to invoke chaincode_wrapper with error: incorrect number of args, " ++
    "expecting at least name of function to execute")

/-- The start of `invoke`: the argument count, and the request. -/
def invoke (uuid ccfile : Bytes) (args : List Bytes) : Wrapper :=
  match args with
  | f :: a :: rest => .dial ⟨uuid, f, a :: rest, ccfile⟩
  | _ => .done (.error argCountError)

/-- The case split of the loop on a received message. A message whose
oneof is unset matches no case, and the loop goes on. -/
def handleMessage : ProxyMessage → Wrapper
  | .invocationResponse x => .done (.success x)
  | .getStateRequest key => .getState key
  | .putStateRequest key value => .putState key value
  | .unset => .recv

/-- One step of `invoke`: from one outside call to the next. -/
def wrapperStep : Wrapper → WrapperInput → Option Wrapper
  | .dial req, .dialled none => some (.send (.invocationRequest req))
  | .dial _, .dialled (some e) => some (.done (.error e))
  | .send _, .sent none => some .recv
  | .send _, .sent (some e) => some (.done (.error e))
  | .recv, .received (.ok m) => some (handleMessage m)
  | .recv, .received (.error e) => some (.done (.error e))
  -- a missing value is passed on as the empty string
  | .getState _, .gotState (.ok v) => some (.send (.getStateResponse (v.getD [])))
  | .getState _, .gotState (.error e) => some (.done (.error e))
  | .putState _ _, .putDone none => some (.send (.putStateResponse (ascii "OK")))
  | .putState _ _, .putDone (some e) => some (.done (.error e))
  | _, _ => none

end TeeChaincode
