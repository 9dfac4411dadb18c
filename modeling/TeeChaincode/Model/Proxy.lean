import TeeChaincode.Model.Ta

/-!
# The proxy

`TransactionInvocation` and `execute_wasm_with_grpc_proxy` of
`fixed-proxy/main.cpp`. A handler is the point one call of
`TransactionInvocation` has reached: each constructor of `Handler` is the
next call it makes to the outside (a stream operation, the file system,
the TEE), with the locals that are still read behind it. `Input` is what
that call brings back, so every failure is an input, and `handlerStep`
is everything the handler does up to its next such call.

The TEE is a parameter: `Tee τ ε` is any machine answering the two
commands, and `taTee` is the one the trusted application makes.
-/

namespace TeeChaincode

open Common

/-! ## The TEE as the proxy sees it -/

/-- What `TEEC_InvokeCommand` brings back. -/
structure TeeReply where
  result : TeeResult
  /-- `op.params[1].value.a`. -/
  valueA : UInt32
  /-- The shared buffer. -/
  sharedBuf : Bytes
deriving DecidableEq, Repr

/-- A TEE session with state `τ`, whose commands depend on an environment
`ε` besides. Both commands are functions: a `Tee` stands for a session
whose commands return, each of its steps included. -/
structure Tee (τ ε : Type) where
  /-- COMMAND_RUN_WASM on a bytecode and the shared buffer. -/
  run : τ → ε → Bytes → Bytes → TeeReply × τ
  /-- COMMAND_RESUME_WASM on the shared buffer. -/
  resume : τ → ε → Bytes → TeeReply × τ
  /-- The session `restart_session` opens in its place. -/
  restart : τ → τ

/-! ## Marshalling -/

/-- `max_size`: the largest of the four structs. -/
def maxSize : ℕ :=
  [sizeofKeyValue, ackSize, responseSize, sizeofArguments].foldl max 0

/-- Copy one string into its row of `struct arguments`, cut to leave the
terminator that follows. -/
def packRow (buf : Bytes) (i : ℕ) (s : Bytes) : Bytes :=
  memMove buf (i * argSize) (s.take (argSize - 1) ++ [0])

/-- The loop over the arguments. -/
def packArgs : Bytes → ℕ → List Bytes → Bytes
  | buf, _, [] => buf
  | buf, i, a :: rest => packArgs (packRow buf i a) (i + 1) rest

/-- `struct arguments` as it is set up for COMMAND_RUN_WASM. -/
def packArguments (functionName : Bytes) (args : List Bytes) : Bytes :=
  packArgs (packRow (List.replicate maxSize 0) 0 functionName) 1 (args.take (argsNumber - 1))

/-- The two kinds of state request. -/
inductive RequestKind
  | get
  | put
deriving DecidableEq, Repr

/-- The shared buffer with the reply to a request written back: a GET
reply of `VAL_SIZE` bytes or more, or an acknowledgement of `ACK_SIZE` or
more, is not copied. -/
def writeReply (kind : RequestKind) (m : WrapperMessage) : Bytes :=
  let buf := List.replicate maxSize 0
  match kind with
  | .get =>
    let value := m.getGetStateResponse
    if value.length < valSize then memMove buf keySize (clip (valSize - 1) value) else buf
  | .put =>
    let ack := m.getPutStateResponse
    if ack.length < ackSize then memMove buf 0 (clip (ackSize - 1) ack) else buf

/-! ## Handlers -/

/-- The gRPC status of a finished call. -/
inductive Status
  | ok
  | unknown (message : Bytes)
deriving DecidableEq, Repr

/-- The next outside call of a handler. -/
inductive Handler
  /-- `stream->Read` of the invocation request. -/
  | readRequest
  /-- `fopen` of the AOT file, and the buffers. -/
  | openFile (req : InvocationRequest)
  /-- `TEEC_InvokeCommand(COMMAND_RUN_WASM)`. -/
  | run (wasm sharedBuf : Bytes)
  /-- `stream->Write` of the final response. -/
  | writeResponse (msg : ProxyMessage)
  /-- `stream->Write` of a state request. -/
  | writeRequest (kind : RequestKind) (msg : ProxyMessage)
  /-- `stream->Read` of the reply to it. -/
  | readReply (kind : RequestKind)
  /-- `TEEC_InvokeCommand(COMMAND_RESUME_WASM)`. -/
  | resume (sharedBuf : Bytes)
  /-- `restart_session`. -/
  | restart (ok : Bool)
  /-- Returned. -/
  | finished (status : Status)
deriving DecidableEq, Repr

/-- What an outside call brings back. -/
inductive Input (ε : Type)
  /-- A message read, or a failed read. -/
  | read (m : Option WrapperMessage)
  /-- The file's content, or no file or no buffer for it. -/
  | file (content : Option Bytes)
  /-- The command reaches the TA, or fails on the way. -/
  | tee (env : Option ε)
  /-- Whether the write succeeded. -/
  | write (ok : Bool)
  /-- The session has been restarted. -/
  | restarted
deriving DecidableEq, Repr

/-- The `switch` of the proxy loop on the TA's reply. -/
def dispatchReply (r : TeeReply) : Handler :=
  if r.result ≠ .success then .restart false
  else if r.valueA = invocationResponse then
    .writeResponse (.invocationResponse (cstr r.sharedBuf))
  else if r.valueA = getStateRequest then
    .writeRequest .get (.getStateRequest (cstr r.sharedBuf))
  else if r.valueA = putStateRequest then
    .writeRequest .put (.putStateRequest (cstr r.sharedBuf) (cstr (r.sharedBuf.drop keySize)))
  else .restart false

/-- The status of a call whose execution succeeded or not. -/
def finalStatus (ok : Bool) : Status :=
  if ok then .ok else .unknown (ascii "WASM execution failed")

variable {τ ε : Type}

/-- One step of a handler: from one outside call to the next. `none`
where the input does not answer the call. -/
def handlerStep (T : Tee τ ε) (t : τ) : Handler → Input ε → Option (Handler × τ)
  | .readRequest, .read none =>
    some (.finished (.unknown (ascii "Failed to read invocation request")), t)
  | .readRequest, .read (some m) => some (.openFile m.getInvocationRequest, t)
  | .openFile _, .file none => some (.restart false, t)
  | .openFile req, .file (some wasm) =>
    some (.run wasm (packArguments req.functionName req.arguments), t)
  | .run _ _, .tee none => some (.restart false, t)
  | .run wasm buf, .tee (some env) =>
    some (dispatchReply (T.run t env wasm buf).1, (T.run t env wasm buf).2)
  | .writeResponse _, .write ok => some (.restart ok, t)
  | .writeRequest _ _, .write false => some (.restart false, t)
  | .writeRequest kind _, .write true => some (.readReply kind, t)
  | .readReply _, .read none => some (.restart false, t)
  | .readReply kind, .read (some m) => some (.resume (writeReply kind m), t)
  | .resume _, .tee none => some (.restart false, t)
  | .resume buf, .tee (some env) =>
    some (dispatchReply (T.resume t env buf).1, (T.resume t env buf).2)
  | .restart ok, .restarted => some (.finished (finalStatus ok), T.restart t)
  | _, _ => none

/-- The message a step puts on the stream. -/
def sentBy : Handler → Input ε → Option ProxyMessage
  | .writeResponse m, .write true => some m
  | .writeRequest _ m, .write true => some m
  | _, _ => none

/-! ## The trusted application as a TEE -/

variable {σ : Type}

/-- The TA with the steps it has executed so far. -/
structure TaRun (σ : Type) where
  ta : Ta σ
  steps : List (StepTrace σ)

/-- The parameters of the two commands as the proxy sets them. -/
def runParams (wasm sharedBuf : Bytes) : Params where
  types := Command.runWasm.paramTypes
  value0 := 0
  memref0 := wasm
  value1 := 0
  memref2 := ⟨sharedBuf, maxSize⟩

def resumeParams (sharedBuf : Bytes) : Params where
  types := Command.resumeWasm.paramTypes
  value0 := 0
  memref0 := []
  value1 := 0
  memref2 := ⟨sharedBuf, maxSize⟩

/-- `initialize_session`: a new TA instance, its session opened and its
heap configured. Opening a session creates an instance, since `TA_FLAGS`
has no single-instance flag. -/
def initializeSession : Ta σ :=
  let opened := (openSessionEntryPoint Ta.created [.none, .none, .none, .none] true).2
  (configureHeap opened
    ⟨Command.configureHeap.paramTypes, 10 * 1024 * 1024, [], 0, ⟨[], 0⟩⟩).ta

/-- A TA just set up, that has executed nothing. -/
abbrev freshRun : TaRun σ := ⟨initializeSession, []⟩

/-- The reply of a command as `TEEC_InvokeCommand` brings it back. -/
def TaRun.answer (t : TaRun σ) (r : Reply σ) : TeeReply × TaRun σ :=
  (⟨r.result, r.params.value1, r.params.memref2.buffer⟩, ⟨r.ta, t.steps ++ r.steps⟩)

/-- The TEE the trusted application makes. -/
def taTee (load : Loader σ) : Tee (TaRun σ) Env where
  run t env wasm buf :=
    t.answer (invokeCommandEntryPoint load t.ta .runWasm (runParams wasm buf) env)
  resume t env buf :=
    t.answer (invokeCommandEntryPoint load t.ta .resumeWasm (resumeParams buf) env)
  restart t := { t with ta := initializeSession }

end TeeChaincode
