import TeeChaincode.Model.Natives

/-!
# The trusted application

`main.c` and `TA_InitializeWamrRuntime` of `wasm.c`. The state of the TA
is its globals: the heap size, the session context and the one static
`runtime_ctx`, which every RUN_WASM overwrites and which `sc->runtime`
points to from the first RUN_WASM that reached its end on.

What the code does not decide is an input: `Loader` is the WAMR loader,
and `Env` says, for one command, which allocations and WAMR calls
succeed. Each command answers with the TEE result, the parameters as the
client gets them back, the TA behind the command, and the module steps it
executed.
-/

namespace TeeChaincode

open Common

variable {σ : Type}

/-! ## State -/

/-- `wamr_context`. -/
structure WamrContext (σ : Type) where
  wasmBytecode : Bytes
  heapSize : UInt32
  wasmModule : Option (WasmModule σ)
  moduleInst : Option (Instance σ)
  /-- `exec_env` is not NULL. -/
  execEnv : Bool

/-- The zero-filled context. -/
def WamrContext.zero : WamrContext σ := ⟨[], 0, none, none, false⟩

/-- The TA. `panicked` says that it has handed a NULL instance to WAMR and
not come back; it then answers no further command of its session. -/
structure Ta (σ : Type) where
  heapSize : UInt32
  /-- `g_chaincode_sess`. -/
  sess : Option Session
  /-- The static `runtime_ctx` of `TA_InvokeCommandEntryPoint`. -/
  runtimeCtx : WamrContext σ
  panicked : Bool

/-- A TA instance before any session: zero-initialised globals. -/
def Ta.created : Ta σ := ⟨0, none, .zero, false⟩

/-- The WAMR loader: the module a bytecode holds, if it is one. -/
abbrev Loader (σ : Type) := Bytes → Option (WasmModule σ)

/-- Which allocations and WAMR calls of one command succeed. -/
structure Env where
  heapMalloc : Bool
  wasmMalloc : Bool
  fullInit : Bool
  load : Bool
  instantiate : Bool
  /-- `wasm_runtime_create_exec_env` for `step_init`. -/
  execEnvInit : Bool
  /-- `wasm_runtime_create_exec_env` for `step_resume`. -/
  execEnv : Bool
deriving DecidableEq, Repr

/-- Everything succeeds. -/
def Env.ok : Env := ⟨true, true, true, true, true, true, true⟩

/-! ## Parameters -/

/-- The parameter types the code distinguishes. -/
inductive ParamType
  | none
  | valueInput
  | valueInout
  | memrefInput
  | memrefInout
deriving DecidableEq, Repr

/-- A memory reference: its size, and the bytes mapped from its pointer
on, of which the first `size` belong to it. -/
structure Memref where
  buffer : Bytes
  size : ℕ
deriving DecidableEq, Repr

/-- The parameters of a command. `params[3]` is WAMR's stdout capture and
is read by nothing here. -/
structure Params where
  types : List ParamType
  /-- `params[0].value.a`. -/
  value0 : UInt32
  /-- `params[0].memref`. -/
  memref0 : Bytes
  /-- `params[1].value.a`. -/
  value1 : UInt32
  /-- `params[2].memref`. -/
  memref2 : Memref
deriving DecidableEq, Repr

namespace Params

/-- Answer with a final response: the code, and the text in a cleared
`invocation_response`. -/
def respond (p : Params) (text : Bytes) : Params :=
  { p with
    value1 := invocationResponse
    memref2.buffer := memMove (memFill p.memref2.buffer 0 responseSize 0) 0 text }

/-- Answer with a GET request: the key in a cleared `key_value`. -/
def requestGet (p : Params) (key : Bytes) : Params :=
  { p with
    value1 := getStateRequest
    memref2.buffer := memMove (memFill p.memref2.buffer 0 sizeofKeyValue 0) 0 key }

/-- Answer with a PUT request: key and value in a cleared `key_value`. -/
def requestPut (p : Params) (key value : Bytes) : Params :=
  { p with
    value1 := putStateRequest
    memref2.buffer :=
      memMove (memMove (memFill p.memref2.buffer 0 sizeofKeyValue 0) 0 key) keySize value }

end Params

/-! ## Steps -/

/-- How a step ended. -/
inductive StepEnd
  | returned
  | trapped (ex : Option Bytes)
  | notFound
  | noExecEnv
deriving DecidableEq, Repr

/-- A step the TA called, with the native calls it made. -/
structure StepTrace (σ : Type) where
  name : StepName
  ended : StepEnd
  calls : List (NativeCall × Instance σ)

/-- `strstr`. -/
def strstr (s needle : Bytes) : Bool := s.tails.any fun t => needle.isPrefixOf t

/-- The exceptions `call_step` takes for intended ones. -/
def intended (ex : Bytes) : Bool :=
  strstr ex (ascii "out of bounds") || strstr ex (ascii "null pointer")

/-- What `call_step` leaves behind. -/
structure StepResult (σ : Type) where
  ok : Bool
  ctx : WamrContext σ
  sess : Session
  trace : StepTrace σ

/-- `call_step`. `none` where `module_inst` is NULL: it is handed to WAMR,
and what WAMR does with it is not decided here. An exception is cleared
before the call and after it, so none outlives a step. -/
def callStep (ctx : WamrContext σ) (name : StepName) (execEnvOk : Bool) (s : Session) :
    Option (StepResult σ) :=
  match ctx.wasmModule, ctx.moduleInst with
  | some M, some inst =>
    match M.export? name with
    | none => some ⟨false, ctx, s, ⟨name, .notFound, []⟩⟩
    | some fn =>
      if ctx.execEnv = false ∧ execEnvOk = false then
        some ⟨false, ctx, s, ⟨name, .noExecEnv, []⟩⟩
      else
        let r := (fn inst).exec natives s
        match r.out with
        | .ok () =>
          some ⟨true, { ctx with moduleInst := some r.guest, execEnv := false }, r.host,
            ⟨name, .returned, r.calls⟩⟩
        | .error ex =>
          -- an intended exception turns the failed call into a success
          let ok := (ex.map intended).getD false
          some ⟨ok, { ctx with moduleInst := some r.guest, execEnv := !ok }, r.host,
            ⟨name, .trapped ex, r.calls⟩⟩
  | _, _ => none

/-! ## Commands -/

/-- The answer to a command. -/
structure Reply (σ : Type) where
  result : TeeResult
  params : Params
  ta : Ta σ
  steps : List (StepTrace σ)

/-- What stands for the answer to a command that hands WAMR a NULL
instance. The source does not say what comes of it, so nothing may be made
of this answer: it is no error the TA returns. -/
def Ta.panic (ta : Ta σ) (p : Params) (steps : List (StepTrace σ)) : Reply σ :=
  ⟨.targetDead, p, { ta with panicked := true }, steps⟩

/-- The text of a final answer. -/
def finalResponse (s : Session) : Bytes :=
  if s.hasResponse then
    let respLen := safeStrlen s.response.bytes (responseSize - 1)
    if 0 < respLen then s.response.bytes.take respLen else ascii "EMPTY_RESPONSE"
  else ascii "NO_RESPONSE"

/-- What `process_hostcall_flow` writes to the parameters behind a step
that succeeded: the pending request, or the final answer. -/
def drain (s : Session) (p : Params) : Params :=
  let key := s.key.bytes.take (safeStrlen s.key.bytes (keySize - 1))
  let value := s.value.bytes.take (safeStrlen s.value.bytes (valSize - 1))
  match s.pendingType with
  | .getState => p.requestGet key
  | .putState => p.requestPut key value
  | .none => p.respond (finalResponse s)

/-- `process_hostcall_flow`. -/
def processHostcallFlow (ta : Ta σ) (s : Session) (p : Params) (env : Env) : Reply σ :=
  match callStep ta.runtimeCtx .stepResume env.execEnv s with
  | none => ({ ta with sess := some s }).panic p []
  | some r =>
    let ta' := { ta with sess := some r.sess, runtimeCtx := r.ctx }
    if r.ok then ⟨.success, drain r.sess p, ta', [r.trace]⟩
    else ⟨.success, p.respond (ascii "RUNTIME_ERROR"), ta', [r.trace]⟩

/-- `TA_InitializeWamrRuntime`. -/
def initializeWamrRuntime (load : Loader σ) (ctx : WamrContext σ) (env : Env) :
    TeeResult × WamrContext σ :=
  if env.fullInit = false then (.generic, ctx)
  else
    match (if env.load then load ctx.wasmBytecode else none) with
    | none => (.generic, { ctx with wasmModule := none })
    | some M =>
      if env.instantiate then
        (.success, { ctx with wasmModule := some M, moduleInst := some M.initial })
      else (.generic, { ctx with wasmModule := some M, moduleInst := none })

/-- COMMAND_RUN_WASM behind the set-up of its runtime: `step_init`, and the
host calls behind it. -/
def Ta.firstSteps (ta : Ta σ) (ctx : WamrContext σ) (s : Session) (p : Params) (env : Env) :
    Reply σ :=
  match callStep ctx .stepInit env.execEnvInit s with
  | none => ({ ta with sess := some s, runtimeCtx := ctx }).panic p []
  | some st =>
    let ta' := { ta with sess := some st.sess, runtimeCtx := st.ctx }
    if st.ok then
      let rep := processHostcallFlow ta' st.sess p env
      { rep with steps := st.trace :: rep.steps }
    else ⟨.generic, p.respond (ascii "STEP_INIT_FAILED" ++ [0]), ta', [st.trace]⟩

/-- The argument table RUN_WASM takes from `params[2]`. -/
def argsOf (p : Params) : Buf sizeofArguments :=
  if sizeofArguments ≤ p.memref2.size then Buf.load _ p.memref2.buffer else Buf.load _ []

/-- COMMAND_RUN_WASM. -/
def runWasm (load : Loader σ) (ta : Ta σ) (p : Params) (env : Env) : Reply σ :=
  match ta.sess with
  | none => ⟨.generic, p, ta, []⟩
  | some s =>
    let s := { s with
      args := argsOf p
      heapBufOwned := env.heapMalloc
      trustedWasmOwned := env.wasmMalloc }
    let p := { p with value1 := 0 }
    if env.heapMalloc = false ∨ env.wasmMalloc = false then
      ⟨.outOfMemory, p, { ta with sess := some s }, []⟩
    else
      let ctx : WamrContext σ :=
        { WamrContext.zero with wasmBytecode := p.memref0, heapSize := ta.heapSize }
      let (r, ctx) := initializeWamrRuntime load ctx env
      -- `sc->runtime` may already point to `runtime_ctx` when this fails
      if r ≠ .success then ⟨r, p, { ta with sess := some s, runtimeCtx := ctx }, []⟩
      else
        let s := { s with runtime := true }
        if ctx.moduleInst.isNone then
          ⟨.generic, p, { ta with sess := some s, runtimeCtx := ctx }, []⟩
        else ta.firstSteps ctx s p env

/-- `(size_t)len - 1`. -/
def sizeTPred (len : Int32) : ℕ := ((len.toInt - 1) % 2 ^ 64).toNat

/-- The reply to a GET request, copied into the module's buffer: the
value in the shared `key_value`, where the range the module gave still
checks out and the value is not empty. -/
def copyReply (s : Session) (buf : Bytes) (m : Memory) : Memory :=
  let value := buf.drop keySize
  let len := safeStrlen value (sizeTPred s.wasmOutLen)
  let out :=
    if s.wasmOutOffset ≠ 0 ∧ 0 < s.wasmOutLen.toInt ∧
        validateAppAddr m s.wasmOutOffset s.wasmOutLen.toUInt32 = true then
      addrAppToNative m s.wasmOutOffset
    else none
  match out with
  | some o =>
    if 0 < len then (m.fill o s.wasmOutLen.toInt.toNat 0).write o (value.take len) else m
  | none => m

/-- COMMAND_RESUME_WASM. -/
def resumeWasm (ta : Ta σ) (p : Params) (env : Env) : Reply σ :=
  match ta.sess with
  | none => ⟨.generic, p, ta, []⟩
  | some s =>
    if s.runtime = false then ⟨.generic, p, ta, []⟩
    else
      match s.pendingType with
      | .getState =>
        match ta.runtimeCtx.moduleInst with
        | none =>
          -- the range check hands it to WAMR, or else the step does
          ta.panic p []
        | some inst =>
          let inst' := { inst with mem := copyReply s p.memref2.buffer inst.mem }
          let s' := { s with pendingType := .none, wasmOutOffset := 0, wasmOutLen := 0 }
          processHostcallFlow
            { ta with
              sess := some s'
              runtimeCtx := { ta.runtimeCtx with moduleInst := some inst' } } s' p env
      | .putState =>
        let s' := { s with pendingType := .none }
        processHostcallFlow { ta with sess := some s' } s' p env
      | .none => processHostcallFlow ta s p env

/-- COMMAND_CONFIGURE_HEAP. -/
def configureHeap (ta : Ta σ) (p : Params) : Reply σ :=
  ⟨.success, p, { ta with heapSize := p.value0 }, []⟩

/-- `TA_OpenSessionEntryPoint`. -/
def openSessionEntryPoint (ta : Ta σ) (types : List ParamType) (mallocOk : Bool) :
    TeeResult × Ta σ :=
  if types ≠ [.none, .none, .none, .none] then (.badParameters, ta)
  else
  match ta.sess with
  | some _ => (.success, ta)
  | none => if mallocOk then (.success, { ta with sess := some Session.zero })
    else (.outOfMemory, ta)

/-- The commands of `wamr_ta.h`. -/
inductive Command
  | runWasm
  | configureHeap
  | resumeWasm
deriving DecidableEq, Repr

/-- The parameter types a command expects. -/
def Command.paramTypes : Command → List ParamType
  | .configureHeap => [.valueInput, .none, .none, .none]
  | .runWasm => [.memrefInput, .valueInout, .memrefInout, .memrefInout]
  | .resumeWasm => [.none, .valueInout, .memrefInout, .memrefInout]

/-- `TA_InvokeCommandEntryPoint`. -/
def invokeCommandEntryPoint (load : Loader σ) (ta : Ta σ) (cmd : Command) (p : Params)
    (env : Env) : Reply σ :=
  if ta.panicked then ⟨.targetDead, p, ta, []⟩
  else if p.types ≠ cmd.paramTypes then ⟨.badParameters, p, ta, []⟩
  else
    match cmd with
    | .configureHeap => configureHeap ta p
    | .runWasm => runWasm load ta p env
    | .resumeWasm => resumeWasm ta p env

end TeeChaincode
