import TeeChaincode.Ta.Natives

/-!
# What a command answers

A command that succeeds leaves one of three answers in the parameters: a
GET request, a PUT request or a final response. `Ask` is that answer
before it is laid out in the shared buffer, and `asked` the one a session
calls for. The specifications of the two commands are stated over it, for
a module whose steps return.
-/

namespace TeeChaincode

open Common

variable {σ : Type}

/-! ## Answers -/

/-- What the TA asks its client for, or answers. -/
inductive Ask
  | get (key : Bytes)
  | put (key value : Bytes)
  | answer (text : Bytes)
deriving DecidableEq, Repr

/-- The code an answer carries in `params[1].value.a`. -/
def Ask.code : Ask → UInt32
  | .get _ => getStateRequest
  | .put _ _ => putStateRequest
  | .answer _ => invocationResponse

/-- The parameters with an answer laid out in them. -/
def Params.ask (p : Params) : Ask → Params
  | .get key => p.requestGet key
  | .put key value => p.requestPut key value
  | .answer text => p.respond text

@[simp] theorem Params.ask_value1 (p : Params) (a : Ask) : (p.ask a).value1 = a.code := by
  cases a <;> rfl

/-- The strings of an answer are C strings that leave room for a NUL in
the fields they go to. -/
def Ask.Fits : Ask → Prop
  | .get key => (0 : UInt8) ∉ key ∧ key.length < keySize
  | .put key value =>
    ((0 : UInt8) ∉ key ∧ key.length < keySize) ∧ (0 : UInt8) ∉ value ∧ value.length < valSize
  | .answer text => (0 : UInt8) ∉ text ∧ text.length < responseSize

/-- The answer a session calls for behind a step. -/
def asked (s : Session) : Ask :=
  match s.pendingType with
  | .getState => .get (clip 63 s.key.bytes)
  | .putState => .put (clip 63 s.key.bytes) (clip 255 s.value.bytes)
  | .none => .answer (finalResponse s)

/-- The final answer is the response as a C string, with a text of its
own where there is none or it is empty. -/
theorem finalResponse_eq (s : Session) : finalResponse s =
    if s.hasResponse then
      if clip 255 s.response.bytes = [] then ascii "EMPTY_RESPONSE" else clip 255 s.response.bytes
    else ascii "NO_RESPONSE" := by
  have hlen := boundedLen_eq s.response.bytes (responseSize - 1)
  simp only [finalResponse, safeStrlen, take_boundedLen, show responseSize - 1 = 255 from rfl] at *
  rw [hlen]
  by_cases hn : clip 255 s.response.bytes = []
  · simp only [hn, List.length_nil, lt_irrefl, if_true, if_false]
  · simp only [hn, List.length_pos_iff.2 hn, if_true, if_false]

/-- **`process_hostcall_flow` lays out the answer the session calls
for.** -/
theorem drain_eq (s : Session) (p : Params) : drain s p = p.ask (asked s) := by
  rw [drain, asked]
  cases s.pendingType <;>
    simp only [safeStrlen, take_boundedLen, show keySize - 1 = 63 from rfl,
      show valSize - 1 = 255 from rfl, Params.ask]

theorem clip_fits (n : ℕ) (b : Bytes) : (0 : UInt8) ∉ clip n b ∧ (clip n b).length < n + 1 :=
  ⟨zero_notMem_clip n b, Nat.lt_succ_of_le (length_clip_le n b)⟩

/-- What a session calls for fits the buffer. -/
theorem asked_fits (s : Session) : (asked s).Fits := by
  rw [asked]
  cases s.pendingType with
  | getState => exact clip_fits 63 _
  | putState => exact ⟨clip_fits 63 _, clip_fits 255 _⟩
  | none =>
    show (0 : UInt8) ∉ finalResponse s ∧ (finalResponse s).length < 255 + 1
    rw [finalResponse_eq]
    split
    · split
      · decide
      · exact clip_fits 255 _
    · decide

/-! ## Steps that return -/

/-- Everything of a RUN_WASM up to `step_resume` succeeds. -/
structure Env.Starts (env : Env) : Prop where
  heapMalloc : env.heapMalloc = true
  wasmMalloc : env.wasmMalloc = true
  fullInit : env.fullInit = true
  load : env.load = true
  instantiate : env.instantiate = true
  execEnvInit : env.execEnvInit = true

variable {ta : Ta σ} {s : Session} {p : Params} {env : Env} {M : WasmModule σ} {inst : Instance σ}
variable {fn : WasmCode σ Unit}

/-- A step that returns. -/
theorem callStep_of_returned {ctx : WamrContext σ} {name : StepName} {execEnvOk : Bool}
    (hM : ctx.wasmModule = some M) (hi : ctx.moduleInst = some inst)
    (hf : M.export? name = some fn) (he : ctx.execEnv = true ∨ execEnvOk = true)
    (hr : ((fn inst).exec natives s).out = .ok ()) :
    callStep ctx name execEnvOk s = some ⟨true,
      { ctx with moduleInst := some ((fn inst).exec natives s).guest, execEnv := false },
      ((fn inst).exec natives s).host,
      ⟨name, .returned, ((fn inst).exec natives s).calls⟩⟩ := by
  have hne : ¬ (ctx.execEnv = false ∧ execEnvOk = false) := by
    rintro ⟨h1, h2⟩
    rcases he with he | he <;> simp_all
  simp only [callStep, hM, hi, hf, if_neg hne, hr]

/-- The TA behind a step of the module that returned. -/
def Ta.stepped (ta : Ta σ) (s : Session) (inst : Instance σ) : Ta σ :=
  { ta with
    sess := some s
    runtimeCtx := { ta.runtimeCtx with moduleInst := some inst, execEnv := false } }

/-- **`process_hostcall_flow` over a step that returns** answers what the
session behind the step calls for. -/
theorem processHostcallFlow_of_returned (p : Params) (fn : WasmCode σ Unit)
    (hM : ta.runtimeCtx.wasmModule = some M) (hi : ta.runtimeCtx.moduleInst = some inst)
    (hf : M.export? .stepResume = some fn)
    (he : ta.runtimeCtx.execEnv = true ∨ env.execEnv = true)
    (hr : ((fn inst).exec natives s).out = .ok ()) :
    processHostcallFlow ta s p env = ⟨.success,
      p.ask (asked ((fn inst).exec natives s).host),
      ta.stepped ((fn inst).exec natives s).host ((fn inst).exec natives s).guest,
      [⟨.stepResume, .returned, ((fn inst).exec natives s).calls⟩]⟩ := by
  simp only [processHostcallFlow, callStep_of_returned hM hi hf he hr, if_true, drain_eq]
  rfl

/-- Where no execution environment can be made, the answer is an error
text and no step runs. -/
theorem processHostcallFlow_of_noExecEnv (ta : Ta σ) (fn : WasmCode σ Unit)
    (hM : ta.runtimeCtx.wasmModule = some M) (hi : ta.runtimeCtx.moduleInst = some inst)
    (hf : M.export? .stepResume = some fn)
    (he : ta.runtimeCtx.execEnv = false) (hx : env.execEnv = false) :
    processHostcallFlow ta s p env = ⟨.success, p.ask (.answer (ascii "RUNTIME_ERROR")),
      { ta with sess := some s }, [⟨.stepResume, .noExecEnv, []⟩]⟩ := by
  simp only [processHostcallFlow, callStep, hM, hi, hf, he, hx, and_self, if_true]
  rfl

/-! ## Sessions with a module -/

/-- A session with a module instance, in which RESUME_WASM is not
refused. -/
structure Ta.Live (ta : Ta σ) : Prop where
  alive : ta.panicked = false
  session : ∃ s, ta.sess = some s ∧ s.runtime = true
  wasmModule : ∃ M, ta.runtimeCtx.wasmModule = some M
  moduleInst : ∃ inst, ta.runtimeCtx.moduleInst = some inst

/-- `call_step` needs a module and an instance of it. -/
theorem callStep_isSome {ctx : WamrContext σ} (name : StepName) (execEnvOk : Bool) (s : Session)
    (hM : ctx.wasmModule = some M) (hi : ctx.moduleInst = some inst) :
    ∃ r, callStep ctx name execEnvOk s = some r := by
  simp only [callStep, hM, hi]
  repeat' split
  all_goals exact ⟨_, rfl⟩

theorem processHostcallFlow_result (ta : Ta σ) (hM : ta.runtimeCtx.wasmModule = some M)
    (hi : ta.runtimeCtx.moduleInst = some inst) :
    (processHostcallFlow ta s p env).result = .success := by
  obtain ⟨r, hr⟩ := callStep_isSome .stepResume env.execEnv s hM hi
  simp only [processHostcallFlow, hr]
  split <;> rfl

/-- **RESUME_WASM is accepted in every live session**, whether a request
is pending or not. -/
theorem Ta.Live.resumeWasm_result (h : ta.Live) : (resumeWasm ta p env).result = .success := by
  obtain ⟨-, ⟨s, hs, hrt⟩, ⟨M, hM⟩, ⟨inst, hi⟩⟩ := h
  have hne : ¬ s.runtime = false := by rw [hrt]; decide
  simp only [resumeWasm, hs, if_neg hne, hi]
  split
  · exact processHostcallFlow_result { ta with sess := _, runtimeCtx :=
      { ta.runtimeCtx with moduleInst := _ } } hM rfl
  · exact processHostcallFlow_result { ta with sess := _ } hM hi
  · exact processHostcallFlow_result ta hM hi

/-! ## Where the steps of a command start -/

/-- The session a RUN_WASM starts its module in. -/
def Session.launched (s : Session) (p : Params) : Session :=
  { s with
    args := argsOf p
    heapBufOwned := true
    trustedWasmOwned := true
    runtime := true }

/-- The context a RUN_WASM sets up for its module. -/
def WamrContext.launched (ta : Ta σ) (p : Params) (M : WasmModule σ) : WamrContext σ :=
  ⟨p.memref0, ta.heapSize, some M, some M.initial, false⟩

/-- The session the step of a RESUME_WASM starts in. -/
def Session.drained (s : Session) : Session :=
  match s.pendingType with
  | .getState => { s with pendingType := .none, wasmOutOffset := 0, wasmOutLen := 0 }
  | .putState => { s with pendingType := .none }
  | .none => s

/-- The session the steps of a command start in. -/
def Command.entry (p : Params) (s : Session) : Command → Session
  | .configureHeap => s
  | .runWasm => s.launched p
  | .resumeWasm => s.drained

section Drained

variable (s)

@[simp] theorem Session.drained_pendingType : s.drained.pendingType = .none := by
  rw [drained]
  split <;> first | rfl | assumption

@[simp] theorem Session.drained_args : s.drained.args = s.args := by
  rw [drained]
  split <;> rfl

@[simp] theorem Session.drained_runtime : s.drained.runtime = s.runtime := by
  rw [drained]
  split <;> rfl

@[simp] theorem Session.drained_hasResponse : s.drained.hasResponse = s.hasResponse := by
  rw [drained]
  split <;> rfl

end Drained

/-! ## Modules given by their calls -/

/-- What a step of a scripted module does: its native calls, and the
exception it traps with behind them, if it does. -/
structure Script where
  calls : List NativeCall
  trap : Option Bytes

/-- The unit of a linear memory. -/
abbrev wasmPage : ℕ := 65536

/-- A module whose `step_init` returns and whose `n`-th `step_resume`
follows the `n`-th script, on a page of memory that holds a text. -/
def scripted (text : Bytes) (script : ℕ → Script) : WasmModule ℕ where
  export?
    | .stepInit => some (pure ())
    | .stepResume => some (do
      let g ← GuestM.get
      GuestM.modify fun g => { g with globals := g.globals + 1 }
      for c in (script g.globals).calls do
        discard (GuestM.call c)
      match (script g.globals).trap with
      | some ex => GuestM.trap (some ex)
      | none => pure ())
  initial := ⟨0, ⟨wasmPage, fun i => text.getD i 0⟩⟩

/-! ## Sequences of commands -/

/-- The parameters of the two commands, with `params[2]` given. -/
def runWith (wasm : Bytes) (m : Memref) : Params :=
  ⟨Command.runWasm.paramTypes, 0, wasm, 0, m⟩

def resumeWith (m : Memref) : Params := ⟨Command.resumeWasm.paramTypes, 0, [], 0, m⟩

/-- The parameters of CONFIGURE_HEAP. -/
def configureWith (size : UInt32) : Params :=
  ⟨Command.configureHeap.paramTypes, size, [], 0, ⟨[], 0⟩⟩

/-- A session just opened, its heap configured. -/
def openedTa (heapSize : UInt32) : Ta σ := ⟨heapSize, some Session.zero, .zero, false⟩

/-- The heap the proxy configures. -/
abbrev proxyHeap : UInt32 := 10 * 1024 * 1024

/-- A module binary without a section: the magic number and the version. -/
def smallestWasm : Bytes := [0] ++ ascii "asm" ++ [1, 0, 0, 0]

/-- A buffer of 640 zeros, as the proxy allocates it. -/
def wholeBuffer : Memref := ⟨List.replicate 640 0, 640⟩

/-- A command of a client, and what allocations and WAMR come to in it. -/
structure Issued where
  cmd : Command
  params : Params
  env : Env

/-- What the client gets back of a command, and the TA behind it. -/
def Ta.issue (load : Loader σ) (ta : Ta σ) (c : Issued) : (TeeResult × Params) × Ta σ :=
  let r := invokeCommandEntryPoint load ta c.cmd c.params c.env
  ((r.result, r.params), r.ta)

/-- The replies to a sequence of RESUME_WASM commands. -/
def resumeAll (load : Loader σ) : Ta σ → List (Memref × Env) → List (Reply σ)
  | _, [] => []
  | ta, (m, env) :: rest =>
    let r := invokeCommandEntryPoint load ta .resumeWasm (resumeWith m) env
    r :: resumeAll load r.ta rest

/-! ## Commands that are turned down -/

/-- What the entry point does with a command it does not turn down. -/
def perform (load : Loader σ) (ta : Ta σ) (p : Params) (env : Env) : Command → Reply σ
  | .configureHeap => configureHeap ta p
  | .runWasm => runWasm load ta p env
  | .resumeWasm => resumeWasm ta p env

/-- **A command of the right types reaches a TA that has not panicked.** -/
theorem invoke_eq (load : Loader σ) {cmd : Command} (hp : ta.panicked = false)
    (ht : p.types = cmd.paramTypes) (env : Env) :
    invokeCommandEntryPoint load ta cmd p env = perform load ta p env cmd := by
  unfold invokeCommandEntryPoint
  rw [hp, if_neg (by decide), if_neg (not_not.2 ht)]
  cases cmd <;> rfl

/-- A command whose types are not the expected ones is turned down. -/
theorem invoke_malformed (load : Loader σ) {cmd : Command} (hp : ta.panicked = false)
    (ht : p.types ≠ cmd.paramTypes) (env : Env) :
    invokeCommandEntryPoint load ta cmd p env = ⟨.badParameters, p, ta, []⟩ := by
  unfold invokeCommandEntryPoint
  rw [hp, if_neg (by decide), if_pos ht]

/-- A TA that has not come back from WAMR takes no command. -/
theorem invoke_panicked (load : Loader σ) (cmd : Command) (hp : ta.panicked = true) (p : Params)
    (env : Env) : invokeCommandEntryPoint load ta cmd p env = ⟨.targetDead, p, ta, []⟩ :=
  if_pos hp

/-- Any other command fails, and changes nothing. -/
theorem invoke_cases (load : Loader σ) (ta : Ta σ) (cmd : Command) (p : Params) (env : Env) :
    (∃ res, res ≠ .success ∧ invokeCommandEntryPoint load ta cmd p env = ⟨res, p, ta, []⟩) ∨
      ta.panicked = false ∧ p.types = cmd.paramTypes ∧
        invokeCommandEntryPoint load ta cmd p env = perform load ta p env cmd := by
  by_cases hp : ta.panicked = true
  · exact .inl ⟨.targetDead, by decide, invoke_panicked load cmd hp p env⟩
  rw [Bool.not_eq_true] at hp
  by_cases ht : p.types = cmd.paramTypes
  · exact .inr ⟨hp, ht, invoke_eq load hp ht env⟩
  · exact .inl ⟨.badParameters, by decide, invoke_malformed load hp ht env⟩

/-! ## The reply to a GET request -/

/-- **The reply is copied where there is one**: the range the request
gave holds the cut value, and stays as it was for an empty value. -/
theorem copyReply_eq {m : Memory} (buf : Bytes) (h0 : s.wasmOutOffset ≠ 0)
    (hl : 0 < s.wasmOutLen.toInt)
    (hin : s.wasmOutOffset.toNat + s.wasmOutLen.toInt.toNat ≤ m.size) :
    copyReply s buf m =
      if clip (s.wasmOutLen.toInt.toNat - 1) (buf.drop keySize) = [] then m
      else (m.fill s.wasmOutOffset.toNat s.wasmOutLen.toInt.toNat 0).write s.wasmOutOffset.toNat
        (clip (s.wasmOutLen.toInt.toNat - 1) (buf.drop keySize)) := by
  have hpred : sizeTPred s.wasmOutLen = s.wasmOutLen.toInt.toNat - 1 := by
    have hlt := s.wasmOutLen.toInt_lt
    rw [sizeTPred]
    omega
  have hv : validateAppAddr m s.wasmOutOffset s.wasmOutLen.toUInt32 = true := by
    simpa [validateAppAddr, toUInt32_toNat (le_of_lt hl)] using hin
  have ha : addrAppToNative m s.wasmOutOffset = some s.wasmOutOffset.toNat := by
    rw [addrAppToNative, if_pos (by omega)]
  have hlen := boundedLen_eq (buf.drop keySize) (s.wasmOutLen.toInt.toNat - 1)
  simp only [copyReply, safeStrlen, hpred, take_boundedLen]
  rw [if_pos ⟨h0, hl, hv⟩, ha]
  by_cases hn : clip (s.wasmOutLen.toInt.toNat - 1) (buf.drop keySize) = []
  · rw [if_pos hn]
    simp only [hlen, hn, List.length_nil, lt_irrefl, if_false]
  · rw [if_neg hn]
    simp only [hlen, List.length_pos_iff.2 hn, if_true]

end TeeChaincode
