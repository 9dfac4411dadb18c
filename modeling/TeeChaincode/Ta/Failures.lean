import TeeChaincode.Ta.Leftover

/-!
# What a failure leaves behind

Two kinds of failure of the TA. A step that traps fails its command only
where it is a `step_init` and its exception is none of the intended ones;
every other trap is answered, with the request or the response on record
or with an error text. And a RUN_WASM that fails leaves `sc->runtime` as
it finds it, or sets it before `step_init` fails. A RESUME_WASM behind it
checks that pointer alone: it is refused exactly where no runtime was set
before and the RUN_WASM could not initialise its own. Where one was set
and the RUN_WASM has replaced the context it points to by one without an
instance, RESUME_WASM hands WAMR a NULL, which is no refusal.
-/

namespace TeeChaincode

open Common

variable {σ : Type}

/-! ## Steps that trap -/

/-- A command executes nothing, or what its module does. -/
theorem command_executed (load : Loader σ) (ta : Ta σ) (cmd : Command) (p : Params) (env : Env) :
    (invokeCommandEntryPoint load ta cmd p env).steps = [] ∨
      ∃ s₀ p', Executed s₀ p' (invokeCommandEntryPoint load ta cmd p env) := by
  rcases invoke_cases load ta cmd p env with ⟨res, -, hinv⟩ | ⟨-, -, hinv⟩
  · rw [hinv]
    exact .inl rfl
  rw [hinv]
  cases cmd with
  | configureHeap => exact .inl rfl
  | runWasm =>
    cases hs : ta.sess with
    | none =>
      left
      simp only [perform, runWasm, hs]
    | some s => exact .inr ⟨_, _, runWasm_executed load p env hs⟩
  | resumeWasm =>
    obtain ⟨s₀, -, hex⟩ := resumeWasm_executed ta p env
    exact .inr ⟨s₀, p, hex⟩

/-- **A command that fails**: the proxy gets neither a request nor a
response to send on, and ends the call in an error. -/
structure Reply.Fails (r : Reply σ) : Prop where
  request : ∀ kind m, dispatchReply r.tee ≠ .writeRequest kind m
  response : ∀ m, dispatchReply r.tee ≠ .writeResponse m
  failed : dispatchReply r.tee = .restart false

theorem Reply.fails_of_result {r : Reply σ} (h : r.result ≠ .success) : r.Fails := by
  have hd : dispatchReply r.tee = .restart false := if_pos h
  exact ⟨fun _ _ he => (by rw [hd] at he; cases he), fun _ he => (by rw [hd] at he; cases he), hd⟩

/-- **A step that traps fails its command** if and only if it is a
`step_init`, and the exception is not one of those `call_step` takes for
intended. This holds in every state of the TA, for every command and
every module. -/
theorem trap_fails_iff (load : Loader σ) (ta : Ta σ) (cmd : Command) (p : Params) (env : Env)
    {tr : StepTrace σ} (htr : tr ∈ (invokeCommandEntryPoint load ta cmd p env).steps)
    {ex : Option Bytes} (hex : tr.ended = .trapped ex) :
    (invokeCommandEntryPoint load ta cmd p env).Fails ↔
      tr.name = .stepInit ∧ (ex.map intended).getD false = false := by
  have hok : tr.ended.ok = (ex.map intended).getD false := by rw [hex]; rfl
  rcases command_executed load ta cmd p env with hnil | ⟨s₀, p', hexec⟩
  · rw [hnil] at htr
    cases htr
  rw [← hok]
  cases hexec with
  | failed hres hsteps => exact ⟨fun _ => hsteps tr htr, fun _ => Reply.fails_of_result hres⟩
  | answered init last hres hsteps hinit hlast _ _ hparams =>
    constructor
    · intro hfails
      -- the command is answered, so the proxy goes on
      have hgo := dispatchReply_of_params hres hparams (fits_answer _ last)
      rw [hfails.failed] at hgo
      generalize (if last.ended.ok then _ else _ : Ask) = a at hgo
      cases a <;> cases hgo
    · rintro ⟨hname, hfail⟩
      rw [hsteps, List.mem_append, List.mem_singleton] at htr
      rcases htr with hi | rfl
      · rw [(hinit tr hi).2] at hfail
        cases hfail
      · rw [hlast] at hname
        cases hname

/-- A module whose `step_init` traps. -/
def trapsAtInit (ex : Bytes) : WasmModule ℕ where
  export?
    | .stepInit => some (GuestM.trap (some ex))
    | .stepResume => some (pure ())
  initial := ⟨0, ⟨0, fun _ => 0⟩⟩

/-- The reply to a RUN_WASM of a module on a session just opened. -/
def firstReply (M : WasmModule ℕ) : Reply ℕ := runOn M (openedTa proxyHeap)

/-- The exception of WAMR for an `unreachable`. -/
def unreachable : Bytes := ascii "Exception: unreachable"

theorem trap_fails_iff_unreachable :
    ∃ tr ∈ (firstReply (trapsAtInit unreachable)).steps,
      tr.ended = .trapped (some unreachable) ∧ (firstReply (trapsAtInit unreachable)).Fails := by
  have hmem : (⟨.stepInit, .trapped (some unreachable), []⟩ : StepTrace ℕ) ∈
      (firstReply (trapsAtInit unreachable)).steps := List.mem_cons_self
  exact ⟨_, hmem, rfl, (trap_fails_iff _ _ _ _ _ hmem rfl).2 ⟨rfl, by decide +kernel⟩⟩

/-- A module that asks for a write and traps. -/
def putsAndTraps (ex : Bytes) : WasmModule ℕ :=
  scripted (ascii "ab") fun _ => ⟨[.ccPutState 0 1 1 1], some ex⟩

/-- Behind an access out of bounds the write goes out all the same, and
behind any other trap of a `step_resume` the client gets an answer. -/
theorem trap_is_answered :
    (firstReply (putsAndTraps outOfBounds)).steps.map StepTrace.ended =
        [.returned, .trapped (some outOfBounds)] ∧
      dispatchReply (firstReply (putsAndTraps outOfBounds)).tee =
        .writeRequest .put (.putStateRequest (ascii "a") (ascii "b")) ∧
      dispatchReply (firstReply (putsAndTraps unreachable)).tee =
        .writeResponse (.invocationResponse (ascii "RUNTIME_ERROR")) ∧
      ¬ (firstReply (putsAndTraps outOfBounds)).Fails ∧
      ¬ (firstReply (putsAndTraps unreachable)).Fails := by
  have hput : dispatchReply (firstReply (putsAndTraps outOfBounds)).tee =
      .writeRequest .put (.putStateRequest (ascii "a") (ascii "b")) := by decide +kernel
  have herr : dispatchReply (firstReply (putsAndTraps unreachable)).tee =
      .writeResponse (.invocationResponse (ascii "RUNTIME_ERROR")) := by decide +kernel
  refine ⟨by decide +kernel, hput, herr, ?_, ?_⟩
  · intro h
    exact h.request _ _ hput
  · intro h
    exact h.response _ herr

/-! ## A RUN_WASM that failed -/

/-- A store around `response` leaves the runtime. -/
theorem Session.storeResponse_runtime (s : Session) (n : ℤ) :
    (s.storeResponse n).runtime = s.runtime := by
  unfold storeResponse
  split
  · rfl
  · unfold storeZero
    repeat' split
    all_goals rfl

/-- No native touches the runtime. -/
theorem callNative_runtime (c : NativeCall) (m : Memory) (s : Session) :
    (callNative c m s).sess.runtime = s.runtime := by
  cases c with
  | ccGetState keyPtr keyLen outPtr outLen =>
    simp only [callNative, ccGetStateNative]
    split <;> rfl
  | ccPutState => rfl
  | ccReturnResponse msgPtr msgLen => exact Session.storeResponse_runtime _ _
  | _ => rw [callNative_sess (by exact id)]

theorem Session.runtime_after (s : Session) (calls : List (NativeCall × Instance σ)) :
    (s.after calls).runtime = s.runtime :=
  Guest.hostAfter_invariant (I := fun s' => s'.runtime = s.runtime)
    (fun c _ s' hs => (callNative_runtime c.1 c.2.mem s').trans hs) rfl

variable {ta ta' : Ta σ} {s : Session} {load : Loader σ} {p : Params} {env : Env}

/-- A step that runs has a module and an instance of it. -/
theorem callStep_loaded {ctx : WamrContext σ} {name : StepName} {execEnvOk : Bool}
    {r : StepResult σ} (h : callStep ctx name execEnvOk s = some r) :
    (∃ M, ctx.wasmModule = some M) ∧ ∃ inst, ctx.moduleInst = some inst := by
  obtain ⟨M, inst, hM, hi, -⟩ := callStep_cases h
  exact ⟨⟨M, hM⟩, inst, hi⟩

/-- Behind `process_hostcall_flow` the runtime is as before. It answers,
or there was no instance to call and the TA did not come back from WAMR. -/
theorem processHostcallFlow_runtime (ta : Ta σ) (s : Session) (p : Params) (env : Env) :
    (∃ s', (processHostcallFlow ta s p env).ta.sess = some s' ∧ s'.runtime = s.runtime) ∧
      ((processHostcallFlow ta s p env).result = .success ∨
        (processHostcallFlow ta s p env).ta.panicked = true) := by
  unfold processHostcallFlow
  split
  · exact ⟨⟨s, rfl, rfl⟩, .inr rfl⟩
  next r hr =>
  obtain ⟨-, -, hsess, -⟩ := callStep_stepped hr
  have hrt : r.sess.runtime = s.runtime := by rw [hsess, Session.runtime_after]
  dsimp only
  split <;> exact ⟨⟨_, rfl, hrt⟩, .inl rfl⟩

/-- **A RESUME_WASM where `sc->runtime` is set** is not refused, and leaves
it set. -/
theorem resumeWasm_of_runtime (p : Params) (env : Env) (hs : ta.sess = some s)
    (hrt : s.runtime = true) :
    (∃ s', (resumeWasm ta p env).ta.sess = some s' ∧ s'.runtime = true) ∧
      ((resumeWasm ta p env).result = .success ∨ (resumeWasm ta p env).ta.panicked = true) := by
  have hflow : ∀ (ta₀ : Ta σ) (s₀ : Session), s₀.runtime = true →
      (∃ s', (processHostcallFlow ta₀ s₀ p env).ta.sess = some s' ∧ s'.runtime = true) ∧
        ((processHostcallFlow ta₀ s₀ p env).result = .success ∨
          (processHostcallFlow ta₀ s₀ p env).ta.panicked = true) := by
    intro ta₀ s₀ h₀
    obtain ⟨⟨s', hs', hrt'⟩, hres⟩ := processHostcallFlow_runtime ta₀ s₀ p env
    exact ⟨⟨s', hs', hrt'.trans h₀⟩, hres⟩
  have hne : ¬ s.runtime = false := by rw [hrt]; decide
  unfold resumeWasm
  rw [hs]
  dsimp only
  rw [if_neg hne]
  split
  · split
    · exact ⟨⟨s, hs, hrt⟩, .inr rfl⟩
    · exact hflow _ _ hrt
  · exact hflow _ _ hrt
  · exact hflow _ _ hrt

/-- Where there is no module, or no instance of it, a RESUME_WASM does
not succeed: it is turned down, or WAMR is handed a NULL instance. -/
theorem resume_result_of_not_live (load : Loader σ) (p : Params) (env : Env) (h : ¬ ta.Live) :
    (invokeCommandEntryPoint load ta .resumeWasm p env).result ≠ .success := by
  rcases invoke_cases load ta .resumeWasm p env with ⟨res, hres, hinv⟩ | ⟨halive, -, hinv⟩
  · rw [hinv]
    exact hres
  rw [hinv]
  have hflow : ∀ (ta₀ : Ta σ) (s₀ : Session), ¬ ((∃ M, ta₀.runtimeCtx.wasmModule = some M) ∧
      ∃ inst, ta₀.runtimeCtx.moduleInst = some inst) →
      (processHostcallFlow ta₀ s₀ p env).result ≠ .success := by
    intro ta₀ s₀ h₀
    unfold processHostcallFlow
    split
    · simp [Ta.panic]
    · next r hr => exact absurd (callStep_loaded hr) h₀
  unfold perform resumeWasm
  dsimp only
  split
  · simp
  next s hs =>
  split
  · simp
  next hrt =>
  -- the session is there, so the module or its instance is not
  have hno : ¬ ((∃ M, ta.runtimeCtx.wasmModule = some M) ∧
      ∃ inst, ta.runtimeCtx.moduleInst = some inst) := by
    rintro ⟨hM, hi⟩
    exact h ⟨halive, ⟨s, hs, by simpa using hrt⟩, hM, hi⟩
  split
  · split
    · simp [Ta.panic]
    · next inst hinst => exact hflow _ _ fun hl => hno ⟨hl.1, inst, hinst⟩
  · exact hflow _ _ hno
  · exact hflow _ _ hno

/-! ### What a RUN_WASM does to the runtime -/

/-- A runtime that cannot be initialised has no module instance. -/
theorem initializeWamrRuntime_of_not (ta : Ta σ) (p : Params) (hheap : env.heapMalloc = true)
    (hwasm : env.wasmMalloc = true) (h : ¬ Initialises load p.memref0 env) :
    (initializeWamrRuntime load
        { WamrContext.zero with wasmBytecode := p.memref0, heapSize := ta.heapSize } env).1 =
        .generic ∧
      (initializeWamrRuntime load
        { WamrContext.zero with
          wasmBytecode := p.memref0, heapSize := ta.heapSize } env).2.moduleInst = none := by
  unfold initializeWamrRuntime
  split
  · exact ⟨rfl, rfl⟩
  next hfull =>
  split
  · exact ⟨rfl, rfl⟩
  next M hM =>
  split
  · next hinst =>
    -- everything succeeded
    split at hM
    · next hload =>
      exact absurd ⟨hheap, hwasm, by simpa using hfull, hload, hinst, M, hM⟩ h
    · cases hM
  · exact ⟨rfl, rfl⟩

/-- A RUN_WASM whose runtime cannot be initialised fails, and has
replaced the one before it. -/
theorem runWasm_of_not_initialises (ta : Ta σ) (p : Params) (hs : ta.sess = some s)
    (hheap : env.heapMalloc = true) (hwasm : env.wasmMalloc = true)
    (hi : ¬ Initialises load p.memref0 env) :
    ∃ ctx : WamrContext σ, ctx.moduleInst = none ∧
      runWasm load ta p env = ⟨.generic, { p with value1 := 0 },
        { ta with
          sess := some { s.launched p with runtime := s.runtime }
          runtimeCtx := ctx }, []⟩ := by
  obtain ⟨hres, hinst⟩ := initializeWamrRuntime_of_not ta p hheap hwasm hi
  have halloc : ¬ (env.heapMalloc = false ∨ env.wasmMalloc = false) := by simp [hheap, hwasm]
  refine ⟨_, hinst, ?_⟩
  unfold runWasm
  rw [hs]
  dsimp only
  rw [if_neg halloc, if_pos (by rw [hres]; decide), hres, hheap, hwasm]
  rfl

/-- A RUN_WASM that does not initialise its runtime leaves `sc->runtime`
as it finds it. -/
theorem runWasm_runtime_of_not (hs : ta.sess = some s) (hi : ¬ Initialises load p.memref0 env) :
    ∃ s', (runWasm load ta p env).ta.sess = some s' ∧ s'.runtime = s.runtime ∧
      (runWasm load ta p env).ta.panicked = ta.panicked := by
  by_cases halloc : env.heapMalloc = false ∨ env.wasmMalloc = false
  · unfold runWasm
    rw [hs]
    dsimp only
    rw [if_pos halloc]
    exact ⟨_, rfl, rfl, rfl⟩
  · rw [not_or, Bool.not_eq_false, Bool.not_eq_false] at halloc
    obtain ⟨ctx, -, hrun⟩ := runWasm_of_not_initialises ta p hs halloc.1 halloc.2 hi
    rw [hrun]
    exact ⟨_, rfl, rfl, rfl⟩

/-- One that does sets it, before it calls `step_init`. -/
theorem runWasm_runtime_of_initialises (hs : ta.sess = some s)
    (hi : Initialises load p.memref0 env) :
    ∃ s', (runWasm load ta p env).ta.sess = some s' ∧ s'.runtime = true := by
  obtain ⟨M, hM⟩ := hi.wasmModule
  rw [runWasm_of_initialises hs hi hM, Ta.firstSteps]
  split
  · exact ⟨_, rfl, rfl⟩
  next st hst =>
  obtain ⟨-, -, hsess, -⟩ := callStep_stepped hst
  have hrt : st.sess.runtime = true := by rw [hsess, Session.runtime_after]; rfl
  split
  · obtain ⟨⟨s', hs', hrt'⟩, -⟩ := processHostcallFlow_runtime
      { ta with sess := some st.sess, runtimeCtx := st.ctx } st.sess { p with value1 := 0 } env
    exact ⟨s', hs', hrt'.trans hrt⟩
  · exact ⟨_, rfl, hrt⟩

/-! ### What it leaves to resume -/

/-- **The TA refuses a command**: it answers with an error of its own and
executes no step. A TA that does not come back from WAMR refuses nothing. -/
structure Reply.Refused (r : Reply σ) : Prop where
  result : r.result ≠ .success
  alive : r.ta.panicked = false
  steps : r.steps = []

/-- A RESUME_WASM is refused, whatever its parameters. -/
def Ta.RefusesResume (ta : Ta σ) : Prop :=
  ∀ (load : Loader σ) (p : Params) (env : Env),
    (invokeCommandEntryPoint load ta .resumeWasm p env).Refused

/-- `sc->runtime` is not set. -/
def Ta.NoRuntime (ta : Ta σ) : Prop := ∀ s, ta.sess = some s → s.runtime = false

theorem noRuntime_iff (hs : ta.sess = some s) : ta.NoRuntime ↔ s.runtime = false := by
  refine ⟨fun hno => hno s hs, fun hrt s₀ hs₀ => ?_⟩
  rw [hs] at hs₀
  exact Option.some.inj hs₀ ▸ hrt

theorem not_noRuntime (h : ∃ s, ta.sess = some s ∧ s.runtime = true) : ¬ ta.NoRuntime := by
  obtain ⟨s, hs, hrt⟩ := h
  rw [noRuntime_iff hs, hrt]
  decide

/-- Without a runtime a RESUME_WASM is turned down. -/
theorem resumeWasm_of_noRuntime (p : Params) (env : Env) (h : ta.NoRuntime) :
    resumeWasm ta p env = ⟨.generic, p, ta, []⟩ := by
  unfold resumeWasm
  split
  · rfl
  · next s hs => rw [if_pos (h s hs)]

/-- **Resuming is refused exactly where `sc->runtime` is not set**, which
is the one thing RESUME_WASM checks. -/
theorem refusesResume_iff : ta.RefusesResume ↔ ta.panicked = false ∧ ta.NoRuntime := by
  constructor
  · intro h
    have hr := h (fun _ => none) (resumeWith wholeBuffer) Env.ok
    have halive : ta.panicked = false := by
      by_contra hp
      rw [Bool.not_eq_false] at hp
      rw [invoke_panicked _ _ hp] at hr
      exact absurd hr.alive (by simp [hp])
    refine ⟨halive, fun s hs => ?_⟩
    by_contra hrt
    rw [Bool.not_eq_false] at hrt
    rw [invoke_eq _ halive rfl, perform] at hr
    rcases (resumeWasm_of_runtime (resumeWith wholeBuffer) Env.ok hs hrt).2 with hok | hdead
    · exact hr.result hok
    · have halive' := hr.alive
      rw [hdead] at halive'
      cases halive'
  · rintro ⟨halive, hno⟩ load p env
    rcases invoke_cases load ta .resumeWasm p env with ⟨res, hres, hinv⟩ | ⟨-, -, hinv⟩
    · rw [hinv]
      exact ⟨hres, halive, rfl⟩
    · rw [hinv, perform, resumeWasm_of_noRuntime p env hno]
      exact ⟨by simp, halive, rfl⟩

/-- **The condition**: the session had no runtime set, and the RUN_WASM
does not get to set one, for its parameter types, for want of memory, or
because the runtime cannot be initialised. -/
def Clears (load : Loader σ) (ta : Ta σ) (p : Params) (env : Env) : Prop :=
  ta.NoRuntime ∧ ¬ (p.types = Command.runWasm.paramTypes ∧ Initialises load p.memref0 env)

/-- Whether the runtime is set behind a RUN_WASM. -/
theorem run_noRuntime_iff (hs : ta.sess = some s) (halive : ta.panicked = false) :
    (invokeCommandEntryPoint load ta .runWasm p env).ta.NoRuntime ↔ Clears load ta p env := by
  by_cases htypes : p.types = Command.runWasm.paramTypes
  · rw [invoke_eq load halive htypes, perform]
    by_cases hi : Initialises load p.memref0 env
    · refine iff_of_false (not_noRuntime (runWasm_runtime_of_initialises hs hi)) ?_
      exact fun hc => hc.2 ⟨htypes, hi⟩
    · obtain ⟨s', hs', hrt, -⟩ := runWasm_runtime_of_not hs hi
      rw [noRuntime_iff hs', hrt, ← noRuntime_iff hs]
      exact ⟨fun hno => ⟨hno, fun hc => hi hc.2⟩, And.left⟩
  · -- the command is turned down for its types
    rw [invoke_malformed load halive htypes]
    exact ⟨fun hno => ⟨hno, fun hc => htypes hc.1⟩, And.left⟩

/-- **A TA without a runtime has not panicked**: it is WAMR that it does
not come back from. -/
structure Ta.Sound (ta : Ta σ) : Prop where
  session : ∃ s, ta.sess = some s
  alive : ta.NoRuntime → ta.panicked = false

/-- Every command keeps to that. -/
theorem Commanded.sound (h : Commanded ta ta') (hw : ta.Sound) : ta'.Sound := by
  refine ⟨h.sess hw.session, ?_⟩
  obtain ⟨load, cmd, p, env, rfl⟩ := h
  obtain ⟨s, hs⟩ := hw.session
  rcases invoke_cases load ta cmd p env with ⟨res, -, hinv⟩ | ⟨halive, -, hinv⟩
  · rw [hinv]
    exact hw.alive
  rw [hinv]
  cases cmd with
  | configureHeap => exact fun _ => halive
  | runWasm =>
    by_cases hi : Initialises load p.memref0 env
    · exact fun hno => absurd hno (not_noRuntime (runWasm_runtime_of_initialises hs hi))
    · obtain ⟨-, -, -, hp⟩ := runWasm_runtime_of_not hs hi
      exact fun _ => hp.trans halive
  | resumeWasm =>
    cases hrt : s.runtime with
    | true =>
      exact fun hno => absurd hno (not_noRuntime (resumeWasm_of_runtime p env hs hrt).1)
    | false =>
      rw [perform, resumeWasm_of_noRuntime p env ((noRuntime_iff hs).2 hrt)]
      exact fun _ => halive

theorem sound_of_reachable {heapSize : UInt32}
    (hr : Relation.ReflTransGen Commanded (openedTa heapSize) ta) : ta.Sound :=
  invariant_of_step (fun _ _ hw hc => hc.sound hw) hr ⟨⟨Session.zero, rfl⟩, fun _ => rfl⟩

/-- A command that is not a RUN_WASM, or one that fails and meets the
condition. -/
def Quiet (ta ta' : Ta σ) : Prop :=
  ∃ load cmd p env, ta' = (invokeCommandEntryPoint load ta cmd p env).ta ∧
    (cmd = .runWasm → (invokeCommandEntryPoint load ta cmd p env).result ≠ .success ∧
      Clears load ta p env)

/-- **There is nothing to resume**, until another RUN_WASM succeeds. -/
def LeavesNothing (ta : Ta σ) : Prop :=
  ∀ ta', Relation.ReflTransGen Quiet ta ta' → ta'.RefusesResume

theorem Quiet.commanded (h : Quiet ta ta') : Commanded ta ta' := by
  obtain ⟨load, cmd, p, env, heq, -⟩ := h
  exact ⟨load, cmd, p, env, heq⟩

/-- A quiet command sets no runtime. -/
theorem Quiet.noRuntime (h : Quiet ta ta') (hw : ta.Sound) (hno : ta.NoRuntime) :
    ta'.NoRuntime := by
  obtain ⟨load, cmd, p, env, rfl, hrun⟩ := h
  obtain ⟨s, hs⟩ := hw.session
  cases cmd with
  | runWasm => exact (run_noRuntime_iff hs (hw.alive hno)).2 (hrun rfl).2
  | resumeWasm =>
    rcases invoke_cases load ta .resumeWasm p env with ⟨res, -, hinv⟩ | ⟨-, -, hinv⟩
    · rw [hinv]
      exact hno
    · rw [hinv, perform, resumeWasm_of_noRuntime p env hno]
      exact hno
  | configureHeap =>
    rcases invoke_cases load ta .configureHeap p env with ⟨res, -, hinv⟩ | ⟨-, -, hinv⟩
    · rw [hinv]
      exact hno
    · rw [hinv]
      exact hno

/-- **When a RUN_WASM leaves nothing to resume.** For every session
reachable by any commands and every RUN_WASM in it, one that fails above
all: every RESUME_WASM behind it is answered with an error by a TA that is
still there and executes no step, until another RUN_WASM succeeds, if and
only if the session had no runtime set and the RUN_WASM did not come to
set one. -/
theorem failed_run_leaves_nothing_iff {heapSize : UInt32} {ta : Ta σ}
    (hr : Relation.ReflTransGen Commanded (openedTa heapSize) ta) (load : Loader σ) (p : Params)
    (env : Env) :
    LeavesNothing (invokeCommandEntryPoint load ta .runWasm p env).ta ↔ Clears load ta p env := by
  have hw := sound_of_reachable hr
  obtain ⟨s, hs⟩ := hw.session
  have hw' : (invokeCommandEntryPoint load ta .runWasm p env).ta.Sound :=
    Commanded.sound ⟨load, .runWasm, p, env, rfl⟩ hw
  constructor
  · intro h
    obtain ⟨halive, hno⟩ := refusesResume_iff.1 (h _ .refl)
    cases hp : ta.panicked with
    | false => exact (run_noRuntime_iff hs hp).1 hno
    | true =>
      -- a TA that is gone stays so
      rw [invoke_panicked load .runWasm hp] at halive
      rw [show ta.panicked = false from halive] at hp
      cases hp
  · intro hc ta' hrun
    have hno := (run_noRuntime_iff hs (hw.alive hc.1)).2 hc
    -- along a quiet run no runtime is set
    have hinv := invariant_of_step (I := fun t : Ta σ => t.Sound ∧ t.NoRuntime) (R := Quiet)
      (fun _ _ ht hq => ⟨hq.commanded.sound ht.1, hq.noRuntime ht.1 ht.2⟩) hrun ⟨hw', hno⟩
    exact refusesResume_iff.2 ⟨hinv.1.alive hinv.2, hinv.2⟩

/-- A bytecode that does not load, on a session just opened. -/
theorem failed_run_leaves_nothing_iff_noModule :
    (invokeCommandEntryPoint (fun _ => none) (openedTa proxyHeap : Ta ℕ) .runWasm
        (runWith smallestWasm wholeBuffer) Env.ok).result = .generic ∧
      LeavesNothing (invokeCommandEntryPoint (fun _ => none) (openedTa proxyHeap : Ta ℕ) .runWasm
        (runWith smallestWasm wholeBuffer) Env.ok).ta := by
  refine ⟨rfl, (failed_run_leaves_nothing_iff .refl _ _ _).2 ⟨(noRuntime_iff rfl).2 rfl, ?_⟩⟩
  rintro ⟨-, -, -, -, -, -, M, hM⟩
  cases hM

/-- A session in which a module has run, and a RUN_WASM behind it that
found no memory. -/
def outOfHeap : Reply ℕ :=
  invokeCommandEntryPoint (fun _ => some idleModule) (firstReply idleModule).ta .runWasm
    (runWith smallestWasm wholeBuffer) { Env.ok with heapMalloc := false }

/-- The RUN_WASM failed, and the earlier module is resumed; and so is a
module whose `step_init` failed. -/
theorem failed_run_is_resumed :
    Relation.ReflTransGen Commanded (openedTa proxyHeap) (firstReply idleModule).ta ∧
      outOfHeap.result = .outOfMemory ∧
      (invokeCommandEntryPoint (fun _ => some idleModule) outOfHeap.ta .resumeWasm
        (resumeWith wholeBuffer) Env.ok).result = .success ∧
      (invokeCommandEntryPoint (fun _ => some idleModule) outOfHeap.ta .resumeWasm
        (resumeWith wholeBuffer) Env.ok).steps.map StepTrace.name = [.stepResume] ∧
      ¬ LeavesNothing outOfHeap.ta ∧
      (firstReply (trapsAtInit unreachable)).result = .generic ∧
      ¬ LeavesNothing (firstReply (trapsAtInit unreachable)).ta := by
  have hres : (invokeCommandEntryPoint (fun _ => some idleModule) outOfHeap.ta .resumeWasm
      (resumeWith wholeBuffer) Env.ok).result = .success := by decide +kernel
  have hinit : (invokeCommandEntryPoint (fun _ => some idleModule)
      (firstReply (trapsAtInit unreachable)).ta .resumeWasm (resumeWith wholeBuffer)
      Env.ok).result = .success := by decide +kernel
  refine ⟨.single ⟨_, _, _, _, rfl⟩, by decide +kernel, hres, by decide +kernel, ?_,
    by decide +kernel, ?_⟩
  · intro h
    exact (h _ .refl _ _ _).result hres
  · intro h
    exact (h _ .refl _ _ _).result hinit

end TeeChaincode
