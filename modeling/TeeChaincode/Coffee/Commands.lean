import TeeChaincode.Coffee.Phase

/-!
# The trusted application running the chaincode

The TA with the chaincode loaded stands in a phase (`InPhase`), and its
two commands are the moves of the phase machine: RUN_WASM on a fresh
session takes it from idle, and RESUME_WASM takes it one step on with the
value it finds in the shared buffer. Where no execution environment can
be made the step is not run and the answer is an error text.
-/

namespace TeeChaincode

namespace Coffee

open Common

variable {L : Layout} {args : Buf sizeofArguments} {ph : Phase} {ta : Ta Globals} {p : Params}
variable {env : Env}

/-- The TA has the chaincode loaded, in a phase. -/
structure InPhase (L : Layout) (args : Buf sizeofArguments) (ph : Phase) (ta : Ta Globals) :
    Prop where
  alive : ta.panicked = false
  wasmModule : ta.runtimeCtx.wasmModule = some (coffee L)
  execEnv : ta.runtimeCtx.execEnv = false
  config : ∃ s inst w gl, ta.sess = some s ∧ ta.runtimeCtx.moduleInst = some inst ∧
    At L w gl inst ∧ Config L args ph w gl s

theorem InPhase.live (h : InPhase L args ph ta) : ta.Live := by
  obtain ⟨halive, hM, -, s, inst, w, gl, hsess, hinst, -, hconf⟩ := h
  exact ⟨halive, ⟨s, hsess, hconf.runtime⟩, ⟨_, hM⟩, ⟨inst, hinst⟩⟩

/-- The machine's step on the argument table. -/
def stepOn (args : Buf sizeofArguments) (ph : Phase) (v : Bytes) : Phase × Ask :=
  ph.next (rowText args 0) (rowText args 1) (rowText args 2) v

/-- The value a RESUME_WASM finds in the shared buffer. -/
def bufferValue (buf : Bytes) : Bytes := clip 255 (buf.drop keySize)

/-! ## A step as the TA calls it -/

/-- A step that returned. -/
def Ran (steps : List (StepTrace Globals)) : Prop :=
  ∃ calls, steps = [⟨.stepResume, .returned, calls⟩]

/-- `process_hostcall_flow` over a step of the machine. -/
theorem processHostcallFlow_steps (ta : Ta Globals) (p : Params) {s : Session}
    {inst : Instance Globals} {w : Static → Bytes} {gl : Globals} {r : Phase × Ask}
    (halive : ta.panicked = false) (hM : ta.runtimeCtx.wasmModule = some (coffee L))
    (hi : ta.runtimeCtx.moduleInst = some inst) (hat : At L w gl inst) (he : env.execEnv = true)
    (h : Steps L args w gl s r) :
    ∃ ta' steps, processHostcallFlow ta s p env = ⟨.success, p.ask r.2, ta', steps⟩ ∧ Ran steps ∧
      InPhase L args r.1 ta' := by
  obtain ⟨w', gl', s', hdoes, hconf, hask⟩ := h
  obtain ⟨⟨⟩, hout, -, hat', hhost⟩ := hdoes inst hat
  have hflow := processHostcallFlow_of_returned p (stepResume L) hM hi rfl (.inr he) hout
  rw [hhost, hask] at hflow
  exact ⟨_, _, hflow, ⟨_, rfl⟩, halive, hM, rfl, _, _, _, _, rfl, rfl, hat', hconf⟩

/-! ## RESUME_WASM -/

/-- The reply copied into `g_cur_val`. -/
theorem At.replied {w : Static → Bytes} {gl : Globals} {s : Session} {inst : Instance Globals}
    (h : At L w gl inst) (hc : Config L args ph w gl s) (hp : ph.pending = .getState)
    (buf : Bytes) :
    At L (replied ph w (bufferValue buf)) gl { inst with mem := copyReply s buf inst.mem } where
  globals := h.globals
  holds := by
    obtain ⟨hoff, hlen, hcur⟩ := hc.out hp
    have h256 : s.wasmOutLen.toInt.toNat = Static.gCurVal.size := by rw [hlen]; rfl
    have hin := h.holds.addr_add_le .gCurVal
    have hcopy := copyReply_eq (m := inst.mem) buf (by rw [hoff]; exact L.addr_ne_zero _)
      (by rw [hlen]; decide) (by rw [hoff, h256]; exact hin)
    rw [h256, hoff, show clip (Static.gCurVal.size - 1) (buf.drop keySize) = bufferValue buf
      from rfl] at hcopy
    rw [Coffee.replied, if_pos hp, hcopy]
    have hle : (bufferValue buf).length ≤ 255 := length_clip_le _ _
    by_cases hn : bufferValue buf = []
    · rw [if_pos hn, hn, ← hcur, Function.update_eq_self]
      exact h.holds
    · rw [if_neg hn]
      refine h.holds.update (zero_notMem_clip _ _) (by simp only [Static.size]; omega)
        (Memory.SameOutside.fill.trans (Memory.SameOutside.write le_rfl ?_))
        (Memory.read_write_fill ?_)
      · exact Nat.add_le_add_left (le_trans hle (by decide)) _
      · exact le_trans hle (by decide)

/-- **RESUME_WASM hands the step a session with nothing pending** and a
memory with the reply copied. -/
theorem resumeWasm_flow (h : InPhase L args ph ta) (p : Params) (env : Env) :
    ∃ ta₀ s inst w gl, resumeWasm ta p env = processHostcallFlow ta₀ s.drained p env ∧
      ta₀.panicked = false ∧ ta₀.runtimeCtx.wasmModule = some (coffee L) ∧
      ta₀.runtimeCtx.execEnv = false ∧ ta₀.runtimeCtx.moduleInst = some inst ∧
      At L (replied ph w (bufferValue p.memref2.buffer)) gl inst ∧ Config L args ph w gl s := by
  obtain ⟨halive, hM, hx, s, inst, w, gl, hsess, hinst, hat, hconf⟩ := h
  have hrt : ¬ s.runtime = false := by rw [hconf.runtime]; decide
  have hpend := hconf.pending
  simp only [resumeWasm, hsess, if_neg hrt, hinst]
  cases hp : ph.pending with
  | getState =>
    rw [hp] at hpend
    simp only [hpend]
    have hsess' : s.drained =
        { s with pendingType := .none, wasmOutOffset := 0, wasmOutLen := 0 } := by
      rw [Session.drained, hpend]
    rw [← hsess']
    exact ⟨_, s, _, w, gl, rfl, halive, hM, hx, rfl, hat.replied hconf hp _, hconf⟩
  | putState =>
    rw [hp] at hpend
    simp only [hpend]
    refine ⟨{ ta with sess := some s.drained }, s, inst, w, gl, ?_, halive, hM, hx, hinst, ?_,
      hconf⟩
    · rw [Session.drained, hpend]
    · rw [replied, if_neg (by rw [hp]; decide)]
      exact hat
  | none =>
    rw [hp] at hpend
    simp only [hpend]
    refine ⟨ta, s, inst, w, gl, ?_, halive, hM, hx, hinst, ?_, hconf⟩
    · rw [Session.drained, hpend]
    · rw [replied, if_neg (by rw [hp]; decide)]
      exact hat

/-- **RESUME_WASM is a step of the machine.** -/
theorem resumeWasm_inPhase (h : InPhase L args ph ta) (p : Params) (env : Env)
    (he : env.execEnv = true) :
    ∃ ta' steps, resumeWasm ta p env =
        ⟨.success, p.ask (stepOn args ph (bufferValue p.memref2.buffer)).2, ta', steps⟩ ∧
      Ran steps ∧ InPhase L args (stepOn args ph (bufferValue p.memref2.buffer)).1 ta' := by
  obtain ⟨ta₀, s, inst, w, gl, hflow, halive, hM, -, hinst, hat, hconf⟩ := resumeWasm_flow h p env
  have hsteps := steps_next (v := bufferValue p.memref2.buffer) hconf (zero_notMem_clip _ _)
    (length_clip_le _ _)
  rw [hflow]
  exact processHostcallFlow_steps ta₀ p halive hM hinst hat he hsteps

/-- **RESUME_WASM without an execution environment** runs no step and
answers an error text. -/
theorem resumeWasm_noExecEnv (h : InPhase L args ph ta) (p : Params) (he : env.execEnv = false) :
    ∃ ta', resumeWasm ta p env = ⟨.success, p.ask (.answer (ascii "RUNTIME_ERROR")), ta',
      [⟨.stepResume, .noExecEnv, []⟩]⟩ ∧ ta'.Live := by
  obtain ⟨ta₀, s, inst, w, gl, hflow, halive, hM, hx, hinst, -, hconf⟩ := resumeWasm_flow h p env
  rw [hflow]
  exact ⟨_, processHostcallFlow_of_noExecEnv ta₀ (stepResume L) hM hinst rfl hx he,
    halive, ⟨_, rfl, (Session.drained_runtime s).trans hconf.runtime⟩, ⟨_, hM⟩, ⟨_, hinst⟩⟩

/-- The scalars stay where it left them. -/
theorem resumeWasm_noExecEnv_globals (h : InPhase L args ph ta) (p : Params)
    (he : env.execEnv = false) {inst : Instance Globals}
    (hi : (resumeWasm ta p env).ta.runtimeCtx.moduleInst = some inst) :
    inst.globals.currentOp = ph.op ∧ inst.globals.fsmState = ph.fsm := by
  obtain ⟨ta₀, s, inst₀, w, gl, hflow, -, hM, hx, hinst, hat, hconf⟩ := resumeWasm_flow h p env
  rw [hflow, processHostcallFlow_of_noExecEnv ta₀ (stepResume L) hM hinst rfl hx he] at hi
  obtain rfl := Option.some.inj (hinst.symm.trans hi)
  rw [hat.globals]
  exact ⟨hconf.op, hconf.fsm⟩

/-! ## RUN_WASM -/

/-- A fresh session with the chaincode just instantiated is idle. -/
theorem config_started (L : Layout) (p : Params) :
    Config L (argsOf p) .idle (fun _ => []) ⟨0, .none, 0⟩ (Session.zero.launched p) where
  args_eq := rfl
  runtime := rfl
  function := .inl rfl
  op := rfl
  fsm := rfl
  pending := rfl
  out he := by cases he
  person he := absurd rfl he
  amount he := by rcases he with he | he <;> cases he
  meant := trivial
  silent _ _ := rfl

variable {load : Loader Globals}

/-- The TA behind `step_init`, which does nothing. -/
def initialised (L : Layout) (ta : Ta Globals) (p : Params) : Ta Globals :=
  { ta with
    sess := some (Session.zero.launched p)
    runtimeCtx := .launched ta p (coffee L) }

/-- **RUN_WASM of the chaincode on a fresh session** is
`process_hostcall_flow` behind an empty `step_init`. -/
theorem runWasm_fresh (hs : ta.sess = some Session.zero)
    (hl : load p.memref0 = some (coffee L)) (he : Env.Starts env) :
    runWasm load ta p env =
      { processHostcallFlow (initialised L ta p) (Session.zero.launched p)
          { p with value1 := 0 } env with
        steps := ⟨.stepInit, .returned, []⟩ ::
          (processHostcallFlow (initialised L ta p) (Session.zero.launched p)
            { p with value1 := 0 } env).steps } := by
  obtain ⟨h1, h2, h3, h4, h5, h6⟩ := he
  simp only [runWasm, Ta.firstSteps, hs, h1, h2, initializeWamrRuntime, h3, h4, h5, hl, if_true,
    callStep, h6]
  rfl

/-- **RUN_WASM enters the machine.** -/
theorem runWasm_inPhase (load : Loader Globals) (ta : Ta Globals) (p : Params) (env : Env)
    (halive : ta.panicked = false) (hs : ta.sess = some Session.zero)
    (hl : load p.memref0 = some (coffee L)) (he : Env.Starts env) (hx : env.execEnv = true) :
    ∃ ta' steps calls, runWasm load ta p env = ⟨.success,
        ({ p with value1 := 0 } : Params).ask (stepOn (argsOf p) .idle []).2, ta', steps⟩ ∧
      steps = [⟨.stepInit, .returned, []⟩, ⟨.stepResume, .returned, calls⟩] ∧
      InPhase L (argsOf p) (stepOn (argsOf p) .idle []).1 ta' := by
  have hsteps := steps_idle (config_started L p)
  obtain ⟨ta', steps, hflow, ⟨calls, rfl⟩, hin⟩ := processHostcallFlow_steps
    (initialised L ta p) { p with value1 := 0 } halive rfl rfl ⟨rfl, L.holds_image⟩ hx hsteps
  refine ⟨ta', _, calls, ?_, rfl, hin⟩
  rw [runWasm_fresh hs hl he, hflow]
  rfl

/-- RUN_WASM without an execution environment for its first step. -/
theorem runWasm_noExecEnv (load : Loader Globals) (ta : Ta Globals) (p : Params)
    (halive : ta.panicked = false) (hs : ta.sess = some Session.zero)
    (hl : load p.memref0 = some (coffee L)) (he : Env.Starts env) (hx : env.execEnv = false) :
    ∃ ta', runWasm load ta p env = ⟨.success,
        ({ p with value1 := 0 } : Params).ask (.answer (ascii "RUNTIME_ERROR")), ta',
        [⟨.stepInit, .returned, []⟩, ⟨.stepResume, .noExecEnv, []⟩]⟩ ∧ ta'.Live := by
  refine ⟨initialised L ta p, ?_, halive, ⟨_, rfl, rfl⟩, ⟨_, rfl⟩, ⟨_, rfl⟩⟩
  rw [runWasm_fresh hs hl he, processHostcallFlow_of_noExecEnv (initialised L ta p) (stepResume L)
    rfl rfl rfl rfl hx]
  rfl

/-- A RUN_WASM of the chaincode that succeeds got everything it asked
for. -/
theorem starts_of_success (ta : Ta Globals) (p : Params) (hs : ta.sess = some Session.zero)
    (hl : load p.memref0 = some (coffee L))
    (h : (runWasm load ta p env).result = .success) : Env.Starts env := by
  obtain ⟨h1, h2, h3, h4, h5, h6, h7⟩ := env
  simp only [runWasm, Ta.firstSteps, hs, initializeWamrRuntime, hl, callStep] at h
  cases h1 <;> cases h2 <;> cases h3 <;> cases h4 <;> cases h5 <;> cases h6 <;>
    first
    | exact ⟨rfl, rfl, rfl, rfl, rfl, rfl⟩
    | simp [coffee, WamrContext.zero] at h

end Coffee

end TeeChaincode
