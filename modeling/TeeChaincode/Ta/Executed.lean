import TeeChaincode.Proxy.Marshal
import TeeChaincode.Ta.Record

/-!
# What a command executes

The commands for an arbitrary module. A command that is not answered has
executed at most a `step_init` that failed. A command that is answered has
executed a `step_resume` last, its session is what the calls of its steps
made of the session it started from, and its answer is what that session
calls for, or RUNTIME_ERROR where the `step_resume` failed.
-/

namespace TeeChaincode

open Common

variable {σ : Type}

/-! ## One step -/

/-- `call_step` takes the step for a success. -/
def StepEnd.ok : StepEnd → Bool
  | .returned => true
  | .trapped ex => (ex.map intended).getD false
  | .notFound | .noExecEnv => false

/-- The native calls of a list of steps, in order. -/
def callsOf (steps : List (StepTrace σ)) : List (NativeCall × Instance σ) :=
  steps.flatMap StepTrace.calls

/-- The native calls of a command pass no response of negative length. -/
def Measures (load : Loader σ) (ta : Ta σ) (cmd : Command) (p : Params) (env : Env) : Prop :=
  ∀ c ∈ callsOf (invokeCommandEntryPoint load ta cmd p env).steps, c.1.Measured

/-- None of the calls of a step raised an exception. -/
def StepTrace.Unraised (tr : StepTrace σ) : Prop :=
  ∀ c ∈ tr.calls, ∃ s', (natives c.1 c.2 s').ex = none

variable {ctx : WamrContext σ} {name : StepName} {execEnvOk : Bool} {s : Session}
variable {r : StepResult σ}

/-- **What `call_step` can come to**, on a module and an instance of it:
the step is not called, or it returns, or it traps. -/
inductive CallsStep (ctx : WamrContext σ) (name : StepName) (execEnvOk : Bool) (s : Session)
    (M : WasmModule σ) (inst : Instance σ) : StepResult σ → Prop
  | notCalled {ended : StepEnd} (he : ended = .notFound ∨ ended = .noExecEnv) :
      CallsStep ctx name execEnvOk s M inst ⟨false, ctx, s, ⟨name, ended, []⟩⟩
  | returned (fn : WasmCode σ Unit) (hf : M.export? name = some fn)
      (hx : ¬ (ctx.execEnv = false ∧ execEnvOk = false))
      (hout : ((fn inst).exec natives s).out = .ok ()) :
      CallsStep ctx name execEnvOk s M inst ⟨true,
        { ctx with moduleInst := some ((fn inst).exec natives s).guest, execEnv := false },
        ((fn inst).exec natives s).host, ⟨name, .returned, ((fn inst).exec natives s).calls⟩⟩
  | trapped (fn : WasmCode σ Unit) (ex : Option Bytes) (hf : M.export? name = some fn)
      (hx : ¬ (ctx.execEnv = false ∧ execEnvOk = false))
      (hout : ((fn inst).exec natives s).out = .error ex) :
      CallsStep ctx name execEnvOk s M inst ⟨(ex.map intended).getD false,
        { ctx with
          moduleInst := some ((fn inst).exec natives s).guest
          execEnv := !(ex.map intended).getD false },
        ((fn inst).exec natives s).host, ⟨name, .trapped ex, ((fn inst).exec natives s).calls⟩⟩

theorem callStep_cases (h : callStep ctx name execEnvOk s = some r) :
    ∃ M inst, ctx.wasmModule = some M ∧ ctx.moduleInst = some inst ∧
      CallsStep ctx name execEnvOk s M inst r := by
  unfold callStep at h
  split at h
  · next M inst hM hi =>
    refine ⟨M, inst, hM, hi, ?_⟩
    split at h
    · obtain rfl := Option.some.inj h
      exact .notCalled (.inl rfl)
    next fn hfn =>
    split at h
    · obtain rfl := Option.some.inj h
      exact .notCalled (.inr rfl)
    next hx =>
    dsimp only at h
    split at h
    · next hout =>
      obtain rfl := Option.some.inj h
      exact .returned fn hfn hx hout
    · next ex hout =>
      obtain rfl := Option.some.inj h
      exact .trapped fn ex hfn hx hout
  · cases h

/-- What `call_step` does, whatever the module: the session behind it is
that of its calls, and it reports how the step ended. -/
structure Stepped (name : StepName) (s : Session) (r : StepResult σ) : Prop where
  name : r.trace.name = name
  ok : r.ok = r.trace.ended.ok
  sess : r.sess = s.after r.trace.calls
  unraised : r.trace.ended = .returned → r.trace.Unraised
  wasmModule : ∃ M, r.ctx.wasmModule = some M
  moduleInst : ∃ inst, r.ctx.moduleInst = some inst

theorem callStep_stepped (h : callStep ctx name execEnvOk s = some r) : Stepped name s r := by
  obtain ⟨M, inst, hM, hi, hc⟩ := callStep_cases h
  cases hc with
  | notCalled he =>
    rcases he with rfl | rfl
    · exact ⟨rfl, rfl, rfl, nofun, ⟨M, hM⟩, inst, hi⟩
    · exact ⟨rfl, rfl, rfl, nofun, ⟨M, hM⟩, inst, hi⟩
  | returned fn _ _ hout =>
    exact ⟨rfl, rfl, Guest.exec_host (fn inst) s, fun _ => Guest.exec_ok_calls (fn inst) hout,
      ⟨M, hM⟩, _, rfl⟩
  | trapped fn ex _ _ hout =>
    exact ⟨rfl, rfl, Guest.exec_host (fn inst) s, nofun, ⟨M, hM⟩, _, rfl⟩

/-! ## One command -/

/-- What a command that started from a session came to. -/
inductive Executed (s : Session) (p : Params) (r : Reply σ) : Prop
  /-- It is not answered. -/
  | failed (hres : r.result ≠ .success)
      (hsteps : ∀ tr ∈ r.steps, tr.name = .stepInit ∧ tr.ended.ok = false)
  /-- It is answered. -/
  | answered (init : List (StepTrace σ)) (last : StepTrace σ) (hres : r.result = .success)
      (hsteps : r.steps = init ++ [last])
      (hinit : ∀ tr ∈ init, tr.name = .stepInit ∧ tr.ended.ok = true)
      (hlast : last.name = .stepResume)
      (hret : ∀ tr ∈ r.steps, tr.ended = .returned → tr.Unraised)
      (hsess : r.ta.sess = some (s.after (callsOf r.steps)))
      (hparams : r.params = p.ask (if last.ended.ok then asked (s.after (callsOf r.steps))
        else .answer (ascii "RUNTIME_ERROR")))

variable {ta : Ta σ} {p : Params} {env : Env} {load : Loader σ}

/-- `process_hostcall_flow` executes a `step_resume`, or panics. -/
theorem processHostcallFlow_executed (ta : Ta σ) (s : Session) (p : Params) (env : Env) :
    Executed s p (processHostcallFlow ta s p env) := by
  unfold processHostcallFlow
  split
  · exact .failed (by simp [Ta.panic]) (by simp [Ta.panic])
  · next r hr =>
    obtain ⟨hname, hok, hsess, hun, -, -⟩ := callStep_stepped hr
    have hcalls : r.sess = s.after (callsOf [r.trace]) := by
      rw [hsess]
      simp [callsOf]
    have hret : ∀ tr ∈ [r.trace], tr.ended = .returned → tr.Unraised := by
      intro tr htr
      rw [List.mem_singleton.1 htr]
      exact hun
    dsimp only
    split
    · next hrok =>
      rw [hok] at hrok
      refine .answered [] r.trace rfl rfl (by simp) hname hret (congrArg some hcalls) ?_
      rw [← hcalls, hrok, if_pos rfl, drain_eq]
    · next hrok =>
      rw [hok] at hrok
      refine .answered [] r.trace rfl rfl (by simp) hname hret (congrArg some hcalls) ?_
      rw [if_neg hrok]
      rfl

/-- No call of a command whose steps return raised an exception. -/
theorem Executed.unraised {r : Reply σ} (h : Executed s p r) (hres : r.result = .success)
    (hret : ∀ tr ∈ r.steps, tr.ended = .returned) :
    ∀ c ∈ callsOf r.steps, ∃ s', (natives c.1 c.2 s').ex = none := by
  intro c hc
  obtain ⟨tr, htr, hctr⟩ := List.mem_flatMap.1 hc
  cases h with
  | failed hne _ => exact absurd hres hne
  | answered _ _ _ _ _ _ hun _ _ => exact hun tr htr (hret tr htr) c hctr

/-- **A command whose steps return** leaves the last message they passed
on on record, and answers what its session calls for. -/
theorem Executed.record {r : Reply σ} (h : Executed s p r) (hres : r.result = .success)
    (hret : ∀ tr ∈ r.steps, tr.ended = .returned) :
    ∃ s', r.ta.sess = some s' ∧ s' = s.after (callsOf r.steps) ∧
      s'.message = (messages (callsOf r.steps)).getLast?.or s.message ∧
      r.params = p.ask (asked s') := by
  have hun := h.unraised hres hret
  cases h with
  | failed hne _ => exact absurd hres hne
  | answered init last _ hsteps _ _ _ hsess hparams =>
    have hok : last.ended.ok = true := by
      rw [hret last (by rw [hsteps]; simp)]
      rfl
    rw [hok, if_pos rfl] at hparams
    exact ⟨_, hsess, rfl, message_after hun s, hparams⟩

/-- The session behind the calls of a step and of those after it. -/
theorem Session.after_callsOf {s₁ s : Session} {tr : StepTrace σ} (h : s₁ = s.after tr.calls)
    (steps : List (StepTrace σ)) :
    s₁.after (callsOf steps) = s.after (callsOf (tr :: steps)) := by
  have hcalls : callsOf (tr :: steps) = tr.calls ++ callsOf steps := List.flatMap_cons
  rw [h, hcalls]
  exact (Guest.hostAfter_append ..).symm

/-- A `step_init` that succeeded in front of what follows it. -/
theorem Executed.cons {s₁ s : Session} {r : Reply σ} {tr : StepTrace σ}
    (h : Executed s₁ p r) (hs₁ : s₁ = s.after tr.calls) (hres : r.result = .success)
    (hname : tr.name = .stepInit) (hok : tr.ended.ok = true)
    (hret : tr.ended = .returned → tr.Unraised) :
    Executed s p { r with steps := tr :: r.steps } := by
  cases h with
  | failed hne _ => exact absurd hres hne
  | answered init last _ hsteps hinit hlast hun hsess hparams =>
    rw [Session.after_callsOf hs₁] at hsess hparams
    refine .answered (tr :: init) last hres ?_ ?_ hlast ?_ hsess hparams
    · rw [hsteps, List.cons_append]
    · intro tr' htr
      rcases List.mem_cons.1 htr with rfl | h
      · exact ⟨hname, hok⟩
      · exact hinit tr' h
    · intro tr' htr
      rcases List.mem_cons.1 htr with rfl | h
      · exact hret
      · exact hun tr' h

/-- **RUN_WASM** executes a `step_init` and a `step_resume`, where the
first succeeds. -/
theorem runWasm_executed (load : Loader σ) (p : Params) (env : Env) (hs : ta.sess = some s) :
    Executed (s.launched p) { p with value1 := 0 } (runWasm load ta p env) := by
  unfold runWasm
  rw [hs]
  dsimp only
  split
  · exact .failed nofun (by simp)
  next halloc =>
  obtain ⟨hheap, hwasm⟩ : env.heapMalloc = true ∧ env.wasmMalloc = true := by simpa using halloc
  rw [hheap, hwasm]
  split
  · next hne => exact .failed hne (by simp)
  split
  · exact .failed nofun (by simp)
  unfold Ta.firstSteps
  split
  · exact .failed nofun (by simp [Ta.panic])
  next st hst =>
  obtain ⟨hname, hok, hsess, hun, ⟨M, hM⟩, inst, hinst⟩ := callStep_stepped hst
  split
  · next hst' =>
    have hres : (processHostcallFlow { ta with sess := some st.sess, runtimeCtx := st.ctx }
        st.sess { p with value1 := 0 } env).result = .success :=
      processHostcallFlow_result { ta with sess := some st.sess, runtimeCtx := st.ctx } hM hinst
    exact (processHostcallFlow_executed _ _ _ _).cons hsess hres hname (hok ▸ hst') hun
  · next hst' =>
    refine .failed nofun fun tr htr => ?_
    rw [List.mem_singleton.1 htr]
    exact ⟨hname, by rw [← hok]; simpa using hst'⟩

/-- A session in which nothing is pending any more and the message on
record is the one of the TA's session. -/
def Drained (ta : Ta σ) (s₀ : Session) : Prop :=
  s₀.pendingType = .none ∧ ∀ s, ta.sess = some s → s₀.message = s.message

/-- There always is one. -/
theorem exists_drained (ta : Ta σ) : ∃ s₀, Drained ta s₀ := by
  cases hs : ta.sess with
  | none => exact ⟨Session.zero, rfl, fun s h => by rw [hs] at h; cases h⟩
  | some s =>
    refine ⟨{ s with pendingType := .none }, rfl, fun s' h => ?_⟩
    rw [hs] at h
    cases h
    rfl

/-- **RESUME_WASM** executes a `step_resume` on a drained session. -/
theorem resumeWasm_executed (ta : Ta σ) (p : Params) (env : Env) :
    ∃ s₀, Drained ta s₀ ∧ Executed s₀ p (resumeWasm ta p env) := by
  obtain ⟨s₁, h₁⟩ := exists_drained ta
  unfold resumeWasm
  split
  · exact ⟨s₁, h₁, .failed nofun (by simp)⟩
  next s hs =>
  have hdrained : ∀ s₀ : Session, s₀.pendingType = .none → s₀.message = s.message →
      Drained ta s₀ := by
    refine fun s₀ hp hm => ⟨hp, fun s' hs' => ?_⟩
    rw [hs] at hs'
    cases hs'
    exact hm
  split
  · exact ⟨s₁, h₁, .failed nofun (by simp)⟩
  split
  · split
    · exact ⟨s₁, h₁, .failed (by simp [Ta.panic]) (by simp [Ta.panic])⟩
    · exact ⟨{ s with pendingType := .none, wasmOutOffset := 0, wasmOutLen := 0 },
        hdrained _ rfl rfl, processHostcallFlow_executed _ _ _ _⟩
  · exact ⟨{ s with pendingType := .none }, hdrained _ rfl rfl,
      processHostcallFlow_executed _ _ _ _⟩
  · next hp => exact ⟨s, hdrained s hp rfl, processHostcallFlow_executed _ _ _ _⟩

/-! ## The commands of the proxy -/

/-- What a command brings back to the proxy. -/
def Reply.tee (r : Reply σ) : TeeReply := ⟨r.result, r.params.value1, r.params.memref2.buffer⟩

/-- RUN_WASM on a fresh session. -/
theorem executed_run (load : Loader σ) {ta : Ta σ} (h : ta = initializeSession) (env : Env)
    (wasm buf : Bytes) :
    Executed (Session.zero.launched (runParams wasm buf)) (runParams wasm buf)
      (invokeCommandEntryPoint load ta .runWasm (runParams wasm buf) env) := by
  subst h
  have hs : (initializeSession : Ta σ).sess = some Session.zero := rfl
  exact runWasm_executed load (runParams wasm buf) env hs

/-- RESUME_WASM on any. -/
theorem executed_resume (load : Loader σ) (ta : Ta σ) (env : Env) (buf : Bytes) :
    ∃ s₀, Drained ta s₀ ∧ Executed s₀ (resumeParams buf)
      (invokeCommandEntryPoint load ta .resumeWasm (resumeParams buf) env) := by
  rcases invoke_cases load ta .resumeWasm (resumeParams buf) env
    with ⟨res, hres, hinv⟩ | ⟨-, -, hinv⟩
  · obtain ⟨s₀, hs₀⟩ := exists_drained ta
    rw [hinv]
    exact ⟨s₀, hs₀, .failed hres (by simp)⟩
  · rw [hinv]
    exact resumeWasm_executed ta (resumeParams buf) env

/-- The request an answer carries. -/
def Ask.request : Ask → Option Request
  | .get key => some (.get key)
  | .put key value => some (.put key value)
  | .answer _ => none

theorem request_asked (s : Session) : (asked s).request = s.request := by
  unfold asked Session.request
  cases s.pendingType <;> rfl

/-- The answer of a session in which nothing is pending: the message on
record, or a text of its own where there is none or it is empty. -/
theorem asked_of_none {s : Session} (h : s.pendingType = .none) :
    asked s = .answer (match s.message with
      | none => ascii "NO_RESPONSE"
      | some x => if x = [] then ascii "EMPTY_RESPONSE" else x) := by
  rw [asked, h, finalResponse_eq, Session.message]
  cases s.hasResponse <;> simp

/-- **The proxy goes on with the answer of the command.** -/
theorem dispatchReply_of_params {r : Reply σ} {p : Params} {a : Ask} (hres : r.result = .success)
    (hp : r.params = p.ask a) (ha : a.Fits) : dispatchReply r.tee = a.handler := by
  rw [Reply.tee, hres, hp]
  exact dispatchReply_ask ha

/-- What a command that is answered asks for fits the buffer. -/
theorem fits_answer (s : Session) (tr : StepTrace σ) :
    (if tr.ended.ok then asked s else .answer (ascii "RUNTIME_ERROR")).Fits := by
  split
  · exact asked_fits s
  · exact ⟨by decide, by decide⟩

end TeeChaincode
