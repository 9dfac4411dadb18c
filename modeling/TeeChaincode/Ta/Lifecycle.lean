import Mathlib.Tactic.DeriveFintype
import TeeChaincode.Common.Automaton
import TeeChaincode.Ta.Shared

/-!
# The life of a TA instance

What a TA instance does with a command depends on very little of its
state: whether there is a session, whether `sc->runtime` is set, and
whether the context it points to has a module instance. `Life` is that
much, and `LifeEvent` what matters of a call into the instance. Every run
of the instance keeps to the automaton over them: its results are the
automaton's, and so are the steps it executes.

That is said of calls whose outcome the TA's code decides: their steps
return, WAMR keeps the modules to linear memory, and the TA keeps to the
memory it has. There is one stage the code does not mean to be in.
RUN_WASM clears the static context before it loads the next module, and
where that fails `sc->runtime` goes on pointing to it. A RESUME_WASM then
passes its check and hands WAMR a NULL. Which calls lead to that stage is a
question about the words of the automaton.
-/

namespace TeeChaincode

open Common

variable {σ : Type}

/-! ## Calls into an instance -/

/-- What a host does with an instance. -/
inductive HostCall
  | openSession (types : List ParamType) (mallocOk : Bool)
  | invokeCommand (c : Issued)
  /-- A command id that is none of the three. -/
  | unknownCommand

/-- What comes back of a call: its result, and which steps it executed. -/
abbrev Outcome := TeeResult × List StepName

/-- What a command came to. -/
def Reply.outcome (r : Reply σ) : Outcome := (r.result, r.steps.map StepTrace.name)

/-- A call into the instance. -/
def Ta.enter (load : Loader σ) (ta : Ta σ) : HostCall → Outcome × Ta σ
  | .openSession types mallocOk =>
    (((openSessionEntryPoint ta types mallocOk).1, []),
      (openSessionEntryPoint ta types mallocOk).2)
  | .invokeCommand c =>
    ((invokeCommandEntryPoint load ta c.cmd c.params c.env).outcome,
      (invokeCommandEntryPoint load ta c.cmd c.params c.env).ta)
  | .unknownCommand => ((.badParameters, []), ta)

/-- **`sc->runtime` is set, and its `module_inst` is NULL.** -/
def Ta.Dangling (ta : Ta σ) : Prop :=
  ∃ s, ta.sess = some s ∧ s.runtime = true ∧ ta.runtimeCtx.moduleInst = none

/-- A RESUME_WASM that hands it to WAMR. -/
def HostCall.HandsNull (ta : Ta σ) : HostCall → Prop
  | .invokeCommand c =>
    c.cmd = .resumeWasm ∧ c.params.types = Command.resumeWasm.paramTypes ∧ ta.Dangling
  | _ => False

/-- A call that keeps to the memory it has. -/
def HostCall.Contained (load : Loader σ) (ta : Ta σ) : HostCall → Prop
  | .invokeCommand c => TeeChaincode.Contained load ta c
  | _ => True

/-- **A call whose outcome the TA's code decides.** -/
structure HostCall.Safe (load : Loader σ) (ta : Ta σ) (c : HostCall) : Prop where
  contained : c.Contained load ta
  notNull : ¬ c.HandsNull ta

/-! ## The automaton -/

/-- The stages of an instance. -/
inductive Life
  /-- No session has been opened. -/
  | closed
  /-- No module has run. -/
  | idle
  /-- There is a module to resume. -/
  | live
  /-- `sc->runtime` is set, and the context has no module instance. -/
  | dangling
deriving DecidableEq, Repr

/-- The stage of an instance. -/
def Ta.life (ta : Ta σ) : Life :=
  match ta.sess.map Session.runtime with
  | none => .closed
  | some false => .idle
  | some true => if ta.runtimeCtx.moduleInst.isSome then .live else .dangling

/-- What matters of a call. -/
inductive LifeEvent
  /-- There is no such command, or its parameter types are not the
  expected ones. -/
  | malformed
  | opened (mallocOk : Bool)
  | configured
  /-- A RUN_WASM that finds no memory for the heap or the bytecode. -/
  | exhausted
  /-- A RUN_WASM that gets its buffers and cannot set up the module. -/
  | unloadable
  /-- A RUN_WASM that comes to `step_init`. -/
  | launched
  | resumed
deriving DecidableEq, Repr, Fintype

/-- WAMR is initialised, and the bytecode loaded and instantiated. -/
def setsUp (load : Loader σ) (wasm : Bytes) (env : Env) : Bool :=
  env.fullInit && env.load && env.instantiate && (load wasm).isSome

/-- The event a call is. -/
def HostCall.event (load : Loader σ) : HostCall → LifeEvent
  | .openSession types mallocOk =>
    if types ≠ [.none, .none, .none, .none] then .malformed else .opened mallocOk
  | .invokeCommand c =>
    if c.params.types ≠ c.cmd.paramTypes then .malformed
    else
      match c.cmd with
      | .configureHeap => .configured
      | .runWasm =>
        if c.env.heapMalloc = false ∨ c.env.wasmMalloc = false then .exhausted
        else if setsUp load c.params.memref0 c.env then .launched else .unloadable
      | .resumeWasm => .resumed
  | .unknownCommand => .malformed

/-- The stage behind an event. -/
def Life.next : Life → LifeEvent → Life
  | .closed, .opened true => .idle
  | .closed, _ => .closed
  | .idle, .launched => .live
  | .live, .unloadable => .dangling
  | .dangling, .launched => .live
  | q, _ => q

/-- **What may come back of an event.** Where more than one thing may, it
is the module that decides; where nothing may, it is not for the TA to
say. -/
def Life.outcomes : Life → LifeEvent → List Outcome
  | _, .malformed => [(.badParameters, [])]
  | .closed, .opened false => [(.outOfMemory, [])]
  | _, .opened _ => [(.success, [])]
  | _, .configured => [(.success, [])]
  | .closed, _ => [(.generic, [])]
  | _, .exhausted => [(.outOfMemory, [])]
  | _, .unloadable => [(.generic, [])]
  | _, .launched => [(.success, [.stepInit, .stepResume]), (.generic, [.stepInit])]
  | .idle, .resumed => [(.generic, [])]
  | .live, .resumed => [(.success, [.stepResume])]
  | .dangling, .resumed => []

/-- The automaton, with the stage nothing is said of as its final one. -/
def lifecycle : DFA LifeEvent Life where
  step := Life.next
  start := .closed
  accept := {.dangling}

/-! ## Stages -/

variable {ta : Ta σ} {s : Session} {load : Loader σ} {p : Params} {env : Env}

theorem life_of_none (hs : ta.sess = none) : ta.life = .closed := by
  simp [Ta.life, hs]

theorem life_of_idle (hs : ta.sess = some s) (hrt : s.runtime = false) : ta.life = .idle := by
  simp [Ta.life, hs, hrt]

/-- With a runtime, there is a module to resume or it is dangling. -/
theorem life_of_runtime (hs : ta.sess = some s) (hrt : s.runtime = true) :
    ta.life = if ta.runtimeCtx.moduleInst.isSome then .live else .dangling := by
  simp only [Ta.life, hs, Option.map_some, hrt]

theorem life_of_dangling (h : ta.Dangling) : ta.life = .dangling := by
  obtain ⟨s, hs, hrt, hi⟩ := h
  rw [life_of_runtime hs hrt, hi]
  rfl

/-- The stage is `dangling` where the pointers say so. -/
theorem life_eq_dangling_iff : ta.life = .dangling ↔ ta.Dangling := by
  refine ⟨fun h => ?_, life_of_dangling⟩
  cases hs : ta.sess with
  | none =>
    rw [life_of_none hs] at h
    cases h
  | some s =>
    cases hrt : s.runtime with
    | false =>
      rw [life_of_idle hs hrt] at h
      cases h
    | true =>
      refine ⟨s, hs, hrt, ?_⟩
      rw [life_of_runtime hs hrt] at h
      split at h
      · cases h
      · next hi => simpa using hi

/-- With a session, the stage is one of three. -/
theorem life_of_some (hs : ta.sess = some s) :
    ta.life = .idle ∨ ta.life = .live ∨ ta.life = .dangling := by
  cases hrt : s.runtime with
  | false => exact .inl (life_of_idle hs hrt)
  | true =>
    rw [life_of_runtime hs hrt]
    split
    · exact .inr (.inl rfl)
    · exact .inr (.inr rfl)

/-- The stage is read off the session's runtime and the context. -/
theorem life_congr {ta' : Ta σ} (hs : ta'.sess.map Session.runtime = ta.sess.map Session.runtime)
    (hctx : ta'.runtimeCtx = ta.runtimeCtx) : ta'.life = ta.life := by
  rw [Ta.life, Ta.life, hs, hctx]

/-- **An instance in order**: it has come back from every call into WAMR,
and an instance of a module goes with the module. -/
structure Ta.InOrder (ta : Ta σ) : Prop where
  alive : ta.panicked = false
  wasmModule : ∀ inst, ta.runtimeCtx.moduleInst = some inst →
    ∃ M, ta.runtimeCtx.wasmModule = some M

theorem Ta.Live.inOrder (h : ta.Live) : ta.InOrder := ⟨h.alive, fun _ _ => h.wasmModule⟩

theorem Ta.Live.life (h : ta.Live) : ta.life = .live := by
  obtain ⟨-, ⟨s, hs, hrt⟩, -, inst, hi⟩ := h
  rw [life_of_runtime hs hrt, hi]
  rfl

/-- The stage in which RESUME_WASM has a module to resume. -/
theorem Ta.InOrder.live (h : ta.InOrder) (hs : ta.sess = some s) (hrt : s.runtime = true)
    {inst : Instance σ} (hi : ta.runtimeCtx.moduleInst = some inst) : ta.Live :=
  ⟨h.alive, ⟨s, hs, hrt⟩, h.wasmModule inst hi, inst, hi⟩

/-- Whether the module is set up is whether the runtime is initialised,
once there is memory for it. -/
theorem setsUp_iff (hheap : env.heapMalloc = true) (hwasm : env.wasmMalloc = true) {wasm : Bytes} :
    setsUp load wasm env = true ↔ Initialises load wasm env := by
  simp only [setsUp, Bool.and_eq_true, Option.isSome_iff_exists]
  constructor
  · rintro ⟨⟨⟨hfull, hload⟩, hinst⟩, hM⟩
    exact ⟨hheap, hwasm, hfull, hload, hinst, hM⟩
  · rintro ⟨-, -, hfull, hload, hinst, hM⟩
    exact ⟨⟨⟨hfull, hload⟩, hinst⟩, hM⟩

/-! ## One call -/

/-- A call keeps to the automaton. -/
structure Kept (load : Loader σ) (ta : Ta σ) (c : HostCall) : Prop where
  inOrder : (ta.enter load c).2.InOrder
  next : (ta.enter load c).2.life = ta.life.next (c.event load)
  answer : (ta.enter load c).1 ∈ ta.life.outcomes (c.event load)

/-- A call that is turned down at the entry point leaves the instance. -/
theorem kept_of_refused {c : HostCall} {r : TeeResult} (h : ta.InOrder)
    (hc : ta.enter load c = ((r, []), ta)) (hnext : ta.life.next (c.event load) = ta.life)
    (hr : (r, []) ∈ ta.life.outcomes (c.event load)) : Kept load ta c where
  inOrder := by rw [hc]; exact h
  next := by rw [hc, hnext]
  answer := by rw [hc]; exact hr

theorem kept_of_malformed {c : HostCall} (h : ta.InOrder) (he : c.event load = .malformed)
    (hc : ta.enter load c = ((.badParameters, []), ta)) : Kept load ta c := by
  refine kept_of_refused h hc ?_ ?_
  all_goals
    rw [he]
    cases ta.life <;> decide

/-- **Opening a session.** There is one session for the instance. -/
theorem kept_openSession (load : Loader σ) (h : ta.InOrder) (types : List ParamType)
    (mallocOk : Bool) : Kept load ta (.openSession types mallocOk) := by
  have henter : ta.enter load (.openSession types mallocOk) =
      (((openSessionEntryPoint ta types mallocOk).1, []),
        (openSessionEntryPoint ta types mallocOk).2) := rfl
  by_cases ht : types = [.none, .none, .none, .none]
  · have hevent : HostCall.event load (.openSession types mallocOk) = .opened mallocOk :=
      if_neg (not_not.2 ht)
    subst ht
    cases hs : ta.sess with
    | none =>
      have hlife := life_of_none hs
      cases mallocOk with
      | false =>
        have hopen : openSessionEntryPoint ta [.none, .none, .none, .none] false =
            (.outOfMemory, ta) := by simp [openSessionEntryPoint, hs]
        rw [hopen] at henter
        exact kept_of_refused h henter (by rw [hlife, hevent]; rfl)
          (by rw [hlife, hevent]; exact List.mem_singleton_self _)
      | true =>
        have hopen : openSessionEntryPoint ta [.none, .none, .none, .none] true =
            (.success, { ta with sess := some Session.zero }) := by simp [openSessionEntryPoint, hs]
        constructor
        · rw [henter, hopen]
          exact ⟨h.alive, h.wasmModule⟩
        · rw [henter, hopen, hlife, hevent]
          exact life_of_idle rfl rfl
        · rw [henter, hopen, hlife, hevent]
          exact List.mem_singleton_self _
    | some s =>
      have hopen : openSessionEntryPoint ta [.none, .none, .none, .none] mallocOk =
          (.success, ta) := by simp [openSessionEntryPoint, hs]
      rw [hopen] at henter
      rcases life_of_some hs with hlife | hlife | hlife
      all_goals
        refine kept_of_refused h henter (by rw [hlife, hevent]; rfl) ?_
        rw [hlife, hevent]
        cases mallocOk <;> exact List.mem_singleton_self _
  · refine kept_of_malformed h (if_pos ht) ?_
    have hopen : openSessionEntryPoint ta types mallocOk = (.badParameters, ta) := if_pos ht
    rw [henter, hopen]

/-- `process_hostcall_flow` with a module to step executes the step and
leaves it to be resumed. -/
theorem processHostcallFlow_live {M : WasmModule σ} {inst : Instance σ} (ta : Ta σ) (s : Session)
    (p : Params) (env : Env) (halive : ta.panicked = false)
    (hM : ta.runtimeCtx.wasmModule = some M) (hi : ta.runtimeCtx.moduleInst = some inst)
    (hrt : s.runtime = true) :
    (processHostcallFlow ta s p env).outcome = (.success, [.stepResume]) ∧
      (processHostcallFlow ta s p env).ta.Live := by
  obtain ⟨r, hr⟩ := callStep_isSome .stepResume env.execEnv s hM hi
  obtain ⟨hname, -, hsess, -, hM', hi'⟩ := callStep_stepped hr
  have hlive : Ta.Live { ta with sess := some r.sess, runtimeCtx := r.ctx } := by
    refine ⟨halive, ⟨r.sess, rfl, ?_⟩, hM', hi'⟩
    rw [hsess, Session.runtime_after, hrt]
  simp only [processHostcallFlow, hr, Reply.outcome]
  split
  · exact ⟨by rw [List.map_singleton, hname], hlive⟩
  · exact ⟨by rw [List.map_singleton, hname], hlive⟩

/-- A RUN_WASM that comes to `step_init` leaves a module to be resumed,
and is answered unless `step_init` failed. -/
theorem runWasm_live (halive : ta.panicked = false) (hs : ta.sess = some s)
    (hi : Initialises load p.memref0 env) :
    ((runWasm load ta p env).outcome = (.success, [.stepInit, .stepResume]) ∨
        (runWasm load ta p env).outcome = (.generic, [.stepInit])) ∧
      (runWasm load ta p env).ta.Live := by
  obtain ⟨M, hM⟩ := hi.wasmModule
  have hsome : ∃ st, callStep (WamrContext.launched ta p M) .stepInit env.execEnvInit
      (s.launched p) = some st :=
    callStep_isSome .stepInit env.execEnvInit (s.launched p) rfl rfl
  obtain ⟨st, hst⟩ := hsome
  obtain ⟨hname, -, hsess, -, ⟨M', hM'⟩, inst, hinst⟩ := callStep_stepped hst
  have hrt : st.sess.runtime = true := by
    rw [hsess, Session.runtime_after]
    rfl
  rw [runWasm_of_initialises hs hi hM, Ta.firstSteps, hst]
  dsimp only
  split
  · obtain ⟨hout, hlive⟩ := processHostcallFlow_live
      { ta with sess := some st.sess, runtimeCtx := st.ctx } st.sess { p with value1 := 0 } env
      halive hM' hinst hrt
    obtain ⟨hres, hsteps⟩ := Prod.mk.inj hout
    refine ⟨.inl ?_, hlive⟩
    rw [Reply.outcome, List.map_cons, hname, hres, hsteps]
  · refine ⟨.inr ?_, halive, ⟨st.sess, rfl, hrt⟩, ⟨M', hM'⟩, inst, hinst⟩
    rw [Reply.outcome, List.map_singleton, hname]

/-- A RESUME_WASM with a module to resume executes its step. -/
theorem resumeWasm_live (h : ta.Live) (p : Params) (env : Env) :
    (resumeWasm ta p env).outcome = (.success, [.stepResume]) ∧ (resumeWasm ta p env).ta.Live := by
  obtain ⟨halive, ⟨s, hs, hrt⟩, ⟨M, hM⟩, inst, hi⟩ := h
  obtain ⟨s₀, hrt₀, hstart⟩ := resumeWasm_starts hs hrt hi p env
  rw [hstart]
  exact processHostcallFlow_live _ s₀ p env halive hM rfl hrt₀

/-- A command that is not turned down at the entry point. -/
theorem enter_invoke (load : Loader σ) {cmd : Command} (halive : ta.panicked = false)
    (ht : p.types = cmd.paramTypes) (env : Env) :
    ta.enter load (.invokeCommand ⟨cmd, p, env⟩) =
      ((perform load ta p env cmd).outcome, (perform load ta p env cmd).ta) := by
  have hinv := invoke_eq load halive ht env
  simp only [Ta.enter, hinv]

/-- Such a command, by what it comes to. -/
theorem kept_perform {cmd : Command} {e : LifeEvent} (h : ta.InOrder)
    (ht : p.types = cmd.paramTypes)
    (hevent : HostCall.event load (.invokeCommand ⟨cmd, p, env⟩) = e)
    (hin : (perform load ta p env cmd).ta.InOrder)
    (hnext : (perform load ta p env cmd).ta.life = ta.life.next e)
    (hout : (perform load ta p env cmd).outcome ∈ ta.life.outcomes e) :
    Kept load ta (.invokeCommand ⟨cmd, p, env⟩) where
  inOrder := by rw [enter_invoke load h.alive ht env]; exact hin
  next := by rw [enter_invoke load h.alive ht env, hevent]; exact hnext
  answer := by rw [enter_invoke load h.alive ht env, hevent]; exact hout

/-- Without memory the session gets its arguments, and nothing else
changes. -/
theorem runWasm_exhausted (load : Loader σ) (p : Params) (hs : ta.sess = some s)
    (h : env.heapMalloc = false ∨ env.wasmMalloc = false) :
    (runWasm load ta p env).outcome = (.outOfMemory, []) ∧
      (runWasm load ta p env).ta.life = ta.life ∧
      (runWasm load ta p env).ta.panicked = ta.panicked ∧
      (runWasm load ta p env).ta.runtimeCtx = ta.runtimeCtx := by
  unfold runWasm
  rw [hs]
  dsimp only
  rw [if_pos h]
  exact ⟨rfl, life_congr (by rw [hs]; rfl) rfl, rfl, rfl⟩

/-- A runtime that cannot be set up fails the command, and is the one a
session that has had a runtime points to. -/
theorem kept_unloadable (h : ta.InOrder) (ht : p.types = Command.runWasm.paramTypes)
    (hs : ta.sess = some s)
    (hevent : HostCall.event load (.invokeCommand ⟨.runWasm, p, env⟩) = .unloadable)
    (hheap : env.heapMalloc = true) (hwasm : env.wasmMalloc = true)
    (hi : ¬ Initialises load p.memref0 env) :
    Kept load ta (.invokeCommand ⟨.runWasm, p, env⟩) := by
  obtain ⟨ctx, hinst, hrun⟩ := runWasm_of_not_initialises ta p hs hheap hwasm hi
  have hin : (runWasm load ta p env).ta.InOrder := by
    rw [hrun]
    refine ⟨h.alive, fun inst hinst' => ?_⟩
    rw [show ctx.moduleInst = some inst from hinst'] at hinst
    cases hinst
  have hout : (runWasm load ta p env).outcome = (.generic, []) := by
    rw [hrun]
    rfl
  cases hrt : s.runtime with
  | false =>
    have hlife := life_of_idle hs hrt
    refine kept_perform h ht hevent hin ?_ ?_
    · rw [hlife, perform, hrun]
      exact life_of_idle rfl hrt
    · rw [hlife]
      exact List.mem_singleton.2 hout
  | true =>
    have hnext : (runWasm load ta p env).ta.life = .dangling := by
      rw [hrun]
      exact life_of_dangling ⟨_, rfl, hrt, hinst⟩
    have hlife : ta.life = .live ∨ ta.life = .dangling := by
      rw [life_of_runtime hs hrt]
      split
      · exact .inl rfl
      · exact .inr rfl
    rcases hlife with hlife | hlife
    all_goals
      refine kept_perform h ht hevent hin ?_ ?_
      · rw [hlife]
        exact hnext
      · rw [hlife]
        exact List.mem_singleton.2 hout

/-- The event of a RUN_WASM of the right types. -/
theorem event_runWasm (load : Loader σ) (ht : p.types = Command.runWasm.paramTypes) (env : Env) :
    HostCall.event load (.invokeCommand ⟨.runWasm, p, env⟩) =
      if env.heapMalloc = false ∨ env.wasmMalloc = false then .exhausted
      else if setsUp load p.memref0 env then .launched else .unloadable :=
  if_neg (not_not.2 ht)

/-- **RUN_WASM.** -/
theorem kept_runWasm (load : Loader σ) (env : Env) (h : ta.InOrder)
    (ht : p.types = Command.runWasm.paramTypes) :
    Kept load ta (.invokeCommand ⟨.runWasm, p, env⟩) := by
  have hevent := event_runWasm load ht env
  cases hs : ta.sess with
  | none =>
    have hrun : runWasm load ta p env = ⟨.generic, p, ta, []⟩ := by simp only [runWasm, hs]
    refine kept_perform h ht hevent ?_ ?_ ?_
    · rw [perform, hrun]
      exact h
    · rw [perform, hrun, life_of_none hs]
      repeat' split
      all_goals rfl
    · rw [perform, hrun, life_of_none hs]
      repeat' split
      all_goals exact List.mem_singleton_self _
  | some s =>
    by_cases halloc : env.heapMalloc = false ∨ env.wasmMalloc = false
    · rw [if_pos halloc] at hevent
      obtain ⟨hout, hnext, halive, hctx⟩ := runWasm_exhausted load p hs halloc
      have hin : (runWasm load ta p env).ta.InOrder := by
        refine ⟨halive.trans h.alive, fun inst hi => ?_⟩
        rw [hctx] at hi ⊢
        exact h.wasmModule inst hi
      rcases life_of_some hs with hlife | hlife | hlife
      all_goals
        refine kept_perform h ht hevent hin ?_ ?_
        · rw [perform, hnext, hlife]
          rfl
        · rw [hlife]
          exact List.mem_singleton.2 hout
    rw [if_neg halloc] at hevent
    rw [not_or, Bool.not_eq_false, Bool.not_eq_false] at halloc
    obtain ⟨hheap, hwasm⟩ := halloc
    by_cases hi : Initialises load p.memref0 env
    · rw [if_pos ((setsUp_iff hheap hwasm).2 hi)] at hevent
      obtain ⟨hout, hlive⟩ := runWasm_live h.alive hs hi
      rcases life_of_some hs with hlife | hlife | hlife
      all_goals
        refine kept_perform h ht hevent hlive.inOrder ?_ ?_
        · rw [hlife]
          exact hlive.life
        · rw [hlife]
          exact List.mem_pair.2 hout
    · rw [if_neg (mt (setsUp_iff hheap hwasm).1 hi)] at hevent
      exact kept_unloadable h ht hs hevent hheap hwasm hi

/-- **RESUME_WASM**, where it does not hand WAMR a NULL. -/
theorem kept_resumeWasm (load : Loader σ) (env : Env) (h : ta.InOrder)
    (ht : p.types = Command.resumeWasm.paramTypes) (hnull : ¬ ta.Dangling) :
    Kept load ta (.invokeCommand ⟨.resumeWasm, p, env⟩) := by
  have hevent : HostCall.event load (.invokeCommand ⟨.resumeWasm, p, env⟩) = .resumed :=
    if_neg (not_not.2 ht)
  have hrefused : ∀ q : Life, ta.life = q → q.outcomes .resumed = [(.generic, [])] →
      q.next .resumed = q → ta.NoRuntime → Kept load ta (.invokeCommand ⟨.resumeWasm, p, env⟩) := by
    intro q hlife hout hnext hno
    refine kept_of_refused (r := .generic) h ?_ ?_ ?_
    · rw [enter_invoke load h.alive ht env, perform, resumeWasm_of_noRuntime p env hno]
      rfl
    · rw [hlife, hevent, hnext]
    · rw [hlife, hevent, hout]
      exact List.mem_singleton_self _
  cases hs : ta.sess with
  | none =>
    refine hrefused _ (life_of_none hs) rfl rfl fun s' hs' => ?_
    rw [hs] at hs'
    cases hs'
  | some s =>
    cases hrt : s.runtime with
    | false =>
      exact hrefused _ (life_of_idle hs hrt) rfl rfl ((noRuntime_iff hs).2 hrt)
    | true =>
      cases hi : ta.runtimeCtx.moduleInst with
      | none => exact absurd ⟨s, hs, hrt, hi⟩ hnull
      | some inst =>
        have hlive := h.live hs hrt hi
        obtain ⟨hout, hlive'⟩ := resumeWasm_live hlive p env
        refine kept_perform h ht hevent hlive'.inOrder ?_ ?_
        · rw [hlive.life]
          exact hlive'.life
        · rw [hlive.life]
          exact List.mem_singleton.2 hout

/-- CONFIGURE_HEAP sets a size that nothing here depends on. -/
theorem kept_configureHeap (load : Loader σ) (env : Env) (h : ta.InOrder)
    (ht : p.types = Command.configureHeap.paramTypes) :
    Kept load ta (.invokeCommand ⟨.configureHeap, p, env⟩) := by
  have hevent : HostCall.event load (.invokeCommand ⟨.configureHeap, p, env⟩) = .configured :=
    if_neg (not_not.2 ht)
  have hsame : (configureHeap ta p).ta.life = ta.life := life_congr rfl rfl
  refine kept_perform h ht hevent ⟨h.alive, h.wasmModule⟩ ?_ ?_
  · rw [perform, hsame]
    cases ta.life <;> rfl
  · show (TeeResult.success, []) ∈ _
    cases ta.life <;> decide

/-- **Every call whose outcome the code decides keeps to the
automaton.** -/
theorem kept (load : Loader σ) {c : HostCall} (h : ta.InOrder) (hc : c.Safe load ta) :
    Kept load ta c := by
  cases c with
  | openSession types mallocOk => exact kept_openSession load h types mallocOk
  | unknownCommand => exact kept_of_malformed h rfl rfl
  | invokeCommand c =>
    obtain ⟨cmd, p, env⟩ := c
    by_cases ht : p.types = cmd.paramTypes
    · cases cmd with
      | runWasm => exact kept_runWasm load env h ht
      | resumeWasm => exact kept_resumeWasm load env h ht fun hd => hc.notNull ⟨rfl, ht, hd⟩
      | configureHeap => exact kept_configureHeap load env h ht
    · refine kept_of_malformed h (if_pos ht) ?_
      simp only [Ta.enter, invoke_malformed load h.alive ht env]
      rfl

/-! ## Runs -/

/-- What the automaton allows. -/
def allows (q : Life) (e : LifeEvent) : Set Outcome := {o | o ∈ q.outcomes e}

theorem keepsTo_lifecycle (load : Loader σ) :
    KeepsTo (Ta.enter load) lifecycle allows Ta.life (HostCall.event load) Ta.InOrder
      (fun ta c => c.Safe load ta) where
  invariant _ _ h hc := (kept load h hc).inOrder
  next _ _ h hc := (kept load h hc).next
  answer _ _ h hc := (kept load h hc).answer

theorem inOrder_created : (Ta.created : Ta σ).InOrder := by
  refine ⟨rfl, fun inst hi => ?_⟩
  cases hi

/-- **Every run of an instance keeps to the automaton.** For every loader
and every sequence of calls into an instance, with any modules and
whatever the allocations and WAMR come to, of which each keeps to its
memory and none hands WAMR a NULL instance: the stage the instance gets to
is that of the automaton behind the events of the calls, and every call on
the way has one of the results the automaton allows there and executes the
steps that go with it. -/
theorem instance_keeps_to_lifecycle (load : Loader σ) (calls : List HostCall)
    (h : Along (Ta.enter load) (fun ta c => c.Safe load ta) Ta.created calls) :
    (runMachine (Ta.enter load) Ta.created calls).2.life =
        lifecycle.eval (calls.map (HostCall.event load)) ∧
      Allowed lifecycle allows .closed (calls.map (HostCall.event load))
        (runMachine (Ta.enter load) Ta.created calls).1 :=
  (keepsTo_lifecycle load).run inOrder_created h

/-! ## Where the instance is missing -/

/-- The events behind which the instance is missing: a module ran in a
session, a later RUN_WASM could not set up its own, and none has since. -/
def Dangles (w : List LifeEvent) : Prop :=
  ∃ a b c, w = a ++ .launched :: b ++ .unloadable :: c ∧ .opened true ∈ a ∧ .launched ∉ c

/-- What the events behind which an instance is in a stage are like. -/
def Life.Reached : Life → List LifeEvent → Prop
  | .closed, _ => True
  | .idle, w => .opened true ∈ w
  | .live, w => ∃ a b, w = a ++ .launched :: b ∧ .opened true ∈ a
  | .dangling, w => Dangles w

theorem Life.Reached.live_append {w : List LifeEvent} (h : Life.live.Reached w) (e : LifeEvent) :
    Life.live.Reached (w ++ [e]) := by
  obtain ⟨a, b, rfl, ha⟩ := h
  exact ⟨a, b ++ [e], by simp, ha⟩

theorem Dangles.append {w : List LifeEvent} (h : Dangles w) {e : LifeEvent} (he : e ≠ .launched) :
    Dangles (w ++ [e]) := by
  obtain ⟨a, b, c, rfl, ha, hc⟩ := h
  refine ⟨a, b, c ++ [e], by simp, ha, ?_⟩
  rw [List.mem_append, List.mem_singleton]
  rintro (h | h)
  · exact hc h
  · exact he h.symm

/-- One event more. -/
theorem Life.Reached.next {q : Life} {w : List LifeEvent} (h : q.Reached w) (e : LifeEvent) :
    (q.next e).Reached (w ++ [e]) := by
  cases q with
  | closed =>
    by_cases he : e = .opened true
    · subst he
      exact List.mem_append_right _ (List.mem_singleton_self _)
    · have hnext : Life.closed.next e = .closed := by revert e; decide
      rw [hnext]
      trivial
  | idle =>
    by_cases he : e = .launched
    · subst he
      exact ⟨w, [], rfl, h⟩
    · have hnext : Life.idle.next e = .idle := by revert e; decide
      rw [hnext]
      exact List.mem_append_left _ h
  | live =>
    by_cases he : e = .unloadable
    · subst he
      obtain ⟨a, b, rfl, ha⟩ := h
      exact ⟨a, b, [], rfl, ha, List.not_mem_nil⟩
    · have hnext : Life.live.next e = .live := by revert e; decide
      rw [hnext]
      exact h.live_append e
  | dangling =>
    by_cases hl : e = .launched
    · subst hl
      obtain ⟨a, b, c, rfl, ha, -⟩ := h
      exact ⟨a, b ++ .unloadable :: c ++ [.launched], by simp, ha⟩
    · have hnext : Life.dangling.next e = .dangling := by revert e; decide
      rw [hnext]
      exact Dangles.append h hl

theorem reached_eval (w : List LifeEvent) : (lifecycle.eval w).Reached w :=
  eval_induction (A := lifecycle) (P := Life.Reached) trivial (fun _ _ e h => h.next e) w

/-- An event that leads from one set of stages to another, and a word that
does not leave that one. -/
theorem evalFrom_stages {T U : List Life} {q : Life} {e : LifeEvent} {w : List LifeEvent}
    (hq : q ∈ T) (he : ∀ q ∈ T, Life.next q e ∈ U)
    (hw : ∀ e' ∈ w, ∀ q ∈ U, Life.next q e' ∈ U) : lifecycle.evalFrom q (e :: w) ∈ U := by
  rw [DFA.evalFrom_cons]
  exact evalFrom_mem (T := {q | q ∈ U}) (fun q hq e' he' => hw e' he' q hq) (he q hq)

/-- **A word leads to the missing instance** exactly where it is one of
these. -/
theorem eval_eq_dangling_iff (w : List LifeEvent) : lifecycle.eval w = .dangling ↔ Dangles w := by
  constructor
  · intro h
    have hw := reached_eval w
    rwa [h] at hw
  · rintro ⟨a, b, c, rfl, ha, hc⟩
    obtain ⟨a₁, a₂, rfl⟩ := List.append_of_mem ha
    have hall : ∀ T : List Life, (∀ q ∈ T, ∀ e, Life.next q e ∈ T) →
        ∀ w : List LifeEvent, ∀ e ∈ w, ∀ q ∈ T, Life.next q e ∈ T :=
      fun T hT w e _ q hq => hT q hq e
    have hany : lifecycle.eval a₁ ∈ [.closed, .idle, .live, .dangling] := by
      cases lifecycle.eval a₁ <;> decide
    have hopened : lifecycle.evalFrom (lifecycle.eval a₁) (.opened true :: a₂) ∈
        [.idle, .live, .dangling] :=
      evalFrom_stages hany (by decide) (hall _ (by decide) _)
    have hlaunched := evalFrom_stages (U := [.live, .dangling]) (e := .launched) (w := b)
      hopened (by decide) (hall _ (by decide) _)
    have hdangling := evalFrom_stages (U := [.dangling]) (e := .unloadable) (w := c)
      hlaunched (by decide) fun e he => by
        have hne : e ≠ .launched := fun h => hc (h ▸ he)
        clear he
        revert e
        decide
    rw [DFA.eval, DFA.evalFrom_of_append, DFA.evalFrom_of_append, DFA.evalFrom_of_append]
    exact List.mem_singleton.1 hdangling

/-- **When a RESUME_WASM would hand WAMR a NULL instance.** Behind every
sequence of calls into an instance of which each keeps to its memory and
none has handed WAMR a NULL yet: `sc->runtime` is set and its
`module_inst` is NULL, which is what the next well-formed RESUME_WASM
would hand on, if and only if, in a session that was opened, some RUN_WASM
came to its `step_init`, a later one got its buffers and could not set up
its module, and none has come to its `step_init` since. -/
theorem null_instance_iff (load : Loader σ) (calls : List HostCall)
    (h : Along (Ta.enter load) (fun ta c => c.Safe load ta) Ta.created calls) :
    (runMachine (Ta.enter load) Ta.created calls).2.Dangling ↔
      Dangles (calls.map (HostCall.event load)) := by
  have hlife := ((keepsTo_lifecycle load).run inOrder_created h).1
  rw [← eval_eq_dangling_iff, ← life_eq_dangling_iff, hlife]
  rfl

/-- The loader that finds a module in one bytecode only. -/
def onlySmallest : Loader ℕ := fun wasm => if wasm = smallestWasm then some idleModule else none

/-- A session in which a module is run and resumed, and then a RUN_WASM
that holds none. -/
def reloads : List HostCall :=
  [.openSession [.none, .none, .none, .none] true, .unknownCommand,
    .invokeCommand ⟨.configureHeap, configureWith smallHeap, Env.ok⟩,
    .invokeCommand ⟨.runWasm, runWith smallestWasm wholeBuffer, Env.ok⟩,
    .invokeCommand ⟨.resumeWasm, resumeWith wholeBuffer, Env.ok⟩,
    .invokeCommand ⟨.runWasm, runWith (ascii "text") wholeBuffer, Env.ok⟩]

theorem reloads_safe :
    Along (Ta.enter onlySmallest) (fun ta c => c.Safe onlySmallest ta) Ta.created reloads := by
  refine ⟨⟨trivial, fun hn => hn⟩, ⟨trivial, fun hn => hn⟩,
    ⟨⟨fun c hc => ?_, fun _ _ => trivial⟩, fun hn => ?_⟩,
    ⟨contained_of_whole rfl (by decide +kernel), fun hn => ?_⟩,
    ⟨contained_of_whole rfl (by decide +kernel), fun hn => ?_⟩,
    ⟨contained_of_whole rfl (by decide +kernel), fun hn => ?_⟩, trivial⟩
  · cases hc
  · cases hn.1
  · cases hn.1
  · -- the module is there when it is resumed
    have hlife := life_of_dangling hn.2.2
    revert hlife
    decide +kernel
  · cases hn.1

/-- Its calls come to what the automaton says. -/
theorem instance_keeps_to_lifecycle_reloads :
    (runMachine (Ta.enter onlySmallest) Ta.created reloads).1 =
        [(.success, []), (.badParameters, []), (.success, []),
          (.success, [.stepInit, .stepResume]), (.success, [.stepResume]), (.generic, [])] ∧
      Allowed lifecycle allows .closed (reloads.map (HostCall.event onlySmallest))
        (runMachine (Ta.enter onlySmallest) Ta.created reloads).1 :=
  ⟨by decide +kernel, (instance_keeps_to_lifecycle onlySmallest reloads reloads_safe).2⟩

/-- Behind them the instance is missing. -/
theorem null_instance_iff_reloads :
    (runMachine (Ta.enter onlySmallest) Ta.created reloads).2.Dangling := by
  have hevents : reloads.map (HostCall.event onlySmallest) =
      [.opened true, .malformed, .configured, .launched, .resumed, .unloadable] := by
    decide +kernel
  refine (null_instance_iff onlySmallest reloads reloads_safe).2 ?_
  rw [hevents]
  exact ⟨[.opened true, .malformed, .configured], [.resumed], [], rfl, by decide, by decide⟩

end TeeChaincode
