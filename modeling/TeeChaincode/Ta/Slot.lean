import TeeChaincode.Ta.Failures

/-!
# What a request leaves for its reply

`cc_get_state` records, besides its key, the range of linear memory its
value goes to. The range is used when RESUME_WASM comes, against the
memory the module has by then. This module follows it from the call to
the resume, for an arbitrary module: the slot of the session holds the
range of the last request, and the range still lies in linear memory,
which never shrinks.
-/

namespace TeeChaincode

open Common

variable {σ : Type} {c : NativeCall} {m : Memory} {s : Session}

/-! ## The slot -/

/-- The request pending in a session, and the range its value goes to. -/
def Session.slot (s : Session) : Option (Request × UInt32 × Int32) :=
  s.request.map fun q => (q, s.wasmOutOffset, s.wasmOutLen)

/-- What a call leaves there. -/
def NativeCall.slot (m : Memory) : NativeCall → Option (Request × UInt32 × Int32)
  | .ccGetState keyPtr keyLen outPtr outLen =>
    some (.get (clip 63 (addressed m keyPtr keyLen)), outPtr, outLen)
  | .ccPutState keyPtr keyLen valPtr valLen =>
    some (.put (clip 63 (addressed m keyPtr keyLen)) (clip 255 (addressed m valPtr valLen)), 0, 0)
  | _ => none

theorem slot_callNative (h : c.Valid m) :
    (callNative c m s).sess.slot = (c.slot m).or s.slot := by
  have hreq := request_callNative (s := s) h
  cases c with
  | ccGetState keyPtr keyLen outPtr outLen =>
    obtain ⟨⟨hk, hkin⟩, ho, hoin⟩ := h
    rw [Session.slot, hreq]
    simp only [callNative, ccGetStateNative_eq hk hkin ho hoin]
    rfl
  | ccPutState keyPtr keyLen valPtr valLen =>
    obtain ⟨⟨hk, hkin⟩, hv, hvin⟩ := h
    rw [Session.slot, hreq]
    simp only [callNative, ccPutStateNative_eq hk hkin hv hvin]
    rfl
  | ccReturnResponse msgPtr msgLen =>
    obtain ⟨response, hs⟩ := ccReturnResponseNative_sess msgPtr m s h
    rw [callNative, hs]
    rfl
  | _ =>
    rw [callNative_sess (by exact id)]
    rfl

/-- **The last request made is in the slot, with its range.** -/
theorem slot_after {calls : List (NativeCall × Instance σ)}
    (h : ∀ c ∈ calls, c.1.Valid c.2.mem) (s : Session) :
    (s.after calls).slot = (calls.filterMap fun c => c.1.slot c.2.mem).getLast?.or s.slot :=
  Guest.hostAfter_last (fun c hc _ => slot_callNative (h c hc)) s

theorem isSome_slot (c : NativeCall) (m : Memory) : (c.slot m).isSome = (c.request m).isSome := by
  cases c <;> rfl

/-- Only a state call makes something pending. -/
theorem pendingType_callNative (hc : c.request m = none) (hs : s.pendingType = .none) :
    (callNative c m s).sess.pendingType = .none := by
  cases c with
  | ccGetState => cases hc
  | ccPutState => cases hc
  | ccReturnResponse msgPtr msgLen =>
    simp only [callNative, ccReturnResponseNative, Session.storeResponse, Session.storeZero]
    repeat' split
    all_goals first | exact hs | rfl
  | _ =>
    rw [callNative_sess (by exact id)]
    exact hs

theorem pendingType_after {calls : List (NativeCall × Instance σ)}
    (h : ∀ c ∈ calls, c.1.request c.2.mem = none) (hs : s.pendingType = .none) :
    (s.after calls).pendingType = .none :=
  Guest.hostAfter_invariant (I := fun s : Session => s.pendingType = .none)
    (fun c hc _ => pendingType_callNative (h c hc)) hs

/-! ## Memory does not shrink -/

/-- No native changes the size of linear memory. -/
theorem callNative_size (c : NativeCall) (m : Memory) (s : Session) :
    (callNative c m s).mem.size = m.size := by
  cases c with
  | ccGetState keyPtr keyLen outPtr outLen =>
    simp only [callNative, ccGetStateNative]
    split <;> rfl
  | ccPutState | ccReturnResponse => rfl
  | _ => exact (callNative_plain (by exact id) m s s).2.2

/-- Linear memory, as WASM has it: no code of the module makes it
smaller. -/
def WasmModule.Grows (M : WasmModule σ) : Prop :=
  ∀ name fn, M.export? name = some fn → ∀ inst : Instance σ,
    (fn inst).Climbs (fun g => g.mem.size) inst.mem.size

/-- The TA's module, where it has one, is such a module. -/
def Ta.Growing (ta : Ta σ) : Prop := ∀ M, ta.runtimeCtx.wasmModule = some M → M.Grows

/-- A step leaves room for everything that fitted at its calls. -/
theorem callStep_grows {ctx : WamrContext σ} {name : StepName} {execEnvOk : Bool}
    {r : StepResult σ} {inst : Instance σ} (hM : ∀ M, ctx.wasmModule = some M → M.Grows)
    (hi : ctx.moduleInst = some inst) (h : callStep ctx name execEnvOk s = some r) :
    r.ctx.wasmModule = ctx.wasmModule ∧
      ∃ inst', r.ctx.moduleInst = some inst' ∧ inst.mem.size ≤ inst'.mem.size ∧
        ∀ c ∈ r.trace.calls, c.2.mem.size ≤ inst'.mem.size := by
  obtain ⟨M, inst₀, hMod, hinst, hc⟩ := callStep_cases h
  obtain rfl := Option.some.inj (hi.symm.trans hinst)
  -- a step that was called has run an export of a module that only grows
  have hclimbs : ∀ fn, M.export? name = some fn →
      inst.mem.size ≤ ((fn inst).exec natives s).guest.mem.size ∧
        ∀ c ∈ ((fn inst).exec natives s).calls,
          c.2.mem.size ≤ ((fn inst).exec natives s).guest.mem.size := fun fn hfn =>
    Guest.exec_climbs (H := natives) (fun c g s => (callNative_size c g.mem s).ge) (fn inst)
      (hM M hMod name fn hfn inst)
  cases hc with
  | notCalled _ => exact ⟨rfl, inst, hi, le_rfl, by simp⟩
  | returned fn hfn _ _ => exact ⟨rfl, _, rfl, hclimbs fn hfn⟩
  | trapped fn ex hfn _ _ => exact ⟨rfl, _, rfl, hclimbs fn hfn⟩

/-! ## Commands that were answered -/

/-- The TA is ready for a reply to what a command asked: it has a module
to resume, and whatever range was valid at a call of the command lies in
linear memory. -/
structure Ready (ta : Ta σ) (calls : List (NativeCall × Instance σ)) : Prop where
  live : ta.Live
  growing : ta.Growing
  room : ∃ inst, ta.runtimeCtx.moduleInst = some inst ∧
    ∀ c ∈ calls, c.2.mem.size ≤ inst.mem.size

variable {ta : Ta σ} {p : Params} {env : Env} {load : Loader σ}

/-- Behind `process_hostcall_flow`. -/
theorem processHostcallFlow_ready (ta : Ta σ) (s : Session) (p : Params) (env : Env)
    {M : WasmModule σ} {inst : Instance σ} (halive : ta.panicked = false) (hg : ta.Growing)
    (hM : ta.runtimeCtx.wasmModule = some M) (hi : ta.runtimeCtx.moduleInst = some inst)
    (hrt : s.runtime = true) (calls : List (NativeCall × Instance σ))
    (hc : ∀ c ∈ calls, c.2.mem.size ≤ inst.mem.size) :
    Ready (processHostcallFlow ta s p env).ta
      (calls ++ callsOf (processHostcallFlow ta s p env).steps) := by
  obtain ⟨r, hr⟩ := callStep_isSome .stepResume env.execEnv s hM hi
  obtain ⟨hmod, inst', hi', hsize, hcalls⟩ := callStep_grows hg hi hr
  have hsess := (callStep_stepped hr).sess
  have hready : Ready { ta with sess := some r.sess, runtimeCtx := r.ctx }
      (calls ++ callsOf [r.trace]) := by
    refine ⟨⟨halive, ⟨r.sess, rfl, ?_⟩, ⟨M, hmod.trans hM⟩, inst', hi'⟩, ?_, inst', hi', ?_⟩
    · rw [hsess, Session.runtime_after, hrt]
    · intro M' hM'
      exact hg M' (hmod ▸ hM')
    · intro c hmem
      rcases List.mem_append.1 hmem with hold | hnew
      · have hle := hc c hold
        omega
      · exact hcalls c (by simpa [callsOf] using hnew)
  simp only [processHostcallFlow, hr]
  split
  · exact hready
  · exact hready

/-- A RUN_WASM whose runtime is not initialised fails and executes
nothing. -/
theorem runWasm_of_not (hs : ta.sess = some s) (hi : ¬ Initialises load p.memref0 env) :
    (runWasm load ta p env).result ≠ .success ∧ (runWasm load ta p env).steps = [] := by
  by_cases halloc : env.heapMalloc = false ∨ env.wasmMalloc = false
  · simp only [runWasm, hs, if_pos halloc]
    exact ⟨by simp, trivial⟩
  · simp only [not_or, Bool.not_eq_false] at halloc
    obtain ⟨ctx, -, hrun⟩ := runWasm_of_not_initialises ta p hs halloc.1 halloc.2 hi
    rw [hrun]
    exact ⟨by simp, rfl⟩

/-- Behind a RUN_WASM that succeeded. -/
theorem runWasm_ready (hload : ∀ wasm M, load wasm = some M → M.Grows)
    (halive : ta.panicked = false) (hs : ta.sess = some s)
    (hres : (runWasm load ta p env).result = .success) :
    Ready (runWasm load ta p env).ta (callsOf (runWasm load ta p env).steps) := by
  by_cases hi : Initialises load p.memref0 env
  · obtain ⟨M, hM⟩ := hi.wasmModule
    have hg : ∀ M', (WamrContext.launched ta p M).wasmModule = some M' → M'.Grows := by
      intro M' hM'
      obtain rfl := Option.some.inj hM'
      exact hload _ M hM
    rw [runWasm_of_initialises hs hi hM, Ta.firstSteps] at hres ⊢
    have hsome : ∃ st, callStep (WamrContext.launched ta p M) .stepInit env.execEnvInit
        (s.launched p) = some st :=
      callStep_isSome .stepInit env.execEnvInit (s.launched p) rfl rfl
    obtain ⟨st, hst⟩ := hsome
    obtain ⟨hmod, inst, hinst, -, hcalls⟩ := callStep_grows hg rfl hst
    have hsess := (callStep_stepped hst).sess
    rw [hst] at hres ⊢
    dsimp only at hres ⊢
    split
    · refine processHostcallFlow_ready { ta with sess := some st.sess, runtimeCtx := st.ctx }
        st.sess _ env halive (fun M' hM' => hg M' (hmod ▸ hM')) hmod hinst ?_ _ hcalls
      rw [hsess, Session.runtime_after]
      rfl
    · next hok =>
      rw [if_neg hok] at hres
      cases hres
  · exact absurd hres (runWasm_of_not hs hi).1

/-- The instance the step of a RESUME_WASM starts in. -/
def resumedInst (s : Session) (inst : Instance σ) (buf : Bytes) : Instance σ :=
  if s.pendingType = .getState then { inst with mem := copyReply s buf inst.mem } else inst

/-- **RESUME_WASM is `process_hostcall_flow`** on the instance with the
reply copied. -/
theorem resumeWasm_starts {inst : Instance σ} (hs : ta.sess = some s) (hrt : s.runtime = true)
    (hi : ta.runtimeCtx.moduleInst = some inst) (p : Params) (env : Env) :
    ∃ s₀, s₀.runtime = true ∧ resumeWasm ta p env = processHostcallFlow
      { ta with
        sess := some s₀
        runtimeCtx := { ta.runtimeCtx with
          moduleInst := some (resumedInst s inst p.memref2.buffer) } } s₀ p env := by
  have hne : ¬ s.runtime = false := by rw [hrt]; decide
  have hctx : { ta.runtimeCtx with moduleInst := some inst } = ta.runtimeCtx := by rw [← hi]
  simp only [resumeWasm, hs, if_neg hne, hi, resumedInst]
  cases hp : s.pendingType with
  | getState =>
    exact ⟨{ s with pendingType := .none, wasmOutOffset := 0, wasmOutLen := 0 }, hrt, rfl⟩
  | putState =>
    refine ⟨{ s with pendingType := .none }, hrt, ?_⟩
    rw [if_neg (by decide), hctx]
  | none =>
    refine ⟨s, hrt, ?_⟩
    rw [if_neg (by decide), hctx, ← hs]

/-- Behind a RESUME_WASM that succeeded. -/
theorem resume_ready (hg : ta.Growing)
    (hres : (invokeCommandEntryPoint load ta .resumeWasm p env).result = .success) :
    Ready (invokeCommandEntryPoint load ta .resumeWasm p env).ta
      (callsOf (invokeCommandEntryPoint load ta .resumeWasm p env).steps) := by
  have hlive : ta.Live := by
    by_contra hdead
    exact resume_result_of_not_live load p env hdead hres
  obtain ⟨halive, ⟨s, hs, hrt⟩, ⟨M, hM⟩, inst, hi⟩ := id hlive
  obtain ⟨s₀, hrt₀, hstart⟩ := resumeWasm_starts hs hrt hi p env
  have hcmd : invokeCommandEntryPoint load ta .resumeWasm p env = resumeWasm ta p env := by
    rcases invoke_cases load ta .resumeWasm p env with ⟨res, hne, hinv⟩ | ⟨-, -, hinv⟩
    · rw [hinv] at hres
      exact absurd hres hne
    · exact hinv
  rw [hcmd, hstart]
  exact processHostcallFlow_ready { ta with
      sess := some s₀
      runtimeCtx := { ta.runtimeCtx with
        moduleInst := some (resumedInst s inst p.memref2.buffer) } } s₀ p env halive hg hM rfl hrt₀
    [] fun c hc => absurd hc List.not_mem_nil

end TeeChaincode
