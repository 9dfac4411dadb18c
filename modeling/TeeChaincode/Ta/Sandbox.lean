import TeeChaincode.Ta.Guards
import TeeChaincode.Ta.Shared

/-!
# The sandbox

A module sees the TA through its natives, and the TA's memory is around
the module's linear memory. The natives take addresses from the module,
and a reply to a GET request is copied to a range the module has named, so
each of them must keep to linear memory: WAMR guards the module's own
loads and stores, not theirs. They do, for any arguments. What they store
beside that belongs to the TA: the session, where `cc_return_response`
keeps to its field as long as its length is not negative, and the shared
buffer, as long as it has room. So in every run of such commands nothing
else is written, and in every run of commands nothing that stands outside
linear memory reaches a reply.
-/

namespace TeeChaincode

open Common

variable {σ : Type} {m m' : Memory} {s : Session}

/-! ## Addresses -/

/-- **A pointer that was converted**: the range it was asked for is inside
linear memory. -/
theorem toNative_eq_some {off size : UInt32} {o : ℕ} (h : (toNative m off size).1 = some o) :
    o = off.toNat ∧ o + size.toNat ≤ m.size := by
  rw [toNative] at h
  split at h
  · cases h
  next hthrow =>
  obtain ⟨hlt, rfl⟩ : off.toNat < m.size ∧ off.toNat = o := by simpa [addrAppToNative] using h
  refine ⟨rfl, ?_⟩
  rcases eq_or_ne size 0 with rfl | hne
  · exact hlt.le
  · have hv : validateAppAddr m off size = true := by
      by_contra hv
      exact hthrow ⟨hne, by simpa using hv⟩
    exact of_decide_eq_true hv

theorem copyOut_within {out : ℕ} {outLen : Int32} (hpos : 0 < outLen.toInt)
    (hin : out + outLen.toInt.toNat ≤ m.size) (src : Bytes) :
    m.Within (copyOut m out outLen src).1 :=
  (copyOut_spec m out outLen hpos src).1.within hin

/-- **No native writes outside linear memory**, whatever its arguments. -/
theorem callNative_within (c : NativeCall) (m : Memory) (s : Session) :
    m.Within (callNative c m s).mem := by
  have hmove : ∀ dstPtr srcPtr n : UInt32, m.Within (envMemmoveNative dstPtr srcPtr n m s).mem := by
    intro dstPtr srcPtr n
    simp only [envMemmoveNative]
    split
    · next d p hd _ =>
      obtain ⟨-, hin⟩ := toNative_eq_some hd
      refine (Memory.SameOutside.write le_rfl ?_).within hin
      rw [Memory.length_read]
    · split <;> exact .refl m
  cases c with
  | ccGetFunction outPtr outLen =>
    simp only [callNative, ccGetFunctionNative]
    split
    · exact .refl m
    next hpos =>
    split
    · exact .refl m
    next hv =>
    split
    · exact .refl m
    next out hout =>
    obtain ⟨-, rfl⟩ : outPtr.toNat < m.size ∧ outPtr.toNat = out := by
      simpa [addrAppToNative] using hout
    have hlen : outLen.toUInt32.toNat = outLen.toInt.toNat := toUInt32_toNat (by omega)
    have hin : outPtr.toNat + outLen.toUInt32.toNat ≤ m.size := by
      simpa [validateAppAddr] using hv
    rw [hlen] at hin
    exact copyOut_within (by omega) hin _
  | ccGetArg idx outPtr outLen =>
    simp only [callNative, ccGetArgNative]
    split
    · exact .refl m
    next out hout =>
    split
    · exact .refl m
    next hpos =>
    have hlen : outLen.toUInt32.toNat = outLen.toInt.toNat := toUInt32_toNat (by omega)
    obtain ⟨-, hin⟩ := toNative_eq_some hout
    rw [hlen] at hin
    exact copyOut_within (by omega) hin _
  | ccGetState keyPtr keyLen outPtr outLen =>
    simp only [callNative, ccGetStateNative]
    split <;> exact .refl m
  | ccLog msgPtr msgLen =>
    simp only [callNative, ccLogNative]
    repeat' split
    all_goals exact .refl m
  | ccPutState | ccReturnResponse | debugLog => exact .refl m
  | memset dstPtr c n =>
    simp only [callNative, envMemsetNative]
    split
    · split <;> exact .refl m
    next d hd =>
    obtain ⟨-, hin⟩ := toNative_eq_some hd
    exact Memory.SameOutside.fill.within hin
  | memcpy dstPtr srcPtr n => exact hmove dstPtr srcPtr n
  | memmove dstPtr srcPtr n => exact hmove dstPtr srcPtr n

/-- **Nor does the copy of a reply**: the range is checked again, against
the memory the module has by then. -/
theorem copyReply_within (s : Session) (buf : Bytes) (m : Memory) :
    m.Within (copyReply s buf m) := by
  by_cases hrange : s.wasmOutOffset ≠ 0 ∧ 0 < s.wasmOutLen.toInt ∧
      validateAppAddr m s.wasmOutOffset s.wasmOutLen.toUInt32 = true
  · obtain ⟨h0, hl, hv⟩ := hrange
    have hlen : s.wasmOutLen.toUInt32.toNat = s.wasmOutLen.toInt.toNat := toUInt32_toNat hl.le
    have hin : s.wasmOutOffset.toNat + s.wasmOutLen.toUInt32.toNat ≤ m.size :=
      of_decide_eq_true hv
    rw [hlen] at hin
    rw [copyReply_eq buf h0 hl hin]
    split
    · exact .refl m
    · refine (Memory.SameOutside.fill.trans (.write le_rfl ?_)).within hin
      have hclip := (clip_fits (s.wasmOutLen.toInt.toNat - 1) (buf.drop keySize)).2
      omega
  · rw [copyReply, if_neg hrange]
    exact .refl m

/-! ## Reading -/

/-- What two runs of a native come to, on memories that are the same
inside. -/
structure NativeResult.SameInside (r r' : NativeResult) : Prop where
  ret : r.ret = r'.ret
  mem : r.mem.SameInside r'.mem
  sess : r.sess = r'.sess
  ex : r.ex = r'.ex

/-- Two instances that are the same but for what is outside their linear
memories. -/
structure Instance.SameInside (g g' : Instance σ) : Prop where
  globals : g.globals = g'.globals
  mem : g.mem.SameInside g'.mem

/-- **A module that WAMR guards**: its own stores are to linear memory,
which it does not make smaller. -/
def WasmModule.Confined (M : WasmModule σ) : Prop :=
  ∀ name fn, M.export? name = some fn → ∀ inst : Instance σ,
    (fn inst).Keeps (fun g g' => g.mem.Within g'.mem) inst

/-- **Two modules that WAMR guards**, and that are the same but for what
is outside their linear memories: their own loads are from there. -/
structure WasmModule.SameInside (M M' : WasmModule σ) : Prop where
  initial : M.initial.SameInside M'.initial
  export? : ∀ name, Option.Rel (fun fn fn' : WasmCode σ Unit => ∀ g g' : Instance σ,
    g.SameInside g' → (fn g).Alike Instance.SameInside (fn' g')) (M.export? name) (M'.export? name)

theorem natives_within (c : NativeCall) (g : Instance σ) (s : Session) :
    g.mem.Within (natives c g s).guest.mem :=
  callNative_within c g.mem s

/-- The memory of an instance is, outside, as the module was
instantiated. -/
structure WamrContext.Sandboxed (ctx : WamrContext σ) : Prop where
  confined : ∀ M, ctx.wasmModule = some M → M.Confined
  within : ∀ M inst, ctx.wasmModule = some M → ctx.moduleInst = some inst →
    M.initial.mem.Within inst.mem

variable {ctx ctx' : WamrContext σ} {load load' : Loader σ} {ta ta' : Ta σ}

theorem callStep_sandboxed {name : StepName} {execEnvOk : Bool} {r : StepResult σ}
    (h : ctx.Sandboxed) (hr : callStep ctx name execEnvOk s = some r) : r.ctx.Sandboxed := by
  obtain ⟨M, inst, hM, hi, hc⟩ := callStep_cases hr
  -- a step that was called has run an export of the module
  have hran : ∀ fn, M.export? name = some fn → ∀ ctx' : WamrContext σ,
      ctx'.wasmModule = ctx.wasmModule →
      ctx'.moduleInst = some ((fn inst).exec natives s).guest → ctx'.Sandboxed := by
    intro fn hfn ctx' hmod hinst
    refine ⟨fun M' hM' => h.confined M' (hmod ▸ hM'), fun M' inst' hM' hi' => ?_⟩
    obtain rfl := Option.some.inj (hM.symm.trans (hmod.symm.trans hM'))
    obtain rfl := Option.some.inj (hinst.symm.trans hi')
    have hkeeps := h.confined M hM name fn hfn inst
    exact (h.within M inst hM hi).trans
      (hkeeps.run (fun _ _ _ hab hbc => hab.trans hbc) natives_within s)
  cases hc with
  | notCalled _ => exact h
  | returned fn hfn _ _ => exact hran fn hfn _ rfl rfl
  | trapped fn ex hfn _ _ => exact hran fn hfn _ rfl rfl

theorem processHostcallFlow_sandboxed (ta : Ta σ) (h : ta.runtimeCtx.Sandboxed) (s : Session)
    (p : Params) (env : Env) : (processHostcallFlow ta s p env).ta.runtimeCtx.Sandboxed := by
  unfold processHostcallFlow
  split
  · exact h
  next r hr =>
  have hctx := callStep_sandboxed h hr
  dsimp only
  split
  · exact hctx
  · exact hctx

/-- A runtime that is set up starts with the module as it was
instantiated. -/
theorem initializeWamrRuntime_sandboxed (hload : ∀ wasm M, load wasm = some M → M.Confined)
    (bytecode : Bytes) (heapSize : UInt32) (env : Env) :
    (initializeWamrRuntime load
      { WamrContext.zero with
        wasmBytecode := bytecode, heapSize := heapSize } env).2.Sandboxed := by
  unfold initializeWamrRuntime
  split
  · exact ⟨nofun, nofun⟩
  split
  · exact ⟨nofun, nofun⟩
  next M hM =>
  have hconfined : M.Confined := by
    split at hM
    · exact hload _ M hM
    · cases hM
  split
  · refine ⟨fun M' hM' => Option.some.inj hM' ▸ hconfined, fun M' inst hM' hi => ?_⟩
    obtain rfl := Option.some.inj hM'
    obtain rfl := Option.some.inj hi
    exact .refl _
  · exact ⟨fun M' hM' => Option.some.inj hM' ▸ hconfined, nofun⟩

theorem runWasm_sandboxed (hload : ∀ wasm M, load wasm = some M → M.Confined)
    (h : ta.runtimeCtx.Sandboxed) (p : Params) (env : Env) :
    (runWasm load ta p env).ta.runtimeCtx.Sandboxed := by
  have hctx := initializeWamrRuntime_sandboxed hload p.memref0 ta.heapSize env
  simp only [runWasm]
  split
  · exact h
  split
  · exact h
  split
  · exact hctx
  split
  · exact hctx
  unfold Ta.firstSteps
  split
  · exact hctx
  next st hst =>
  have hst' := callStep_sandboxed hctx hst
  split
  · exact processHostcallFlow_sandboxed _ hst' _ _ _
  · exact hst'

theorem resumeWasm_sandboxed (h : ta.runtimeCtx.Sandboxed) (p : Params) (env : Env) :
    (resumeWasm ta p env).ta.runtimeCtx.Sandboxed := by
  simp only [resumeWasm]
  split
  · exact h
  split
  · exact h
  split
  · split
    · exact h
    next inst hi =>
    refine processHostcallFlow_sandboxed _ ?_ _ _ _
    refine ⟨h.confined, fun M inst' hM hi' => ?_⟩
    obtain rfl := Option.some.inj hi'
    exact (h.within M inst hM hi).trans (copyReply_within _ _ _)
  · exact processHostcallFlow_sandboxed _ h _ _ _
  · exact processHostcallFlow_sandboxed _ h _ _ _

theorem issue_sandboxed (hload : ∀ wasm M, load wasm = some M → M.Confined)
    (h : ta.runtimeCtx.Sandboxed) (c : Issued) : (ta.issue load c).2.runtimeCtx.Sandboxed := by
  obtain ⟨cmd, p, env⟩ := c
  rcases invoke_cases load ta cmd p env with ⟨res, -, hinv⟩ | ⟨-, -, hinv⟩
  · simp only [Ta.issue, hinv]
    exact h
  · simp only [Ta.issue, hinv]
    cases cmd with
    | configureHeap => exact h
    | runWasm => exact runWasm_sandboxed hload h p env
    | resumeWasm => exact resumeWasm_sandboxed h p env

/-- **A command whose stores stay in their places**: those through
`params[2]` are below its size, and those of `cc_return_response` inside
`response`. -/
structure StaysInPlace (load : Loader σ) (ta : Ta σ) (c : Issued) : Prop where
  buffer : Guarded.invokeCommandEntryPoint load ta c.cmd c.params c.env =
    some (invokeCommandEntryPoint load ta c.cmd c.params c.env)
  response : ∀ msgPtr msgLen inst, (.ccReturnResponse msgPtr msgLen, inst) ∈
      callsOf (invokeCommandEntryPoint load ta c.cmd c.params c.env).steps →
    ∀ w ∈ responseWrites inst.mem msgPtr msgLen, ∀ i, w.Writes i → 0 ≤ i ∧ i < responseSize

theorem Contained.staysInPlace {c : Issued} (h : Contained load ta c) : StaysInPlace load ta c where
  buffer := h.roomy.respects.checked
  response msgPtr msgLen inst hc _ hw _ hi := by
    have hlen : 0 ≤ msgLen.toInt := h.measured _ hc
    exact responseWrites_inside inst.mem msgPtr hlen hw hi

/-- **Nothing outside linear memory is ever written**, but the TA's own
records in their places. For modules whose own stores WAMR keeps to linear
memory, and every sequence of commands in which no response has a negative
length and the buffers have room: behind it every byte outside the linear
memory of the TA's module instance is as the module's instantiation left
it, whatever addresses the module has passed to the natives; and what a
command of it has stored as a response lies inside `response`, and what it
has stored through its buffer below the size of that. -/
theorem outside_never_written {load : Loader σ}
    (hload : ∀ wasm M, load wasm = some M → M.Confined) (heapSize : UInt32) (cmds : List Issued)
    (h : Along (Ta.issue load) (Contained load) (openedTa heapSize) cmds) :
    (∀ M inst,
      (runMachine (Ta.issue load) (openedTa heapSize) cmds).2.runtimeCtx.wasmModule = some M →
      (runMachine (Ta.issue load) (openedTa heapSize) cmds).2.runtimeCtx.moduleInst = some inst →
      M.initial.mem.Within inst.mem) ∧
    Along (Ta.issue load) (StaysInPlace load) (openedTa heapSize) cmds := by
  have hopened : (openedTa heapSize : Ta σ).runtimeCtx.Sandboxed :=
    ⟨fun _ h => (by cases h), fun _ _ h => (by cases h)⟩
  have hrun := runMachine_invariant (P := fun ta : Ta σ => ta.runtimeCtx.Sandboxed)
    (fun _ c h => issue_sandboxed hload h c) hopened cmds
  exact ⟨fun M inst hM hi => hrun.within M inst hM hi, h.mono fun _ _ hc => hc.staysInPlace⟩

/-- A module that makes one call, in a page of linear memory with `v`
around it. -/
def reaching (c : NativeCall) (v : UInt8) : WasmModule Unit where
  export? _ := some fun g => .call c g fun _ g' => .ret () g'
  initial := ⟨(), ⟨wasmPage, fun i => if i < wasmPage then 0 else v⟩⟩

def firstRun : Issued := ⟨.runWasm, runWith smallestWasm wholeBuffer, Env.ok⟩

/-- A range that begins inside and ends outside is not filled. -/
theorem outside_never_written_memset :
    ∃ inst : Instance Unit, (runMachine (Ta.issue fun _ => some (reaching (.memset 65534 255 4) 7))
        (openedTa proxyHeap) [firstRun]).2.runtimeCtx.moduleInst = some inst ∧
      ∀ i, inst.mem.size ≤ i → wasmPage ≤ i → inst.mem.byte i = 7 := by
  have hconfined : (reaching (.memset 65534 255 4) 7).Confined := by
    rintro name fn hfn inst
    obtain rfl := Option.some.inj hfn
    exact ⟨.refl _, fun _ _ _ => .refl _⟩
  have hcontained : Along (Ta.issue fun _ => some (reaching (.memset 65534 255 4) 7))
      (Contained fun _ => some (reaching (.memset 65534 255 4) 7)) (openedTa proxyHeap)
      [firstRun] := ⟨contained_of_whole rfl (by decide +kernel), trivial⟩
  have hsome : (runMachine (Ta.issue fun _ => some (reaching (.memset 65534 255 4) 7))
      (openedTa proxyHeap) [firstRun]).2.runtimeCtx.moduleInst.isSome = true := by
    decide +kernel
  obtain ⟨inst, hi⟩ := Option.isSome_iff_exists.1 hsome
  obtain ⟨hwithin, -⟩ := outside_never_written (fun _ M hM => Option.some.inj hM ▸ hconfined)
    proxyHeap [firstRun] hcontained
  refine ⟨inst, hi, fun i hsize hpage => ?_⟩
  rw [(hwithin (reaching (.memset 65534 255 4) 7) inst rfl hi).byte i hsize]
  exact if_neg (by omega)

/-! ## Nothing outside is read -/

/-- Two contexts that differ at most outside linear memory. -/
structure WamrContext.SameInside (ctx ctx' : WamrContext σ) : Prop where
  wasmModule : Option.Rel WasmModule.SameInside ctx.wasmModule ctx'.wasmModule
  moduleInst : Option.Rel Instance.SameInside ctx.moduleInst ctx'.moduleInst
  execEnv : ctx.execEnv = ctx'.execEnv

/-- Two TAs that do. -/
structure Ta.SameInside (ta ta' : Ta σ) : Prop where
  heapSize : ta.heapSize = ta'.heapSize
  sess : ta.sess = ta'.sess
  panicked : ta.panicked = ta'.panicked
  runtimeCtx : ta.runtimeCtx.SameInside ta'.runtimeCtx

/-- What two steps come to. -/
structure StepResult.SameInside (r r' : StepResult σ) : Prop where
  ok : r.ok = r'.ok
  ctx : r.ctx.SameInside r'.ctx
  sess : r.sess = r'.sess

/-- What two commands come to. -/
structure Reply.SameInside (r r' : Reply σ) : Prop where
  result : r.result = r'.result
  params : r.params = r'.params
  ta : r.ta.SameInside r'.ta

end TeeChaincode
