import TeeChaincode.Ta.Representation
import TeeChaincode.Ta.Rows
import TeeChaincode.Ta.Slot

/-!
# The arguments a module reads

`cc_get_function` and `cc_get_arg` scan the argument table of the session
from a row on. The proxy ends every row with a NUL, so a scan stops in its
row whatever the length of the output range, and no native changes the
table but a `cc_return_response` with a negative length. This module says
what a module reads through them, at each of its calls.
-/

namespace TeeChaincode

open Common

variable {σ : Type} {m : Memory} {s : Session}

/-! ## One call -/

/-- A scan from a row stops in it, if the row holds a terminator. -/
theorem clip_image_row (h : Terminated s.args.bytes) {i : ℕ} (hi : i < 10) (n : ℕ) :
    clip n (s.image.drop (64 * i)) = (tableRow s.args.bytes i).take n := by
  have hcell : (s.image.drop (64 * i)).take 64 = cell s.args.bytes i := take_image_row s hi
  have hz : (0 : UInt8) ∈ (s.image.drop (64 * i)).take (63 + 1) := hcell ▸ h.2 i hi
  rw [clip_of_zero_mem_take hz, tableRow_eq_cell, ← hcell, List.take_take, ← cstr_take]
  rfl

/-- A text has been copied out: it stands in the output range, cut to
leave a terminator and with zeros behind it, and nothing else has
changed. -/
structure CopiesOut (m : Memory) (outPtr : UInt32) (outLen : Int32) (text : Bytes)
    (r : NativeResult) : Prop where
  range : r.mem.read outPtr.toNat outLen.toInt.toNat =
    pad outLen.toInt.toNat (text.take (outLen.toInt.toNat - 1))
  frame : m.SameOutside r.mem outPtr.toNat outLen.toInt.toNat
  ret : r.ret = Int32.ofNat (text.take (outLen.toInt.toNat - 1)).length
  ex : r.ex = none

theorem copiesOut_copyOut {outPtr : UInt32} {outLen : Int32} {src text : Bytes} {r : NativeResult}
    (h : 0 < outLen.toInt) (hr : r = ⟨(copyOut m outPtr.toNat outLen src).2,
      (copyOut m outPtr.toNat outLen src).1, s, none⟩)
    (hsrc : clip (outLen.toInt.toNat - 1) src = text.take (outLen.toInt.toNat - 1)) :
    CopiesOut m outPtr outLen text r := by
  subst hr
  obtain ⟨hframe, hread, hret⟩ := copyOut_spec m outPtr.toNat outLen h src
  rw [hsrc] at hread hret
  exact ⟨hread, hframe, hret, rfl⟩

/-- The argument at an index: the string passed in, up to its first NUL
and cut to 63 bytes, for the nine positions the table has room for. -/
def argument (as : List Bytes) (idx : Int32) : Bytes :=
  if 0 ≤ idx.toInt ∧ idx.toInt < 9 then clip 63 (as.getD idx.toInt.toNat []) else []

/-- **What a call brings the module**: the function name or the argument
it asks for. The tenth argument is read from behind the table. -/
def Delivered (f : Bytes) (as : List Bytes) (m : Memory) (s : Session) : NativeCall → Prop
  | .ccGetFunction outPtr outLen =>
    0 < outLen.toInt → outPtr.toNat + outLen.toInt.toNat ≤ m.size →
      CopiesOut m outPtr outLen (clip 63 f) (callNative (.ccGetFunction outPtr outLen) m s)
  | .ccGetArg idx outPtr outLen =>
    idx ≠ 9 → 0 < outLen.toInt → outPtr.toNat + outLen.toInt.toNat ≤ m.size →
      CopiesOut m outPtr outLen (argument as idx) (callNative (.ccGetArg idx outPtr outLen) m s)
  | _ => True

/-- The table of an invocation. -/
def argumentTable (f : Bytes) (as : List Bytes) : Buf sizeofArguments :=
  Buf.load _ (packArguments f as)

theorem argumentTable_bytes (f : Bytes) (as : List Bytes) :
    (argumentTable f as).bytes = packArguments f as :=
  pad_of_length (length_packArguments f as)

/-- RUN_WASM, as the proxy issues it, copies the table to the session. -/
theorem Session.launched_args (s : Session) (wasm f : Bytes) (as : List Bytes) :
    (s.launched (runParams wasm (packArguments f as))).args = argumentTable f as := by
  have hfits : sizeofArguments ≤ (runParams wasm (packArguments f as)).memref2.size := by
    change sizeofArguments ≤ maxSize
    decide
  rw [Session.launched, argsOf, if_pos hfits]
  rfl

/-- **A session with the table delivers the strings.** -/
theorem delivered_of_args {f : Bytes} {as : List Bytes} (hs : s.args = argumentTable f as)
    (m : Memory) (c : NativeCall) : Delivered f as m s c := by
  have hbytes : s.args.bytes = packArguments f as := by rw [hs, argumentTable_bytes]
  have hterm : Terminated s.args.bytes := hbytes ▸ terminated_packArguments f as
  have hrow : ∀ i, i < 10 → ∀ n, clip n (s.image.drop (64 * i)) =
      (clip 63 ((f :: as).getD i [])).take n := by
    intro i hi n
    rw [clip_image_row hterm hi, hbytes, tableRow_packArguments f as hi]
  cases c with
  | ccGetFunction outPtr outLen =>
    intro h hin
    exact copiesOut_copyOut h (ccGetFunctionNative_eq h hin) (hrow 0 (by omega) _)
  | ccGetArg idx outPtr outLen =>
    intro hidx h hin
    refine copiesOut_copyOut h (ccGetArgNative_eq idx h hin) ?_
    have hne : idx.toInt ≠ 9 := fun he => hidx (Int32.toInt_inj.1 he)
    unfold argText argument
    by_cases hpos : 0 ≤ idx.toInt ∧ idx.toInt < 9
    · rw [if_pos ⟨hpos.1, lt_trans hpos.2 (by decide)⟩, if_pos hpos]
      have hr := hrow (idx.toInt.toNat + 1) (by omega) (outLen.toInt.toNat - 1)
      rw [List.getD_cons_succ] at hr
      exact hr
    · rw [if_neg (by rw [show ((argsNumber : ℕ) : ℤ) = 10 from rfl]; omega), if_neg hpos]
      rfl
  | _ => trivial

/-! ## Steps -/

variable {load : Loader σ} {A : Buf sizeofArguments} {f : Bytes} {as : List Bytes}

/-- No native changes the table, where no length is negative. -/
theorem callNative_args {c : NativeCall} (h : c.Measured) (m : Memory) (s : Session) :
    (callNative c m s).sess.args = s.args := by
  cases c with
  | ccGetState keyPtr keyLen outPtr outLen =>
    simp only [callNative, ccGetStateNative]
    split <;> rfl
  | ccPutState => rfl
  | ccReturnResponse msgPtr msgLen =>
    obtain ⟨response, hs⟩ := ccReturnResponseNative_sess msgPtr m s h
    rw [callNative, hs]
  | _ => rw [callNative_sess (by exact id)]

/-- The table stays, whatever is called. -/
theorem Session.args_after {calls : List (NativeCall × Instance σ)}
    (hm : ∀ c ∈ calls, c.1.Measured) (hs : s.args = argumentTable f as) :
    (s.after calls).args = argumentTable f as :=
  Guest.hostAfter_invariant (I := fun s : Session => s.args = argumentTable f as)
    (fun c hc s hs => (callNative_args (hm c hc) c.2.mem s).trans hs) hs

/-- **Something holds of every call of a command**, at any place among the
calls of its steps: on the memory it was made on, and in the session of
the TA as the steps of the command find it and the calls before it left
it, as long as none of those passed a negative length. -/
def EachCall (load : Loader σ) (ta : Ta σ) (cmd : Command) (p : Params) (env : Env)
    (P : Memory → Session → NativeCall → Prop) : Prop :=
  ∀ k c g, (callsOf (invokeCommandEntryPoint load ta cmd p env).steps)[k]? = some (c, g) →
    (∀ x ∈ (callsOf (invokeCommandEntryPoint load ta cmd p env).steps).take k, x.1.Measured) →
    ∃ s, ta.sess = some s ∧ P g.mem ((cmd.entry p s).after
      ((callsOf (invokeCommandEntryPoint load ta cmd p env).steps).take k)) c

/-- What holds in every session with the table holds of every call of a
command whose steps start with it. -/
theorem eachCall_of_args {ta : Ta σ} {cmd : Command} {p : Params} {env : Env}
    {P : Memory → Session → NativeCall → Prop}
    (hP : ∀ s : Session, s.args = argumentTable f as → ∀ m c, P m s c)
    (h : ∀ s, ta.sess = some s → (cmd.entry p s).args = argumentTable f as) :
    EachCall load ta cmd p env P := by
  intro k c g hk hm
  cases hs : ta.sess with
  | none =>
    rw [(command_of_none load cmd p env hs).2] at hk
    cases hk
  | some s => exact ⟨s, rfl, hP _ (Session.args_after hm (h s hs)) _ _⟩

/-- **A step in which the module reads its arguments**: it is an export of
a loaded module, run from an instance of it in a session of the TA, and
each call it made brought what it asked for. -/
def StepTrace.Observes (load : Loader σ) (f : Bytes) (as : List Bytes) (tr : StepTrace σ) : Prop :=
  tr.calls = [] ∨ ∃ wasm M fn inst ses, load wasm = some M ∧ M.export? tr.name = some fn ∧
    tr.calls = ((fn inst).visits natives ses).map (fun v => (v.1, v.2.1)) ∧
    ∀ v ∈ (fn inst).visits natives ses, Delivered f as v.2.1.mem v.2.2 v.1

/-- The context holds a loaded module, if it holds one. -/
def WamrContext.Loaded (load : Loader σ) (ctx : WamrContext σ) : Prop :=
  ∀ M, ctx.wasmModule = some M → ∃ wasm, load wasm = some M

/-- `call_step` keeps the module, and makes no call or those of an export
of it. -/
theorem callStep_ran {ctx : WamrContext σ} {name : StepName} {execEnvOk : Bool}
    {r : StepResult σ} (h : callStep ctx name execEnvOk s = some r) :
    r.ctx.wasmModule = ctx.wasmModule ∧ (r.trace.calls = [] ∨ ∃ M fn inst,
      ctx.wasmModule = some M ∧ M.export? r.trace.name = some fn ∧
        r.trace.calls = ((fn inst).exec natives s).calls) := by
  obtain ⟨M, inst, hM, -, hc⟩ := callStep_cases h
  cases hc with
  | notCalled _ => exact ⟨rfl, .inl rfl⟩
  | returned fn hfn _ _ => exact ⟨rfl, .inr ⟨M, fn, inst, hM, hfn, rfl⟩⟩
  | trapped fn ex hfn _ _ => exact ⟨rfl, .inr ⟨M, fn, inst, hM, hfn, rfl⟩⟩

/-- **One step.** -/
theorem callStep_observes {ctx : WamrContext σ} {name : StepName} {execEnvOk : Bool}
    {r : StepResult σ} (h : callStep ctx name execEnvOk s = some r) (hl : ctx.Loaded load)
    (hs : s.args = argumentTable f as) (hm : ∀ c ∈ r.trace.calls, c.1.Measured) :
    r.trace.Observes load f as ∧ r.sess.args = argumentTable f as ∧ r.ctx.Loaded load := by
  have hkeep : ∀ c ∈ r.trace.calls, ∀ s : Session, s.args = argumentTable f as →
      (natives c.1 c.2 s).host.args = argumentTable f as :=
    fun c hc s hs => (callNative_args (hm c hc) c.2.mem s).trans hs
  obtain ⟨hmod, hcalls⟩ := callStep_ran h
  refine ⟨?_, ?_, fun M hM => hl M (hmod ▸ hM)⟩
  · rcases hcalls with hnil | ⟨M, fn, inst, hM, hfn, hcalls⟩
    · exact .inl hnil
    · obtain ⟨wasm, hwasm⟩ := hl M hM
      refine .inr ⟨wasm, M, fn, inst, s, hwasm, hfn, hcalls.trans (Guest.map_visits _ _).symm, ?_⟩
      rw [hcalls] at hkeep
      intro v hv
      have hargs : v.2.2.args = argumentTable f as := Guest.visits_invariant
        (I := fun s : Session => s.args = argumentTable f as) (fn inst) hkeep hs v hv
      exact delivered_of_args hargs _ _
  · rw [(callStep_stepped h).sess]
    exact Guest.hostAfter_invariant (I := fun s : Session => s.args = argumentTable f as) hkeep hs

/-! ## Commands -/

/-- The TA serves an invocation: its session holds the table, and its
module has been loaded. -/
structure Ta.Serves (load : Loader σ) (f : Bytes) (as : List Bytes) (ta : Ta σ) : Prop where
  args : ∀ s, ta.sess = some s → s.args = argumentTable f as
  loaded : ta.runtimeCtx.Loaded load

/-- A RESUME_WASM starts its step with the table. -/
theorem Ta.Serves.resume_args {ta : Ta σ} (h : ta.Serves load f as) (hs : ta.sess = some s)
    (p : Params) : (Command.resumeWasm.entry p s).args = argumentTable f as :=
  s.drained_args.trans (h.args s hs)

/-- What a command of it comes to. -/
def Reply.Observes (load : Loader σ) (f : Bytes) (as : List Bytes) (r : Reply σ) : Prop :=
  (∀ c ∈ callsOf r.steps, c.1.Measured) →
    (∀ tr ∈ r.steps, tr.Observes load f as) ∧ (r.result = .success → r.ta.Serves load f as)

/-- A command that fails and executes nothing. -/
theorem Reply.observes_of_failed {r : Reply σ} (hres : r.result ≠ .success)
    (hsteps : r.steps = []) :
    r.Observes load f as := by
  intro _
  refine ⟨fun tr htr => ?_, fun h => absurd h hres⟩
  rw [hsteps] at htr
  exact absurd htr List.not_mem_nil

theorem mem_callsOf {steps : List (StepTrace σ)} {tr : StepTrace σ} (htr : tr ∈ steps)
    {c : NativeCall × Instance σ} (hc : c ∈ tr.calls) : c ∈ callsOf steps :=
  List.mem_flatMap.2 ⟨tr, htr, hc⟩

theorem processHostcallFlow_observes (ta : Ta σ) (s : Session) (p : Params) (env : Env)
    (hl : ta.runtimeCtx.Loaded load) (hs : s.args = argumentTable f as) :
    (processHostcallFlow ta s p env).Observes load f as := by
  unfold processHostcallFlow
  split
  · exact Reply.observes_of_failed (by simp [Ta.panic]) rfl
  · next r hr =>
    intro hm
    have htr : ∀ c ∈ r.trace.calls, c.1.Measured := by
      intro c hc
      refine hm c ?_
      dsimp only
      split <;> exact mem_callsOf List.mem_cons_self hc
    obtain ⟨hobs, hargs, hloaded⟩ := callStep_observes hr hl hs htr
    have hsteps : ∀ tr ∈ [r.trace], tr.Observes load f as := by
      intro tr h
      rw [List.mem_singleton.1 h]
      exact hobs
    have hserves : Ta.Serves load f as { ta with sess := some r.sess, runtimeCtx := r.ctx } := by
      refine ⟨fun s' hs' => ?_, hloaded⟩
      obtain rfl := Option.some.inj hs'
      exact hargs
    dsimp only
    split
    · exact ⟨hsteps, fun _ => hserves⟩
    · exact ⟨hsteps, fun _ => hserves⟩

/-- **RUN_WASM** with the table in its buffer. -/
theorem runWasm_observes {ta : Ta σ} {p : Params} (env : Env) (hs : ta.sess = some s)
    (hp : (s.launched p).args = argumentTable f as) :
    (runWasm load ta p env).Observes load f as := by
  by_cases hi : Initialises load p.memref0 env
  · obtain ⟨M, hM⟩ := hi.wasmModule
    have hl : (WamrContext.launched ta p M).Loaded load := by
      intro M' hM'
      obtain rfl := Option.some.inj hM'
      exact ⟨p.memref0, hM⟩
    rw [runWasm_of_initialises hs hi hM, Ta.firstSteps]
    obtain ⟨st, hst⟩ : ∃ st, callStep (WamrContext.launched ta p M) .stepInit env.execEnvInit
        (s.launched p) = some st :=
      callStep_isSome .stepInit env.execEnvInit (s.launched p) rfl rfl
    rw [hst]
    dsimp only
    split
    · intro hm
      have hmem : ∀ c ∈ st.trace.calls, c.1.Measured :=
        fun c hc => hm c (mem_callsOf List.mem_cons_self hc)
      obtain ⟨hobs, hargs, hloaded⟩ := callStep_observes hst hl hp hmem
      -- what follows `step_init` is a `step_resume` on the session it leaves
      have hrest := processHostcallFlow_observes
        { ta with sess := some st.sess, runtimeCtx := st.ctx } st.sess { p with value1 := 0 } env
        hloaded hargs
      obtain ⟨hsteps, hserves⟩ := hrest fun c hc => hm c (List.mem_append_right _ hc)
      exact ⟨List.forall_mem_cons.2 ⟨hobs, hsteps⟩, hserves⟩
    · intro hm
      have hmem : ∀ c ∈ st.trace.calls, c.1.Measured :=
        fun c hc => hm c (mem_callsOf List.mem_cons_self hc)
      obtain ⟨hobs, -, -⟩ := callStep_observes hst hl hp hmem
      exact ⟨List.forall_mem_singleton.2 hobs, fun h => absurd h (by simp)⟩
  · obtain ⟨hres, hsteps⟩ := runWasm_of_not hs hi
    exact Reply.observes_of_failed hres hsteps

/-- **RESUME_WASM**, on any buffer. -/
theorem resumeWasm_observes {ta : Ta σ} (h : ta.Serves load f as) (p : Params) (env : Env) :
    (resumeWasm ta p env).Observes load f as := by
  unfold resumeWasm
  split
  · exact Reply.observes_of_failed (by simp) rfl
  next s hs =>
  have hargs := h.args s hs
  split
  · exact Reply.observes_of_failed (by simp) rfl
  split
  · split
    · exact Reply.observes_of_failed (by simp [Ta.panic]) rfl
    · exact processHostcallFlow_observes _ _ p env h.loaded hargs
  · exact processHostcallFlow_observes _ _ p env h.loaded hargs
  · exact processHostcallFlow_observes _ _ p env h.loaded hargs

/-- RUN_WASM as the proxy issues it, on any TA. -/
theorem run_observes (ta : Ta σ) (wasm f : Bytes) (as : List Bytes) (env : Env) :
    (invokeCommandEntryPoint load ta .runWasm (runParams wasm (packArguments f as)) env).Observes
      load f as := by
  rcases invoke_cases load ta .runWasm (runParams wasm (packArguments f as)) env with
    ⟨res, hres, hinv⟩ | ⟨-, -, hinv⟩
  · rw [hinv]
    exact Reply.observes_of_failed hres rfl
  rw [hinv]
  cases hs : ta.sess with
  | none =>
    simp only [perform, runWasm, hs]
    exact Reply.observes_of_failed (by simp) rfl
  | some s => exact runWasm_observes env hs (s.launched_args wasm f as)

/-- RESUME_WASM on a TA that serves the invocation. -/
theorem resume_observes {ta : Ta σ} (h : ta.Serves load f as) (p : Params) (env : Env) :
    (invokeCommandEntryPoint load ta .resumeWasm p env).Observes load f as := by
  rcases invoke_cases load ta .resumeWasm p env with ⟨res, hres, hinv⟩ | ⟨-, -, hinv⟩
  · rw [hinv]
    exact Reply.observes_of_failed hres rfl
  · rw [hinv]
    exact resumeWasm_observes h p env

end TeeChaincode
