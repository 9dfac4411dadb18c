import TeeChaincode.Common.Run
import TeeChaincode.Ta.Executed

/-!
# What RUN_WASM leaves of an earlier invocation

RUN_WASM sets the arguments and the runtime of the session and nothing
else of it. Of what is left, the key, the value and the output range are
read only while a request is pending, and the text of the response only
while one is on record. `Session.Alike` is that relation; related
sessions answer every native call alike and stay related, so no module can
tell them apart. A session is therefore as good as new for the next
RUN_WASM exactly when nothing is pending in it and its response, if there
is one on record, reads as the text for none.
-/

namespace TeeChaincode

open Common

variable {σ : Type}

/-! ## Sessions no module can tell apart -/

/-- The sessions agree on everything that is read of them. -/
structure Session.Alike (s s' : Session) : Prop where
  args : s.args = s'.args
  pendingType : s.pendingType = s'.pendingType
  key : s.pendingType ≠ .none → s.key = s'.key
  value : s.pendingType = .putState → s.value = s'.value
  out : s.pendingType = .getState →
    s.wasmOutOffset = s'.wasmOutOffset ∧ s.wasmOutLen = s'.wasmOutLen
  final : finalResponse s = finalResponse s'
  runtime : s.runtime = s'.runtime

variable {s s' : Session} {m : Memory}

/-- The struct as bytes, up to the code of the pending type: behind it a
NUL follows. -/
theorem Session.image_eq (s : Session) :
    ∃ rest, s.image = s.args.bytes ++ ([s.pendingType.code, 0, 0, 0] ++ rest) := by
  refine ⟨s.key.bytes ++ s.value.bytes ++ le32 s.wasmOutOffset ++ le32 s.wasmOutLen.toUInt32 ++
    s.response.bytes ++ [if s.hasResponse then 1 else 0, 0, 0, 0], ?_⟩
  simp only [image, List.append_assoc]

/-- A scan of the arguments stops at the pending type at the latest. -/
theorem clip_drop_image (s : Session) (n : ℕ) {k : ℕ} (hk : k ≤ sizeofArguments) :
    clip n (s.image.drop k) =
      clip n (s.args.bytes.drop k ++ [s.pendingType.code, 0, 0, 0]) := by
  obtain ⟨rest, hrest⟩ := s.image_eq
  have hlen : k ≤ s.args.bytes.length := by rw [s.args.size_eq]; exact hk
  have hz : (0 : UInt8) ∈ s.args.bytes.drop k ++ [s.pendingType.code, 0, 0, 0] := by simp
  rw [hrest, List.drop_append_of_le_length hlen, ← List.append_assoc, clip, clip,
    cstr_append_of_mem hz]

/-- What is copied out is the C string. -/
theorem copyOut_congr {src src' : Bytes} (out : ℕ) (outLen : Int32)
    (h : clip (outLen.toInt.toNat - 1) src = clip (outLen.toInt.toNat - 1) src') :
    copyOut m out outLen src = copyOut m out outLen src' := by
  have hlen : boundedLen src (outLen.toInt.toNat - 1) =
      boundedLen src' (outLen.toInt.toNat - 1) := by
    rw [boundedLen_eq, boundedLen_eq, h]
  simp only [copyOut, safeStrlen, take_boundedLen]
  rw [h, hlen]

/-- The two natives that read the arguments. -/
theorem Session.Alike.ccGetFunction (h : s.Alike s') (outPtr : UInt32) (outLen : Int32) :
    (ccGetFunctionNative outPtr outLen m s).ret = (ccGetFunctionNative outPtr outLen m s').ret ∧
      (ccGetFunctionNative outPtr outLen m s).mem =
        (ccGetFunctionNative outPtr outLen m s').mem := by
  have himg : clip (outLen.toInt.toNat - 1) s.image = clip (outLen.toInt.toNat - 1) s'.image := by
    have h₀ := clip_drop_image s (outLen.toInt.toNat - 1) (Nat.zero_le _)
    have h₁ := clip_drop_image s' (outLen.toInt.toNat - 1) (Nat.zero_le _)
    rw [h.args, h.pendingType] at h₀
    exact h₀.trans h₁.symm
  unfold ccGetFunctionNative
  split
  · exact ⟨rfl, rfl⟩
  split
  · exact ⟨rfl, rfl⟩
  split
  · exact ⟨rfl, rfl⟩
  · next out _ =>
    rw [copyOut_congr out outLen himg]
    exact ⟨rfl, rfl⟩

theorem Session.Alike.ccGetArg (h : s.Alike s') (idx : Int32) (outPtr : UInt32) (outLen : Int32) :
    (ccGetArgNative idx outPtr outLen m s).ret = (ccGetArgNative idx outPtr outLen m s').ret ∧
      (ccGetArgNative idx outPtr outLen m s).mem =
        (ccGetArgNative idx outPtr outLen m s').mem := by
  have hrow : ∀ n, clip n (argText s idx.toInt) = clip n (argText s' idx.toInt) := by
    intro n
    unfold argText
    split
    · next hidx =>
      have hk : argSize * (idx.toInt.toNat + 1) ≤ sizeofArguments := by
        rw [show sizeofArguments = 640 from rfl, show argSize = 64 from rfl]
        have := hidx.2
        rw [show (argsNumber : ℤ) = 10 from rfl] at this
        omega
      rw [clip_drop_image s n hk, clip_drop_image s' n hk, h.args, h.pendingType]
    · rfl
  unfold ccGetArgNative
  dsimp only
  split
  · exact ⟨rfl, rfl⟩
  split
  · exact ⟨rfl, rfl⟩
  · next out _ _ =>
    have hc := copyOut_congr (m := m) out outLen (hrow _)
    unfold argText at hc
    rw [hc]
    exact ⟨rfl, rfl⟩

/-- A store of a zero byte in front of `response` treats them alike. -/
theorem Session.Alike.storeZero (h : s.Alike s') (hr : s.response = s'.response)
    (hh : s.hasResponse = s'.hasResponse) (off : ℕ) :
    (s.storeZero off).Alike (s'.storeZero off) := by
  obtain ⟨hargs, hp, hkey, hval, hout, hfinal, hrt⟩ := h
  unfold Session.storeZero
  repeat' split
  · exact ⟨by rw [hargs], hp, hkey, hval, hout, hfinal, hrt⟩
  · exact ⟨hargs, rfl, fun h => absurd rfl h, nofun, nofun, hfinal, hrt⟩
  · exact ⟨hargs, hp, hkey, hval, hout, hfinal, hrt⟩
  · exact ⟨hargs, hp, fun h => by rw [hkey h], hval, hout, hfinal, hrt⟩
  · exact ⟨hargs, hp, hkey, fun h => by rw [hval h], hout, hfinal, hrt⟩
  · exact ⟨hargs, hp, hkey, hval, fun h => by rw [(hout h).1]; exact ⟨rfl, (hout h).2⟩, hfinal, hrt⟩
  · exact ⟨hargs, hp, hkey, hval, fun h => by rw [(hout h).2]; exact ⟨(hout h).1, rfl⟩, hfinal, hrt⟩
  · refine ⟨hargs, hp, hkey, hval, hout, ?_, hrt⟩
    simp only [finalResponse, hr, hh]

theorem Session.Alike.storeResponse (h : s.Alike s') (hr : s.response = s'.response)
    (hh : s.hasResponse = s'.hasResponse) (n : ℤ) :
    (s.storeResponse n).Alike (s'.storeResponse n) := by
  unfold Session.storeResponse
  split
  · exact h
  · exact h.storeZero hr hh _

/-- A response on record in both makes them alike again. -/
theorem Session.Alike.respond (h : s.Alike s') (b : Buf responseSize) :
    ({ s with response := b, hasResponse := true } : Session).Alike
      { s' with response := b, hasResponse := true } :=
  ⟨h.args, h.pendingType, h.key, h.value, h.out, rfl, h.runtime⟩

/-- The flag of the response is not part of what the store reads or
writes. -/
theorem Session.storeResponse_hasResponse (s : Session) (n : ℤ) :
    { s.storeResponse n with hasResponse := true } =
      ({ s with hasResponse := true } : Session).storeResponse n := by
  unfold storeResponse
  split
  · rfl
  · unfold storeZero
    repeat' split
    all_goals rfl

/-- **No native tells them apart.** -/
theorem Session.Alike.callNative (h : s.Alike s') (c : NativeCall) (m : Memory) :
    (TeeChaincode.callNative c m s).ret = (TeeChaincode.callNative c m s').ret ∧
    (TeeChaincode.callNative c m s).mem = (TeeChaincode.callNative c m s').mem ∧
    (TeeChaincode.callNative c m s).sess.Alike (TeeChaincode.callNative c m s').sess := by
  cases c with
  | ccGetFunction outPtr outLen =>
    obtain ⟨hr, hm⟩ := h.ccGetFunction (m := m) outPtr outLen
    refine ⟨hr, hm, ?_⟩
    rw [callNative_sess id, callNative_sess id]
    exact h
  | ccGetArg idx outPtr outLen =>
    obtain ⟨hr, hm⟩ := h.ccGetArg (m := m) idx outPtr outLen
    refine ⟨hr, hm, ?_⟩
    rw [callNative_sess id, callNative_sess id]
    exact h
  | ccGetState keyPtr keyLen outPtr outLen =>
    simp only [TeeChaincode.callNative, ccGetStateNative]
    split
    · exact ⟨rfl, rfl, h⟩
    · have hget : PendingType.getState ≠ .putState := by decide
      exact ⟨rfl, rfl, h.args, rfl, fun _ => rfl, fun hp => absurd hp hget, fun _ => ⟨rfl, rfl⟩,
        h.final, h.runtime⟩
  | ccPutState keyPtr keyLen valPtr valLen =>
    have hput : PendingType.putState ≠ .getState := by decide
    exact ⟨rfl, rfl, h.args, rfl, fun _ => rfl, fun _ => rfl, fun hp => absurd hp hput, h.final,
      h.runtime⟩
  | ccReturnResponse msgPtr msgLen =>
    -- the response is overwritten before the terminator is stored
    have hsess : ∀ t : Session, (ccReturnResponseNative msgPtr msgLen m t).sess =
        ({ t with
          response := Buf.load _ (copied m (toNative m msgPtr (clampLen msgLen)).1
            (min msgLen.toInt (responseSize - 1)))
          hasResponse := true } : Session).storeResponse (min msgLen.toInt (responseSize - 1)) :=
      fun t => Session.storeResponse_hasResponse _ _
    refine ⟨rfl, rfl, ?_⟩
    rw [TeeChaincode.callNative, hsess, hsess]
    exact (h.respond _).storeResponse rfl rfl _
  | ccLog msgPtr msgLen =>
    simp only [TeeChaincode.callNative, ccLogNative]
    repeat' split
    all_goals exact ⟨rfl, rfl, h⟩
  | debugLog stepNum => exact ⟨rfl, rfl, h⟩
  | memset dstPtr v n =>
    simp only [TeeChaincode.callNative, envMemsetNative]
    repeat' split
    all_goals exact ⟨rfl, rfl, h⟩
  | memcpy dstPtr srcPtr n =>
    simp only [TeeChaincode.callNative, envMemcpyNative, envMemmoveNative]
    repeat' split
    all_goals exact ⟨rfl, rfl, h⟩
  | memmove dstPtr srcPtr n =>
    simp only [TeeChaincode.callNative, envMemmoveNative]
    repeat' split
    all_goals exact ⟨rfl, rfl, h⟩

/-- What they call for is the same. -/
theorem Session.Alike.asked_eq (h : s.Alike s') : asked s = asked s' := by
  unfold asked
  rw [← h.pendingType]
  cases hp : s.pendingType with
  | none => rw [h.final]
  | getState => rw [h.key (by rw [hp]; decide)]
  | putState => rw [h.key (by rw [hp]; decide), h.value hp]

/-! ## Commands on them -/

/-- The TAs differ in what is not read of their sessions, at most. -/
structure Ta.Alike (ta ta' : Ta σ) : Prop where
  heapSize : ta.heapSize = ta'.heapSize
  runtimeCtx : ta.runtimeCtx = ta'.runtimeCtx
  panicked : ta.panicked = ta'.panicked
  sess : ∃ s s', ta.sess = some s ∧ ta'.sess = some s' ∧ s.Alike s'

/-- The replies are the same, from TAs that stay alike. -/
structure Reply.Alike (r r' : Reply σ) : Prop where
  result : r.result = r'.result
  params : r.params = r'.params
  ta : r.ta.Alike r'.ta

/-- A module does the same on either. -/
theorem exec_alike (h : s.Alike s') (p : Guest NativeCall Int32 (Instance σ) (Option Bytes) Unit) :
    (p.exec natives s).out = (p.exec natives s').out ∧
    (p.exec natives s).guest = (p.exec natives s').guest ∧
    (p.exec natives s).host.Alike (p.exec natives s').host := by
  have hcall : ∀ (c : NativeCall) (g : Instance σ) (t t' : Session), t.Alike t' →
      (natives c g t).ret = (natives c g t').ret ∧ (natives c g t).guest = (natives c g t').guest ∧
      (natives c g t).ex = (natives c g t').ex ∧
      (natives c g t).host.Alike (natives c g t').host := by
    intro c g t t' ht
    obtain ⟨hret, hmem, hsess⟩ := ht.callNative c g.mem
    refine ⟨hret, ?_, ?_, hsess⟩
    · simp only [natives, hmem]
    · simp only [natives, callNative_ex c g.mem t t']
  obtain ⟨hout, hguest, -, hhost⟩ := Guest.exec_bisim hcall p h
  exact ⟨hout, hguest, hhost⟩

/-- A step goes the same way. -/
theorem callStep_alike (ctx : WamrContext σ) (name : StepName) (execEnvOk : Bool)
    (h : s.Alike s') :
    (callStep ctx name execEnvOk s = none ∧ callStep ctx name execEnvOk s' = none) ∨
    ∃ r r', callStep ctx name execEnvOk s = some r ∧ callStep ctx name execEnvOk s' = some r' ∧
      r.ok = r'.ok ∧ r.ctx = r'.ctx ∧ r.sess.Alike r'.sess := by
  unfold callStep
  split
  · next M inst hM hi =>
    refine .inr ?_
    split
    · exact ⟨_, _, rfl, rfl, rfl, rfl, h⟩
    next fn hfn =>
    split
    · exact ⟨_, _, rfl, rfl, rfl, rfl, h⟩
    obtain ⟨hout, hguest, hhost⟩ := exec_alike h (fn inst)
    dsimp only
    rw [← hout, ← hguest]
    split
    · exact ⟨_, _, rfl, rfl, rfl, rfl, hhost⟩
    · exact ⟨_, _, rfl, rfl, rfl, rfl, hhost⟩
  · exact .inl ⟨rfl, rfl⟩

/-- `process_hostcall_flow` answers the same. -/
theorem processHostcallFlow_alike {ta ta' : Ta σ} (hc : ta.runtimeCtx = ta'.runtimeCtx)
    (hh : ta.heapSize = ta'.heapSize) (hp : ta.panicked = ta'.panicked) (h : s.Alike s')
    (p : Params) (env : Env) :
    (processHostcallFlow ta s p env).Alike (processHostcallFlow ta' s' p env) := by
  unfold processHostcallFlow
  rw [← hc]
  rcases callStep_alike ta.runtimeCtx .stepResume env.execEnv h with
    ⟨h₁, h₂⟩ | ⟨r, r', h₁, h₂, hok, hctx, hsess⟩
  · rw [h₁, h₂]
    exact ⟨rfl, rfl, hh, rfl, hp ▸ rfl, s, s', rfl, rfl, h⟩
  · rw [h₁, h₂]
    dsimp only
    rw [← hok]
    split
    · refine ⟨rfl, ?_, hh, hctx, hp, _, _, rfl, rfl, hsess⟩
      rw [drain_eq, drain_eq, hsess.asked_eq]
    · exact ⟨rfl, rfl, hh, hctx, hp, _, _, rfl, rfl, hsess⟩

/-- A reply to a GET request is copied to the same range. -/
theorem Session.Alike.copyReply (h : s.Alike s') (hp : s.pendingType = .getState) (buf : Bytes)
    (m : Memory) : TeeChaincode.copyReply s buf m = TeeChaincode.copyReply s' buf m := by
  obtain ⟨ho, hl⟩ := h.out hp
  unfold TeeChaincode.copyReply
  rw [ho, hl]

/-- Sessions in which nothing is pending any more stay alike, whatever
becomes of the output range. -/
theorem Session.Alike.drained (h : s.Alike s') (off off' : UInt32) (len len' : Int32) :
    ({ s with pendingType := .none, wasmOutOffset := off, wasmOutLen := len } : Session).Alike
      { s' with pendingType := .none, wasmOutOffset := off', wasmOutLen := len' } :=
  ⟨h.args, rfl, fun hn => absurd rfl hn, nofun, nofun, h.final, h.runtime⟩

/-- RESUME_WASM answers the same. -/
theorem resumeWasm_alike {ta ta' : Ta σ} (h : ta.Alike ta') (p : Params) (env : Env) :
    (resumeWasm ta p env).Alike (resumeWasm ta' p env) := by
  have hta := h
  obtain ⟨hh, hc, hp, s, s', hs, hs', ha⟩ := h
  have hpt' := ha.pendingType
  unfold resumeWasm
  rw [hs, hs']
  dsimp only
  by_cases hrt : s.runtime = false
  · rw [if_pos hrt, if_pos (ha.runtime ▸ hrt)]
    exact ⟨rfl, rfl, hta⟩
  rw [if_neg hrt, if_neg (ha.runtime ▸ hrt)]
  cases hpt : s.pendingType with
  | getState =>
    rw [hpt] at hpt'
    rw [← hpt', ← hc]
    dsimp only
    split
    · exact ⟨rfl, rfl, hh, hc, rfl, s, s', hs, hs', ha⟩
    · next inst _ =>
      rw [ha.copyReply hpt]
      refine processHostcallFlow_alike ?_ ?_ ?_ (ha.drained 0 0 0 0) p env
      · rfl
      · exact hh
      · exact hp
  | putState =>
    rw [hpt] at hpt'
    rw [← hpt']
    dsimp only
    refine processHostcallFlow_alike ?_ ?_ ?_ (ha.drained _ _ _ _) p env
    · exact hc
    · exact hh
    · exact hp
  | none =>
    rw [hpt] at hpt'
    rw [← hpt']
    exact processHostcallFlow_alike hc hh hp ha p env

/-- Every resume behind them is answered the same. -/
theorem resumeAll_alike (load : Loader σ) (resumes : List (Memref × Env)) {ta ta' : Ta σ}
    (h : ta.Alike ta') :
    (resumeAll load ta resumes).map (fun r => (r.result, r.params)) =
      (resumeAll load ta' resumes).map (fun r => (r.result, r.params)) := by
  induction resumes generalizing ta ta' with
  | nil => rfl
  | cons q rest ih =>
    have hr : (invokeCommandEntryPoint load ta .resumeWasm (resumeWith q.1) q.2).Alike
        (invokeCommandEntryPoint load ta' .resumeWasm (resumeWith q.1) q.2) := by
      unfold invokeCommandEntryPoint
      rw [← h.panicked]
      split
      · exact ⟨rfl, rfl, h⟩
      · exact resumeWasm_alike h _ _
    simp only [resumeAll, List.map_cons, hr.result, hr.params]
    rw [ih hr.ta]

/-! ## RUN_WASM -/

/-- The allocations of a RUN_WASM and the initialisation of its runtime
succeed. -/
structure Initialises (load : Loader σ) (wasm : Bytes) (env : Env) : Prop where
  heapMalloc : env.heapMalloc = true
  wasmMalloc : env.wasmMalloc = true
  fullInit : env.fullInit = true
  loads : env.load = true
  instantiate : env.instantiate = true
  wasmModule : ∃ M, load wasm = some M

/-- The session is as good as new: nothing is pending, and the response on
record, if there is one, reads as the text for none. -/
def Session.Clean (s : Session) : Prop :=
  s.pendingType = .none ∧ (s.message = none ∨ s.message = some (ascii "NO_RESPONSE"))

/-- The response on record reads as the text for none. -/
theorem finalResponse_eq_iff (s : Session) : finalResponse s = ascii "NO_RESPONSE" ↔
    s.message = none ∨ s.message = some (ascii "NO_RESPONSE") := by
  rw [finalResponse_eq, Session.message]
  cases s.hasResponse with
  | false => simp
  | true =>
    by_cases hx : clip 255 s.response.bytes = []
    · simp only [hx, if_true, reduceCtorEq, false_or, Option.some.injEq]
      decide
    · simp [hx]

/-- The runtime of such a RUN_WASM. -/
theorem initializeWamrRuntime_of_initialises {load : Loader σ} {env : Env} {M : WasmModule σ}
    (ta : Ta σ) (p : Params) (hi : Initialises load p.memref0 env)
    (hM : load p.memref0 = some M) :
    initializeWamrRuntime load
      { WamrContext.zero with wasmBytecode := p.memref0, heapSize := ta.heapSize } env =
      (.success, WamrContext.launched ta p M) := by
  simp only [initializeWamrRuntime, hi.fullInit, hi.loads, hi.instantiate, if_true, hM]
  rfl

/-- A RUN_WASM whose runtime is initialised comes to its steps. -/
theorem runWasm_of_initialises {load : Loader σ} {ta : Ta σ} {p : Params} {env : Env}
    {M : WasmModule σ} (hs : ta.sess = some s) (hi : Initialises load p.memref0 env)
    (hM : load p.memref0 = some M) :
    runWasm load ta p env =
      ta.firstSteps (WamrContext.launched ta p M) (s.launched p) { p with value1 := 0 } env := by
  unfold runWasm
  rw [hs]
  simp only [hi.heapMalloc, hi.wasmMalloc, initializeWamrRuntime_of_initialises ta p hi hM]
  rfl

/-- **RUN_WASM answers the same on two clean sessions.** -/
theorem runWasm_alike (load : Loader σ) {ta ta' : Ta σ} (hs : ta.sess = some s)
    (hs' : ta'.sess = some s') (hh : ta.heapSize = ta'.heapSize)
    (hp : ta.panicked = ta'.panicked) (hc : s.Clean) (hc' : s'.Clean) {p : Params} {env : Env}
    (hi : Initialises load p.memref0 env) :
    (runWasm load ta p env).Alike (runWasm load ta' p env) := by
  obtain ⟨M, hM⟩ := hi.wasmModule
  have hpend : (s.launched p).pendingType = .none := hc.1
  have halike : (s.launched p).Alike (s'.launched p) := by
    refine ⟨rfl, hc.1.trans hc'.1.symm, fun hn => absurd hpend hn, fun hn => ?_, fun hn => ?_, ?_,
      rfl⟩
    · rw [hpend] at hn
      cases hn
    · rw [hpend] at hn
      cases hn
    · exact ((finalResponse_eq_iff s).2 hc.2).trans ((finalResponse_eq_iff s').2 hc'.2).symm
  have hctx : WamrContext.launched ta p M = WamrContext.launched ta' p M := by
    rw [WamrContext.launched, WamrContext.launched, hh]
  rw [runWasm_of_initialises hs hi hM, runWasm_of_initialises hs' hi hM, ← hctx, Ta.firstSteps,
    Ta.firstSteps]
  rcases callStep_alike (WamrContext.launched ta p M) .stepInit env.execEnvInit halike with
    ⟨h₁, h₂⟩ | ⟨r, r', h₁, h₂, hok, hctx', hsess⟩
  · rw [h₁, h₂]
    exact ⟨rfl, rfl, hh, rfl, rfl, _, _, rfl, rfl, halike⟩
  · rw [h₁, h₂]
    dsimp only
    rw [← hok]
    split
    · have hflow : (processHostcallFlow { ta with sess := some r.sess, runtimeCtx := r.ctx }
          r.sess { p with value1 := 0 } env).Alike
          (processHostcallFlow { ta' with sess := some r'.sess, runtimeCtx := r'.ctx }
            r'.sess { p with value1 := 0 } env) := by
        refine processHostcallFlow_alike ?_ ?_ ?_ hsess _ env
        · exact hctx'
        · exact hh
        · exact hp
      exact ⟨hflow.result, hflow.params, hflow.ta⟩
    · exact ⟨rfl, rfl, hh, hctx', hp, _, _, rfl, rfl, hsess⟩

/-! ## Two runs -/

/-- The replies to a RUN_WASM on a session, and to the resumes behind
it. -/
def repliesTo (load : Loader σ) (ta : Ta σ) (wasm : Bytes) (m : Memref) (env : Env)
    (resumes : List (Memref × Env)) : List (Reply σ) :=
  let r := invokeCommandEntryPoint load ta .runWasm (runWith wasm m) env
  r :: resumeAll load r.ta resumes

/-- What a client sees of replies. -/
def outputs (rs : List (Reply σ)) : List (TeeResult × Params) :=
  rs.map fun r => (r.result, r.params)

/-- **The next invocation is not influenced**: a RUN_WASM whose runtime is
initialised, and the resumes behind it, are answered as on a session just
opened. -/
def StartsClean (ta : Ta σ) : Prop :=
  ∀ (load : Loader σ) (wasm : Bytes) (m : Memref) (env : Env) (resumes : List (Memref × Env)),
    Initialises load wasm env →
      outputs (repliesTo load ta wasm m env resumes) =
        outputs (repliesTo load (openedTa ta.heapSize) wasm m env resumes)

/-- A TA with a clean session. -/
theorem startsClean_of_clean {ta : Ta σ} (hs : ta.sess = some s) (hp : ta.panicked = false)
    (hc : s.Clean) : StartsClean ta := by
  intro load wasm m env resumes hi
  have hzero : Session.zero.Clean := ⟨rfl, .inl rfl⟩
  have hrun : (runWasm load ta (runWith wasm m) env).Alike
      (runWasm load (openedTa ta.heapSize) (runWith wasm m) env) := by
    refine runWasm_alike load hs ?_ ?_ ?_ hc hzero hi
    · rfl
    · rfl
    · exact hp
  have hr : (invokeCommandEntryPoint load ta .runWasm (runWith wasm m) env).Alike
      (invokeCommandEntryPoint load (openedTa ta.heapSize) .runWasm (runWith wasm m) env) := by
    rw [invoke_eq load hp rfl]
    exact hrun
  simp only [outputs, repliesTo, List.map_cons, hr.result, hr.params]
  rw [resumeAll_alike load resumes hr.ta]

/-- A module that does nothing. -/
def idleModule [Inhabited σ] : WasmModule σ := ⟨fun _ => some (pure ()), ⟨default, ⟨0, fun _ => 0⟩⟩⟩

/-- RUN_WASM of it answers what is left in the session. -/
theorem runWasm_idleModule [Inhabited σ] (ta : Ta σ) (hs : ta.sess = some s) (p : Params) :
    ∃ ta' steps, runWasm (fun _ => some idleModule) ta p Env.ok =
      ⟨.success, ({ p with value1 := 0 } : Params).ask (asked (s.launched p)), ta', steps⟩ := by
  have hi : Initialises (fun _ => some (idleModule : WasmModule σ)) p.memref0 Env.ok :=
    ⟨rfl, rfl, rfl, rfl, rfl, _, rfl⟩
  rw [runWasm_of_initialises hs hi rfl, ← drain_eq]
  exact ⟨_, _, rfl⟩

/-- The session a TA with one has. -/
def Ta.Clean (ta : Ta σ) : Prop := ta.panicked = false ∧ ∃ s, ta.sess = some s ∧ s.Clean

/-- The answers of the proxy's calls tell the TA's answers apart. -/
theorem ask_inj {p : Params} {a b : Ask} (ha : a.Fits) (hb : b.Fits) (h : p.ask a = p.ask b) :
    a = b := by
  have hd := dispatchReply_ask (p := p) ha
  rw [h, dispatchReply_ask hb] at hd
  cases a <;> cases b <;> simp_all [Ask.handler]

/-- A TA of which the next invocation shows nothing is clean: the module
that does nothing shows what is left. -/
theorem clean_of_startsClean [Inhabited σ] {ta : Ta σ} (hs : ta.sess = some s)
    (h : StartsClean ta) : ta.Clean := by
  have hi : Initialises (fun _ => some (idleModule : WasmModule σ)) smallestWasm Env.ok :=
    ⟨rfl, rfl, rfl, rfl, rfl, _, rfl⟩
  have hout := h _ smallestWasm wholeBuffer Env.ok [] hi
  obtain ⟨ta₀, steps₀, h₀⟩ := runWasm_idleModule (openedTa ta.heapSize : Ta σ) rfl
    (runWith smallestWasm wholeBuffer)
  obtain ⟨ta₁, steps₁, h₁⟩ := runWasm_idleModule ta hs (runWith smallestWasm wholeBuffer)
  have hopened : invokeCommandEntryPoint (fun _ => some (idleModule : WasmModule σ))
      (openedTa ta.heapSize) .runWasm (runWith smallestWasm wholeBuffer) Env.ok =
      runWasm (fun _ => some idleModule) (openedTa ta.heapSize) (runWith smallestWasm wholeBuffer)
        Env.ok := rfl
  simp only [outputs, repliesTo, hopened, h₀, resumeAll, List.map_cons, List.map_nil,
    List.cons.injEq, and_true, Prod.mk.injEq] at hout
  cases hp : ta.panicked with
  | true =>
    -- a dead TA answers nothing
    simp [invokeCommandEntryPoint, hp] at hout
  | false =>
    have halive : invokeCommandEntryPoint (fun _ => some (idleModule : WasmModule σ)) ta .runWasm
        (runWith smallestWasm wholeBuffer) Env.ok =
        runWasm (fun _ => some idleModule) ta (runWith smallestWasm wholeBuffer) Env.ok :=
      invoke_eq _ hp rfl Env.ok
    rw [halive, h₁] at hout
    have hask : asked (s.launched (runWith smallestWasm wholeBuffer)) =
        .answer (ascii "NO_RESPONSE") :=
      ask_inj (asked_fits _) ⟨by decide, by decide⟩ hout.2
    have hpend : s.pendingType = .none := by
      by_contra hne
      unfold asked at hask
      rw [show (s.launched (runWith smallestWasm wholeBuffer)).pendingType = s.pendingType from rfl]
        at hask
      cases hpt : s.pendingType <;> simp_all
    have hfinal : finalResponse s = ascii "NO_RESPONSE" := by
      rw [asked,
        show (s.launched (runWith smallestWasm wholeBuffer)).pendingType = .none from hpend] at hask
      exact Ask.answer.inj hask
    exact ⟨hp, s, hs, hpend, (finalResponse_eq_iff s).1 hfinal⟩

/-! ## Reachable sessions -/

/-- One TA is what some command makes of the other. -/
def Commanded (ta ta' : Ta σ) : Prop :=
  ∃ load cmd p env, ta' = (invokeCommandEntryPoint load ta cmd p env).ta

theorem processHostcallFlow_sess (ta : Ta σ) (s : Session) (p : Params) (env : Env) :
    ∃ s', (processHostcallFlow ta s p env).ta.sess = some s' := by
  unfold processHostcallFlow
  split
  · exact ⟨s, rfl⟩
  · dsimp only
    split <;> exact ⟨_, rfl⟩

theorem firstSteps_sess (ta : Ta σ) (ctx : WamrContext σ) (s : Session) (p : Params) (env : Env) :
    ∃ s', (ta.firstSteps ctx s p env).ta.sess = some s' := by
  unfold Ta.firstSteps
  split
  · exact ⟨s, rfl⟩
  · dsimp only
    split
    · exact processHostcallFlow_sess _ _ _ _
    · exact ⟨_, rfl⟩

/-- A command leaves a TA with a session. -/
theorem Commanded.sess {ta ta' : Ta σ} (h : Commanded ta ta') (hs : ∃ s, ta.sess = some s) :
    ∃ s, ta'.sess = some s := by
  obtain ⟨load, cmd, p, env, rfl⟩ := h
  rcases invoke_cases load ta cmd p env with ⟨res, -, hinv⟩ | ⟨-, -, hinv⟩
  · rw [hinv]
    exact hs
  rw [hinv]
  obtain ⟨s, hs⟩ := hs
  cases cmd with
  | configureHeap => exact ⟨s, hs⟩
  | runWasm =>
    simp only [perform, runWasm, hs]
    repeat' split
    all_goals first
      | exact ⟨_, rfl⟩
      | exact firstSteps_sess _ _ _ _ _
  | resumeWasm =>
    simp only [perform, resumeWasm, hs]
    repeat' split
    all_goals first
      | exact ⟨s, hs⟩
      | exact processHostcallFlow_sess _ _ _ _

/-- **RUN_WASM starts from a clean state exactly where the last invocation
left one.** For every session reachable by any commands, with any
modules: every RUN_WASM whose runtime is initialised, and the resumes
behind it, are answered as on a session just opened, if and only if the TA
has not panicked, no request is pending in the session, and the response
on record, if there is one, reads NO_RESPONSE. -/
theorem startsClean_iff [Inhabited σ] {heapSize : UInt32} {ta : Ta σ}
    (hr : Relation.ReflTransGen Commanded (openedTa heapSize) ta) :
    StartsClean ta ↔ ta.Clean := by
  have hsess : ∃ s, ta.sess = some s :=
    invariant_of_step (I := fun t : Ta σ => ∃ s, t.sess = some s) (fun _ _ hs hc => hc.sess hs) hr
      ⟨Session.zero, rfl⟩
  obtain ⟨s, hs⟩ := hsess
  constructor
  · exact clean_of_startsClean hs
  · rintro ⟨hp, s', hs', hc⟩
    exact startsClean_of_clean hs' hp hc

/-- A heap of which the TA can allocate several. -/
abbrev smallHeap : UInt32 := 1024 * 1024

/-- The reply to a RUN_WASM on a session with such a heap. -/
def runOn (M : WasmModule ℕ) (ta : Ta ℕ) : Reply ℕ :=
  invokeCommandEntryPoint (fun _ => some M) ta .runWasm (runWith smallestWasm wholeBuffer) Env.ok

/-- A session in which a module has answered nothing. -/
theorem startsClean_iff_idle :
    Relation.ReflTransGen Commanded (openedTa smallHeap)
        (runOn idleModule (openedTa smallHeap)).ta ∧
      StartsClean (runOn idleModule (openedTa smallHeap)).ta := by
  have hr : Relation.ReflTransGen Commanded (openedTa smallHeap)
      (runOn idleModule (openedTa smallHeap)).ta := .single ⟨_, _, _, _, rfl⟩
  exact ⟨hr, (startsClean_iff hr).2 ⟨rfl, _, rfl, rfl, .inl rfl⟩⟩

/-- A TA whose client has not resumed a module that asked for a value. -/
def abandoned : Ta ℕ :=
  (runOn (scripted [] fun _ => ⟨[.ccGetState 0 0 8 1], none⟩) (openedTa smallHeap)).ta

/-- The next RUN_WASM, of a module that does nothing, answers with the
request of the last. -/
theorem abandoned_shows_through :
    Commanded (openedTa smallHeap) abandoned ∧
      (runOn idleModule abandoned).params.value1 = getStateRequest ∧ ¬ StartsClean abandoned := by
  have hp : abandoned.sess.map Session.pendingType = some .getState := by decide +kernel
  rw [Option.map_eq_some_iff] at hp
  obtain ⟨s, hs, hpt⟩ := hp
  refine ⟨⟨_, _, _, _, rfl⟩, by decide +kernel, fun h => ?_⟩
  obtain ⟨-, s', hs', hc, -⟩ := clean_of_startsClean hs h
  rw [hs] at hs'
  cases hs'
  rw [hpt] at hc
  cases hc

end TeeChaincode
