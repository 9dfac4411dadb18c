import TeeChaincode.Ta.Guards

/-!
# What holds of a session at all times

A session context is changed by three natives and by both commands, each
of which sets a part of it. What all of them keep is `Session.Represented`:
there is an output range exactly while a GET request is pending, and the
key, the value and the response end in a NUL. It holds behind every
native call a module makes, and so does it of every session that commands
can reach. The strings a command hands over are scanned out of such a
session and copied to a cleared field, so nothing stands behind them.
-/

namespace TeeChaincode

open Common

variable {σ : Type} {s : Session}

/-! ## The invariant -/

/-- **A session context that is in order.** -/
structure Session.Represented (s : Session) : Prop where
  /-- `pending_type` is `0` or the code of a request. -/
  code : (s.pendingType.code.toUInt32 = 0 ∨ s.pendingType.code.toUInt32 = getStateRequest) ∨
    s.pendingType.code.toUInt32 = putStateRequest
  /-- A GET request has room for its value. -/
  range : s.pendingType = .getState → 0 < s.wasmOutLen.toInt
  /-- Without one there is no range. -/
  noRange : s.pendingType ≠ .getState → s.wasmOutOffset = 0 ∧ s.wasmOutLen = 0
  key : s.key.bytes[keySize - 1]? = some 0
  value : s.value.bytes[valSize - 1]? = some 0
  response : s.response.bytes[responseSize - 1]? = some 0

theorem PendingType.code_cases (t : PendingType) :
    (t.code.toUInt32 = 0 ∨ t.code.toUInt32 = getStateRequest) ∨
      t.code.toUInt32 = putStateRequest := by
  cases t <;> decide

/-- The last byte of a field that is cleared and then written in front. -/
theorem getElem?_pad_last {n : ℕ} {b : Bytes} (h : b.length < n) : (pad n b)[n - 1]? = some 0 := by
  rw [pad_eq h, List.getElem?_append_right (by omega)]
  cases hk : n - 1 - b.length with
  | zero => rfl
  | succ k =>
    rw [List.getElem?_cons_succ, List.getElem?_replicate, if_pos (by omega)]

/-- What a native copies leaves the last byte of its field. -/
theorem getElem?_copied (m : Memory) (ptr : Option ℕ) (n : ℤ) (size : ℕ) (h : 0 < size) :
    (Buf.load size (copied m ptr (min n (size - 1)))).bytes[size - 1]? = some 0 := by
  have hlen := length_copied_le m ptr (min n (size - 1))
  exact getElem?_pad_last (by omega)

theorem Session.represented_zero : Session.zero.Represented where
  code := PendingType.code_cases _
  range h := by cases h
  noRange _ := ⟨rfl, rfl⟩
  key := getElem?_pad_last (by decide)
  value := getElem?_pad_last (by decide)
  response := getElem?_pad_last (by decide)

/-! ## Native calls -/

/-- The response behind a call that passes one on. -/
theorem ccReturnResponseNative_response {msgLen : Int32} (msgPtr : UInt32) (m : Memory)
    (s : Session) (h : 0 ≤ msgLen.toInt) :
    (ccReturnResponseNative msgPtr msgLen m s).sess.response.bytes[responseSize - 1]? = some 0 := by
  obtain ⟨k, hk⟩ : ∃ k : ℕ, min msgLen.toInt (responseSize - 1) = k :=
    ⟨(min msgLen.toInt (responseSize - 1)).toNat, by
      rw [show ((responseSize : ℕ) : ℤ) = 256 from rfl]
      omega⟩
  have hlast := getElem?_copied m (toNative m msgPtr (clampLen msgLen)).1 msgLen.toInt
    responseSize (by decide)
  rw [hk] at hlast
  simp only [ccReturnResponseNative, hk, Session.storeResponse_of_nonneg, Buf.set_bytes]
  -- the terminator is stored over the last byte, or in front of it
  rw [List.getElem?_set]
  split
  · rw [if_pos (by rw [Buf.size_eq]; omega)]
  · exact hlast

/-- **Every native keeps a session in order**, in any memory and with any
arguments, but for a response of negative length. -/
theorem Session.Represented.callNative (h : s.Represented) {c : NativeCall} (hc : c.Measured)
    (m : Memory) : (callNative c m s).sess.Represented := by
  cases c with
  | ccGetState keyPtr keyLen outPtr outLen =>
    simp only [TeeChaincode.callNative, ccGetStateNative]
    split
    · exact h
    · next hout =>
      refine ⟨PendingType.code_cases _, fun _ => ?_, fun hne => absurd rfl hne, ?_, h.value,
        h.response⟩
      · exact not_le.1 fun hle => hout (.inr hle)
      · exact getElem?_copied m _ _ _ (by decide)
  | ccPutState keyPtr keyLen valPtr valLen =>
    refine ⟨PendingType.code_cases _, (fun hg => by cases hg), fun _ => ⟨rfl, rfl⟩, ?_, ?_,
      h.response⟩
    · exact getElem?_copied m _ _ _ (by decide)
    · exact getElem?_copied m _ _ _ (by decide)
  | ccReturnResponse msgPtr msgLen =>
    have hlast := ccReturnResponseNative_response msgPtr m s hc
    obtain ⟨response, hs⟩ := ccReturnResponseNative_sess msgPtr m s hc
    rw [TeeChaincode.callNative]
    rw [hs] at hlast ⊢
    exact ⟨h.code, h.range, h.noRange, h.key, h.value, hlast⟩
  | _ =>
    rw [callNative_sess (by exact id)]
    exact h

/-- So does every sequence of them. -/
theorem Session.Represented.after (h : s.Represented) {calls : List (NativeCall × Instance σ)}
    (hm : ∀ c ∈ calls, c.1.Measured) : (s.after calls).Represented :=
  Guest.hostAfter_invariant (I := Session.Represented)
    (fun c hc _ hs => hs.callNative (hm c hc) c.2.mem) h

/-! ## What is handed over -/

/-- A field of `n` bytes that holds a C string, with its NUL, and zeros
from there on. -/
def IsCField (n : ℕ) (b : Bytes) : Prop :=
  ∃ x : Bytes, (0 : UInt8) ∉ x ∧ x.length < n ∧ b = pad n x

/-- **Every string the parameters hand over** fills its field with zeros:
the key and the value of a request, and the text of a final answer. -/
structure Params.HandsOver (p : Params) : Prop where
  request : p.value1 = getStateRequest ∨ p.value1 = putStateRequest →
    IsCField keySize (p.memref2.buffer.take keySize) ∧
      IsCField valSize ((p.memref2.buffer.drop keySize).take valSize)
  answer : p.value1 = invocationResponse →
    IsCField responseSize (p.memref2.buffer.take responseSize)

theorem invocationResponse_ne :
    invocationResponse ≠ getStateRequest ∧ invocationResponse ≠ putStateRequest := by
  decide

/-- **An answer that fits is handed over so.** -/
theorem Params.handsOver_ask (p : Params) {a : Ask} (ha : a.Fits) : (p.ask a).HandsOver := by
  have hcode := p.ask_value1 a
  cases a with
  | get key =>
    obtain ⟨h0, hlen⟩ := ha
    have hb : (p.ask (.get key)).memref2.buffer = pad keySize key ++
        (pad valSize [] ++ p.memref2.buffer.drop sizeofKeyValue) := memMove_key hlen.le
    refine ⟨fun _ => ?_, fun hv => absurd (hcode.symm.trans hv)
      (show getStateRequest ≠ invocationResponse by decide)⟩
    rw [hb, List.take_left' (length_pad _ _), List.drop_left' (length_pad _ _),
      List.take_left' (length_pad _ _)]
    exact ⟨⟨key, h0, hlen, rfl⟩, [], by simp, by decide, rfl⟩
  | put key value =>
    obtain ⟨⟨h0, hlen⟩, hv0, hvlen⟩ := ha
    have hb : (p.ask (.put key value)).memref2.buffer = pad keySize key ++
        (pad valSize value ++ p.memref2.buffer.drop sizeofKeyValue) :=
      memMove_keyValue hlen.le hvlen.le
    refine ⟨fun _ => ?_, fun hv => absurd (hcode.symm.trans hv)
      (show putStateRequest ≠ invocationResponse by decide)⟩
    rw [hb, List.take_left' (length_pad _ _), List.drop_left' (length_pad _ _),
      List.take_left' (length_pad _ _)]
    exact ⟨⟨key, h0, hlen, rfl⟩, value, hv0, hvlen, rfl⟩
  | answer text =>
    obtain ⟨h0, hlen⟩ := ha
    have hb : (p.ask (.answer text)).memref2.buffer =
        pad responseSize text ++ p.memref2.buffer.drop responseSize :=
      memMove_memFill_zero hlen.le
    refine ⟨fun hv => absurd hv ?_, fun _ => ?_⟩
    · rw [hcode]
      exact not_or.2 invocationResponse_ne
    · rw [hb, List.take_left' (length_pad _ _)]
      exact ⟨text, h0, hlen, rfl⟩

/-- The text of a `step_init` that failed is copied with its NUL. -/
theorem Params.handsOver_stepInitFailed (p : Params) :
    (p.respond (ascii "STEP_INIT_FAILED" ++ [0])).HandsOver := by
  have hb : (p.respond (ascii "STEP_INIT_FAILED" ++ [0])).memref2.buffer =
      pad responseSize (ascii "STEP_INIT_FAILED") ++ p.memref2.buffer.drop responseSize :=
    memMove_memFill_zero (by decide)
  refine ⟨fun hv => absurd hv (not_or.2 invocationResponse_ne), fun _ => ?_⟩
  rw [hb, List.take_left' (length_pad _ _)]
  exact ⟨ascii "STEP_INIT_FAILED", by decide, by decide, rfl⟩

/-! ## Commands -/

/-- A request that is answered takes its range with it: a PUT request has
none. -/
theorem Session.Represented.drained (h : s.Represented) : s.drained.Represented := by
  unfold Session.drained
  split
  · exact ⟨PendingType.code_cases _, (fun hg => by cases hg), fun _ => ⟨rfl, rfl⟩, h.key, h.value,
      h.response⟩
  · next hp =>
    exact ⟨PendingType.code_cases _, (fun hg => by cases hg),
      fun _ => h.noRange (by rw [hp]; decide), h.key, h.value, h.response⟩
  · exact h

theorem Session.Represented.entry (h : s.Represented) (p : Params) (cmd : Command) :
    (cmd.entry p s).Represented := by
  cases cmd with
  | configureHeap => exact h
  | runWasm => exact ⟨h.code, h.range, h.noRange, h.key, h.value, h.response⟩
  | resumeWasm => exact h.drained

variable {ta ta' : Ta σ} {load : Loader σ} {p : Params} {env : Env} {cmd : Command}

/-- What a command came to, on the session it found and the one its steps
started in. -/
inductive Came (s s₀ : Session) (r : Reply σ) : Prop
  /-- It executed nothing. -/
  | idle (s' : Session) (hsteps : r.steps = []) (hsess : r.ta.sess = some s')
      (hkeep : s.Represented → s'.Represented)
  /-- It did, and handed over what it came to. -/
  | ran (hsess : r.ta.sess = some (s₀.after (callsOf r.steps))) (hands : r.params.HandsOver)

theorem processHostcallFlow_ran (ta : Ta σ) (s : Session) (p : Params) (env : Env)
    {r : StepResult σ} (hr : callStep ta.runtimeCtx .stepResume env.execEnv s = some r) :
    (processHostcallFlow ta s p env).ta.sess =
        some (s.after (callsOf (processHostcallFlow ta s p env).steps)) ∧
      (processHostcallFlow ta s p env).params.HandsOver := by
  have hsess : r.sess = s.after (callsOf [r.trace]) := by
    rw [(callStep_stepped hr).sess]
    simp [callsOf]
  have herr : (Ask.answer (ascii "RUNTIME_ERROR")).Fits := ⟨by decide, by decide⟩
  simp only [processHostcallFlow, hr, drain_eq]
  split
  · exact ⟨congrArg some hsess, p.handsOver_ask (asked_fits _)⟩
  · exact ⟨congrArg some hsess, p.handsOver_ask herr⟩

theorem processHostcallFlow_came (ta : Ta σ) (s₀ : Session) (p : Params) (env : Env)
    (h : s.Represented → s₀.Represented) : Came s s₀ (processHostcallFlow ta s₀ p env) := by
  cases hr : callStep ta.runtimeCtx .stepResume env.execEnv s₀ with
  | none =>
    simp only [processHostcallFlow, hr]
    exact .idle s₀ rfl rfl h
  | some r =>
    obtain ⟨hsess, hands⟩ := processHostcallFlow_ran ta s₀ p env hr
    exact .ran hsess hands

theorem runWasm_came (load : Loader σ) (p : Params) (env : Env) (hs : ta.sess = some s) :
    Came s (s.launched p) (runWasm load ta p env) := by
  -- what RUN_WASM sets is not part of the invariant
  have hkeep : ∀ (args : Buf sizeofArguments) (heap wasm rt : Bool), s.Represented →
      { s with args, heapBufOwned := heap, trustedWasmOwned := wasm, runtime := rt }.Represented :=
    fun _ _ _ _ h => ⟨h.code, h.range, h.noRange, h.key, h.value, h.response⟩
  by_cases halloc : env.heapMalloc = false ∨ env.wasmMalloc = false
  · simp only [runWasm, hs, if_pos halloc]
    exact .idle _ rfl rfl (hkeep _ _ _ _)
  simp only [not_or, Bool.not_eq_false] at halloc
  by_cases hi : Initialises load p.memref0 env
  · obtain ⟨M, hM⟩ := hi.wasmModule
    rw [runWasm_of_initialises hs hi hM, Ta.firstSteps]
    split
    · exact .idle _ rfl rfl (hkeep _ _ _ _)
    next st hst =>
    obtain ⟨-, -, hsess, -, ⟨M', hM'⟩, inst, hinst⟩ := callStep_stepped hst
    split
    · obtain ⟨r, hr⟩ : ∃ r, callStep st.ctx .stepResume env.execEnv st.sess = some r :=
        callStep_isSome .stepResume env.execEnv st.sess hM' hinst
      obtain ⟨hran, hands⟩ := processHostcallFlow_ran
        { ta with sess := some st.sess, runtimeCtx := st.ctx } st.sess { p with value1 := 0 } env hr
      -- the calls of `step_resume` come behind those of `step_init`
      exact .ran (hran.trans (congrArg some (Session.after_callsOf hsess _))) hands
    · refine .ran ?_ (Params.handsOver_stepInitFailed _)
      simp [callsOf, hsess]
  · obtain ⟨ctx, -, hrun⟩ := runWasm_of_not_initialises ta p hs halloc.1 halloc.2 hi
    rw [hrun]
    exact .idle _ rfl rfl (hkeep _ _ _ _)

theorem resumeWasm_came (p : Params) (env : Env) (hs : ta.sess = some s) :
    Came s s.drained (resumeWasm ta p env) := by
  simp only [resumeWasm, hs, Session.drained]
  by_cases hrt : s.runtime = false
  · rw [if_pos hrt]
    exact .idle s rfl hs id
  rw [if_neg hrt]
  cases hp : s.pendingType with
  | getState =>
    dsimp only
    split
    · exact .idle s rfl hs id
    · refine processHostcallFlow_came _ _ p env fun h => ?_
      have hd := h.drained
      rwa [Session.drained, hp] at hd
  | putState =>
    refine processHostcallFlow_came _ _ p env fun h => ?_
    have hd := h.drained
    rwa [Session.drained, hp] at hd
  | none => exact processHostcallFlow_came _ _ p env id

/-- **What any command comes to.** -/
theorem command_came (load : Loader σ) (cmd : Command) (p : Params) (env : Env)
    (hs : ta.sess = some s) :
    Came s (cmd.entry p s) (invokeCommandEntryPoint load ta cmd p env) := by
  rcases invoke_cases load ta cmd p env with ⟨res, -, hinv⟩ | ⟨-, -, hinv⟩
  · rw [hinv]
    exact .idle s rfl hs id
  rw [hinv]
  cases cmd with
  | configureHeap => exact .idle s rfl hs id
  | runWasm => exact runWasm_came load p env hs
  | resumeWasm => exact resumeWasm_came p env hs

/-! ## Runs -/

/-- One TA is what such a command makes of the other, with any module. -/
def MeasuredCommand (ta ta' : Ta σ) : Prop :=
  ∃ load cmd p env, Measures load ta cmd p env ∧
    ta' = (invokeCommandEntryPoint load ta cmd p env).ta

/-- Every session of a TA is in order. -/
def Ta.Represented (ta : Ta σ) : Prop := ∀ s, ta.sess = some s → s.Represented

/-- Without a session no command makes one. -/
theorem command_of_none (load : Loader σ) (cmd : Command) (p : Params) (env : Env)
    (hs : ta.sess = none) :
    (invokeCommandEntryPoint load ta cmd p env).ta.sess = none ∧
      (invokeCommandEntryPoint load ta cmd p env).steps = [] := by
  rcases invoke_cases load ta cmd p env with ⟨res, -, hinv⟩ | ⟨-, -, hinv⟩
  · rw [hinv]
    exact ⟨hs, rfl⟩
  rw [hinv]
  cases cmd with
  | configureHeap => exact ⟨hs, rfl⟩
  | runWasm =>
    simp only [perform, runWasm, hs]
    exact ⟨trivial, trivial⟩
  | resumeWasm =>
    simp only [perform, resumeWasm, hs]
    exact ⟨trivial, trivial⟩

/-- **One command.** -/
theorem MeasuredCommand.represented (h : MeasuredCommand ta ta') (hr : ta.Represented) :
    ta'.Represented := by
  obtain ⟨load, cmd, p, env, hm, rfl⟩ := h
  intro s' hs'
  cases hs : ta.sess with
  | none =>
    rw [(command_of_none load cmd p env hs).1] at hs'
    cases hs'
  | some s =>
    cases command_came load cmd p env hs with
    | idle s₁ _ hsess hkeep =>
      obtain rfl := Option.some.inj (hsess.symm.trans hs')
      exact hkeep (hr s hs)
    | ran hsess _ =>
      obtain rfl := Option.some.inj (hsess.symm.trans hs')
      exact ((hr s hs).entry p cmd).after hm

/-- **Every session that can be reached is in order**, behind every
sequence of commands with any modules. The length its next RESUME_WASM
scans with does not underflow; and whatever the next command is, the
session is in order behind each of the calls it makes, and what the
command hands over in a large enough buffer has nothing behind it. -/
theorem represented_of_reachable {types : List ParamType} {mallocOk : Bool} {ta : Ta σ}
    (h : Relation.ReflTransGen MeasuredCommand
      (openSessionEntryPoint Ta.created types mallocOk).2 ta) :
    (∀ s, ta.sess = some s → s.Represented ∧
      (s.pendingType = .getState → (sizeTPred s.wasmOutLen : ℤ) = s.wasmOutLen.toInt - 1)) ∧
    ∀ (load : Loader σ) (cmd : Command) (p : Params) (env : Env), Measures load ta cmd p env →
      (invokeCommandEntryPoint load ta cmd p env).steps ≠ [] →
      ∃ s, ta.sess = some s ∧
        (∀ k, ((cmd.entry p s).after
          ((callsOf (invokeCommandEntryPoint load ta cmd p env).steps).take k)).Represented) ∧
        (invokeCommandEntryPoint load ta cmd p env).ta.sess = some ((cmd.entry p s).after
          (callsOf (invokeCommandEntryPoint load ta cmd p env).steps)) ∧
        (sizeofKeyValue ≤ p.memref2.size →
          (invokeCommandEntryPoint load ta cmd p env).params.HandsOver) := by
  have hopened : (openSessionEntryPoint (Ta.created : Ta σ) types mallocOk).2.Represented := by
    intro s hs
    simp only [openSessionEntryPoint, Ta.created] at hs
    split at hs
    · cases hs
    · cases mallocOk with
      | false => cases hs
      | true =>
        obtain rfl := Option.some.inj hs
        exact Session.represented_zero
  have hr : ta.Represented :=
    invariant_of_step (I := Ta.Represented) (fun _ _ hi hc => hc.represented hi) h hopened
  refine ⟨fun s hs => ⟨hr s hs, fun hp => ?_⟩, fun load cmd p env hm hne => ?_⟩
  · have hpos := (hr s hs).range hp
    have hlt := s.wasmOutLen.toInt_lt
    rw [sizeTPred]
    omega
  · cases hs : ta.sess with
    | none => exact absurd (command_of_none load cmd p env hs).2 hne
    | some s =>
      cases command_came load cmd p env hs with
      | idle s' hsteps _ _ => exact absurd hsteps hne
      | ran hsess hands =>
        refine ⟨s, rfl, fun k => ?_, hsess, fun _ => hands⟩
        exact ((hr s hs).entry p cmd).after fun c hc => hm c (List.mem_of_mem_take hc)

/-- The session a client has left with a GET request, and the RESUME_WASM
it can go on with. -/
theorem represented_of_reachable_abandoned :
    (∃ s, abandoned.sess = some s ∧ s.pendingType = .getState ∧ s.Represented) ∧
      (invokeCommandEntryPoint (fun _ => none) abandoned .resumeWasm
        (resumeWith ⟨List.replicate 640 7, 640⟩) Env.ok).params.HandsOver := by
  have hr : Relation.ReflTransGen MeasuredCommand
      (openSessionEntryPoint (Ta.created : Ta ℕ) [.none, .none, .none, .none] true).2
      abandoned := by
    -- the heap is configured, and the module is run
    refine .head (b := openedTa smallHeap)
      ⟨fun _ => none, .configureHeap, configureWith smallHeap, Env.ok, fun c hc => ?_, rfl⟩
      (.single ⟨_, _, _, _, ?_, rfl⟩)
    · cases hc
    · show ∀ c ∈ callsOf _, c.1.Measured
      decide +kernel
  have hm : Measures (fun _ => none) abandoned .resumeWasm
      (resumeWith ⟨List.replicate 640 7, 640⟩) Env.ok := by
    show ∀ c ∈ callsOf _, c.1.Measured
    decide +kernel
  obtain ⟨hsess, hnext⟩ := represented_of_reachable hr
  have hp : abandoned.sess.map Session.pendingType = some .getState := by decide +kernel
  obtain ⟨s, hs, hpt⟩ := Option.map_eq_some_iff.1 hp
  have hne : (invokeCommandEntryPoint (fun _ => none) abandoned .resumeWasm
      (resumeWith ⟨List.replicate 640 7, 640⟩) Env.ok).steps ≠ [] := by
    refine List.ne_nil_of_length_pos ?_
    decide +kernel
  obtain ⟨s', -, -, -, hands⟩ := hnext _ _ _ _ hm hne
  exact ⟨⟨s, hs, hpt, (hsess s hs).1⟩, hands (by decide)⟩

end TeeChaincode
