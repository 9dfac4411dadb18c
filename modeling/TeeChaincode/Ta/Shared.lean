import TeeChaincode.Ta.Slot

/-!
# The size of the shared buffer

A host that is not to be trusted chooses the size of `params[2]` besides
its contents. RUN_WASM looks at the size before it copies the arguments,
and nothing else does: the answers are written as structs of 256 or 320
bytes, and a GET reply is scanned as far as the range of the module goes.

This module writes the two commands once more with every access through
the buffer checked against its size. The checked commands stop where an
index is not below the size, and otherwise do what the commands do, so the
two agree exactly where the buffer is respected.
-/

namespace TeeChaincode

open Common

variable {σ : Type}

/-! ## Accesses -/

namespace Memref

/-- Every index of a range of the buffer is below its size. -/
def Within (b : Memref) (off len : ℕ) : Prop := ∀ i, i < len → off + i < b.size

instance (b : Memref) (off len : ℕ) : Decidable (b.Within off len) :=
  inferInstanceAs (Decidable (∀ i, i < len → off + i < b.size))

/-- A byte of the buffer. -/
def byte (b : Memref) (i : ℕ) : UInt8 := b.buffer.getD i 0

/-- `TEE_MemFill` of a range with zeros. -/
def fillIn (b : Memref) (off len : ℕ) : Option Memref :=
  if b.Within off len then some { b with buffer := memFill b.buffer off len 0 } else none

/-- `TEE_MemMove` to a range. -/
def moveIn (b : Memref) (off : ℕ) (data : Bytes) : Option Memref :=
  if b.Within off data.length then some { b with buffer := memMove b.buffer off data } else none

/-- `TEE_MemMove` from a range. -/
def readIn (b : Memref) (off len : ℕ) : Option Bytes :=
  if b.Within off len then some ((b.buffer.drop off).take len) else none

/-- The loop of `safe_strlen` from an offset on, with `n` bytes to go. -/
def strlenIn (b : Memref) : ℕ → ℕ → Option ℕ
  | _, 0 => some 0
  | off, n + 1 =>
    if off < b.size then
      if b.byte off = 0 then some 0 else (b.strlenIn (off + 1) n).map (· + 1)
    else none

end Memref

/-! ## The commands with their accesses checked -/

namespace Guarded

/-- Answer with a final response. -/
def respond (p : Params) (text : Bytes) : Option Params := do
  let b ← p.memref2.fillIn 0 responseSize
  let b ← b.moveIn 0 text
  return { p with value1 := invocationResponse, memref2 := b }

/-- Answer with a GET request. -/
def requestGet (p : Params) (key : Bytes) : Option Params := do
  let b ← p.memref2.fillIn 0 sizeofKeyValue
  let b ← b.moveIn 0 key
  return { p with value1 := getStateRequest, memref2 := b }

/-- Answer with a PUT request. -/
def requestPut (p : Params) (key value : Bytes) : Option Params := do
  let b ← p.memref2.fillIn 0 sizeofKeyValue
  let b ← b.moveIn 0 key
  let b ← b.moveIn keySize value
  return { p with value1 := putStateRequest, memref2 := b }

/-- What is written behind a step that succeeded. -/
def drain (s : Session) (p : Params) : Option Params :=
  let key := s.key.bytes.take (safeStrlen s.key.bytes (keySize - 1))
  let value := s.value.bytes.take (safeStrlen s.value.bytes (valSize - 1))
  match s.pendingType with
  | .getState => requestGet p key
  | .putState => requestPut p key value
  | .none => respond p (finalResponse s)

/-- `process_hostcall_flow`. -/
def processHostcallFlow (ta : Ta σ) (s : Session) (p : Params) (env : Env) : Option (Reply σ) :=
  match callStep ta.runtimeCtx .stepResume env.execEnv s with
  | none => some (({ ta with sess := some s }).panic p [])
  | some r =>
    let ta' := { ta with sess := some r.sess, runtimeCtx := r.ctx }
    if r.ok then (drain r.sess p).map fun p => ⟨.success, p, ta', [r.trace]⟩
    else (respond p (ascii "RUNTIME_ERROR")).map fun p => ⟨.success, p, ta', [r.trace]⟩

/-- The arguments RUN_WASM copies, where it takes the buffer for one that
holds them. -/
def copyArguments (b : Memref) : Option (Buf sizeofArguments) :=
  if sizeofArguments ≤ b.size then (b.readIn 0 sizeofArguments).map (Buf.load _)
  else some (Buf.load _ [])

/-- COMMAND_RUN_WASM behind the set-up of its runtime. -/
def firstSteps (ta : Ta σ) (ctx : WamrContext σ) (s : Session) (p : Params) (env : Env) :
    Option (Reply σ) :=
  match callStep ctx .stepInit env.execEnvInit s with
  | none => some (({ ta with sess := some s, runtimeCtx := ctx }).panic p [])
  | some st =>
    let ta' := { ta with sess := some st.sess, runtimeCtx := st.ctx }
    if st.ok then
      (processHostcallFlow ta' st.sess p env).map fun rep =>
        { rep with steps := st.trace :: rep.steps }
    else
      (respond p (ascii "STEP_INIT_FAILED" ++ [0])).map fun p => ⟨.generic, p, ta', [st.trace]⟩

/-- COMMAND_RUN_WASM. -/
def runWasm (load : Loader σ) (ta : Ta σ) (p : Params) (env : Env) : Option (Reply σ) :=
  match ta.sess with
  | none => some ⟨.generic, p, ta, []⟩
  | some s =>
    (copyArguments p.memref2).bind fun args =>
    let p := { p with value1 := 0 }
    let s := { s with
      args
      heapBufOwned := env.heapMalloc
      trustedWasmOwned := env.wasmMalloc }
    if env.heapMalloc = false ∨ env.wasmMalloc = false then
      some ⟨.outOfMemory, p, { ta with sess := some s }, []⟩
    else
      let ctx : WamrContext σ :=
        { WamrContext.zero with wasmBytecode := p.memref0, heapSize := ta.heapSize }
      let (r, ctx) := initializeWamrRuntime load ctx env
      if r ≠ .success then some ⟨r, p, { ta with sess := some s, runtimeCtx := ctx }, []⟩
      else
        let s := { s with runtime := true }
        if ctx.moduleInst.isNone then
          some ⟨.generic, p, { ta with sess := some s, runtimeCtx := ctx }, []⟩
        else firstSteps ta ctx s p env

/-- The reply to a GET request of which `len` bytes have been found,
copied into the module's buffer. -/
def copyReply (s : Session) (b : Memref) (len : ℕ) (m : Memory) : Option Memory :=
  let out :=
    if s.wasmOutOffset ≠ 0 ∧ 0 < s.wasmOutLen.toInt ∧
        validateAppAddr m s.wasmOutOffset s.wasmOutLen.toUInt32 = true then
      addrAppToNative m s.wasmOutOffset
    else none
  match out with
  | some o =>
    if 0 < len then
      (b.readIn keySize len).map fun value =>
        (m.fill o s.wasmOutLen.toInt.toNat 0).write o value
    else some m
  | none => some m

/-- COMMAND_RESUME_WASM. The value is scanned before anything else. -/
def resumeWasm (ta : Ta σ) (p : Params) (env : Env) : Option (Reply σ) :=
  match ta.sess with
  | none => some ⟨.generic, p, ta, []⟩
  | some s =>
    if s.runtime = false then some ⟨.generic, p, ta, []⟩
    else
      match s.pendingType with
      | .getState =>
        (p.memref2.strlenIn keySize (sizeTPred s.wasmOutLen)).bind fun len =>
        match ta.runtimeCtx.moduleInst with
        | none => some (ta.panic p [])
        | some inst =>
          (copyReply s p.memref2 len inst.mem).bind fun mem =>
          let s' := { s with pendingType := .none, wasmOutOffset := 0, wasmOutLen := 0 }
          processHostcallFlow
            { ta with
              sess := some s'
              runtimeCtx := { ta.runtimeCtx with moduleInst := some { inst with mem } } } s' p env
      | .putState =>
        let s' := { s with pendingType := .none }
        processHostcallFlow { ta with sess := some s' } s' p env
      | .none => processHostcallFlow ta s p env

/-- The command behind the checks of the entry point. -/
def perform (load : Loader σ) (ta : Ta σ) (p : Params) (env : Env) : Command → Option (Reply σ)
  | .configureHeap => some (configureHeap ta p)
  | .runWasm => runWasm load ta p env
  | .resumeWasm => resumeWasm ta p env

/-- `TA_InvokeCommandEntryPoint`. -/
def invokeCommandEntryPoint (load : Loader σ) (ta : Ta σ) (cmd : Command) (p : Params)
    (env : Env) : Option (Reply σ) :=
  if ta.panicked then some ⟨.targetDead, p, ta, []⟩
  else if p.types ≠ cmd.paramTypes then some ⟨.badParameters, p, ta, []⟩
  else perform load ta p env cmd

end Guarded

/-! ## Where the buffer is large enough -/

variable {ta : Ta σ} {s : Session} {p : Params} {env : Env} {load : Loader σ} {b : Memref}

namespace Memref

theorem within_of_le {off len : ℕ} (h : off + len ≤ b.size) : b.Within off len :=
  fun i hi => by omega

theorem fillIn_of_le {off len : ℕ} (h : off + len ≤ b.size) :
    b.fillIn off len = some { b with buffer := memFill b.buffer off len 0 } :=
  if_pos (within_of_le h)

theorem moveIn_of_le {off : ℕ} {data : Bytes} (h : off + data.length ≤ b.size) :
    b.moveIn off data = some { b with buffer := memMove b.buffer off data } :=
  if_pos (within_of_le h)

theorem readIn_of_le {off len : ℕ} (h : off + len ≤ b.size) :
    b.readIn off len = some ((b.buffer.drop off).take len) :=
  if_pos (within_of_le h)

/-- There is room for a scan: it reads nothing, it ends with its bound, or
a NUL stops it. -/
def Stops (b : Memref) (off n : ℕ) : Prop :=
  n = 0 ∨ off + n ≤ b.size ∨ ∃ i, off ≤ i ∧ i < b.size ∧ b.byte i = 0

theorem byte_eq_head? (b : Memref) (off : ℕ) :
    b.byte off = (b.buffer.drop off).head?.getD 0 := by
  rw [List.head?_drop, byte, List.getD_eq_getElem?_getD]

/-- **Such a scan finds the string.** -/
theorem Stops.strlenIn_eq {off n : ℕ} (h : b.Stops off n) :
    b.strlenIn off n = some (safeStrlen (b.buffer.drop off) n) := by
  induction n generalizing off with
  | zero => cases b.buffer.drop off <;> rfl
  | succ n ih =>
    have hlt : off < b.size := by
      rcases h with hn | hle | ⟨i, hi, hsize, -⟩ <;> omega
    have hbyte := b.byte_eq_head? off
    rw [strlenIn, if_pos hlt]
    cases hd : b.buffer.drop off with
    | nil =>
      rw [hd] at hbyte
      exact if_pos hbyte
    | cons x rest =>
      rw [hd] at hbyte
      have hrest : b.buffer.drop (off + 1) = rest := by
        rw [← List.drop_drop, hd]
        rfl
      rw [safeStrlen, boundedLen, show b.byte off = x from hbyte]
      by_cases hz : x = 0
      · rw [if_pos hz, if_pos hz]
      · -- the NUL that stops the scan is further on
        have hnext : b.Stops (off + 1) n := by
          rcases h with hn | hle | ⟨i, hi, hsize, hi0⟩
          · omega
          · exact .inr (.inl (by omega))
          · refine .inr (.inr ⟨i, Nat.succ_le_of_lt (lt_of_le_of_ne hi ?_), hsize, hi0⟩)
            rintro rfl
            exact hz (hbyte.symm.trans hi0)
        rw [if_neg hz, if_neg hz, ih hnext, hrest]
        rfl

end Memref

variable {text key value : Bytes}

theorem guarded_respond (h : responseSize ≤ p.memref2.size) (ht : text.length ≤ responseSize) :
    Guarded.respond p text = some (p.respond text) := by
  rw [Guarded.respond, Memref.fillIn_of_le (by omega), Option.bind_eq_bind, Option.bind_some,
    Memref.moveIn_of_le (by dsimp only; omega)]
  rfl

theorem guarded_requestGet (h : sizeofKeyValue ≤ p.memref2.size) (hk : key.length ≤ keySize) :
    Guarded.requestGet p key = some (p.requestGet key) := by
  have hsize : sizeofKeyValue = keySize + valSize := rfl
  rw [Guarded.requestGet, Memref.fillIn_of_le (by omega), Option.bind_eq_bind, Option.bind_some,
    Memref.moveIn_of_le (by dsimp only; omega)]
  rfl

theorem guarded_requestPut (h : sizeofKeyValue ≤ p.memref2.size) (hk : key.length ≤ keySize)
    (hv : value.length ≤ valSize) :
    Guarded.requestPut p key value = some (p.requestPut key value) := by
  have hsize : sizeofKeyValue = keySize + valSize := rfl
  rw [Guarded.requestPut, Memref.fillIn_of_le (by omega), Option.bind_eq_bind, Option.bind_some,
    Memref.moveIn_of_le (by dsimp only; omega), Option.bind_some,
    Memref.moveIn_of_le (by dsimp only; omega)]
  rfl

theorem length_take_safeStrlen_le (b : Bytes) (n : ℕ) : (b.take (safeStrlen b n)).length ≤ n := by
  rw [take_boundedLen]
  exact length_clip_le n b

/-- What a session answers with fits its struct. -/
theorem guarded_drain (s : Session) (h : sizeofKeyValue ≤ p.memref2.size) :
    Guarded.drain s p = some (drain s p) := by
  have hkey := length_take_safeStrlen_le s.key.bytes (keySize - 1)
  have hval := length_take_safeStrlen_le s.value.bytes (valSize - 1)
  have hresp : responseSize ≤ sizeofKeyValue := by decide
  unfold Guarded.drain drain
  cases hp : s.pendingType with
  | getState => exact guarded_requestGet h (by omega)
  | putState => exact guarded_requestPut h (by omega) (by omega)
  | none =>
    have hfits := asked_fits s
    rw [asked, hp] at hfits
    exact guarded_respond (le_trans hresp h) hfits.2.le

/-- `process_hostcall_flow` writes where a step has run. -/
theorem guarded_processHostcallFlow (ta : Ta σ) (s : Session) (p : Params) (env : Env)
    (h : ∀ r, callStep ta.runtimeCtx .stepResume env.execEnv s = some r →
      sizeofKeyValue ≤ p.memref2.size) :
    Guarded.processHostcallFlow ta s p env = some (processHostcallFlow ta s p env) := by
  unfold Guarded.processHostcallFlow processHostcallFlow
  cases hr : callStep ta.runtimeCtx .stepResume env.execEnv s with
  | none => rfl
  | some r =>
    have hsize := h r hr
    have hresp : responseSize ≤ p.memref2.size := le_trans (by decide) hsize
    dsimp only
    rw [guarded_drain r.sess hsize, guarded_respond hresp (by decide)]
    split <;> rfl

/-- The first bytes of a string fill a buffer as the string does. -/
theorem load_take (n : ℕ) (b : Bytes) : Buf.load n (b.take n) = Buf.load n b := by
  apply Buf.ext
  rw [Buf.load_bytes, Buf.load_bytes, pad, pad, List.take_take, min_self, List.length_take]
  congr 2
  omega

theorem guarded_copyArguments (p : Params) :
    Guarded.copyArguments p.memref2 = some (argsOf p) := by
  unfold Guarded.copyArguments argsOf
  split
  · next hle => rw [Memref.readIn_of_le (by omega), List.drop_zero, Option.map_some, load_take]
  · rfl

/-- A step that gets no execution environment fails. -/
theorem callStep_noExecEnv {ctx : WamrContext σ} {name : StepName} {r : StepResult σ}
    (h : callStep ctx name false s = some r) (he : ctx.execEnv = false) : r.ok = false := by
  obtain ⟨M, inst, -, -, hc⟩ := callStep_cases h
  cases hc with
  | notCalled _ => rfl
  | returned fn _ hx _ => exact absurd ⟨he, rfl⟩ hx
  | trapped fn ex _ hx _ => exact absurd ⟨he, rfl⟩ hx

/-- What a RUN_WASM that initialises its runtime may answer with: a
`key_value`, or the text of a `step_init` that cannot be called. -/
def Env.answerSize (env : Env) : ℕ := if env.execEnvInit then sizeofKeyValue else responseSize

theorem Env.responseSize_le_answerSize (env : Env) : responseSize ≤ env.answerSize := by
  unfold answerSize
  split <;> decide

/-- A RUN_WASM whose runtime is initialised comes to its steps. -/
theorem guarded_runWasm_of_initialises {M : WasmModule σ} (hs : ta.sess = some s)
    (hi : Initialises load p.memref0 env) (hM : load p.memref0 = some M) :
    Guarded.runWasm load ta p env =
      Guarded.firstSteps ta (WamrContext.launched ta p M) (s.launched p) { p with value1 := 0 }
        env := by
  unfold Guarded.runWasm
  rw [hs]
  dsimp only
  rw [guarded_copyArguments, Option.bind_some]
  simp only [hi.heapMalloc, hi.wasmMalloc, initializeWamrRuntime_of_initialises ta p hi hM]
  rfl

/-- Without a runtime nothing is written. -/
theorem guarded_runWasm_of_not (hs : ta.sess = some s) (hi : ¬ Initialises load p.memref0 env) :
    Guarded.runWasm load ta p env = some (runWasm load ta p env) := by
  unfold Guarded.runWasm runWasm
  rw [hs]
  dsimp only
  rw [guarded_copyArguments, Option.bind_some]
  by_cases halloc : env.heapMalloc = false ∨ env.wasmMalloc = false
  · rw [if_pos halloc, if_pos halloc]
  rw [if_neg halloc, if_neg halloc]
  simp only [not_or, Bool.not_eq_false] at halloc
  obtain ⟨hres, -⟩ := initializeWamrRuntime_of_not ta p halloc.1 halloc.2 hi
  have hne : (initializeWamrRuntime load { WamrContext.zero with
      wasmBytecode := p.memref0, heapSize := ta.heapSize } env).1 ≠ .success := by
    rw [hres]
    decide
  rw [if_pos hne, if_pos hne]

/-- **RUN_WASM** writes where its runtime is initialised. -/
theorem guarded_runWasm (load : Loader σ) (ta : Ta σ) (p : Params) (env : Env)
    (h : (∃ s, ta.sess = some s) → Initialises load p.memref0 env →
      env.answerSize ≤ p.memref2.size) :
    Guarded.runWasm load ta p env = some (runWasm load ta p env) := by
  cases hs : ta.sess with
  | none => simp only [Guarded.runWasm, runWasm, hs]
  | some s =>
    by_cases hi : Initialises load p.memref0 env
    · have hsize := h ⟨s, hs⟩ hi
      have hresp : responseSize ≤ ({ p with value1 := 0 } : Params).memref2.size :=
        le_trans env.responseSize_le_answerSize hsize
      obtain ⟨M, hM⟩ := hi.wasmModule
      rw [runWasm_of_initialises hs hi hM, guarded_runWasm_of_initialises hs hi hM,
        Guarded.firstSteps, Ta.firstSteps]
      cases hst : callStep (WamrContext.launched ta p M) .stepInit env.execEnvInit
          (s.launched p) with
      | none => rfl
      | some st =>
        dsimp only
        rw [guarded_respond hresp (by decide)]
        split
        · next hok =>
          -- `step_init` has been called, so there was an environment for it
          have henv : env.execEnvInit = true := by
            by_contra hno
            rw [Bool.not_eq_true] at hno
            rw [hno] at hst
            rw [callStep_noExecEnv hst rfl] at hok
            cases hok
          rw [Env.answerSize, if_pos henv] at hsize
          exact congrArg (Option.map _) (guarded_processHostcallFlow
            { ta with sess := some st.sess, runtimeCtx := st.ctx } st.sess { p with value1 := 0 }
            env fun _ _ => hsize)
        · rfl
    · exact guarded_runWasm_of_not hs hi

/-- What a scan has found is within the buffer. -/
theorem Memref.strlenIn_le {off n k : ℕ} (h : b.strlenIn off n = some k) (hk : 0 < k) :
    off + k ≤ b.size := by
  induction n generalizing off k with
  | zero =>
    obtain rfl := Option.some.inj h
    omega
  | succ n ih =>
    rw [strlenIn] at h
    split at h
    · next hlt =>
      split at h
      · obtain rfl := Option.some.inj h
        omega
      · obtain ⟨j, hj, rfl⟩ := Option.map_eq_some_iff.1 h
        rcases Nat.eq_zero_or_pos j with rfl | hpos
        · omega
        · have hle := ih hj hpos
          omega
    · cases h

/-- A reply of which the length has been found. -/
theorem guarded_copyReply (s : Session) (m : Memory)
    (h : b.strlenIn keySize (sizeTPred s.wasmOutLen) =
      some (safeStrlen (b.buffer.drop keySize) (sizeTPred s.wasmOutLen))) :
    Guarded.copyReply s b (safeStrlen (b.buffer.drop keySize) (sizeTPred s.wasmOutLen)) m =
      some (copyReply s b.buffer m) := by
  unfold Guarded.copyReply copyReply
  generalize (if s.wasmOutOffset ≠ 0 ∧ 0 < s.wasmOutLen.toInt ∧
      validateAppAddr m s.wasmOutOffset s.wasmOutLen.toUInt32 = true then
    addrAppToNative m s.wasmOutOffset else none) = out
  cases out with
  | none => rfl
  | some o =>
    dsimp only
    split
    · next hpos => rw [Memref.readIn_of_le (Memref.strlenIn_le h hpos), Option.map_some]
    · rfl

/-- There is room for the scan of a RESUME_WASM. -/
def ScanFits (ta : Ta σ) (p : Params) : Prop :=
  ∀ s, ta.sess = some s → s.runtime = true → s.pendingType = .getState →
    p.memref2.Stops keySize (sizeTPred s.wasmOutLen)

/-- **RESUME_WASM** scans a reply, and writes where there is a module. -/
theorem guarded_resumeWasm (ta : Ta σ) (p : Params) (env : Env) (halive : ta.panicked = false)
    (hscan : ScanFits ta p) (h : ta.Live → sizeofKeyValue ≤ p.memref2.size) :
    Guarded.resumeWasm ta p env = some (resumeWasm ta p env) := by
  unfold Guarded.resumeWasm resumeWasm
  cases hs : ta.sess with
  | none => rfl
  | some s =>
    dsimp only
    by_cases hrt : s.runtime = false
    · rw [if_pos hrt, if_pos hrt]
    rw [if_neg hrt, if_neg hrt]
    have hrt' : s.runtime = true := by simpa using hrt
    have hsize : (∃ M, ta.runtimeCtx.wasmModule = some M) →
        (∃ inst, ta.runtimeCtx.moduleInst = some inst) → sizeofKeyValue ≤ p.memref2.size :=
      fun hM hi => h ⟨halive, ⟨s, hs, hrt'⟩, hM, hi⟩
    cases hp : s.pendingType with
    | getState =>
      have hstops := hscan s hs hrt' hp
      dsimp only
      rw [hstops.strlenIn_eq, Option.bind_some]
      cases hi : ta.runtimeCtx.moduleInst with
      | none => rfl
      | some inst =>
        dsimp only
        rw [guarded_copyReply s inst.mem hstops.strlenIn_eq, Option.bind_some]
        exact guarded_processHostcallFlow _ _ p env fun r hr =>
          hsize (callStep_loaded hr).1 ⟨inst, hi⟩
    | putState =>
      exact guarded_processHostcallFlow _ _ p env fun r hr =>
        hsize (callStep_loaded hr).1 (callStep_loaded hr).2
    | none =>
      exact guarded_processHostcallFlow _ _ p env fun r hr =>
        hsize (callStep_loaded hr).1 (callStep_loaded hr).2

/-! ## Runs -/

/-- **There is room in the buffer of a command** that is not turned down
for its types or because the TA is dead. A RUN_WASM that initialises its
runtime and a RESUME_WASM that finds a module may answer with a
`key_value`; and a RESUME_WASM scans the reply to a pending GET, from the
value on, up to a NUL or as far as the range of the module goes. -/
def Roomy (load : Loader σ) (ta : Ta σ) (cmd : Command) (p : Params) (env : Env) : Prop :=
  ta.panicked = false → p.types = cmd.paramTypes →
    match cmd with
    | .configureHeap => True
    | .runWasm => (∃ s, ta.sess = some s) → Initialises load p.memref0 env →
        env.answerSize ≤ p.memref2.size
    | .resumeWasm => ScanFits ta p ∧ (ta.Live → sizeofKeyValue ≤ p.memref2.size)

/-- **A command that respects the buffer**: it makes the accesses that are
checked and no others, and one whose buffer has no room for a `key_value`
is refused. A RESUME_WASM that finds a runtime without an instance makes
its scan and hands the NULL to WAMR: it touches the buffer no further and
does not succeed, which is all that is asked of it here, though it is not
the TA that refuses it. -/
structure Respects (load : Loader σ) (ta : Ta σ) (cmd : Command) (p : Params) (env : Env) :
    Prop where
  checked : Guarded.invokeCommandEntryPoint load ta cmd p env =
    some (invokeCommandEntryPoint load ta cmd p env)
  refused : cmd ≠ .configureHeap → p.memref2.size < sizeofKeyValue →
    (invokeCommandEntryPoint load ta cmd p env).result ≠ .success

/-- A RUN_WASM that succeeds has had room for a `key_value`. -/
theorem Roomy.run_refused (h : Roomy load ta .runWasm p env) (hp : ta.panicked = false)
    (ht : p.types = Command.runWasm.paramTypes) (hsmall : p.memref2.size < sizeofKeyValue) :
    (runWasm load ta p env).result ≠ .success := by
  cases hs : ta.sess with
  | none => simp [runWasm, hs]
  | some s =>
    by_cases hi : Initialises load p.memref0 env
    · have hsize := h hp ht ⟨s, hs⟩ hi
      obtain ⟨M, hM⟩ := hi.wasmModule
      -- the buffer has room for an error text only, so `step_init` is not called
      have henv : env.execEnvInit = false := by
        by_contra hno
        rw [Bool.not_eq_false] at hno
        rw [Env.answerSize, if_pos hno] at hsize
        omega
      rw [runWasm_of_initialises hs hi hM, Ta.firstSteps, henv]
      split
      · simp [Ta.panic]
      · next st hst =>
        have hok := callStep_noExecEnv hst rfl
        simp [hok]
    · exact (runWasm_of_not hs hi).1

/-- The entry point makes no access of its own. -/
theorem guarded_invoke {cmd : Command} (h : ta.panicked = false → p.types = cmd.paramTypes →
      Guarded.perform load ta p env cmd = some (perform load ta p env cmd)) :
    Guarded.invokeCommandEntryPoint load ta cmd p env =
      some (invokeCommandEntryPoint load ta cmd p env) := by
  unfold Guarded.invokeCommandEntryPoint
  by_cases hp : ta.panicked = true
  · rw [if_pos hp]
    unfold invokeCommandEntryPoint
    rw [if_pos hp]
  rw [if_neg hp]
  by_cases ht : p.types = cmd.paramTypes
  · have hp' : ta.panicked = false := by simpa using hp
    rw [if_neg (not_not.2 ht), invoke_eq load hp' ht]
    exact h hp' ht
  · rw [if_pos ht]
    unfold invokeCommandEntryPoint
    rw [if_neg hp, if_pos ht]

/-- **One command.** -/
theorem Roomy.respects {cmd : Command} (h : Roomy load ta cmd p env) :
    Respects load ta cmd p env := by
  refine ⟨guarded_invoke fun hp ht => ?_, fun hne hsmall => ?_⟩
  · have hroom := h hp ht
    cases cmd with
    | configureHeap => rfl
    | runWasm => exact guarded_runWasm load ta p env hroom
    | resumeWasm => exact guarded_resumeWasm ta p env hp hroom.1 hroom.2
  · rcases invoke_cases load ta cmd p env with ⟨res, hres, hinv⟩ | ⟨hp, ht, hinv⟩
    · rw [hinv]
      exact hres
    have hroom := h hp ht
    cases cmd with
    | configureHeap => exact absurd rfl hne
    | runWasm =>
      rw [hinv]
      exact h.run_refused hp ht hsmall
    | resumeWasm =>
      refine resume_result_of_not_live load p env fun hl => ?_
      have hsize := hroom.2 hl
      omega

/-- A scan that is not stopped has room. -/
theorem Memref.stops_of_strlenIn {off n k : ℕ} (h : b.strlenIn off n = some k) :
    b.Stops off n := by
  induction n generalizing off k with
  | zero => exact .inl rfl
  | succ n ih =>
    rw [strlenIn] at h
    split at h
    · next hlt =>
      split at h
      · next hz => exact .inr (.inr ⟨off, le_rfl, hlt, hz⟩)
      · obtain ⟨j, hj, -⟩ := Option.map_eq_some_iff.1 h
        rcases ih hj with rfl | hle | ⟨i, hi, hsize, hi0⟩
        · exact .inr (.inl (by omega))
        · exact .inr (.inl (by omega))
        · exact .inr (.inr ⟨i, by omega, hsize, hi0⟩)
    · cases h

/-- The TA with other code in its module. -/
def Ta.recoded (ta : Ta σ) (f : WasmModule σ → WasmModule σ) : Ta σ :=
  { ta with runtimeCtx := { ta.runtimeCtx with wasmModule := ta.runtimeCtx.wasmModule.map f } }

/-- A module with code that does nothing. -/
def WasmModule.idled (M : WasmModule σ) : WasmModule σ := ⟨fun _ => some (pure ()), M.initial⟩

/-- RUN_WASM of such a module is answered, whatever the buffer. -/
theorem runWasm_idled {M : WasmModule σ} (hs : ta.sess = some s)
    (hi : Initialises load p.memref0 env) (hM : load p.memref0 = some M.idled)
    (henv : env.execEnvInit = true) : (runWasm load ta p env).result = .success := by
  obtain ⟨st, hst, hok, hM', inst, hinst⟩ : ∃ st : StepResult σ,
      callStep (WamrContext.launched ta p M.idled) .stepInit env.execEnvInit (s.launched p) =
        some st ∧ st.ok = true ∧ st.ctx.wasmModule = some M.idled ∧
      ∃ inst, st.ctx.moduleInst = some inst :=
    ⟨_, callStep_of_returned rfl rfl rfl (.inr henv) rfl, rfl, rfl, _, rfl⟩
  rw [runWasm_of_initialises hs hi hM, Ta.firstSteps, hst]
  dsimp only
  rw [if_pos hok]
  exact processHostcallFlow_result { ta with sess := some st.sess, runtimeCtx := st.ctx } hM' hinst

/-- A TA that can be resumed answers, whatever the buffer. -/
theorem Ta.Live.resume_result (h : ta.Live) (load : Loader σ) (env : Env)
    (ht : p.types = Command.resumeWasm.paramTypes) :
    (invokeCommandEntryPoint load ta .resumeWasm p env).result = .success := by
  rw [invoke_eq load h.alive ht]
  exact h.resumeWasm_result

/-- **The condition is exact**, where WAMR finds an environment for
`step_init`: there is room in the buffer if and only if the command
respects it whatever code is put in the place of the module's. -/
theorem roomy_iff {cmd : Command} (henv : env.execEnvInit = true) :
    Roomy load ta cmd p env ↔ ∀ f : WasmModule σ → WasmModule σ,
      Respects (fun wasm => (load wasm).map f) (ta.recoded f) cmd p env := by
  constructor
  · intro h f
    refine Roomy.respects fun hp ht => ?_
    have hroom := h hp ht
    cases cmd with
    | configureHeap => trivial
    | runWasm =>
      intro hs hi
      obtain ⟨M, hM⟩ := hi.wasmModule
      obtain ⟨M₀, hM₀, -⟩ := Option.map_eq_some_iff.1 hM
      exact hroom hs ⟨hi.heapMalloc, hi.wasmMalloc, hi.fullInit, hi.loads, hi.instantiate, M₀, hM₀⟩
    | resumeWasm =>
      refine ⟨hroom.1, fun hl => hroom.2 ⟨hl.alive, hl.session, ?_, hl.moduleInst⟩⟩
      obtain ⟨M, hM⟩ := hl.wasmModule
      obtain ⟨M₀, hM₀, -⟩ := Option.map_eq_some_iff.1 hM
      exact ⟨M₀, hM₀⟩
  · intro h hp ht
    cases cmd with
    | configureHeap => trivial
    | runWasm =>
      rintro ⟨s, hs⟩ hi
      rw [Env.answerSize, if_pos henv]
      by_contra hsmall
      -- a module that does nothing is answered
      obtain ⟨M, hM⟩ := hi.wasmModule
      have hM' : (load p.memref0).map WasmModule.idled = some M.idled := by rw [hM]; rfl
      have hi' : Initialises (fun wasm => (load wasm).map WasmModule.idled) p.memref0 env :=
        ⟨hi.heapMalloc, hi.wasmMalloc, hi.fullInit, hi.loads, hi.instantiate, M.idled, hM'⟩
      have hp' : (ta.recoded WasmModule.idled).panicked = false := hp
      refine (h WasmModule.idled).refused (by simp) (by omega) ?_
      rw [invoke_eq _ hp' ht]
      exact runWasm_idled hs hi' hM' henv
    | resumeWasm =>
      have hp' : (ta.recoded id).panicked = false := hp
      constructor
      · intro s hs hrt hpend
        have hs' : (ta.recoded id).sess = some s := hs
        have hchecked := (h id).checked
        rw [Guarded.invokeCommandEntryPoint, hp', if_neg (by decide), if_neg (not_not.2 ht)]
          at hchecked
        simp only [Guarded.perform, Guarded.resumeWasm, hs', hrt, hpend] at hchecked
        obtain ⟨k, hk, -⟩ := Option.bind_eq_some_iff.1 hchecked
        exact Memref.stops_of_strlenIn hk
      · intro hl
        by_contra hsmall
        obtain ⟨M, hM⟩ := hl.wasmModule
        have hl' : (ta.recoded id).Live :=
          ⟨hl.alive, hl.session, ⟨M, by simp [Ta.recoded, hM]⟩, hl.moduleInst⟩
        exact (h id).refused (by simp) (by omega) (hl'.resume_result _ env ht)

/-- Something holds of every command of a run, in the TA it comes to. -/
def Throughout (load : Loader σ) (P : Ta σ → Command → Params → Env → Prop) :
    Ta σ → List Issued → Prop :=
  Along (Ta.issue load) fun ta c => P ta c.cmd c.params c.env

/-- **The buffer is respected in every run with enough room.** For every
TA, every loader, and every sequence of commands with any buffers: if each
command finds room in its buffer, then each makes every access below the
size of the buffer, and those with a buffer too small are refused. -/
theorem shared_buffer_respected {σ : Type} (load : Loader σ) (ta : Ta σ) (cmds : List Issued)
    (h : Throughout load (Roomy load) ta cmds) : Throughout load (Respects load) ta cmds :=
  h.mono fun _ _ hroom => hroom.respects

/-- There is room in the buffer of the proxy once it is cleared. -/
theorem roomy_of_whole (load : Loader σ) (ta : Ta σ) (cmd : Command) (env : Env)
    (h : p.memref2 = wholeBuffer) : Roomy load ta cmd p env := by
  intro _ _
  cases cmd with
  | configureHeap => trivial
  | runWasm =>
    intro _ _
    rw [h, Env.answerSize]
    split <;> decide
  | resumeWasm =>
    rw [ScanFits, h]
    exact ⟨fun s _ _ _ => .inr (.inr ⟨keySize, le_rfl, by decide, by decide +kernel⟩),
      fun _ => by decide⟩

/-- A module that asks for a value again and again. -/
def alwaysAsks : Loader ℕ := fun _ => some (scripted [] fun _ => ⟨[.ccGetState 0 0 8 8], none⟩)

/-- It runs and is resumed on the buffer of the proxy. -/
theorem shared_buffer_respected_whole :
    Throughout alwaysAsks (Respects alwaysAsks) (openedTa proxyHeap)
      [⟨.runWasm, runWith smallestWasm wholeBuffer, Env.ok⟩,
        ⟨.resumeWasm, resumeWith wholeBuffer, Env.ok⟩] :=
  shared_buffer_respected alwaysAsks _ _
    ⟨roomy_of_whole alwaysAsks _ _ _ rfl, roomy_of_whole alwaysAsks _ _ _ rfl, trivial⟩

/-- A RUN_WASM without a buffer is not refused: the TA clears and writes
256 bytes that are not part of it. -/
theorem small_buffer_is_overrun :
    (Guarded.invokeCommandEntryPoint (fun _ => some idleModule) (openedTa proxyHeap : Ta ℕ) .runWasm
        (runWith smallestWasm ⟨[], 0⟩) Env.ok).isNone = true ∧
      (invokeCommandEntryPoint (fun _ => some idleModule) (openedTa proxyHeap : Ta ℕ) .runWasm
        (runWith smallestWasm ⟨[], 0⟩) Env.ok).result = .success ∧
      ¬ Throughout (fun _ => some idleModule) (Respects fun _ => some idleModule)
        (openedTa proxyHeap : Ta ℕ) [⟨.runWasm, runWith smallestWasm ⟨[], 0⟩, Env.ok⟩] := by
  have hnone : (Guarded.invokeCommandEntryPoint (fun _ => some idleModule)
      (openedTa proxyHeap : Ta ℕ) .runWasm (runWith smallestWasm ⟨[], 0⟩) Env.ok).isNone =
        true := by
    decide +kernel
  refine ⟨hnone, by decide +kernel, fun h => ?_⟩
  rw [h.1.checked] at hnone
  cases hnone

/-! ## Commands that keep to their memory -/

/-- **A command that keeps to the memory it has**: its natives pass no
response of negative length, which is stored in front of `response`, or of
the session, and there is room in its buffer. What becomes of the TA
behind any other is not for its code to say. -/
structure Contained (load : Loader σ) (ta : Ta σ) (c : Issued) : Prop where
  measured : Measures load ta c.cmd c.params c.env
  roomy : Roomy load ta c.cmd c.params c.env

theorem contained_of_whole {c : Issued} (hw : c.params.memref2 = wholeBuffer)
    (hm : ∀ x ∈ callsOf (invokeCommandEntryPoint load ta c.cmd c.params c.env).steps,
      x.1.Measured) : Contained load ta c :=
  ⟨hm, roomy_of_whole _ _ _ _ hw⟩

end TeeChaincode
