import TeeChaincode.Model.Proxy
import TeeChaincode.Ta.Leftover
import TeeChaincode.Ta.Lifecycle

/-!
# The memory of a TA instance

RUN_WASM allocates a heap and a copy of the bytecode, and nothing ever
frees them: the next RUN_WASM of the instance overwrites the pointers. The
instance has `TA_DATA_SIZE` bytes for all of that, and the proxy
configures a heap of more than half of them. So one RUN_WASM of an
instance can get its buffers and no other, and the stage in which
`sc->runtime` points to a context without a module instance is out of
reach, for however many calls share the session.
-/

namespace TeeChaincode

open Common

variable {σ : Type}

/-- `TA_DATA_SIZE`. -/
def taDataSize : ℕ := 12 * 1024 * 1024

/-- The bytes a call takes from the instance's memory: what RUN_WASM
allocates for the heap and the bytecode, each where it succeeds, also
where the other does not. The session itself is not counted. -/
def Ta.allocates (ta : Ta σ) : HostCall → ℕ
  | .invokeCommand ⟨.runWasm, p, env⟩ =>
    if ta.sess.isSome = true ∧ p.types = Command.runWasm.paramTypes then
      (if env.heapMalloc then ta.heapSize.toNat else 0) +
        if env.wasmMalloc then p.memref0.length else 0
    else 0
  | _ => 0

/-- The heap size a call configures. -/
def HostCall.configures : HostCall → Option UInt32
  | .invokeCommand ⟨.configureHeap, p, _⟩ =>
    if p.types = Command.configureHeap.paramTypes then some p.value0 else none
  | _ => none

/-- The events of a RUN_WASM that gets both its buffers. -/
def LifeEvent.buffered : LifeEvent → Bool
  | .launched => true
  | .unloadable => true
  | _ => false

variable {load : Loader σ} {ta : Ta σ} {c : HostCall}

/-! ## The heap size -/

theorem processHostcallFlow_heapSize (ta : Ta σ) (s : Session) (p : Params) (env : Env) :
    (processHostcallFlow ta s p env).ta.heapSize = ta.heapSize := by
  unfold processHostcallFlow
  split
  · rfl
  · dsimp only
    split <;> rfl

theorem runWasm_heapSize (load : Loader σ) (ta : Ta σ) (p : Params) (env : Env) :
    (runWasm load ta p env).ta.heapSize = ta.heapSize := by
  simp only [runWasm, Ta.firstSteps]
  repeat' split
  all_goals first | rfl | exact processHostcallFlow_heapSize ..

theorem resumeWasm_heapSize (ta : Ta σ) (p : Params) (env : Env) :
    (resumeWasm ta p env).ta.heapSize = ta.heapSize := by
  simp only [resumeWasm]
  repeat' split
  all_goals first | rfl | exact processHostcallFlow_heapSize ..

theorem openSession_heapSize (ta : Ta σ) (types : List ParamType) (mallocOk : Bool) :
    (openSessionEntryPoint ta types mallocOk).2.heapSize = ta.heapSize := by
  unfold openSessionEntryPoint
  repeat' split
  all_goals rfl

/-- Only CONFIGURE_HEAP sets it. -/
theorem enter_heapSize (load : Loader σ) (ta : Ta σ) (c : HostCall) :
    (ta.enter load c).2.heapSize = ta.heapSize ∨
      c.configures = some (ta.enter load c).2.heapSize := by
  cases c with
  | openSession types mallocOk => exact .inl (openSession_heapSize ta types mallocOk)
  | unknownCommand => exact .inl rfl
  | invokeCommand c =>
    obtain ⟨cmd, p, env⟩ := c
    rcases invoke_cases load ta cmd p env with ⟨res, -, hinv⟩ | ⟨-, ht, hinv⟩
    · left
      simp only [Ta.enter, hinv]
    · simp only [Ta.enter, hinv]
      cases cmd with
      | runWasm => exact .inl (runWasm_heapSize load ta p env)
      | resumeWasm => exact .inl (resumeWasm_heapSize ta p env)
      | configureHeap => exact .inr (if_pos ht)

/-! ## One call -/

/-- With a module to run or to resume there is a session. -/
theorem sess_of_life (h : ta.life = .idle ∨ ta.life = .live) : ta.sess.isSome = true := by
  cases hs : ta.sess with
  | some s => rfl
  | none =>
    rw [life_of_none hs] at h
    rcases h with h | h <;> cases h

/-- **Buffers cost a heap.** -/
theorem heapSize_le_allocates (hlife : ta.life = .idle ∨ ta.life = .live)
    (hb : (c.event load).buffered = true) : ta.heapSize.toNat ≤ ta.allocates c := by
  cases c with
  | openSession types mallocOk =>
    simp only [HostCall.event] at hb
    split at hb <;> cases hb
  | unknownCommand => cases hb
  | invokeCommand c =>
    obtain ⟨cmd, p, env⟩ := c
    by_cases ht : p.types = cmd.paramTypes
    · cases cmd with
      | configureHeap | resumeWasm =>
        rw [HostCall.event, if_neg (not_not.2 ht)] at hb
        cases hb
      | runWasm =>
        rw [event_runWasm load ht] at hb
        split at hb
        · cases hb
        next halloc =>
        rw [not_or, Bool.not_eq_false, Bool.not_eq_false] at halloc
        rw [Ta.allocates, if_pos ⟨sess_of_life hlife, ht⟩, if_pos halloc.1]
        exact Nat.le_add_right _ _
    · have hevent : HostCall.event load (.invokeCommand ⟨cmd, p, env⟩) = .malformed := if_pos ht
      rw [hevent] at hb
      cases hb

/-- **An instance with a large heap**, behind calls that have taken so
much memory and of which so many have got their buffers. -/
structure Driven (ta : Ta σ) (spent buffered : ℕ) : Prop where
  heap : taDataSize < 2 * ta.heapSize.toNat
  inOrder : ta.InOrder
  life : ta.life = .idle ∨ ta.life = .live
  first : buffered = 0 → ta.life = .idle
  only : buffered = 0 ∨ buffered = 1 ∧ taDataSize < 2 * spent

/-- A call keeps the heap large. -/
def HostCall.LargeHeap (c : HostCall) : Prop :=
  ∀ size, c.configures = some size → taDataSize < 2 * size.toNat

/-- Its runtime has an instance. -/
theorem Driven.not_dangling {spent buffered : ℕ} (h : Driven ta spent buffered) :
    ¬ ta.Dangling := by
  intro hd
  have hlife := h.life
  rw [life_of_dangling hd] at hlife
  rcases hlife with hl | hl <;> cases hl

/-- So no call hands WAMR a NULL. -/
theorem Driven.safe {spent buffered : ℕ} (h : Driven ta spent buffered)
    (hc : c.Contained load ta) : c.Safe load ta := by
  refine ⟨hc, fun hn => ?_⟩
  cases c with
  | openSession types mallocOk => exact hn
  | unknownCommand => exact hn
  | invokeCommand c => exact h.not_dangling hn.2.2

/-- **Every call keeps it**, within the memory there is. -/
theorem Driven.enter {spent buffered : ℕ} (h : Driven ta spent buffered) (load : Loader σ)
    (hsafe : c.Contained load ta) (hc : c.LargeHeap) (hmem : spent + ta.allocates c ≤ taDataSize) :
    Driven (ta.enter load c).2 (spent + ta.allocates c)
      (buffered + if (c.event load).buffered then 1 else 0) := by
  have hheap : taDataSize < 2 * (ta.enter load c).2.heapSize.toNat := by
    rcases enter_heapSize load ta c with he | he
    · rw [he]
      exact h.heap
    · exact hc _ he
  obtain ⟨hin, hnext, -⟩ := kept load h.inOrder (h.safe hsafe)
  cases hb : (c.event load).buffered with
  | false =>
    have hsame : (ta.enter load c).2.life = ta.life := by
      rw [hnext]
      generalize c.event load = e at hb
      rcases h.life with hl | hl <;> rw [hl] <;> revert e <;> decide
    refine ⟨hheap, hin, hsame ▸ h.life, fun h0 => hsame ▸ h.first h0, ?_⟩
    rcases h.only with h0 | ⟨h1, hlt⟩
    · exact .inl h0
    · exact .inr ⟨h1, by omega⟩
  | true =>
    have hcost := heapSize_le_allocates h.life hb
    have hbig := h.heap
    rcases h.only with h0 | ⟨-, hlt⟩
    · refine ⟨hheap, hin, ?_, fun h1 => absurd h1 (by rw [if_pos rfl]; omega), .inr ⟨?_, by omega⟩⟩
      · rw [hnext, h.first h0]
        generalize c.event load = e at hb
        revert e
        decide
      · rw [h0, if_pos rfl]
    · -- two heaps do not fit
      omega

/-! ## Runs -/

/-- The buffers handed out in a run. -/
def buffers (load : Loader σ) (calls : List HostCall) : ℕ :=
  calls.countP fun c => (c.event load).buffered

theorem buffers_concat (load : Loader σ) (calls : List HostCall) (c : HostCall) :
    buffers load (calls ++ [c]) =
      buffers load calls + if (c.event load).buffered then 1 else 0 := by
  rw [buffers, List.countP_append, List.countP_singleton]
  rfl

theorem driven_of_run (load : Loader σ) (calls : List HostCall)
    (hm : Along (Ta.enter load) (fun ta c => c.Contained load ta) initializeSession calls)
    (hc : ∀ c ∈ calls, c.LargeHeap)
    (hmem : totalCost (Ta.enter load) Ta.allocates initializeSession calls ≤ taDataSize) :
    Driven (runMachine (Ta.enter load) initializeSession calls).2
      (totalCost (Ta.enter load) Ta.allocates initializeSession calls) (buffers load calls) := by
  induction calls using List.reverseRecOn with
  | nil =>
    have hheap : taDataSize < 2 * proxyHeap.toNat := by decide
    refine ⟨hheap, ⟨rfl, fun inst hi => ?_⟩, .inl rfl, fun _ => rfl, .inl rfl⟩
    cases hi
  | append_singleton calls c ih =>
    obtain ⟨hm, hlast⟩ := along_append.1 hm
    rw [totalCost_append] at hmem ⊢
    rw [runMachine_append, buffers_concat]
    exact (ih hm (fun c' hc' => hc c' (List.mem_append_left _ hc')) (by omega)).enter load hlast.1
      (hc c (List.mem_append_right _ (List.mem_singleton_self c))) hmem

/-- **A driven instance gives its buffers out once.** For every loader and
every sequence of calls into a session of the proxy that keep to their
memory, whichever of its calls share it: where no CONFIGURE_HEAP asks for
half of the instance's memory or less, and the allocations that succeed
fit into it, at most one RUN_WASM gets its buffers; `sc->runtime` never
points to a context without a module instance; and every RUN_WASM behind
the one that got them is answered OUT_OF_MEMORY and executes no step. -/
theorem driven_instance_buffers_once (load : Loader σ) (calls : List HostCall)
    (hm : Along (Ta.enter load) (fun ta c => c.Contained load ta) initializeSession calls)
    (hc : ∀ c ∈ calls, c.LargeHeap)
    (hmem : totalCost (Ta.enter load) Ta.allocates initializeSession calls ≤ taDataSize) :
    buffers load calls ≤ 1 ∧
      ¬ (runMachine (Ta.enter load) initializeSession calls).2.Dangling ∧
      ∀ before p env behind, calls = before ++ .invokeCommand ⟨.runWasm, p, env⟩ :: behind →
        p.types = Command.runWasm.paramTypes → 0 < buffers load before →
        ((runMachine (Ta.enter load) initializeSession before).2.enter load
          (.invokeCommand ⟨.runWasm, p, env⟩)).1 = (.outOfMemory, []) := by
  have hdriven := driven_of_run load calls hm hc hmem
  refine ⟨?_, hdriven.not_dangling, fun before p env behind hcalls ht hpos => ?_⟩
  · rcases hdriven.only with h | ⟨h, -⟩ <;> omega
  subst hcalls
  rw [totalCost_append, totalCost] at hmem
  obtain ⟨hm, hrun, -⟩ := along_append.1 hm
  have hbefore := driven_of_run load before hm
    (fun c' hc' => hc c' (List.mem_append_left _ hc')) (by omega)
  have hanswer := (kept load hbefore.inOrder (hbefore.safe hrun)).answer
  have hexhausted : HostCall.event load (.invokeCommand ⟨.runWasm, p, env⟩) = .exhausted := by
    have hnot : ¬ (HostCall.event load (.invokeCommand ⟨.runWasm, p, env⟩)).buffered = true := by
      intro hb
      have hcost := heapSize_le_allocates hbefore.life hb
      have hbig := hbefore.heap
      rcases hbefore.only with h | ⟨-, hlt⟩ <;> omega
    rw [event_runWasm load ht] at hnot ⊢
    split
    · rfl
    next halloc =>
    rw [if_neg halloc] at hnot
    split at hnot <;> exact absurd rfl hnot
  rw [hexhausted] at hanswer
  rcases hbefore.life with hl | hl
  all_goals
    rw [hl] at hanswer
    exact List.mem_singleton.1 hanswer

/-- The second call that shares the session finds no memory for its
heap. -/
def exhaustedRun : HostCall :=
  .invokeCommand ⟨.runWasm, runWith smallestWasm wholeBuffer, { Env.ok with heapMalloc := false }⟩

def sharedSession : List HostCall :=
  [.invokeCommand ⟨.runWasm, runWith smallestWasm wholeBuffer, Env.ok⟩, exhaustedRun,
    .invokeCommand ⟨.resumeWasm, resumeWith wholeBuffer, Env.ok⟩]

/-- It is turned down, and the RESUME_WASM behind it, whichever call it is
of, finds the first one's module. -/
theorem driven_instance_buffers_once_shared :
    ¬ (runMachine (Ta.enter onlySmallest) initializeSession sharedSession).2.Dangling ∧
      ((runMachine (Ta.enter onlySmallest) initializeSession (sharedSession.take 1)).2.enter
        onlySmallest exhaustedRun).1 = (.outOfMemory, []) := by
  have hm : Along (Ta.enter onlySmallest) (fun ta c => c.Contained onlySmallest ta)
      initializeSession sharedSession :=
    ⟨contained_of_whole rfl (by decide +kernel), contained_of_whole rfl (by decide +kernel),
      contained_of_whole rfl (by decide +kernel), trivial⟩
  have hc : ∀ c ∈ sharedSession, c.LargeHeap := by
    intro c hc size hsize
    simp only [sharedSession, exhaustedRun, List.mem_cons, List.not_mem_nil, or_false] at hc
    rcases hc with rfl | rfl | rfl <;> cases hsize
  have hmem : totalCost (Ta.enter onlySmallest) Ta.allocates initializeSession sharedSession ≤
      taDataSize := by
    decide +kernel
  obtain ⟨-, hinst, hlater⟩ := driven_instance_buffers_once _ sharedSession hm hc hmem
  exact ⟨hinst, hlater (sharedSession.take 1) _ _ _ rfl rfl (by decide)⟩

end TeeChaincode
