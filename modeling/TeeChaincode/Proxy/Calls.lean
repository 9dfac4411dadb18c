import Mathlib.Data.List.Induction
import TeeChaincode.Common.Run
import TeeChaincode.Model.Proxy
import TeeChaincode.Ta.Commands

/-!
# One call of the proxy, from start to end

A call of `TransactionInvocation` is fed the inputs its outside calls
bring back, one after the other, and `sent` collects what it writes to
its client. Up to its RUN_WASM a call leaves the TEE alone, and behind
`restart_session` it leaves a fresh session; what it does in between
depends on the TA only, not on the record of the steps executed. So calls
made one after another start alike, whatever became of the earlier ones.
-/

namespace TeeChaincode

open Common

/-! ## Calls -/

/-- A call in progress: the point it has reached, what it has sent its
client, and the TEE. -/
structure Call (τ : Type) where
  handler : Handler
  sent : List ProxyMessage
  tee : τ

namespace Call

variable {τ ε : Type} {T : Tee τ ε} {c c' : Call τ}

/-- A call as it arrives. -/
def start (t : τ) : Call τ := ⟨.readRequest, [], t⟩

/-- What can be seen of a call from outside the TEE. -/
def visible (c : Call τ) : Handler × List ProxyMessage := (c.handler, c.sent)

/-- One step of a call. -/
def feed (T : Tee τ ε) (c : Call τ) (i : Input ε) : Option (Call τ) :=
  (handlerStep T c.tee c.handler i).map fun r =>
    ⟨r.1, c.sent ++ (sentBy c.handler i).toList, r.2⟩

/-- The call behind a list of inputs. `none` where one of them does not
answer the call's outside call. -/
def run (T : Tee τ ε) (c : Call τ) (is : List (Input ε)) : Option (Call τ) := is.foldlM (feed T) c

theorem run_append (c : Call τ) (is : List (Input ε)) (i : Input ε) :
    c.run T (is ++ [i]) = (c.run T is).bind fun c' => c'.feed T i := by
  simp only [run, List.foldlM_append, List.foldlM_cons, List.foldlM_nil, Option.bind_eq_bind]
  congr 1
  funext c'
  cases c'.feed T i <;> rfl

/-- **A run keeps what every step keeps.** -/
theorem run_induct {I : List (Input ε) → Call τ → Prop} (h₀ : I [] c)
    (hstep : ∀ is i c₁ c₂, I is c₁ → c₁.feed T i = some c₂ → I (is ++ [i]) c₂)
    {is : List (Input ε)} (h : c.run T is = some c') : I is c' := by
  induction is using List.reverseRecOn generalizing c' with
  | nil =>
    obtain rfl : c = c' := by simpa [run] using h
    exact h₀
  | append_singleton is i ih =>
    rw [run_append, Option.bind_eq_some_iff] at h
    obtain ⟨c₁, h₁, h₂⟩ := h
    exact hstep is i c₁ c' (ih h₁) h₂

/-- What a step of a call comes from. -/
theorem feed_eq_some {i : Input ε} (h : c.feed T i = some c') :
    handlerStep T c.tee c.handler i = some (c'.handler, c'.tee) ∧
      c'.sent = c.sent ++ (sentBy c.handler i).toList := by
  rw [feed, Option.map_eq_some_iff] at h
  obtain ⟨⟨h', t'⟩, hs, rfl⟩ := h
  exact ⟨hs, rfl⟩

theorem run_cons (c : Call τ) (i : Input ε) (is : List (Input ε)) :
    c.run T (i :: is) = (c.feed T i).bind fun c' => c'.run T is :=
  List.foldlM_cons

/-- What a step of a call can be, with the TEE and the messages sent
before it. -/
inductive Move (T : Tee τ ε) (t : τ) (sent : List ProxyMessage) :
    Handler → Input ε → Call τ → Prop
  | requestLost :
      Move T t sent .readRequest (.read none)
        ⟨.finished (.unknown (ascii "Failed to read invocation request")), sent, t⟩
  | gotRequest (m : WrapperMessage) :
      Move T t sent .readRequest (.read (some m)) ⟨.openFile m.getInvocationRequest, sent, t⟩
  | noFile (req : InvocationRequest) :
      Move T t sent (.openFile req) (.file none) ⟨.restart false, sent, t⟩
  | file (req : InvocationRequest) (wasm : Bytes) :
      Move T t sent (.openFile req) (.file (some wasm))
        ⟨.run wasm (packArguments req.functionName req.arguments), sent, t⟩
  | runLost (wasm buf : Bytes) :
      Move T t sent (.run wasm buf) (.tee none) ⟨.restart false, sent, t⟩
  | ran (wasm buf : Bytes) (env : ε) :
      Move T t sent (.run wasm buf) (.tee (some env))
        ⟨dispatchReply (T.run t env wasm buf).1, sent, (T.run t env wasm buf).2⟩
  | wroteResponse (m : ProxyMessage) :
      Move T t sent (.writeResponse m) (.write true) ⟨.restart true, sent ++ [m], t⟩
  | responseLost (m : ProxyMessage) :
      Move T t sent (.writeResponse m) (.write false) ⟨.restart false, sent, t⟩
  | wroteRequest (kind : RequestKind) (m : ProxyMessage) :
      Move T t sent (.writeRequest kind m) (.write true) ⟨.readReply kind, sent ++ [m], t⟩
  | writeLost (kind : RequestKind) (m : ProxyMessage) :
      Move T t sent (.writeRequest kind m) (.write false) ⟨.restart false, sent, t⟩
  | gotReply (kind : RequestKind) (m : WrapperMessage) :
      Move T t sent (.readReply kind) (.read (some m)) ⟨.resume (writeReply kind m), sent, t⟩
  | replyLost (kind : RequestKind) :
      Move T t sent (.readReply kind) (.read none) ⟨.restart false, sent, t⟩
  | resumed (buf : Bytes) (env : ε) :
      Move T t sent (.resume buf) (.tee (some env))
        ⟨dispatchReply (T.resume t env buf).1, sent, (T.resume t env buf).2⟩
  | resumeLost (buf : Bytes) :
      Move T t sent (.resume buf) (.tee none) ⟨.restart false, sent, t⟩
  | restarted (ok : Bool) :
      Move T t sent (.restart ok) .restarted ⟨.finished (finalStatus ok), sent, T.restart t⟩

/-- **A call does nothing else.** -/
theorem feed_cases {i : Input ε} (h : c.feed T i = some c') :
    Move T c.tee c.sent c.handler i c' := by
  obtain ⟨hd, sent, t⟩ := c
  unfold feed handlerStep at h
  dsimp only at h ⊢
  split at h
  case h_7 m ok =>
    cases h
    cases ok with
    | true => exact .wroteResponse m
    | false =>
      simp only [sentBy, Option.toList_none, List.append_nil]
      exact .responseLost m
  case h_15 => cases h
  all_goals
    cases h
    simp only [sentBy, Option.toList_none, Option.toList_some, List.append_nil]
    constructor

section Succeeds

variable (sent : List ProxyMessage) (t : τ)

/-! The steps in which a call of the proxy succeeds. -/

theorem feed_readRequest (m : WrapperMessage) :
    (⟨.readRequest, sent, t⟩ : Call τ).feed T (.read (some m)) =
      some ⟨.openFile m.getInvocationRequest, sent, t⟩ := by
  simp [feed, handlerStep, sentBy]

theorem feed_openFile (req : InvocationRequest) (wasm : Bytes) :
    (⟨.openFile req, sent, t⟩ : Call τ).feed T (.file (some wasm)) =
      some ⟨.run wasm (packArguments req.functionName req.arguments), sent, t⟩ := by
  simp [feed, handlerStep, sentBy]

theorem feed_run (wasm buf : Bytes) (env : ε) :
    (⟨.run wasm buf, sent, t⟩ : Call τ).feed T (.tee (some env)) =
      some ⟨dispatchReply (T.run t env wasm buf).1, sent, (T.run t env wasm buf).2⟩ := by
  simp [feed, handlerStep, sentBy]

theorem feed_writeRequest (kind : RequestKind) (m : ProxyMessage) :
    (⟨.writeRequest kind m, sent, t⟩ : Call τ).feed T (.write true) =
      some ⟨.readReply kind, sent ++ [m], t⟩ := by
  simp [feed, handlerStep, sentBy]

theorem feed_readReply (kind : RequestKind) (m : WrapperMessage) :
    (⟨.readReply kind, sent, t⟩ : Call τ).feed T (.read (some m)) =
      some ⟨.resume (writeReply kind m), sent, t⟩ := by
  simp [feed, handlerStep, sentBy]

theorem feed_resume (buf : Bytes) (env : ε) :
    (⟨.resume buf, sent, t⟩ : Call τ).feed T (.tee (some env)) =
      some ⟨dispatchReply (T.resume t env buf).1, sent, (T.resume t env buf).2⟩ := by
  simp [feed, handlerStep, sentBy]

end Succeeds

/-- A call that has not returned goes on. -/
theorem exists_feed (hne : ∀ st, c.handler ≠ .finished st) (env : ε) :
    ∃ i, i ∈ [.read (some .unset), .file (some []), .tee (some env), .write true, .restarted] ∧
      ∃ c', c.feed T i = some c' := by
  obtain ⟨hd, sent, t⟩ := c
  cases hd with
  | readRequest => exact ⟨.read (some .unset), by simp, _, rfl⟩
  | openFile req => exact ⟨.file (some []), by simp, _, rfl⟩
  | run wasm buf => exact ⟨.tee (some env), by simp, _, rfl⟩
  | writeResponse m => exact ⟨.write true, by simp, _, rfl⟩
  | writeRequest kind m => exact ⟨.write true, by simp, _, rfl⟩
  | readReply kind => exact ⟨.read (some .unset), by simp, _, rfl⟩
  | resume buf => exact ⟨.tee (some env), by simp, _, rfl⟩
  | restart ok => exact ⟨.restarted, by simp, _, rfl⟩
  | finished st => exact absurd rfl (hne st)

end Call

/-! ## Where a handler touches the TEE -/

/-- How far a handler has come. -/
inductive Stage
  /-- It has not come to its RUN_WASM. -/
  | arriving
  /-- It is in the proxy loop. -/
  | serving
  /-- It restarts the session. -/
  | leaving
  /-- It has returned. -/
  | returned
deriving DecidableEq, Repr

def Handler.stage : Handler → Stage
  | .readRequest | .openFile _ | .run _ _ => .arriving
  | .writeResponse _ | .writeRequest _ _ | .readReply _ | .resume _ => .serving
  | .restart _ => .leaving
  | .finished _ => .returned

section Steps

variable {τ ε : Type} {T : Tee τ ε} {t t' : τ} {h h' : Handler} {i : Input ε}

/-- The handlers inside the loop, and those that leave it. -/
def Handler.Waits : Handler → Prop
  | .writeRequest _ _ | .readReply _ | .resume _ => True
  | _ => False

def Handler.Leaves : Handler → Prop
  | .writeResponse _ | .restart _ | .finished _ => True
  | _ => False

/-- The loop goes on with a write, or the call is over. -/
theorem dispatchReply_stage (r : TeeReply) :
    (dispatchReply r).stage = .serving ∨ dispatchReply r = .restart false := by
  unfold dispatchReply
  split
  · exact .inr rfl
  split
  · exact .inl rfl
  split
  · exact .inl rfl
  split
  · exact .inl rfl
  · exact .inr rfl

/-- A step that leaves the TEE alone: it goes the same way on every TEE,
and a handler does not come to its RUN_WASM or into the loop by it. -/
structure LocalStep (T : Tee τ ε) (h : Handler) (i : Input ε) (h' : Handler) : Prop where
  same : ∀ u, handlerStep T u h i = some (h', u)
  not_tee : ∀ env, i ≠ .tee (some env)
  from_arriving : h'.stage = .arriving → h.stage = .arriving
  from_serving : h'.stage = .serving → h.stage = .serving
  from_returned : h'.stage = .returned → h.stage = .arriving
  goes_on : h.stage = .arriving ∨ h.stage = .serving

/-- **What a step of a handler can be**: a command of the TA, the restart
of the session, or a step that leaves the TEE alone. -/
theorem handlerStep_cases (hs : handlerStep T t h i = some (h', t')) :
    (∃ wasm buf env, h = .run wasm buf ∧ i = .tee (some env) ∧
      h' = dispatchReply (T.run t env wasm buf).1 ∧ t' = (T.run t env wasm buf).2) ∨
    (∃ buf env, h = .resume buf ∧ i = .tee (some env) ∧
      h' = dispatchReply (T.resume t env buf).1 ∧ t' = (T.resume t env buf).2) ∨
    (∃ ok, h = .restart ok ∧ i = .restarted ∧ h' = .finished (finalStatus ok) ∧
      t' = T.restart t) ∨
    (t' = t ∧ LocalStep T h i h') := by
  unfold handlerStep at hs
  split at hs
  case h_6 =>
    obtain ⟨rfl, rfl⟩ := hs
    exact .inl ⟨_, _, _, rfl, rfl, rfl, rfl⟩
  case h_13 =>
    obtain ⟨rfl, rfl⟩ := hs
    exact .inr (.inl ⟨_, _, rfl, rfl, rfl, rfl⟩)
  case h_14 =>
    obtain ⟨rfl, rfl⟩ := hs
    exact .inr (.inr (.inl ⟨_, rfl, rfl, rfl, rfl⟩))
  case h_15 => cases hs
  all_goals
    obtain ⟨rfl, rfl⟩ := hs
    refine .inr (.inr (.inr ⟨rfl, fun u => rfl, ?_, ?_, ?_, ?_, ?_⟩)) <;>
      simp [Handler.stage]

end Steps

/-! ## Calls on the trusted application -/

section TrustedApplication

variable {σ : Type} {load : Loader σ}

/-- What of a call later steps depend on: the record of the steps
executed is left out. -/
def Call.state (c : Call (TaRun σ)) : Handler × List ProxyMessage × Ta σ :=
  (c.handler, c.sent, c.tee.ta)

/-- A step depends on the state and leads to it. -/
theorem Call.feed_congr (load : Loader σ) {c d : Call (TaRun σ)} (h : c.state = d.state)
    (i : Input Env) :
    (c.feed (taTee load) i).map Call.state = (d.feed (taTee load) i).map Call.state := by
  obtain ⟨hd, sent, ⟨ta, steps⟩⟩ := c
  obtain ⟨hd', sent', ⟨ta', steps'⟩⟩ := d
  simp only [state, Prod.mk.injEq] at h
  obtain ⟨rfl, rfl, rfl⟩ := h
  unfold feed handlerStep
  dsimp only
  split <;> rfl

/-- **Calls that start alike go on alike.** -/
theorem Call.run_congr (load : Loader σ) {c d : Call (TaRun σ)} (h : c.state = d.state)
    (is : List (Input Env)) :
    (c.run (taTee load) is).map Call.state = (d.run (taTee load) is).map Call.state := by
  induction is using List.reverseRecOn with
  | nil => simpa [run] using h
  | append_singleton is i ih =>
    rw [run_append, run_append]
    cases hc : c.run (taTee load) is with
    | none =>
      rw [hc, Option.map_none, eq_comm, Option.map_eq_none_iff] at ih
      rw [ih]
    | some c' =>
      rw [hc, Option.map_some, eq_comm, Option.map_eq_some_iff] at ih
      obtain ⟨d', hd, hst⟩ := ih
      rw [hd]
      exact feed_congr load hst.symm i

/-- A list of inputs by which RUN_WASM has reached the TA. -/
def Launched (is : List (Input Env)) : Prop := ∃ env, .tee (some env) ∈ is

/-- What holds of a call that started on a fresh session: it leaves the
session alone up to its RUN_WASM, is in the loop only behind it, and has
put a fresh session in place when it returns. -/
structure Alone (is : List (Input Env)) (c : Call (TaRun σ)) : Prop where
  arriving : c.handler.stage = .arriving → ¬ Launched is ∧ c.tee.ta = initializeSession
  serving : c.handler.stage = .serving → Launched is
  returned : c.handler.stage = .returned → c.tee.ta = initializeSession

theorem launched_append {is : List (Input Env)} {i : Input Env} (hi : ∀ env, i ≠ .tee (some env)) :
    Launched (is ++ [i]) ↔ Launched is := by
  constructor
  · rintro ⟨env, he⟩
    rcases List.mem_append.1 he with h | h
    · exact ⟨env, h⟩
    · exact absurd (List.mem_singleton.1 h).symm (hi env)
  · rintro ⟨env, he⟩
    exact ⟨env, List.mem_append_left _ he⟩

theorem launched_of_tee (is : List (Input Env)) (env : Env) :
    Launched (is ++ [.tee (some env)]) :=
  ⟨env, List.mem_append_right _ (List.mem_singleton.2 rfl)⟩

/-- A command of the TA leads into the loop or out of it. -/
theorem Alone.of_tee (is : List (Input Env)) (env : Env) {c : Call (TaRun σ)} {r : TeeReply}
    (hc : c.handler = dispatchReply r) : Alone (is ++ [.tee (some env)]) c := by
  have hst : c.handler.stage = .serving ∨ c.handler.stage = .leaving := by
    rw [hc]
    exact (dispatchReply_stage r).imp_right fun h => by rw [h]; rfl
  refine ⟨fun ha => ?_, fun _ => launched_of_tee is env, fun hr => ?_⟩
  · rcases hst with h | h <;> simp [h] at ha
  · rcases hst with h | h <;> simp [h] at hr

/-- **A step of a call keeps it so.** -/
theorem Alone.feed {is : List (Input Env)} {i : Input Env} {c c' : Call (TaRun σ)}
    (h : Alone is c) (hf : c.feed (taTee load) i = some c') : Alone (is ++ [i]) c' := by
  obtain ⟨hs, -⟩ := Call.feed_eq_some hf
  rcases handlerStep_cases hs with ⟨wasm, buf, env, -, rfl, hh, -⟩ | ⟨buf, env, -, rfl, hh, -⟩ |
    ⟨ok, -, rfl, hh, ht⟩ | ⟨ht, hl⟩
  · exact Alone.of_tee is env hh
  · exact Alone.of_tee is env hh
  · have hst : c'.handler.stage = .returned := by rw [hh]; rfl
    refine ⟨fun ha => ?_, fun hv => ?_, fun _ => by rw [ht]; rfl⟩
    · simp [hst] at ha
    · simp [hst] at hv
  · have hla : Launched (is ++ [i]) ↔ Launched is := launched_append hl.not_tee
    refine ⟨fun ha => ?_, fun hv => ?_, fun hr => ?_⟩
    · rw [hla, ht]
      exact h.arriving (hl.from_arriving ha)
    · rw [hla]
      exact h.serving (hl.from_serving hv)
    · rw [ht]
      exact (h.arriving (hl.from_returned hr)).2

/-- A call that starts on a fresh session. -/
theorem alone_of_run {t : TaRun σ} (ht : t.ta = initializeSession) {is : List (Input Env)}
    {c : Call (TaRun σ)} (h : (Call.start t).run (taTee load) is = some c) : Alone is c := by
  have h₀ : Alone [] (Call.start t) := by
    refine ⟨fun _ => ⟨?_, ht⟩, fun hs => ?_, fun _ => ht⟩
    · rintro ⟨env, he⟩
      exact absurd he List.not_mem_nil
    · simp [Call.start, Handler.stage] at hs
  exact Call.run_induct h₀ (fun is i c₁ c₂ h₁ hf => h₁.feed hf) h

/-! ## One call after another -/

/-- A call that is made on one TEE and has returned on another, having
failed at any point or not. -/
def Completes (load : Loader σ) (t t' : TaRun σ) : Prop :=
  ∃ is sent status,
    (Call.start t).run (taTee load) is = some ⟨.finished status, sent, t'⟩

/-- **Calls made one after another do not influence each other.** Behind
every history of completed calls the session is the initial one, and the
next call, on whatever its outside calls bring back, reaches the same
point having sent the same messages as on a session no call was made
on. -/
theorem sequential_calls_independent (load : Loader σ) {t : TaRun σ}
    (h : Relation.ReflTransGen (Completes load) freshRun t) :
    t.ta = ⟨10 * 1024 * 1024, some Session.zero, WamrContext.zero, false⟩ ∧
      ∀ is, ((Call.start t).run (taTee load) is).map Call.visible =
        ((Call.start freshRun).run (taTee load) is).map Call.visible := by
  have hstep : ∀ u u' : TaRun σ, u.ta = initializeSession → Completes load u u' →
      u'.ta = initializeSession := by
    rintro u u' hu ⟨is, sent, status, hrun⟩
    exact (alone_of_run hu hrun).returned rfl
  have ht : t.ta = initializeSession :=
    invariant_of_step (I := fun u : TaRun σ => u.ta = initializeSession) hstep h rfl
  refine ⟨ht, fun is => ?_⟩
  have hc := Call.run_congr load (c := Call.start t)
    (d := Call.start freshRun) (by simp [Call.state, Call.start, ht]) is
  have hv := congrArg (Option.map fun x : Handler × List ProxyMessage × Ta σ => (x.1, x.2.1)) hc
  simp only [Option.map_map] at hv
  exact hv

/-- Behind a call that executed two steps of its module and could not
send the answer. -/
theorem sequential_calls_independent_lostAnswer :
    ∃ t : TaRun ℕ, t.steps.length = 2 ∧
      Completes (fun _ => some (scripted [] fun _ => ⟨[], none⟩)) freshRun t ∧
      ∀ is, ((Call.start t).run (taTee fun _ => some (scripted [] fun _ => ⟨[], none⟩)) is).map
          Call.visible =
        ((Call.start freshRun).run
          (taTee fun _ => some (scripted [] fun _ => ⟨[], none⟩)) is).map Call.visible := by
  have hc : Completes (fun _ => some (scripted [] fun _ => ⟨[], none⟩)) freshRun
      ⟨initializeSession, [⟨.stepInit, .returned, []⟩, ⟨.stepResume, .returned, []⟩]⟩ :=
    ⟨[.read (some .unset), .file (some smallestWasm), .tee (some Env.ok), .write false, .restarted],
      [], finalStatus false, rfl⟩
  exact ⟨_, rfl, hc, (sequential_calls_independent _ (.single hc)).2⟩

end TrustedApplication

end TeeChaincode
