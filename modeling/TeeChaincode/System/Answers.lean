import TeeChaincode.Proxy.Calls
import TeeChaincode.System.Moves
import TeeChaincode.Ta.Executed

/-!
# What a success says

Every exit of wrapper and proxy that fails ends in an error of `invoke`:
whatever fails on the way, no response is sent. It is the TA that can turn
a failure into an answer. A `step_resume` that traps is answered with
RUNTIME_ERROR and TEE_SUCCESS, an exception taken for an intended one is
ignored, and an invocation without a response, or with an empty one, is
answered with a text of its own. Where none of that happens in a run, a
success carries the message the module passed to `cc_return_response`, and
no step of the run failed.
-/

namespace TeeChaincode

open Common

variable {σ : Type} {load : Loader σ} {files : Bytes → Option Bytes}

/-! ## Commands that hide nothing -/

/-- The last message a list of steps passed to `cc_return_response`. -/
def lastMessage (steps : List (StepTrace σ)) : Option Bytes := (messages (callsOf steps)).getLast?

theorem lastMessage_append (steps new : List (StepTrace σ)) :
    lastMessage (steps ++ new) = (messages (callsOf new)).getLast?.or (lastMessage steps) := by
  simp only [lastMessage, messages, callsOf, List.flatMap_append, List.filterMap_append,
    List.getLast?_append]

/-- The steps of a command that hide nothing, behind the earlier steps of
their invocation: a `step_resume` returns, a `step_init` returns or is
reported, and the invocation does not end without a message. -/
structure Faithful (steps new : List (StepTrace σ)) : Prop where
  returned : ∀ tr ∈ new, tr.ended = .returned ∨ tr.name = .stepInit ∧ tr.ended.ok = false
  measured : ∀ c ∈ callsOf new, c.1.Measured
  answers : (∃ tr ∈ new, tr.name = .stepResume) → (∀ c ∈ callsOf new, ¬ c.1.Asks) →
    ∃ x, x ≠ [] ∧ lastMessage (steps ++ new) = some x

theorem faithful_nil (steps : List (StepTrace σ)) : Faithful steps [] :=
  ⟨nofun, by simp [callsOf], fun ⟨_, h, _⟩ => absurd h List.not_mem_nil⟩

/-- **A command that hides nothing and is answered** has had only steps
that returned; the message on record is the last one passed on, and a
final answer is that message. -/
theorem Executed.honest {s₀ : Session} {p : Params} {r : Reply σ} {steps : List (StepTrace σ)}
    (h : Executed s₀ p r) (hs₀ : s₀.message = lastMessage steps) (hf : Faithful steps r.steps)
    (hres : r.result = .success) :
    (∀ tr ∈ r.steps, tr.ended = .returned) ∧
    (∃ s, r.ta.sess = some s ∧ s.message = lastMessage (steps ++ r.steps)) ∧
    ∃ a : Ask, dispatchReply r.tee = a.handler ∧
      ∀ x, a = .answer x → lastMessage (steps ++ r.steps) = some x := by
  cases h with
  | failed hne _ => exact absurd hres hne
  | answered init last _ hsteps hinit hlast hret hsess hparams =>
    have hreturned : ∀ tr ∈ r.steps, tr.ended = .returned := by
      intro tr htr
      rcases hf.returned tr htr with hr | ⟨hname, hfail⟩
      · exact hr
      · -- a failed `step_init` is not answered
        rw [hsteps, List.mem_append, List.mem_singleton] at htr
        rcases htr with hi | rfl
        · rw [(hinit tr hi).2] at hfail
          cases hfail
        · rw [hlast] at hname
          cases hname
    have hex : Executed s₀ p r := .answered init last hres hsteps hinit hlast hret hsess hparams
    have hun := hex.unraised hres hreturned
    obtain ⟨s', hs', rfl, hmsg, hparams'⟩ := hex.record hres hreturned
    rw [hs₀, ← lastMessage_append] at hmsg
    refine ⟨hreturned, ⟨_, hs', hmsg⟩, _,
      dispatchReply_of_params hres hparams' (asked_fits _), fun x hx => ?_⟩
    -- a final answer: nothing was asked for, so there is a message
    have hnone : (s₀.after (callsOf r.steps)).pendingType = .none := by
      by_contra hp
      unfold asked at hx
      cases hpt : (s₀.after (callsOf r.steps)).pendingType <;> simp_all
    have hmute : ∀ c ∈ callsOf r.steps, ¬ c.1.Asks := by
      intro c hc hask
      exact pending_after hun hf.measured (.inl ⟨c, hc, hask⟩) hnone
    obtain ⟨y, hy, hly⟩ := hf.answers ⟨last, by rw [hsteps]; simp, hlast⟩ hmute
    rw [asked_of_none hnone, hmsg, hly] at hx
    simp only [if_neg hy, Ask.answer.injEq] at hx
    rw [hly, hx]

/-! ## The invariant of a run -/

/-- A handler that ends in an error. -/
def Handler.Failed (h : Handler) : Prop :=
  h = .restart false ∨ ∃ m, h = .finished (.unknown m)

/-- A handler that has sent the final response. -/
def Handler.Responded (h : Handler) : Prop := h = .restart true ∨ h = .finished .ok

/-- Neither is at work any more. -/
theorem Handler.at_work {h : Handler} (hst : h.stage = .arriving ∨ h.stage = .serving) :
    ¬ h.Failed ∧ ¬ h.Responded := by
  constructor
  · rintro (rfl | ⟨m, rfl⟩) <;> simp [stage] at hst
  · rintro (rfl | rfl) <;> simp [stage] at hst

/-- `invoke` has returned an error. -/
def Wrapper.Failed (w : Wrapper) : Prop := ∃ e, w = .done (.error e)

/-- **Nothing is hidden**: while neither party has failed, nothing has
failed and every step has returned; the message on record is the last one
passed on; and a final response, wherever it is on its way, is that
message. -/
structure Honest (s : Sys (TaRun σ)) : Prop where
  clean : ¬ s.handler.Failed → ¬ s.wrapper.Failed → .failed ∉ s.trace
  fresh : s.handler.stage = .arriving → s.tee = freshRun
  returned : ¬ s.handler.Failed → ∀ tr ∈ s.tee.steps, tr.ended = .returned
  record : s.handler.stage = .serving →
    ∃ ses, s.tee.ta.sess = some ses ∧ ses.message = lastMessage s.tee.steps
  asking : ∀ kind m x, s.handler = .writeRequest kind m → m ≠ .invocationResponse x
  answer : ∀ x, s.handler = .writeResponse (.invocationResponse x) →
    lastMessage s.tee.steps = some x
  sent : ∀ x, .invocationResponse x ∈ s.down ∨ s.wrapper = .done (.success x) →
    s.handler.Responded ∧ lastMessage s.tee.steps = some x

variable {s s' : Sys (TaRun σ)}

section Wrapper

variable {w w' : Wrapper} {evs : List Event} {sent : List WrapperMessage}
variable {down down' : List ProxyMessage} {stub stub' : Stub}

/-- A move of the wrapper that fails ends in an error. -/
theorem WrapperMove.not_failed (hm : WrapperMove down stub w w' evs sent down' stub')
    (hw : ¬ w'.Failed) : .failed ∉ evs ∧ ¬ w.Failed := by
  cases hm with
  | dialFailed _ e => exact absurd ⟨e, rfl⟩ hw
  | sendFailed _ e => exact absurd ⟨e, rfl⟩ hw
  | recvFailed e => exact absurd ⟨e, rfl⟩ hw
  | getFailed _ e => exact absurd ⟨e, rfl⟩ hw
  | putFailed _ _ e => exact absurd ⟨e, rfl⟩ hw
  | _ => exact ⟨by simp, by simp [Wrapper.Failed]⟩

/-- A final response the wrapper has, or leaves on the stream, was on
it. -/
theorem WrapperMove.mem_down (hm : WrapperMove down stub w w' evs sent down' stub') {x : Bytes}
    (hx : .invocationResponse x ∈ down' ∨ w' = .done (.success x)) :
    .invocationResponse x ∈ down ∨ w = .done (.success x) := by
  cases hm with
  | received m rest hd =>
    refine .inl ?_
    rw [hd]
    rcases hx with hx | hx
    · exact List.mem_cons_of_mem _ hx
    · cases m with
      | invocationResponse y =>
        obtain rfl : y = x := by simpa [handleMessage] using hx
        exact List.mem_cons_self
      | getStateRequest | putStateRequest | unset => cases hx
  | _ => exact hx.elim .inl nofun

/-- A move of the wrapper keeps it. -/
theorem Honest.wrapper (h : Honest s)
    (hm : WrapperMove s.down s.stub s.wrapper w evs sent down stub) :
    Honest { s.log evs with wrapper := w, up := s.up ++ sent, down := down, stub := stub } := by
  refine ⟨fun hhd hw => ?_, h.fresh, h.returned, h.record, h.asking, h.answer, fun x hx => ?_⟩
  · obtain ⟨hevs, hw₀⟩ := hm.not_failed hw
    simp only [Sys.log, List.mem_append, not_or]
    exact ⟨h.clean hhd hw₀, hevs⟩
  · exact h.sent x (hm.mem_down hx)

end Wrapper

/-- A handler that has not come to its end has sent no final response. -/
theorem Honest.not_sent (h : Honest s) (hhd : ¬ s.handler.Responded) (x : Bytes) :
    ¬ (.invocationResponse x ∈ s.down ∨ s.wrapper = .done (.success x)) :=
  fun hx => hhd (h.sent x hx).1

/-- A call of the proxy that fails. -/
theorem Honest.fail (h : Honest s) (hhd : ¬ s.handler.Responded) {hd : Handler}
    (hfail : hd.Failed) (evs : List Event) (t : TaRun σ) (up : List WrapperMessage) :
    Honest { s.log evs with handler := hd, tee := t, up := up, down := s.down ++ [] } := by
  have hst : hd.stage = .leaving ∨ hd.stage = .returned := by
    rcases hfail with rfl | ⟨m, rfl⟩
    · exact .inl rfl
    · exact .inr rfl
  refine ⟨fun hn => absurd hfail hn, fun ha => ?_, fun hn => absurd hfail hn, fun hs => ?_,
    fun kind m x hw => ?_, fun x hw => ?_, fun x hx => ?_⟩
  · rcases hst with hst | hst <;> simp [hst] at ha
  · rcases hst with hst | hst <;> simp [hst] at hs
  · rcases hfail with hf | ⟨_, hf⟩ <;> rw [hf] at hw <;> cases hw
  · rcases hfail with hf | ⟨_, hf⟩ <;> rw [hf] at hw <;> cases hw
  · rw [List.append_nil] at hx
    exact absurd hx (h.not_sent hhd x)

/-- A call of the proxy on its own stream or on the file system that
succeeds. -/
theorem Honest.goOn (h : Honest s) (hd : Handler)
    (hwork : hd.stage = .arriving ∨ hd.stage = .serving) (evs : List Event) (hevs : .failed ∉ evs)
    (hst : hd.stage = s.handler.stage) (hask : ∀ kind m, hd ≠ .writeRequest kind m)
    (hans : ∀ m, hd ≠ .writeResponse m) (up : List WrapperMessage) (sent : List ProxyMessage)
    (hsent : ∀ x, .invocationResponse x ∉ sent) :
    Honest { s.log evs with handler := hd, up := up, down := s.down ++ sent } := by
  obtain ⟨hhd, hnr⟩ := Handler.at_work (h := s.handler) (by rw [← hst]; exact hwork)
  refine ⟨fun _ hw => ?_, fun ha => h.fresh (hst ▸ ha), fun _ => h.returned hhd,
    fun hs => h.record (hst ▸ hs), fun kind m x hw => absurd hw (hask kind m),
    fun x hw => absurd hw (hans _), fun x hx => ?_⟩
  · simp only [Sys.log, List.mem_append, not_or]
    exact ⟨h.clean hhd hw, hevs⟩
  · refine absurd ?_ (h.not_sent hnr x)
    rcases hx with hx | hx
    · rcases List.mem_append.1 hx with hx | hx
      · exact .inl hx
      · exact absurd hx (hsent x)
    · exact .inr hx

/-- The final response written. -/
theorem Honest.respond (h : Honest s) {m : ProxyMessage} (hhd : s.handler = .writeResponse m) :
    Honest { s.log [.proxySent m] with handler := .restart true, down := s.down ++ [m] } := by
  have hnf : ¬ s.handler.Failed := by simp [hhd, Handler.Failed]
  have hnr : ¬ s.handler.Responded := by simp [hhd, Handler.Responded]
  refine ⟨fun _ hw => ?_, nofun, fun _ => h.returned hnf, nofun, nofun, nofun, fun x hx => ?_⟩
  · simp only [Sys.log, List.mem_append, not_or]
    exact ⟨h.clean hnf hw, by simp⟩
  · refine ⟨.inl rfl, h.answer x ?_⟩
    rcases hx with hx | hx
    · rcases List.mem_append.1 hx with hx | hx
      · exact absurd (.inl hx) (h.not_sent hnr x)
      · rw [hhd, ← List.mem_singleton.1 hx]
    · exact absurd (.inr hx) (h.not_sent hnr x)

/-- `restart_session`. -/
theorem Honest.restarted (h : Honest s) {ok : Bool} (hhd : s.handler = .restart ok)
    (t : TaRun σ) (ht : t.steps = s.tee.steps) :
    Honest { s.log [] with
      handler := .finished (finalStatus ok), tee := t, down := s.down ++ [] } := by
  cases ok with
  | false =>
    have hnr : ¬ s.handler.Responded := by simp [hhd, Handler.Responded]
    exact h.fail hnr (.inr ⟨_, rfl⟩) _ _ _
  | true =>
    have hnf : ¬ s.handler.Failed := by simp [hhd, Handler.Failed]
    refine ⟨fun _ hw => ?_, nofun, fun _ => ?_, nofun, nofun, nofun, fun x hx => ⟨.inr rfl, ?_⟩⟩
    · simp only [Sys.log, List.append_nil]
      exact h.clean hnf hw
    · rw [ht]
      exact h.returned hnf
    · rw [List.append_nil] at hx
      rw [ht]
      exact (h.sent x hx).2

/-- **A TEE command.** -/
theorem Honest.command (h : Honest s)
    (hwork : s.handler.stage = .arriving ∨ s.handler.stage = .serving)
    {s₀ : Session} {p : Params} {r : Reply σ} (hex : Executed s₀ p r)
    (hs₀ : s₀.message = lastMessage s.tee.steps) (hf : Faithful s.tee.steps r.steps) :
    Honest { s.log (repliedEvents r.tee) with
      handler := dispatchReply r.tee, tee := ⟨r.ta, s.tee.steps ++ r.steps⟩,
      down := s.down ++ [] } := by
  obtain ⟨hnf, hnr⟩ := Handler.at_work hwork
  by_cases hres : r.result = .success
  · obtain ⟨hret, hrec, a, ha, hans⟩ := hex.honest hs₀ hf hres
    have hevs : .failed ∉ repliedEvents r.tee := by
      have hres' : r.tee.result = .success := hres
      simp [repliedEvents, hres']
    rw [ha]
    refine ⟨fun _ hw => ?_, fun harr => ?_, fun _ => ?_, fun _ => hrec, fun kind m x hw => ?_,
      fun x hw => ?_, fun x hx => ?_⟩
    · simp only [Sys.log, List.mem_append, not_or]
      exact ⟨h.clean hnf hw, hevs⟩
    · cases a <;> cases harr
    · intro tr htr
      rcases List.mem_append.1 htr with htr | htr
      · exact h.returned hnf tr htr
      · exact hret tr htr
    · cases a <;> cases hw <;> simp
    · cases a <;> cases hw
      exact hans x rfl
    · rw [List.append_nil] at hx
      exact absurd hx (h.not_sent hnr x)
  · have hd : dispatchReply r.tee = .restart false := by
      unfold dispatchReply
      exact if_pos hres
    rw [hd]
    exact h.fail hnr (.inl rfl) _ _ _

/-! ## Runs -/

/-- A step of the system whose TEE command, if it is one, hides
nothing. -/
def FaithfulStep (load : Loader σ) (files : Bytes → Option Bytes) (s s' : Sys (TaRun σ)) : Prop :=
  Step (taTee load) files s s' ∧
    ∃ new, s'.tee.steps = s.tee.steps ++ new ∧ Faithful s.tee.steps new

/-- **A step that hides nothing keeps the invariant.** -/
theorem FaithfulStep.honest (hstep : FaithfulStep load files s s') (h : Honest s) : Honest s' := by
  obtain ⟨hst, new, hnew, hf⟩ := hstep
  cases hst with
  | wrapper fail hm =>
    obtain ⟨w, evs, sent, down, stub, hmove, rfl⟩ := wrapperMove_cases hm
    exact h.wrapper hmove
  | proxy c hm =>
    obtain ⟨hd, t, evs, up, sent, hmove, rfl⟩ := proxyMove_cases hm
    generalize hhd : s.handler = hd₀ at hmove
    -- what a handler at work has not done
    have hnr : hd₀.stage = .arriving ∨ hd₀.stage = .serving → ¬ s.handler.Responded := by
      intro hw
      rw [← hhd] at hw
      exact (Handler.at_work hw).2
    cases hmove with
    | ran wasm buf env =>
      have hta := h.fresh (by rw [hhd]; rfl)
      have hex := executed_run load (by rw [hta] : s.tee.ta = initializeSession) env wasm buf
      obtain rfl := List.append_cancel_left hnew
      refine h.command (.inl (by rw [hhd]; rfl)) hex ?_ hf
      rw [hta]
      rfl
    | resumed buf env =>
      obtain ⟨ses, hses, hmsg⟩ := h.record (by rw [hhd]; rfl)
      obtain ⟨s₀, hs₀, hex⟩ := executed_resume load s.tee.ta env buf
      obtain rfl := List.append_cancel_left hnew
      exact h.command (.inr (by rw [hhd]; rfl)) hex ((hs₀.2 ses hses).trans hmsg) hf
    | restarted ok => exact h.restarted hhd _ rfl
    | wroteResponse m => exact h.respond hhd
    | gotRequest m rest hup =>
      exact h.goOn (.openFile m.getInvocationRequest) (.inl rfl) _ (by simp) (by rw [hhd]; rfl)
        nofun nofun up [] (by simp)
    | file req wasm =>
      exact h.goOn (.run wasm _) (.inl rfl) _ (by simp) (by rw [hhd]; rfl) nofun nofun s.up []
        (by simp)
    | wroteRequest kind m =>
      refine h.goOn (.readReply kind) (.inr rfl) _ (by simp) (by rw [hhd]; rfl) nofun nofun s.up [m]
        fun x hx => ?_
      exact h.asking kind m x hhd (List.mem_singleton.1 hx).symm
    | gotReply kind m rest hup =>
      exact h.goOn (.resume (writeReply kind m)) (.inr rfl) _ (by simp) (by rw [hhd]; rfl)
        nofun nofun up [] (by simp)
    | requestLost => exact h.fail (hnr (.inl rfl)) (.inr ⟨_, rfl⟩) _ _ _
    | noFile req => exact h.fail (hnr (.inl rfl)) (.inl rfl) _ _ _
    | runLost wasm buf => exact h.fail (hnr (.inl rfl)) (.inl rfl) _ _ _
    | responseLost m => exact h.fail (hnr (.inr rfl)) (.inl rfl) _ _ _
    | writeLost kind m => exact h.fail (hnr (.inr rfl)) (.inl rfl) _ _ _
    | replyLost kind => exact h.fail (hnr (.inr rfl)) (.inl rfl) _ _ _
    | resumeLost buf => exact h.fail (hnr (.inr rfl)) (.inl rfl) _ _ _

/-- What a success has to say: nothing failed, every step returned, and
the payload is the message the module passed to `cc_return_response`
last. -/
def SuccessIsAnswer (s : Sys (TaRun σ)) : Prop :=
  ∀ x, s.wrapper = .done (.success x) →
    .failed ∉ s.trace ∧ (∀ tr ∈ s.tee.steps, tr.ended = .returned) ∧
      lastMessage s.tee.steps = some x

/-- **A failed invocation is not reported as a success where the TA hides
nothing.** In every run of an invocation, whatever fails, in which every
`step_resume` returns, every `step_init` returns or is reported, no
response has a negative length, and no command leaves the invocation
without a request and without a message, a success is the answer of the
module. -/
theorem success_is_answer (load : Loader σ) (files : Bytes → Option Bytes) (uuid ccfile : Bytes)
    (args : List Bytes) (l : Ledger)
    (h : Relation.ReflTransGen (FaithfulStep load files)
      (Sys.init freshRun uuid ccfile args l) s) : SuccessIsAnswer s := by
  have h₀ : Honest (Sys.init (freshRun : TaRun σ) uuid ccfile args l) := by
    refine ⟨fun _ _ => List.not_mem_nil, fun _ => rfl, fun _ => nofun, nofun, nofun, nofun,
      fun x hx => ?_⟩
    rcases hx with hx | hx
    · exact absurd hx List.not_mem_nil
    · have hne : invoke uuid ccfile args ≠ .done (.success x) := by
        unfold invoke
        split <;> simp
      exact absurd hx hne
  have hh := invariant_of_step (fun _ _ ha hstep => hstep.honest ha) h h₀
  intro x hx
  obtain ⟨hresp, hlast⟩ := hh.sent x (.inr hx)
  have hnf : ¬ s.handler.Failed := by
    rcases hresp with hr | hr <;> simp [hr, Handler.Failed]
  exact ⟨hh.clean hnf (by simp [hx, Wrapper.Failed]), hh.returned hnf, hlast⟩

/-! ## Two runs -/

/-- A call that succeeds, of the proxy. -/
def proxyOk : Move Env := .proxy ⟨false, Env.ok⟩

/-- A module that asks for a PUT and traps when it is resumed. -/
def putsThenTraps : Loader ℕ := fun _ => some <| scripted (ascii "ab") fun n =>
  if n = 0 then ⟨[.ccPutState 0 1 1 1], none⟩ else ⟨[], some (ascii "Exception: unreachable")⟩

/-- The moves of an invocation with one request, to its end. -/
def oneRequestRun : List (Move Env) :=
  [.wrapper none, .wrapper none, proxyOk, proxyOk, proxyOk, proxyOk, .wrapper none, .wrapper none,
    .wrapper none, proxyOk, proxyOk, proxyOk, .wrapper none]

/-- It is reported to Fabric as a success, and its write is kept. -/
theorem trap_is_success :
    ∃ s, Relation.ReflTransGen (Step (taTee putsThenTraps) fun _ => some smallestWasm)
        (Sys.init freshRun [] [] [[], []] fun _ => none) s ∧
      s.wrapper = .done (.success (ascii "RUNTIME_ERROR")) ∧
      s.stub.writes = [(ascii "a", ascii "b")] ∧
      s.tee.steps.map StepTrace.ended =
        [.returned, .returned, .trapped (some (ascii "Exception: unreachable"))] ∧
      ¬ SuccessIsAnswer s := by
  have hrun : ((Sys.init freshRun [] [] [[], []] fun _ => none).moves
      (taTee putsThenTraps) (fun _ => some smallestWasm) oneRequestRun).map
        (fun s => (s.wrapper, s.stub.writes, s.tee.steps.map StepTrace.ended)) =
      some (.done (.success (ascii "RUNTIME_ERROR")), [(ascii "a", ascii "b")],
        [.returned, .returned, .trapped (some (ascii "Exception: unreachable"))]) := by
    decide +kernel
  rw [Option.map_eq_some_iff] at hrun
  obtain ⟨s, hs, heq⟩ := hrun
  simp only [Prod.mk.injEq] at heq
  obtain ⟨hw, hwrites, hends⟩ := heq
  refine ⟨s, reaches_of_sysMoves (fun _ _ _ => step_of_move) hs, hw, hwrites, hends, fun h => ?_⟩
  -- its last step did not return
  have hmem : StepEnd.trapped (some (ascii "Exception: unreachable")) ∈
      s.tee.steps.map StepTrace.ended := by
    rw [hends]
    simp
  obtain ⟨tr, htr, hended⟩ := List.mem_map.1 hmem
  rw [(h _ hw).2.1 tr htr] at hended
  cases hended

/-- A module that answers at once. -/
def answersOk : Loader ℕ := fun _ => some <| scripted (ascii "OK") fun _ =>
  ⟨[.ccReturnResponse 0 2], none⟩

theorem success_is_answer_ok :
    ∃ s, Relation.ReflTransGen (FaithfulStep answersOk fun _ => some smallestWasm)
        (Sys.init freshRun [] [] [[], []] fun _ => none) s ∧
      s.wrapper = .done (.success (ascii "OK")) ∧ lastMessage s.tee.steps = some (ascii "OK") := by
  have hrun : ∃ s, Relation.ReflTransGen (FaithfulStep answersOk fun _ => some smallestWasm)
        (Sys.init freshRun [] [] [[], []] fun _ => none) s ∧
      s.wrapper = .done (.success (ascii "OK")) := by
    refine ⟨_, .head ⟨.wrapper none rfl, [], rfl, faithful_nil _⟩ <|
      .head ⟨.wrapper none rfl, [], rfl, faithful_nil _⟩ <|
      .head ⟨.proxy ⟨false, Env.ok⟩ rfl, [], rfl, faithful_nil _⟩ <|
      .head ⟨.proxy ⟨false, Env.ok⟩ rfl, [], rfl, faithful_nil _⟩ <|
      .head ⟨.proxy ⟨false, Env.ok⟩ rfl, _, rfl, ?_⟩ <|
      .head ⟨.proxy ⟨false, Env.ok⟩ rfl, [], (List.append_nil _).symm, faithful_nil _⟩ <|
      .head ⟨.wrapper none rfl, [], (List.append_nil _).symm, faithful_nil _⟩ .refl, ?_⟩
    · exact ⟨by decide +kernel, by decide +kernel,
        fun _ _ => ⟨ascii "OK", by decide, by decide +kernel⟩⟩
    · decide +kernel
  obtain ⟨s, hs, hw⟩ := hrun
  exact ⟨s, hs, hw, (success_is_answer _ _ _ _ _ _ hs _ hw).2.2⟩

end TeeChaincode
