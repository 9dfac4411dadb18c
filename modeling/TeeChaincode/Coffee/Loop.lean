import TeeChaincode.Coffee.Once
import TeeChaincode.Coffee.Refinement
import TeeChaincode.System.Answers
import TeeChaincode.System.Requests

/-!
# The proxy loop over the chaincode, with any host

The host may write into the shared buffer what it likes, and every call
the proxy makes to the outside may fail. `hostileTee` is the TA behind
such a host: a RESUME_WASM finds the bytes the host has put there, not
those the proxy has. The loop still comes to its end behind at most two
resumes, with one of three patterns of requests, and the chaincode's state
machine stands in one of seven states between two steps.
-/

namespace TeeChaincode

open Common

/-! ## A host that writes what it likes -/

section Host

variable {σ : Type}

/-- The TA with what its host saw of it: the buffers it was resumed on,
and its replies. -/
structure Hosted (σ : Type) where
  run : TaRun σ
  contents : List Bytes
  replies : List TeeReply

/-- The requests the TA has emitted. -/
def Hosted.requests (t : Hosted σ) : List Request := t.replies.filterMap TeeReply.request

/-- The TA behind a host that decides, besides the environment, what a
RESUME_WASM finds in the shared buffer. -/
def hostileTee (load : Loader σ) : Tee (Hosted σ) (Env × Bytes) where
  run t e wasm buf :=
    let r := (taTee load).run t.run e.1 wasm buf
    (r.1, ⟨r.2, t.contents, t.replies ++ [r.1]⟩)
  resume t e _ :=
    let r := (taTee load).resume t.run e.1 e.2
    (r.1, ⟨r.2, t.contents ++ [e.2], t.replies ++ [r.1]⟩)
  restart t := { t with run := (taTee load).restart t.run }

/-- A session just opened. -/
def Hosted.fresh : Hosted σ := ⟨freshRun, [], []⟩

/-- The proxy about to issue RUN_WASM. -/
def Call.launch (t : Hosted σ) (wasm f : Bytes) (as : List Bytes) : Call (Hosted σ) :=
  ⟨.run wasm (packArguments f as), [], t⟩

/-- A step of a call, whatever its outside call brings back. -/
def Call.Fed {τ ε : Type} (T : Tee τ ε) (c c' : Call τ) : Prop := ∃ i, c.feed T i = some c'

theorem Hosted.requests_append (t : Hosted σ) (run : TaRun σ) (contents : List Bytes)
    (r : TeeReply) :
    (⟨run, contents, t.replies ++ [r]⟩ : Hosted σ).requests =
      t.requests ++ (dispatchReply r).requested.toList := by
  simp only [← request_eq_requested, requests, List.filterMap_append]
  cases h : r.request <;> simp [h]

end Host

namespace Coffee

variable {L : Layout} {load : Loader Globals} {args : Buf sizeofArguments} {ph : Phase}
variable {t : TaRun Globals} {wasm buf : Bytes}

/-! ## Commands in any environment -/

/-- The values of `(current_op, fsm_state)` between two steps. -/
def restStates : List (Op × ℕ) :=
  [(.none, 0), (.create, 0), (.create, 11), (.create, 12), (.add, 21), (.add, 22), (.query, 31)]

/-- **The state machine is at rest**: in one of its states, and in its
start with a `create` under way only for a person without a name. -/
def AtRest (person : Bytes) (g : Globals) : Prop :=
  (g.currentOp, g.fsmState) ∈ restStates ∧
    ((g.currentOp, g.fsmState) = (.create, 0) → person = [])

/-- The instance of the TA, where there is one, is at rest. -/
def Resting (person : Bytes) (ta : Ta Globals) : Prop :=
  ∀ inst, ta.runtimeCtx.moduleInst = some inst → AtRest person inst.globals

theorem atRest_of_phase {f person : Bytes} {g : Globals} (hop : g.currentOp = ph.op)
    (hfsm : g.fsmState = ph.fsm) (hm : ph.Meant f person) : AtRest person g := by
  rw [AtRest, hop, hfsm]
  refine ⟨?_, fun h => ?_⟩
  · cases ph <;> simp [restStates, Phase.op, Phase.fsm]
  · cases ph with
    | stuckGet | stuck => exact hm.2
    | _ => simp [Phase.op, Phase.fsm] at h

theorem atRest_idle (person : Bytes) : AtRest person ⟨0, .none, 0⟩ := by
  have hm : Phase.idle.Meant [] person := trivial
  exact atRest_of_phase rfl rfl hm

theorem InPhase.resting {ta : Ta Globals} (h : InPhase L args ph ta) :
    Resting (rowText args 1) ta := by
  obtain ⟨-, -, -, s, inst, w, gl, -, hinst, hat, hconf⟩ := h
  intro inst' hi
  obtain rfl := Option.some.inj (hinst.symm.trans hi)
  rw [hat.globals]
  exact atRest_of_phase hconf.op hconf.fsm hconf.meant

/-- What a command of the chaincode comes to: its step cannot run, or it
is a move of the machine. -/
inductive Comes (L : Layout) (args : Buf sizeofArguments) (next : Phase × Ask) (r : TeeReply)
    (ta : Ta Globals) : Prop
  | unable (hr : dispatchReply r = .writeResponse (.invocationResponse (ascii "RUNTIME_ERROR")))
  | moved (hr : dispatchReply r = next.2.handler) (hin : InPhase L args next.1 ta)

theorem dispatchReply_unable {p : Params} :
    dispatchReply ⟨.success, (p.ask (.answer (ascii "RUNTIME_ERROR"))).value1,
      (p.ask (.answer (ascii "RUNTIME_ERROR"))).memref2.buffer⟩ =
      .writeResponse (.invocationResponse (ascii "RUNTIME_ERROR")) :=
  dispatchReply_ask ⟨by decide, by decide⟩

/-- A RUN_WASM that gets everything it asks for succeeds. -/
theorem runWasm_success (hl : load wasm = some (coffee L)) {env : Env} (he : Env.Starts env) :
    (runWasm load initializeSession (runParams wasm buf) env).result = .success := by
  cases hx : env.execEnv with
  | true =>
    obtain ⟨ta', steps, calls, hrun, -, -⟩ := runWasm_inPhase load initializeSession
      (runParams wasm buf) env rfl rfl hl he hx
    rw [hrun]
  | false =>
    obtain ⟨ta', hrun, -⟩ := runWasm_noExecEnv load initializeSession
      (runParams wasm buf) rfl rfl hl he hx
    rw [hrun]

/-- A RUN_WASM that fails leaves no instance, or one that has not run. -/
theorem runWasm_failed_instance (hl : load wasm = some (coffee L)) {env : Env}
    (hfail : (runWasm load initializeSession (runParams wasm buf) env).result ≠ .success)
    {inst : Instance Globals}
    (hi : (runWasm load initializeSession (runParams wasm buf) env).ta.runtimeCtx.moduleInst =
      some inst) : inst.globals = ⟨0, .none, 0⟩ := by
  have hne : ¬ Env.Starts env := fun he => hfail (runWasm_success hl he)
  have hsess : (initializeSession : Ta Globals).sess = some Session.zero := rfl
  have hctx : (initializeSession : Ta Globals).runtimeCtx.moduleInst = none := rfl
  have hfile : (runParams wasm buf).memref0 = wasm := rfl
  obtain ⟨h1, h2, h3, h4, h5, h6, h7⟩ := env
  simp only [runWasm, Ta.firstSteps, hsess, initializeWamrRuntime, hfile, hl, callStep] at hi
  cases h1 <;> cases h2 <;> cases h3 <;> cases h4 <;> cases h5 <;> cases h6 <;>
    first
    | exact absurd ⟨rfl, rfl, rfl, rfl, rfl, rfl⟩ hne
    | simp [coffee, WamrContext.zero, hctx] at hi
  -- everything but the execution environment of `step_init`
  rw [← hi]

/-- **RUN_WASM of the chaincode in any environment**: it fails where it
does not get all it asks for. -/
theorem run_comes (hl : load wasm = some (coffee L)) (ht : t.ta = initializeSession) (env : Env)
    (buf : Bytes) :
    (¬ Env.Starts env ∧ dispatchReply ((taTee load).run t env wasm buf).1 = .restart false ∨
      Env.Starts env ∧
        Comes L (argsOf (runParams wasm buf)) (stepOn (argsOf (runParams wasm buf)) .idle [])
          ((taTee load).run t env wasm buf).1 ((taTee load).run t env wasm buf).2.ta) ∧
      Resting (rowText (argsOf (runParams wasm buf)) 1)
        ((taTee load).run t env wasm buf).2.ta := by
  have htee : (taTee load).run t env wasm buf =
      t.answer (runWasm load initializeSession (runParams wasm buf) env) := by
    simp only [taTee, ht]
    rfl
  rw [htee]
  by_cases hres : (runWasm load initializeSession (runParams wasm buf) env).result = .success
  · have hstarts := starts_of_success initializeSession (runParams wasm buf) rfl hl hres
    cases hx : env.execEnv with
    | true =>
      obtain ⟨ta', steps, calls, hrun, -, hin⟩ := runWasm_inPhase load initializeSession
        (runParams wasm buf) env rfl rfl hl hstarts hx
      obtain ⟨w', gl', s', -, -, hask⟩ :=
        steps_idle (config_started L (runParams wasm buf))
      have hfits : (stepOn (argsOf (runParams wasm buf)) .idle []).2.Fits := by
        rw [stepOn, Phase.next, ← hask]
        exact asked_fits s'
      rw [hrun]
      exact ⟨.inr ⟨hstarts, .moved (dispatchReply_ask hfits) hin⟩, hin.resting⟩
    | false =>
      refine ⟨.inr ⟨hstarts, ?_⟩, fun inst hi => ?_⟩
      · obtain ⟨ta', hrun, -⟩ := runWasm_noExecEnv load initializeSession
          (runParams wasm buf) rfl rfl hl hstarts hx
        rw [hrun]
        exact .unable dispatchReply_unable
      · rw [TaRun.answer, runWasm_fresh rfl hl hstarts,
          processHostcallFlow_of_noExecEnv (initialised L initializeSession _) (stepResume L)
            rfl rfl rfl rfl hx] at hi
        obtain rfl := Option.some.inj hi
        exact atRest_idle _
  · refine ⟨.inl ⟨fun hst => hres (runWasm_success hl hst), if_pos hres⟩, fun inst hi => ?_⟩
    rw [runWasm_failed_instance hl hres hi]
    exact atRest_idle _

/-- **RESUME_WASM in any environment**, on any buffer. -/
theorem InPhase.resume_comes (h : InPhase L args ph t.ta) (load : Loader Globals) (env : Env)
    (buf : Bytes) :
    Comes L args (stepOn args ph (bufferValue buf)) ((taTee load).resume t env buf).1
        ((taTee load).resume t env buf).2.ta ∧
      Resting (rowText args 1) ((taTee load).resume t env buf).2.ta := by
  rw [taTee_resume load h.alive]
  cases hx : env.execEnv with
  | true =>
    obtain ⟨ta', steps, hres, -, hin⟩ := resumeWasm_inPhase h (resumeParams buf) env hx
    rw [hres]
    exact ⟨.moved (dispatchReply_ask (h.fits buf)) hin, hin.resting⟩
  | false =>
    refine ⟨?_, fun inst hi => ?_⟩
    · obtain ⟨ta', hres, -⟩ := resumeWasm_noExecEnv h (resumeParams buf) hx
      rw [hres]
      exact .unable dispatchReply_unable
    · obtain ⟨hop, hfsm⟩ := resumeWasm_noExecEnv_globals h (resumeParams buf) hx hi
      obtain ⟨-, -, -, s, inst₀, w, gl, -, -, -, hconf⟩ := h
      exact atRest_of_phase hop hfsm hconf.meant

/-! ## The requests of an invocation -/

/-- **The pattern of requests**: none, a GET, or a GET and a PUT with its
key; and a PUT only for a `create` with an empty reply or an `add` with
one that is not. -/
def Pattern (f person : Bytes) (contents : List Bytes) (reqs : List Request) : Prop :=
  reqs = [] ∨ reqs = [.get person] ∨
    ∃ b rest v, contents = b :: rest ∧ reqs = [.get person, .put person v] ∧
      (f = Lit.create.text ∧ bufferValue b = [] ∨ f = Lit.add.text ∧ bufferValue b ≠ [])

/-- Where the machine waits for a reply: the buffers it was resumed on,
and the requests it has made. -/
inductive Open (args : Buf sizeofArguments) : Phase → List Bytes → List Request → Prop
  | asked {ph : Phase} (h : stepOn args .idle [] = (ph, .get (rowText args 1))) :
      Open args ph [] [.get (rowText args 1)]
  | wrote {ph ph' : Phase} {b v : Bytes} (h : Open args ph [] [.get (rowText args 1)])
      (hput : stepOn args ph (bufferValue b) = (ph', .put (rowText args 1) v)) :
      Open args ph' [b] [.get (rowText args 1), .put (rowText args 1) v]

/-- The phases an invocation opens in. -/
theorem open_phases (h : stepOn args .idle [] = (ph, .get (rowText args 1))) :
    ph = .stuckGet ∨ ph = .createGet ∧ rowText args 0 = Lit.create.text ∨
      ph = .addGet ∧ rowText args 0 = Lit.add.text ∨
      ph = .queryGet ∧ rowText args 0 = Lit.query.text := by
  simp only [stepOn, Phase.next, Phase.start] at h
  split at h
  · next hc =>
    obtain ⟨h, -⟩ := Prod.mk.inj h
    split at h
    · exact .inl h.symm
    · exact .inr (.inl ⟨h.symm, hc⟩)
  split at h
  · next ha =>
    obtain ⟨h, -⟩ := Prod.mk.inj h
    exact .inr (.inr (.inl ⟨h.symm, ha⟩))
  split at h
  · next hq =>
    obtain ⟨h, -⟩ := Prod.mk.inj h
    exact .inr (.inr (.inr ⟨h.symm, hq⟩))
  · cases (Prod.mk.inj h).2

/-- A reply to the first request is followed by a PUT or the answer. -/
theorem stepOn_asked (h : stepOn args .idle [] = (ph, .get (rowText args 1))) (b : Bytes) :
    (∃ ph' v, (ph' = .createPut ∨ ph' = .addPut) ∧
        stepOn args ph (bufferValue b) = (ph', .put (rowText args 1) v) ∧
        (rowText args 0 = Lit.create.text ∧ bufferValue b = [] ∨
          rowText args 0 = Lit.add.text ∧ bufferValue b ≠ [])) ∨
      ∃ ph' x, stepOn args ph (bufferValue b) = (ph', .answer x) := by
  rcases open_phases h with rfl | ⟨rfl, hf⟩ | ⟨rfl, hf⟩ | ⟨rfl, -⟩
  · exact .inr ⟨_, _, rfl⟩
  · by_cases hv : bufferValue b = []
    · exact .inl ⟨_, _, .inl rfl, by rw [stepOn, Phase.next, if_pos hv], .inl ⟨hf, hv⟩⟩
    · exact .inr ⟨_, _, by rw [stepOn, Phase.next, if_neg hv]⟩
  · by_cases hv : bufferValue b = []
    · exact .inr ⟨_, _, by rw [stepOn, Phase.next, if_pos hv]⟩
    · exact .inl ⟨_, _, .inr rfl, by rw [stepOn, Phase.next, if_neg hv], .inr ⟨hf, hv⟩⟩
  · exact .inr ⟨_, _, rfl⟩

variable {contents : List Bytes} {reqs : List Request}

/-- What is behind a reply: the machine waits again, or it answers. -/
theorem Open.next (h : Open args ph contents reqs) (b : Bytes) :
    (∃ ph' v, stepOn args ph (bufferValue b) = (ph', .put (rowText args 1) v) ∧
        Open args ph' (contents ++ [b]) (reqs ++ [.put (rowText args 1) v])) ∨
      ∃ ph' x, stepOn args ph (bufferValue b) = (ph', .answer x) := by
  cases h with
  | asked h =>
    rcases stepOn_asked h b with ⟨ph', v, -, hput, -⟩ | hans
    · exact .inl ⟨ph', v, hput, .wrote (.asked h) hput⟩
    · exact .inr hans
  | wrote h hput =>
    cases h with
    | asked h =>
      rcases stepOn_asked h _ with ⟨ph', v, hph, hput', -⟩ | ⟨ph', x, hans⟩
      · obtain ⟨rfl, -⟩ := Prod.mk.inj (hput.symm.trans hput')
        rcases hph with rfl | rfl <;> exact .inr ⟨_, _, rfl⟩
      · cases (Prod.mk.inj (hput.symm.trans hans)).2

theorem Open.length_le (h : Open args ph contents reqs) : contents.length ≤ 1 := by
  cases h <;> simp

theorem Open.pattern (h : Open args ph contents reqs) (more : List Bytes) :
    Pattern (rowText args 0) (rowText args 1) (contents ++ more) reqs := by
  cases h with
  | asked h => exact .inr (.inl rfl)
  | wrote h hput =>
    cases h with
    | asked h =>
      rcases stepOn_asked h _ with ⟨ph', v, -, -, hcond⟩ | ⟨ph', x, hans⟩
      · exact .inr (.inr ⟨_, _, _, rfl, rfl, hcond⟩)
      · cases (Prod.mk.inj (hput.symm.trans hans)).2

/-! ## The loop -/

/-- **What holds in the loop.** Up to RUN_WASM the session is fresh; in
the loop the machine waits for a reply; and where the handler leaves it,
the pattern of requests stands. -/
inductive Driven (L : Layout) (args : Buf sizeofArguments) (wasm buf : Bytes) :
    Handler → Hosted Globals → Prop
  | launch : Driven L args wasm buf (.run wasm buf) .fresh
  | waiting {hd : Handler} {t : Hosted Globals} {ph : Phase} (hhd : hd.Waits)
      (hin : InPhase L args ph t.run.ta) (hopen : Open args ph t.contents t.requests)
      (hlen : t.replies.length = t.contents.length + 1) : Driven L args wasm buf hd t
  | ended {hd : Handler} {t : Hosted Globals} (hhd : hd.Leaves)
      (hpat : Pattern (rowText args 0) (rowText args 1) t.contents t.requests)
      (hlen : t.contents.length ≤ 2 ∧ t.replies.length ≤ t.contents.length + 1)
      (hrest : Resting (rowText args 1) t.run.ta) : Driven L args wasm buf hd t

/-- How far the loop is from its end. -/
def rank (c : Call (Hosted Globals)) : ℕ :=
  match c.handler with
  | .run _ _ => 9
  | .writeRequest _ _ => 8 - 3 * c.tee.contents.length
  | .readReply _ => 7 - 3 * c.tee.contents.length
  | .resume _ => 6 - 3 * c.tee.contents.length
  | .writeResponse _ => 2
  | .restart _ => 1
  | _ => 0

theorem rank_leaves {c : Call (Hosted Globals)} (h : c.handler.Leaves) : rank c ≤ 2 := by
  unfold rank
  generalize c.handler = hd at h
  cases hd <;> first | exact absurd h id | simp

theorem rank_dispatchReply (r : TeeReply) (sent : List ProxyMessage) (u : Hosted Globals) :
    rank ⟨dispatchReply r, sent, u⟩ < 9 := by
  rcases dispatchReply_stage r with h | h
  · generalize dispatchReply r = hd at h
    cases hd <;> simp only [Handler.stage, reduceCtorEq] at h <;> simp only [rank] <;> omega
  · rw [h]
    simp [rank]

theorem rank_waits {c : Call (Hosted Globals)} (h : c.handler.Waits)
    (hlen : c.tee.contents.length ≤ 1) : 3 ≤ rank c := by
  unfold rank
  generalize c.handler = hd at h
  cases hd <;> first | exact absurd h id | (dsimp only; omega)

section Step

variable {hd hd' : Handler} {u : Hosted Globals} {run : TaRun Globals} {r : TeeReply} {b : Bytes}
variable {contents : List Bytes} {sent sent' : List ProxyMessage}

/-- A loop that waits may be left. -/
theorem Driven.leave (hin : InPhase L args ph u.run.ta) (hopen : Open args ph u.contents u.requests)
    (hlen : u.replies.length = u.contents.length + 1) (hhd : hd.Leaves) :
    Driven L args wasm buf hd u := by
  have hle := hopen.length_le
  refine .ended hhd ?_ ⟨by omega, by omega⟩ hin.resting
  simpa using hopen.pattern []

/-- A reply that leads out of the loop. -/
theorem Driven.leaving (hr : dispatchReply r = hd) (hhd : hd.Leaves) (hnone : hd.requested = none)
    (hpat : Pattern (rowText args 0) (rowText args 1) contents u.requests)
    (hlen : contents.length ≤ 2 ∧ u.replies.length ≤ contents.length)
    (hrest : Resting (rowText args 1) run.ta) :
    Driven L args wasm buf (dispatchReply r) ⟨run, contents, u.replies ++ [r]⟩ := by
  have hreq := u.requests_append run contents r
  rw [hr, hnone, Option.toList_none, List.append_nil] at hreq
  rw [hr]
  refine .ended hhd (by rw [hreq]; exact hpat) ⟨hlen.1, ?_⟩ hrest
  rw [List.length_append]
  exact Nat.add_le_add_right hlen.2 1

/-- **What a RUN_WASM leads to.** -/
theorem Driven.ran (hc : dispatchReply r = .restart false ∨
      Comes L args (stepOn args .idle []) r run.ta)
    (hrest : Resting (rowText args 1) run.ta) :
    Driven L args wasm buf (dispatchReply r)
      ⟨run, [], (Hosted.fresh : Hosted Globals).replies ++ [r]⟩ := by
  have hleave : ∀ hd : Handler, dispatchReply r = hd → hd.Leaves → hd.requested = none →
      Driven L args wasm buf (dispatchReply r)
        ⟨run, [], (Hosted.fresh : Hosted Globals).replies ++ [r]⟩ :=
    fun hd hr hl hn => Driven.leaving (u := .fresh) hr hl hn (.inl rfl) ⟨by simp, le_rfl⟩ hrest
  rcases hc with hr | hr | ⟨hr, hin⟩
  · exact hleave _ hr trivial rfl
  · exact hleave _ hr trivial rfl
  · rcases stepOn_idle_cases args with ⟨ph, hget⟩ | ⟨herr, -⟩
    · rw [hget] at hr hin
      have hreq := Hosted.requests_append (.fresh : Hosted Globals) run [] r
      rw [hr] at hreq ⊢
      exact .waiting trivial hin (by rw [hreq]; exact .asked hget) rfl
    · rw [herr] at hr
      exact hleave _ hr trivial rfl

/-- **What a RESUME_WASM leads to.** -/
theorem Driven.resumed (hopen : Open args ph u.contents u.requests)
    (hlen : u.replies.length = u.contents.length + 1)
    (hc : Comes L args (stepOn args ph (bufferValue b)) r run.ta)
    (hrest : Resting (rowText args 1) run.ta) {b' : Bytes} :
    Driven L args wasm buf (dispatchReply r) ⟨run, u.contents ++ [b], u.replies ++ [r]⟩ ∧
      rank ⟨dispatchReply r, sent, ⟨run, u.contents ++ [b], u.replies ++ [r]⟩⟩ <
        rank ⟨.resume b', sent', u⟩ := by
  have hle := hopen.length_le
  have hadd : (u.contents ++ [b]).length = u.contents.length + 1 := List.length_append
  have hleave : ∀ hd : Handler, dispatchReply r = hd → hd.Leaves → hd.requested = none →
      Driven L args wasm buf (dispatchReply r) ⟨run, u.contents ++ [b], u.replies ++ [r]⟩ ∧
        rank ⟨dispatchReply r, sent, ⟨run, u.contents ++ [b], u.replies ++ [r]⟩⟩ <
          rank ⟨.resume b', sent', u⟩ := by
    intro hd hr hl hn
    refine ⟨Driven.leaving hr hl hn (hopen.pattern [b]) ⟨by omega, by omega⟩ hrest, ?_⟩
    have h2 := rank_leaves (c := ⟨dispatchReply r, sent,
      ⟨run, u.contents ++ [b], u.replies ++ [r]⟩⟩) (by rw [hr]; exact hl)
    have h3 := rank_waits (c := ⟨.resume b', sent', u⟩) trivial hle
    omega
  cases hc with
  | unable hr => exact hleave _ hr trivial rfl
  | moved hr hin =>
    rcases hopen.next b with ⟨ph', v, hput, hopen'⟩ | ⟨ph', x, hans⟩
    · have hle' := hopen'.length_le
      have hreq := u.requests_append run (u.contents ++ [b]) r
      rw [hput] at hr hin
      rw [hr] at hreq ⊢
      refine ⟨.waiting trivial hin (by rw [hreq]; exact hopen') ?_, ?_⟩
      · simp only [List.length_append, List.length_singleton, hlen]
      · show 8 - 3 * (u.contents ++ [b]).length < 6 - 3 * u.contents.length
        omega
    · rw [hans] at hr
      exact hleave _ hr trivial rfl

/-- **A step of the loop** keeps what holds in it and brings it closer to
its end. -/
theorem Driven.step {c c' : Call (Hosted Globals)} (hl : load wasm = some (coffee L)) (buf : Bytes)
    (h : Driven L (argsOf (runParams wasm buf)) wasm buf c.handler c.tee)
    (hf : c.Fed (hostileTee load) c') :
    Driven L (argsOf (runParams wasm buf)) wasm buf c'.handler c'.tee ∧ rank c' < rank c := by
  obtain ⟨i, hf⟩ := hf
  have hm := Call.feed_cases hf
  obtain ⟨hd, sent, t⟩ := c
  dsimp only at h hm
  cases h with
  | launch =>
    cases hm with
    | ran wasm buf env =>
      obtain ⟨hc, hrest⟩ := run_comes (t := freshRun) hl rfl env.1 buf
      exact ⟨Driven.ran (hc.imp And.right And.right) hrest, rank_dispatchReply _ _ _⟩
    | runLost =>
      refine ⟨.ended trivial (.inl rfl) ⟨Nat.zero_le _, Nat.zero_le _⟩ nofun, ?_⟩
      simp [rank]
  | waiting hhd hin hopen hlen =>
    have hle := hopen.length_le
    cases hm with
    | wroteRequest kind m =>
      refine ⟨.waiting trivial hin hopen hlen, ?_⟩
      simp only [rank]
      omega
    | gotReply kind m =>
      refine ⟨.waiting trivial hin hopen hlen, ?_⟩
      simp only [rank]
      omega
    | resumed b env =>
      obtain ⟨hc, hrest⟩ := hin.resume_comes load env.1 env.2
      exact Driven.resumed hopen hlen hc hrest
    | writeLost kind m =>
      exact ⟨Driven.leave hin hopen hlen trivial, by simp only [rank]; omega⟩
    | replyLost kind =>
      exact ⟨Driven.leave hin hopen hlen trivial, by simp only [rank]; omega⟩
    | resumeLost b =>
      exact ⟨Driven.leave hin hopen hlen trivial, by simp only [rank]; omega⟩
    | _ => exact absurd hhd id
  | ended hhd hpat hlen hrest =>
    cases hm with
    | wroteResponse m => exact ⟨.ended trivial hpat hlen hrest, by simp [rank]⟩
    | responseLost m => exact ⟨.ended trivial hpat hlen hrest, by simp [rank]⟩
    | restarted ok => exact ⟨.ended trivial hpat hlen nofun, by simp [rank]⟩
    | _ => exact absurd hhd id

end Step

/-! ## Every run -/

/-- The argument table of a launch, as the chaincode reads it. -/
theorem rowText_launch (wasm f : Bytes) (as : List Bytes) :
    rowText (argsOf (runParams wasm (packArguments f as))) 0 = clip 63 f ∧
      rowText (argsOf (runParams wasm (packArguments f as))) 1 = clip 63 (as.getD 0 []) := by
  rw [rowText_argsOf wasm f as (by omega), rowText_argsOf wasm f as (by omega),
    List.getD_cons_zero, List.getD_cons_succ]
  exact ⟨rfl, rfl⟩

/-- **Every invocation of the chaincode ends, with a fixed pattern of
requests, whatever the host replies.** For every function name and
arguments, every content of the shared buffer, and every failure: the
proxy loop comes to its end; at every point of it the TA has got a
RUN_WASM and at most two RESUME_WASM; the requests are none, a GET, or a
GET and a PUT with the same key; and the state machine is at rest. -/
theorem loop_ends_in_pattern (L : Layout) {load : Loader Globals} {wasm : Bytes}
    (hl : load wasm = some (coffee L)) (f : Bytes) (as : List Bytes) :
    Ends (Call.Fed (hostileTee load)) (fun c => ∃ st, c.handler = .finished st)
        (.launch .fresh wasm f as) ∧
      ∀ c, Relation.ReflTransGen (Call.Fed (hostileTee load)) (.launch .fresh wasm f as) c →
        c.tee.contents.length ≤ 2 ∧ c.tee.replies.length ≤ c.tee.contents.length + 1 ∧
        Pattern (clip 63 f) (clip 63 (as.getD 0 [])) c.tee.contents c.tee.requests ∧
        Resting (clip 63 (as.getD 0 [])) c.tee.run.ta := by
  obtain ⟨hrow0, hrow1⟩ := rowText_launch wasm f as
  have hkeep : ∀ c c' : Call (Hosted Globals), _ → _ → _ ∧ rank c' < rank c :=
    fun c c' h hf => Driven.step hl (packArguments f as) h hf
  refine ⟨Ends.of_rank rank hkeep (fun c _ hstop => ?_) .launch, fun c hrun => ?_⟩
  · by_contra hne
    obtain ⟨i, -, c', hf⟩ := Call.exists_feed (T := hostileTee load)
      (fun st hst => hne ⟨st, hst⟩) (Env.ok, [])
    exact hstop c' ⟨i, hf⟩
  · have hd := invariant_of_step (fun a b h hr => (hkeep a b h hr).1) hrun .launch
    rw [← hrow0, ← hrow1]
    generalize c.handler = hd at hd
    generalize c.tee = t at hd ⊢
    cases hd with
    | launch => exact ⟨Nat.zero_le _, Nat.zero_le _, .inl rfl, nofun⟩
    | waiting _ hin hopen hlen =>
      have hle := hopen.length_le
      refine ⟨by omega, by omega, ?_, hin.resting⟩
      simpa using hopen.pattern []
    | ended _ hpat hlen hrest => exact ⟨hlen.1, hlen.2, hpat, hrest⟩

/-- A `create` of the linked chaincode. -/
theorem loop_ends_in_pattern_create :
    Ends (Call.Fed (hostileTee linkedLoader)) (fun c => ∃ st, c.handler = .finished st)
      (.launch .fresh [] (ascii "create") [ascii "alice", ascii "7"]) := by
  have hl : linkedLoader [] = some (coffee linked) := rfl
  exact (loop_ends_in_pattern linked hl (ascii "create") [ascii "alice", ascii "7"]).1

end Coffee

end TeeChaincode
