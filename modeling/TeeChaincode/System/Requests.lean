import Mathlib.Data.List.Basic
import TeeChaincode.Proxy.Calls
import TeeChaincode.System.Conformance
import TeeChaincode.Ta.Executed

/-!
# The requests of a module and those the TA emits

A state call does not suspend the module: it records its request in the
one pending slot of the session, and the slot is emptied when the command
returns. So a command emits the last request its steps made, where they
succeeded. Over a run, the requests emitted are the state calls made as
long as every command makes at most one, and none of its steps fails if
it makes one.
-/

namespace TeeChaincode

open Common

variable {σ : Type} {load : Loader σ} {files : Bytes → Option Bytes}

/-! ## One command -/

/-- The request a handler is about to write. -/
def Handler.requested : Handler → Option Request
  | .writeRequest _ m => m.request
  | _ => none

theorem request_eq_requested (r : TeeReply) : r.request = (dispatchReply r).requested := by
  unfold TeeReply.request dispatchReply
  by_cases hres : r.result ≠ .success
  · rw [if_pos hres, if_pos hres]
    rfl
  rw [if_neg hres, if_neg hres]
  by_cases h0 : r.valueA = invocationResponse
  · rw [if_pos h0, h0, if_neg (by decide), if_neg (by decide)]
    rfl
  rw [if_neg h0]
  split
  · rfl
  split
  · rfl
  · rfl

theorem requested_handler (a : Ask) : a.handler.requested = a.request := by
  cases a <;> rfl

/-- The request of a command that is answered is the one its answer
carries. -/
theorem request_of_params {r : Reply σ} {p : Params} {a : Ask} (hres : r.result = .success)
    (hp : r.params = p.ask a) (ha : a.Fits) : r.tee.request = a.request := by
  rw [request_eq_requested, dispatchReply_of_params hres hp ha, requested_handler]

/-- The steps of a command in which no request can be lost: their calls
are valid, they make at most one request, and if they make one, none of
them fails. -/
structure OneRequest (steps : List (StepTrace σ)) : Prop where
  valid : ∀ c ∈ callsOf steps, c.1.Valid c.2.mem
  one : (requests (callsOf steps)).length ≤ 1
  ok : requests (callsOf steps) ≠ [] → ∀ tr ∈ steps, tr.ended.ok = true

theorem oneRequest_nil : OneRequest ([] : List (StepTrace σ)) :=
  ⟨nofun, by simp [callsOf, requests], fun _ => nofun⟩

theorem toList_getLast? {α : Type} {l : List α} (h : l.length ≤ 1) : l.getLast?.toList = l := by
  match l, h with
  | [], _ => rfl
  | [a], _ => rfl

/-- **A command emits the one request its steps make.** -/
theorem Executed.emits {s : Session} {p : Params} {r : Reply σ} (h : Executed s p r)
    (hs : s.pendingType = .none) (hone : OneRequest r.steps) :
    r.tee.request.toList = requests (callsOf r.steps) := by
  obtain ⟨hvalid, hlen, hok⟩ := hone
  cases h with
  | failed hres hsteps =>
    have hnone : r.tee.request = none := by
      unfold TeeReply.request Reply.tee
      rw [if_pos hres]
    rw [hnone]
    -- a step of a failed command is a failed step, and makes no request
    by_contra hne
    cases hst : r.steps with
    | nil =>
      rw [hst] at hne
      exact hne rfl
    | cons tr rest =>
      have htr : tr ∈ r.steps := by rw [hst]; exact List.mem_cons_self
      have := hok (fun h => hne h.symm) tr htr
      rw [(hsteps tr htr).2] at this
      exact absurd this (by decide)
  | answered init last hres hsteps _ _ _ _ hparams =>
    rw [request_of_params hres hparams (fits_answer _ last)]
    cases hl : last.ended.ok with
    | true =>
      have hreq := request_after hvalid s
      have hpend : s.request = none := by rw [Session.request, hs]
      rw [hpend, Option.or_none] at hreq
      rw [if_pos rfl, request_asked, hreq, toList_getLast? hlen]
    | false =>
      by_contra hne
      have hmem : last ∈ r.steps := by rw [hsteps]; simp
      have := hok (fun h => hne h.symm) last hmem
      rw [hl] at this
      exact absurd this (by decide)

/-! ## Runs -/

/-- The state calls of a list of steps whose ranges are valid, in
order. -/
def stateCalls (steps : List (StepTrace σ)) : List Request :=
  (callsOf steps).filterMap fun c => if c.1.Valid c.2.mem then c.1.request c.2.mem else none

theorem stateCalls_append (steps new : List (StepTrace σ)) :
    stateCalls (steps ++ new) = stateCalls steps ++ stateCalls new := by
  simp only [stateCalls, callsOf, List.flatMap_append, List.filterMap_append]

/-- Where every call is valid, these are all state calls. -/
theorem stateCalls_of_valid {steps : List (StepTrace σ)}
    (h : ∀ c ∈ callsOf steps, c.1.Valid c.2.mem) : stateCalls steps = requests (callsOf steps) :=
  List.filterMap_congr fun c hc => if_pos (h c hc)

/-- The command a handler is about to give, with a reply to it. -/
inductive TeeCommand (load : Loader σ) (ta : Ta σ) (r : Reply σ) : Handler → Prop
  | run (wasm buf : Bytes) (env : Env)
      (h : r = invokeCommandEntryPoint load ta .runWasm (runParams wasm buf) env) :
      TeeCommand load ta r (.run wasm buf)
  | resume (buf : Bytes) (env : Env)
      (h : r = invokeCommandEntryPoint load ta .resumeWasm (resumeParams buf) env) :
      TeeCommand load ta r (.resume buf)

/-- It starts from a session in which nothing is pending. -/
theorem TeeCommand.executed {ta : Ta σ} {r : Reply σ} {hd : Handler} (h : TeeCommand load ta r hd)
    (hfresh : hd.stage = .arriving → ta = initializeSession) :
    ∃ s₀ p, s₀.pendingType = .none ∧ Executed s₀ p r := by
  cases h with
  | run wasm buf env hr =>
    subst hr
    exact ⟨_, _, rfl, executed_run load (hfresh rfl) env wasm buf⟩
  | resume buf env hr =>
    subst hr
    obtain ⟨s₀, hs₀, hex⟩ := executed_resume load ta env buf
    exact ⟨s₀, _, hs₀.1, hex⟩

/-- **A step of the system as the TEE sees it**: a command, or a step that
leaves it alone, and by which the handler comes neither to its RUN_WASM
nor into the loop. -/
inductive TaStep (load : Loader σ) (s s' : Sys (TaRun σ)) : Prop
  | off (hsteps : s'.tee.steps = s.tee.steps) (hreqs : teeRequests s'.trace = teeRequests s.trace)
      (hfresh : s'.handler.stage = .arriving → s.handler.stage = .arriving ∧ s'.tee = s.tee)
      (hwaits : s'.handler.Waits → s.handler.Waits ∧ s'.tee = s.tee)
  | command {r : Reply σ} (hr : TeeCommand load s.tee.ta r s.handler)
      (hreqs : teeRequests s'.trace = teeRequests s.trace ++ r.tee.request.toList)
      (htee : s'.tee = ⟨r.ta, s.tee.steps ++ r.steps⟩) (hhd : s'.handler = dispatchReply r.tee)

theorem taStep_of_step {s s' : Sys (TaRun σ)} (h : Step (taTee load) files s s') :
    TaStep load s s' := by
  have hsame : ∀ evs, teeRequests evs = [] →
      teeRequests (s.trace ++ evs) = teeRequests s.trace := by
    intro evs hevs
    rw [teeRequests_append, hevs, List.append_nil]
  cases h with
  | wrapper fail hm =>
    obtain ⟨w, evs, sent, down, stub, hmove, rfl⟩ := wrapperMove_cases hm
    obtain ⟨-, -, -, hevs, -⟩ := hmove.events
    exact .off rfl (hsame evs hevs) (fun ha => ⟨ha, rfl⟩) fun hw => ⟨hw, rfl⟩
  | proxy c hm =>
    obtain ⟨hd, t, evs, up, sent, hmove, rfl⟩ := proxyMove_cases hm
    generalize hhd : s.handler = hd₀ at hmove
    cases hmove with
    | ran wasm buf env =>
      refine .command (hhd ▸ .run wasm buf env rfl) ?_ rfl rfl
      exact (teeRequests_append ..).trans (congrArg _ (teeRequests_replied _))
    | resumed buf env =>
      refine .command (hhd ▸ .resume buf env rfl) ?_ rfl rfl
      exact (teeRequests_append ..).trans (congrArg _ (teeRequests_replied _))
    | gotRequest m rest _ => exact .off rfl (hsame _ rfl) (fun _ => ⟨by rw [hhd]; rfl, rfl⟩) nofun
    | file req wasm => exact .off rfl (hsame _ rfl) (fun _ => ⟨by rw [hhd]; rfl, rfl⟩) nofun
    | wroteRequest kind m =>
      exact .off rfl (hsame _ rfl) nofun fun _ => ⟨by rw [hhd]; trivial, rfl⟩
    | gotReply kind m rest _ =>
      exact .off rfl (hsame _ rfl) nofun fun _ => ⟨by rw [hhd]; trivial, rfl⟩
    | _ => exact .off rfl (hsame _ rfl) nofun nofun

theorem dispatchReply_not_arriving (r : TeeReply) : (dispatchReply r).stage ≠ .arriving := by
  rcases dispatchReply_stage r with hst | hst
  · rw [hst]
    decide
  · rw [hst]
    decide

/-- Up to its RUN_WASM a handler finds the session fresh. -/
theorem TaStep.fresh {s s' : Sys (TaRun σ)} (h : TaStep load s s')
    (hs : s.handler.stage = .arriving → s.tee.ta = initializeSession) :
    s'.handler.stage = .arriving → s'.tee.ta = initializeSession := by
  intro ha
  cases h with
  | off _ _ hfresh _ =>
    obtain ⟨harr, htee⟩ := hfresh ha
    rw [htee]
    exact hs harr
  | command _ _ _ hhd =>
    rw [hhd] at ha
    exact absurd ha (dispatchReply_not_arriving _)

/-- A step of the system in which no request can be lost. -/
def OneRequestStep (load : Loader σ) (files : Bytes → Option Bytes) (s s' : Sys (TaRun σ)) : Prop :=
  Step (taTee load) files s s' ∧
    ∃ new, s'.tee.steps = s.tee.steps ++ new ∧ OneRequest new

/-- **Nothing has been lost**: the requests emitted are the state calls
made, and the session is fresh up to RUN_WASM. -/
structure Forwarded (s : Sys (TaRun σ)) : Prop where
  requests : teeRequests s.trace = stateCalls s.tee.steps
  fresh : s.handler.stage = .arriving → s.tee.ta = initializeSession

theorem Forwarded.step {s s' : Sys (TaRun σ)} (h : Forwarded s) (hst : TaStep load s s')
    (hone : ∀ new, s'.tee.steps = s.tee.steps ++ new → OneRequest new) : Forwarded s' := by
  refine ⟨?_, hst.fresh h.fresh⟩
  cases hst with
  | off hsteps hreqs _ _ => rw [hreqs, hsteps, h.requests]
  | @command r hr hreqs htee _ =>
    have hnew := hone r.steps (by rw [htee])
    obtain ⟨s₀, p, hs₀, hex⟩ := hr.executed h.fresh
    rw [hreqs, hex.emits hs₀ hnew, h.requests, htee, stateCalls_append,
      stateCalls_of_valid hnew.valid]

/-- **A step in which no request can be lost loses none.** -/
theorem OneRequestStep.forwarded {s s' : Sys (TaRun σ)} (hstep : OneRequestStep load files s s')
    (h : Forwarded s) : Forwarded s' := by
  obtain ⟨hst, new, hnew, hone⟩ := hstep
  refine h.step (taStep_of_step hst) fun new' hnew' => ?_
  obtain rfl := List.append_cancel_left (hnew.symm.trans hnew')
  exact hone

/-- **No request is lost where every command makes at most one.** In every
run of an invocation in which the calls of the module are valid, each TEE
command makes at most one state call, and a command that makes one has no
failing step, the requests the TA emitted are the state calls the module
made, in order. -/
theorem requests_forwarded (load : Loader σ) (files : Bytes → Option Bytes) (uuid ccfile : Bytes)
    (args : List Bytes) (l : Ledger) {s : Sys (TaRun σ)}
    (h : Relation.ReflTransGen (OneRequestStep load files)
      (Sys.init freshRun uuid ccfile args l) s) :
    teeRequests s.trace = stateCalls s.tee.steps := by
  have h₀ : Forwarded (Sys.init (freshRun : TaRun σ) uuid ccfile args l) :=
    ⟨rfl, fun _ => rfl⟩
  exact (invariant_of_step (fun _ _ ha hstep => hstep.forwarded ha) h h₀).requests

/-! ## Two runs -/

/-- The moves of an invocation up to the reply to its RUN_WASM. -/
def upToRun : List (Move Env) :=
  [.wrapper none, .wrapper none, .proxy ⟨false, Env.ok⟩, .proxy ⟨false, Env.ok⟩,
    .proxy ⟨false, Env.ok⟩]

/-- A module that makes two PUT requests in its first step. -/
def twoPuts : Loader ℕ := fun _ => some <| scripted (ascii "ab") fun _ =>
  ⟨[.ccPutState 0 1 0 1, .ccPutState 1 1 1 1], none⟩

/-- The first of them is lost. -/
theorem twoPuts_loses_one :
    ∃ s, Relation.ReflTransGen (Step (taTee twoPuts) fun _ => some smallestWasm)
        (Sys.init freshRun [] [] [[], []] fun _ => none) s ∧
      stateCalls s.tee.steps =
        [.put (ascii "a") (ascii "a"), .put (ascii "b") (ascii "b")] ∧
      teeRequests s.trace = [.put (ascii "b") (ascii "b")] ∧
      teeRequests s.trace ≠ stateCalls s.tee.steps := by
  have hrun : ((Sys.init freshRun [] [] [[], []] fun _ => none).moves
      (taTee twoPuts) (fun _ => some smallestWasm) upToRun).map
        (fun s => (stateCalls s.tee.steps, teeRequests s.trace)) =
      some ([.put (ascii "a") (ascii "a"), .put (ascii "b") (ascii "b")],
        [.put (ascii "b") (ascii "b")]) := by
    decide +kernel
  rw [Option.map_eq_some_iff] at hrun
  obtain ⟨s, hs, heq⟩ := hrun
  rw [Prod.mk.injEq] at heq
  refine ⟨s, reaches_of_sysMoves (fun _ _ _ => step_of_move) hs, heq.1, heq.2, ?_⟩
  rw [heq.1, heq.2]
  decide

/-- A module that makes one. -/
def onePut : Loader ℕ := fun _ => some <| scripted (ascii "ab") fun _ =>
  ⟨[.ccPutState 0 1 1 1], none⟩

theorem requests_forwarded_onePut :
    ∃ s, Relation.ReflTransGen (OneRequestStep onePut fun _ => some smallestWasm)
        (Sys.init freshRun [] [] [[], []] fun _ => none) s ∧
      stateCalls s.tee.steps = [.put (ascii "a") (ascii "b")] ∧
      teeRequests s.trace = stateCalls s.tee.steps := by
  have hrun : ∃ s, Relation.ReflTransGen (OneRequestStep onePut fun _ => some smallestWasm)
        (Sys.init freshRun [] [] [[], []] fun _ => none) s ∧
      stateCalls s.tee.steps = [.put (ascii "a") (ascii "b")] := by
    refine ⟨_, .head ⟨.wrapper none rfl, [], rfl, oneRequest_nil⟩ <|
      .head ⟨.wrapper none rfl, [], rfl, oneRequest_nil⟩ <|
      .head ⟨.proxy ⟨false, Env.ok⟩ rfl, [], rfl, oneRequest_nil⟩ <|
      .head ⟨.proxy ⟨false, Env.ok⟩ rfl, [], rfl, oneRequest_nil⟩ <|
      .head ⟨.proxy ⟨false, Env.ok⟩ rfl, _, rfl, ?_⟩ .refl, ?_⟩
    · exact ⟨by decide +kernel, by decide +kernel, fun _ => by decide +kernel⟩
    · decide +kernel
  obtain ⟨s, hs, hcalls⟩ := hrun
  exact ⟨s, hs, hcalls, requests_forwarded _ _ _ _ _ _ hs⟩

end TeeChaincode
