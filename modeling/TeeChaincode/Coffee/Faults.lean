import TeeChaincode.Coffee.Keys
import TeeChaincode.System.Direct
import TeeChaincode.System.Responses
import TeeChaincode.System.Snapshot

/-!
# Invocations in which calls fail

Any call of wrapper or proxy may fail, at any point, and WAMR may find no
environment for a step. What an invocation of the chaincode has put into
the write set is then nothing, or all that the operation writes: there is
no third ledger. And a success is the operation in full, but for one text:
where a step cannot run, the TA answers RUNTIME_ERROR, which the client
sees as a success, with or without the write. So a history with failures
leaves the ledger of a history without, in which some of its operations
are missing.

The proof follows the TEE's replies. As long as one comes, it is the
machine's answer to the ledger, since the proxy resumes the TEE with
nothing else.
-/

namespace TeeChaincode

open Common

namespace Coffee

variable {L : Layout} {load : Loader Globals} {files : Bytes → Option Bytes}
variable {args : Buf sizeofArguments} {ph : Phase} {l : Ledger} {contents : List Bytes}
variable {reqs : List Request} {s s' : Sys (TaRun Globals)} {x : Bytes}

/-! ## The machine on the ledger -/

/-- The machine waits for a reply, and has been resumed with the ledger's
value. -/
structure Heard (args : Buf sizeofArguments) (l : Ledger) (ph : Phase) (contents : List Bytes)
    (reqs : List Request) : Prop where
  waits : Open args ph contents reqs
  values : ∀ b ∈ contents, bufferValue b = stored l (rowText args 1)

/-- The requests of an invocation so far. -/
def Requests (args : Buf sizeofArguments) (l : Ledger) (reqs : List Request) : Prop :=
  reqs = [] ∨ ∃ ph contents, Heard args l ph contents reqs

/-- **What the TEE may answer** behind its requests. -/
inductive Says (args : Buf sizeofArguments) (l : Ledger) (reqs : List Request) (x : Bytes) : Prop
  /-- The next step could not run. -/
  | unable (h : Requests args l reqs) (hx : x = ascii "RUNTIME_ERROR")
  /-- The function is unknown. -/
  | atOnce {ph : Phase} (hr : reqs = []) (h : stepOn args .idle [] = (ph, .answer x))
  | behind {ph ph' : Phase} {contents : List Bytes} {b : Bytes} (h : Heard args l ph contents reqs)
      (hb : contents = [] → bufferValue b = stored l (rowText args 1))
      (hx : stepOn args ph (bufferValue b) = (ph', .answer x))

/-- The first step asks for the person's record, or answers. -/
theorem stepOn_idle (args : Buf sizeofArguments) :
    (∃ ph, stepOn args .idle [] = (ph, .get (rowText args 1))) ∨
      ∃ ph x, stepOn args .idle [] = (ph, .answer x) := by
  simp only [stepOn, Phase.next, Phase.start]
  split
  · exact .inl ⟨_, rfl⟩
  split
  · exact .inl ⟨_, rfl⟩
  split
  · exact .inl ⟨_, rfl⟩
  · exact .inr ⟨_, _, rfl⟩

/-- **A reply of the ledger** takes the machine to its write, or to its
answer. -/
theorem Heard.next (h : Heard args l ph contents reqs) {b : Bytes}
    (hb : contents = [] → bufferValue b = stored l (rowText args 1)) :
    (∃ ph' v, stepOn args ph (bufferValue b) = (ph', .put (rowText args 1) v) ∧
        Heard args l ph' (contents ++ [b]) (reqs ++ [.put (rowText args 1) v])) ∨
      ∃ ph' x, stepOn args ph (bufferValue b) = (ph', .answer x) ∧ Says args l reqs x := by
  rcases h.waits.next b with ⟨ph', v, hput, hopen⟩ | ⟨ph', x, hans⟩
  · -- there is one write, so this is the first reply
    have hnil : contents = [] := by
      have hlen := hopen.length_le
      rw [List.length_append, List.length_singleton] at hlen
      exact List.length_eq_zero_iff.1 (by omega)
    refine .inl ⟨ph', v, hput, hopen, fun b' hb' => ?_⟩
    rw [hnil, List.nil_append, List.mem_singleton] at hb'
    rw [hb']
    exact hb hnil
  · exact .inr ⟨ph', x, hans, .behind h hb hans⟩

/-! ## Runs -/

/-- **What holds in every run**, whatever fails: the TEE's requests are
the machine's on the ledger, and so is a response wherever it is. -/
structure Plays (L : Layout) (args : Buf sizeofArguments) (l : Ledger)
    (s : Sys (TaRun Globals)) : Prop where
  fresh : s.handler.stage = .arriving → s.tee.ta = initializeSession ∧ teeRequests s.trace = []
  requests : Requests args l (teeRequests s.trace)
  waits : s.handler.Waits → ∃ ph contents, InPhase L args ph s.tee.ta ∧
    Heard args l ph contents (teeRequests s.trace)
  answers : ∀ x, s.Answers x → Says args l (teeRequests s.trace) x

/-- A step that leaves the TEE alone. -/
theorem Plays.off (h : Plays L args l s) (hreqs : teeRequests s'.trace = teeRequests s.trace)
    (hfresh : s'.handler.stage = .arriving → s.handler.stage = .arriving ∧ s'.tee = s.tee)
    (hwaits : s'.handler.Waits → s.handler.Waits ∧ s'.tee = s.tee)
    (hans : ∀ x, s'.Answers x → s.Answers x) : Plays L args l s' := by
  refine ⟨fun ha => ?_, by rw [hreqs]; exact h.requests, fun hw => ?_, fun x hx => ?_⟩
  · obtain ⟨ha', htee⟩ := hfresh ha
    rw [hreqs, htee]
    exact h.fresh ha'
  · obtain ⟨hw', htee⟩ := hwaits hw
    rw [hreqs, htee]
    exact h.waits hw'
  · rw [hreqs]
    exact h.answers x (hans x hx)

/-- **A command of the TEE**: the machine's next step on the ledger, or
one that could not run. -/
theorem Comes.plays {next : Phase × Ask} {r : TeeReply} {ta : Ta Globals}
    (h : Comes L args next r ta) (hreq : Requests args l reqs)
    (hnext : (∃ q contents, next.2.request = some q ∧
        Heard args l next.1 contents (reqs ++ [q])) ∨
      ∃ x, next.2 = .answer x ∧ Says args l reqs x) :
    Requests args l (reqs ++ r.request.toList) ∧
      ((dispatchReply r).Waits → ∃ ph contents, InPhase L args ph ta ∧
        Heard args l ph contents (reqs ++ r.request.toList)) ∧
      ∀ x, dispatchReply r = .writeResponse (.invocationResponse x) →
        Says args l (reqs ++ r.request.toList) x := by
  rw [request_eq_requested]
  cases h with
  | unable hr =>
    rw [hr]
    refine ⟨?_, fun hw => absurd hw id, fun x hx => ?_⟩
    · rw [show (Handler.writeResponse _).requested.toList = [] from rfl, List.append_nil]
      exact hreq
    · obtain rfl : ascii "RUNTIME_ERROR" = x := by simpa using hx
      rw [show (Handler.writeResponse _).requested.toList = [] from rfl, List.append_nil]
      exact .unable hreq rfl
  | moved hr hin =>
    rw [hr, requested_handler]
    rcases hnext with ⟨q, contents, hq, hheard⟩ | ⟨x, hx, hsays⟩
    · rw [hq]
      refine ⟨.inr ⟨_, _, hheard⟩, fun _ => ⟨_, _, hin, hheard⟩, fun x hx => ?_⟩
      cases ha : next.2 with
      | get key =>
        rw [ha] at hx
        cases hx
      | put key value =>
        rw [ha] at hx
        cases hx
      | answer text =>
        rw [ha] at hq
        cases hq
    · rw [hx]
      refine ⟨?_, fun hw => absurd hw id, fun y hy => ?_⟩
      · rw [show (Ask.answer x).request.toList = [] from rfl, List.append_nil]
        exact hreq
      · obtain rfl : x = y := by simpa [Ask.handler] using hy
        rw [show (Ask.answer x).request.toList = [] from rfl, List.append_nil]
        exact hsays

/-- What the command leads to. -/
theorem Plays.command (hex : Exchange l s) (hh : ¬ s.handler.Ended) (r : TeeReply)
    (t : TaRun Globals) (up : List WrapperMessage)
    (hreq : Requests args l (teeRequests s.trace ++ r.request.toList))
    (hwaits : (dispatchReply r).Waits → ∃ ph contents, InPhase L args ph t.ta ∧
      Heard args l ph contents (teeRequests s.trace ++ r.request.toList))
    (hans : ∀ x, dispatchReply r = .writeResponse (.invocationResponse x) →
      Says args l (teeRequests s.trace ++ r.request.toList) x) :
    Plays L args l { s.log (repliedEvents r) with
      handler := dispatchReply r, tee := t, up := up, down := s.down ++ [] } := by
  have hreqs : teeRequests (s.trace ++ repliedEvents r) =
      teeRequests s.trace ++ r.request.toList :=
    (teeRequests_append ..).trans (congrArg _ (teeRequests_replied r))
  refine ⟨fun ha => absurd ha (dispatchReply_not_arriving r), ?_, fun hw => ?_, fun x hx => ?_⟩
  · exact hreqs ▸ hreq
  · exact hreqs ▸ hwaits hw
  · -- the handler was at work, so there is no other response
    obtain ⟨hdown, hwrapper⟩ := hex.talk.unanswered (x := x) hh
    rcases hx with hx | hx | hx
    · exact hreqs ▸ hans x hx
    · exact absurd (by simpa using hx) hdown
    · exact absurd hx hwrapper

/-- **Every step keeps it.** -/
theorem Plays.step (h : Plays L args l s) (hex : Exchange l s)
    (hst : Step (taTee load) files s s')
    (hrun : ∀ wasm buf, s.handler = .run wasm buf →
      load wasm = some (coffee L) ∧ argsOf (runParams wasm buf) = args) : Plays L args l s' := by
  cases hst with
  | wrapper fail hm =>
    have hans := fun x => answers_of_wrapper (x := x) hm
    obtain ⟨w, evs, sent, down, stub, hmove, rfl⟩ := wrapperMove_cases hm
    obtain ⟨-, -, -, hevs, -⟩ := hmove.events
    refine h.off ?_ (fun ha => ⟨ha, rfl⟩) (fun hw => ⟨hw, rfl⟩) hans
    exact (teeRequests_append ..).trans (by rw [hevs, List.append_nil])
  | proxy c hm =>
    obtain ⟨hd, t, evs, up, sent, hmove, rfl⟩ := proxyMove_cases hm
    have hsame : teeRequests evs = [] → teeRequests (s.trace ++ evs) = teeRequests s.trace := by
      intro hevs
      rw [teeRequests_append, hevs, List.append_nil]
    generalize hhd : s.handler = hd₀ at hmove
    cases hmove with
    | ran wasm buf env =>
      obtain ⟨hl, rfl⟩ := hrun wasm buf hhd
      obtain ⟨hta, hnil⟩ := h.fresh (by rw [hhd]; rfl)
      have hne : ¬ s.handler.Ended := by rw [hhd]; exact id
      obtain ⟨hcomes, -⟩ := run_comes (L := L) hl hta env buf
      rcases hcomes with ⟨-, hfail⟩ | ⟨-, hcomes⟩
      · -- the command failed
        have hnone : ((taTee load).run s.tee env wasm buf).1.request = none := by
          rw [request_eq_requested, hfail]
          rfl
        refine Plays.command hex hne _ _ _ ?_ (fun hw => ?_) fun x hx => ?_
        · rw [hnone, Option.toList_none, List.append_nil]
          exact h.requests
        · rw [hfail] at hw
          exact absurd hw id
        · rw [hfail] at hx
          cases hx
      · obtain ⟨hreq, hwaits, hans⟩ := hcomes.plays h.requests (by
          rw [hnil]
          rcases stepOn_idle (argsOf (runParams wasm buf)) with ⟨ph, hget⟩ | ⟨ph, x, hans⟩
          · rw [hget]
            exact .inl ⟨_, [], rfl, .asked hget, nofun⟩
          · rw [hans]
            exact .inr ⟨x, rfl, .atOnce rfl hans⟩)
        exact Plays.command hex hne _ _ _ hreq hwaits hans
    | resumed buf env =>
      have hne : ¬ s.handler.Ended := by rw [hhd]; exact id
      obtain ⟨ph, contents, hin, hheard⟩ := h.waits (by rw [hhd]; trivial)
      obtain ⟨q, hlast, rfl⟩ := hex.resume hhd
      obtain ⟨hcomes, -⟩ := hin.resume_comes load env (writeReply q.kind (replyTo l q))
      -- the reply to the first request is the ledger's value
      have hvalue : contents = [] →
          bufferValue (writeReply q.kind (replyTo l q)) = stored l (rowText args 1) := by
        intro hnil
        have hopen := hheard.waits
        rw [hnil] at hopen
        generalize teeRequests s.trace = reqs at hopen hlast
        cases hopen with
        | asked _ =>
          obtain rfl := Option.some.inj hlast
          exact clip_writeReply_get _
      obtain ⟨hreq, hwaits, hans⟩ := hcomes.plays h.requests (by
        rcases hheard.next hvalue with ⟨ph', v, hput, hheard'⟩ | ⟨ph', x, hans, hsays⟩
        · rw [hput]
          exact .inl ⟨_, _, rfl, hheard'⟩
        · rw [hans]
          exact .inr ⟨x, rfl, hsays⟩)
      exact Plays.command hex hne _ _ _ hreq hwaits hans
    | wroteResponse m =>
      refine h.off (hsame rfl) nofun nofun fun x hx => ?_
      rcases hx with hx | hx | hx
      · cases hx
      · rcases List.mem_append.1 hx with hx | hx
        · exact .inr (.inl hx)
        · exact .inl (by rw [hhd, List.mem_singleton.1 hx])
      · exact .inr (.inr hx)
    | wroteRequest kind m =>
      refine h.off (hsame rfl) nofun (fun _ => ⟨by rw [hhd]; trivial, rfl⟩) fun x hx => ?_
      refine answers_of_proxy hx nofun ?_
      rw [List.mem_singleton]
      exact fun he => hex.writesRequest hhd he.symm
    | gotReply kind m rest _ =>
      exact h.off (hsame rfl) nofun (fun _ => ⟨by rw [hhd]; trivial, rfl⟩)
        fun x hx => answers_of_proxy hx nofun List.not_mem_nil
    | gotRequest m rest _ =>
      exact h.off (hsame rfl) (fun _ => ⟨by rw [hhd]; rfl, rfl⟩) nofun
        fun x hx => answers_of_proxy hx nofun List.not_mem_nil
    | file req wasm =>
      exact h.off (hsame rfl) (fun _ => ⟨by rw [hhd]; rfl, rfl⟩) nofun
        fun x hx => answers_of_proxy hx nofun List.not_mem_nil
    | _ =>
      exact h.off (hsame rfl) nofun nofun
        fun x hx => answers_of_proxy hx nofun List.not_mem_nil

/-! ## What is left of an invocation -/

/-- The table holds an operation's strings. -/
structure Carries (args : Buf sizeofArguments) (i : Operation) : Prop where
  fn : rowText args 0 = clip 63 i.fn
  key : rowText args 1 = i.key
  amount : rowText args 2 = i.amount

variable {i : Operation}

/-- The phase an operation opens in is meant for it. -/
theorem meant_of_asked (hc : Carries args i)
    (h : stepOn args .idle [] = (ph, .get (rowText args 1))) :
    ph.Meant (clip 63 i.fn) i.key := by
  rw [stepOn, Phase.next, Phase.start, hc.fn, hc.key] at h
  split at h
  · next hf =>
    obtain ⟨h, -⟩ := Prod.mk.inj h
    split at h
    · next hp =>
      subst h
      exact ⟨hf, hp⟩
    · next hp =>
      subst h
      exact ⟨hf, hp⟩
  split at h
  · next hf =>
    obtain ⟨rfl, -⟩ := Prod.mk.inj h
    exact hf
  split at h
  · next hf =>
    obtain ⟨rfl, -⟩ := Prod.mk.inj h
    exact hf
  · cases (Prod.mk.inj h).2

/-- The specification, by the phase that has heard the ledger's value. -/
theorem outcome_of_phase (hc : Carries args i)
    (h : stepOn args .idle [] = (ph, .get (rowText args 1))) (l : Ledger) :
    (∃ ph' v, stepOn args ph (stored l i.key) = (ph', .put i.key v) ∧
        outcome l i = (Lit.ok.text, Function.update l i.key (some v))) ∨
      ∃ ph' x, stepOn args ph (stored l i.key) = (ph', .answer x) ∧ outcome l i = (x, l) := by
  have hm := meant_of_asked hc h
  have hstep : ∀ ph, stepOn args ph (stored l i.key) =
      ph.next (clip 63 i.fn) i.key i.amount (stored l i.key) := by
    intro ph
    rw [stepOn, hc.fn, hc.key, hc.amount]
  rw [hstep]
  rcases open_phases h with rfl | ⟨rfl, -⟩ | ⟨rfl, -⟩ | ⟨rfl, -⟩
  · exact .inr ⟨_, _, rfl, if_pos hm⟩
  · rw [outcome, if_neg fun hn => hm.2 hn.2, spec, if_pos hm.1, Phase.next]
    by_cases hv : stored l i.key = []
    · rw [if_pos hv, if_neg (not_not.2 hv)]
      exact .inl ⟨_, _, rfl, rfl⟩
    · rw [if_neg hv, if_pos hv]
      exact .inr ⟨_, _, rfl, rfl⟩
  · have hf : clip 63 i.fn = Lit.add.text := hm
    rw [outcome, spec, hf, if_neg fun hn => absurd hn.1 (by decide), if_neg (by decide), if_pos rfl,
      Phase.next]
    by_cases hv : stored l i.key = []
    · rw [if_pos hv, if_pos hv]
      exact .inr ⟨_, _, rfl, rfl⟩
    · rw [if_neg hv, if_neg hv]
      exact .inl ⟨_, _, rfl, rfl⟩
  · have hf : clip 63 i.fn = Lit.query.text := hm
    rw [outcome, spec, hf, if_neg fun hn => absurd hn.1 (by decide), if_neg (by decide),
      if_neg (by decide), if_pos rfl, Phase.next]
    exact .inr ⟨_, _, rfl, rfl⟩

/-- **Where the machine waits**: it has asked for the record, or it has
put what the operation writes and will answer OK. -/
theorem Heard.cases (hc : Carries args i) (h : Heard args l ph contents reqs) :
    (contents = [] ∧ reqs = [.get i.key] ∧ stepOn args .idle [] = (ph, .get (rowText args 1))) ∨
      ∃ v, reqs = [.get i.key, .put i.key v] ∧
        outcome l i = (Lit.ok.text, Function.update l i.key (some v)) ∧
        ∀ w, (stepOn args ph w).2 = .answer Lit.ok.text := by
  obtain ⟨hopen, hvalues⟩ := h
  cases hopen with
  | asked h => exact .inl ⟨rfl, by rw [hc.key], h⟩
  | @wrote ph₀ _ b v h hput =>
    cases h with
    | asked h =>
      have hb := hvalues b List.mem_cons_self
      rcases stepOn_asked h b with ⟨ph', v', hph, hput', -⟩ | ⟨ph', x, hans⟩
      · rw [hb, hc.key] at hput
        refine .inr ⟨v, by rw [hc.key], ?_, fun w => ?_⟩
        · rcases outcome_of_phase hc h l with ⟨ph'', v'', hstep, hout⟩ | ⟨ph'', x, hstep, -⟩
          · obtain ⟨-, hv⟩ := Prod.mk.inj (hput.symm.trans hstep)
            obtain ⟨-, rfl⟩ := Ask.put.inj hv
            exact hout
          · cases (Prod.mk.inj (hput.symm.trans hstep)).2
        · rw [hb, hc.key] at hput'
          obtain ⟨rfl, -⟩ := Prod.mk.inj (hput.symm.trans hput')
          rcases hph with rfl | rfl <;> rfl
      · cases (Prod.mk.inj (hput.symm.trans hans)).2

/-- The ledger with the writes of a list of requests. -/
def written (l : Ledger) (reqs : List Request) : Ledger := (⟨l, putsOf reqs⟩ : Stub).commit

/-- **What has been put** is nothing, or all the operation writes. -/
theorem Requests.puts (hc : Carries args i) (h : Requests args l reqs) :
    putsOf reqs = [] ∨ ∃ w, putsOf reqs = [w] ∧ written l reqs = (outcome l i).2 := by
  rcases h with rfl | ⟨ph, contents, h⟩
  · exact .inl rfl
  rcases h.cases hc with ⟨-, rfl, -⟩ | ⟨v, rfl, hout, -⟩
  · exact .inl rfl
  · refine .inr ⟨(i.key, v), rfl, ?_⟩
    rw [hout]
    rfl

/-- **What is answered** is the operation's answer to the writes made, or
that a step could not run. -/
theorem Says.outcome (hc : Carries args i) (h : Says args l reqs x) :
    x = ascii "RUNTIME_ERROR" ∨ (x, written l reqs) = outcome l i := by
  cases h with
  | unable _ hx => exact .inl hx
  | atOnce hr h =>
    right
    subst hr
    rw [stepOn, Phase.next, Phase.start, hc.fn] at h
    split at h
    · cases (Prod.mk.inj h).2
    next hcreate =>
    split at h
    · cases (Prod.mk.inj h).2
    next hadd =>
    split at h
    · cases (Prod.mk.inj h).2
    next hquery =>
    obtain ⟨-, hx⟩ := Prod.mk.inj h
    obtain rfl := Ask.answer.inj hx
    rw [Coffee.outcome, if_neg fun hn => hcreate hn.1, spec, if_neg hcreate, if_neg hadd,
      if_neg hquery]
    rfl
  | @behind ph ph' contents b h hb hx =>
    right
    rcases h.cases hc with ⟨hnil, rfl, hget⟩ | ⟨v, rfl, hout, hok⟩
    · rw [hb hnil, hc.key] at hx
      rcases outcome_of_phase hc hget l with ⟨ph'', v, hstep, -⟩ | ⟨ph'', y, hstep, hout⟩
      · cases (Prod.mk.inj (hx.symm.trans hstep)).2
      · obtain rfl := Ask.answer.inj (Prod.mk.inj (hx.symm.trans hstep)).2
        exact hout.symm
    · have hans := hok (bufferValue b)
      rw [hx] at hans
      rw [Ask.answer.inj hans, hout]
      rfl

/-- An invocation on a TEE. -/
def Deployment.startOn (D : Deployment) (t : TaRun Globals) (i : Operation) (l : Ledger) :
    Sys (TaRun Globals) := Sys.init t D.uuid D.ccfile i.args l

section Runs

variable {D : Deployment} {t : TaRun Globals}

theorem plays_of_run (ht : t.ta = initializeSession)
    (h : Relation.ReflTransGen (Step (taTee D.load) D.files) (D.startOn t i l) s) :
    Plays D.layout (argsOf (runParams D.wasm (packArguments i.fn (i.person :: i.rest)))) l s := by
  induction h with
  | refl =>
    refine ⟨fun _ => ⟨ht, rfl⟩, .inl rfl, nofun, fun x hx => ?_⟩
    rcases hx with hx | hx | hx <;> cases hx
  | tail hrun hst ih =>
    refine ih.step (exchange_of_run hrun) hst fun wasm buf hhd => ?_
    obtain ⟨hfile, rfl⟩ := (carried_of_run hrun).run hhd
    obtain rfl := Option.some.inj (D.file_eq.symm.trans hfile)
    exact ⟨D.load_eq, rfl⟩

theorem carries_argsOf (wasm : Bytes) (i : Operation) :
    Carries (argsOf (runParams wasm (packArguments i.fn (i.person :: i.rest)))) i := by
  have hrow := fun n hn => rowText_argsOf wasm i.fn (i.person :: i.rest) (i := n) hn
  exact ⟨hrow 0 (by omega), hrow 1 (by omega), hrow 2 (by omega)⟩

/-- The writes of a run are nothing, or the operation's. -/
theorem commit_of_run (ht : t.ta = initializeSession)
    (h : Relation.ReflTransGen (Step (taTee D.load) D.files) (D.startOn t i l) s) :
    s.stub.commit = l ∨ s.stub.commit = (outcome l i).2 := by
  have hstub : s.stub = ⟨l, s.stub.writes⟩ := by rw [← (exchange_of_run h).committed]
  obtain ⟨rest, hrest⟩ := writes_prefix (writeSet_of_run h) (conforming_of_run h)
  rw [hstub]
  rcases (plays_of_run ht h).requests.puts (carries_argsOf D.wasm i) with hnil | ⟨w, hone, hout⟩
  · rw [hnil] at hrest
    rw [(List.append_eq_nil_iff.1 hrest).1]
    exact .inl rfl
  · rw [hone] at hrest
    rcases List.append_eq_singleton_iff.1 hrest with ⟨hw, -⟩ | ⟨hw, -⟩
    · rw [hw]
      exact .inl rfl
    · rw [hw, ← hone]
      exact .inr hout

/-- A success is the operation's, or the text for a step that could not
run. -/
theorem success_of_run (ht : t.ta = initializeSession)
    (h : Relation.ReflTransGen (Step (taTee D.load) D.files) (D.startOn t i l) s)
    (hx : s.wrapper = .done (.success x)) :
    (x, s.stub.commit) = outcome l i ∨ x = ascii "RUNTIME_ERROR" := by
  have hstub : s.stub = ⟨l, s.stub.writes⟩ := by rw [← (exchange_of_run h).committed]
  rw [hstub, writes_of_success (writeSet_of_run h) (conforming_of_run h) hx]
  exact (((plays_of_run ht h).answers x (.inr (.inr hx))).outcome (carries_argsOf D.wasm i)).symm

end Runs

/-- **All or nothing, whatever fails.** For every operation on every
ledger, and in every state of every run of it, whichever calls of wrapper
and proxy fail and whatever WAMR is short of: the writes made so far leave
the ledger as it was, or as the operation leaves it. And a success is the
operation's answer with the operation's ledger, or the text for a step
that could not run. -/
theorem faults_all_or_nothing (D : Deployment) (i : Operation) (l : Ledger)
    (s : Sys (TaRun Globals))
    (h : Relation.ReflTransGen (Step (taTee D.load) D.files) (D.start i.args l) s) :
    (s.stub.commit = l ∨ s.stub.commit = (outcome l i).2) ∧
      ∀ x, s.wrapper = .done (.success x) →
        (x, s.stub.commit) = outcome l i ∨ x = ascii "RUNTIME_ERROR" :=
  ⟨commit_of_run rfl h, fun _ hx => success_of_run rfl h hx⟩

/-- A `create` whose last step finds no execution environment. -/
def openAlice : Operation := ⟨ascii "create", ascii "alice", [ascii "5"]⟩

def unableRun : List (Move Env) :=
  twoRequestRun.set 16 (.proxy ⟨false, { Env.ok with execEnv := false }⟩)

/-- The client sees a success that is no answer, and the record is there
as if it had been one. -/
theorem faults_all_or_nothing_noExecEnv :
    ∃ s, Relation.ReflTransGen (Step (taTee linkedLoader) linkedFiles)
        (linkedDeployment.start openAlice.args fun _ => none) s ∧
      s.wrapper = .done (.success (ascii "RUNTIME_ERROR")) ∧
      s.stub.commit (ascii "alice") = some (ascii "5") ∧
      s.stub.commit = (outcome (fun _ => none) openAlice).2 := by
  have hrun : ((linkedDeployment.start openAlice.args fun _ => none).moves (taTee linkedLoader)
      linkedFiles unableRun).any (fun s =>
        s.wrapper = .done (.success (ascii "RUNTIME_ERROR")) ∧
          s.stub.commit (ascii "alice") = some (ascii "5")) = true := by
    decide +kernel
  obtain ⟨s, hs, hend⟩ := (Option.any_eq_true _ _).1 hrun
  obtain ⟨hsuccess, halice⟩ := of_decide_eq_true hend
  have hreach := reaches_of_sysMoves (fun _ _ _ => step_of_move) hs
  refine ⟨s, hreach, hsuccess, halice, ?_⟩
  refine (faults_all_or_nothing linkedDeployment openAlice _ s hreach).1.resolve_left fun he => ?_
  rw [he] at halice
  cases halice

/-! ## Histories in which calls fail -/

/-- **Invocations one after another, any call of which may fail**, each on
the TEE and the ledger the last one left, with what `invoke` returned. -/
inductive Endures (D : Deployment) :
    TaRun Globals → Ledger → List (Operation × ShimResponse) → Ledger → Prop
  | nil (t : TaRun Globals) (l : Ledger) : Endures D t l [] l
  | cons {t : TaRun Globals} {l l' : Ledger} {i : Operation} {r : ShimResponse}
      {s : Sys (TaRun Globals)} {st : Status} {h : List (Operation × ShimResponse)}
      (hrun : Relation.ReflTransGen (Step (taTee D.load) D.files) (D.startOn t i l) s)
      (hw : s.wrapper = .done r) (hh : s.handler = .finished st)
      (hrest : Endures D s.tee s.ledger h l') : Endures D t l ((i, r) :: h) l'

/-- The answer of an invocation that was answered for: it succeeded, and
not because a step could not run. -/
def ownAnswer : ShimResponse → Option Bytes
  | .success x => if x = ascii "RUNTIME_ERROR" then none else some x
  | .error _ => none

/-- The operations that were answered for, with their answers. -/
def answeredFor (h : List (Operation × ShimResponse)) : List (Operation × Bytes) :=
  h.filterMap fun x => (ownAnswer x.2).map fun y => (x.1, y)

/-- What one invocation leaves: nothing of it, where it was not answered
for, or all of it. -/
theorem ledger_of_run {D : Deployment} {t : TaRun Globals} {r : ShimResponse}
    (ht : t.ta = initializeSession)
    (h : Relation.ReflTransGen (Step (taTee D.load) D.files) (D.startOn t i l) s)
    (hw : s.wrapper = .done r) :
    ownAnswer r = none ∧ s.ledger = l ∨
      ∃ x, outcome l i = (x, s.ledger) ∧ ∀ y, ownAnswer r = some y → y = x := by
  cases r with
  | error e =>
    have hpay : s.payload = none := by rw [Sys.payload, hw]
    have hledger : s.ledger = l := by
      rw [Sys.ledger, hpay]
      exact (exchange_of_run h).committed
    exact .inl ⟨rfl, hledger⟩
  | success x =>
    have hpay : s.payload = some x := by rw [Sys.payload, hw]
    have hledger : s.ledger = s.stub.commit := by
      rw [Sys.ledger, hpay]
      rfl
    rw [hledger]
    by_cases hx : x = ascii "RUNTIME_ERROR"
    · have hnone : ownAnswer (.success x) = none := if_pos hx
      rw [hnone]
      rcases commit_of_run ht h with hl | hl
      · exact .inl ⟨rfl, hl⟩
      · refine .inr ⟨(outcome l i).1, by rw [hl], fun y hy => ?_⟩
        cases hy
    · have hsome : ownAnswer (.success x) = some x := if_neg hx
      rw [hsome]
      refine .inr ⟨x, ((success_of_run ht h hw).resolve_right hx).symm, fun y hy => ?_⟩
      exact (Option.some.inj hy).symm

/-- **A history with failures is a history without.** For every sequence
of operations, whichever calls fail in them: some of the operations, run
one after another with no failure, leave the same ledger; and the
operations that were answered for are among them, with their answers. -/
theorem faulty_history_is_history (D : Deployment) {t : TaRun Globals} {l l' : Ledger}
    {h : List (Operation × ShimResponse)} (ht : t.ta = initializeSession)
    (hh : Endures D t l h l') :
    ∃ done : List (Operation × Bytes), (done.map Prod.fst).Sublist (h.map Prod.fst) ∧
      (answeredFor h).Sublist done ∧ Runs D l (done.map Prod.fst) (done.map Prod.snd) l' := by
  induction hh with
  | nil t l => exact ⟨[], .slnil, .slnil, .nil l⟩
  | @cons t l l' i r s st h hrun hw hhd hrest ih =>
    obtain ⟨done, hsub, hans, hruns⟩ := ih (fresh_of_idle ht hrun (by rw [hhd]; exact .inr rfl))
    rcases ledger_of_run ht hrun hw with ⟨hnone, hl⟩ | ⟨x, hout, hx⟩
    · -- the invocation has left nothing
      refine ⟨done, hsub.cons i, ?_, hl ▸ hruns⟩
      rw [answeredFor, List.filterMap_cons_none (by rw [hnone]; rfl)]
      exact hans
    · refine ⟨(i, x) :: done, hsub.cons_cons i, ?_, .cons ((invokes_iff_outcome D i).2 hout) hruns⟩
      cases hr : ownAnswer r with
      | none =>
        rw [answeredFor, List.filterMap_cons_none (by rw [hr]; rfl)]
        exact hans.cons _
      | some y =>
        obtain rfl := hx y hr
        rw [answeredFor, List.filterMap_cons_some (b := (i, y)) (by rw [hr]; rfl)]
        exact hans.cons_cons _

/-- The `create` that could not take its last step is in the history, and
was not answered for. -/
theorem faulty_history_is_history_noExecEnv :
    ∃ (l' : Ledger) (done : List (Operation × Bytes)), l' (ascii "alice") = some (ascii "5") ∧
      answeredFor [(openAlice, .success (ascii "RUNTIME_ERROR"))] = [] ∧
      (done.map Prod.fst).Sublist [openAlice] ∧
      Runs linkedDeployment (fun _ => none) (done.map Prod.fst) (done.map Prod.snd) l' := by
  have hrun : ((linkedDeployment.start openAlice.args fun _ => none).moves (taTee linkedLoader)
      linkedFiles (unableRun ++ [proxyOk])).any (fun s =>
        s.wrapper = .done (.success (ascii "RUNTIME_ERROR")) ∧ s.handler = .finished .ok ∧
          s.ledger (ascii "alice") = some (ascii "5")) = true := by
    decide +kernel
  obtain ⟨s, hs, hend⟩ := (Option.any_eq_true _ _).1 hrun
  obtain ⟨hsuccess, hfinished, halice⟩ := of_decide_eq_true hend
  have hreach := reaches_of_sysMoves (fun _ _ _ => step_of_move) hs
  have hone : Endures linkedDeployment freshRun (fun _ => none)
      [(openAlice, .success (ascii "RUNTIME_ERROR"))] s.ledger :=
    .cons hreach hsuccess hfinished (.nil _ _)
  obtain ⟨done, hsub, -, hruns⟩ := faulty_history_is_history linkedDeployment rfl hone
  exact ⟨s.ledger, done, halice, by decide, hsub, hruns⟩

end Coffee

end TeeChaincode
