import Mathlib.Logic.Function.Basic
import TeeChaincode.Proxy.Calls

/-!
# Calls side by side

The handlers of one `InvocationImpl` share its one TEE session. A thread
is a call with the inputs it has had, and a step of the server is a step
of one of them on the shared TEE: any interleaving of commands, restarts
and stream operations is a run. Nothing in the server keeps a RUN_WASM
from reaching the TA while another call is between its own RUN_WASM and
its `restart_session`; where that does not happen, every call is isolated
from the others.

A call that has the session does what it does alone, or finds a session
that another call has restarted, and then its next RESUME_WASM is
refused. The invariant `Undisturbed` says that for every thread.
-/

namespace TeeChaincode

open Common

variable {σ ι : Type} {load : Loader σ}

/-! ## The server -/

/-- A call on the shared session: the point it has reached, what it has
sent its client, and what its outside calls have brought back. -/
structure Thread where
  handler : Handler
  sent : List ProxyMessage
  inputs : List (Input Env)
deriving DecidableEq

/-- A thread as its call arrives. -/
def Thread.start : Thread := ⟨.readRequest, [], []⟩

/-- The server: the shared TEE, and the calls. -/
structure Server (ι σ : Type) where
  tee : TaRun σ
  threads : ι → Thread

/-- The server before any call. -/
def Server.init : Server ι σ := ⟨freshRun, fun _ => Thread.start⟩

/-- The call of a thread, on a TEE. -/
def Thread.call (th : Thread) (t : TaRun σ) : Call (TaRun σ) := ⟨th.handler, th.sent, t⟩

/-- The thread behind a step of its call. -/
def Thread.fed (th : Thread) (i : Input Env) (c : Call (TaRun σ)) : Thread :=
  ⟨c.handler, c.sent, th.inputs ++ [i]⟩

/-- One call makes a step. -/
def Server.move [DecidableEq ι] (load : Loader σ) (s : Server ι σ) (j : ι) (i : Input Env) :
    Option (Server ι σ) :=
  (((s.threads j).call s.tee).feed (taTee load) i).map fun c =>
    ⟨c.tee, Function.update s.threads j ((s.threads j).fed i c)⟩

/-! ## Isolation -/

/-- What a call does alone, on a fresh session. -/
def solo (load : Loader σ) (is : List (Input Env)) : Option (Call (TaRun σ)) :=
  (Call.start freshRun).run (taTee load) is

/-- **A call is isolated**: what its client has been sent is what the
call alone sends, on its inputs or on the first of them, and where it
returned OK the call alone returns OK having sent the same. -/
structure Thread.Isolated (load : Loader σ) (th : Thread) : Prop where
  sent : ∃ is c, is <+: th.inputs ∧ solo load is = some c ∧ c.sent = th.sent
  ok : th.handler = .finished .ok →
    (solo load th.inputs).map Call.visible = some (.finished .ok, th.sent)

/-- The call has the session: its RUN_WASM has reached the TA, and its
`restart_session` is still to come. -/
def Thread.Holds (th : Thread) : Prop := Launched th.inputs ∧ th.handler.stage ≠ .returned

/-- A step of any call. -/
def ServerStep [DecidableEq ι] (load : Loader σ) (s s' : Server ι σ) : Prop :=
  ∃ j i, s.move load j i = some s'

/-- A step by which no RUN_WASM reaches the TA while another call has the
session. -/
def ExclusiveStep [DecidableEq ι] (load : Loader σ) (s s' : Server ι σ) : Prop :=
  ∃ j i, s.move load j i = some s' ∧
    ((∃ wasm buf env, (s.threads j).handler = .run wasm buf ∧ i = .tee (some env)) →
      ∀ k, k ≠ j → ¬ (s.threads k).Holds)

/-! ## One thread -/

/-- The thread has done what its call does alone, and while it has the
session, the session is that of the call alone or has been restarted. -/
def Thread.InStep (load : Loader σ) (ta : Ta σ) (th : Thread) : Prop :=
  ∃ c, solo load th.inputs = some c ∧ c.handler = th.handler ∧ c.sent = th.sent ∧
    (th.Holds → ta = c.tee.ta ∨ ta = initializeSession)

/-- The thread is on its way out with an error, having sent what its call
alone sends first. -/
def Thread.Failing (load : Loader σ) (th : Thread) : Prop :=
  (th.handler = .restart false ∨ ∃ m, th.handler = .finished (.unknown m)) ∧
    ∃ is c, is <+: th.inputs ∧ solo load is = some c ∧ c.sent = th.sent

/-- What the server keeps of each thread. -/
def Thread.Undisturbed (load : Loader σ) (ta : Ta σ) (th : Thread) : Prop :=
  th.InStep load ta ∨ th.Failing load

theorem solo_append (is : List (Input Env)) (i : Input Env) {c : Call (TaRun σ)}
    (h : solo load is = some c) : solo load (is ++ [i]) = c.feed (taTee load) i := by
  rw [solo, Call.run_append, ← solo, h]
  rfl

theorem Thread.Undisturbed.isolated {ta : Ta σ} {th : Thread} (h : th.Undisturbed load ta) :
    th.Isolated load := by
  rcases h with ⟨c, hc, hh, hsent, -⟩ | ⟨hfail, hsent⟩
  · refine ⟨⟨th.inputs, c, List.prefix_refl _, hc, hsent⟩, fun hok => ?_⟩
    rw [hc, Option.map_some, Call.visible, hh, hok, hsent]
  · refine ⟨hsent, fun hok => ?_⟩
    rcases hfail with h | ⟨m, h⟩ <;> simp [h] at hok

/-- A handler that has returned has no step, and one that fails only
restarts the session. -/
theorem Thread.Failing.feed {th : Thread} (h : th.Failing load) {t : TaRun σ} {i : Input Env}
    {c' : Call (TaRun σ)} (hf : (th.call t).feed (taTee load) i = some c') :
    (th.fed i c').Failing load ∧ c'.tee.ta = initializeSession ∧
      c'.handler.stage = .returned := by
  obtain ⟨hs, hsent⟩ := Call.feed_eq_some hf
  obtain ⟨hfail, is, c, hpre, hc, hcs⟩ := h
  rw [show (th.call t).handler = th.handler from rfl] at hs hsent
  rcases hfail with hr | ⟨m, hr⟩
  · rw [hr] at hs hsent
    cases i <;> simp only [handlerStep, reduceCtorEq, Option.some.injEq, Prod.mk.injEq] at hs
    obtain ⟨hh, ht⟩ := hs
    refine ⟨⟨.inr ⟨_, hh.symm⟩, is, c, hpre.trans (List.prefix_append _ _), hc, ?_⟩, ?_, ?_⟩
    · rw [hcs]
      exact (hsent.trans (List.append_nil _)).symm
    · rw [← ht]
      rfl
    · rw [← hh]
      rfl
  · rw [hr] at hs
    cases i <;> simp [handlerStep] at hs

/-- A thread that is in step stays so by a step on the session its call
has alone. -/
theorem inStep_of_same {th : Thread} {t : TaRun σ} {i : Input Env} {c c' : Call (TaRun σ)}
    (hc : solo load th.inputs = some c) (hh : c.handler = th.handler) (hsent : c.sent = th.sent)
    (hta : t.ta = c.tee.ta) (hf : (th.call t).feed (taTee load) i = some c') :
    (th.fed i c').InStep load c'.tee.ta := by
  have hst : (th.call t).state = c.state := by
    simp only [Call.state, Thread.call, hh, hsent, hta]
  have hcongr := Call.feed_congr load hst i
  rw [hf, Option.map_some, eq_comm, Option.map_eq_some_iff] at hcongr
  obtain ⟨d, hd, hds⟩ := hcongr
  simp only [Call.state, Prod.mk.injEq] at hds
  exact ⟨d, (solo_append _ i hc).trans hd, hds.1, hds.2.1, fun _ => .inl hds.2.2.symm⟩

/-- A step that leaves the TEE alone is the same step for the call
alone, and changes nothing about who has the session. -/
theorem inStep_of_local {th : Thread} {ta : Ta σ} {i : Input Env} {c c' : Call (TaRun σ)}
    (hc : solo load th.inputs = some c) (hh : c.handler = th.handler) (hsent : c.sent = th.sent)
    (hta : th.Holds → ta = c.tee.ta ∨ ta = initializeSession)
    (hl : LocalStep (taTee load) th.handler i c'.handler)
    (hsent' : c'.sent = th.sent ++ (sentBy th.handler i).toList) :
    (th.fed i c').InStep load ta ∧ ((th.fed i c').Holds ↔ th.Holds) := by
  have halone := alone_of_run rfl hc
  have hlaunched : Launched (th.fed i c').inputs ↔ Launched th.inputs :=
    launched_append hl.not_tee
  have hholds : (th.fed i c').Holds ↔ th.Holds := by
    constructor
    · rintro ⟨hla, -⟩
      refine ⟨hlaunched.1 hla, ?_⟩
      rcases hl.goes_on with h | h <;> rw [h] <;> decide
    · rintro ⟨hla, -⟩
      refine ⟨hlaunched.2 hla, fun hr => ?_⟩
      have harr := hl.from_returned hr
      rw [← hh] at harr
      exact (halone.arriving harr).1 hla
  refine ⟨⟨⟨c'.handler, c'.sent, c.tee⟩, ?_, rfl, rfl, fun hho => hta (hholds.1 hho)⟩, hholds⟩
  rw [show (th.fed i c').inputs = th.inputs ++ [i] from rfl, solo_append _ _ hc, Call.feed, hh,
    hl.same, hsent', hsent]
  rfl

/-- What a step of a thread does to the session and to who has it. -/
inductive Use (i : Input Env) (ta ta' : Ta σ) (th th' : Thread) : Prop
  /-- RUN_WASM. -/
  | launch (hr : ∃ wasm buf env, th.handler = .run wasm buf ∧ i = .tee (some env)) (h : th'.Holds)
  /-- RESUME_WASM. -/
  | resume (h : th.Holds) (h' : th'.Holds)
  /-- `restart_session`. -/
  | leave (ht : ta' = initializeSession) (h' : ¬ th'.Holds)
  /-- Anything else. -/
  | stay (ht : ta' = ta) (h : th'.Holds ↔ th.Holds)

/-- A command leaves its thread in possession of the session. -/
theorem holds_of_tee (th : Thread) (env : Env) {r : TeeReply} {c' : Call (TaRun σ)}
    (h : c'.handler = dispatchReply r) : (th.fed (.tee (some env)) c').Holds := by
  refine ⟨launched_of_tee _ env, ?_⟩
  show c'.handler.stage ≠ .returned
  rw [h]
  rcases dispatchReply_stage r with hs | hs <;> rw [hs] <;> simp [Handler.stage]

/-- RESUME_WASM is refused on a fresh session. -/
theorem resume_initializeSession (load : Loader σ) {t : TaRun σ} (ht : t.ta = initializeSession)
    (env : Env) (buf : Bytes) :
    dispatchReply ((taTee load).resume t env buf).1 = .restart false := by
  have hres : invokeCommandEntryPoint load initializeSession .resumeWasm (resumeParams buf) env =
      ⟨.generic, resumeParams buf, initializeSession, []⟩ := rfl
  simp only [taTee, TaRun.answer, ht, hres]
  rfl

/-- **A step of a thread that is in step**, where RUN_WASM reaches the TA
on a fresh session only. -/
theorem Thread.InStep.feed {th : Thread} {t : TaRun σ} {i : Input Env} {c' : Call (TaRun σ)}
    (h : th.InStep load t.ta) (hf : (th.call t).feed (taTee load) i = some c')
    (hrun : ∀ wasm buf env, th.handler = .run wasm buf → i = .tee (some env) →
      ¬ th.Holds → t.ta = initializeSession) :
    (th.fed i c').Undisturbed load c'.tee.ta ∧ Use i t.ta c'.tee.ta th (th.fed i c') := by
  obtain ⟨c, hc, hh, hsent, hta⟩ := h
  have halone := alone_of_run rfl hc
  obtain ⟨hs, hsent'⟩ := Call.feed_eq_some hf
  rw [show (th.call t).handler = th.handler from rfl] at hs hsent'
  rcases handlerStep_cases hs with ⟨wasm, buf, env, hr, rfl, hh', -⟩ | ⟨buf, env, hr, rfl, hh', -⟩ |
    ⟨ok, hr, rfl, hh', ht'⟩ | ⟨ht', hl⟩
  · -- nobody has the session: the call alone is on a fresh one too
    have harr := halone.arriving (by rw [hh, hr]; rfl)
    have hfresh : t.ta = c.tee.ta :=
      (hrun wasm buf env hr rfl fun hho => harr.1 hho.1).trans harr.2.symm
    exact ⟨.inl (inStep_of_same hc hh hsent hfresh hf),
      .launch ⟨wasm, buf, env, hr, rfl⟩ (holds_of_tee th env hh')⟩
  · have hholds : th.Holds := by
      refine ⟨halone.serving (by rw [hh, hr]; rfl), ?_⟩
      rw [hr]
      simp [Handler.stage]
    refine ⟨?_, .resume hholds (holds_of_tee th env hh')⟩
    rcases hta hholds with hsame | hinit
    · exact .inl (inStep_of_same hc hh hsent hsame hf)
    · -- another call has restarted the session
      rw [show (th.call t).tee = t from rfl, resume_initializeSession load hinit] at hh'
      refine .inr ⟨.inl hh', th.inputs, c, List.prefix_append _ _, hc, ?_⟩
      rw [hsent]
      show th.sent = c'.sent
      rw [hsent', hr]
      exact (List.append_nil _).symm
  · have hta' : c'.tee.ta = initializeSession := by rw [ht']; rfl
    have hno : ¬ (th.fed .restarted c').Holds := by
      rintro ⟨-, hst⟩
      exact hst (by rw [show (th.fed .restarted c').handler = c'.handler from rfl, hh']; rfl)
    refine ⟨.inl ⟨⟨.finished (finalStatus ok), c.sent, (taTee load).restart c.tee⟩, ?_, ?_, ?_,
      fun hho => absurd hho hno⟩, .leave hta' hno⟩
    · have hcr : c.handler = .restart ok := hh.trans hr
      rw [show (th.fed .restarted c').inputs = th.inputs ++ [.restarted] from rfl,
        solo_append _ _ hc, Call.feed, hcr]
      simp [handlerStep, sentBy]
    · exact hh'.symm
    · show c.sent = c'.sent
      rw [hsent', hr, hsent]
      exact (List.append_nil _).symm
  · obtain ⟨hin, hholds⟩ := inStep_of_local hc hh hsent hta hl hsent'
    have hsame : c'.tee.ta = t.ta := by rw [ht']; rfl
    exact ⟨.inl (hsame ▸ hin), .stay hsame hholds⟩

/-- The same for every thread. -/
theorem Thread.Undisturbed.feed {th : Thread} {t : TaRun σ} {i : Input Env} {c' : Call (TaRun σ)}
    (h : th.Undisturbed load t.ta) (hf : (th.call t).feed (taTee load) i = some c')
    (hrun : ∀ wasm buf env, th.handler = .run wasm buf → i = .tee (some env) →
      ¬ th.Holds → t.ta = initializeSession) :
    (th.fed i c').Undisturbed load c'.tee.ta ∧ Use i t.ta c'.tee.ta th (th.fed i c') := by
  rcases h with h | h
  · exact h.feed hf hrun
  · obtain ⟨hfail, hta, hst⟩ := h.feed hf
    exact ⟨.inr hfail, .leave hta fun hho => hho.2 hst⟩

/-- What a thread keeps while another makes a step. -/
theorem Thread.Undisturbed.frame {ta ta' : Ta σ} {th : Thread} (h : th.Undisturbed load ta)
    (hta : th.Holds → ta' = ta ∨ ta' = initializeSession) : th.Undisturbed load ta' := by
  rcases h with ⟨c, hc, hh, hsent, hc'⟩ | h
  · refine .inl ⟨c, hc, hh, hsent, fun hho => ?_⟩
    rcases hta hho with rfl | h
    · exact hc' hho
    · exact .inr h
  · exact .inr h

/-! ## The server keeps it -/

/-- Every thread is undisturbed, at most one has the session, and while
none has it, it is fresh. -/
structure Server.Exclusive (load : Loader σ) (s : Server ι σ) : Prop where
  undisturbed : ∀ j, (s.threads j).Undisturbed load s.tee.ta
  unique : ∀ j k, (s.threads j).Holds → (s.threads k).Holds → j = k
  free : (∀ j, ¬ (s.threads j).Holds) → s.tee.ta = initializeSession

theorem exclusive_init (load : Loader σ) : (Server.init : Server ι σ).Exclusive load := by
  have hno : ∀ j, ¬ ((Server.init : Server ι σ).threads j).Holds := by
    rintro j ⟨⟨env, he⟩, -⟩
    exact absurd he List.not_mem_nil
  exact ⟨fun j => .inl ⟨_, rfl, rfl, rfl, fun hho => absurd hho (hno j)⟩,
    fun j _ hj => absurd hj (hno j), fun _ => rfl⟩

variable [DecidableEq ι]

/-- Of the threads behind a step only one is new. -/
theorem move_eq_some {s s' : Server ι σ} {j : ι} {i : Input Env}
    (h : s.move load j i = some s') :
    ∃ c, ((s.threads j).call s.tee).feed (taTee load) i = some c ∧ s'.tee = c.tee ∧
      s'.threads j = (s.threads j).fed i c ∧ ∀ k, k ≠ j → s'.threads k = s.threads k := by
  rw [Server.move, Option.map_eq_some_iff] at h
  obtain ⟨c, hf, rfl⟩ := h
  exact ⟨c, hf, rfl, Function.update_self .., fun k hk => Function.update_of_ne hk ..⟩

/-- **An exclusive step keeps it.** -/
theorem ExclusiveStep.exclusive {s s' : Server ι σ} (hstep : ExclusiveStep load s s')
    (h : s.Exclusive load) : s'.Exclusive load := by
  obtain ⟨j, i, hm, hexcl⟩ := hstep
  obtain ⟨c, hf, htee, hself, hother⟩ := move_eq_some hm
  -- a RUN_WASM finds the session free
  have hrun : ∀ wasm buf env, (s.threads j).handler = .run wasm buf → i = .tee (some env) →
      ¬ (s.threads j).Holds → s.tee.ta = initializeSession := by
    intro wasm buf env hr hi hj
    refine h.free fun k => ?_
    by_cases hk : k = j
    · rw [hk]
      exact hj
    · exact hexcl ⟨wasm, buf, env, hr, hi⟩ k hk
  obtain ⟨hj, huse⟩ := (h.undisturbed j).feed hf hrun
  rw [← hself, ← htee] at hj huse
  refine ⟨fun k => ?_, ?_, fun hno => ?_⟩
  · by_cases hk : k = j
    · rw [hk]
      exact hj
    · rw [hother k hk]
      refine (h.undisturbed k).frame fun hho => ?_
      cases huse with
      | launch hr _ => exact absurd hho (hexcl hr k hk)
      | resume hho' _ => exact absurd (h.unique k j hho hho') hk
      | leave ht _ => exact .inr ht
      | stay ht _ => exact .inl ht
  · -- nobody else has the session the moved thread has
    have hclash : ∀ k, k ≠ j → (s'.threads j).Holds → ¬ (s'.threads k).Holds := by
      intro k hk hho hho'
      rw [hother k hk] at hho'
      cases huse with
      | launch hr _ => exact hexcl hr k hk hho'
      | resume hh _ => exact hk (h.unique k j hho' hh)
      | leave _ hn => exact hn hho
      | stay _ hiff => exact hk (h.unique k j hho' (hiff.1 hho))
    intro a b ha hb
    by_cases haj : a = j <;> by_cases hbj : b = j
    · rw [haj, hbj]
    · exact absurd hb (hclash b hbj (haj ▸ ha))
    · exact absurd ha (hclash a haj (hbj ▸ hb))
    · rw [hother a haj] at ha
      rw [hother b hbj] at hb
      exact h.unique a b ha hb
  · cases huse with
    | launch _ hho => exact absurd hho (hno j)
    | resume _ hho => exact absurd hho (hno j)
    | leave ht _ => exact ht
    | stay ht hiff =>
      refine ht.trans (h.free fun k hho => ?_)
      by_cases hk : k = j
      · rw [hk] at hho
        exact hno j (hiff.2 hho)
      · exact hno k (by rw [hother k hk]; exact hho)

/-- **Calls that do not launch into each other's sessions are isolated.**
In every run of the server in which no RUN_WASM reaches the TA while
another call is between its own RUN_WASM and its `restart_session`, every
call sends what it sends alone or fails. -/
theorem concurrent_calls_isolated (load : Loader σ) {s : Server ι σ}
    (h : Relation.ReflTransGen (ExclusiveStep load) Server.init s) (j : ι) :
    (s.threads j).Isolated load := by
  have hex : s.Exclusive load :=
    invariant_of_step (fun _ _ ha hstep => hstep.exclusive ha) h (exclusive_init load)
  exact (hex.undisturbed j).isolated

/-! ## Two runs -/

/-- A module that asks for the value of the key `k` and then answers its
first argument. -/
def asksThenAnswers : WasmModule ℕ :=
  scripted (ascii "k") fun n =>
    ⟨if n = 0 then [.ccGetState 0 1 64 8] else [.ccGetArg 0 16 8, .ccReturnResponse 16 8], none⟩

/-- The loader that finds it in every file. -/
def asksLoader : Loader ℕ := fun _ => some asksThenAnswers

/-- An invocation of it. -/
def asksFor (person : Bytes) : WrapperMessage :=
  .invocationRequest ⟨[], ascii "query", [person], ascii "asks.aot"⟩

/-- The moves of a run, one after another. -/
def Server.moves (load : Loader σ) (s : Server ι σ) (ms : List (ι × Input Env)) :
    Option (Server ι σ) :=
  ms.foldlM (fun s m => s.move load m.1 m.2) s

theorem reaches_of_moves {s s' : Server ι σ} {ms : List (ι × Input Env)}
    (h : s.moves load ms = some s') : Relation.ReflTransGen (ServerStep load) s s' := by
  induction ms generalizing s with
  | nil =>
    obtain rfl : s = s' := by simpa [Server.moves] using h
    exact .refl
  | cons m ms ih =>
    rw [Server.moves, List.foldlM_cons, Option.bind_eq_bind, Option.bind_eq_some_iff] at h
    obtain ⟨s₁, h₁, h₂⟩ := h
    exact .head ⟨m.1, m.2, h₁⟩ (ih h₂)

/-- A run in which only one call comes to its RUN_WASM is exclusive. -/
theorem reaches_of_one_launch {s s' : Server ι σ} {ms : List (ι × Input Env)} (j : ι)
    (hs : ∀ k, k ≠ j → ¬ Launched (s.threads k).inputs)
    (hms : ∀ m ∈ ms, m.1 ≠ j → ∀ env, m.2 ≠ .tee (some env)) (h : s.moves load ms = some s') :
    Relation.ReflTransGen (ExclusiveStep load) s s' := by
  induction ms generalizing s with
  | nil =>
    obtain rfl : s = s' := by simpa [Server.moves] using h
    exact .refl
  | cons m ms ih =>
    rw [Server.moves, List.foldlM_cons, Option.bind_eq_bind, Option.bind_eq_some_iff] at h
    obtain ⟨s₁, h₁, h₂⟩ := h
    refine .head ⟨m.1, m.2, h₁, ?_⟩ (ih ?_ (fun m' hm' => hms m' (List.mem_cons_of_mem _ hm')) h₂)
    · rintro ⟨wasm, buf, env, -, hi⟩ k hk hho
      have hj : m.1 = j := by
        by_contra hne
        exact hms m List.mem_cons_self hne env hi
      exact hs k (hj ▸ hk) hho.1
    · intro k hk
      obtain ⟨c, -, -, hself, hother⟩ := move_eq_some h₁
      by_cases hkm : k = m.1
      · have hin : (s₁.threads k).inputs = (s.threads k).inputs ++ [m.2] := by
          rw [hkm, hself]
          rfl
        rw [hin, launched_append (hms m List.mem_cons_self (hkm ▸ hk))]
        exact hs k hk
      · rw [hother k hkm]
        exact hs k hk

/-- Two calls, the second of which finds no file and restarts the session
while the first waits for its reply. -/
def interrupted : List (Bool × Input Env) :=
  [(false, .read (some (asksFor (ascii "alice")))), (false, .file (some smallestWasm)),
    (false, .tee (some Env.ok)), (false, .write true),
    (true, .read (some (asksFor (ascii "bob")))), (true, .file none), (true, .restarted),
    (false, .read (some (.getStateResponse (ascii "7")))), (false, .tee (some Env.ok)),
    (false, .restarted)]

/-- The first call then fails, having sent what it sends alone. -/
theorem concurrent_calls_isolated_interrupted :
    ∃ s : Server Bool ℕ, Relation.ReflTransGen (ExclusiveStep asksLoader) Server.init s ∧
      (s.threads false).handler = .finished (finalStatus false) ∧
      (s.threads false).sent = [.getStateRequest (ascii "k")] ∧
      (s.threads false).Isolated asksLoader := by
  have hrun : (Server.moves asksLoader Server.init interrupted).map
      (fun s => ((s.threads false).handler, (s.threads false).sent)) =
      some (.finished (finalStatus false), [.getStateRequest (ascii "k")]) := by
    decide +kernel
  rw [Option.map_eq_some_iff] at hrun
  obtain ⟨s, hs, hth⟩ := hrun
  rw [Prod.mk.injEq] at hth
  have hreach : Relation.ReflTransGen (ExclusiveStep asksLoader) Server.init s := by
    refine reaches_of_one_launch false (fun k _ => ?_) (by simp [interrupted]) hs
    rintro ⟨env, he⟩
    exact absurd he List.not_mem_nil
  exact ⟨s, hreach, hth.1, hth.2, concurrent_calls_isolated asksLoader hreach false⟩

/-- Two calls, for two persons. The second launches while the first waits
for its reply: the heap of the first is not given back, so its RUN_WASM
finds no memory, but it has replaced the arguments by then. -/
def overlapping : List (Bool × Input Env) :=
  [(false, .read (some (asksFor (ascii "alice")))), (false, .file (some smallestWasm)),
    (false, .tee (some Env.ok)), (false, .write true),
    (true, .read (some (asksFor (ascii "bob")))), (true, .file (some smallestWasm)),
    (true, .tee (some { Env.ok with heapMalloc := false })),
    (false, .read (some (.getStateResponse (ascii "7")))), (false, .tee (some Env.ok)),
    (false, .write true), (false, .restarted)]

/-- The client of the first call is answered with the argument of the
second, with status OK. -/
theorem overlapping_not_isolated :
    ∃ s : Server Bool ℕ, Relation.ReflTransGen (ServerStep asksLoader) Server.init s ∧
      (s.threads true).handler = .restart false ∧ (s.threads true).sent = [] ∧
      (s.threads false).handler = .finished .ok ∧
      (s.threads false).sent =
        [.getStateRequest (ascii "k"), .invocationResponse (ascii "bob")] ∧
      ¬ (s.threads false).Isolated asksLoader := by
  have hrun : (Server.moves asksLoader Server.init overlapping).map
      (fun s => (s.threads false, (s.threads true).handler, (s.threads true).sent)) =
      some (⟨.finished .ok, [.getStateRequest (ascii "k"), .invocationResponse (ascii "bob")],
        [.read (some (asksFor (ascii "alice"))), .file (some smallestWasm), .tee (some Env.ok),
          .write true, .read (some (.getStateResponse (ascii "7"))), .tee (some Env.ok),
          .write true, .restarted]⟩, .restart false, []) := by
    decide +kernel
  rw [Option.map_eq_some_iff] at hrun
  obtain ⟨s, hs, hth⟩ := hrun
  rw [Prod.mk.injEq, Prod.mk.injEq] at hth
  obtain ⟨hfirst, hsecond, hsent⟩ := hth
  refine ⟨s, reaches_of_moves hs, hsecond, hsent, by rw [hfirst], by rw [hfirst], fun hiso => ?_⟩
  -- alone, the first call answers its own argument
  have hsolo := hiso.ok (by rw [hfirst])
  rw [hfirst] at hsolo
  revert hsolo
  decide +kernel

end TeeChaincode
