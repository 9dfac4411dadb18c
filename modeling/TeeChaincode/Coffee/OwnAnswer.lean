import TeeChaincode.Coffee.Loop

/-!
# Whose answer an invocation ends with

The TA has two texts of its own for a module that ends without a response
or with an empty one. In the proxy loop over the chaincode, with any host
and nothing failing, they are never used: every operation passes its
answer to `cc_return_response` before it goes idle. The one exception is
a `create` for a person without a name, which does not advance its state
machine and never answers.
-/

namespace TeeChaincode

open Common

/-- What an outside call brings back where it does not fail. -/
def Input.Fine : Input (Env × Bytes) → Prop
  | .read (some _) | .file (some _) | .write true | .restarted => True
  | .tee (some e) => e.1 = Env.ok
  | _ => False

/-- A step of a call in which nothing fails, whatever the host writes. -/
def Call.FedWell {σ : Type} (load : Loader σ) (c c' : Call (Hosted σ)) : Prop :=
  ∃ i : Input (Env × Bytes), i.Fine ∧ c.feed (hostileTee load) i = some c'

/-- **The module has answered for itself**: the call is over, and the
response it sent is the last message a step passed to
`cc_return_response`. -/
def AnswersItself {σ : Type} (c : Call (Hosted σ)) : Prop :=
  c.handler = .finished .ok ∧ ∃ x, c.sent.getLast? = some (.invocationResponse x) ∧
    lastMessage c.tee.run.steps = some x

/-- A final answer that is none of the TA's own texts is the message on
record. -/
theorem message_of_asked {s : Session} {x : Bytes} (h : asked s = .answer x)
    (hno : x ≠ ascii "NO_RESPONSE") (hempty : x ≠ ascii "EMPTY_RESPONSE") :
    s.message = some x := by
  have hnone : s.pendingType = .none := by
    unfold asked at h
    cases hp : s.pendingType <;> simp_all
  rw [asked_of_none hnone] at h
  cases hm : s.message with
  | none =>
    simp only [hm, Ask.answer.injEq] at h
    exact absurd h.symm hno
  | some y =>
    simp only [hm, Ask.answer.injEq] at h
    split at h
    · exact absurd h.symm hempty
    · rw [h]

theorem Ask.handler_injective {a b : Ask} (h : a.handler = b.handler) : a = b := by
  cases a <;> cases b <;> cases h <;> rfl

namespace Coffee

variable {L : Layout} {load : Loader Globals} {args : Buf sizeofArguments} {ph : Phase}
variable {t : TaRun Globals} {wasm buf : Bytes}

theorem Lit.text_ne_fallback (l : Lit) :
    l.text ≠ ascii "NO_RESPONSE" ∧ l.text ≠ ascii "EMPTY_RESPONSE" := by
  cases l <;> decide

/-- A `create` for a person without a name. -/
def Nobody (args : Buf sizeofArguments) : Prop :=
  rowText args 0 = Lit.create.text ∧ rowText args 1 = []

/-- What is on record when an invocation answers `x`. -/
def OnRecord (args : Buf sizeofArguments) (x : Bytes) (m : Option Bytes) : Prop :=
  (Nobody args → m = none ∧ x = ascii "NO_RESPONSE") ∧ (¬ Nobody args → m = some x)

/-- **What the machine answers**: a literal, the value queried for, or,
to a `create` for nobody, what the TA says for it. -/
theorem Phase.answer_cases {f person amount v x : Bytes} (hm : ph.Meant f person)
    (hx : (ph.next f person amount v).2 = .answer x) :
    ¬ (f = Lit.create.text ∧ person = []) ∧ ((∃ l : Lit, x = l.text) ∨ ph = .queryGet) ∨
      (f = Lit.create.text ∧ person = []) ∧ x = ascii "NO_RESPONSE" := by
  have hadd : f = Lit.add.text → ¬ (f = Lit.create.text ∧ person = []) :=
    fun hf hn => Lit.text_ne_create hf (.inl rfl) hn.1
  cases ph with
  | idle =>
    simp only [next, start] at hx
    split at hx
    · cases hx
    next hc =>
    repeat' split at hx
    all_goals cases hx
    exact .inl ⟨fun hn => hc hn.1, .inl ⟨.error, rfl⟩⟩
  | createGet =>
    simp only [next] at hx
    split at hx <;> cases hx
    exact .inl ⟨fun hn => hm.2 hn.2, .inl ⟨.exist, rfl⟩⟩
  | createPut =>
    cases hx
    exact .inl ⟨fun hn => hm.2 hn.2, .inl ⟨.ok, rfl⟩⟩
  | stuckGet | stuck =>
    cases hx
    exact .inr ⟨hm, rfl⟩
  | addGet =>
    simp only [next] at hx
    split at hx <;> cases hx
    exact .inl ⟨hadd hm, .inl ⟨.empty, rfl⟩⟩
  | addPut =>
    cases hx
    exact .inl ⟨hadd hm, .inl ⟨.ok, rfl⟩⟩
  | queryGet => exact .inl ⟨fun hn => Lit.text_ne_create hm (.inr rfl) hn.1, .inr rfl⟩

/-! ## Commands -/

/-- The message on record is the last one passed on. -/
def Recorded (t : TaRun Globals) (m : Option Bytes) : Prop :=
  ∃ s, t.ta.sess = some s ∧ s.message = m ∧ lastMessage t.steps = m

/-- The session a RESUME_WASM leaves is the one its step does. -/
theorem resumeWasm_session {ta : Ta Globals} (h : InPhase L args ph ta) (p : Params) {env : Env}
    (he : env.execEnv = true) :
    ∃ s w gl, Config L args ph w gl s ∧ ∀ a w' gl' s',
      Does L (stepResume L) (replied ph w (bufferValue p.memref2.buffer)) gl s.drained a w' gl' s' →
        (resumeWasm ta p env).ta.sess = some s' := by
  obtain ⟨ta₀, s, inst, w, gl, hflow, -, hM, -, hinst, hat, hconf⟩ := resumeWasm_flow h p env
  refine ⟨s, w, gl, hconf, fun a w' gl' s' hdoes => ?_⟩
  obtain ⟨⟨⟩, hout, -, -, hhost⟩ := hdoes inst hat
  rw [hflow, processHostcallFlow_of_returned p (stepResume L) hM hinst rfl (.inr he) hout]
  exact congrArg some hhost

/-- **A resume that answers** has the answer on record, but for a `create`
for nobody. -/
theorem InPhase.answer_on_record {ta : Ta Globals} (h : InPhase L args ph ta) (p : Params)
    (env : Env) (he : env.execEnv = true) {x : Bytes}
    (hx : (stepOn args ph (bufferValue p.memref2.buffer)).2 = .answer x) :
    ∃ s, (resumeWasm ta p env).ta.sess = some s ∧ OnRecord args x s.message := by
  obtain ⟨s, w, gl, hconf, hsess⟩ := resumeWasm_session h p he
  obtain ⟨w', gl', s', hdoes, hconf', hask⟩ := steps_next (v := bufferValue p.memref2.buffer) hconf
    (zero_notMem_clip _ _) (length_clip_le _ _)
  have hs' := hsess _ _ _ _ hdoes
  rw [← stepOn, hx] at hask
  refine ⟨s', hs', ?_⟩
  rcases Phase.answer_cases hconf.meant hx with ⟨hn, ⟨l, rfl⟩ | rfl⟩ | ⟨hn, rfl⟩
  · exact ⟨fun hn' => absurd hn' hn,
      fun _ => message_of_asked hask l.text_ne_fallback.1 l.text_ne_fallback.2⟩
  · -- the value queried for may read like one of the TA's own texts
    have hquery := hsess _ _ _ _ (does_stepResume_query (L := L)
      (w := replied .queryGet w (bufferValue p.memref2.buffer)) (s := s.drained) hconf.op
      (does_queryResume hconf.unflag_fsm))
    rw [hs', replied_gCurVal rfl] at hquery
    obtain rfl := Option.some.inj hquery
    refine ⟨fun hn' => absurd hn' hn, fun _ => ?_⟩
    obtain rfl : (if bufferValue p.memref2.buffer = [] then Lit.notfound.text
        else bufferValue p.memref2.buffer) = x := Ask.answer.inj hx
    refine congrArg some (clip_pad ?_ ?_ (by decide))
    · split
      · exact Lit.zero_notMem _
      · exact zero_notMem_clip _ _
    · split
      · decide
      · exact length_clip_le _ _
  · refine ⟨fun _ => ⟨?_, rfl⟩, fun hn' => absurd hn hn'⟩
    rw [Session.message, hconf'.silent hn.1 hn.2]
    rfl

/-- RESUME_WASM as the loop sees it: what is on record behind it. -/
theorem InPhase.resume_recorded (h : InPhase L args ph t.ta) (load : Loader Globals) (buf : Bytes)
    {m : Option Bytes} (hm : Recorded t m) :
    ∃ m', Recorded ((taTee load).resume t Env.ok buf).2 m' ∧
      ∀ x, (stepOn args ph (bufferValue buf)).2 = .answer x → OnRecord args x m' := by
  obtain ⟨s, hs, rfl, hlast⟩ := hm
  have htee := taTee_resume load h.alive Env.ok buf
  obtain ⟨ta', steps, hres, ⟨calls, hran⟩, -⟩ := resumeWasm_inPhase h (resumeParams buf) Env.ok rfl
  obtain ⟨s₀, hs₀, hex⟩ := resumeWasm_executed t.ta (resumeParams buf) Env.ok
  have hret : ∀ tr ∈ (resumeWasm t.ta (resumeParams buf) Env.ok).steps, tr.ended = .returned := by
    rw [hres, hran]
    intro tr htr
    rw [List.mem_singleton.1 htr]
  obtain ⟨s', hs', -, hmsg, -⟩ := hex.record (by rw [hres]) hret
  rw [hs₀.2 s hs, ← hlast, ← lastMessage_append] at hmsg
  rw [htee]
  refine ⟨s'.message, ⟨s', hs', rfl, hmsg.symm⟩, fun x hx => ?_⟩
  obtain ⟨s'', hs'', hrec⟩ := h.answer_on_record (resumeParams buf) Env.ok rfl hx
  obtain rfl := Option.some.inj (hs'.symm.trans hs'')
  exact hrec

/-- And behind RUN_WASM. -/
theorem run_recorded (hl : load wasm = some (coffee L)) (buf : Bytes) :
    ∃ m', Recorded ((taTee load).run freshRun Env.ok wasm buf).2 m' ∧
      ∀ x, (stepOn (argsOf (runParams wasm buf)) .idle []).2 = .answer x →
        OnRecord (argsOf (runParams wasm buf)) x m' := by
  have hex : Executed (Session.zero.launched (runParams wasm buf)) (runParams wasm buf)
      (runWasm load initializeSession (runParams wasm buf) Env.ok) :=
    runWasm_executed load (runParams wasm buf) Env.ok rfl
  obtain ⟨ta', steps, calls, hrun, hran, -⟩ := runWasm_inPhase load initializeSession
    (runParams wasm buf) Env.ok rfl rfl hl ⟨rfl, rfl, rfl, rfl, rfl, rfl⟩ rfl
  have hret : ∀ tr ∈ (runWasm load initializeSession (runParams wasm buf) Env.ok).steps,
      tr.ended = .returned := by
    rw [hrun, hran]
    intro tr htr
    simp only [List.mem_cons, List.not_mem_nil, or_false] at htr
    rcases htr with rfl | rfl <;> rfl
  obtain ⟨s', hs', -, hmsg, hparams⟩ := hex.record (by rw [hrun]) hret
  have hlast : lastMessage
      (runWasm load initializeSession (runParams wasm buf) Env.ok).steps = s'.message := by
    rw [hmsg, lastMessage]
    exact (Option.or_none).symm
  refine ⟨s'.message, ⟨s', hs', rfl, hlast⟩, fun x hx => ?_⟩
  -- the answer is the one the session calls for
  have hask : asked s' = .answer x := by
    apply Ask.handler_injective
    rw [← hx, ← (run_initializeSession hl buf []).1]
    exact (dispatchReply_of_params (by rw [hrun]) hparams (asked_fits s')).symm
  have hidle : Phase.idle.Meant (rowText (argsOf (runParams wasm buf)) 0)
      (rowText (argsOf (runParams wasm buf)) 1) := trivial
  rcases Phase.answer_cases hidle hx with ⟨hn, ⟨l, rfl⟩ | he⟩ | ⟨hn, rfl⟩
  · exact ⟨fun hn' => absurd hn' hn,
      fun _ => message_of_asked hask l.text_ne_fallback.1 l.text_ne_fallback.2⟩
  · cases he
  · simp only [stepOn, Phase.next, Phase.start, if_pos hn.1] at hx
    cases hx

/-! ## The loop -/

/-- What holds in a loop in which nothing fails. -/
inductive Answering (L : Layout) (args : Buf sizeofArguments) (wasm buf : Bytes) :
    Call (Hosted Globals) → Prop
  | launch {sent : List ProxyMessage} : Answering L args wasm buf ⟨.run wasm buf, sent, .fresh⟩
  | waiting {c : Call (Hosted Globals)} {ph : Phase} {m : Option Bytes} (hhd : c.handler.Waits)
      (hin : InPhase L args ph c.tee.run.ta) (hrec : Recorded c.tee.run m) :
      Answering L args wasm buf c
  | answering {x : Bytes} {sent : List ProxyMessage} {t : Hosted Globals}
      (hrec : OnRecord args x (lastMessage t.run.steps)) :
      Answering L args wasm buf ⟨.writeResponse (.invocationResponse x), sent, t⟩
  | answered {c : Call (Hosted Globals)} {x : Bytes}
      (hhd : c.handler = .restart true ∨ c.handler = .finished .ok)
      (hsent : c.sent.getLast? = some (.invocationResponse x))
      (hrec : OnRecord args x (lastMessage c.tee.run.steps)) : Answering L args wasm buf c

/-- What a command leads to. -/
theorem Answering.of_command {a : Ask} {hd : Handler} {sent : List ProxyMessage}
    {u : Hosted Globals} {m : Option Bytes} (hhd : hd = a.handler)
    (hin : InPhase L args ph u.run.ta) (hrec : Recorded u.run m)
    (hans : ∀ x, a = .answer x → OnRecord args x m) :
    Answering L args wasm buf ⟨hd, sent, u⟩ := by
  subst hhd
  cases a with
  | get key => exact .waiting trivial hin hrec
  | put key value => exact .waiting trivial hin hrec
  | answer x =>
    obtain ⟨s, -, -, hlast⟩ := hrec
    exact .answering (by rw [hlast]; exact hans x rfl)

/-- **A step in which nothing fails keeps it.** -/
theorem Answering.step {c c' : Call (Hosted Globals)} (hl : load wasm = some (coffee L))
    (h : Answering L (argsOf (runParams wasm buf)) wasm buf c) (hf : c.FedWell load c') :
    Answering L (argsOf (runParams wasm buf)) wasm buf c' := by
  obtain ⟨i, hi, hf⟩ := hf
  have hm := Call.feed_cases hf
  cases h with
  | launch =>
    cases hm with
    | ran wasm buf env =>
      obtain ⟨env, b⟩ := env
      obtain rfl : env = Env.ok := hi
      obtain ⟨hdisp, hin⟩ := run_initializeSession hl buf []
      obtain ⟨m', hrec, hans⟩ := run_recorded hl buf
      exact Answering.of_command hdisp hin hrec hans
    | runLost => exact absurd hi id
  | waiting hhd hin hrec =>
    obtain ⟨hd, sent, t⟩ := c
    cases hm with
    | wroteRequest kind m => exact .waiting trivial hin hrec
    | gotReply kind m => exact .waiting trivial hin hrec
    | resumed b env =>
      obtain ⟨env, b'⟩ := env
      obtain rfl : env = Env.ok := hi
      obtain ⟨hdisp, hin'⟩ := InPhase.resume hin load b'
      obtain ⟨m', hrec', hans⟩ := hin.resume_recorded load b' hrec
      exact Answering.of_command hdisp hin' hrec' hans
    | writeLost | replyLost | resumeLost => exact absurd hi id
    | _ => exact absurd hhd id
  | answering hrec =>
    cases hm with
    | wroteResponse m => exact .answered (.inl rfl) (by simp) hrec
    | responseLost => exact absurd hi id
  | answered hhd hsent hrec =>
    obtain ⟨hd, sent, t⟩ := c
    rcases hhd with hhd | hhd
    · obtain rfl : hd = .restart true := hhd
      cases hm with
      | restarted ok => exact .answered (.inr rfl) hsent hrec
    · obtain rfl : hd = .finished .ok := hhd
      cases hm

/-- How an invocation in which nothing fails ends. -/
def EndsOn (args : Buf sizeofArguments) (c : Call (Hosted Globals)) : Prop :=
  c.handler = .finished .ok ∧ ∃ x, c.sent.getLast? = some (.invocationResponse x) ∧
    OnRecord args x (lastMessage c.tee.run.steps)

theorem ends_on_record (hl : load wasm = some (coffee L)) (f : Bytes) (as : List Bytes) :
    Ends (Call.FedWell load) (EndsOn (argsOf (runParams wasm (packArguments f as))))
      (.launch .fresh wasm f as) := by
  refine Ends.of_rank (I := fun c => Driven L (argsOf (runParams wasm (packArguments f as))) wasm
      (packArguments f as) c.handler c.tee ∧ Answering L
      (argsOf (runParams wasm (packArguments f as))) wasm (packArguments f as) c) rank ?_ ?_
    ⟨.launch, .launch⟩
  · rintro c c' ⟨hd, ha⟩ hf
    obtain ⟨i, -, hfeed⟩ := id hf
    obtain ⟨hd', hlt⟩ := Driven.step hl _ hd ⟨i, hfeed⟩
    exact ⟨⟨hd', ha.step hl hf⟩, hlt⟩
  · rintro c ⟨-, ha⟩ hstop
    have hfin : ∃ st, c.handler = .finished st := by
      by_contra hne
      obtain ⟨i, hi, c', hf⟩ := Call.exists_feed (T := hostileTee load)
        (fun st hst => hne ⟨st, hst⟩) (Env.ok, [])
      refine hstop c' ⟨i, ?_, hf⟩
      simp only [List.mem_cons, List.not_mem_nil, or_false] at hi
      rcases hi with rfl | rfl | rfl | rfl | rfl <;> trivial
    obtain ⟨st, hst⟩ := hfin
    cases ha with
    | launch => cases hst
    | waiting hhd => rw [hst] at hhd; exact absurd hhd id
    | answering => cases hst
    | answered hhd hsent hrec =>
      refine ⟨?_, _, hsent, hrec⟩
      rcases hhd with hhd | hhd
      · rw [hst] at hhd
        cases hhd
      · exact hhd

/-- **The chaincode answers for itself** if and only if the invocation is
no `create` for a person without a name: for every function name and
arguments, every content the host writes, where nothing fails the
invocation ends, and it ends with a response the chaincode has passed to
`cc_return_response` in it. -/
theorem answersItself_iff (L : Layout) {load : Loader Globals} {wasm : Bytes}
    (hl : load wasm = some (coffee L)) (f : Bytes) (as : List Bytes) :
    Ends (Call.FedWell load) AnswersItself (.launch .fresh wasm f as) ↔
      ¬ (clip 63 f = Lit.create.text ∧ clip 63 (as.getD 0 []) = []) := by
  obtain ⟨hrow0, hrow1⟩ := rowText_launch wasm f as
  have hends := ends_on_record hl f as
  rw [← hrow0, ← hrow1]
  constructor
  · intro h hn
    obtain ⟨c, hrun, hstop, -, x, -, hlast⟩ := h.exists_stop
    obtain ⟨-, y, -, hrec⟩ := hends.stop c hrun hstop
    rw [(hrec.1 hn).1] at hlast
    cases hlast
  · intro hn
    refine ⟨hends.acc, fun c hrun hstop => ?_⟩
    obtain ⟨hfin, x, hsent, hrec⟩ := hends.stop c hrun hstop
    exact ⟨hfin, x, hsent, hrec.2 hn⟩

/-- A query, whatever the host replies. -/
theorem answersItself_iff_query :
    Ends (Call.FedWell linkedLoader) AnswersItself
      (.launch .fresh [] (ascii "query") [ascii "alice"]) := by
  have hl : linkedLoader [] = some (coffee linked) := rfl
  refine (answersItself_iff linked hl (ascii "query") [ascii "alice"]).2 fun h => ?_
  exact absurd h.1 (by decide)

/-- A `create` without arguments ends with the TA's own text. -/
theorem create_nobody_answers_nothing :
    ∃ c, Relation.ReflTransGen (Call.FedWell linkedLoader)
        (.launch .fresh [] (ascii "create") []) c ∧ c.handler = .finished .ok ∧
      c.sent.getLast? = some (.invocationResponse (ascii "NO_RESPONSE")) ∧
      lastMessage c.tee.run.steps = none ∧ ¬ AnswersItself c := by
  have hl : linkedLoader [] = some (coffee linked) := rfl
  have hn : Nobody (argsOf (runParams [] (packArguments (ascii "create") []))) := by
    obtain ⟨hrow0, hrow1⟩ := rowText_launch [] (ascii "create") []
    exact ⟨hrow0.trans (by decide), hrow1.trans (by decide)⟩
  obtain ⟨c, hrun, -, hfin, x, hsent, hrec⟩ := (ends_on_record hl (ascii "create") []).exists_stop
  obtain ⟨hlast, rfl⟩ := hrec.1 hn
  refine ⟨c, hrun, hfin, hsent, hlast, ?_⟩
  rintro ⟨-, y, -, hy⟩
  rw [hlast] at hy
  cases hy

end Coffee

end TeeChaincode
