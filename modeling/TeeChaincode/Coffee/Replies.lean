import TeeChaincode.Coffee.Loop

/-!
# Requests and the replies to them

The proxy does not look at the kind of the reply it reads: the getters of
a protobuf oneof give an empty value for another case. A GET answered by
anything but a GetStateResponse reads as an absent record, and the
acknowledgement of a PUT is written to the shared buffer, where nothing
reads it. So the chaincode answers OK whatever the client replied to its
PUT, and the replies are checked exactly where the client itself sends
the right ones, or the call fails for another reason.
-/

namespace TeeChaincode

open Common

/-! ## What a client sends -/

section Inputs

variable {ε : Type}

/-- The messages a call has read. -/
def reads (is : List (Input ε)) : List WrapperMessage :=
  is.filterMap fun | .read m => m | _ => none

/-- The environments in which its commands reached the TA. -/
def commands (is : List (Input ε)) : List ε :=
  is.filterMap fun | .tee env => env | _ => none

/-- An outside call that fails. -/
def Input.Fails : Input ε → Prop
  | .read none | .file none | .tee none | .write false => True
  | _ => False

theorem reads_append (is js : List (Input ε)) : reads (is ++ js) = reads is ++ reads js :=
  List.filterMap_append

theorem commands_append (is js : List (Input ε)) :
    commands (is ++ js) = commands is ++ commands js :=
  List.filterMap_append

/-- **A reply answers a request**: a GET with its value, a PUT with the
acknowledgement OK. -/
def WrapperMessage.Answers : Request → WrapperMessage → Prop
  | .get _, .getStateResponse _ => True
  | .put _ _, .putStateResponse ack => ack = ascii "OK"
  | _, _ => False

/-- **The client's second message is a GetStateResponse and its third a
PutStateResponse that says OK**, where there are such. -/
def Matching (ms : List WrapperMessage) : Prop :=
  (∀ m, ms[1]? = some m → ∃ v, m = .getStateResponse v) ∧
    ∀ m, ms[2]? = some m → m = .putStateResponse (ascii "OK")

/-- **An outside call fails**, or RUN_WASM does not get all it asks
for. -/
def Broken (is : List (Input Env)) : Prop :=
  (∃ i ∈ is, i.Fails) ∨ ∃ env rest, commands is = env :: rest ∧ ¬ Env.Starts env

/-- Nothing has failed, behind RUN_WASM. -/
def Sound (is : List (Input Env)) : Prop :=
  (∀ i ∈ is, ¬ i.Fails) ∧ ∃ env rest, commands is = env :: rest ∧ Env.Starts env

theorem Sound.not_broken {is : List (Input Env)} (h : Sound is) : ¬ Broken is := by
  obtain ⟨hok, env, rest, hcmd, hst⟩ := h
  rintro (⟨i, hi, hf⟩ | ⟨env', rest', hcmd', hst'⟩)
  · exact hok i hi hf
  · rw [hcmd] at hcmd'
    cases hcmd'
    exact hst' hst

theorem Sound.append {is : List (Input Env)} (h : Sound is) {i : Input Env} (hi : ¬ i.Fails) :
    Sound (is ++ [i]) := by
  obtain ⟨hok, env, rest, hcmd, hst⟩ := h
  refine ⟨fun j hj => ?_, env, rest ++ commands [i], ?_, hst⟩
  · rcases List.mem_append.1 hj with hj | hj
    · exact hok j hj
    · rw [List.mem_singleton.1 hj]
      exact hi
  · rw [commands_append, hcmd]
    rfl

theorem Broken.append {is : List (Input Env)} (h : Broken is) (i : Input Env) :
    Broken (is ++ [i]) := by
  rcases h with ⟨j, hj, hf⟩ | ⟨env, rest, hcmd, hst⟩
  · exact .inl ⟨j, List.mem_append_left _ hj, hf⟩
  · refine .inr ⟨env, rest ++ commands [i], ?_, hst⟩
    rw [commands_append, hcmd]
    rfl

theorem broken_of_fails (is : List (Input Env)) {i : Input Env} (hi : i.Fails) :
    Broken (is ++ [i]) :=
  .inl ⟨i, List.mem_append_right _ (List.mem_singleton.2 rfl), hi⟩

end Inputs

/-! ## Checked replies -/

/-- The requests a call has sent. -/
def Call.requests {τ : Type} (c : Call τ) : List Request := c.sent.filterMap ProxyMessage.request

/-- The function a call was asked for. -/
def calledFor (ms : List WrapperMessage) : Bytes :=
  clip 63 (ms.head?.getD .unset).getInvocationRequest.functionName

namespace Coffee

/-- **The replies are checked**: a call that succeeds has had each of its
requests answered by a reply of its kind, a PUT by the acknowledgement OK;
and a `create` or an `add` that answers OK has had such a PUT. -/
def Checked (ms : List WrapperMessage) (c : Call (TaRun Globals)) : Prop :=
  c.handler = .finished .ok →
    (∀ q m, (q, m) ∈ c.requests.zip ms.tail → WrapperMessage.Answers q m) ∧
    (calledFor ms = Lit.create.text ∨ calledFor ms = Lit.add.text →
      c.sent.getLast? = some (.invocationResponse Lit.ok.text) →
      ∃ key value, (.put key value, .putStateResponse (ascii "OK")) ∈ c.requests.zip ms.tail)

/-- The requests of an invocation that is over, and the replies to
them. -/
inductive Exchanged : List Request → List WrapperMessage → Prop
  | none : Exchanged [] []
  | got (key : Bytes) (m : WrapperMessage) : Exchanged [.get key] [m]
  | wrote (key key' value : Bytes) (m m' : WrapperMessage) :
      Exchanged [.get key, .put key' value] [m, m']

variable {L : Layout} {load : Loader Globals} {args : Buf sizeofArguments} {ph : Phase}
variable {contents : List Bytes} {reqs : List Request} {ms : List WrapperMessage}

theorem answers_get_iff (key : Bytes) (m : WrapperMessage) :
    WrapperMessage.Answers (.get key) m ↔ ∃ v, m = .getStateResponse v := by
  cases m <;> simp [WrapperMessage.Answers]

theorem answers_put_iff (key value : Bytes) (m : WrapperMessage) :
    WrapperMessage.Answers (.put key value) m ↔ m = .putStateResponse (ascii "OK") := by
  cases m <;> simp [WrapperMessage.Answers]

/-- **The replies answer the requests where the messages match**, the
first being the invocation itself. -/
theorem Exchanged.answers_iff (h : Exchanged reqs ms) (m₀ : WrapperMessage) :
    (∀ q m, (q, m) ∈ reqs.zip ms → WrapperMessage.Answers q m) ↔ Matching (m₀ :: ms) := by
  cases h with
  | none => simp [Matching]
  | got key m => simp [Matching, answers_get_iff]
  | wrote key key' value m m' =>
    simp [Matching, answers_get_iff, answers_put_iff, or_imp, forall_and]

/-- A PUT among them has been acknowledged. -/
theorem Exchanged.exists_put (h : Exchanged reqs ms) (hlen : reqs.length = 2) {m₀ : WrapperMessage}
    (hm : Matching (m₀ :: ms)) :
    ∃ key value, (.put key value, .putStateResponse (ascii "OK")) ∈ reqs.zip ms := by
  cases h with
  | none | got => simp at hlen
  | wrote key key' value m m' =>
    obtain rfl := hm.2 m' rfl
    exact ⟨key', value, by simp⟩

theorem Open.exchanged (h : Open args ph contents reqs) (hlen : ms.length = reqs.length) :
    Exchanged reqs ms := by
  cases h with
  | asked h =>
    obtain ⟨m, rfl⟩ := List.length_eq_one_iff.1 hlen
    exact .got _ m
  | wrote h hput =>
    obtain ⟨m, m', rfl⟩ := List.length_eq_two.1 hlen
    exact .wrote _ _ _ m m'

/-- A `create` or an `add` that answers OK has written. -/
theorem Open.wrote_of_ok (h : Open args ph contents reqs) {b : Bytes} {ph' : Phase}
    (hans : stepOn args ph (bufferValue b) = (ph', .answer Lit.ok.text))
    (hf : rowText args 0 = Lit.create.text ∨ rowText args 0 = Lit.add.text) : reqs.length = 2 := by
  cases h with
  | wrote h hput => rfl
  | asked h =>
    have hne : Lit.exist.text ≠ Lit.ok.text ∧ Lit.empty.text ≠ Lit.ok.text ∧
        ascii "NO_RESPONSE" ≠ Lit.ok.text := by decide
    rcases open_phases h with rfl | ⟨rfl, -⟩ | ⟨rfl, -⟩ | ⟨rfl, hq⟩
    · exact absurd (Ask.answer.inj (Prod.mk.inj hans).2) hne.2.2
    · rw [stepOn, Phase.next] at hans
      split at hans
      · cases (Prod.mk.inj hans).2
      · exact absurd (Ask.answer.inj (Prod.mk.inj hans).2) hne.1
    · rw [stepOn, Phase.next] at hans
      split at hans
      · exact absurd (Ask.answer.inj (Prod.mk.inj hans).2) hne.2.1
      · cases (Prod.mk.inj hans).2
    · rcases hf with hf | hf <;> rw [hq] at hf <;> exact absurd hf (by decide)

/-! ## The dialogue -/

/-- Where a handler in the loop stands: the requests are sent, or the last
is about to be, and the replies read, or the last is not. -/
inductive AtTurn (reqs : List Request) (ms : List WrapperMessage) :
    Handler → List ProxyMessage → Prop
  | write {kind : RequestKind} {m : ProxyMessage} {sent : List ProxyMessage}
      (hsent : (sent ++ [m]).filterMap ProxyMessage.request = reqs)
      (hms : ms.length + 1 = reqs.length) : AtTurn reqs ms (.writeRequest kind m) sent
  | read {kind : RequestKind} {sent : List ProxyMessage}
      (hsent : sent.filterMap ProxyMessage.request = reqs)
      (hms : ms.length + 1 = reqs.length) : AtTurn reqs ms (.readReply kind) sent
  | resume {b : Bytes} {sent : List ProxyMessage}
      (hsent : sent.filterMap ProxyMessage.request = reqs)
      (hms : ms.length = reqs.length) : AtTurn reqs ms (.resume b) sent

/-- **What a call and what it has read come to**, at each point of it. -/
inductive Dialogue (L : Layout) (is : List (Input Env)) : Call (TaRun Globals) → Prop
  | arrived (h : is = []) : Dialogue L is ⟨.readRequest, [], freshRun⟩
  | requested {m : WrapperMessage} (h : is = [.read (some m)]) :
      Dialogue L is ⟨.openFile m.getInvocationRequest, [], freshRun⟩
  | opened {m : WrapperMessage} {wasm : Bytes} (h : is = [.read (some m), .file (some wasm)]) :
      Dialogue L is ⟨.run wasm (packArguments m.getInvocationRequest.functionName
        m.getInvocationRequest.arguments), [], freshRun⟩
  | waiting {c : Call (TaRun Globals)} {args : Buf sizeofArguments} {ph : Phase}
      {contents : List Bytes} {reqs : List Request} {m : WrapperMessage}
      {ms : List WrapperMessage} (hreads : reads is = m :: ms)
      (hfn : rowText args 0 = clip 63 m.getInvocationRequest.functionName) (hsound : Sound is)
      (hin : InPhase L args ph c.tee.ta) (hopen : Open args ph contents reqs)
      (hturn : AtTurn reqs ms c.handler c.sent) : Dialogue L is c
  | ended {c : Call (TaRun Globals)} {m : WrapperMessage} {ms : List WrapperMessage} {x : Bytes}
      (hreads : reads is = m :: ms) (hsound : Sound is) (hex : Exchanged c.requests ms)
      (hok : x = Lit.ok.text → calledFor (reads is) = Lit.create.text ∨
        calledFor (reads is) = Lit.add.text → c.requests.length = 2)
      (hhd : c.handler = .writeResponse (.invocationResponse x) ∨
        (c.handler = .restart true ∨ c.handler = .finished .ok) ∧
          c.sent.getLast? = some (.invocationResponse x)) : Dialogue L is c
  | failed {c : Call (TaRun Globals)}
      (hhd : c.handler = .restart false ∨ ∃ e, c.handler = .finished (.unknown e))
      (hb : Broken is) : Dialogue L is c

variable {is : List (Input Env)} {i : Input Env} {c c' : Call (TaRun Globals)}
variable {sent : List ProxyMessage} {t : TaRun Globals} {m : WrapperMessage}

/-- What a command leads to: a request, or the final response. -/
theorem Dialogue.of_comes {hd : Handler} {next : Phase × Ask} {r : TeeReply}
    (hhd : hd = dispatchReply r) (hreads : reads is = m :: ms) (hsound : Sound is)
    (hfn : rowText args 0 = clip 63 m.getInvocationRequest.functionName)
    (hc : Comes L args next r t.ta)
    (hex : Exchanged (sent.filterMap ProxyMessage.request) ms)
    (hnext : (∃ q : Request, next.2.handler.requested = some q ∧
        ∃ contents, Open args next.1 contents (sent.filterMap ProxyMessage.request ++ [q]) ∧
          ms.length + 1 = (sent.filterMap ProxyMessage.request ++ [q]).length) ∨
      ∃ x, next.2 = .answer x ∧ (x = Lit.ok.text → rowText args 0 = Lit.create.text ∨
        rowText args 0 = Lit.add.text → (sent.filterMap ProxyMessage.request).length = 2)) :
    Dialogue L is ⟨hd, sent, t⟩ := by
  subst hhd
  have hcalled : calledFor (reads is) = rowText args 0 := by rw [hfn, hreads]; rfl
  cases hc with
  | unable hr =>
    refine .ended hreads hsound hex (x := ascii "RUNTIME_ERROR") (fun he => ?_) (.inl hr)
    exact absurd he (by decide)
  | moved hr hin =>
    rcases hnext with ⟨q, hq, contents, hopen, hlen⟩ | ⟨x, hx, hok⟩
    · refine .waiting hreads hfn hsound hin hopen ?_
      obtain ⟨ph', a⟩ := next
      dsimp only at hr hq hopen
      rw [hr]
      cases a with
      | answer x => cases hq
      | get key =>
        obtain rfl := Option.some.inj hq
        exact .write (by simp [ProxyMessage.request]) hlen
      | put key value =>
        obtain rfl := Option.some.inj hq
        exact .write (by simp [ProxyMessage.request]) hlen
    · rw [hx] at hr
      exact .ended hreads hsound hex (x := x) (by rw [hcalled]; exact hok) (.inl hr)

/-- RUN_WASM. -/
theorem Dialogue.ran {wasm : Bytes} (hl : load wasm = some (coffee L)) (env : Env) {buf : Bytes}
    (hbuf : buf = packArguments m.getInvocationRequest.functionName
      m.getInvocationRequest.arguments) :
    Dialogue L ([.read (some m), .file (some wasm)] ++ [.tee (some env)])
      ⟨dispatchReply ((taTee load).run freshRun env wasm buf).1, [],
        ((taTee load).run freshRun env wasm buf).2⟩ := by
  subst hbuf
  obtain ⟨hc, -⟩ := run_comes (t := freshRun) hl rfl env (packArguments
    m.getInvocationRequest.functionName m.getInvocationRequest.arguments)
  rcases hc with ⟨hst, hr⟩ | ⟨hst, hc⟩
  · exact .failed (.inl hr) (.inr ⟨env, [], rfl, hst⟩)
  · refine Dialogue.of_comes rfl (rfl : reads _ = [m]) ⟨by simp [Input.Fails], env, [], rfl, hst⟩
      (rowText_launch wasm _ _).1 hc .none ?_
    rcases stepOn_idle_cases (argsOf (runParams wasm (packArguments
      m.getInvocationRequest.functionName m.getInvocationRequest.arguments)))
      with ⟨ph, hget⟩ | ⟨herr, -⟩
    · rw [hget]
      exact .inl ⟨_, rfl, [], .asked hget, rfl⟩
    · rw [herr]
      exact .inr ⟨_, rfl, fun he => absurd he (by decide)⟩

/-- A turn of the loop: the request is written, its reply is read, or the
TEE is resumed on it. -/
theorem Dialogue.turn {hd : Handler} (hreads : reads is = m :: ms)
    (hfn : rowText args 0 = clip 63 m.getInvocationRequest.functionName) (hsound : Sound is)
    (hin : InPhase L args ph t.ta) (hopen : Open args ph contents reqs)
    (hturn : AtTurn reqs ms hd sent) (hm : Call.Move (taTee load) t sent hd i c') :
    Dialogue L (is ++ [i]) c' := by
  cases hturn with
  | write hsent hms =>
    cases hm with
    | wroteRequest kind m' =>
      have hreads' : reads (is ++ [.write true]) = m :: ms := by
        rw [reads_append, hreads]
        simp [reads]
      exact .waiting hreads' hfn (hsound.append (by simp [Input.Fails])) hin hopen
        (.read hsent hms)
    | writeLost => exact .failed (.inl rfl) (broken_of_fails is trivial)
  | read hsent hms =>
    cases hm with
    | gotReply kind m' =>
      have hreads' : reads (is ++ [.read (some m')]) = m :: (ms ++ [m']) := by
        rw [reads_append, hreads]
        simp [reads]
      exact .waiting hreads' hfn (hsound.append (by simp [Input.Fails])) hin hopen
        (.resume hsent (by rw [List.length_append]; exact hms))
    | replyLost => exact .failed (.inl rfl) (broken_of_fails is trivial)
  | @resume b sent hsent hms =>
    cases hm with
    | resumed _ env =>
      have hreads' : reads (is ++ [.tee (some env)]) = m :: ms := by
        rw [reads_append, hreads]
        simp [reads]
      obtain ⟨hc, -⟩ := hin.resume_comes load env b
      refine Dialogue.of_comes rfl hreads' (hsound.append (by simp [Input.Fails])) hfn hc
        (by rw [hsent]; exact hopen.exchanged hms) ?_
      rw [hsent]
      -- the machine asks for one more write, or answers
      rcases hopen.next b with ⟨ph', v, hput, hopen'⟩ | ⟨ph', x, hans⟩
      · rw [hput]
        refine .inl ⟨_, rfl, _, hopen', ?_⟩
        rw [List.length_append, hms]
        rfl
      · refine .inr ⟨x, by rw [hans], ?_⟩
        rintro rfl
        exact hopen.wrote_of_ok hans
    | resumeLost => exact .failed (.inl rfl) (broken_of_fails is trivial)

/-- **A step of a call keeps it.** -/
theorem Dialogue.feed (hfile : ∀ wasm, .file (some wasm) ∈ is → load wasm = some (coffee L))
    (h : Dialogue L is c) (hf : c.feed (taTee load) i = some c') : Dialogue L (is ++ [i]) c' := by
  have hm := Call.feed_cases hf
  cases h with
  | arrived h =>
    subst h
    cases hm with
    | requestLost => exact .failed (.inr ⟨_, rfl⟩) (broken_of_fails [] trivial)
    | gotRequest m => exact .requested rfl
  | requested h =>
    subst h
    cases hm with
    | noFile => exact .failed (.inl rfl) (broken_of_fails [_] trivial)
    | file req wasm => exact .opened rfl
  | @opened m wasm h =>
    subst h
    cases hm with
    | runLost => exact .failed (.inl rfl) (broken_of_fails [_, _] trivial)
    | ran wasm buf env => exact .ran (hfile wasm (by simp)) env rfl
  | waiting hreads hfn hsound hin hopen hturn => exact .turn hreads hfn hsound hin hopen hturn hm
  | @ended c m ms x hreads hsound hex hok hhd =>
    obtain ⟨hd, sent, t⟩ := c
    dsimp only at hm hhd
    -- nothing is read or asked for any more
    have hkeep : reads (is ++ [i]) = reads is → ∀ c' : Call (TaRun Globals),
        c'.requests = (⟨hd, sent, t⟩ : Call (TaRun Globals)).requests → ¬ i.Fails →
        (c'.handler = .restart true ∨ c'.handler = .finished .ok) →
        c'.sent.getLast? = some (.invocationResponse x) → Dialogue L (is ++ [i]) c' := by
      intro hr c' hq hi hh hl
      refine .ended (x := x) (hr.trans hreads) (hsound.append hi) (by rw [hq]; exact hex) ?_
        (.inr ⟨hh, hl⟩)
      rw [hr, hq]
      exact hok
    rcases hhd with rfl | ⟨rfl | rfl, hlast⟩
    · cases hm with
      | wroteResponse m' =>
        refine hkeep (by simp [reads]) _ ?_ (by simp [Input.Fails]) (.inl rfl)
          (by simp)
        simp [Call.requests, ProxyMessage.request]
      | responseLost => exact .failed (.inl rfl) (broken_of_fails is trivial)
    · cases hm with
      | restarted ok =>
        exact hkeep (by simp [reads]) _ rfl (by simp [Input.Fails]) (.inr rfl) hlast
    · cases hm
  | failed hhd hb =>
    obtain ⟨hd, sent, t⟩ := c
    dsimp only at hm hhd
    rcases hhd with rfl | ⟨e, rfl⟩
    · cases hm with
      | restarted ok => exact .failed (.inr ⟨_, rfl⟩) (hb.append _)
    · cases hm

/-- **The replies of a client are checked** if and only if the client
itself sends the right ones, or an outside call of the proxy fails: for
every sequence of messages a client may send and every failure, at the end
of the call. -/
theorem replies_checked_iff (L : Layout) {load : Loader Globals} {is : List (Input Env)}
    {c : Call (TaRun Globals)}
    (hfile : ∀ wasm, .file (some wasm) ∈ is → load wasm = some (coffee L))
    (hrun : (Call.start freshRun).run (taTee load) is = some c)
    (hfin : ∃ st, c.handler = .finished st) :
    Checked (reads is) c ↔ Matching (reads is) ∨ Broken is := by
  have hd : Dialogue L is c := by
    refine Call.run_induct (I := fun is c => (∀ wasm, .file (some wasm) ∈ is →
      load wasm = some (coffee L)) → Dialogue L is c) (fun _ => .arrived rfl) ?_ hrun hfile
    intro is i c₁ c₂ h hf hfile
    have hfile' : ∀ wasm, .file (some wasm) ∈ is → load wasm = some (coffee L) :=
      fun wasm hw => hfile wasm (List.mem_append_left _ hw)
    exact (h hfile').feed hfile' hf
  obtain ⟨st, hst⟩ := hfin
  cases hd with
  | arrived | requested | opened => cases hst
  | waiting _ _ _ _ _ hturn =>
    rw [hst] at hturn
    cases hturn
  | failed hhd hb =>
    refine iff_of_true (fun hok => ?_) (.inr hb)
    rcases hhd with hh | ⟨e, hh⟩ <;> rw [hh] at hok <;> cases hok
  | @ended c m ms x hreads hsound hex hok hhd =>
    obtain ⟨-, hlast⟩ : (c.handler = .restart true ∨ c.handler = .finished .ok) ∧
        c.sent.getLast? = some (.invocationResponse x) := by
      refine hhd.resolve_left fun hh => ?_
      rw [hst] at hh
      cases hh
    have hfinished : c.handler = .finished .ok := by
      rcases hhd with hh | ⟨hh | hh, -⟩
      · rw [hst] at hh; cases hh
      · rw [hst] at hh; cases hh
      · exact hh
    rw [or_iff_left hsound.not_broken, hreads]
    rw [hreads] at hok
    constructor
    · intro hchecked
      exact (hex.answers_iff m).1 (hchecked hfinished).1
    · intro hm _
      refine ⟨(hex.answers_iff m).2 hm, fun hf hl => ?_⟩
      rw [hlast] at hl
      obtain rfl : x = Lit.ok.text := by simpa using hl
      exact hex.exists_put (hok rfl hf) hm

/-! ## A first record, with any reply to its PUT -/

/-- What the outside brings back for a `create` whose GET finds nothing
and whose PUT is answered by `m`. -/
def createInputs (m : WrapperMessage) : List (Input Env) :=
  [.read (some (.invocationRequest ⟨[], ascii "create", [ascii "alice", ascii "7"], []⟩)),
    .file (some smallestWasm), .tee (some Env.ok), .write true, .read (some (.getStateResponse [])),
    .tee (some Env.ok), .write true, .read (some m), .tee (some Env.ok), .write true, .restarted]

/-- **It answers OK, whatever the reply to its PUT.** -/
theorem create_run (m : WrapperMessage) :
    ∃ t, (Call.start freshRun).run (taTee linkedLoader) (createInputs m) =
      some ⟨.finished .ok, [.getStateRequest (ascii "alice"),
        .putStateRequest (ascii "alice") (ascii "7"), .invocationResponse (ascii "OK")], t⟩ := by
  have hl : linkedLoader smallestWasm = some (coffee linked) := rfl
  obtain ⟨hdisp, hin⟩ := run_initializeSession hl (packArguments (ascii "create")
    [ascii "alice", ascii "7"]) []
  have hstep : ∀ ph v, stepOn (argsOf (runParams smallestWasm (packArguments (ascii "create")
      [ascii "alice", ascii "7"]))) ph v =
        ph.next (ascii "create") (ascii "alice") (ascii "7") v := by
    intro ph v
    rw [stepOn, rowText_argsOf smallestWasm _ _ (by omega),
      rowText_argsOf smallestWasm _ _ (by omega), rowText_argsOf smallestWasm _ _ (by omega)]
    rfl
  rw [hstep] at hdisp hin
  -- the reply to the GET, and the one to the PUT
  obtain ⟨hdisp₁, hin₁⟩ := hin.resume linkedLoader (writeReply .get (.getStateResponse []))
  rw [hstep, show bufferValue (writeReply .get (.getStateResponse [])) = [] from
    clip_writeReply_get _] at hdisp₁ hin₁
  obtain ⟨hdisp₂, -⟩ := hin₁.resume linkedLoader (writeReply .put m)
  rw [hstep] at hdisp₂
  rw [createInputs, Call.start, Call.run_cons, Call.feed_readRequest, Option.bind_some,
    Call.run_cons, Call.feed_openFile, Option.bind_some, Call.run_cons, Call.feed_run,
    Option.bind_some]
  simp only [WrapperMessage.getInvocationRequest]
  rw [hdisp, show (Phase.next (ascii "create") (ascii "alice") (ascii "7") .idle []).2.handler =
      .writeRequest .get (.getStateRequest (ascii "alice")) from rfl,
    Call.run_cons, Call.feed_writeRequest, Option.bind_some, Call.run_cons, Call.feed_readReply,
    Option.bind_some, Call.run_cons, Call.feed_resume, Option.bind_some, hdisp₁,
    show (Phase.next (ascii "create") (ascii "alice") (ascii "7")
      (Phase.next (ascii "create") (ascii "alice") (ascii "7") .idle []).1 []).2.handler =
      .writeRequest .put (.putStateRequest (ascii "alice") (ascii "7")) from rfl,
    Call.run_cons, Call.feed_writeRequest, Option.bind_some, Call.run_cons, Call.feed_readReply,
    Option.bind_some, Call.run_cons, Call.feed_resume, Option.bind_some, hdisp₂]
  exact ⟨_, rfl⟩

/-- A client that acknowledges the PUT. -/
theorem replies_checked_iff_acknowledged :
    ∃ c, (Call.start freshRun).run (taTee linkedLoader)
        (createInputs (.putStateResponse (ascii "OK"))) = some c ∧ c.handler = .finished .ok ∧
      Checked (reads (createInputs (.putStateResponse (ascii "OK")))) c := by
  obtain ⟨t, hrun⟩ := create_run (.putStateResponse (ascii "OK"))
  refine ⟨_, hrun, rfl, (replies_checked_iff linked (fun _ _ => rfl) hrun ⟨_, rfl⟩).2 (.inl ?_)⟩
  refine ⟨?_, ?_⟩
  · rintro _ ⟨⟩
    exact ⟨_, rfl⟩
  · rintro _ ⟨⟩
    rfl

/-- A client that refuses it, or answers it with something else: the call
succeeds and answers OK. -/
theorem refused_put_is_ok :
    ∃ c c', (Call.start freshRun).run (taTee linkedLoader)
        (createInputs (.putStateResponse (ascii "ERROR"))) = some c ∧
      (Call.start freshRun).run (taTee linkedLoader)
        (createInputs (.getStateResponse (ascii "9"))) = some c' ∧
      c.handler = .finished .ok ∧
      c.sent.getLast? = some (.invocationResponse (ascii "OK")) ∧
      c'.handler = .finished .ok ∧
      c'.sent.getLast? = some (.invocationResponse (ascii "OK")) ∧
      ¬ Checked (reads (createInputs (.putStateResponse (ascii "ERROR")))) c ∧
      ¬ Checked (reads (createInputs (.getStateResponse (ascii "9")))) c' := by
  obtain ⟨t, hrun⟩ := create_run (.putStateResponse (ascii "ERROR"))
  obtain ⟨t', hrun'⟩ := create_run (.getStateResponse (ascii "9"))
  refine ⟨_, _, hrun, hrun', rfl, rfl, rfl, rfl, fun h => ?_, fun h => ?_⟩
  · have hput := (h rfl).1 (.put (ascii "alice") (ascii "7")) (.putStateResponse (ascii "ERROR"))
      (List.mem_cons_of_mem _ List.mem_cons_self)
    rw [answers_put_iff] at hput
    exact absurd hput (by decide)
  · exact (h rfl).1 (.put (ascii "alice") (ascii "7")) (.getStateResponse (ascii "9"))
      (List.mem_cons_of_mem _ List.mem_cons_self)

end Coffee

end TeeChaincode
