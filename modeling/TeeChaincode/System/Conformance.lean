import TeeChaincode.System.Moves

/-!
# The protocol between wrapper and proxy

For every TEE, whatever it replies, and every run, whatever fails: at
most one message is in flight; the wrapper's side of the stream is a word
of the protocol automaton; the proxy sends at most one final response and
nothing behind it; and the stub is called for exactly the requests the
TEE emitted, in their order, up to the last one of a run that does not
succeed.

Each party keeps an invariant about its own events. The two meet in the
streams, which are FIFO: what was sent is what was received and what is
in flight. Counting both sides gives the first claim, and chaining them
the last.
-/

namespace TeeChaincode

open Common

/-! ## What a trace says -/

/-- The kind of a request. -/
def Request.kind : Request → RequestKind
  | .get _ => .get
  | .put _ _ => .put

/-- The request a reply of the TEE emits. -/
def TeeReply.request (r : TeeReply) : Option Request :=
  if r.result ≠ .success then none
  else if r.valueA = getStateRequest then some (.get (cstr r.sharedBuf))
  else if r.valueA = putStateRequest then
    some (.put (cstr r.sharedBuf) (cstr (r.sharedBuf.drop keySize)))
  else none

/-- The wrapper's messages and the proxy's, as sent and as received. -/
def upSent (tr : List Event) : List WrapperMessage :=
  tr.filterMap fun | .wrapperSent m => some m | _ => none

def upReceived (tr : List Event) : List WrapperMessage :=
  tr.filterMap fun | .proxyReceived m => some m | _ => none

def downSent (tr : List Event) : List ProxyMessage :=
  tr.filterMap fun | .proxySent m => some m | _ => none

def downReceived (tr : List Event) : List ProxyMessage :=
  tr.filterMap fun | .wrapperReceived m => some m | _ => none

/-- The calls of the stub. -/
def stubCalls (tr : List Event) : List Request :=
  tr.filterMap fun
    | .getState key => some (.get key)
    | .putState key value => some (.put key value)
    | _ => none

/-- The requests the TEE emitted. -/
def teeRequests (tr : List Event) : List Request :=
  tr.filterMap fun | .teeReplied r => r.request | _ => none

/-- An event of the wrapper's side of the stream. -/
inductive StreamEvent
  | sent (m : WrapperMessage)
  | received (m : ProxyMessage)
deriving DecidableEq, Repr

/-- The wrapper's side of the stream. -/
def stream (tr : List Event) : List StreamEvent :=
  tr.filterMap fun
    | .wrapperSent m => some (.sent m)
    | .wrapperReceived m => some (.received m)
    | _ => none

/-! ## The protocol -/

/-- Whose turn it is, as the wrapper sees it. -/
inductive Turn
  /-- Nothing has been sent. -/
  | start
  /-- The next message comes from the proxy. -/
  | waiting
  /-- A request has been received and not been replied to. -/
  | owes (kind : RequestKind)
  /-- The final response has been received. -/
  | over
deriving DecidableEq, Repr

/-- **The protocol**, one event at a time. -/
def Turn.next : Turn → StreamEvent → Option Turn
  | .start, .sent (.invocationRequest _) => some .waiting
  | .waiting, .received (.getStateRequest _) => some (.owes .get)
  | .waiting, .received (.putStateRequest _ _) => some (.owes .put)
  | .waiting, .received (.invocationResponse _) => some .over
  | .owes .get, .sent (.getStateResponse _) => some .waiting
  | .owes .put, .sent (.putStateResponse _) => some .waiting
  | _, _ => none

/-- The turn behind a word of the protocol. -/
def conform (es : List StreamEvent) : Option Turn := es.foldlM Turn.next .start

theorem conform_snoc (es : List StreamEvent) (e : StreamEvent) :
    conform (es ++ [e]) = (conform es).bind fun t => t.next e := by
  simp [conform, List.foldlM_append]

/-- What the wrapper has sent beyond what it has received. -/
def Turn.credit : Turn → ℕ
  | .waiting => 1
  | _ => 0

/-! ## Reading a longer trace -/

section Append

variable (tr evs : List Event)

theorem upSent_append : upSent (tr ++ evs) = upSent tr ++ upSent evs := List.filterMap_append

theorem upReceived_append : upReceived (tr ++ evs) = upReceived tr ++ upReceived evs :=
  List.filterMap_append

theorem downSent_append : downSent (tr ++ evs) = downSent tr ++ downSent evs :=
  List.filterMap_append

theorem downReceived_append : downReceived (tr ++ evs) = downReceived tr ++ downReceived evs :=
  List.filterMap_append

theorem stubCalls_append : stubCalls (tr ++ evs) = stubCalls tr ++ stubCalls evs :=
  List.filterMap_append

theorem teeRequests_append : teeRequests (tr ++ evs) = teeRequests tr ++ teeRequests evs :=
  List.filterMap_append

/-- A TEE command that was answered adds the request of its reply. -/
theorem teeRequests_replied (r : TeeReply) : teeRequests (repliedEvents r) = r.request.toList := by
  unfold repliedEvents
  cases hr : r.request <;> split <;> simp [teeRequests, hr]

theorem stream_append : stream (tr ++ evs) = stream tr ++ stream evs := List.filterMap_append

end Append

/-! ## The wrapper's side -/

/-- The wrapper's state at a turn. -/
inductive Turn.Fits : Turn → Wrapper → Prop
  | dial (req : InvocationRequest) : Fits .start (.dial req)
  | request (req : InvocationRequest) : Fits .start (.send (.invocationRequest req))
  | recv : Fits .waiting .recv
  | getState (key : Bytes) : Fits (.owes .get) (.getState key)
  | getReply (v : Bytes) : Fits (.owes .get) (.send (.getStateResponse v))
  | putState (key value : Bytes) : Fits (.owes .put) (.putState key value)
  | putReply (a : Bytes) : Fits (.owes .put) (.send (.putStateResponse a))
  | success (x : Bytes) : Fits .over (.done (.success x))
  | error (t : Turn) (e : Bytes) : Fits t (.done (.error e))

/-- The request the wrapper is about to call the stub for. -/
def Wrapper.owed : Wrapper → List Request
  | .getState key => [.get key]
  | .putState key value => [.put key value]
  | _ => []

/-- **The wrapper's invariant**, about its own events: they are a word of
the protocol, and the stub has been called for every request received but
the one at hand. -/
structure WrapperSide (w : Wrapper) (tr : List Event) : Prop where
  turn : ∃ t, conform (stream tr) = some t ∧ t.Fits w ∧
    (upSent tr).length = (downReceived tr).length + t.credit ∧
    (t = .over → ∃ x, .invocationResponse x ∈ downReceived tr)
  calls : (downReceived tr).filterMap ProxyMessage.request = stubCalls tr ++ w.owed

variable {tr evs : List Event} {w w' : Wrapper} {down down' : List ProxyMessage}
variable {stub stub' : Stub} {up up' : List WrapperMessage} {sent : List WrapperMessage}

/-- A move off the stream: the turn stays, and the stub is called for what
is owed no longer. -/
theorem WrapperSide.off (h : WrapperSide w tr) (hf : ∀ t : Turn, t.Fits w → t.Fits w')
    (hs : stream evs = []) (hu : upSent evs = []) (hd : downReceived evs = [])
    (hc : w.owed = stubCalls evs ++ w'.owed) : WrapperSide w' (tr ++ evs) := by
  obtain ⟨⟨t, ht, hfits, hn, ho⟩, hcalls⟩ := h
  have hdown : downReceived (tr ++ evs) = downReceived tr := by
    rw [downReceived_append, hd, List.append_nil]
  refine ⟨⟨t, ?_, hf t hfits, ?_, ?_⟩, ?_⟩
  · rw [stream_append, hs, List.append_nil, ht]
  · rw [upSent_append, hu, List.append_nil, hdown, hn]
  · rw [hdown]
    exact ho
  · rw [hdown, hcalls, hc, stubCalls_append, List.append_assoc]

/-- A message sent. -/
theorem WrapperSide.send {m : WrapperMessage} (h : WrapperSide (.send m) tr) :
    WrapperSide .recv (tr ++ [.wrapperSent m]) := by
  obtain ⟨⟨t, ht, hf, hn, -⟩, hcalls⟩ := h
  have hstream : stream (tr ++ [.wrapperSent m]) = stream tr ++ [.sent m] := stream_append _ _
  have hup : upSent (tr ++ [.wrapperSent m]) = upSent tr ++ [m] := upSent_append _ _
  have hdown : downReceived (tr ++ [.wrapperSent m]) = downReceived tr := by
    rw [downReceived_append]
    exact List.append_nil _
  -- whichever message is due, it hands the turn over
  have hnext : t.next (.sent m) = some .waiting ∧ t.credit = 0 := by
    cases hf <;> exact ⟨rfl, rfl⟩
  refine ⟨⟨.waiting, ?_, .recv, ?_, fun h => by cases h⟩, ?_⟩
  · rw [hstream, conform_snoc, ht, Option.bind_some, hnext.1]
  · rw [hup, hdown, List.length_append, hn, hnext.2]
    rfl
  · have hstub : stubCalls (tr ++ [.wrapperSent m]) = stubCalls tr := by
      rw [stubCalls_append]
      exact List.append_nil _
    rw [hdown, hcalls, hstub]
    rfl

/-- A message received. -/
theorem WrapperSide.receive (h : WrapperSide .recv tr) {m : ProxyMessage} (hm : m ≠ .unset) :
    WrapperSide (handleMessage m) (tr ++ [.wrapperReceived m]) := by
  obtain ⟨⟨t, ht, hf, hn, -⟩, hcalls⟩ := h
  cases hf
  have hstream : stream (tr ++ [.wrapperReceived m]) = stream tr ++ [.received m] :=
    stream_append _ _
  have hup : upSent (tr ++ [.wrapperReceived m]) = upSent tr := by
    rw [upSent_append]
    exact List.append_nil _
  have hdown : downReceived (tr ++ [.wrapperReceived m]) = downReceived tr ++ [m] :=
    downReceived_append _ _
  have hstub : stubCalls (tr ++ [.wrapperReceived m]) = stubCalls tr := by
    rw [stubCalls_append]
    exact List.append_nil _
  have hcount : (upSent tr).length = (downReceived tr ++ [m]).length := by
    rw [hn, List.length_append]
    rfl
  have hreq : (downReceived tr ++ [m]).filterMap ProxyMessage.request =
      stubCalls tr ++ m.request.toList := by
    have howed : Wrapper.owed .recv = [] := rfl
    rw [List.filterMap_append, hcalls, howed, List.append_nil]
    cases m <;> rfl
  have hturn : ∃ t', Turn.next .waiting (.received m) = some t' ∧ t'.Fits (handleMessage m) ∧
      t'.credit = 0 ∧ m.request.toList = (handleMessage m).owed ∧
      (t' = .over → ∃ x, m = .invocationResponse x) := by
    cases m with
    | invocationResponse x => exact ⟨_, rfl, .success x, rfl, rfl, fun _ => ⟨x, rfl⟩⟩
    | getStateRequest key => exact ⟨_, rfl, .getState key, rfl, rfl, fun h => by cases h⟩
    | putStateRequest key value =>
      exact ⟨_, rfl, .putState key value, rfl, rfl, fun h => by cases h⟩
    | unset => exact absurd rfl hm
  obtain ⟨t', hnext, hfits, hcredit, howed, hover⟩ := hturn
  refine ⟨⟨t', ?_, hfits, ?_, fun ho => ?_⟩, ?_⟩
  · rw [hstream, conform_snoc, ht, Option.bind_some, hnext]
  · rw [hup, hdown, hcount, hcredit]
    rfl
  · obtain ⟨x, rfl⟩ := hover ho
    exact ⟨x, by rw [hdown]; simp⟩
  · rw [hdown, hstub, hreq, howed]

/-- **Each move of the wrapper keeps its invariant.** -/
theorem WrapperSide.move (h : WrapperSide w tr)
    (hm : WrapperMove down stub w w' evs sent down' stub') (hd : ∀ m ∈ down, m ≠ .unset) :
    WrapperSide w' (tr ++ evs) := by
  have herr : ∀ (e : Bytes) (t : Turn), t.Fits w → t.Fits (.done (.error e)) :=
    fun e t _ => .error t e
  cases hm with
  | dialled req => exact h.off (fun t ht => by cases ht; exact .request req) rfl rfl rfl rfl
  | dialFailed req e => exact h.off (herr e) rfl rfl rfl rfl
  | sent m => exact h.send
  | sendFailed m e => exact h.off (herr e) rfl rfl rfl rfl
  | received m rest hdown => exact h.receive (hd m (by rw [hdown]; exact List.mem_cons_self))
  | recvFailed e => exact h.off (herr e) rfl rfl rfl rfl
  | got key => exact h.off (fun t ht => by cases ht; exact .getReply _) rfl rfl rfl rfl
  | getFailed key e => exact h.off (herr e) rfl rfl rfl rfl
  | put key value => exact h.off (fun t ht => by cases ht; exact .putReply _) rfl rfl rfl rfl
  | putFailed key value e => exact h.off (herr e) rfl rfl rfl rfl

/-! ## The proxy's side -/

/-- What the proxy holds at each point: how many of the messages it
received it has not answered yet, and the request it is about to write. -/
inductive Handler.Holds : Handler → ℕ → List Request → Prop
  | readRequest : Holds .readRequest 0 []
  | openFile (req : InvocationRequest) : Holds (.openFile req) 1 []
  | run (wasm buf : Bytes) : Holds (.run wasm buf) 1 []
  | writeResponse (x : Bytes) : Holds (.writeResponse (.invocationResponse x)) 1 []
  | writeRequest (r : Request) : Holds (.writeRequest r.kind r.message) 1 [r]
  | readReply (kind : RequestKind) : Holds (.readReply kind) 0 []
  | resume (buf : Bytes) : Holds (.resume buf) 1 []
  | restart (ok : Bool) {n : ℕ} {lost : List Request} (h : lost.length ≤ n) (h1 : n ≤ 1) :
      Holds (.restart ok) n lost
  | finished (st : Status) {n : ℕ} {lost : List Request} (h : lost.length ≤ n) (h1 : n ≤ 1) :
      Holds (.finished st) n lost

/-- A handler that writes nothing any more. -/
def Handler.Ended : Handler → Prop
  | .restart _ | .finished _ => True
  | _ => False

/-- **The proxy's invariant**, about its own events: it has sent on the
requests the TEE emitted but those it holds or lost, and behind them at
most a final response, with nothing lost before it. -/
structure ProxySide (hd : Handler) (tr : List Event) : Prop where
  sends : ∃ (reqs : List Request) (last : Option Bytes) (held : List Request) (n : ℕ),
    downSent tr = reqs.map Request.message ++ (last.map ProxyMessage.invocationResponse).toList ∧
    teeRequests tr = reqs ++ held ∧ hd.Holds n held ∧
    (upReceived tr).length = (downSent tr).length + n ∧ (last ≠ none → hd.Ended ∧ held = [])

variable {τ ε : Type} {T : Tee τ ε} {t t' : τ} {hd hd' : Handler} {down₀ : List ProxyMessage}

/-- What a handler goes on with behind a reply of the TEE. -/
theorem dispatchReply_holds (r : TeeReply) :
    (dispatchReply r).Holds 1 r.request.toList := by
  unfold dispatchReply TeeReply.request
  split
  · exact .restart false (by simp) le_rfl
  · split
    · rename_i h
      rw [h, if_neg (by decide), if_neg (by decide)]
      exact .writeResponse _
    · split
      · exact .writeRequest (.get _)
      · split
        · exact .writeRequest (.put _ _)
        · exact .restart false (by simp) le_rfl

/-- A failed call of the proxy leaves what it held as lost. -/
theorem Handler.Holds.fail {n : ℕ} {held : List Request} (h : hd.Holds n held) :
    (Handler.restart false).Holds n held := by
  cases h with
  | restart ok h h1 => exact .restart false h h1
  | finished st h h1 => exact .restart false h h1
  | _ => exact .restart false (by simp) (by omega)

/-- A move that neither reads, nor writes, nor asks the TEE. -/
theorem ProxySide.off (h : ProxySide hd tr)
    (hh : ∀ n held, hd.Holds n held → hd'.Holds n held) (he : hd.Ended → hd'.Ended)
    (hs : downSent evs = []) (hr : upReceived evs = []) (ht : teeRequests evs = []) :
    ProxySide hd' (tr ++ evs) := by
  obtain ⟨reqs, last, held, n, hsent, hreq, hholds, hn, hlast⟩ := h
  have hdown : downSent (tr ++ evs) = downSent tr := by rw [downSent_append, hs, List.append_nil]
  refine ⟨reqs, last, held, n, hdown.trans hsent, ?_, hh n held hholds, ?_, fun hl => ?_⟩
  · rw [teeRequests_append, ht, List.append_nil, hreq]
  · rw [upReceived_append, hr, List.append_nil, hdown, hn]
  · exact ⟨he (hlast hl).1, (hlast hl).2⟩

/-- A message read. -/
theorem ProxySide.read (h : ProxySide hd tr) {m : WrapperMessage}
    (hh : ∀ n held, hd.Holds n held → n = 0 ∧ held = []) (hne : ¬ hd.Ended)
    (hh' : hd'.Holds 1 []) : ProxySide hd' (tr ++ [.proxyReceived m]) := by
  obtain ⟨reqs, last, held, n, hsent, hreq, hholds, hn, hlast⟩ := h
  obtain ⟨rfl, rfl⟩ := hh n held hholds
  have hdown : downSent (tr ++ [.proxyReceived m]) = downSent tr := by
    rw [downSent_append]
    exact List.append_nil _
  have htee : teeRequests (tr ++ [.proxyReceived m]) = teeRequests tr := by
    rw [teeRequests_append]
    exact List.append_nil _
  have hup : upReceived (tr ++ [.proxyReceived m]) = upReceived tr ++ [m] := upReceived_append _ _
  refine ⟨reqs, last, [], 1, hdown.trans hsent, htee.trans hreq, hh', ?_,
    fun hl => absurd (hlast hl).1 hne⟩
  rw [hup, hdown, List.length_append, hn]
  rfl

/-- A TEE command answered. -/
theorem ProxySide.reply (h : ProxySide hd tr) (r : TeeReply)
    (hh : ∀ n held, hd.Holds n held → n = 1 ∧ held = []) (hne : ¬ hd.Ended) :
    ProxySide (dispatchReply r) (tr ++ repliedEvents r) := by
  obtain ⟨reqs, last, held, n, hsent, hreq, hholds, hn, hlast⟩ := h
  obtain ⟨rfl, rfl⟩ := hh n held hholds
  have hdown : downSent (tr ++ repliedEvents r) = downSent tr := by
    have hnil : downSent (repliedEvents r) = [] := by
      unfold repliedEvents
      split <;> rfl
    rw [downSent_append, hnil, List.append_nil]
  have hup : upReceived (tr ++ repliedEvents r) = upReceived tr := by
    have hnil : upReceived (repliedEvents r) = [] := by
      unfold repliedEvents
      split <;> rfl
    rw [upReceived_append, hnil, List.append_nil]
  have htee := teeRequests_replied r
  refine ⟨reqs, last, r.request.toList, 1, hdown.trans hsent, ?_, dispatchReply_holds r, ?_,
    fun hl => absurd (hlast hl).1 hne⟩
  · rw [teeRequests_append, hreq, htee, List.append_nil]
  · rw [hup, hdown, hn]

/-- A request written. -/
theorem ProxySide.request {kind : RequestKind} {m : ProxyMessage}
    (h : ProxySide (.writeRequest kind m) tr) :
    ProxySide (.readReply kind) (tr ++ [.proxySent m]) := by
  obtain ⟨reqs, last, held, n, hsent, hreq, hholds, hn, hlast⟩ := h
  have hnone : last = none := by
    by_contra hl
    exact (hlast hl).1
  subst hnone
  cases hholds with
  | writeRequest r =>
    have hdown : downSent (tr ++ [.proxySent r.message]) = downSent tr ++ [r.message] :=
      downSent_append _ _
    have hup : upReceived (tr ++ [.proxySent r.message]) = upReceived tr := by
      rw [upReceived_append]
      exact List.append_nil _
    have htee : teeRequests (tr ++ [.proxySent r.message]) = teeRequests tr := by
      rw [teeRequests_append]
      exact List.append_nil _
    refine ⟨reqs ++ [r], none, [], 0, ?_, ?_, .readReply _, ?_, fun hl => absurd rfl hl⟩
    · rw [hdown, hsent]
      simp
    · rw [htee, hreq, List.append_nil]
    · rw [hup, hdown, hn, List.length_append]
      rfl

/-- The final response written. -/
theorem ProxySide.response {m : ProxyMessage} (h : ProxySide (.writeResponse m) tr) :
    ProxySide (.restart true) (tr ++ [.proxySent m]) := by
  obtain ⟨reqs, last, held, n, hsent, hreq, hholds, hn, hlast⟩ := h
  have hnone : last = none := by
    by_contra hl
    exact (hlast hl).1
  subst hnone
  cases hholds with
  | writeResponse x =>
    have hdown : downSent (tr ++ [.proxySent (.invocationResponse x)]) =
        downSent tr ++ [.invocationResponse x] := downSent_append _ _
    have hup : upReceived (tr ++ [.proxySent (.invocationResponse x)]) = upReceived tr := by
      rw [upReceived_append]
      exact List.append_nil _
    have htee : teeRequests (tr ++ [.proxySent (.invocationResponse x)]) = teeRequests tr := by
      rw [teeRequests_append]
      exact List.append_nil _
    refine ⟨reqs, some x, [], 0, ?_, htee.trans hreq, .restart true le_rfl (by omega), ?_,
      fun _ => ⟨trivial, rfl⟩⟩
    · rw [hdown, hsent]
      simp
    · rw [hup, hdown, hn, List.length_append]
      rfl

/-- **Each move of the proxy keeps its invariant.** -/
theorem ProxySide.move (h : ProxySide hd tr) {sent' : List ProxyMessage}
    (hm : ProxyMove T up t hd hd' t' evs up' sent') : ProxySide hd' (tr ++ evs) := by
  cases hm with
  | requestLost =>
    refine h.off (fun n held hh => ?_) (fun _ => trivial) rfl rfl rfl
    cases hh
    exact .finished _ le_rfl (by omega)
  | gotRequest m rest _ =>
    refine h.read (fun n held hh => ?_) id (.openFile _)
    cases hh
    exact ⟨rfl, rfl⟩
  | noFile req => exact h.off (fun n held hh => hh.fail) (fun _ => trivial) rfl rfl rfl
  | file req wasm =>
    refine h.off (fun n held hh => ?_) id rfl rfl rfl
    cases hh
    exact .run _ _
  | runLost wasm buf => exact h.off (fun n held hh => hh.fail) (fun _ => trivial) rfl rfl rfl
  | ran wasm buf env =>
    refine h.reply _ (fun n held hh => ?_) id
    cases hh
    exact ⟨rfl, rfl⟩
  | wroteResponse m => exact h.response
  | responseLost m => exact h.off (fun n held hh => hh.fail) (fun _ => trivial) rfl rfl rfl
  | wroteRequest kind m => exact h.request
  | writeLost kind m => exact h.off (fun n held hh => hh.fail) (fun _ => trivial) rfl rfl rfl
  | gotReply kind m rest _ =>
    refine h.read (fun n held hh => ?_) id (.resume _)
    cases hh
    exact ⟨rfl, rfl⟩
  | replyLost kind => exact h.off (fun n held hh => hh.fail) (fun _ => trivial) rfl rfl rfl
  | resumed buf env =>
    refine h.reply _ (fun n held hh => ?_) id
    cases hh
    exact ⟨rfl, rfl⟩
  | resumeLost buf => exact h.off (fun n held hh => hh.fail) (fun _ => trivial) rfl rfl rfl
  | restarted ok =>
    refine h.off (fun n held hh => ?_) id rfl rfl rfl
    cases hh with
    | restart _ h h1 => exact .finished _ h h1

/-! ## Both sides -/

/-- What a wrapper's move logs of the streams. -/
theorem WrapperMove.events (hm : WrapperMove down stub w w' evs sent down' stub') :
    upSent evs = sent ∧ upReceived evs = [] ∧ downSent evs = [] ∧ teeRequests evs = [] ∧
      down = downReceived evs ++ down' := by
  cases hm with
  | received m rest h => exact ⟨rfl, rfl, rfl, rfl, h⟩
  | _ => exact ⟨rfl, rfl, rfl, rfl, rfl⟩

/-- And a proxy's move. -/
theorem ProxyMove.events {sent' : List ProxyMessage}
    (hm : ProxyMove T up t hd hd' t' evs up' sent') :
    upSent evs = [] ∧ downReceived evs = [] ∧ stubCalls evs = [] ∧ stream evs = [] ∧
      downSent evs = sent' ∧ up = upReceived evs ++ up' := by
  cases hm with
  | gotRequest m rest h => exact ⟨rfl, rfl, rfl, rfl, rfl, h⟩
  | gotReply kind m rest h => exact ⟨rfl, rfl, rfl, rfl, rfl, h⟩
  | ran wasm buf env =>
    unfold repliedEvents
    split <;> exact ⟨rfl, rfl, rfl, rfl, rfl, rfl⟩
  | resumed buf env =>
    unfold repliedEvents
    split <;> exact ⟨rfl, rfl, rfl, rfl, rfl, rfl⟩
  | _ => exact ⟨rfl, rfl, rfl, rfl, rfl, rfl⟩

/-- **The invariant of an invocation.** The streams are FIFO, and each
party keeps its side. -/
structure Conforming (s : Sys τ) : Prop where
  up_fifo : upSent s.trace = upReceived s.trace ++ s.up
  down_fifo : downSent s.trace = downReceived s.trace ++ s.down
  wrapper : WrapperSide s.wrapper s.trace
  proxy : ProxySide s.handler s.trace

theorem conforming_init (t : τ) (uuid ccfile : Bytes) (args : List Bytes) (l : Ledger) :
    Conforming (Sys.init t uuid ccfile args l) := by
  have hfits : Turn.Fits .start (invoke uuid ccfile args) ∧
      (invoke uuid ccfile args).owed = [] := by
    unfold invoke
    split
    · exact ⟨.dial _, rfl⟩
    · exact ⟨.error _ _, rfl⟩
  refine ⟨rfl, rfl, ⟨⟨.start, rfl, hfits.1, rfl, fun h => by cases h⟩, ?_⟩, ⟨[], none, [], 0, rfl,
    rfl, .readRequest, rfl, fun h => absurd rfl h⟩⟩
  exact hfits.2.symm

/-- A message on the stream is a request or the final response. -/
theorem Conforming.ne_unset {s : Sys τ} (h : Conforming s) : ∀ m ∈ s.down, m ≠ .unset := by
  rintro m hm rfl
  obtain ⟨reqs, last, held, n, hsent, -⟩ := h.proxy
  have hmem : ProxyMessage.unset ∈ downSent s.trace := by
    rw [h.down_fifo]
    exact List.mem_append_right _ hm
  rw [hsent, List.mem_append] at hmem
  rcases hmem with hmem | hmem
  · obtain ⟨r, -, hr⟩ := List.mem_map.1 hmem
    cases r <;> cases hr
  · cases last <;> simp at hmem

/-- **Every step keeps the invariant.** -/
theorem Conforming.step {files : Bytes → Option Bytes} {s s' : Sys τ} (h : Conforming s)
    (hs : Step T files s s') : Conforming s' := by
  cases hs with
  | wrapper fail hmove =>
    obtain ⟨w, evs, sent, down, stub, hm, rfl⟩ := wrapperMove_cases hmove
    obtain ⟨hus, hur, hds, htr, hdown⟩ := hm.events
    refine ⟨?_, ?_, h.wrapper.move hm h.ne_unset, h.proxy.off (fun _ _ h => h) id hds hur htr⟩
    · show upSent (s.trace ++ evs) = upReceived (s.trace ++ evs) ++ (s.up ++ sent)
      rw [upSent_append, upReceived_append, hus, hur, h.up_fifo, List.append_nil,
        List.append_assoc]
    · show downSent (s.trace ++ evs) = downReceived (s.trace ++ evs) ++ down
      rw [downSent_append, downReceived_append, hds, h.down_fifo, hdown, List.append_nil,
        List.append_assoc]
  | proxy c hmove =>
    obtain ⟨hd, t, evs, up, sent, hm, rfl⟩ := proxyMove_cases hmove
    obtain ⟨hus, hdr, hsc, hst, hds, hup⟩ := hm.events
    refine ⟨?_, ?_, h.wrapper.off (fun _ h => h) hst hus hdr (by rw [hsc]; rfl), h.proxy.move hm⟩
    · show upSent (s.trace ++ evs) = upReceived (s.trace ++ evs) ++ up
      rw [upSent_append, upReceived_append, hus, h.up_fifo, hup, List.append_nil,
        List.append_assoc]
    · show downSent (s.trace ++ evs) = downReceived (s.trace ++ evs) ++ (s.down ++ sent)
      rw [downSent_append, downReceived_append, hds, hdr, h.down_fifo, List.append_nil,
        List.append_assoc]

/-- **And so every run does.** -/
theorem conforming_of_run {files : Bytes → Option Bytes} {uuid ccfile : Bytes}
    {args : List Bytes} {l : Ledger} {s : Sys τ}
    (h : Relation.ReflTransGen (Step T files) (Sys.init t uuid ccfile args l) s) :
    Conforming s :=
  invariant_of_step (fun _ _ ha hs => ha.step hs) h (conforming_init t uuid ccfile args l)

/-! ## What follows -/

section Conclusions

variable {s : Sys τ}

/-- A handler has answered all messages it received but at most one. -/
theorem Handler.Holds.length_le {n : ℕ} {held : List Request} (h : hd.Holds n held) :
    held.length ≤ n ∧ n ≤ 1 := by
  cases h with
  | restart ok h h1 => exact ⟨h, h1⟩
  | finished st h h1 => exact ⟨h, h1⟩
  | _ => exact ⟨by simp, by omega⟩

/-- The wrapper is at most one message ahead, and then owes nothing. -/
theorem WrapperSide.count (h : WrapperSide w tr) :
    (downReceived tr).length ≤ (upSent tr).length ∧
      (upSent tr).length + w.owed.length ≤ (downReceived tr).length + 1 := by
  obtain ⟨⟨t, -, hf, hn, -⟩, -⟩ := h
  cases hf with
  | error t e =>
    have hc : t.credit ≤ 1 := by cases t <;> simp [Turn.credit]
    have ho : (Wrapper.done (.error e)).owed.length = 0 := rfl
    omega
  | _ => simp [hn, Turn.credit, Wrapper.owed]

/-- **At most one message is in flight.** -/
theorem Conforming.in_flight (h : Conforming s) : s.up.length + s.down.length ≤ 1 := by
  obtain ⟨h1, h2⟩ := h.wrapper.count
  obtain ⟨reqs, last, held, n, -, -, hholds, hn, -⟩ := h.proxy
  have hup := congrArg List.length h.up_fifo
  have hdown := congrArg List.length h.down_fifo
  rw [List.length_append] at hup hdown
  omega

/-- Only the last message the proxy sent can be a final response. -/
theorem Conforming.response_last (h : Conforming s) :
    ∀ m ∈ (downSent s.trace).dropLast, ∀ x, m ≠ .invocationResponse x := by
  obtain ⟨reqs, last, held, n, hsent, -⟩ := h.proxy
  have hreqs : ∀ m ∈ reqs.map Request.message, ∀ x, m ≠ .invocationResponse x := by
    intro m hm x hx
    obtain ⟨r, -, rfl⟩ := List.mem_map.1 hm
    cases r <;> cases hx
  intro m hm
  rw [hsent] at hm
  cases last with
  | none =>
    rw [Option.map_none, Option.toList_none, List.append_nil] at hm
    exact hreqs m ((List.dropLast_subset _) hm)
  | some y =>
    rw [Option.map_some, Option.toList_some, List.dropLast_concat] at hm
    exact hreqs m hm

theorem filterMap_message (reqs : List Request) :
    (reqs.map Request.message).filterMap ProxyMessage.request = reqs := by
  induction reqs with
  | nil => rfl
  | cons r reqs ih => cases r <;> simpa [Request.message, ProxyMessage.request] using ih

/-- **What the TEE emitted is what the stub was called for**, and what is
still on its way or lost. -/
theorem Conforming.requests (h : Conforming s) :
    ∃ rest, teeRequests s.trace = stubCalls s.trace ++ rest ∧ rest.length ≤ 1 ∧
      ∀ x, s.wrapper = .done (.success x) → rest = [] := by
  obtain ⟨h1, h2⟩ := h.wrapper.count
  obtain ⟨⟨t, -, hf, -, hover⟩, hcalls⟩ := h.wrapper
  obtain ⟨reqs, last, held, n, hsent, htee, hholds, hn, hlast⟩ := h.proxy
  have hup := congrArg List.length h.up_fifo
  have hdown := congrArg List.length h.down_fifo
  rw [List.length_append] at hup hdown
  have hheld := hholds.length_le
  have hreqs : reqs = stubCalls s.trace ++ s.wrapper.owed ++
      s.down.filterMap ProxyMessage.request := by
    have hfm := congrArg (List.filterMap ProxyMessage.request) (h.down_fifo.symm.trans hsent)
    rw [List.filterMap_append, List.filterMap_append, hcalls, filterMap_message] at hfm
    have hnil : (last.map ProxyMessage.invocationResponse).toList.filterMap ProxyMessage.request
        = [] := by
      cases last <;> rfl
    rw [hnil, List.append_nil] at hfm
    exact hfm.symm
  have hlen : (s.down.filterMap ProxyMessage.request).length ≤ s.down.length :=
    List.length_filterMap_le _ _
  refine ⟨s.wrapper.owed ++ (s.down.filterMap ProxyMessage.request ++ held), ?_, ?_, ?_⟩
  · rw [htee, hreqs]
    simp only [List.append_assoc]
  · simp only [List.length_append]
    omega
  · intro x hx
    rw [hx] at hf
    cases hf
    obtain ⟨y, hy⟩ := hover rfl
    -- the final response has been received, so it was the last message sent
    have hdnil : s.down = [] := by
      by_contra hne
      have hmem : .invocationResponse y ∈ (downSent s.trace).dropLast := by
        rw [h.down_fifo, List.dropLast_append_of_ne_nil hne]
        exact List.mem_append_left _ hy
      exact h.response_last _ hmem y rfl
    have hsome : last ≠ none := by
      rintro rfl
      have hmem : .invocationResponse y ∈ reqs.map Request.message := by
        have : .invocationResponse y ∈ downSent s.trace := by
          rw [h.down_fifo]
          exact List.mem_append_left _ hy
        rw [hsent] at this
        simpa using this
      obtain ⟨r, -, hr⟩ := List.mem_map.1 hmem
      cases r <;> cases hr
    rw [hdnil, (hlast hsome).2, hx]
    rfl

/-- **Protocol conformance and faithful ledger order.** In every state a
run of wrapper and proxy can reach, for any TEE and whatever fails: at
most one message is in flight; the wrapper's side of the stream is a word
of the protocol; only the last message of the proxy can be a final
response; and the stub was called for the requests the TEE emitted, in
order, all but at most the last, and all of them where `invoke`
succeeded. -/
theorem protocol_conformance {τ ε : Type} (T : Tee τ ε) (files : Bytes → Option Bytes) (t : τ)
    (uuid ccfile : Bytes) (args : List Bytes) (l : Ledger) (s : Sys τ)
    (h : Relation.ReflTransGen (Step T files) (Sys.init t uuid ccfile args l) s) :
    s.up.length + s.down.length ≤ 1 ∧
    (conform (stream s.trace)).isSome ∧
    (∀ m ∈ (downSent s.trace).dropLast, ∀ x, m ≠ .invocationResponse x) ∧
    (stubCalls s.trace <+: teeRequests s.trace ∧
      (teeRequests s.trace).length ≤ (stubCalls s.trace).length + 1 ∧
      ∀ x, s.wrapper = .done (.success x) → stubCalls s.trace = teeRequests s.trace) := by
  have hc := conforming_of_run h
  obtain ⟨turn, hturn, -⟩ := hc.wrapper.turn
  obtain ⟨rest, hreq, hlen, hsucc⟩ := hc.requests
  refine ⟨hc.in_flight, by rw [hturn]; rfl, hc.response_last, ⟨rest, hreq.symm⟩, ?_, ?_⟩
  · rw [hreq, List.length_append]
    omega
  · intro x hx
    rw [hreq, hsucc x hx, List.append_nil]

/-- A TEE that asks for one key and then answers. -/
def oneGet : Tee Unit Unit where
  run _ _ _ _ := (⟨.success, getStateRequest, ascii "key" ++ [0]⟩, ())
  resume _ _ _ := (⟨.success, invocationResponse, ascii "OK" ++ [0]⟩, ())
  restart _ := ()

/-- An invocation over it, to its success. -/
theorem protocol_conformance_oneGet :
    ∃ s, Relation.ReflTransGen (Step oneGet fun _ => some [])
        (Sys.init () [] [] [ascii "f", ascii "x"] fun _ => none) s ∧
      s.wrapper = .done (.success (ascii "OK")) ∧
      stubCalls s.trace = [.get (ascii "key")] ∧ teeRequests s.trace = [.get (ascii "key")] := by
  have hrun : ∃ s, Relation.ReflTransGen (Step oneGet fun _ => some [])
      (Sys.init () [] [] [ascii "f", ascii "x"] fun _ => none) s ∧
      s.wrapper = .done (.success (ascii "OK")) ∧ stubCalls s.trace = [.get (ascii "key")] := by
    refine ⟨_, .head (.wrapper none rfl) <| .head (.wrapper none rfl) <|
      .head (.proxy ⟨false, ()⟩ rfl) <| .head (.proxy ⟨false, ()⟩ rfl) <|
      .head (.proxy ⟨false, ()⟩ rfl) <| .head (.proxy ⟨false, ()⟩ rfl) <|
      .head (.wrapper none rfl) <| .head (.wrapper none rfl) <| .head (.wrapper none rfl) <|
      .head (.proxy ⟨false, ()⟩ rfl) <| .head (.proxy ⟨false, ()⟩ rfl) <|
      .head (.proxy ⟨false, ()⟩ rfl) <| .head (.wrapper none rfl) .refl, rfl, rfl⟩
  obtain ⟨s, hs, hw, hcalls⟩ := hrun
  have hall := (protocol_conformance oneGet _ () [] [] _ _ s hs).2.2.2.2.2 _ hw
  exact ⟨s, hs, hw, hcalls, hall ▸ hcalls⟩

end Conclusions

end TeeChaincode
