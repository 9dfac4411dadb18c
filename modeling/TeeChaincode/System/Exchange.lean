import TeeChaincode.System.Conformance

/-!
# A request and its reply

For every TEE and every run, whatever fails: while the proxy waits for
the reply to a request, the request is on its way to the wrapper, or the
wrapper is calling the stub for it, or the reply is on its way back, or
the wrapper has given up. So what the proxy resumes the TEE with is the
stub's answer to the last request the TEE emitted, and what is in the
write set are the PUT requests the stub was called for.
-/

namespace TeeChaincode

open Common

variable {τ ε : Type} {T : Tee τ ε} {files : Bytes → Option Bytes} {l : Ledger}

/-! ## Where a request is -/

/-- The call of the stub for a request. -/
def Request.call : Request → Wrapper
  | .get key => .getState key
  | .put key value => .putState key value

/-- The wrapper's reply to it. -/
def replyTo (l : Ledger) : Request → WrapperMessage
  | .get key => .getStateResponse ((l key).getD [])
  | .put _ _ => .putStateResponse (ascii "OK")

/-- The wrapper has not sent its request. -/
def Wrapper.Opens : Wrapper → Prop
  | .dial _ | .send _ | .done (.error _) => True
  | _ => False

/-- The wrapper waits for a message, or has given up. -/
inductive Wrapper.Waits : Wrapper → Prop
  | recv : Waits .recv
  | failed (e : Bytes) : Waits (.done (.error e))

/-- The handler is at work, with what it holds of the last request. -/
def Handler.Serves (l : Ledger) (last : Option Request) : Handler → Prop
  | .openFile _ | .run _ _ | .writeResponse _ => True
  | .writeRequest kind m => ∃ q, last = some q ∧ kind = q.kind ∧ m = q.message
  | .resume buf => ∃ q, last = some q ∧ buf = writeReply q.kind (replyTo l q)
  | _ => False

/-- **Where the last request is**, for each point the two parties can have
reached, with the streams between them. -/
inductive Talk (l : Ledger) (last : Option Request) :
    Handler → Wrapper → List WrapperMessage → List ProxyMessage → Prop
  | opening {w : Wrapper} (hw : w.Opens) : Talk l last .readRequest w [] []
  | requested {w : Wrapper} {m : WrapperMessage} (hw : w.Waits) : Talk l last .readRequest w [m] []
  | serving {hd : Handler} {w : Wrapper} (hh : hd.Serves l last) (hw : w.Waits) :
      Talk l last hd w [] []
  | asked {q : Request} {w : Wrapper} (hq : last = some q) (hw : w.Waits) :
      Talk l last (.readReply q.kind) w [] [q.message]
  | calling {q : Request} (hq : last = some q) : Talk l last (.readReply q.kind) q.call [] []
  | answering {q : Request} (hq : last = some q) :
      Talk l last (.readReply q.kind) (.send (replyTo l q)) [] []
  | replied {q : Request} {w : Wrapper} (hq : last = some q) (hw : w.Waits) :
      Talk l last (.readReply q.kind) w [replyTo l q] []
  | lost {kind : RequestKind} {e : Bytes} : Talk l last (.readReply kind) (.done (.error e)) [] []
  | ended {hd : Handler} {w : Wrapper} {up : List WrapperMessage} {down : List ProxyMessage}
      (hh : hd.Ended) : Talk l last hd w up down

variable {last : Option Request} {hd hd' : Handler} {w w' : Wrapper} {up up' : List WrapperMessage}
variable {down down' : List ProxyMessage} {evs : List Event} {stub stub' : Stub} {t t' : τ}
variable {sentUp : List WrapperMessage} {sentDown : List ProxyMessage}

/-- A wrapper that waits receives what is there, or gives up. -/
theorem Wrapper.Waits.move (h : w.Waits)
    (hm : WrapperMove down stub w w' evs sentUp down' stub') :
    sentUp = [] ∧ stub' = stub ∧
      ((∃ m, down = m :: down' ∧ w' = handleMessage m) ∨ down' = down ∧ w'.Waits) := by
  cases h with
  | recv =>
    cases hm with
    | received m rest hd => exact ⟨rfl, rfl, .inl ⟨m, hd, rfl⟩⟩
    | recvFailed e => exact ⟨rfl, rfl, .inr ⟨rfl, .failed e⟩⟩
  | failed e => cases hm

/-- With nothing to receive it goes on waiting. -/
theorem Wrapper.Waits.move_nil (h : w.Waits)
    (hm : WrapperMove [] stub w w' evs sentUp down' stub') :
    sentUp = [] ∧ stub' = stub ∧ down' = [] ∧ w'.Waits := by
  obtain ⟨hs, hstub, ⟨m, hd, -⟩ | hw⟩ := h.move hm
  · cases hd
  · exact ⟨hs, hstub, hw⟩

theorem handleMessage_message (q : Request) : handleMessage q.message = q.call := by
  cases q <;> rfl

/-- **Each move of the wrapper.** -/
theorem Talk.wrapper (h : Talk l last hd w up down) (hl : stub.committed = l)
    (hm : WrapperMove down stub w w' evs sentUp down' stub') :
    Talk l last hd w' (up ++ sentUp) down' ∧ stub'.committed = l := by
  have hcommitted : stub'.committed = l := by
    cases hm <;> exact hl
  refine ⟨?_, hcommitted⟩
  cases h with
  | opening hw =>
    cases hm with
    | dialled req => exact .opening trivial
    | dialFailed req e => exact .opening trivial
    | sent m => exact .requested .recv
    | sendFailed m e => exact .opening trivial
    | _ => exact absurd hw id
  | requested hw =>
    obtain ⟨rfl, -, rfl, hw'⟩ := hw.move_nil hm
    exact .requested hw'
  | serving hh hw =>
    obtain ⟨rfl, -, rfl, hw'⟩ := hw.move_nil hm
    exact .serving hh hw'
  | @asked q _ hq hw =>
    obtain ⟨rfl, -, ⟨m, hdown, rfl⟩ | ⟨rfl, hw'⟩⟩ := hw.move hm
    · obtain ⟨rfl, rfl⟩ := List.cons.inj hdown
      rw [handleMessage_message]
      exact .calling hq
    · exact .asked hq hw'
  | @calling q hq =>
    -- the stub answers from the committed state
    subst hl
    cases q with
    | get key =>
      cases hm with
      | got => exact .answering hq
      | getFailed _ e => exact .lost
    | put key value =>
      cases hm with
      | put => exact .answering hq
      | putFailed _ _ e => exact .lost
  | answering hq =>
    cases hm with
    | sent m => exact .replied hq .recv
    | sendFailed m e => exact .lost
  | replied hq hw =>
    obtain ⟨rfl, -, rfl, hw'⟩ := hw.move_nil hm
    exact .replied hq hw'
  | lost => cases hm
  | ended hh => exact .ended hh

/-- What a handler goes on with behind a reply of the TEE. -/
theorem dispatchReply_serves (l : Ledger) (last : Option Request) (r : TeeReply) :
    (dispatchReply r).Serves l (r.request.or last) ∨ (dispatchReply r).Ended := by
  unfold dispatchReply TeeReply.request
  by_cases hres : r.result ≠ .success
  · rw [if_pos hres, if_pos hres]
    exact .inr trivial
  rw [if_neg hres, if_neg hres]
  by_cases h0 : r.valueA = invocationResponse
  · rw [if_pos h0]
    exact .inl trivial
  rw [if_neg h0]
  split
  · exact .inl ⟨.get _, rfl, rfl, rfl⟩
  split
  · exact .inl ⟨.put _ _, rfl, rfl, rfl⟩
  · exact .inr trivial

/-- A TEE command that was answered. -/
theorem Talk.command (hw : w.Waits) (r : TeeReply) :
    Talk l (r.request.or last) (dispatchReply r) w [] [] := by
  rcases dispatchReply_serves l last r with hs | he
  · exact .serving hs hw
  · exact .ended he

/-- The last request behind more events. -/
theorem getLast?_teeRequests_append (tr evs : List Event) :
    (teeRequests (tr ++ evs)).getLast? =
      (teeRequests evs).getLast?.or (teeRequests tr).getLast? := by
  rw [teeRequests_append, List.getLast?_append]

theorem getLast?_toList {α : Type} (o : Option α) : o.toList.getLast? = o := by
  cases o <;> rfl

/-- **Each move of the proxy.** -/
theorem Talk.proxy (h : Talk l last hd w up down)
    (hm : ProxyMove T up t hd hd' t' evs up' sentDown) :
    Talk l ((teeRequests evs).getLast?.or last) hd' w up' (down ++ sentDown) := by
  cases h with
  | opening hw =>
    cases hm with
    | requestLost => exact .ended trivial
    | gotRequest m rest hup => cases hup
  | requested hw =>
    cases hm with
    | requestLost => exact .ended trivial
    | gotRequest m rest hup =>
      obtain ⟨rfl, rfl⟩ := List.cons.inj hup
      exact .serving trivial hw
  | serving hh hw =>
    cases hm with
    | file req wasm => exact .serving trivial hw
    | ran wasm buf env =>
      rw [teeRequests_replied, getLast?_toList]
      exact .command hw _
    | wroteRequest kind m =>
      obtain ⟨q, hq, rfl, rfl⟩ := hh
      exact .asked hq hw
    | resumed buf env =>
      rw [teeRequests_replied, getLast?_toList]
      exact .command hw _
    | requestLost | gotRequest | gotReply | replyLost => exact absurd hh id
    | noFile | runLost | wroteResponse | responseLost | writeLost | resumeLost | restarted =>
      exact .ended trivial
  | replied hq hw =>
    cases hm with
    | gotReply kind m rest hup =>
      obtain ⟨rfl, rfl⟩ := List.cons.inj hup
      exact .serving ⟨_, hq, rfl⟩ hw
    | replyLost kind => exact .ended trivial
  | asked | calling | answering | lost =>
    cases hm with
    | gotReply kind m rest hup => cases hup
    | replyLost kind => exact .ended trivial
  | ended hh =>
    cases hm with
    | restarted ok => exact .ended trivial
    | _ => exact absurd hh id

/-! ## Runs -/

/-- The stub answers from a ledger, and the last request is where it can
be. -/
structure Exchange (l : Ledger) (s : Sys τ) : Prop where
  committed : s.stub.committed = l
  talk : Talk l (teeRequests s.trace).getLast? s.handler s.wrapper s.up s.down

theorem Exchange.step {s s' : Sys τ} (h : Exchange l s) (hs : Step T files s s') :
    Exchange l s' := by
  cases hs with
  | wrapper fail hm =>
    obtain ⟨w, evs, sent, down, stub, hmove, rfl⟩ := wrapperMove_cases hm
    obtain ⟨htalk, hl⟩ := h.talk.wrapper h.committed hmove
    obtain ⟨-, -, -, hevs, -⟩ := hmove.events
    refine ⟨hl, ?_⟩
    have hlast : (teeRequests (s.trace ++ evs)).getLast? = (teeRequests s.trace).getLast? := by
      rw [getLast?_teeRequests_append, hevs]
      rfl
    change Talk l (teeRequests (s.trace ++ evs)).getLast? s.handler w (s.up ++ sent) down
    rw [hlast]
    exact htalk
  | proxy c hm =>
    obtain ⟨hd, t, evs, up, sent, hmove, rfl⟩ := proxyMove_cases hm
    refine ⟨h.committed, ?_⟩
    change Talk l (teeRequests (s.trace ++ evs)).getLast? hd s.wrapper up (s.down ++ sent)
    rw [getLast?_teeRequests_append]
    exact h.talk.proxy hmove

/-- **In every state of a run the last request is where it can be.** -/
theorem exchange_of_run {t : τ} {uuid ccfile : Bytes} {args : List Bytes} {s : Sys τ}
    (h : Relation.ReflTransGen (Step T files) (Sys.init t uuid ccfile args l) s) :
    Exchange l s := by
  refine invariant_of_step (fun _ _ ha hs => ha.step hs) h ⟨rfl, .opening ?_⟩
  change (invoke uuid ccfile args).Opens
  unfold invoke
  split <;> trivial

/-- **The proxy resumes the TEE with the ledger's answer to its last
request.** -/
theorem Exchange.resume {s : Sys τ} {buf : Bytes} (h : Exchange l s)
    (hh : s.handler = .resume buf) :
    ∃ q, (teeRequests s.trace).getLast? = some q ∧ buf = writeReply q.kind (replyTo l q) := by
  have htalk := h.talk
  rw [hh] at htalk
  generalize s.wrapper = w, s.up = up, s.down = down at htalk
  cases htalk with
  | serving hs _ => exact hs
  | ended he => exact absurd he id

/-! ## The write set -/

/-- The PUT requests of a list, as writes. -/
def putsOf (reqs : List Request) : List (Bytes × Bytes) :=
  reqs.filterMap fun | .put key value => some (key, value) | _ => none

/-- **The write set** holds the PUT requests the stub was called for, all
of them unless the wrapper has given up. -/
def WriteSet (s : Sys τ) : Prop :=
  ∃ failed, putsOf (stubCalls s.trace) = s.stub.writes ++ failed ∧
    (failed ≠ [] → ∃ e, s.wrapper = .done (.error e))

theorem putsOf_append (reqs new : List Request) :
    putsOf (reqs ++ new) = putsOf reqs ++ putsOf new :=
  List.filterMap_append

theorem WriteSet.step {s s' : Sys τ} (h : WriteSet s) (hs : Step T files s s') : WriteSet s' := by
  obtain ⟨failed, hputs, hfail⟩ := h
  cases hs with
  | wrapper fail hm =>
    obtain ⟨w, evs, sent, down, stub, hmove, rfl⟩ := wrapperMove_cases hm
    -- the wrapper has moved, so it had not given up
    have hnil : failed = [] := by
      by_contra hne
      obtain ⟨e, he⟩ := hfail hne
      rw [he] at hmove
      cases hmove
    rw [hnil, List.append_nil] at hputs
    change ∃ failed, putsOf (stubCalls (s.trace ++ evs)) = stub.writes ++ failed ∧
      (failed ≠ [] → ∃ e, w = .done (.error e))
    rw [stubCalls_append, putsOf_append, hputs]
    generalize s.wrapper = w₀ at hmove
    cases hmove with
    | put key value => exact ⟨[], (List.append_nil _).symm, fun hne => absurd rfl hne⟩
    | putFailed key value e => exact ⟨[(key, value)], rfl, fun _ => ⟨e, rfl⟩⟩
    | _ => exact ⟨[], rfl, fun hne => absurd rfl hne⟩
  | proxy c hm =>
    obtain ⟨hd, t, evs, up, sent, hmove, rfl⟩ := proxyMove_cases hm
    obtain ⟨-, -, hevs, -⟩ := hmove.events
    refine ⟨failed, ?_, hfail⟩
    change putsOf (stubCalls (s.trace ++ evs)) = s.stub.writes ++ failed
    rw [stubCalls_append, hevs, List.append_nil, hputs]

theorem writeSet_of_run {t : τ} {uuid ccfile : Bytes} {args : List Bytes} {s : Sys τ}
    (h : Relation.ReflTransGen (Step T files) (Sys.init t uuid ccfile args l) s) : WriteSet s :=
  invariant_of_step (fun _ _ ha hs => ha.step hs) h ⟨[], rfl, fun hne => absurd rfl hne⟩

end TeeChaincode
