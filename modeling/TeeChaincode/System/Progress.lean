import TeeChaincode.System.Answers
import TeeChaincode.System.Exchange

/-!
# Nobody waits for nobody

Liveness of the protocol, for every TEE whose commands return: `call_step`
gives a module no fuel, and one that loops inside a step keeps
`TEEC_InvokeCommand`, and the proxy with it, for ever. Of the calls on the
stream a receive is the only one that can block, and in no state of any run
do both parties block in one: where nothing can go on without a failure,
both have ended, or one of them has ended with an error and the other waits
for a message that will not come. The stream of such a call is closed, so
that wait is over as well.

The work between two replies of the TEE is bounded: each step is paid for
by a potential, and only a reply of the TEE adds to it. An invocation of a
TEE that stops asking therefore ends, whatever fails on the way.
-/

namespace TeeChaincode

open Common

variable {τ ε : Type} {T : Tee τ ε} {files : Bytes → Option Bytes} {l : Ledger}

/-! ## Waiting -/

namespace Sys

/-- The wrapper is in a receive, and nothing is on the way to it. -/
def WrapperWaits (s : Sys τ) : Prop := s.wrapper = .recv ∧ s.down = []

/-- The handler is in a read, and nothing is on the way to it. -/
def HandlerWaits (s : Sys τ) : Prop :=
  (s.handler = .readRequest ∨ ∃ kind, s.handler = .readReply kind) ∧ s.up = []

/-- Wrapper and handler have both ended. -/
def BothEnded (s : Sys τ) : Prop :=
  (∃ r, s.wrapper = .done r) ∧ ∃ st, s.handler = .finished st

/-- **How an invocation can come to a stop.** -/
inductive Rests (s : Sys τ) : Prop
  /-- Both parties have ended. -/
  | ended (h : s.BothEnded)
  /-- The wrapper has failed, and the handler waits for it. -/
  | wrapperGone (e : Bytes) (hw : s.wrapper = .done (.error e)) (hh : s.HandlerWaits)
  /-- The call has failed, and the wrapper waits for its messages. -/
  | handlerGone (e : Bytes) (hh : s.handler = .finished (.unknown e)) (hw : s.WrapperWaits)

end Sys

/-- The wrapper's next call succeeds unless it has ended or waits. -/
theorem wrapperMove_eq_none_iff (s : Sys τ) :
    s.wrapperMove none = none ↔ (∃ r, s.wrapper = .done r) ∨ s.WrapperWaits := by
  obtain ⟨w, hd, up, down, tee, stub, tr⟩ := s
  cases w with
  | done r => exact iff_of_true rfl (.inl ⟨r, rfl⟩)
  | recv =>
    cases down with
    | nil => exact iff_of_true rfl (.inr ⟨rfl, rfl⟩)
    | cons m rest => exact iff_of_false nofun (by rintro (⟨r, hr⟩ | ⟨-, hr⟩) <;> cases hr)
  | _ => exact iff_of_false nofun (by rintro (⟨r, hr⟩ | ⟨hr, -⟩) <;> cases hr)

/-- And so does the handler's. -/
theorem proxyMove_eq_none_iff (s : Sys τ) (env : ε) :
    s.proxyMove T files ⟨false, env⟩ = none ↔
      (∃ st, s.handler = .finished st) ∨ s.HandlerWaits := by
  obtain ⟨w, hd, up, down, tee, stub, tr⟩ := s
  cases hd with
  | finished st => exact iff_of_true rfl (.inl ⟨st, rfl⟩)
  | readRequest =>
    cases up with
    | nil => exact iff_of_true rfl (.inr ⟨.inl rfl, rfl⟩)
    | cons m rest =>
      exact iff_of_false (Option.some_ne_none _) (by rintro (⟨st, hr⟩ | ⟨-, hr⟩) <;> cases hr)
  | readReply kind =>
    cases up with
    | nil => exact iff_of_true rfl (.inr ⟨.inr ⟨kind, rfl⟩, rfl⟩)
    | cons m rest =>
      exact iff_of_false (Option.some_ne_none _) (by rintro (⟨st, hr⟩ | ⟨-, hr⟩) <;> cases hr)
  | openFile req =>
    refine iff_of_false ?_ (by rintro (⟨st, hr⟩ | ⟨hr | ⟨kind, hr⟩, -⟩) <;> cases hr)
    simp only [Sys.proxyMove, Sys.handlerInput, Bool.false_eq_true, if_false]
    cases files req.aotFile <;> simp [handlerStep]
  | _ =>
    exact iff_of_false (Option.some_ne_none _)
      (by rintro (⟨st, hr⟩ | ⟨hr | ⟨kind, hr⟩, -⟩) <;> cases hr)

/-- A state without a step in which nothing fails. -/
theorem no_okStep_iff (s : Sys τ) (env : ε) : (∀ s', ¬ OkStep T files env s s') ↔
    ((∃ r, s.wrapper = .done r) ∨ s.WrapperWaits) ∧
      ((∃ st, s.handler = .finished st) ∨ s.HandlerWaits) := by
  rw [← wrapperMove_eq_none_iff, ← @proxyMove_eq_none_iff _ _ T files s env]
  constructor
  · intro h
    refine ⟨?_, ?_⟩
    · by_contra hne
      obtain ⟨s', hs'⟩ := Option.ne_none_iff_exists'.1 hne
      exact h s' (.wrapper hs')
    · by_contra hne
      obtain ⟨s', hs'⟩ := Option.ne_none_iff_exists'.1 hne
      exact h s' (.proxy hs')
  · rintro ⟨hw, hp⟩ s' (hs' | hs')
    · rw [hw] at hs'
      cases hs'
    · rw [hp] at hs'
      cases hs'

/-! ## The final response -/

/-- The final response a reply carries. -/
def TeeReply.response (r : TeeReply) : Option Bytes :=
  if r.result = .success ∧ r.valueA = invocationResponse then some (cstr r.sharedBuf) else none

/-- **The three ways on** from a reply: a request, the final response, or
the end of the call. -/
theorem dispatchReply_cases (r : TeeReply) :
    (∃ q, r.request = some q ∧ dispatchReply r = .writeRequest q.kind q.message) ∨
    (r.request = none ∧ ∃ x, r.response = some x ∧
      dispatchReply r = .writeResponse (.invocationResponse x)) ∨
    r.request = none ∧ r.response = none ∧ dispatchReply r = .restart false := by
  unfold dispatchReply TeeReply.request
  by_cases hres : r.result ≠ .success
  · rw [if_pos hres, if_pos hres]
    exact .inr (.inr ⟨rfl, if_neg fun h => hres h.1, rfl⟩)
  rw [if_neg hres, if_neg hres]
  by_cases h0 : r.valueA = invocationResponse
  · refine .inr (.inl ⟨?_, _, if_pos ⟨not_not.1 hres, h0⟩, if_pos h0⟩)
    rw [h0, if_neg (by decide), if_neg (by decide)]
  rw [if_neg h0]
  split
  · exact .inl ⟨.get _, rfl, rfl⟩
  split
  · exact .inl ⟨.put _ _, rfl, rfl⟩
  · exact .inr (.inr ⟨rfl, if_neg fun h => h0 h.2, rfl⟩)

/-- **The final response is on its way**, or the wrapper has returned. -/
structure Responding (s : Sys τ) : Prop where
  writes : ∀ m, s.handler = .writeResponse m → ∃ x, m = .invocationResponse x
  sent : s.handler.Responded →
    (∃ x, s.down = [.invocationResponse x] ∧ s.wrapper.Waits) ∨ ∃ r, s.wrapper = .done r

theorem dispatchReply_responded (r : TeeReply) :
    (∀ m, dispatchReply r = .writeResponse m → ∃ x, m = .invocationResponse x) ∧
      ¬ (dispatchReply r).Responded := by
  unfold Handler.Responded
  obtain ⟨q, -, hd⟩ | ⟨-, x, -, hd⟩ | ⟨-, -, hd⟩ := dispatchReply_cases r <;> rw [hd] <;> simp

/-- A handler that is not about to respond, and has not. -/
theorem responding_of_not {s : Sys τ} (hw : ∀ m, s.handler ≠ .writeResponse m)
    (hs : ¬ s.handler.Responded) : Responding s :=
  ⟨fun m hm => absurd hm (hw m), fun h => absurd h hs⟩

theorem Responding.wrapper {s s' : Sys τ} {fail : Option Bytes} (h : Responding s)
    (hm : s.wrapperMove fail = some s') : Responding s' := by
  obtain ⟨w, evs, sent, down, stub, hmove, rfl⟩ := wrapperMove_cases hm
  refine ⟨h.writes, fun hh => ?_⟩
  rcases h.sent hh with ⟨x, hdown, hwait⟩ | ⟨r, hr⟩
  · obtain ⟨-, -, ⟨m, hcons, rfl⟩ | ⟨rfl, hw'⟩⟩ := hwait.move hmove
    · rw [hdown] at hcons
      obtain ⟨rfl, -⟩ := List.cons.inj hcons
      exact .inr ⟨_, rfl⟩
    · exact .inl ⟨x, hdown, hw'⟩
  · rw [hr] at hmove
    cases hmove

theorem Responding.proxy {s s' : Sys τ} {c : Choice ε} (h : Responding s) (hex : Exchange l s)
    (hm : s.proxyMove T files c = some s') : Responding s' := by
  obtain ⟨hd, t, evs, up, sent, hmove, rfl⟩ := proxyMove_cases hm
  obtain ⟨hwrites, hsent⟩ := h
  have htalk := hex.talk
  generalize hhd : s.handler = hd₀ at hmove htalk hwrites hsent
  cases hmove with
  | ran wasm buf env =>
    obtain ⟨hw, hs⟩ := dispatchReply_responded (T.run s.tee env wasm buf).1
    exact ⟨hw, fun hr => absurd hr hs⟩
  | resumed buf env =>
    obtain ⟨hw, hs⟩ := dispatchReply_responded (T.resume s.tee env buf).1
    exact ⟨hw, fun hr => absurd hr hs⟩
  | wroteResponse m =>
    -- the handler is at work, so the stream is empty and the wrapper waits
    obtain ⟨x, rfl⟩ := hwrites m rfl
    have hfree : s.down = [] ∧ s.wrapper.Waits := by
      generalize s.wrapper = w, s.down = down, s.up = up at htalk
      cases htalk with
      | serving _ hwait => exact ⟨rfl, hwait⟩
      | ended he => exact absurd he id
    refine ⟨nofun, fun _ => .inl ⟨x, ?_, hfree.2⟩⟩
    change s.down ++ [_] = _
    rw [hfree.1, List.nil_append]
  | restarted ok =>
    cases ok with
    | true =>
      refine ⟨nofun, fun _ => ?_⟩
      change (∃ x, s.down ++ [] = _ ∧ _) ∨ _
      rw [List.append_nil]
      exact hsent (.inl rfl)
    | false => exact responding_of_not nofun (by rintro (hr | hr) <;> cases hr)
  | _ => exact responding_of_not nofun (by rintro (hr | hr) <;> cases hr)

theorem responding_of_run {t : τ} {uuid ccfile : Bytes} {args : List Bytes} {s : Sys τ}
    (h : Relation.ReflTransGen (Step T files) (Sys.init t uuid ccfile args l) s) :
    Responding s := by
  induction h with
  | refl => exact responding_of_not nofun (by rintro (hr | hr) <;> cases hr)
  | tail hab hs ih =>
    cases hs with
    | wrapper fail hm => exact ih.wrapper hm
    | proxy c hm => exact ih.proxy (exchange_of_run hab) hm

/-! ## No deadlock -/

/-- A handler that waits is waited for by nobody: the wrapper has
something to do, or has failed. -/
theorem Exchange.handlerWaits {s : Sys τ} (h : Exchange l s) (hh : s.HandlerWaits)
    (hw : (∃ r, s.wrapper = .done r) ∨ s.WrapperWaits) : ∃ e, s.wrapper = .done (.error e) := by
  obtain ⟨hread, hup⟩ := hh
  have htalk := h.talk
  unfold Sys.WrapperWaits at hw
  rw [hup] at htalk
  generalize s.wrapper = w, s.down = down, s.handler = hd at htalk hw hread
  cases htalk with
  | opening hopen =>
    rcases hw with ⟨r, rfl⟩ | ⟨rfl, -⟩
    · cases r with
      | success x => exact absurd hopen id
      | error e => exact ⟨e, rfl⟩
    · exact absurd hopen id
  | serving hs _ => rcases hread with rfl | ⟨kind, rfl⟩ <;> exact absurd hs id
  | asked _ hwait =>
    cases hwait with
    | recv => rcases hw with ⟨r, hr⟩ | ⟨-, hr⟩ <;> cases hr
    | failed e => exact ⟨e, rfl⟩
  | @calling q _ => cases q <;> rcases hw with ⟨r, hr⟩ | ⟨hr, -⟩ <;> cases hr
  | answering => rcases hw with ⟨r, hr⟩ | ⟨hr, -⟩ <;> cases hr
  | @lost _ e => exact ⟨e, rfl⟩
  | ended he => rcases hread with rfl | ⟨kind, rfl⟩ <;> exact absurd he id

/-- A wrapper that waits for a call that has ended waits for one that
failed. -/
theorem Responding.wrapperWaits {s : Sys τ} (h : Responding s) (hw : s.WrapperWaits) {st : Status}
    (hh : s.handler = .finished st) : ∃ e, st = .unknown e := by
  cases st with
  | unknown e => exact ⟨e, rfl⟩
  | ok =>
    rcases h.sent (.inr hh) with ⟨x, hdown, -⟩ | ⟨r, hr⟩
    · rw [hw.2] at hdown
      cases hdown
    · rw [hw.1] at hr
      cases hr

/-- **No deadlock.** In no state of any run, whatever has failed on the
way, do wrapper and handler wait for each other. A step in which nothing
fails is possible until both have ended, or one has ended with an error
and the other waits for it. -/
theorem no_deadlock {τ ε : Type} (T : Tee τ ε) (files : Bytes → Option Bytes) (t : τ)
    (uuid ccfile : Bytes) (args : List Bytes) (l : Ledger) (s : Sys τ)
    (h : Relation.ReflTransGen (Step T files) (Sys.init t uuid ccfile args l) s) (env : ε) :
    ¬ (s.WrapperWaits ∧ s.HandlerWaits) ∧ ((∀ s', ¬ OkStep T files env s s') ↔ s.Rests) := by
  have hex := exchange_of_run h
  have hresp := responding_of_run h
  refine ⟨?_, ?_⟩
  · rintro ⟨hw, hh⟩
    obtain ⟨e, he⟩ := hex.handlerWaits hh (.inr hw)
    rw [hw.1] at he
    cases he
  rw [no_okStep_iff]
  constructor
  · rintro ⟨hw, ⟨st, hst⟩ | hh⟩
    · rcases hw with hdone | hwait
      · exact .ended ⟨hdone, st, hst⟩
      · obtain ⟨e, rfl⟩ := hresp.wrapperWaits hwait hst
        exact .handlerGone e hst hwait
    · obtain ⟨e, he⟩ := hex.handlerWaits hh hw
      exact .wrapperGone e he hh
  · rintro (⟨hw, hh⟩ | ⟨e, hw, hh⟩ | ⟨e, hh, hw⟩)
    · exact ⟨.inl hw, .inl hh⟩
    · exact ⟨.inl ⟨_, hw⟩, .inr hh⟩
    · exact ⟨.inr hw, .inl ⟨_, hh⟩⟩

/-! ## Bounded work -/

/-- The calls a wrapper can make before it next receives, with the failed
ones counted. -/
def Wrapper.potential : Wrapper → ℕ
  | .done _ => 0
  | .recv => 1
  | .send _ => 2
  | .dial _ | .getState _ | .putState _ _ => 3

/-- The calls a handler can make before the TEE next replies, with those a
message of its makes the wrapper do. -/
def Handler.potential : Handler → ℕ
  | .finished _ => 0
  | .restart _ => 1
  | .run _ _ | .resume _ => 2
  | .openFile _ | .readReply _ => 3
  | .readRequest => 4
  | .writeResponse _ => 5
  | .writeRequest _ _ => 7

/-- A message to the wrapper is worth three of its calls. -/
def Sys.potential (s : Sys τ) : ℕ :=
  s.wrapper.potential + s.handler.potential + 3 * s.down.length

/-- The replies of the TEE. -/
def teeReplies (tr : List Event) : List TeeReply :=
  tr.filterMap fun | .teeReplied r => some r | _ => none

theorem teeReplies_append (tr evs : List Event) :
    teeReplies (tr ++ evs) = teeReplies tr ++ teeReplies evs := List.filterMap_append

theorem teeReplies_replied (r : TeeReply) : teeReplies (repliedEvents r) = [r] := by
  unfold repliedEvents
  split <;> rfl

theorem potential_dispatchReply (r : TeeReply) : (dispatchReply r).potential ≤ 7 := by
  obtain ⟨q, -, hd⟩ | ⟨-, x, -, hd⟩ | ⟨-, -, hd⟩ := dispatchReply_cases r <;>
    rw [hd] <;> simp [Handler.potential]

/-- A call of the wrapper. -/
theorem WrapperMove.potential {down down' : List ProxyMessage} {stub stub' : Stub}
    {w w' : Wrapper} {evs : List Event} {sent : List WrapperMessage}
    (hm : WrapperMove down stub w w' evs sent down' stub') (hne : ∀ m ∈ down, m ≠ .unset) :
    w'.potential + 3 * down'.length + 1 ≤ w.potential + 3 * down.length := by
  cases hm with
  | received m rest h =>
    subst h
    have hw : (handleMessage m).potential ≤ 3 := by
      cases m with
      | unset => exact absurd rfl (hne _ List.mem_cons_self)
      | _ => simp [handleMessage, Wrapper.potential]
    rw [List.length_cons, Wrapper.potential]
    omega
  | _ =>
    simp only [Wrapper.potential]
    omega

theorem WrapperMove.teeReplies {down down' : List ProxyMessage} {stub stub' : Stub}
    {w w' : Wrapper} {evs : List Event} {sent : List WrapperMessage}
    (hm : WrapperMove down stub w w' evs sent down' stub') : teeReplies evs = [] := by
  cases hm <;> rfl

/-- A call of the proxy: it is paid for, or the TEE has replied. -/
theorem ProxyMove.potential {up up' : List WrapperMessage} {sent : List ProxyMessage} {t t' : τ}
    {hd hd' : Handler} {evs : List Event} (hm : ProxyMove T up t hd hd' t' evs up' sent) :
    hd'.potential + 3 * sent.length + 1 ≤ hd.potential + 6 * (teeReplies evs).length := by
  cases hm with
  | ran wasm buf env =>
    have hle := potential_dispatchReply (T.run t env wasm buf).1
    rw [teeReplies_replied, Handler.potential]
    simp only [List.length_nil, List.length_singleton]
    omega
  | resumed buf env =>
    have hle := potential_dispatchReply (T.resume t env buf).1
    rw [teeReplies_replied, Handler.potential]
    simp only [List.length_nil, List.length_singleton]
    omega
  | _ => simp [Handler.potential, teeReplies]

/-- **Every step is paid for.** -/
theorem Step.potential {s s' : Sys τ} (hs : Step T files s s') (hne : ∀ m ∈ s.down, m ≠ .unset) :
    s'.potential + 6 * (teeReplies s.trace).length + 1 ≤
      s.potential + 6 * (teeReplies s'.trace).length := by
  cases hs with
  | wrapper fail hm =>
    obtain ⟨w, evs, sent, down, stub, hmove, rfl⟩ := wrapperMove_cases hm
    have hle := hmove.potential hne
    change w.potential + s.handler.potential + 3 * down.length +
      6 * (teeReplies s.trace).length + 1 ≤ s.potential + 6 * (teeReplies (s.trace ++ evs)).length
    rw [teeReplies_append, hmove.teeReplies, List.append_nil, Sys.potential]
    omega
  | proxy c hm =>
    obtain ⟨hd, t, evs, up, sent, hmove, rfl⟩ := proxyMove_cases hm
    have hle := hmove.potential
    change s.wrapper.potential + hd.potential + 3 * (s.down ++ sent).length +
      6 * (teeReplies s.trace).length + 1 ≤ s.potential + 6 * (teeReplies (s.trace ++ evs)).length
    rw [teeReplies_append, List.length_append, List.length_append, Sys.potential]
    omega

/-- The start of an invocation is worth seven steps. -/
theorem potential_init (t : τ) (uuid ccfile : Bytes) (args : List Bytes) (l : Ledger) :
    (Sys.init t uuid ccfile args l).potential ≤ 7 := by
  change (invoke uuid ccfile args).potential + 4 + 3 * 0 ≤ 7
  unfold invoke
  split <;> simp [Wrapper.potential]

/-- **And so is every run.** -/
theorem length_le_of_steps {t : τ} {uuid ccfile : Bytes} {args : List Bytes} {s : Sys τ} {n : ℕ}
    (h : Steps (Step T files) (Sys.init t uuid ccfile args l) n s) :
    n ≤ 7 + 6 * (teeReplies s.trace).length := by
  obtain ⟨-, hle⟩ := h.length_le Sys.potential (fun s => (teeReplies s.trace).length) 6
    (fun _ _ ha hs => ⟨ha.step hs, hs.potential ha.ne_unset⟩) (conforming_init t uuid ccfile args l)
  have hinit := potential_init t uuid ccfile args l
  change s.potential + 6 * 0 + n ≤ _ at hle
  omega

/-- The moves of a list are a run of their number. -/
theorem steps_of_sysMoves {s s' : Sys τ} {ms : List (Move ε)} (h : s.moves T files ms = some s') :
    Steps (Step T files) s ms.length s' := by
  induction ms generalizing s with
  | nil =>
    obtain rfl : s = s' := by simpa [Sys.moves] using h
    exact .refl
  | cons m ms ih =>
    rw [Sys.moves, List.foldlM_cons, Option.bind_eq_bind, Option.bind_eq_some_iff] at h
    obtain ⟨s₁, h₁, h₂⟩ := h
    exact (ih h₂).head (step_of_move h₁)

/-- A call of the proxy on `oneGet` that succeeds. -/
def oneGetOk : Move Unit := .proxy ⟨false, ()⟩

/-- An invocation of `oneGet` up to the wrapper's call of the stub. -/
def oneGetAsks : List (Move Unit) :=
  [.wrapper none, .wrapper none, oneGetOk, oneGetOk, oneGetOk, oneGetOk, .wrapper none]

/-- The stub fails, and the handler is left waiting. -/
theorem no_deadlock_getFailed :
    ∃ s : Sys Unit, s.wrapper = .done (.error (ascii "no peer")) ∧ s.HandlerWaits ∧
      ∀ s', ¬ OkStep oneGet (fun _ => some []) () s s' := by
  have hrun : ((Sys.init () [] [] [[], []] fun _ => none).moves oneGet (fun _ => some [])
      (oneGetAsks ++ [.wrapper (some (ascii "no peer"))])).map
        (fun s => (s.wrapper, s.handler, s.up)) =
      some (.done (.error (ascii "no peer")), .readReply .get, []) := by
    decide
  rw [Option.map_eq_some_iff] at hrun
  obtain ⟨s, hs, heq⟩ := hrun
  simp only [Prod.mk.injEq] at heq
  obtain ⟨hw, hh, hup⟩ := heq
  have hwaits : s.HandlerWaits := ⟨.inr ⟨_, hh⟩, hup⟩
  exact ⟨s, hw, hwaits, (no_deadlock oneGet _ () [] [] _ _ s (steps_of_sysMoves hs).run ()).2.2
    (.wrapperGone _ hw hwaits)⟩

/-! ## A TEE that stops asking -/

/-- The TEE asks at most `n` more times from its last reply on, whatever
it is resumed with. -/
def AsksAtMost (T : Tee τ ε) : ℕ → TeeReply → τ → Prop
  | 0, r, _ => r.request = none
  | n + 1, r, t => r.request = none ∨
    ∀ env buf, AsksAtMost T n (T.resume t env buf).1 (T.resume t env buf).2

/-- **How many replies are still to come**, for each point a handler can
have reached. -/
def Handler.Bounded (T : Tee τ ε) (n : ℕ) (t : τ) (replies : ℕ) : Handler → Prop
  | .readRequest | .openFile _ | .run _ _ => replies = 0 ∧
    ∀ env wasm buf, AsksAtMost T n (T.run t env wasm buf).1 (T.run t env wasm buf).2
  | .writeRequest _ _ | .readReply _ | .resume _ => ∃ k, replies + k = n ∧
    ∀ env buf, AsksAtMost T k (T.resume t env buf).1 (T.resume t env buf).2
  | .writeResponse _ | .restart _ | .finished _ => replies ≤ n + 1

/-- Fewer than `n + 1` replies have come while the handler is in the
loop. -/
theorem Handler.Bounded.replies_le {n replies : ℕ} {t : τ} {hd : Handler}
    (h : hd.Bounded T n t replies) : replies ≤ n + 1 := by
  cases hd with
  | readRequest | openFile | run => obtain ⟨rfl, -⟩ := h; omega
  | writeRequest | readReply | resume => obtain ⟨k, hk, -⟩ := h; omega
  | writeResponse | restart | finished => exact h

theorem Handler.Leaves.bounded {n replies : ℕ} {t : τ} {hd : Handler} (h : hd.Leaves)
    (hle : replies ≤ n + 1) : hd.Bounded T n t replies := by
  cases hd with
  | writeResponse | restart | finished => exact hle
  | _ => exact absurd h id

/-- A reply of a TEE that asks at most `k` more times. -/
theorem AsksAtMost.bounded {n k replies : ℕ} {r : TeeReply} {t : τ} (h : AsksAtMost T k r t)
    (hk : replies + k = n + 1) : (dispatchReply r).Bounded T n t replies := by
  obtain ⟨q, hq, hd⟩ | ⟨-, x, -, hd⟩ | ⟨-, -, hd⟩ := dispatchReply_cases r
  · have hsome : r.request ≠ none := by
      rw [hq]
      nofun
    rw [hd]
    cases k with
    | zero => exact absurd h hsome
    | succ k => exact ⟨k, by omega, h.resolve_left hsome⟩
  · rw [hd]
    exact Handler.Leaves.bounded trivial (by omega)
  · rw [hd]
    exact Handler.Leaves.bounded trivial (by omega)

/-- **Each call of the proxy** keeps the count. -/
theorem ProxyMove.bounded {up up' : List WrapperMessage} {sent : List ProxyMessage} {t t' : τ}
    {hd hd' : Handler} {evs : List Event} {n replies : ℕ}
    (hm : ProxyMove T up t hd hd' t' evs up' sent) (h : hd.Bounded T n t replies) :
    hd'.Bounded T n t' (replies + (teeReplies evs).length) := by
  have hle := h.replies_le
  cases hm with
  | ran wasm buf env =>
    obtain ⟨rfl, hasks⟩ := h
    rw [teeReplies_replied]
    exact (hasks env wasm buf).bounded (by simp; omega)
  | resumed buf env =>
    obtain ⟨k, hk, hasks⟩ := h
    rw [teeReplies_replied]
    exact (hasks env buf).bounded (by simp; omega)
  | gotRequest | file | wroteRequest | gotReply => exact h
  | _ => exact Handler.Leaves.bounded trivial hle

/-- **In every run the count is kept.** -/
theorem bounded_of_run {t : τ} {uuid ccfile : Bytes} {args : List Bytes} {n : ℕ}
    (hasks : ∀ env wasm buf, AsksAtMost T n (T.run t env wasm buf).1 (T.run t env wasm buf).2)
    {s : Sys τ} (h : Relation.ReflTransGen (Step T files) (Sys.init t uuid ccfile args l) s) :
    s.handler.Bounded T n s.tee (teeReplies s.trace).length := by
  induction h with
  | refl => exact ⟨rfl, hasks⟩
  | tail _ hs ih =>
    cases hs with
    | wrapper fail hm =>
      obtain ⟨w, evs, sent, down, stub, hmove, rfl⟩ := wrapperMove_cases hm
      change Handler.Bounded T n _ (teeReplies (_ ++ evs)).length _
      rw [teeReplies_append, hmove.teeReplies, List.append_nil]
      exact ih
    | proxy c hm =>
      obtain ⟨hd, t', evs, up, sent, hmove, rfl⟩ := proxyMove_cases hm
      change hd.Bounded T n t' (teeReplies (_ ++ evs)).length
      rw [teeReplies_append, List.length_append]
      exact hmove.bounded ih

/-- A party that has not ended can always fail. -/
theorem exists_step (s : Sys τ) (env : ε) (h : ¬ s.BothEnded) : ∃ s', Step T files s s' := by
  by_cases hw : ∃ r, s.wrapper = .done r
  · have hh : ∀ st, s.handler ≠ .finished st := fun st hst => h ⟨hw, st, hst⟩
    have hmove : ∃ s', s.proxyMove T files ⟨true, env⟩ = some s' := by
      obtain ⟨w, hd, up, down, tee, stub, tr⟩ := s
      cases hd with
      | finished st => exact absurd rfl (hh st)
      | _ => exact ⟨_, rfl⟩
    obtain ⟨s', hs'⟩ := hmove
    exact ⟨s', .proxy _ hs'⟩
  · have hmove : ∃ s', s.wrapperMove (some []) = some s' := by
      obtain ⟨w, hd, up, down, tee, stub, tr⟩ := s
      cases w with
      | done r => exact absurd ⟨r, rfl⟩ hw
      | _ => exact ⟨_, rfl⟩
    obtain ⟨s', hs'⟩ := hmove
    exact ⟨s', .wrapper _ hs'⟩

/-- **If every TEE command returns, an invocation ends unless its module
asks for ever.** A run in which the TEE has replied `k` times is at most
`7 + 6 k` steps long, whatever fails in it and in whatever order the
parties move. So if the TEE asks at most `n` times, whatever module it is
given and whatever it is resumed with, every run is finite, of at most
`13 + 6 n` steps, and stops only where wrapper and handler have both
ended. -/
theorem invocation_ends {τ ε : Type} [Nonempty ε] (T : Tee τ ε) (files : Bytes → Option Bytes)
    (t : τ) (uuid ccfile : Bytes) (args : List Bytes) (l : Ledger) :
    (∀ k s, Steps (Step T files) (Sys.init t uuid ccfile args l) k s →
      k ≤ 7 + 6 * (teeReplies s.trace).length) ∧
    ∀ n, (∀ env wasm buf, AsksAtMost T n (T.run t env wasm buf).1 (T.run t env wasm buf).2) →
      (∀ k s, Steps (Step T files) (Sys.init t uuid ccfile args l) k s → k ≤ 13 + 6 * n) ∧
        Ends (Step T files) Sys.BothEnded (Sys.init t uuid ccfile args l) := by
  refine ⟨fun k s => length_le_of_steps, fun n hasks => ?_⟩
  have hlen : ∀ k s, Steps (Step T files) (Sys.init t uuid ccfile args l) k s →
      k ≤ 13 + 6 * n := by
    intro k s hk
    have hle := length_le_of_steps hk
    have hreplies := (bounded_of_run hasks hk.run).replies_le
    omega
  refine ⟨hlen, Ends.of_length_le hlen fun s _ hstop => ?_⟩
  obtain ⟨env⟩ := ‹Nonempty ε›
  by_contra hne
  obtain ⟨s', hs'⟩ := @exists_step _ _ T files s env hne
  exact hstop s' hs'

/-- `oneGet` asks once. -/
theorem invocation_ends_oneGet :
    (∀ k s, Steps (Step oneGet fun _ => some []) (Sys.init () [] [] [[], []] fun _ => none) k s →
      k ≤ 19) ∧
    Ends (Step oneGet fun _ => some []) Sys.BothEnded
      (Sys.init () [] [] [[], []] fun _ => none) :=
  (invocation_ends oneGet _ () [] [] _ _).2 1 fun _ _ _ => .inr fun _ _ => rfl

end TeeChaincode
