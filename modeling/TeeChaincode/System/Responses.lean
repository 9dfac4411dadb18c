import TeeChaincode.System.Answers
import TeeChaincode.System.Exchange
import TeeChaincode.System.Requests

/-!
# The final response on its way

For every TEE, and whatever fails: there is a final response once the TEE
has replied with one, it is that one wherever it is on its way, and while
the handler is at work none has been sent. Behind a call that has
returned, the TA's session is fresh again.
-/

namespace TeeChaincode

open Common

variable {τ ε : Type} {T : Tee τ ε} {files : Bytes → Option Bytes} {l : Ledger} {s s' : Sys τ}
variable {x : Bytes}

/-- The final response is this one, wherever it is on its way. -/
def Sys.Answers (s : Sys τ) (x : Bytes) : Prop :=
  s.handler = .writeResponse (.invocationResponse x) ∨ .invocationResponse x ∈ s.down ∨
    s.wrapper = .done (.success x)

/-- While the handler is at work, no response has been sent. -/
theorem Talk.unanswered {last : Option Request} {hd : Handler} {w : Wrapper}
    {up : List WrapperMessage} {down : List ProxyMessage} (h : Talk l last hd w up down)
    (hh : ¬ hd.Ended) : .invocationResponse x ∉ down ∧ w ≠ .done (.success x) := by
  have hwaits : ∀ w : Wrapper, w.Waits → w ≠ .done (.success x) := by
    rintro _ (_ | e) he <;> cases he
  cases h with
  | opening hw =>
    refine ⟨List.not_mem_nil, fun he => ?_⟩
    rw [he] at hw
    exact hw
  | requested hw | serving _ hw | replied _ hw => exact ⟨List.not_mem_nil, hwaits _ hw⟩
  | @asked q _ _ hw =>
    refine ⟨fun hmem => ?_, hwaits _ hw⟩
    cases q <;> cases List.mem_singleton.1 hmem
  | @calling q _ => cases q <;> exact ⟨List.not_mem_nil, nofun⟩
  | answering | lost => exact ⟨List.not_mem_nil, nofun⟩
  | ended he => exact absurd he hh

/-- A call of the wrapper brings no response forward. -/
theorem answers_of_wrapper {fail : Option Bytes} (hm : s.wrapperMove fail = some s')
    (hx : s'.Answers x) : s.Answers x := by
  obtain ⟨w, evs, sent, down, stub, hmove, rfl⟩ := wrapperMove_cases hm
  rcases hx with hh | hx
  · exact .inl hh
  · exact .inr (hmove.mem_down hx)

/-- Nor does a call of the proxy that neither makes nor sends one. -/
theorem answers_of_proxy {hd : Handler} {t : τ} {evs : List Event} {up : List WrapperMessage}
    {sent : List ProxyMessage}
    (hx : Sys.Answers { s.log evs with
      handler := hd, tee := t, up := up, down := s.down ++ sent } x)
    (hhd : hd ≠ .writeResponse (.invocationResponse x)) (hsent : .invocationResponse x ∉ sent) :
    s.Answers x := by
  rcases hx with hx | hx | hx
  · exact absurd hx hhd
  · exact .inr (.inl ((List.mem_append.1 hx).resolve_right hsent))
  · exact .inr (.inr hx)

/-- A request the handler is about to write is no response. -/
theorem Exchange.writesRequest {kind : RequestKind} {m : ProxyMessage} (h : Exchange l s)
    (hh : s.handler = .writeRequest kind m) : m ≠ .invocationResponse x := by
  have htalk := h.talk
  rw [hh] at htalk
  generalize s.wrapper = w, s.up = up, s.down = down at htalk
  cases htalk with
  | serving hs _ =>
    obtain ⟨q, -, -, rfl⟩ := hs
    cases q <;> exact nofun
  | ended he => exact absurd he id

/-! ## The session behind it -/

/-- A handler whose session is fresh: it has not come to its RUN_WASM, or
it has returned. -/
def Handler.Idle (hd : Handler) : Prop := hd.stage = .arriving ∨ hd.stage = .returned

theorem dispatchReply_not_idle (r : TeeReply) : ¬ (dispatchReply r).Idle := by
  unfold Handler.Idle
  rcases dispatchReply_stage r with hst | hst <;> rw [hst] <;> decide

/-- **Behind a call that has returned the session is fresh**, whatever
failed in it. -/
theorem fresh_of_idle {σ : Type} {load : Loader σ} {files : Bytes → Option Bytes} {t : TaRun σ}
    {uuid ccfile : Bytes} {args : List Bytes} {l : Ledger} {s : Sys (TaRun σ)}
    (ht : t.ta = initializeSession)
    (h : Relation.ReflTransGen (Step (taTee load) files) (Sys.init t uuid ccfile args l) s) :
    s.handler.Idle → s.tee.ta = initializeSession := by
  induction h with
  | refl => exact fun _ => ht
  | @tail s₀ s₁ _ hst ih =>
    cases hst with
    | wrapper fail hm =>
      obtain ⟨w, evs, sent, down, stub, hmove, rfl⟩ := wrapperMove_cases hm
      exact ih
    | proxy c hm =>
      obtain ⟨hd, t', evs, up, sent, hmove, rfl⟩ := proxyMove_cases hm
      generalize s₀.handler = hd₀ at hmove ih
      cases hmove with
      | requestLost | gotRequest | file => exact fun _ => ih (.inl rfl)
      | restarted ok => exact fun _ => rfl
      | ran | resumed => exact fun hi => absurd hi (dispatchReply_not_idle _)
      | _ => exact fun hi => by rcases hi with hi | hi <;> cases hi

end TeeChaincode
