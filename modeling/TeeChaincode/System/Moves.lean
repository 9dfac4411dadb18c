import TeeChaincode.Common.Run
import TeeChaincode.Model.System

/-!
# Everything the two parties can do

One rule for each thing a party's next call can come to, success or
failure, with the events it logs and what it leaves on the streams. The
invariants of an invocation are proved by cases on these rules and never
unfold the step functions.
-/

namespace TeeChaincode

open Common

variable {τ ε : Type}

/-! ## The wrapper -/

/-- What the wrapper's next call can come to: the state behind it, the
events logged, the messages sent and left, and the stub. -/
inductive WrapperMove (down : List ProxyMessage) (stub : Stub) :
    Wrapper → Wrapper → List Event → List WrapperMessage → List ProxyMessage → Stub → Prop
  | dialled (req : InvocationRequest) :
      WrapperMove down stub (.dial req) (.send (.invocationRequest req)) [] [] down stub
  | dialFailed (req : InvocationRequest) (e : Bytes) :
      WrapperMove down stub (.dial req) (.done (.error e)) [.failed] [] down stub
  | sent (m : WrapperMessage) :
      WrapperMove down stub (.send m) .recv [.wrapperSent m] [m] down stub
  | sendFailed (m : WrapperMessage) (e : Bytes) :
      WrapperMove down stub (.send m) (.done (.error e)) [.failed] [] down stub
  | received (m : ProxyMessage) (rest : List ProxyMessage) (h : down = m :: rest) :
      WrapperMove down stub .recv (handleMessage m) [.wrapperReceived m] [] rest stub
  | recvFailed (e : Bytes) :
      WrapperMove down stub .recv (.done (.error e)) [.failed] [] down stub
  | got (key : Bytes) :
      WrapperMove down stub (.getState key)
        (.send (.getStateResponse ((stub.committed key).getD []))) [.getState key] [] down stub
  | getFailed (key e : Bytes) :
      WrapperMove down stub (.getState key) (.done (.error e)) [.getState key, .failed] [] down stub
  | put (key value : Bytes) :
      WrapperMove down stub (.putState key value) (.send (.putStateResponse (ascii "OK")))
        [.putState key value] [] down { stub with writes := stub.writes ++ [(key, value)] }
  | putFailed (key value e : Bytes) :
      WrapperMove down stub (.putState key value) (.done (.error e))
        [.putState key value, .failed] [] down stub

/-- **The wrapper does nothing else.** -/
theorem wrapperMove_cases {s s' : Sys τ} {fail : Option Bytes}
    (h : s.wrapperMove fail = some s') :
    ∃ w evs sent down stub, WrapperMove s.down s.stub s.wrapper w evs sent down stub ∧
      s' = { s.log evs with wrapper := w, up := s.up ++ sent, down := down, stub := stub } := by
  obtain ⟨w, hd, up, down, tee, stub, tr⟩ := s
  cases w with
  | dial req =>
    cases fail with
    | none => cases h; exact ⟨_, _, _, _, _, .dialled req, rfl⟩
    | some e => cases h; exact ⟨_, _, _, _, _, .dialFailed req e, rfl⟩
  | send m =>
    cases fail with
    | none => cases h; exact ⟨_, _, _, _, _, .sent m, rfl⟩
    | some e => cases h; exact ⟨_, _, _, _, _, .sendFailed m e, rfl⟩
  | recv =>
    cases fail with
    | none =>
      cases down with
      | nil => cases h
      | cons m rest => cases h; exact ⟨_, _, _, _, _, .received m rest rfl, rfl⟩
    | some e => cases h; exact ⟨_, _, _, _, _, .recvFailed e, rfl⟩
  | getState key =>
    cases fail with
    | none => cases h; exact ⟨_, _, _, _, _, .got key, rfl⟩
    | some e => cases h; exact ⟨_, _, _, _, _, .getFailed key e, rfl⟩
  | putState key value =>
    cases fail with
    | none => cases h; exact ⟨_, _, _, _, _, .put key value, rfl⟩
    | some e => cases h; exact ⟨_, _, _, _, _, .putFailed key value e, rfl⟩
  | done r => cases fail <;> cases h

/-! ## The proxy -/

/-- The events of a TEE command that was answered. -/
def repliedEvents (r : TeeReply) : List Event :=
  .teeReplied r :: if r.result = .success then [] else [.failed]

/-- What the handler's next call can come to: the handler and the TEE
behind it, the events logged, the messages left and sent. -/
inductive ProxyMove (T : Tee τ ε) (up : List WrapperMessage) (t : τ) :
    Handler → Handler → τ → List Event → List WrapperMessage → List ProxyMessage → Prop
  | requestLost :
      ProxyMove T up t .readRequest
        (.finished (.unknown (ascii "Failed to read invocation request"))) t [.failed] up []
  | gotRequest (m : WrapperMessage) (rest : List WrapperMessage) (h : up = m :: rest) :
      ProxyMove T up t .readRequest (.openFile m.getInvocationRequest) t [.proxyReceived m] rest []
  | noFile (req : InvocationRequest) :
      ProxyMove T up t (.openFile req) (.restart false) t [.failed] up []
  | file (req : InvocationRequest) (wasm : Bytes) :
      ProxyMove T up t (.openFile req) (.run wasm (packArguments req.functionName req.arguments)) t
        [] up []
  | runLost (wasm buf : Bytes) :
      ProxyMove T up t (.run wasm buf) (.restart false) t [.failed] up []
  | ran (wasm buf : Bytes) (env : ε) :
      ProxyMove T up t (.run wasm buf) (dispatchReply (T.run t env wasm buf).1)
        (T.run t env wasm buf).2 (repliedEvents (T.run t env wasm buf).1) up []
  | wroteResponse (m : ProxyMessage) :
      ProxyMove T up t (.writeResponse m) (.restart true) t [.proxySent m] up [m]
  | responseLost (m : ProxyMessage) :
      ProxyMove T up t (.writeResponse m) (.restart false) t [.failed] up []
  | wroteRequest (kind : RequestKind) (m : ProxyMessage) :
      ProxyMove T up t (.writeRequest kind m) (.readReply kind) t [.proxySent m] up [m]
  | writeLost (kind : RequestKind) (m : ProxyMessage) :
      ProxyMove T up t (.writeRequest kind m) (.restart false) t [.failed] up []
  | gotReply (kind : RequestKind) (m : WrapperMessage) (rest : List WrapperMessage)
      (h : up = m :: rest) :
      ProxyMove T up t (.readReply kind) (.resume (writeReply kind m)) t [.proxyReceived m] rest []
  | replyLost (kind : RequestKind) :
      ProxyMove T up t (.readReply kind) (.restart false) t [.failed] up []
  | resumed (buf : Bytes) (env : ε) :
      ProxyMove T up t (.resume buf) (dispatchReply (T.resume t env buf).1)
        (T.resume t env buf).2 (repliedEvents (T.resume t env buf).1) up []
  | resumeLost (buf : Bytes) :
      ProxyMove T up t (.resume buf) (.restart false) t [.failed] up []
  | restarted (ok : Bool) :
      ProxyMove T up t (.restart ok) (.finished (finalStatus ok)) (T.restart t) [] up []

/-- **The proxy does nothing else.** -/
theorem proxyMove_cases {T : Tee τ ε} {files : Bytes → Option Bytes} {s s' : Sys τ} {c : Choice ε}
    (h : s.proxyMove T files c = some s') :
    ∃ hd t evs up sent, ProxyMove T s.up s.tee s.handler hd t evs up sent ∧
      s' = { s.log evs with handler := hd, tee := t, up := up, down := s.down ++ sent } := by
  obtain ⟨w, hd, up, down, tee, stub, tr⟩ := s
  obtain ⟨fail, env⟩ := c
  cases hd with
  | readRequest =>
    cases fail with
    | true => cases h; exact ⟨_, _, _, _, _, .requestLost, rfl⟩
    | false =>
      cases up with
      | nil => cases h
      | cons m rest => cases h; exact ⟨_, _, _, _, _, .gotRequest m rest rfl, rfl⟩
  | openFile req =>
    cases fail with
    | true => cases h; exact ⟨_, _, _, _, _, .noFile req, rfl⟩
    | false =>
      simp only [Sys.proxyMove, Sys.handlerInput] at h
      cases hf : files req.aotFile with
      | none => rw [hf] at h; cases h; exact ⟨_, _, _, _, _, .noFile req, rfl⟩
      | some wasm => rw [hf] at h; cases h; exact ⟨_, _, _, _, _, .file req wasm, rfl⟩
  | run wasm buf =>
    cases fail with
    | true => cases h; exact ⟨_, _, _, _, _, .runLost wasm buf, rfl⟩
    | false => cases h; exact ⟨_, _, _, _, _, .ran wasm buf env, rfl⟩
  | writeResponse m =>
    cases fail with
    | true => cases h; exact ⟨_, _, _, _, _, .responseLost m, rfl⟩
    | false => cases h; exact ⟨_, _, _, _, _, .wroteResponse m, rfl⟩
  | writeRequest kind m =>
    cases fail with
    | true => cases h; exact ⟨_, _, _, _, _, .writeLost kind m, rfl⟩
    | false => cases h; exact ⟨_, _, _, _, _, .wroteRequest kind m, rfl⟩
  | readReply kind =>
    cases fail with
    | true => cases h; exact ⟨_, _, _, _, _, .replyLost kind, rfl⟩
    | false =>
      cases up with
      | nil => cases h
      | cons m rest => cases h; exact ⟨_, _, _, _, _, .gotReply kind m rest rfl, rfl⟩
  | resume buf =>
    cases fail with
    | true => cases h; exact ⟨_, _, _, _, _, .resumeLost buf, rfl⟩
    | false => cases h; exact ⟨_, _, _, _, _, .resumed buf env, rfl⟩
  | restart ok => cases h; exact ⟨_, _, _, _, _, .restarted ok, rfl⟩
  | finished st => cases fail <;> cases h

/-! ## Runs given by their moves -/

/-- A move of either party. -/
inductive Move (ε : Type)
  | wrapper (fail : Option Bytes)
  | proxy (c : Choice ε)

/-- The system behind a move. -/
def Sys.move (T : Tee τ ε) (files : Bytes → Option Bytes) (s : Sys τ) : Move ε → Option (Sys τ)
  | .wrapper fail => s.wrapperMove fail
  | .proxy c => s.proxyMove T files c

/-- The system behind a list of moves. -/
def Sys.moves (T : Tee τ ε) (files : Bytes → Option Bytes) (s : Sys τ) (ms : List (Move ε)) :
    Option (Sys τ) :=
  ms.foldlM (fun s m => s.move T files m) s

theorem step_of_move {T : Tee τ ε} {files : Bytes → Option Bytes} {s s' : Sys τ} {m : Move ε}
    (h : s.move T files m = some s') : Step T files s s' := by
  cases m with
  | wrapper fail => exact .wrapper fail h
  | proxy c => exact .proxy c h

/-- **The moves of a list are a run**, by steps of which each satisfies
what is asked of it. -/
theorem reaches_of_sysMoves {T : Tee τ ε} {files : Bytes → Option Bytes} {R : Sys τ → Sys τ → Prop}
    (hR : ∀ s s' m, s.move T files m = some s' → R s s') {s s' : Sys τ} {ms : List (Move ε)}
    (h : s.moves T files ms = some s') : Relation.ReflTransGen R s s' := by
  induction ms generalizing s with
  | nil =>
    obtain rfl : s = s' := by simpa [Sys.moves] using h
    exact .refl
  | cons m ms ih =>
    rw [Sys.moves, List.foldlM_cons, Option.bind_eq_bind, Option.bind_eq_some_iff] at h
    obtain ⟨s₁, h₁, h₂⟩ := h
    exact .head (hR s s₁ m h₁) (ih h₂)

end TeeChaincode
