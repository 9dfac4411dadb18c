import TeeChaincode.Model.Proxy
import TeeChaincode.Model.Wrapper

/-!
# One invocation across wrapper, proxy and TEE

The wrapper's `invoke` and the proxy's handler run side by side over a
reliable FIFO stream: `up` holds the messages in flight to the proxy,
`down` those to the wrapper. A receive blocks on an empty stream, and
every outside call of either party may fail at any time. The stub is
Fabric's: `GetState` reads the committed state, `PutState` adds to the
write set, and the write set is committed where the invocation succeeds.

`trace` records what happened, in order; nothing reads it.
-/

namespace TeeChaincode

open Common

/-- The world state: a value for some keys. -/
abbrev Ledger := Bytes → Option Bytes

/-- The stub of one transaction: the committed state, and its write
set. -/
structure Stub where
  committed : Ledger
  writes : List (Bytes × Bytes)

/-- The state behind the write set. -/
def Stub.commit (s : Stub) : Ledger :=
  s.writes.foldl (fun l w => Function.update l w.1 (some w.2)) s.committed

/-- What can happen. -/
inductive Event
  | wrapperSent (m : WrapperMessage)
  | wrapperReceived (m : ProxyMessage)
  | getState (key : Bytes)
  | putState (key value : Bytes)
  | proxySent (m : ProxyMessage)
  | proxyReceived (m : WrapperMessage)
  | teeReplied (r : TeeReply)
  /-- A call failed. -/
  | failed
deriving DecidableEq, Repr

/-- The state of one invocation. -/
structure Sys (τ : Type) where
  wrapper : Wrapper
  handler : Handler
  up : List WrapperMessage
  down : List ProxyMessage
  tee : τ
  stub : Stub
  trace : List Event

variable {τ ε : Type}

/-- The start of an invocation. -/
def Sys.init (t : τ) (uuid ccfile : Bytes) (args : List Bytes) (l : Ledger) : Sys τ where
  wrapper := invoke uuid ccfile args
  handler := .readRequest
  up := []
  down := []
  tee := t
  stub := ⟨l, []⟩
  trace := []

/-- The state with events added to the trace. -/
def Sys.log (s : Sys τ) (es : List Event) : Sys τ := { s with trace := s.trace ++ es }

/-- What the wrapper's next call brings back: an error text, or what the
stream and the stub hold. A receive blocks on an empty stream. -/
def Sys.wrapperInput (s : Sys τ) (fail : Option Bytes) : Option WrapperInput :=
  match s.wrapper, fail with
  | .dial _, fail => some (.dialled fail)
  | .send _, fail => some (.sent fail)
  | .recv, some e => some (.received (.error e))
  | .recv, none => s.down.head?.map fun m => .received (.ok m)
  | .getState _, some e => some (.gotState (.error e))
  | .getState key, none => some (.gotState (.ok (s.stub.committed key)))
  | .putState _ _, fail => some (.putDone fail)
  | .done _, _ => none

/-- The events of a wrapper's step. -/
def wrapperEvents : Wrapper → WrapperInput → List Event
  | .send m, .sent none => [.wrapperSent m]
  | .recv, .received (.ok m) => [.wrapperReceived m]
  | .getState key, .gotState (.ok _) => [.getState key]
  | .getState key, .gotState (.error _) => [.getState key, .failed]
  | .putState key value, .putDone none => [.putState key value]
  | .putState key value, .putDone (some _) => [.putState key value, .failed]
  | _, .dialled (some _) | _, .sent (some _) | _, .received (.error _) => [.failed]
  | _, _ => []

/-- The message a wrapper's step puts on the stream. -/
def sentUp : Wrapper → WrapperInput → List WrapperMessage
  | .send m, .sent none => [m]
  | _, _ => []

/-- The messages left on the stream by a wrapper's step. -/
def leftDown (down : List ProxyMessage) : WrapperInput → List ProxyMessage
  | .received (.ok _) => down.tail
  | _ => down

/-- The stub behind a wrapper's step. -/
def Stub.after (stub : Stub) : Wrapper → WrapperInput → Stub
  | .putState key value, .putDone none => { stub with writes := stub.writes ++ [(key, value)] }
  | _, _ => stub

/-- The wrapper's next call: it fails with an error text, or succeeds. -/
def Sys.wrapperMove (s : Sys τ) (fail : Option Bytes) : Option (Sys τ) :=
  match s.wrapperInput fail with
  | none => none
  | some i =>
    (wrapperStep s.wrapper i).map fun w =>
      { s.log (wrapperEvents s.wrapper i) with
        wrapper := w
        up := s.up ++ sentUp s.wrapper i
        down := leftDown s.down i
        stub := s.stub.after s.wrapper i }

/-- How the outside answers a handler's next call: it fails, or it
succeeds, the TEE being in environment `env` where it is asked. -/
structure Choice (ε : Type) where
  fail : Bool
  env : ε

/-- What the handler's next call brings back, and the stream behind it. -/
def Sys.handlerInput (s : Sys τ) (files : Bytes → Option Bytes) (c : Choice ε) :
    Option (Input ε × List WrapperMessage) :=
  match s.handler with
  | .readRequest | .readReply _ =>
    if c.fail then some (.read none, s.up)
    else
      match s.up with
      | [] => none
      | m :: rest => some (.read (some m), rest)
  | .openFile req => some (.file (if c.fail then none else files req.aotFile), s.up)
  | .run _ _ | .resume _ => some (.tee (if c.fail then none else some c.env), s.up)
  | .writeResponse _ | .writeRequest _ _ => some (.write (!c.fail), s.up)
  | .restart _ => some (.restarted, s.up)
  | .finished _ => none

/-- The events of a handler's step. -/
def handlerEvents (T : Tee τ ε) (t : τ) : Handler → Input ε → List Event
  | _, .read (some m) => [.proxyReceived m]
  | .run wasm buf, .tee (some env) =>
    .teeReplied (T.run t env wasm buf).1 ::
      if (T.run t env wasm buf).1.result = .success then [] else [.failed]
  | .resume buf, .tee (some env) =>
    .teeReplied (T.resume t env buf).1 ::
      if (T.resume t env buf).1.result = .success then [] else [.failed]
  | .writeResponse m, .write true => [.proxySent m]
  | .writeRequest _ m, .write true => [.proxySent m]
  | _, .read none | _, .file none | _, .tee none | _, .write false => [.failed]
  | _, _ => []

/-- The proxy's next call. -/
def Sys.proxyMove (T : Tee τ ε) (files : Bytes → Option Bytes) (s : Sys τ) (c : Choice ε) :
    Option (Sys τ) :=
  match s.handlerInput files c with
  | none => none
  | some (i, up) =>
    (handlerStep T s.tee s.handler i).map fun r =>
      { s.log (handlerEvents T s.tee s.handler i) with
        handler := r.1
        tee := r.2
        up := up
        down := s.down ++ (sentBy s.handler i).toList }

/-- A step of the system: either party makes its next call, and any call
may fail. -/
inductive Step (T : Tee τ ε) (files : Bytes → Option Bytes) : Sys τ → Sys τ → Prop
  | wrapper {s s' : Sys τ} (fail : Option Bytes) (h : s.wrapperMove fail = some s') :
      Step T files s s'
  | proxy {s s' : Sys τ} (c : Choice ε) (h : s.proxyMove T files c = some s') :
      Step T files s s'

/-- A step in which nothing fails, the TEE being in environment `env`. -/
inductive OkStep (T : Tee τ ε) (files : Bytes → Option Bytes) (env : ε) : Sys τ → Sys τ → Prop
  | wrapper {s s' : Sys τ} (h : s.wrapperMove none = some s') : OkStep T files env s s'
  | proxy {s s' : Sys τ} (h : s.proxyMove T files ⟨false, env⟩ = some s') :
      OkStep T files env s s'

end TeeChaincode
