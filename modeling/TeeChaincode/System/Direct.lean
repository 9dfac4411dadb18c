import TeeChaincode.Common.Simulation
import TeeChaincode.System.Progress

/-!
# The invocation as a sequential program

What wrapper, proxy and TEE do together in an invocation in which nothing
fails could be written as one loop in one thread: run the TEE, and as long
as it replies with a request, make the call of the stub it asks for and
resume it with the answer. `Direct` is that program. It has no messages,
no streams and no second party.

The system follows it, for every TEE: whatever the interleaving of wrapper
and proxy, an invocation ends if and only if the program does, with its
answer and its write set. Invocations made one after another over one
proxy are therefore the program run again and again, each time on a fresh
session and on the ledger the last one left.
-/

namespace TeeChaincode

open Common

variable {τ ε : Type}

/-! ## The program -/

/-- Where the program stands. -/
inductive Direct (τ : Type)
  /-- Before RUN_WASM. -/
  | start (req : InvocationRequest) (t : τ) (stub : Stub)
  /-- Behind a reply of the TEE. -/
  | replied (r : TeeReply) (t : τ) (stub : Stub)

/-- The stub behind the call for a request. -/
def Stub.serve (stub : Stub) : Request → Stub
  | .get _ => stub
  | .put key value => { stub with writes := stub.writes ++ [(key, value)] }

namespace Direct

/-- **One round of the loop.** -/
def next (T : Tee τ ε) (files : Bytes → Option Bytes) (env : ε) : Direct τ → Option (Direct τ)
  | .start req t stub => (files req.aotFile).map fun wasm =>
    let r := T.run t env wasm (packArguments req.functionName req.arguments)
    .replied r.1 r.2 stub
  | .replied r t stub => r.request.map fun q =>
    let r' := T.resume t env (writeReply q.kind (replyTo stub.committed q))
    .replied r'.1 r'.2 (stub.serve q)

/-- The answer, where there is one. -/
def answer : Direct τ → Option Bytes
  | .start _ _ _ => none
  | .replied r _ _ => r.response

/-- The stub with the writes made so far. -/
def stub : Direct τ → Stub
  | .start _ _ stub => stub
  | .replied _ _ stub => stub

/-- The TEE. -/
def tee : Direct τ → τ
  | .start _ t _ => t
  | .replied _ t _ => t

end Direct

variable {T : Tee τ ε} {files : Bytes → Option Bytes} {env : ε}

/-! ## The system along the program -/

/-- **The states of the system that stand for one of the program.** -/
inductive Stands (T : Tee τ ε) (files : Bytes → Option Bytes) (env : ε) : Direct τ → Sys τ → Prop
  | dialling (req : InvocationRequest) (t : τ) (stub : Stub) (tr : List Event) :
      Stands T files env (.start req t stub) ⟨.dial req, .readRequest, [], [], t, stub, tr⟩
  | opening (req : InvocationRequest) (t : τ) (stub : Stub) (tr : List Event) :
      Stands T files env (.start req t stub)
        ⟨.send (.invocationRequest req), .readRequest, [], [], t, stub, tr⟩
  | opened (req : InvocationRequest) (t : τ) (stub : Stub) (tr : List Event) :
      Stands T files env (.start req t stub)
        ⟨.recv, .readRequest, [.invocationRequest req], [], t, stub, tr⟩
  | loading (req : InvocationRequest) (t : τ) (stub : Stub) (tr : List Event) :
      Stands T files env (.start req t stub) ⟨.recv, .openFile req, [], [], t, stub, tr⟩
  | running {req : InvocationRequest} {wasm : Bytes} (hfile : files req.aotFile = some wasm)
      (t : τ) (stub : Stub) (tr : List Event) :
      Stands T files env (.start req t stub)
        ⟨.recv, .run wasm (packArguments req.functionName req.arguments), [], [], t, stub, tr⟩
  | asking {r : TeeReply} {q : Request} (hq : r.request = some q) (t : τ) (stub : Stub)
      (tr : List Event) :
      Stands T files env (.replied r t stub)
        ⟨.recv, .writeRequest q.kind q.message, [], [], t, stub, tr⟩
  | asked {r : TeeReply} {q : Request} (hq : r.request = some q) (t : τ) (stub : Stub)
      (tr : List Event) :
      Stands T files env (.replied r t stub)
        ⟨.recv, .readReply q.kind, [], [q.message], t, stub, tr⟩
  | calling {r : TeeReply} {q : Request} (hq : r.request = some q) (t : τ) (stub : Stub)
      (tr : List Event) :
      Stands T files env (.replied r t stub) ⟨q.call, .readReply q.kind, [], [], t, stub, tr⟩
  | replying {r : TeeReply} {q : Request} (hq : r.request = some q) (t : τ) (stub : Stub)
      (tr : List Event) :
      Stands T files env (.replied r t stub)
        ⟨.send (replyTo stub.committed q), .readReply q.kind, [], [], t, stub.serve q, tr⟩
  | delivering {r : TeeReply} {q : Request} (hq : r.request = some q) (t : τ) (stub : Stub)
      (tr : List Event) :
      Stands T files env (.replied r t stub)
        ⟨.recv, .readReply q.kind, [replyTo stub.committed q], [], t, stub.serve q, tr⟩
  | resuming {r : TeeReply} {q : Request} (hq : r.request = some q) (t : τ) (stub : Stub)
      (tr : List Event) :
      Stands T files env (.replied r t stub)
        ⟨.recv, .resume (writeReply q.kind (replyTo stub.committed q)), [], [], t, stub.serve q, tr⟩
  | answering {r : TeeReply} {x : Bytes} (hq : r.request = none) (hx : r.response = some x) (t : τ)
      (stub : Stub) (tr : List Event) :
      Stands T files env (.replied r t stub)
        ⟨.recv, .writeResponse (.invocationResponse x), [], [], t, stub, tr⟩
  | answered {r : TeeReply} {x : Bytes} (hq : r.request = none) (hx : r.response = some x) (t : τ)
      (stub : Stub) (tr : List Event) :
      Stands T files env (.replied r t stub)
        ⟨.recv, .restart true, [], [.invocationResponse x], t, stub, tr⟩
  | ended {r : TeeReply} {x : Bytes} (hq : r.request = none) (hx : r.response = some x) (t : τ)
      (stub : Stub) (tr : List Event) :
      Stands T files env (.replied r t stub)
        ⟨.recv, .finished .ok, [], [.invocationResponse x], T.restart t, stub, tr⟩
  | taken {r : TeeReply} {x : Bytes} (hq : r.request = none) (hx : r.response = some x) (t : τ)
      (stub : Stub) (tr : List Event) :
      Stands T files env (.replied r t stub)
        ⟨.done (.success x), .restart true, [], [], t, stub, tr⟩
  | settled {r : TeeReply} {x : Bytes} (hq : r.request = none) (hx : r.response = some x) (t : τ)
      (stub : Stub) (tr : List Event) :
      Stands T files env (.replied r t stub)
        ⟨.done (.success x), .finished .ok, [], [], T.restart t, stub, tr⟩
  | failing {d : Direct τ} (hn : d.next T files env = none) (hx : d.answer = none)
      (tr : List Event) :
      Stands T files env d ⟨.recv, .restart false, [], [], d.tee, d.stub, tr⟩
  | failed {d : Direct τ} (hn : d.next T files env = none) (hx : d.answer = none)
      (tr : List Event) :
      Stands T files env d
        ⟨.recv, .finished (finalStatus false), [], [], T.restart d.tee, d.stub, tr⟩

variable {req : InvocationRequest} {r : TeeReply} {t : τ} {stub : Stub} {d : Direct τ}
  {s s' : Sys τ}

/-- Behind a reply, whichever way it leads. -/
theorem stands_replied (T : Tee τ ε) (files : Bytes → Option Bytes) (env : ε) (r : TeeReply) (t : τ)
    (stub : Stub) (tr : List Event) :
    Stands T files env (.replied r t stub) ⟨.recv, dispatchReply r, [], [], t, stub, tr⟩ := by
  obtain ⟨q, hq, hd⟩ | ⟨hq, x, hx, hd⟩ | ⟨hq, hx, hd⟩ := dispatchReply_cases r
  · rw [hd]
    exact .asking hq t stub tr
  · rw [hd]
    exact .answering hq hx t stub tr
  · rw [hd]
    exact .failing (d := .replied r t stub) (by rw [Direct.next, hq]; rfl) hx tr

theorem Stands.ne_unset (h : Stands T files env d s) : ∀ m ∈ s.down, m ≠ .unset := by
  cases h with
  | @asked r q hq t stub tr =>
    intro m hm
    rw [List.mem_singleton.1 hm]
    cases q <;> nofun
  | answered | ended =>
    intro m hm
    rw [List.mem_singleton.1 hm]
    nofun
  | _ => exact nofun

/-- **A step of the wrapper** is inside a round. -/
theorem Stands.wrapper (h : Stands T files env d s) (hs : s.wrapperMove none = some s') :
    Stands T files env d s' ∧ teeReplies s'.trace = teeReplies s.trace := by
  refine ⟨?_, ?_⟩
  · cases h with
    | dialling req t stub tr => cases hs; exact .opening ..
    | opening req t stub tr => cases hs; exact .opened ..
    | @asked r q hq t stub tr =>
      cases q with
      | get key => cases hs; exact .calling hq ..
      | put key value => cases hs; exact .calling hq ..
    | @calling r q hq t stub tr =>
      cases q with
      | get key => cases hs; exact .replying hq ..
      | put key value => cases hs; exact .replying hq ..
    | replying hq t stub tr => cases hs; exact .delivering hq ..
    | answered hq hx t stub tr => cases hs; exact .taken hq hx ..
    | ended hq hx t stub tr => cases hs; exact .settled hq hx ..
    | _ => cases hs
  · obtain ⟨w, evs, sent, down, stub, hmove, rfl⟩ := wrapperMove_cases hs
    change teeReplies (s.trace ++ evs) = _
    rw [teeReplies_append, hmove.teeReplies, List.append_nil]

/-- **A step of the proxy** is inside a round, or it is the command that
begins the next. -/
theorem Stands.proxy (h : Stands T files env d s)
    (hs : s.proxyMove T files ⟨false, env⟩ = some s') :
    Stands T files env d s' ∧ teeReplies s'.trace = teeReplies s.trace ∨
      ∃ d', d.next T files env = some d' ∧ Stands T files env d' s' := by
  cases h with
  | opened req t stub tr =>
    cases hs
    exact .inl ⟨.loading .., by simp [Sys.log, handlerEvents, teeReplies]⟩
  | loading req t stub tr =>
    simp only [Sys.proxyMove, Sys.handlerInput, Bool.false_eq_true, if_false] at hs
    cases hfile : files req.aotFile with
    | none =>
      rw [hfile] at hs
      cases hs
      refine .inl ⟨.failing (d := .start req t stub) (by rw [Direct.next, hfile]; rfl) rfl _, ?_⟩
      simp [Sys.log, handlerEvents, teeReplies]
    | some wasm =>
      rw [hfile] at hs
      cases hs
      exact .inl ⟨.running hfile .., by simp [Sys.log, handlerEvents, teeReplies]⟩
  | @running req wasm hfile t stub tr =>
    cases hs
    refine .inr ⟨_, ?_, stands_replied ..⟩
    rw [Direct.next, hfile]
    rfl
  | asking hq t stub tr =>
    cases hs
    exact .inl ⟨.asked hq .., by simp [Sys.log, handlerEvents, teeReplies]⟩
  | delivering hq t stub tr =>
    cases hs
    exact .inl ⟨.resuming hq .., by simp [Sys.log, handlerEvents, teeReplies]⟩
  | @resuming r q hq t stub tr =>
    cases hs
    refine .inr ⟨_, ?_, stands_replied ..⟩
    rw [Direct.next, hq]
    rfl
  | answering hq hx t stub tr =>
    cases hs
    exact .inl ⟨.answered hq hx .., by simp [Sys.log, handlerEvents, teeReplies]⟩
  | answered hq hx t stub tr =>
    cases hs
    exact .inl ⟨.ended hq hx .., by simp [Sys.log, handlerEvents, teeReplies]⟩
  | taken hq hx t stub tr =>
    cases hs
    exact .inl ⟨.settled hq hx .., by simp [Sys.log, handlerEvents, teeReplies]⟩
  | failing hn hx tr =>
    cases hs
    exact .inl ⟨.failed hn hx .., by simp [Sys.log, handlerEvents, teeReplies]⟩
  | _ => cases hs

/-- **The system at rest, with what the program came to**: its answer as a
success, or a call that has failed for the wrapper to find out. -/
structure Direct.Settles (T : Tee τ ε) (d : Direct τ) (s : Sys τ) : Prop where
  stub : s.stub = d.stub
  tee : s.tee = T.restart d.tee
  answered : ∀ x, d.answer = some x → s.wrapper = .done (.success x) ∧ s.handler = .finished .ok
  failed : d.answer = none → s.wrapper = .recv ∧ s.handler = .finished (finalStatus false)

/-- A system that stops has come to the end of the program. -/
theorem Stands.stop (h : Stands T files env d s) (hstop : ∀ s', ¬ OkStep T files env s s') :
    d.next T files env = none ∧ d.Settles T s := by
  cases h with
  | settled hq hx t stub tr =>
    refine ⟨by rw [Direct.next, hq]; rfl, rfl, rfl, fun y hy => ?_, fun hno => ?_⟩
    · obtain rfl := Option.some.inj (hx.symm.trans hy)
      exact ⟨rfl, rfl⟩
    · exact absurd (hx.symm.trans hno) nofun
  | failed hn hx tr =>
    exact ⟨hn, rfl, rfl, fun y hy => absurd (hx.symm.trans hy) nofun, fun _ => ⟨rfl, rfl⟩⟩
  | loading req t stub tr =>
    obtain ⟨-, ⟨st, hst⟩ | ⟨hr | ⟨kind, hr⟩, -⟩⟩ := (no_okStep_iff _ env).1 hstop
    · cases hst
    · cases hr
    · cases hr
  | @calling r q hq t stub tr =>
    cases q with
    | get key => exact absurd (.wrapper rfl) (hstop _)
    | put key value => exact absurd (.wrapper rfl) (hstop _)
  | dialling | opening | asked | replying | ended => exact absurd (.wrapper rfl) (hstop _)
  | _ => exact absurd (.proxy rfl) (hstop _)

/-- **The system follows the program.** -/
theorem follows_direct (T : Tee τ ε) (files : Bytes → Option Bytes) (env : ε) :
    Follows (OkStep T files env) (Direct.next T files env) (Stands T files env) Sys.potential where
  step d s s' h hs := by
    have hstep : Stands T files env d s' ∧ teeReplies s'.trace = teeReplies s.trace ∨
        ∃ d', d.next T files env = some d' ∧ Stands T files env d' s' := by
      cases hs with
      | wrapper hm => exact .inl (h.wrapper hm)
      | proxy hm => exact h.proxy hm
    have hany : Step T files s s' := by
      cases hs with
      | wrapper hm => exact .wrapper _ hm
      | proxy hm => exact .proxy _ hm
    refine hstep.imp_left fun ⟨hd, hrep⟩ => ⟨hd, ?_⟩
    have hle := hany.potential h.ne_unset
    rw [hrep] at hle
    omega
  stop d s h hstop := (h.stop hstop).1

/-- **An invocation is the sequential program**, for every TEE. If the
program halts, every run of wrapper and proxy in which nothing fails ends,
in whatever order they move, with the answer, the write set and the TEE
the program halts with; and if any such run comes to an end, the program
halts, with these. -/
theorem invocation_is_direct {τ ε : Type} (T : Tee τ ε) (files : Bytes → Option Bytes) (env : ε)
    (t : τ) (uuid ccfile f a : Bytes) (rest : List Bytes) (l : Ledger) :
    (∀ d, Halts (Direct.next T files env) (.start ⟨uuid, f, a :: rest, ccfile⟩ t ⟨l, []⟩) d →
      Ends (OkStep T files env) (d.Settles T) (Sys.init t uuid ccfile (f :: a :: rest) l)) ∧
    ∀ s, Relation.ReflTransGen (OkStep T files env) (Sys.init t uuid ccfile (f :: a :: rest) l) s →
      (∀ s', ¬ OkStep T files env s s') →
      ∃ d, Halts (Direct.next T files env) (.start ⟨uuid, f, a :: rest, ccfile⟩ t ⟨l, []⟩) d ∧
        d.Settles T s := by
  have hinit : Stands T files env (.start ⟨uuid, f, a :: rest, ccfile⟩ t ⟨l, []⟩)
      (Sys.init t uuid ccfile (f :: a :: rest) l) := .dialling ..
  refine ⟨fun d hd => ?_, fun s hrun hstop => ?_⟩
  · have hends := (follows_direct T files env).ends hd hinit
    exact ⟨hends.acc, fun s hrun hstop => ((hends.stop s hrun hstop).stop hstop).2⟩
  · obtain ⟨d, hd, hs⟩ := (follows_direct T files env).halts hrun hstop hinit
    exact ⟨d, hd, (hs.stop hstop).2⟩

/-- `oneGet` asks once and answers. -/
theorem invocation_is_direct_oneGet :
    Ends (OkStep oneGet (fun _ => some []) ()) (fun s => s.wrapper = .done (.success (ascii "OK")))
      (Sys.init () [] [] [[], []] fun _ => none) := by
  have hends := (invocation_is_direct oneGet (fun _ => some []) () () [] [] [] [] []
    fun _ => none).1 _ ⟨.head rfl (.head rfl .refl), by decide⟩
  exact ⟨hends.acc, fun s hrun hstop => ((hends.stop s hrun hstop).answered _ (by decide)).1⟩

/-! ## Transactions one after another -/

/-- What a transaction calls `invoke` with. -/
structure Transaction where
  uuid : Bytes
  ccfile : Bytes
  functionName : Bytes
  arg : Bytes
  rest : List Bytes

/-- The request it sends. -/
def Transaction.request (x : Transaction) : InvocationRequest :=
  ⟨x.uuid, x.functionName, x.arg :: x.rest, x.ccfile⟩

/-- It starts on a TEE and a ledger. -/
def Transaction.init (x : Transaction) (t : τ) (l : Ledger) : Sys τ :=
  Sys.init t x.uuid x.ccfile (x.functionName :: x.arg :: x.rest) l

/-- The payload of an invocation that has succeeded. -/
def Sys.payload (s : Sys τ) : Option Bytes :=
  match s.wrapper with
  | .done (.success x) => some x
  | _ => none

/-- The ledger an invocation leaves: its write set is committed where it
has succeeded, and dropped otherwise. -/
def Sys.ledger (s : Sys τ) : Ledger :=
  if s.payload.isSome then s.stub.commit else s.stub.committed

def Direct.ledger (d : Direct τ) : Ledger :=
  if d.answer.isSome then d.stub.commit else d.stub.committed

/-- **Transactions over one proxy**, one after another, in none of which a
call fails: each starts on the TEE and the ledger the last one left. -/
inductive Served (T : Tee τ ε) (files : Bytes → Option Bytes) (env : ε) :
    τ → Ledger → List (Transaction × Option Bytes) → Ledger → Prop
  | nil (t : τ) (l : Ledger) : Served T files env t l [] l
  | cons {t : τ} {l l' : Ledger} {x : Transaction} {s : Sys τ}
      {h : List (Transaction × Option Bytes)}
      (hrun : Relation.ReflTransGen (OkStep T files env) (x.init t l) s)
      (hstop : ∀ s', ¬ OkStep T files env s s') (hrest : Served T files env s.tee s.ledger h l') :
      Served T files env t l ((x, s.payload) :: h) l'

/-- **The program, run for one transaction after another**, each time on a
fresh session. -/
inductive Replayed (T : Tee τ ε) (files : Bytes → Option Bytes) (env : ε) (fresh : τ) :
    Ledger → List (Transaction × Option Bytes) → Ledger → Prop
  | nil (l : Ledger) : Replayed T files env fresh l [] l
  | cons {l l' : Ledger} {x : Transaction} {d : Direct τ} {h : List (Transaction × Option Bytes)}
      (hrun : Halts (Direct.next T files env) (.start x.request fresh ⟨l, []⟩) d)
      (hrest : Replayed T files env fresh d.ledger h l') :
      Replayed T files env fresh l ((x, d.answer) :: h) l'

/-- A system at rest shows what the program came to. -/
theorem Direct.Settles.shows (h : d.Settles T s) : s.payload = d.answer ∧ s.ledger = d.ledger := by
  have hp : s.payload = d.answer := by
    unfold Sys.payload
    cases hx : d.answer with
    | some x => rw [(h.answered x hx).1]
    | none => rw [(h.failed hx).1]
  refine ⟨hp, ?_⟩
  rw [Sys.ledger, Direct.ledger, hp, h.stub]

variable {σ : Type} {load : Loader σ} {env : Env}

/-- The program on two TAs that differ in the record of their steps. -/
inductive Direct.Alike : Direct (TaRun σ) → Direct (TaRun σ) → Prop
  | start (req : InvocationRequest) (stub : Stub) {t t' : TaRun σ} (ht : t.ta = t'.ta) :
      Alike (.start req t stub) (.start req t' stub)
  | replied (r : TeeReply) (stub : Stub) {t t' : TaRun σ} (ht : t.ta = t'.ta) :
      Alike (.replied r t stub) (.replied r t' stub)

/-- Nothing reads that record. -/
theorem Direct.Alike.next {d d' : Direct (TaRun σ)} (h : d.Alike d') :
    Option.Rel Alike (d.next (taTee load) files env) (d'.next (taTee load) files env) := by
  cases h with
  | @start req stub t t' ht =>
    simp only [Direct.next, taTee, TaRun.answer, ht]
    cases files req.aotFile with
    | none => exact .none
    | some wasm => exact .some (Alike.replied _ _ rfl)
  | @replied r stub t t' ht =>
    simp only [Direct.next, taTee, TaRun.answer, ht]
    cases r.request with
    | none => exact .none
    | some q => exact .some (Alike.replied _ _ rfl)

theorem Direct.Alike.shows {d d' : Direct (TaRun σ)} (h : d.Alike d') :
    d.answer = d'.answer ∧ d.ledger = d'.ledger := by
  cases h <;> exact ⟨rfl, rfl⟩

/-- The program on a TA whose session is fresh. -/
theorem halts_fresh (t' : TaRun σ) {t : TaRun σ} (ht : t.ta = t'.ta) {req : InvocationRequest}
    {stub : Stub} {d : Direct (TaRun σ)}
    (h : Halts (Direct.next (taTee load) files env) (.start req t stub) d) :
    ∃ d', Halts (Direct.next (taTee load) files env) (.start req t' stub) d' ∧
      d.answer = d'.answer ∧ d.ledger = d'.ledger := by
  obtain ⟨d', hd', halike⟩ :=
    h.congr (E := Direct.Alike) (fun _ _ he => he.next) (.start req stub ht)
  exact ⟨d', hd', halike.shows⟩

/-- **Transactions over one proxy are a sequential execution.** For any
modules, and any list of transactions made one after another in which no
call fails, the answers and the ledger are those of the program, run for
each transaction on a fresh session and on the ledger the transactions
before it left; and whatever the program comes to, the system can come
to. -/
theorem served_iff_replayed {σ : Type} (load : Loader σ) (files : Bytes → Option Bytes) (env : Env)
    {t : TaRun σ} (ht : t.ta = initializeSession) (l l' : Ledger)
    (h : List (Transaction × Option Bytes)) :
    Served (taTee load) files env t l h l' ↔
      Replayed (taTee load) files env freshRun l h l' := by
  have hf := follows_direct (taTee load) files env
  constructor
  · intro hs
    induction hs with
    | nil t l => exact .nil l
    | @cons t l l' x s h hrun hstop hrest ih =>
      obtain ⟨d, hd, hstands⟩ := hf.halts hrun hstop (.dialling x.request t ⟨l, []⟩ [])
      have hsettles := (hstands.stop hstop).2
      obtain ⟨d', hd', hanswer, hledger⟩ := halts_fresh freshRun ht hd
      obtain ⟨hp, hl⟩ := hsettles.shows
      have hfresh : s.tee.ta = initializeSession := by
        rw [hsettles.tee]
        rfl
      rw [hp, hanswer]
      refine .cons hd' ?_
      rw [← hledger, ← hl]
      exact ih hfresh
  · intro hr
    induction hr generalizing t with
    | nil l => exact .nil t l
    | @cons l l' x d h hrun hrest ih =>
      obtain ⟨d', hd', hanswer, hledger⟩ := halts_fresh t ht.symm hrun
      obtain ⟨s, hreach, hstop, hstands⟩ :=
        (hf.ends hd' (.dialling x.request t ⟨l, []⟩ [])).exists_stop
      have hsettles := (hstands.stop hstop).2
      obtain ⟨hp, hl⟩ := hsettles.shows
      have hfresh : s.tee.ta = initializeSession := by
        rw [hsettles.tee]
        rfl
      rw [hanswer, ← hp]
      refine .cons hreach hstop ?_
      rw [hl, ← hledger]
      exact ih hfresh

/-- A transaction without a name. -/
def plainTransaction : Transaction := ⟨[], [], [], [], []⟩

/-- A module that answers at once is served twice. -/
theorem served_iff_replayed_twice :
    Served (taTee answersOk) (fun _ => some smallestWasm) Env.ok freshRun (fun _ => none)
      [(plainTransaction, some (ascii "OK")), (plainTransaction, some (ascii "OK"))]
      fun _ => none := by
  have hnext : ∃ d, Halts (Direct.next (taTee answersOk) (fun _ => some smallestWasm) Env.ok)
      (.start plainTransaction.request freshRun ⟨fun _ => none, []⟩) d ∧
      d.answer = some (ascii "OK") ∧ d.stub = ⟨fun _ => none, []⟩ := by
    refine ⟨_, ⟨.head rfl .refl, ?_⟩, ?_, rfl⟩
    · rw [Direct.next, Option.map_eq_none_iff]
      decide +kernel
    · rw [Direct.answer]
      decide +kernel
  obtain ⟨d, hd, hanswer, hstub⟩ := hnext
  have hledger : d.ledger = fun _ => none := by
    rw [Direct.ledger, hanswer, hstub]
    rfl
  have hlast : Replayed (taTee answersOk) (fun _ => some smallestWasm) Env.ok freshRun
      (fun _ => none) [(plainTransaction, d.answer)] fun _ => none :=
    .cons hd (hledger ▸ .nil _)
  rw [hanswer] at hlast
  refine (served_iff_replayed answersOk _ Env.ok rfl _ _ _).2 ?_
  rw [← hanswer]
  refine .cons hd ?_
  rw [hledger, hanswer]
  exact hlast

end TeeChaincode
