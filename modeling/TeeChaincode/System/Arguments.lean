import TeeChaincode.System.Exchange
import TeeChaincode.System.Requests
import TeeChaincode.Ta.Arguments

/-!
# From the wrapper's arguments to the module

The function name and the arguments of an invocation travel in the first
message of the stream, and the proxy packs them for RUN_WASM. In every run
the table the module is started on is the one packed from what `invoke`
was given, and every step of the module reads its strings from it.
-/

namespace TeeChaincode

open Common

/-! ## The request on its way -/

section Carried

variable {τ ε : Type} {T : Tee τ ε} {files : Bytes → Option Bytes} {req : InvocationRequest}

/-- **Where the invocation request is**, up to its RUN_WASM. -/
inductive Carried (files : Bytes → Option Bytes) (req : InvocationRequest) :
    Handler → Wrapper → List WrapperMessage → List ProxyMessage → Prop
  | dialling : Carried files req .readRequest (.dial req) [] []
  | sending : Carried files req .readRequest (.send (.invocationRequest req)) [] []
  | sent {w : Wrapper} (hw : w.Waits) :
      Carried files req .readRequest w [.invocationRequest req] []
  | lost {e : Bytes} : Carried files req .readRequest (.done (.error e)) [] []
  | read {w : Wrapper} {up : List WrapperMessage} {down : List ProxyMessage} :
      Carried files req (.openFile req) w up down
  | packed {wasm : Bytes} {w : Wrapper} {up : List WrapperMessage} {down : List ProxyMessage}
      (hf : files req.aotFile = some wasm) :
      Carried files req (.run wasm (packArguments req.functionName req.arguments)) w up down
  | started {hd : Handler} {w : Wrapper} {up : List WrapperMessage} {down : List ProxyMessage}
      (hh : hd.stage ≠ .arriving) : Carried files req hd w up down

theorem Carried.wrapper {hd : Handler} {w w' : Wrapper} {up sent : List WrapperMessage}
    {down down' : List ProxyMessage} {evs : List Event} {stub stub' : Stub}
    (h : Carried files req hd w up down)
    (hm : WrapperMove down stub w w' evs sent down' stub') :
    Carried files req hd w' (up ++ sent) down' := by
  cases h with
  | dialling =>
    cases hm with
    | dialled => exact .sending
    | dialFailed => exact .lost
  | sending =>
    cases hm with
    | sent => exact .sent .recv
    | sendFailed => exact .lost
  | sent hw =>
    obtain ⟨rfl, -, rfl, hw'⟩ := hw.move_nil hm
    exact .sent hw'
  | lost => cases hm
  | read => exact .read
  | packed hf => exact .packed hf
  | started hh => exact .started hh

/-- The file a handler has found is the one it was asked for. -/
theorem proxyMove_openFile {s s' : Sys τ} {c : Choice ε} (h : s.proxyMove T files c = some s')
    (hhd : s.handler = .openFile req) {wasm buf : Bytes} (hrun : s'.handler = .run wasm buf) :
    files req.aotFile = some wasm := by
  obtain ⟨w, hd, up, down, tee, stub, tr⟩ := s
  obtain rfl : hd = .openFile req := hhd
  obtain ⟨fail, env⟩ := c
  cases fail with
  | true =>
    cases h
    cases hrun
  | false =>
    simp only [Sys.proxyMove, Sys.handlerInput] at h
    cases hf : files req.aotFile with
    | none =>
      rw [hf] at h
      cases h
      cases hrun
    | some found =>
      rw [hf] at h
      cases h
      rw [(Handler.run.inj hrun).1]

theorem Carried.proxy {hd hd' : Handler} {w : Wrapper} {up up' : List WrapperMessage}
    {down sent : List ProxyMessage} {evs : List Event} {t t' : τ}
    (h : Carried files req hd w up down) (hm : ProxyMove T up t hd hd' t' evs up' sent)
    (hfile : ∀ wasm buf, hd = .openFile req → hd' = .run wasm buf →
      files req.aotFile = some wasm) :
    Carried files req hd' w up' (down ++ sent) := by
  cases h with
  | dialling | sending | lost =>
    cases hm with
    | requestLost => exact .started nofun
    | gotRequest m rest hup => cases hup
  | sent hw =>
    cases hm with
    | requestLost => exact .started nofun
    | gotRequest m rest hup =>
      obtain ⟨rfl, rfl⟩ := List.cons.inj hup
      exact .read
  | read =>
    cases hm with
    | noFile => exact .started nofun
    | file _ wasm => exact .packed (hfile wasm _ rfl rfl)
  | packed hf =>
    cases hm with
    | runLost => exact .started nofun
    | ran => exact .started (dispatchReply_not_arriving _)
  | started hh =>
    cases hm with
    | requestLost | gotRequest | noFile | file | runLost | ran => exact absurd rfl hh
    | resumed => exact .started (dispatchReply_not_arriving _)
    | _ => exact .started nofun

/-- **In every state of a run the request is where it can be.** -/
theorem carried_of_run {t : τ} {uuid ccfile f a : Bytes} {rest : List Bytes} {l : Ledger}
    {s : Sys τ} (h : Relation.ReflTransGen (Step T files)
      (Sys.init t uuid ccfile (f :: a :: rest) l) s) :
    Carried files ⟨uuid, f, a :: rest, ccfile⟩ s.handler s.wrapper s.up s.down := by
  induction h with
  | refl => exact .dialling
  | @tail s s' _ hst ih =>
    cases hst with
    | wrapper fail hm =>
      obtain ⟨w, evs, sent, down, stub, hmove, rfl⟩ := wrapperMove_cases hm
      exact ih.wrapper hmove
    | proxy c hm =>
      have hfile : ∀ wasm buf, s.handler = .openFile ⟨uuid, f, a :: rest, ccfile⟩ →
          s'.handler = .run wasm buf → files ccfile = some wasm :=
        fun _ _ hhd => proxyMove_openFile hm hhd
      obtain ⟨hd, t, evs, up, sent, hmove, rfl⟩ := proxyMove_cases hm
      exact ih.proxy hmove hfile

/-- The RUN_WASM of an invocation. -/
theorem Carried.run {hd : Handler} {w : Wrapper} {up : List WrapperMessage}
    {down : List ProxyMessage} (h : Carried files req hd w up down) {wasm buf : Bytes}
    (hhd : hd = .run wasm buf) :
    files req.aotFile = some wasm ∧ buf = packArguments req.functionName req.arguments := by
  cases h with
  | packed hf =>
    obtain ⟨rfl, rfl⟩ := Handler.run.inj hhd
    exact ⟨hf, rfl⟩
  | started hh =>
    rw [hhd] at hh
    exact absurd rfl hh
  | _ => cases hhd

end Carried

/-! ## What the module reads -/

variable {σ : Type} {load : Loader σ} {files : Bytes → Option Bytes} {s s' : Sys (TaRun σ)}
variable {f : Bytes} {as : List Bytes}

/-- Every step so far has read the strings, and the TA is ready for the
next, as long as no length passed to `cc_return_response` was negative. -/
structure Arrived (load : Loader σ) (f : Bytes) (as : List Bytes) (s : Sys (TaRun σ)) : Prop where
  fresh : s.handler.stage = .arriving → s.tee.ta = initializeSession
  observes : (∀ c ∈ callsOf s.tee.steps, c.1.Measured) →
    (∀ tr ∈ s.tee.steps, tr.Observes load f as) ∧
      (s.handler.Waits → s.tee.ta.Serves load f as)

/-- The commands of the proxy. -/
theorem TeeCommand.observes {ta : Ta σ} {r : Reply σ} {hd : Handler}
    (h : TeeCommand load ta r hd) (hbuf : ∀ wasm buf, hd = .run wasm buf → buf = packArguments f as)
    (hfresh : hd.stage = .arriving → ta = initializeSession)
    (hserves : hd.Waits → ta.Serves load f as) : r.Observes load f as := by
  cases h with
  | run wasm buf env hr =>
    obtain rfl := hbuf wasm buf rfl
    subst hr
    exact run_observes ta wasm f as env
  | resume buf env hr =>
    subst hr
    exact resume_observes (hserves trivial) _ env

theorem Arrived.step (h : Arrived load f as s) (hst : TaStep load s s')
    (hbuf : ∀ wasm buf, s.handler = .run wasm buf → buf = packArguments f as) :
    Arrived load f as s' := by
  refine ⟨hst.fresh h.fresh, fun hm => ?_⟩
  cases hst with
  | off hsteps _ _ hwaits =>
    rw [hsteps] at hm ⊢
    obtain ⟨hobs, hserves⟩ := h.observes hm
    refine ⟨hobs, fun hw => ?_⟩
    obtain ⟨hw', htee⟩ := hwaits hw
    rw [htee]
    exact hserves hw'
  | @command r hr _ htee hhd =>
    have hcalls : callsOf (s.tee.steps ++ r.steps) = callsOf s.tee.steps ++ callsOf r.steps :=
      List.flatMap_append
    rw [htee, hcalls] at hm
    obtain ⟨hobs, hserves⟩ := h.observes fun c hc => hm c (List.mem_append_left _ hc)
    obtain ⟨hnew, hnext⟩ :=
      hr.observes hbuf h.fresh hserves fun c hc => hm c (List.mem_append_right _ hc)
    rw [htee, hhd]
    refine ⟨fun tr htr => ?_, fun hw => hnext ?_⟩
    · rcases List.mem_append.1 htr with hold | hmade
      · exact hobs tr hold
      · exact hnew tr hmade
    · -- a command that failed has nothing to wait for
      by_contra hres
      have hend : dispatchReply r.tee = .restart false := if_pos hres
      rw [hend] at hw
      exact absurd hw id

/-- **The command under way** brings each of its calls the string it asks
for, out of the session of the TA. -/
theorem Arrived.delivers (h : Arrived load f as s)
    (hbuf : ∀ wasm buf, s.handler = .run wasm buf → buf = packArguments f as)
    (hm : ∀ c ∈ callsOf s.tee.steps, c.1.Measured) {cmd : Command} {p : Params}
    (hcmd : s.handler.command = some (cmd, p)) (env : Env) :
    EachCall load s.tee.ta cmd p env (Delivered f as) := by
  refine eachCall_of_args (fun _ hs m c => delivered_of_args hs m c) fun ses hs => ?_
  cases hhd : s.handler with
  | run wasm buf =>
    obtain rfl := hbuf wasm buf hhd
    rw [hhd] at hcmd
    cases hcmd
    exact ses.launched_args wasm f as
  | resume buf =>
    have hserves := (h.observes hm).2 (by rw [hhd]; trivial)
    rw [hhd] at hcmd
    cases hcmd
    exact hserves.resume_args hs _
  | _ =>
    rw [hhd] at hcmd
    cases hcmd

/-- **In every run the steps of the module read its strings.** -/
theorem arrived_of_run {uuid ccfile f a : Bytes} {rest : List Bytes} {l : Ledger}
    (h : Relation.ReflTransGen (Step (taTee load) files)
      (Sys.init freshRun uuid ccfile (f :: a :: rest) l) s) :
    Arrived load f (a :: rest) s := by
  induction h with
  | refl => exact ⟨fun _ => rfl, fun _ => ⟨nofun, nofun⟩⟩
  | tail hrun hst ih =>
    exact ih.step (taStep_of_step hst) fun wasm buf hhd => ((carried_of_run hrun).run hhd).2

end TeeChaincode
