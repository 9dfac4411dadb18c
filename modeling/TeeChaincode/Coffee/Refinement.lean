import TeeChaincode.Coffee.Commands
import TeeChaincode.Coffee.Layout
import TeeChaincode.Common.Run
import TeeChaincode.Model.System
import TeeChaincode.Proxy.Marshal

/-!
# One invocation of the chaincode, end to end

`spec` is the chaincode as a sequential program: from a ledger, a
function name and two arguments, the answer and the ledger behind it. The
main theorem says that an invocation in which nothing fails refines it,
from `invoke` through the proxy and the TA to the chaincode and back:
whatever the interleaving of wrapper and proxy, the run ends, with the
specification's answer as the success payload and its ledger committed.

The proof follows the phase machine. Between two requests the wrapper
waits in `Recv` and the handler is about to write what the TA asked for;
`Asking` is that state, and each request takes one `Asking` state to the
next.
-/

namespace TeeChaincode

namespace Coffee

open Common

/-! ## The specification -/

/-- The value a person's record comes to: nothing, if it is absent or too
long to be replied. -/
def stored (l : Ledger) (person : Bytes) : Bytes := replyValue ((l person).getD [])

/-- **The chaincode as a sequential program.** -/
def spec (l : Ledger) (f person amount : Bytes) : Bytes × Ledger :=
  if f = Lit.create.text then
    if stored l person ≠ [] then (Lit.exist.text, l)
    else (Lit.ok.text, Function.update l person (some amount))
  else if f = Lit.add.text then
    if stored l person = [] then (Lit.empty.text, l)
    else (Lit.ok.text, Function.update l person (some (sum32 (stored l person) amount)))
  else if f = Lit.query.text then
    (if stored l person = [] then Lit.notfound.text else stored l person, l)
  else (Lit.error.text, l)

/-! ## Moves -/

variable {τ ε : Type} {T : Tee τ ε} {files : Bytes → Option Bytes} {env : ε} {Q : Sys τ → Prop}
variable {s s' : Sys τ}

/-- Only the wrapper can move. -/
theorem ends_of_wrapper (hw : s.wrapperMove none = some s')
    (hp : s.proxyMove T files ⟨false, env⟩ = none) (h : Ends (OkStep T files env) Q s') :
    Ends (OkStep T files env) Q s := by
  refine Ends.of_step ⟨s', .wrapper hw⟩ fun t ht => ?_
  cases ht with
  | wrapper ht => rw [hw] at ht; cases ht; exact h
  | proxy ht => rw [hp] at ht; cases ht

/-- Only the proxy can move. -/
theorem ends_of_proxy (hw : s.wrapperMove none = none)
    (hp : s.proxyMove T files ⟨false, env⟩ = some s') (h : Ends (OkStep T files env) Q s') :
    Ends (OkStep T files env) Q s := by
  refine Ends.of_step ⟨s', .proxy hp⟩ fun t ht => ?_
  cases ht with
  | wrapper ht => rw [hw] at ht; cases ht
  | proxy ht => rw [hp] at ht; cases ht; exact h

/-- Neither can. -/
theorem ends_of_stopped (hq : Q s) (hw : s.wrapperMove none = none)
    (hp : s.proxyMove T files ⟨false, env⟩ = none) : Ends (OkStep T files env) Q s := by
  refine Ends.of_stopped hq fun t ht => ?_
  cases ht with
  | wrapper ht => rw [hw] at ht; cases ht
  | proxy ht => rw [hp] at ht; cases ht

/-! ## Requests -/

/-- The wrapper waits, and the handler is about to write what the TA asked
for. -/
structure Asking (a : Ask) (t : τ) (stub : Stub) (s : Sys τ) : Prop where
  wrapper : s.wrapper = .recv
  handler : s.handler = a.handler
  up : s.up = []
  down : s.down = []
  tee : s.tee = t
  stub : s.stub = stub

variable {t : τ} {stub : Stub}

/-- **A GET request.** The wrapper replies with the committed value, and
the TA is resumed on it. -/
theorem Asking.get {key : Bytes} (h : Asking (.get key) t stub s)
    (hQ : ∀ s', s'.wrapper = .recv → s'.up = [] → s'.down = [] → s'.stub = stub →
      s'.handler = dispatchReply (T.resume t env (writeReply .get
        (.getStateResponse ((stub.committed key).getD [])))).1 →
      s'.tee = (T.resume t env (writeReply .get
        (.getStateResponse ((stub.committed key).getD [])))).2 →
      Ends (OkStep T files env) Q s') :
    Ends (OkStep T files env) Q s := by
  obtain ⟨w, hd, up, down, tee, st, tr⟩ := s
  obtain ⟨rfl, rfl, rfl, rfl, rfl, rfl⟩ := h
  refine ends_of_proxy rfl rfl (ends_of_wrapper rfl rfl (ends_of_wrapper rfl rfl
    (ends_of_wrapper rfl rfl (ends_of_proxy rfl rfl (ends_of_proxy rfl rfl ?_)))))
  exact hQ _ rfl rfl rfl rfl rfl rfl

/-- **A PUT request.** The write joins the write set. -/
theorem Asking.put {key value : Bytes} (h : Asking (.put key value) t stub s)
    (hQ : ∀ s', s'.wrapper = .recv → s'.up = [] → s'.down = [] →
      s'.stub = { stub with writes := stub.writes ++ [(key, value)] } →
      s'.handler = dispatchReply (T.resume t env (writeReply .put
        (.putStateResponse (ascii "OK")))).1 →
      s'.tee = (T.resume t env (writeReply .put (.putStateResponse (ascii "OK")))).2 →
      Ends (OkStep T files env) Q s') :
    Ends (OkStep T files env) Q s := by
  obtain ⟨w, hd, up, down, tee, st, tr⟩ := s
  obtain ⟨rfl, rfl, rfl, rfl, rfl, rfl⟩ := h
  refine ends_of_proxy rfl rfl (ends_of_wrapper rfl rfl (ends_of_wrapper rfl rfl
    (ends_of_wrapper rfl rfl (ends_of_proxy rfl rfl (ends_of_proxy rfl rfl ?_)))))
  exact hQ _ rfl rfl rfl rfl rfl rfl

/-- **The module is read and RUN_WASM issued**, with the arguments
packed. -/
theorem ends_openFile {req : InvocationRequest} {wasm : Bytes} (hw : s.wrapper = .recv)
    (hh : s.handler = .openFile req) (hu : s.up = []) (hd : s.down = [])
    (hfile : files req.aotFile = some wasm)
    (hQ : ∀ s', s'.wrapper = .recv → s'.up = [] → s'.down = [] → s'.stub = s.stub →
      s'.handler = dispatchReply
        (T.run s.tee env wasm (packArguments req.functionName req.arguments)).1 →
      s'.tee = (T.run s.tee env wasm (packArguments req.functionName req.arguments)).2 →
      Ends (OkStep T files env) Q s') :
    Ends (OkStep T files env) Q s := by
  obtain ⟨w, hd, up, down, tee, st, tr⟩ := s
  obtain rfl := hw
  obtain rfl := hh
  obtain rfl := hu
  obtain rfl := hd
  have hopen : Sys.proxyMove T files ⟨.recv, .openFile req, [], [], tee, st, tr⟩ ⟨false, env⟩ =
      some ⟨.recv, .run wasm (packArguments req.functionName req.arguments), [], [], tee, st,
        tr ++ []⟩ := by
    simp only [Sys.proxyMove, Sys.handlerInput, hfile]
    rfl
  exact ends_of_proxy rfl hopen (ends_of_proxy rfl rfl (hQ _ rfl rfl rfl rfl rfl rfl))

/-- **The final answer.** Wrapper and proxy come to their ends in either
order. -/
theorem Asking.answer {text : Bytes} (h : Asking (.answer text) t stub s)
    (hQ : ∀ s', s'.wrapper = .done (.success text) → s'.handler = .finished .ok →
      s'.stub = stub → s'.tee = T.restart t → Q s') :
    Ends (OkStep T files env) Q s := by
  obtain ⟨w, hd, up, down, tee, st, tr⟩ := s
  obtain ⟨rfl, rfl, rfl, rfl, rfl, rfl⟩ := h
  refine ends_of_proxy rfl rfl (Ends.of_step ⟨_, .wrapper rfl⟩ fun s' hs' => ?_)
  cases hs' with
  | wrapper hw =>
    cases hw
    exact ends_of_proxy rfl rfl (ends_of_stopped (hQ _ rfl rfl rfl rfl) rfl rfl)
  | proxy hp =>
    cases hp
    exact ends_of_wrapper rfl rfl (ends_of_stopped (hQ _ rfl rfl rfl rfl) rfl rfl)

/-! ## Requests of the chaincode -/

section Requests

variable {L : Layout} {load : Loader Globals} {args : Buf sizeofArguments} {ph : Phase}
variable {Q : Sys (TaRun Globals) → Prop} {s : Sys (TaRun Globals)} {t : TaRun Globals}

/-- What the machine asks for fits the shared buffer. -/
theorem InPhase.fits (h : InPhase L args ph t.ta) (buf : Bytes) :
    (stepOn args ph (bufferValue buf)).2.Fits := by
  obtain ⟨-, -, -, s, inst, w, gl, -, -, -, hconf⟩ := h
  obtain ⟨w', gl', s', -, -, hask⟩ := steps_next (v := bufferValue buf) hconf
    (zero_notMem_clip _ _) (length_clip_le _ _)
  rw [stepOn, ← hask]
  exact asked_fits s'

/-- RESUME_WASM as the proxy sees it. -/
theorem InPhase.resume (h : InPhase L args ph t.ta) (load : Loader Globals) (buf : Bytes) :
    dispatchReply ((taTee load).resume t Env.ok buf).1 =
        (stepOn args ph (bufferValue buf)).2.handler ∧
      InPhase L args (stepOn args ph (bufferValue buf)).1
        ((taTee load).resume t Env.ok buf).2.ta := by
  obtain ⟨ta', steps, hres, -, hin⟩ := resumeWasm_inPhase h (resumeParams buf) Env.ok rfl
  rw [taTee_resume load h.alive, hres]
  exact ⟨dispatchReply_ask (h.fits buf), hin⟩

/-- **A GET request of the chaincode** takes it one step on, with the
stored value. -/
theorem asking_get {key : Bytes} {stub : Stub} (h : Asking (.get key) t stub s)
    (hin : InPhase L args ph t.ta)
    (hQ : ∀ s' t', Asking (stepOn args ph (stored stub.committed key)).2 t' stub s' →
      InPhase L args (stepOn args ph (stored stub.committed key)).1 t'.ta →
      Ends (OkStep (taTee load) files Env.ok) Q s') :
    Ends (OkStep (taTee load) files Env.ok) Q s := by
  refine h.get fun s' hw hu hd hst hh ht => ?_
  obtain ⟨hdisp, hnext⟩ := hin.resume load
    (writeReply .get (.getStateResponse ((stub.committed key).getD [])))
  have hv : bufferValue (writeReply .get (.getStateResponse ((stub.committed key).getD []))) =
      stored stub.committed key := clip_writeReply_get _
  rw [hv] at hdisp hnext
  exact hQ s' _ ⟨hw, hh.trans hdisp, hu, hd, ht, hst⟩ hnext

/-- **A PUT request of the chaincode** takes it one step on, whatever the
acknowledgement. -/
theorem asking_put {key value : Bytes} {stub : Stub} (h : Asking (.put key value) t stub s)
    (hin : InPhase L args ph t.ta)
    (hQ : ∀ v s' t', Asking (stepOn args ph v).2 t'
        { stub with writes := stub.writes ++ [(key, value)] } s' →
      InPhase L args (stepOn args ph v).1 t'.ta →
      Ends (OkStep (taTee load) files Env.ok) Q s') :
    Ends (OkStep (taTee load) files Env.ok) Q s := by
  refine h.put fun s' hw hu hd hst hh ht => ?_
  obtain ⟨hdisp, hnext⟩ := hin.resume load (writeReply .put (.putStateResponse (ascii "OK")))
  exact hQ _ s' _ ⟨hw, hh.trans hdisp, hu, hd, ht, hst⟩ hnext

end Requests

/-! ## From the first request to the answer -/

section Invocation

variable {L : Layout} {load : Loader Globals} {args : Buf sizeofArguments}
variable {s : Sys (TaRun Globals)} {t : TaRun Globals} {l : Ledger}

/-- An invocation that has come to its end with an answer and a
ledger. -/
def Settled (r : Bytes × Ledger) (s : Sys (TaRun Globals)) : Prop :=
  s.wrapper = .done (.success r.1) ∧ s.handler = .finished .ok ∧ s.stub.commit = r.2

/-- **What the machine does from idle is the specification.** -/
theorem ends_start (hp : rowText args 0 = Lit.create.text → rowText args 1 ≠ [])
    (h : Asking (stepOn args .idle []).2 t ⟨l, []⟩ s)
    (hin : InPhase L args (stepOn args .idle []).1 t.ta) :
    Ends (OkStep (taTee load) files Env.ok)
      (Settled (spec l (rowText args 0) (rowText args 1) (rowText args 2))) s := by
  simp only [stepOn, Phase.next, Phase.start] at h hin
  rw [spec]
  by_cases hc : rowText args 0 = Lit.create.text
  · rw [if_pos hc] at h hin ⊢
    rw [if_neg (hp hc)] at hin
    refine asking_get h hin fun s₁ t₁ h₁ hin₁ => ?_
    simp only [stepOn, Phase.next] at h₁ hin₁
    by_cases hv : stored l (rowText args 1) = []
    · rw [if_pos hv] at h₁ hin₁
      rw [if_neg (not_not.2 hv)]
      refine asking_put h₁ hin₁ fun v s₂ t₂ h₂ _ => ?_
      exact Asking.answer h₂ fun s' hw hh hst _ => ⟨hw, hh, by rw [hst]; rfl⟩
    · rw [if_neg hv] at h₁
      rw [if_pos hv]
      exact Asking.answer h₁ fun s' hw hh hst _ => ⟨hw, hh, by rw [hst]; rfl⟩
  rw [if_neg hc] at h hin ⊢
  by_cases ha : rowText args 0 = Lit.add.text
  · rw [if_pos ha] at h hin ⊢
    refine asking_get h hin fun s₁ t₁ h₁ hin₁ => ?_
    simp only [stepOn, Phase.next] at h₁ hin₁
    by_cases hv : stored l (rowText args 1) = []
    · rw [if_pos hv] at h₁ ⊢
      exact Asking.answer h₁ fun s' hw hh hst _ => ⟨hw, hh, by rw [hst]; rfl⟩
    · rw [if_neg hv] at h₁ hin₁ ⊢
      refine asking_put h₁ hin₁ fun v s₂ t₂ h₂ _ => ?_
      exact Asking.answer h₂ fun s' hw hh hst _ => ⟨hw, hh, by rw [hst]; rfl⟩
  rw [if_neg ha] at h hin ⊢
  by_cases hq : rowText args 0 = Lit.query.text
  · rw [if_pos hq] at h hin ⊢
    refine asking_get h hin fun s₁ t₁ h₁ _ => ?_
    exact Asking.answer h₁ fun s' hw hh hst _ => ⟨hw, hh, by rw [hst]; rfl⟩
  · rw [if_neg hq] at h ⊢
    exact Asking.answer h fun s' hw hh hst _ => ⟨hw, hh, by rw [hst]; rfl⟩

/-- **A `create` for nobody** changes nothing and has no answer of its
own. -/
theorem ends_start_nobody (hc : rowText args 0 = Lit.create.text) (hp : rowText args 1 = [])
    (h : Asking (stepOn args .idle []).2 t ⟨l, []⟩ s)
    (hin : InPhase L args (stepOn args .idle []).1 t.ta) :
    Ends (OkStep (taTee load) files Env.ok) (Settled (ascii "NO_RESPONSE", l)) s := by
  simp only [stepOn, Phase.next, Phase.start] at h hin
  rw [if_pos hc] at h hin
  rw [if_pos hp] at hin
  refine asking_get h hin fun s₁ t₁ h₁ _ => ?_
  exact Asking.answer h₁ fun s' hw hh hst _ => ⟨hw, hh, by rw [hst]; rfl⟩

/-- The argument table as the TA finds it. -/
theorem rowText_argsOf (wasm f : Bytes) (as : List Bytes) {i : ℕ} (hi : i < 10) :
    rowText (argsOf (runParams wasm (packArguments f as))) i = clip 63 ((f :: as).getD i []) := by
  have hlen := length_packArguments f as
  have hsize : sizeofArguments ≤ (runParams wasm (packArguments f as)).memref2.size := by
    change sizeofArguments ≤ maxSize
    decide
  have hload : (argsOf (runParams wasm (packArguments f as))).bytes = packArguments f as := by
    rw [argsOf, if_pos hsize, Buf.load_bytes]
    exact pad_of_length hlen
  rw [rowText, hload]
  exact tableRow_packArguments f as hi

/-- RUN_WASM as the proxy sees it. -/
theorem run_initializeSession {wasm : Bytes} (hl : load wasm = some (coffee L)) (buf : Bytes)
    (steps : List (StepTrace Globals)) :
    dispatchReply ((taTee load).run ⟨initializeSession, steps⟩ Env.ok wasm buf).1 =
        (stepOn (argsOf (runParams wasm buf)) .idle []).2.handler ∧
      InPhase L (argsOf (runParams wasm buf)) (stepOn (argsOf (runParams wasm buf)) .idle []).1
        ((taTee load).run ⟨initializeSession, steps⟩ Env.ok wasm buf).2.ta := by
  obtain ⟨ta', steps', calls, hrun, -, hin⟩ := runWasm_inPhase load initializeSession
    (runParams wasm buf) Env.ok rfl rfl hl ⟨rfl, rfl, rfl, rfl, rfl, rfl⟩ rfl
  have hfits : (stepOn (argsOf (runParams wasm buf)) .idle []).2.Fits := by
    obtain ⟨w', gl', s', -, -, hask⟩ := steps_idle (config_started L (runParams wasm buf))
    rw [stepOn, Phase.next, ← hask]
    exact asked_fits s'
  have htee : (taTee load).run ⟨initializeSession, steps⟩ Env.ok wasm buf =
      TaRun.answer ⟨initializeSession, steps⟩
        (runWasm load initializeSession (runParams wasm buf) Env.ok) := rfl
  rw [htee, hrun]
  exact ⟨dispatchReply_ask hfits, hin⟩

/-- An invocation up to the chaincode's first answer. -/
theorem ends_invocation {Q : Sys (TaRun Globals) → Prop} (uuid : Bytes) {ccfile wasm : Bytes}
    (hfile : files ccfile = some wasm) (hload : load wasm = some (coffee L)) (l : Ledger)
    (f person : Bytes) (rest : List Bytes)
    (hQ : ∀ args s t, rowText args 0 = clip 63 f → rowText args 1 = clip 63 person →
      rowText args 2 = clip 63 (rest.getD 0 []) →
      Asking (stepOn args .idle []).2 t ⟨l, []⟩ s → InPhase L args (stepOn args .idle []).1 t.ta →
      Ends (OkStep (taTee load) files Env.ok) Q s) :
    Ends (OkStep (taTee load) files Env.ok) Q
      (Sys.init freshRun uuid ccfile (f :: person :: rest) l) := by
  have hrow : ∀ i, i < 10 →
      rowText (argsOf (runParams wasm (packArguments f (person :: rest)))) i =
        clip 63 ((f :: person :: rest).getD i []) := fun i hi => rowText_argsOf wasm f _ hi
  have h0 := hrow 0 (by omega)
  have h1 := hrow 1 (by omega)
  have h2 := hrow 2 (by omega)
  simp only [List.getD_cons_zero, List.getD_cons_succ] at h0 h1 h2
  obtain ⟨hdisp, hin⟩ := run_initializeSession (L := L) hload
    (packArguments f (person :: rest)) []
  refine ends_of_wrapper rfl rfl (ends_of_wrapper rfl rfl (ends_of_proxy rfl rfl
    (ends_openFile rfl rfl rfl rfl hfile fun s' hw hu hd hst hh ht => ?_)))
  exact hQ _ s' _ h0 h1 h2 ⟨hw, hh.trans hdisp, hu, hd, ht, hst⟩ hin

/-- **An invocation of the chaincode refines its specification.** From a
freshly opened session, in every interleaving of wrapper and proxy in
which nothing fails, the invocation ends, its success payload is the
specification's answer and the ledger it commits is the specification's
ledger. -/
theorem invocation_refines_spec (L : Layout) {load : Loader Globals}
    {files : Bytes → Option Bytes} (uuid : Bytes) {ccfile wasm : Bytes}
    (hfile : files ccfile = some wasm) (hload : load wasm = some (coffee L)) (l : Ledger)
    (f person : Bytes) (rest : List Bytes) (hp : clip 63 person ≠ []) :
    Ends (OkStep (taTee load) files Env.ok)
      (Settled (spec l (clip 63 f) (clip 63 person) (clip 63 (rest.getD 0 []))))
      (Sys.init freshRun uuid ccfile (f :: person :: rest) l) := by
  refine ends_invocation uuid hfile hload l f person rest fun args s t h0 h1 h2 h hin => ?_
  rw [← h0, ← h1, ← h2]
  exact ends_start (fun _ => by rw [h1]; exact hp) h hin

/-- A first record. -/
theorem invocation_refines_spec_create :
    Ends (OkStep (taTee linkedLoader) linkedFiles Env.ok)
      (Settled (ascii "OK", Function.update (fun _ => none) (ascii "alice") (some (ascii "7"))))
      (Sys.init freshRun [] []
        [ascii "create", ascii "alice", ascii "7"] fun _ => none) := by
  have hload : linkedLoader smallestWasm = some (coffee linked) := rfl
  have hfile : linkedFiles [] = some smallestWasm := rfl
  have h := invocation_refines_spec linked [] hfile hload (fun _ => none) (ascii "create")
    (ascii "alice") [ascii "7"] (by decide)
  have hs : spec (fun _ => none) (clip 63 (ascii "create")) (clip 63 (ascii "alice"))
      (clip 63 ([ascii "7"].getD 0 [])) = (ascii "OK", Function.update (fun _ => none)
        (ascii "alice") (some (ascii "7"))) := by
    rw [spec, if_pos (by decide), if_neg (by decide)]
    rfl
  rw [hs] at h
  exact h

end Invocation

end Coffee

end TeeChaincode
