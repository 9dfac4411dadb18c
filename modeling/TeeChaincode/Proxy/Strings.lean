import TeeChaincode.Proxy.Calls
import TeeChaincode.Ta.Arguments
import TeeChaincode.Ta.Representation

/-!
# The strings of one execution

`execute_wasm_with_grpc_proxy` packs its function name and its arguments
into the shared buffer once. RUN_WASM copies the table to the session, and
from then on the buffer is written over by every request and every reply
while the session keeps its copy. So each of the two commands, whenever it
is issued, finds the table it was started with, and every call for a
string is answered from it.
-/

namespace TeeChaincode

open Common

variable {σ : Type} {load : Loader σ} {f : Bytes} {as : List Bytes} {m : Memory} {s : Session}

/-! ## One call -/

/-- **The range is filled** with a string and zeros behind it, the length
of the string is returned, and nothing else changes, in linear memory or
in the session. -/
structure FillsRange (m : Memory) (s : Session) (outPtr : UInt32) (n : ℕ) (x : Bytes)
    (r : NativeResult) : Prop where
  range : r.mem.read outPtr.toNat n = x ++ List.replicate (n - x.length) 0
  ret : r.ret.toInt = x.length
  frame : m.SameOutside r.mem outPtr.toNat n
  sess : r.sess = s

/-- **The exact answer to a call for a string**, on an output range that
WAMR's address check accepts. -/
def AnswersExactly (f : Bytes) (as : List Bytes) (m : Memory) (s : Session) : NativeCall → Prop
  | .ccGetFunction outPtr outLen =>
    0 < outLen.toInt → validateAppAddr m outPtr outLen.toUInt32 = true →
      FillsRange m s outPtr outLen.toInt.toNat ((clip 63 f).take (outLen.toInt.toNat - 1))
        (callNative (.ccGetFunction outPtr outLen) m s)
  | .ccGetArg idx outPtr outLen =>
    0 ≤ idx.toInt → idx.toInt < argsNumber - 1 →
    0 < outLen.toInt → validateAppAddr m outPtr outLen.toUInt32 = true →
      FillsRange m s outPtr outLen.toInt.toNat
        ((clip 63 (as.getD idx.toInt.toNat [])).take (outLen.toInt.toNat - 1))
        (callNative (.ccGetArg idx outPtr outLen) m s)
  | _ => True

/-- The address check on a range of some length. -/
theorem le_of_validateAppAddr {ptr : UInt32} {len : Int32} (h : 0 < len.toInt)
    (hv : validateAppAddr m ptr len.toUInt32 = true) :
    ptr.toNat + len.toInt.toNat ≤ m.size := by
  rw [validateAppAddr, decide_eq_true_iff, toUInt32_toNat (le_of_lt h)] at hv
  exact hv

/-- What is copied out fills its range. -/
theorem CopiesOut.fillsRange {outPtr : UInt32} {outLen : Int32} {text : Bytes} {r : NativeResult}
    (h : CopiesOut m outPtr outLen text r) (hlen : text.length ≤ 63) (hpos : 0 < outLen.toInt)
    (hs : r.sess = s) :
    FillsRange m s outPtr outLen.toInt.toNat (text.take (outLen.toInt.toNat - 1)) r := by
  have hle : (text.take (outLen.toInt.toNat - 1)).length ≤ 63 := by
    rw [List.length_take]
    omega
  refine ⟨?_, ?_, h.frame, hs⟩
  · rw [h.range, pad, List.take_of_length_le]
    rw [List.length_take]
    omega
  · rw [h.ret, Int32.toInt_ofNat_of_lt (by omega)]

/-- **A session with the table answers exactly.** -/
theorem answersExactly_of_args (hs : s.args = argumentTable f as) (m : Memory) (c : NativeCall) :
    AnswersExactly f as m s c := by
  have hd := delivered_of_args hs m c
  cases c with
  | ccGetFunction outPtr outLen =>
    intro hpos hv
    have hin := le_of_validateAppAddr hpos hv
    exact (hd hpos hin).fillsRange (length_clip_le 63 f) hpos (callNative_sess (by exact id))
  | ccGetArg idx outPtr outLen =>
    intro h0 h9 hpos hv
    have hin := le_of_validateAppAddr hpos hv
    have hlt : idx.toInt < 9 := h9
    have hne : idx ≠ 9 := by
      rintro rfl
      exact absurd hlt (by decide)
    have harg : argument as idx = clip 63 (as.getD idx.toInt.toNat []) := if_pos ⟨h0, hlt⟩
    rw [← harg]
    refine (hd hne hpos hin).fillsRange ?_ hpos (callNative_sess (by exact id))
    rw [harg]
    exact length_clip_le _ _
  | _ => trivial

/-! ## One command -/

variable {ta : Ta σ} {cmd : Command} {p : Params} {env : Env}

/-- The strings a command brings its module: each call for one, at any
place among the calls of its steps, is answered exactly from the session
the calls before it left. -/
def CommandAnswers (load : Loader σ) (f : Bytes) (as : List Bytes) (ta : Ta σ) (cmd : Command)
    (p : Params) (env : Env) : Prop :=
  EachCall load ta cmd p env (AnswersExactly f as)

/-- A command whose steps start with the table. -/
theorem commandAnswers_of_entry
    (h : ∀ s, ta.sess = some s → (cmd.entry p s).args = argumentTable f as) :
    CommandAnswers load f as ta cmd p env :=
  eachCall_of_args (fun _ hs m c => answersExactly_of_args hs m c) h

/-! ## One execution -/

/-- A call of `execute_wasm_with_grpc_proxy`, on a TA in any state. -/
def Call.execute (ta : Ta σ) (req : InvocationRequest) : Call (TaRun σ) :=
  ⟨.openFile req, [], ⟨ta, []⟩⟩

/-- **Where the strings are** in an execution: with the proxy, up to its
RUN_WASM, and with the TA while the proxy waits for a reply. -/
inductive Marshalled (load : Loader σ) (req : InvocationRequest) : Handler → TaRun σ → Prop
  | opening {t : TaRun σ} : Marshalled load req (.openFile req) t
  | packed {wasm : Bytes} {t : TaRun σ} :
      Marshalled load req (.run wasm (packArguments req.functionName req.arguments)) t
  | waiting {hd : Handler} {t : TaRun σ} (hw : hd.Waits)
      (hserves : (∀ x ∈ callsOf t.steps, x.1.Measured) →
        t.ta.Serves load req.functionName req.arguments) : Marshalled load req hd t
  | leaving {hd : Handler} {t : TaRun σ} (hl : hd.Leaves) : Marshalled load req hd t

variable {req : InvocationRequest}

/-- The proxy waits behind a command that succeeded, or leaves. -/
theorem dispatchReply_waits_or (r : TeeReply) :
    r.result = .success ∧ (dispatchReply r).Waits ∨ (dispatchReply r).Leaves := by
  unfold dispatchReply
  split
  · exact .inr trivial
  next hres =>
  have hok : r.result = .success := not_not.1 hres
  split
  · exact .inr trivial
  split
  · exact .inl ⟨hok, trivial⟩
  split
  · exact .inl ⟨hok, trivial⟩
  · exact .inr trivial

/-- Behind a command that keeps the strings. -/
theorem marshalled_answer {t : TaRun σ} {r : Reply σ}
    (h : (∀ x ∈ callsOf t.steps, x.1.Measured) → r.Observes load req.functionName req.arguments) :
    Marshalled load req (dispatchReply (t.answer r).1) (t.answer r).2 := by
  rcases dispatchReply_waits_or (t.answer r).1 with ⟨hok, hw⟩ | hl
  · refine .waiting hw fun hm => ?_
    have hcalls : callsOf (t.steps ++ r.steps) = callsOf t.steps ++ callsOf r.steps :=
      List.flatMap_append
    have hm' : ∀ x ∈ callsOf t.steps ++ callsOf r.steps, x.1.Measured := hcalls ▸ hm
    have hobs := h fun x hx => hm' x (List.mem_append_left _ hx)
    exact (hobs fun x hx => hm' x (List.mem_append_right _ hx)).2 hok
  · exact .leaving hl

/-- **One step of an execution.** -/
theorem Marshalled.step {c c' : Call (TaRun σ)} {i : Input Env}
    (h : Marshalled load req c.handler c.tee) (hf : c.feed (taTee load) i = some c') :
    Marshalled load req c'.handler c'.tee := by
  have hmove := Call.feed_cases hf
  obtain ⟨hd, sent, t⟩ := c
  dsimp only at h hmove
  cases h with
  | opening =>
    cases hmove with
    | noFile => exact .leaving trivial
    | file => exact .packed
  | packed =>
    cases hmove with
    | runLost => exact .leaving trivial
    | ran => exact marshalled_answer fun _ => run_observes t.ta _ _ _ _
  | waiting hw hserves =>
    cases hmove with
    | wroteRequest => exact .waiting trivial hserves
    | gotReply => exact .waiting trivial hserves
    | writeLost | replyLost | resumeLost => exact .leaving trivial
    | resumed => exact marshalled_answer fun hm => resume_observes (hserves hm) _ _
    | requestLost | gotRequest | noFile | file | runLost | ran | wroteResponse | responseLost
    | restarted => exact absurd hw id
  | leaving hl =>
    cases hmove with
    | wroteResponse | responseLost | restarted => exact .leaving trivial
    | requestLost | gotRequest | noFile | file | runLost | ran | wroteRequest | writeLost
    | gotReply | replyLost | resumed | resumeLost => exact absurd hl id

/-- Every point of an execution. -/
theorem marshalled_of_run {ta : Ta σ} {is : List (Input Env)} {c : Call (TaRun σ)}
    (h : (Call.execute ta req).run (taTee load) is = some c) :
    Marshalled load req c.handler c.tee :=
  Call.run_induct (I := fun _ c => Marshalled load req c.handler c.tee) .opening
    (fun _ _ _ _ hi hf => hi.step hf) h

/-- **The strings are exact at every step.** For every function name and
argument list, in every execution on a TA in any state, with any module
and any replies, and at whatever point it has come to: the next command
answers every call for a string exactly, as long as no length passed to
`cc_return_response` in the execution was negative. -/
theorem strings_exact {σ : Type} {load : Loader σ} {ta : Ta σ} {req : InvocationRequest}
    {is : List (Input Env)} {c : Call (TaRun σ)}
    (h : (Call.execute ta req).run (taTee load) is = some c)
    (hm : ∀ x ∈ callsOf c.tee.steps, x.1.Measured) {cmd : Command} {p : Params}
    (hcmd : c.handler.command = some (cmd, p)) (env : Env) :
    CommandAnswers load req.functionName req.arguments c.tee.ta cmd p env := by
  have hpoint := marshalled_of_run h
  obtain ⟨hd, sent, t⟩ := c
  dsimp only at hpoint hm hcmd ⊢
  cases hpoint with
  | opening => cases hcmd
  | packed =>
    cases hcmd
    exact commandAnswers_of_entry fun s _ => s.launched_args _ _ _
  | waiting hw hserves =>
    cases hd with
    | resume buf =>
      cases hcmd
      exact commandAnswers_of_entry fun s hs => (hserves hm).resume_args hs _
    | run wasm buf => exact absurd hw id
    | _ => cases hcmd
  | leaving hl =>
    cases hd with
    | run | resume => exact absurd hl id
    | _ => cases hcmd

/-- A module that asks for a value first, and then for its strings. -/
def readsLater : Loader ℕ := fun _ => some <| scripted [] fun n =>
  if n = 0 then ⟨[.ccGetState 0 0 8 8], none⟩ else ⟨[.ccGetFunction 0 8, .ccGetArg 0 8 8], none⟩

/-- An execution of it, up to its RESUME_WASM. -/
def untilResume : List (Input Env) :=
  [.file (some smallestWasm), .tee (some Env.ok), .write true,
    .read (some (.getStateResponse (ascii "5")))]

/-- The buffer holds the reply by then, and the strings are still
exact. -/
theorem strings_exact_resumed :
    ∃ (c : Call (TaRun ℕ)) (p : Params),
      (Call.execute initializeSession ⟨[], ascii "query", [ascii "alice"], []⟩).run
        (taTee readsLater) untilResume = some c ∧
      c.handler.command = some (.resumeWasm, p) ∧
      (callsOf (invokeCommandEntryPoint readsLater c.tee.ta .resumeWasm p Env.ok).steps).map
        Prod.fst = [.ccGetFunction 0 8, .ccGetArg 0 8 8] ∧
      CommandAnswers readsLater (ascii "query") [ascii "alice"] c.tee.ta .resumeWasm p Env.ok := by
  have hrun : ((Call.execute initializeSession ⟨[], ascii "query", [ascii "alice"], []⟩).run
      (taTee readsLater) untilResume).any (fun c => c.handler.command =
          some (.resumeWasm, resumeParams (writeReply .get (.getStateResponse (ascii "5")))) ∧
        (callsOf (invokeCommandEntryPoint readsLater c.tee.ta .resumeWasm
          (resumeParams (writeReply .get (.getStateResponse (ascii "5")))) Env.ok).steps).map
            Prod.fst = [.ccGetFunction 0 8, .ccGetArg 0 8 8] ∧
        ∀ x ∈ callsOf c.tee.steps, x.1.Measured) = true := by
    decide +kernel
  obtain ⟨c, hc, hend⟩ := (Option.any_eq_true _ _).1 hrun
  obtain ⟨hcmd, hcalls, hm⟩ := of_decide_eq_true hend
  exact ⟨c, _, hc, hcmd, hcalls, strings_exact hc hm hcmd Env.ok⟩

end TeeChaincode
