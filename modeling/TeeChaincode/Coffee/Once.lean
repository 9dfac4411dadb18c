import TeeChaincode.Coffee.Commands
import TeeChaincode.Coffee.Layout
import TeeChaincode.Proxy.Marshal

/-!
# One RUN_WASM, and the resumes behind it

A client of the TA may send RESUME_WASM at any time. The session keeps
its runtime when the final response has gone out, and the chaincode is
idle again, so a further RESUME_WASM runs the operation once more. This
module says exactly how many resumes a RUN_WASM of the chaincode takes
before its final response, and that the operation is executed at most
once precisely when no more are sent.
-/

namespace TeeChaincode

namespace Coffee

open Common

/-! ## Sequences of commands -/

section Commands

variable {σ : Type}

/-- The reply to a RUN_WASM on a session just opened. -/
def runReply (load : Loader σ) (heapSize : UInt32) (wasm : Bytes) (m : Memref) (env : Env) :
    Reply σ :=
  invokeCommandEntryPoint load (openedTa heapSize) .runWasm (runWith wasm m) env

/-- The replies to a RUN_WASM and the resumes behind it. -/
def replies (load : Loader σ) (heapSize : UInt32) (wasm : Bytes) (m : Memref) (env : Env)
    (resumes : List (Memref × Env)) : List (Reply σ) :=
  runReply load heapSize wasm m env :: resumeAll load (runReply load heapSize wasm m env).ta resumes

/-- The TA has returned INVOCATION_RESPONSE. -/
def Answered (r : Reply σ) : Prop :=
  r.result = .success ∧ r.params.value1 = invocationResponse

/-- The command is refused and no step has run. -/
def Refused (r : Reply σ) : Prop := r.result ≠ .success ∧ r.steps = []

/-- The PUT requests among the replies. -/
def puts (rs : List (Reply σ)) : ℕ :=
  rs.countP fun r => r.result = .success ∧ r.params.value1 = putStateRequest

/-- **Executed at most once**: behind the first final response everything
is refused, and there is at most one PUT request. -/
def ExecutesOnce (rs : List (Reply σ)) : Prop :=
  (rs.Pairwise fun r r' => Answered r → Refused r') ∧ puts rs ≤ 1

variable {load : Loader σ} {r : Reply σ} {rs : List (Reply σ)} {resumes : List (Memref × Env)}

theorem puts_cons_of_ne (hv : r.params.value1 ≠ putStateRequest) : puts (r :: rs) = puts rs := by
  rw [puts, List.countP_cons_of_neg (by simp [hv])]
  rfl

/-- A GET request in front changes nothing. -/
theorem executesOnce_cons_get (hv : r.params.value1 = getStateRequest) :
    ExecutesOnce (r :: rs) ↔ ExecutesOnce rs := by
  have hna : ¬ Answered r := by
    rintro ⟨-, h⟩
    rw [hv] at h
    exact absurd h (by decide)
  have hput : puts (r :: rs) = puts rs := puts_cons_of_ne (by rw [hv]; decide)
  rw [ExecutesOnce, ExecutesOnce, List.pairwise_cons, hput]
  constructor
  · rintro ⟨⟨-, h⟩, hp⟩
    exact ⟨h, hp⟩
  · rintro ⟨h, hp⟩
    exact ⟨⟨fun _ _ ha => absurd ha hna, h⟩, hp⟩

/-- No resume may follow a final response: a live session accepts it. -/
theorem pairwise_answered_iff (load : Loader σ) (resumes : List (Memref × Env))
    (ha : Answered r) (hlive : r.ta.Live) :
    ((r :: resumeAll load r.ta resumes).Pairwise fun r r' => Answered r → Refused r') ↔
      resumes = [] := by
  cases resumes with
  | nil => simp [resumeAll]
  | cons q rest =>
    simp only [reduceCtorEq, iff_false]
    intro h
    obtain ⟨hhead, -⟩ := List.pairwise_cons.1 h
    refine (hhead _ List.mem_cons_self ha).1 ?_
    rw [invoke_eq load hlive.alive rfl]
    exact hlive.resumeWasm_result

theorem executesOnce_answered_iff (ha : Answered r) (hlive : r.ta.Live) :
    ExecutesOnce (r :: resumeAll load r.ta resumes) ↔ resumes = [] := by
  rw [ExecutesOnce, pairwise_answered_iff load resumes ha hlive, and_iff_left_iff_imp]
  rintro rfl
  rw [resumeAll, puts_cons_of_ne (by rw [ha.2]; decide)]
  exact Nat.zero_le 1

/-- Behind a PUT request there is room for the resume that
acknowledges it. -/
theorem executesOnce_put_iff (hv : r.params.value1 = putStateRequest)
    (hnext : ∀ m env, Answered (invokeCommandEntryPoint load r.ta .resumeWasm (resumeWith m) env) ∧
      (invokeCommandEntryPoint load r.ta .resumeWasm (resumeWith m) env).ta.Live) :
    ExecutesOnce (r :: resumeAll load r.ta resumes) ↔ resumes.length ≤ 1 := by
  have hna : ¬ Answered r := by
    rintro ⟨-, h⟩
    rw [hv] at h
    exact absurd h (by decide)
  have hone : puts [r] ≤ 1 := List.countP_le_length
  cases resumes with
  | nil => simpa [ExecutesOnce, resumeAll] using hone
  | cons q rest =>
    obtain ⟨m, env⟩ := q
    obtain ⟨ha, hlive⟩ := hnext m env
    have hpw := pairwise_answered_iff load rest ha hlive
    rw [ExecutesOnce, List.pairwise_cons, resumeAll, hpw, List.length_cons]
    constructor
    · rintro ⟨⟨-, rfl⟩, -⟩
      exact le_rfl
    · intro hrest
      have hnil : rest = [] := List.length_eq_zero_iff.1 (by omega)
      subst hnil
      refine ⟨⟨fun _ _ h => absurd h hna, rfl⟩, ?_⟩
      have hzero : puts [invokeCommandEntryPoint load r.ta .resumeWasm (resumeWith m) env] = 0 :=
        puts_cons_of_ne (by rw [ha.2]; decide)
      rw [puts, List.countP_cons]
      rw [puts] at hzero
      rw [resumeAll, hzero]
      split <;> omega

end Commands

/-! ## The resumes an operation takes -/

variable {L : Layout} {load : Loader Globals} {args : Buf sizeofArguments} {ph : Phase}
variable {ta : Ta Globals} {m : Memref} {env : Env}

/-- The resumes an operation waits for, by the function, the person and
the first reply; `execEnvOk` says whether that reply's step can run. -/
def waits (f person first : Bytes) (execEnvOk : Bool) : ℕ :=
  if f = Lit.create.text then
    if person ≠ [] ∧ first = [] ∧ execEnvOk then 2 else 1
  else if f = Lit.add.text then
    if first ≠ [] ∧ execEnvOk then 2 else 1
  else if f = Lit.query.text then 1
  else 0

/-- **The resumes up to the final response.** -/
def resumesNeeded (args : Buf sizeofArguments) (env : Env) : List (Memref × Env) → ℕ
  | [] => 0
  | (m, e) :: _ =>
    if env.execEnv then waits (rowText args 0) (rowText args 1) (bufferValue m.buffer) e.execEnv
    else 0

theorem invoke_resume (h : InPhase L args ph ta) (m : Memref) (env : Env) :
    invokeCommandEntryPoint load ta .resumeWasm (resumeWith m) env =
      resumeWasm ta (resumeWith m) env :=
  invoke_eq load h.alive rfl env

/-- A resume that answers, or whose step cannot run. -/
theorem resume_answered (load : Loader Globals) (h : InPhase L args ph ta)
    (ha : env.execEnv = true → ∃ x, (stepOn args ph (bufferValue m.buffer)).2 = .answer x) :
    Answered (invokeCommandEntryPoint load ta .resumeWasm (resumeWith m) env) ∧
      (invokeCommandEntryPoint load ta .resumeWasm (resumeWith m) env).ta.Live := by
  rw [invoke_resume h]
  cases he : env.execEnv with
  | true =>
    obtain ⟨x, hx⟩ := ha he
    obtain ⟨ta', steps, hres, -, hin⟩ := resumeWasm_inPhase h (resumeWith m) env he
    rw [show bufferValue (resumeWith m).memref2.buffer = bufferValue m.buffer from rfl, hx] at hres
    rw [hres]
    exact ⟨⟨rfl, rfl⟩, hin.live⟩
  | false =>
    obtain ⟨ta', hres, hlive⟩ := resumeWasm_noExecEnv h (resumeWith m) he
    rw [hres]
    exact ⟨⟨rfl, rfl⟩, hlive⟩

/-- A phase whose next step answers takes one resume. -/
theorem executesOnce_last (h : InPhase L args ph ta) (rest : List (Memref × Env))
    (ha : env.execEnv = true → ∃ x, (stepOn args ph (bufferValue m.buffer)).2 = .answer x) :
    ExecutesOnce (resumeAll load ta ((m, env) :: rest)) ↔ rest = [] := by
  obtain ⟨hans, hlive⟩ := resume_answered load h ha
  exact executesOnce_answered_iff hans hlive

/-- A phase whose next step writes takes two. -/
theorem executesOnce_write (h : InPhase L args ph ta) (rest : List (Memref × Env))
    (he : env.execEnv = true) {key value : Bytes} {ph' : Phase}
    (ha : stepOn args ph (bufferValue m.buffer) = (ph', .put key value))
    (hnext : ∀ v, ∃ x, (stepOn args ph' v).2 = .answer x) :
    ExecutesOnce (resumeAll load ta ((m, env) :: rest)) ↔ rest.length ≤ 1 := by
  obtain ⟨ta', steps, hres, -, hin⟩ := resumeWasm_inPhase h (resumeWith m) env he
  rw [show bufferValue (resumeWith m).memref2.buffer = bufferValue m.buffer from rfl, ha]
    at hres hin
  rw [resumeAll, invoke_resume h, hres]
  exact executesOnce_put_iff rfl fun m env => resume_answered load hin fun _ => hnext _

/-- The resumes of an operation under way. -/
theorem executesOnce_resumes (hidle : stepOn args .idle [] = (ph, .get (rowText args 1)))
    (h : InPhase L args ph ta) (m : Memref) (env : Env) (rest : List (Memref × Env)) :
    ExecutesOnce (resumeAll load ta ((m, env) :: rest)) ↔
      rest.length + 1 ≤
        waits (rowText args 0) (rowText args 1) (bufferValue m.buffer) env.execEnv := by
  have hnil : rest = [] ↔ rest.length + 1 ≤ 1 := by
    rw [← List.length_eq_zero_iff]
    omega
  have htwo : rest.length ≤ 1 ↔ rest.length + 1 ≤ 2 := by omega
  simp only [stepOn, Phase.next, Phase.start] at hidle
  rw [waits]
  by_cases hc : rowText args 0 = Lit.create.text
  · rw [if_pos hc] at hidle ⊢
    by_cases hp : rowText args 1 = []
    · obtain rfl : Phase.stuckGet = ph := by simpa [hp] using hidle
      rw [if_neg (by simp [hp]), executesOnce_last h rest fun _ => ⟨_, rfl⟩, hnil]
    obtain rfl : Phase.createGet = ph := by simpa [hp] using hidle
    by_cases hv : bufferValue m.buffer = []
    · cases he : env.execEnv with
      | true =>
        rw [if_pos ⟨hp, hv, rfl⟩, ← htwo]
        exact executesOnce_write h rest he (by rw [stepOn, Phase.next, if_pos hv]) fun _ => ⟨_, rfl⟩
      | false =>
        rw [if_neg (by simp), executesOnce_last h rest fun ht => by simp [he] at ht, hnil]
    · rw [if_neg (by simp [hv]), executesOnce_last h rest fun _ =>
        ⟨_, by rw [stepOn, Phase.next, if_neg hv]⟩, hnil]
  rw [if_neg hc] at hidle ⊢
  by_cases ha : rowText args 0 = Lit.add.text
  · rw [if_pos ha] at hidle ⊢
    obtain rfl : Phase.addGet = ph := by simpa using hidle
    by_cases hv : bufferValue m.buffer = []
    · rw [if_neg (by simp [hv]), executesOnce_last h rest fun _ =>
        ⟨_, by rw [stepOn, Phase.next, if_pos hv]⟩, hnil]
    · cases he : env.execEnv with
      | true =>
        rw [if_pos ⟨hv, rfl⟩, ← htwo]
        exact executesOnce_write h rest he (by rw [stepOn, Phase.next, if_neg hv]) fun _ => ⟨_, rfl⟩
      | false =>
        rw [if_neg (by simp), executesOnce_last h rest fun ht => by simp [he] at ht, hnil]
  rw [if_neg ha] at hidle ⊢
  by_cases hq : rowText args 0 = Lit.query.text
  · rw [if_pos hq] at hidle ⊢
    obtain rfl : Phase.queryGet = ph := by simpa using hidle
    rw [executesOnce_last h rest fun _ => ⟨_, rfl⟩, hnil]
  · rw [if_neg hq] at hidle
    simp at hidle

/-- An idle chaincode asks for the person's state or answers ERROR. -/
theorem stepOn_idle_cases (args : Buf sizeofArguments) :
    (∃ ph, stepOn args .idle [] = (ph, .get (rowText args 1))) ∨
      stepOn args .idle [] = (.idle, .answer Lit.error.text) ∧
        ∀ first ok, waits (rowText args 0) (rowText args 1) first ok = 0 := by
  simp only [stepOn, Phase.next, Phase.start, waits]
  split
  · exact .inl ⟨_, rfl⟩
  split
  · exact .inl ⟨_, rfl⟩
  split
  · exact .inl ⟨_, rfl⟩
  · exact .inr ⟨rfl, fun _ _ => rfl⟩

/-- **A RUN_WASM of the chaincode executes its operation at most once
exactly when no resume follows its final response.** The session does not
refuse the resumes behind it: one of them runs a step again. -/
theorem executesOnce_iff (L : Layout) {load : Loader Globals} {wasm : Bytes}
    (hl : load wasm = some (coffee L)) (heapSize : UInt32) (m : Memref) (env : Env)
    (hrun : (runReply load heapSize wasm m env).result = .success)
    (resumes : List (Memref × Env)) :
    ExecutesOnce (replies load heapSize wasm m env resumes) ↔
      resumes.length ≤ resumesNeeded (argsOf (runWith wasm m)) env resumes := by
  have hreply : runReply load heapSize wasm m env =
      runWasm load (openedTa heapSize) (runWith wasm m) env := rfl
  have hstarts := starts_of_success (openedTa heapSize) (runWith wasm m) rfl hl hrun
  rw [replies, hreply]
  cases he : env.execEnv with
  | false =>
    obtain ⟨ta', hres, hlive⟩ := runWasm_noExecEnv load (openedTa heapSize)
      (runWith wasm m) rfl rfl hl hstarts he
    rw [hres, executesOnce_answered_iff ⟨rfl, rfl⟩ hlive]
    cases resumes with
    | nil => simp [resumesNeeded]
    | cons q rest => simp [resumesNeeded, he]
  | true =>
    obtain ⟨ta', steps, calls, hres, -, hin⟩ := runWasm_inPhase load (openedTa heapSize)
      (runWith wasm m) env rfl rfl hl hstarts he
    rw [hres]
    rcases stepOn_idle_cases (argsOf (runWith wasm m)) with ⟨ph, hget⟩ | ⟨herr, hzero⟩
    · rw [hget] at hin ⊢
      rw [executesOnce_cons_get rfl]
      cases resumes with
      | nil => simp [resumesNeeded, resumeAll, ExecutesOnce, puts]
      | cons q rest =>
        rw [executesOnce_resumes hget hin, resumesNeeded, if_pos he, List.length_cons]
    · rw [herr] at hin ⊢
      rw [executesOnce_answered_iff ⟨rfl, rfl⟩ hin.live]
      cases resumes with
      | nil => simp [resumesNeeded]
      | cons q rest => simp [resumesNeeded, he, hzero]

/-- `params[2]` with a query, and with a first record. -/
def queryAlice : Memref := ⟨packArguments (ascii "query") [ascii "alice"], 640⟩

def createAlice : Memref := ⟨packArguments (ascii "create") [ascii "alice", ascii "7"], 640⟩

/-- RUN_WASM of the linked chaincode. -/
theorem runReply_linked (m : Memref) :
    ∃ ta' steps, runReply linkedLoader proxyHeap smallestWasm m Env.ok = ⟨.success,
        (runWith smallestWasm m).ask (stepOn (argsOf (runWith smallestWasm m)) .idle []).2,
        ta', steps⟩ ∧
      InPhase linked (argsOf (runWith smallestWasm m))
        (stepOn (argsOf (runWith smallestWasm m)) .idle []).1 ta' := by
  obtain ⟨ta', steps, calls, hres, -, hin⟩ := runWasm_inPhase linkedLoader (openedTa proxyHeap)
    (runWith smallestWasm m) Env.ok (L := linked) rfl rfl rfl ⟨rfl, rfl, rfl, rfl, rfl, rfl⟩ rfl
  exact ⟨ta', steps, hres, hin⟩

/-- A query whose one resume is the last command. -/
theorem executesOnce_iff_query :
    ExecutesOnce
      (replies linkedLoader proxyHeap smallestWasm queryAlice Env.ok [(wholeBuffer, Env.ok)]) := by
  have hrun :
      (runReply linkedLoader proxyHeap smallestWasm queryAlice Env.ok).result = .success := by
    obtain ⟨ta', steps, hres, -⟩ := runReply_linked queryAlice
    rw [hres]
  have hl : linkedLoader smallestWasm = some (coffee linked) := rfl
  exact (executesOnce_iff linked hl proxyHeap queryAlice Env.ok hrun _).2 (by decide +kernel)

/-! ## The codes of a run -/

/-- The codes the machine's answers carry, for a list of values. -/
def askCodes (args : Buf sizeofArguments) : Phase → List Bytes → List UInt32
  | _, [] => []
  | ph, v :: vs => (stepOn args ph v).2.code :: askCodes args (stepOn args ph v).1 vs

/-- A run of resumes carries the machine's codes. -/
theorem codes_resumeAll (h : InPhase L args ph ta) (ms : List Memref) :
    (resumeAll load ta (ms.map (·, Env.ok))).map (fun r => (r.result, r.params.value1)) =
      (askCodes args ph (ms.map fun m => bufferValue m.buffer)).map (TeeResult.success, ·) := by
  induction ms generalizing ph ta with
  | nil => rfl
  | cons m ms ih =>
    obtain ⟨ta', steps, hres, -, hin⟩ := resumeWasm_inPhase h (resumeWith m) Env.ok rfl
    rw [List.map_cons, resumeAll, invoke_resume h, hres, List.map_cons, ih hin, List.map_cons,
      askCodes, List.map_cons, Params.ask_value1]
    rfl

/-- The PUT requests are counted by their codes. -/
theorem puts_eq {σ : Type} (rs : List (Reply σ)) :
    puts rs = (rs.map fun r => (r.result, r.params.value1)).countP
      fun c => c.1 = .success ∧ c.2 = putStateRequest := by
  rw [puts, List.countP_map]
  rfl

/-- `create alice 7`, resumed four times on empty replies, writes
twice: once more behind its own OK. -/
theorem create_executes_twice :
    (runReply linkedLoader proxyHeap smallestWasm createAlice Env.ok).result = .success ∧
      puts (replies linkedLoader proxyHeap smallestWasm createAlice Env.ok
        ((List.replicate 4 wholeBuffer).map (·, Env.ok))) = 2 ∧
      ¬ ExecutesOnce (replies linkedLoader proxyHeap smallestWasm createAlice Env.ok
        ((List.replicate 4 wholeBuffer).map (·, Env.ok))) := by
  obtain ⟨ta', steps, hres, hin⟩ := runReply_linked createAlice
  have hputs : puts (replies linkedLoader proxyHeap smallestWasm createAlice Env.ok
      ((List.replicate 4 wholeBuffer).map (·, Env.ok))) = 2 := by
    rw [replies, hres, puts_eq, List.map_cons, codes_resumeAll hin, Params.ask_value1]
    dsimp only
    decide +kernel
  refine ⟨by rw [hres], hputs, ?_⟩
  rintro ⟨-, hle⟩
  omega

end Coffee

end TeeChaincode
