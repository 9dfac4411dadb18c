import TeeChaincode.Coffee.Commute
import TeeChaincode.Coffee.Loop
import TeeChaincode.System.Answers
import TeeChaincode.System.Arguments

/-!
# The key an invocation acts on

The chaincode asks for the state of the person it is given, and writes no
other. The person it is given is what is left of the argument behind the
table, up to its first NUL and cut to 63 bytes, so invocations act on one
key exactly where their persons agree that far.
-/

namespace TeeChaincode

open Common

/-- The key of a request. -/
def Request.key : Request → Bytes
  | .get key => key
  | .put key _ => key

namespace Coffee

variable {L : Layout} {load : Loader Globals} {files : Bytes → Option Bytes}
variable {args : Buf sizeofArguments} {ph : Phase} {s s' : Sys (TaRun Globals)}

/-! ## Commands -/

/-- What the machine asks for is under the person's key. -/
theorem key_of_next {f person amount v : Bytes} {q : Request}
    (h : (ph.next f person amount v).2.request = some q) : q.key = person := by
  cases ph with
  | idle =>
    simp only [Phase.next, Phase.start] at h
    repeat' split at h
    all_goals
      cases h
      try rfl
  | createGet =>
    simp only [Phase.next] at h
    split at h
    · cases h
      rfl
    · cases h
  | addGet =>
    simp only [Phase.next] at h
    split at h
    · cases h
    · cases h
      rfl
  | _ => cases h

/-- A command of the chaincode asks under the person's key, and leaves the
machine in a phase where it asks. -/
theorem Comes.keyed {v : Bytes} {r : TeeReply} {ta : Ta Globals}
    (h : Comes L args (stepOn args ph v) r ta) :
    (∀ q, r.request = some q → q.key = rowText args 1) ∧
      ((dispatchReply r).Waits → ∃ ph, InPhase L args ph ta) := by
  rw [request_eq_requested]
  cases h with
  | unable hr =>
    rw [hr]
    exact ⟨nofun, fun hw => absurd hw id⟩
  | moved hr hin =>
    rw [hr, requested_handler]
    exact ⟨fun q hq => key_of_next hq, fun _ => ⟨_, hin⟩⟩

/-! ## Runs -/

/-- Every request so far is under the person's key. -/
structure Keyed (L : Layout) (args : Buf sizeofArguments) (s : Sys (TaRun Globals)) : Prop where
  fresh : s.handler.stage = .arriving → s.tee.ta = initializeSession
  keys : ∀ q ∈ teeRequests s.trace, q.key = rowText args 1
  phase : s.handler.Waits → ∃ ph, InPhase L args ph s.tee.ta

/-- The command of an invocation of the chaincode. -/
theorem TeeCommand.keyed {ta : Ta Globals} {r : Reply Globals} {hd : Handler}
    (h : TeeCommand load ta r hd)
    (hrun : ∀ wasm buf, hd = .run wasm buf →
      load wasm = some (coffee L) ∧ argsOf (runParams wasm buf) = args)
    (hfresh : hd.stage = .arriving → ta = initializeSession)
    (hphase : hd.Waits → ∃ ph, InPhase L args ph ta) :
    (∀ q, r.tee.request = some q → q.key = rowText args 1) ∧
      ((dispatchReply r.tee).Waits → ∃ ph, InPhase L args ph r.ta) := by
  cases h with
  | run wasm buf env hr =>
    subst hr
    obtain ⟨hl, rfl⟩ := hrun wasm buf rfl
    obtain ⟨hcomes, -⟩ := run_comes hl (t := ⟨ta, []⟩) (hfresh rfl) env buf
    rcases hcomes with ⟨-, hfail⟩ | ⟨-, hcomes⟩
    · -- the command failed
      have hnone : (dispatchReply ((taTee load).run ⟨ta, []⟩ env wasm buf).1).requested = none := by
        rw [hfail]
        rfl
      refine ⟨fun q hq => ?_, fun hw => ?_⟩
      · rw [request_eq_requested] at hq
        exact absurd (hq.symm.trans hnone) nofun
      · exact absurd (hfail ▸ hw : (Handler.restart false).Waits) id
    · exact hcomes.keyed
  | resume buf env hr =>
    subst hr
    obtain ⟨ph, hin⟩ := hphase trivial
    have hin' : InPhase L args ph (⟨ta, []⟩ : TaRun Globals).ta := hin
    exact (hin'.resume_comes load env buf).1.keyed

theorem Keyed.step (h : Keyed L args s) (hst : TaStep load s s')
    (hrun : ∀ wasm buf, s.handler = .run wasm buf →
      load wasm = some (coffee L) ∧ argsOf (runParams wasm buf) = args) : Keyed L args s' := by
  have hfresh := hst.fresh h.fresh
  cases hst with
  | off _ hreqs _ hwaits =>
    refine ⟨hfresh, by rw [hreqs]; exact h.keys, fun hw => ?_⟩
    obtain ⟨hw', htee⟩ := hwaits hw
    rw [htee]
    exact h.phase hw'
  | @command r hr hreqs htee hhd =>
    obtain ⟨hkey, hphase⟩ := TeeCommand.keyed hr hrun h.fresh h.phase
    refine ⟨hfresh, fun q hq => ?_, fun hw => ?_⟩
    · rw [hreqs] at hq
      rcases List.mem_append.1 hq with hold | hmade
      · exact h.keys q hold
      · exact hkey q (Option.mem_toList.1 hmade)
    · rw [hhd] at hw
      rw [htee]
      exact hphase hw

/-- **An invocation acts on the key of its person**, whatever fails. -/
theorem key_of_stubCalls (D : Deployment) (i : Operation) (l : Ledger)
    (h : Relation.ReflTransGen (Step (taTee D.load) D.files) (D.start i.args l) s) :
    ∀ q ∈ stubCalls s.trace, q.key = i.key := by
  have hkeyed : Keyed D.layout
      (argsOf (runParams D.wasm (packArguments i.fn (i.person :: i.rest)))) s := by
    induction h with
    | refl => exact ⟨fun _ => rfl, nofun, nofun⟩
    | tail hrun hst ih =>
      refine ih.step (taStep_of_step hst) fun wasm buf hhd => ?_
      obtain ⟨hfile, rfl⟩ := (carried_of_run hrun).run hhd
      obtain rfl := Option.some.inj (D.file_eq.symm.trans hfile)
      exact ⟨D.load_eq, rfl⟩
  obtain ⟨rest, hreq, -⟩ := (conforming_of_run h).requests
  intro q hq
  have hmem : q ∈ teeRequests s.trace := by
    rw [hreq]
    exact List.mem_append_left _ hq
  rw [hkeyed.keys q hmem, rowText_argsOf D.wasm i.fn (i.person :: i.rest) (by omega)]
  rfl

/-- **The strings arrive, cut.** For every invocation that `invoke`
accepts, in every run of it, for any module and whatever fails: as long as
no length passed to `cc_return_response` is negative, each call of
`cc_get_function`, and of `cc_get_arg` for one of the first nine
positions, brings the string up to its first NUL and cut to 63 bytes, as
far as the output range holds it. So do the calls of the command the proxy
issues next, each answered in the session of the TA as the calls before it
left it. And invocations of the chaincode whose persons differ that far
never act on one key. -/
theorem arguments_arrive :
    (∀ (σ : Type) (load : Loader σ) (files : Bytes → Option Bytes) (uuid ccfile f a : Bytes)
      (rest : List Bytes) (l : Ledger) (s : Sys (TaRun σ)),
      Relation.ReflTransGen (Step (taTee load) files)
        (Sys.init freshRun uuid ccfile (f :: a :: rest) l) s →
      (∀ c ∈ callsOf s.tee.steps, c.1.Measured) →
      (∀ tr ∈ s.tee.steps, tr.Observes load f (a :: rest)) ∧
        ∀ cmd p, s.handler.command = some (cmd, p) → ∀ env,
          EachCall load s.tee.ta cmd p env (Delivered f (a :: rest))) ∧
    ∀ (D D' : Deployment) (i j : Operation) (l l' : Ledger) (s s' : Sys (TaRun Globals)),
      Relation.ReflTransGen (Step (taTee D.load) D.files) (D.start i.args l) s →
      Relation.ReflTransGen (Step (taTee D'.load) D'.files) (D'.start j.args l') s' →
      clip 63 i.person ≠ clip 63 j.person →
      ∀ q ∈ stubCalls s.trace, ∀ q' ∈ stubCalls s'.trace, q.key ≠ q'.key := by
  constructor
  · intro σ load files uuid ccfile f a rest l s h hm
    have harrived := arrived_of_run h
    refine ⟨(harrived.observes hm).1, fun cmd p hcmd env => ?_⟩
    exact harrived.delivers (fun wasm buf hhd => ((carried_of_run h).run hhd).2) hm hcmd env
  · intro D D' i j l l' s s' h h' hne q hq q' hq'
    rw [key_of_stubCalls D i l h q hq, key_of_stubCalls D' j l' h' q' hq']
    exact hne

/-! ## Runs -/

/-- A module that reads its function and its first argument. -/
def readsStrings : Loader ℕ := fun _ => some <| scripted [] fun _ =>
  ⟨[.ccGetFunction 0 8, .ccGetArg 0 8 8], none⟩

/-- The moves of an invocation, up to its first call of the stub. -/
def upToStub : List (Move Env) := oneRequestRun.take 8

/-- A query for somebody. -/
def queryFor (person : Bytes) : Operation := ⟨ascii "query", person, []⟩

/-- It has called the stub. -/
theorem queryFor_run (person : Bytes) (h : ((linkedDeployment.start (queryFor person).args
      fun _ => none).moves (taTee linkedLoader) linkedFiles upToStub).any
        (fun s => stubCalls s.trace = [.get person]) = true) :
    ∃ s, Relation.ReflTransGen (Step (taTee linkedLoader) linkedFiles)
      (linkedDeployment.start (queryFor person).args fun _ => none) s ∧
      stubCalls s.trace = [.get person] := by
  obtain ⟨s, hs, hend⟩ := (Option.any_eq_true _ _).1 h
  exact ⟨s, reaches_of_sysMoves (fun _ _ _ => step_of_move) hs, of_decide_eq_true hend⟩

/-- A module that reads its strings, and queries for two persons. -/
theorem arguments_arrive_short :
    (∃ s, Relation.ReflTransGen (Step (taTee readsStrings) fun _ => some smallestWasm)
        (Sys.init freshRun [] [] [ascii "query", ascii "alice"] fun _ => none) s ∧
      (callsOf s.tee.steps).map Prod.fst = [.ccGetFunction 0 8, .ccGetArg 0 8 8] ∧
      ∀ tr ∈ s.tee.steps, tr.Observes readsStrings (ascii "query") [ascii "alice"]) ∧
    ∃ s s' : Sys (TaRun Globals), stubCalls s.trace = [.get (ascii "alice")] ∧
      stubCalls s'.trace = [.get (ascii "bob")] ∧
      ∀ q ∈ stubCalls s.trace, ∀ q' ∈ stubCalls s'.trace, q.key ≠ q'.key := by
  constructor
  · have hrun : ((Sys.init freshRun [] [] [ascii "query", ascii "alice"]
        fun _ => none).moves (taTee readsStrings) (fun _ => some smallestWasm) upToRun).any
          (fun s : Sys (TaRun ℕ) =>
            (callsOf s.tee.steps).map Prod.fst = [.ccGetFunction 0 8, .ccGetArg 0 8 8] ∧
              ∀ c ∈ callsOf s.tee.steps, c.1.Measured) = true := by
      decide +kernel
    obtain ⟨s, hs, hend⟩ := (Option.any_eq_true _ _).1 hrun
    obtain ⟨hcalls, hm⟩ := of_decide_eq_true hend
    have hreach := reaches_of_sysMoves (fun _ _ _ => step_of_move) hs
    exact ⟨s, hreach, hcalls, (arguments_arrive.1 _ _ _ _ _ _ _ _ _ s hreach hm).1⟩
  · obtain ⟨s, h, hcalls⟩ := queryFor_run (ascii "alice") (by decide +kernel)
    obtain ⟨s', h', hcalls'⟩ := queryFor_run (ascii "bob") (by decide +kernel)
    exact ⟨s, s', hcalls, hcalls', arguments_arrive.2 linkedDeployment linkedDeployment
      (queryFor (ascii "alice")) (queryFor (ascii "bob")) _ _ s s' h h' (by decide)⟩

/-- Sixty-three `a`s and one more letter. -/
def longPerson (last : UInt8) : Bytes := List.replicate 63 97 ++ [last]

/-- The moves of an invocation with two requests, to its end. -/
def twoRequestRun : List (Move Env) := oneRequestRun.take 11 ++ oneRequestRun.drop 5

/-- A `create` for one of them succeeds and writes under a key of
sixty-three letters, and a `query` for another finds it there. -/
theorem long_persons_share_key :
    longPerson 98 ≠ longPerson 99 ∧
    (∃ s, Relation.ReflTransGen (Step (taTee linkedLoader) linkedFiles)
        (linkedDeployment.start [ascii "create", longPerson 98, ascii "5"] fun _ => none) s ∧
      s.wrapper = .done (.success (ascii "OK")) ∧
      s.stub.writes = [(List.replicate 63 97, ascii "5")]) ∧
    ∃ s, Relation.ReflTransGen (Step (taTee linkedLoader) linkedFiles)
        (linkedDeployment.start [ascii "query", longPerson 99] fun key =>
          if key = List.replicate 63 97 then some (ascii "5") else none) s ∧
      s.wrapper = .done (.success (ascii "5")) ∧
      stubCalls s.trace = [.get (List.replicate 63 97)] := by
  refine ⟨by decide, ?_, ?_⟩
  · have hrun : ((linkedDeployment.start [ascii "create", longPerson 98, ascii "5"]
        fun _ => none).moves (taTee linkedLoader) linkedFiles twoRequestRun).any (fun s =>
          s.wrapper = .done (.success (ascii "OK")) ∧
            s.stub.writes = [(List.replicate 63 97, ascii "5")]) = true := by
      decide +kernel
    obtain ⟨s, hs, hend⟩ := (Option.any_eq_true _ _).1 hrun
    exact ⟨s, reaches_of_sysMoves (fun _ _ _ => step_of_move) hs, of_decide_eq_true hend⟩
  · have hrun : ((linkedDeployment.start [ascii "query", longPerson 99] fun key =>
          if key = List.replicate 63 97 then some (ascii "5") else none).moves (taTee linkedLoader)
        linkedFiles oneRequestRun).any (fun s => s.wrapper = .done (.success (ascii "5")) ∧
            stubCalls s.trace = [.get (List.replicate 63 97)]) = true := by
      decide +kernel
    obtain ⟨s, hs, hend⟩ := (Option.any_eq_true _ _).1 hrun
    exact ⟨s, reaches_of_sysMoves (fun _ _ _ => step_of_move) hs, of_decide_eq_true hend⟩

end Coffee

end TeeChaincode
