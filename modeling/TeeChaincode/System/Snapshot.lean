import TeeChaincode.Common.Store
import TeeChaincode.System.Exchange

/-!
# What an invocation reads and what it leaves

The stub answers from the committed state and collects what is put. So an
invocation reads from one snapshot of the ledger, the one it started on,
and does not see its own writes: a key it has put and then asks for comes
back as it was. What it leaves, where it succeeds, is that snapshot with
the last value put for every key the TEE has put, and nothing of what it
put otherwise. This holds for every TEE and in every run, whatever fails
on the way.
-/

namespace TeeChaincode

open Common

variable {τ ε : Type} {T : Tee τ ε} {files : Bytes → Option Bytes} {l : Ledger} {s : Sys τ}

/-- What a stub commits. -/
theorem Stub.commit_apply (stub : Stub) (key : Bytes) :
    stub.commit key = (lastValue stub.writes key).or (stub.committed key) :=
  foldl_update_apply stub.writes stub.committed key

/-- The write set is made of what the TEE has put, in its order. -/
theorem writes_prefix (hw : WriteSet s) (hc : Conforming s) :
    s.stub.writes <+: putsOf (teeRequests s.trace) := by
  obtain ⟨failed, hputs, -⟩ := hw
  obtain ⟨rest, hreq, -⟩ := hc.requests
  rw [hreq, putsOf_append, hputs, List.append_assoc]
  exact List.prefix_append _ _

/-- Where the wrapper has succeeded, it is all of it. -/
theorem writes_of_success (hw : WriteSet s) (hc : Conforming s) {x : Bytes}
    (hx : s.wrapper = .done (.success x)) : s.stub.writes = putsOf (teeRequests s.trace) := by
  obtain ⟨failed, hputs, hfailed⟩ := hw
  obtain ⟨rest, hreq, -, hrest⟩ := hc.requests
  have hnone : failed = [] := by
    by_contra hne
    obtain ⟨e, he⟩ := hfailed hne
    rw [hx] at he
    cases he
  rw [hreq, hrest x hx, List.append_nil, hputs, hnone, List.append_nil]

/-- **Snapshot reads, last write wins.** In every state of every run, for
every TEE: a TEE about to be resumed behind a GET is resumed with the reply
for the value the key had when the invocation began, whatever it has put
since; the write set holds what the TEE has put, in order, up to a last PUT
that did not get through; and where `invoke` has succeeded, the ledger
committed has, at every key, the last value the TEE put there, or its value
at the beginning. -/
theorem snapshot_reads_last_write_wins {τ ε : Type} (T : Tee τ ε) (files : Bytes → Option Bytes)
    (t : τ) (uuid ccfile : Bytes) (args : List Bytes) (l : Ledger) (s : Sys τ)
    (h : Relation.ReflTransGen (Step T files) (Sys.init t uuid ccfile args l) s) :
    (∀ key buf, (teeRequests s.trace).getLast? = some (.get key) → s.handler = .resume buf →
      buf = writeReply .get (.getStateResponse ((l key).getD []))) ∧
    s.stub.writes <+: putsOf (teeRequests s.trace) ∧
    ∀ x, s.wrapper = .done (.success x) → ∀ key,
      s.stub.commit key = (lastValue (putsOf (teeRequests s.trace)) key).or (l key) := by
  have hex := exchange_of_run h
  have hw := writeSet_of_run h
  have hc := conforming_of_run h
  refine ⟨fun key buf hlast hh => ?_, writes_prefix hw hc, fun x hx key => ?_⟩
  · obtain ⟨q, hq, rfl⟩ := hex.resume hh
    obtain rfl := Option.some.inj (hq.symm.trans hlast)
    rfl
  · rw [Stub.commit_apply, writes_of_success hw hc hx, hex.committed]

/-- A TEE that puts a key, asks for it, and answers. -/
def putThenGet : Tee ℕ Unit where
  run _ _ _ _ := (⟨.success, putStateRequest, pad keySize (ascii "k") ++ ascii "new" ++ [0]⟩, 0)
  resume n _ _ := if n = 0 then (⟨.success, getStateRequest, ascii "k" ++ [0]⟩, 1)
    else (⟨.success, invocationResponse, ascii "OK" ++ [0]⟩, 2)
  restart _ := 0

/-- A call of the proxy on it that succeeds. -/
def putThenGetOk : Move Unit := .proxy ⟨false, ()⟩

/-- The moves that take a request to the wrapper and its reply back. -/
def oneExchange : List (Move Unit) :=
  [putThenGetOk, .wrapper none, .wrapper none, .wrapper none, putThenGetOk]

/-- The moves up to the TEE's first reply. -/
def upToReply : List (Move Unit) :=
  [.wrapper none, .wrapper none, putThenGetOk, putThenGetOk, putThenGetOk]

/-- It is resumed with the old value, and leaves the new one. -/
theorem snapshot_reads_last_write_wins_putThenGet :
    ∃ s s' : Sys ℕ, s.stub.writes = [(ascii "k", ascii "new")] ∧
      s.handler = .resume (writeReply .get (.getStateResponse (ascii "old"))) ∧
      s'.wrapper = .done (.success (ascii "OK")) ∧
      s'.stub.commit (ascii "k") = some (ascii "new") := by
  have hread : ((Sys.init 0 [] [] [[], []] fun _ => some (ascii "old")).moves putThenGet
      (fun _ => some []) (upToReply ++ oneExchange ++ [putThenGetOk] ++ oneExchange)).map
        (fun s => (s.stub.writes, s.handler)) =
      some ([(ascii "k", ascii "new")],
        .resume (writeReply .get (.getStateResponse (ascii "old")))) := by
    decide +kernel
  have hend : ((Sys.init 0 [] [] [[], []] fun _ => some (ascii "old")).moves putThenGet
      (fun _ => some []) (upToReply ++ oneExchange ++ [putThenGetOk] ++ oneExchange ++
        [putThenGetOk, putThenGetOk, .wrapper none])).map
        (fun s => (s.wrapper, teeRequests s.trace)) =
      some (.done (.success (ascii "OK")), [.put (ascii "k") (ascii "new"), .get (ascii "k")]) := by
    decide +kernel
  rw [Option.map_eq_some_iff] at hread hend
  obtain ⟨s, -, hs⟩ := hread
  obtain ⟨s', hrun, hs'⟩ := hend
  simp only [Prod.mk.injEq] at hs hs'
  refine ⟨s, s', hs.1, hs.2, hs'.1, ?_⟩
  rw [(snapshot_reads_last_write_wins putThenGet (fun _ => some []) 0 [] [] [[], []] _ s'
    (reaches_of_sysMoves (fun _ _ _ => step_of_move) hrun)).2.2 _ hs'.1, hs'.2]
  decide

end TeeChaincode
