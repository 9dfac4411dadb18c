import Mathlib.Computability.DFA
import TeeChaincode.Common.Run

/-!
# Machines that keep to an automaton

A machine answers each input and moves to another state. It *keeps to* an
automaton when its states and its inputs are mapped to the automaton's so
that every step goes where the automaton goes, and is answered as the
automaton allows there, as long as an invariant holds and the inputs are
admissible where they come. Whole runs of such inputs then do so too, and
where a run of the machine gets to is a question about words.
-/

namespace TeeChaincode

namespace Common

variable {S I O Q E : Type*}

/-- Every answer is one that is allowed where the automaton is. -/
def Allowed (A : DFA E Q) (allows : Q → E → Set O) : Q → List E → List O → Prop
  | _, [], [] => True
  | q, e :: es, o :: os => o ∈ allows q e ∧ Allowed A allows (A.step q e) es os
  | _, _, _ => False

/-- **The machine keeps to the automaton**, from the states of an
invariant and on the inputs that are admissible there. -/
structure KeepsTo (step : S → I → O × S) (A : DFA E Q) (allows : Q → E → Set O) (abs : S → Q)
    (event : I → E) (J : S → Prop) (P : S → I → Prop) : Prop where
  invariant : ∀ s i, J s → P s i → J (step s i).2
  next : ∀ s i, J s → P s i → abs (step s i).2 = A.step (abs s) (event i)
  answer : ∀ s i, J s → P s i → (step s i).1 ∈ allows (abs s) (event i)

variable {step : S → I → O × S} {A : DFA E Q} {allows : Q → E → Set O} {abs : S → Q}
variable {event : I → E} {q : Q} {J : S → Prop} {P : S → I → Prop}

/-- **So does every run of it.** -/
theorem KeepsTo.run (h : KeepsTo step A allows abs event J P) {s : S} (hs : J s) {is : List I}
    (his : Along step P s is) :
    abs (runMachine step s is).2 = A.evalFrom (abs s) (is.map event) ∧
      Allowed A allows (abs s) (is.map event) (runMachine step s is).1 := by
  induction is generalizing s with
  | nil => exact ⟨rfl, trivial⟩
  | cons i is ih =>
    obtain ⟨hi, his⟩ := his
    obtain ⟨hstate, hallowed⟩ := ih (h.invariant s i hs hi) his
    rw [h.next s i hs hi] at hstate hallowed
    exact ⟨hstate, h.answer s i hs hi, hallowed⟩

/-- A set of states that no letter of a word leaves. -/
theorem evalFrom_mem {T : Set Q} {w : List E} (hw : ∀ q ∈ T, ∀ e ∈ w, A.step q e ∈ T)
    (hq : q ∈ T) : A.evalFrom q w ∈ T := by
  induction w generalizing q with
  | nil => exact hq
  | cons e w ih =>
    rw [A.evalFrom_cons]
    exact ih (fun q hq e' he' => hw q hq e' (.tail e he')) (hw q hq e (.head w))

/-- **What every word that reaches a state is like**, letter by letter. -/
theorem eval_induction {P : Q → List E → Prop} (hnil : P A.start [])
    (hstep : ∀ q w e, P q w → P (A.step q e) (w ++ [e])) (w : List E) : P (A.eval w) w := by
  induction w using List.reverseRecOn with
  | nil => exact hnil
  | append_singleton w e ih =>
    rw [A.eval_append_singleton]
    exact hstep _ w e ih

end Common

end TeeChaincode
