import Mathlib.Data.List.Induction
import Mathlib.Logic.Function.Basic
import TeeChaincode.Common.Run

/-!
# Operations on one key of a store

An operation on a store `K → V` answers, and leaves a store behind. It is
local to a key when its answer is a function of the value there and that
value is all it changes. Operations local to different keys cannot see
each other: they commute, with the same answers in either order, and a
list of them is, for each key, the list of those local to it. A list of
writes leaves at each key the last value written to it.
-/

namespace TeeChaincode

namespace Common

variable {K V α β : Type*} [DecidableEq K] {k k' : K}

/-- **The operation reads and writes one key.** -/
def LocalAt (k : K) (op : (K → V) → α × (K → V)) : Prop :=
  ∃ (answer : V → α) (write : V → V), ∀ l, op l = (answer (l k), Function.update l k (write (l k)))

/-- The other keys stay as they are. -/
theorem LocalAt.frame {op : (K → V) → α × (K → V)} (h : LocalAt k op) (hk : k' ≠ k) (l : K → V) :
    (op l).2 k' = l k' := by
  obtain ⟨answer, write, hop⟩ := h
  rw [hop]
  exact Function.update_of_ne hk ..

/-- The answer is that of any store with the same value at the key. -/
theorem LocalAt.answer_congr {op : (K → V) → α × (K → V)} (h : LocalAt k op) {l l' : K → V}
    (hl : l k = l' k) : (op l).1 = (op l').1 := by
  obtain ⟨answer, write, hop⟩ := h
  rw [hop, hop, hl]

/-- **Operations local to different keys commute.** -/
theorem LocalAt.comm {op : (K → V) → α × (K → V)} {op' : (K → V) → β × (K → V)}
    (h : LocalAt k op) (h' : LocalAt k' op') (hk : k ≠ k') (l : K → V) :
    (op' (op l).2).2 = (op (op' l).2).2 := by
  have hframe := h.frame hk.symm l
  have hframe' := h'.frame hk l
  obtain ⟨answer, write, hop⟩ := h
  obtain ⟨answer', write', hop'⟩ := h'
  rw [hop' (op l).2, hop (op' l).2, hframe, hframe', hop, hop']
  exact Function.update_comm hk ..

/-- **A run is, at a key, the run of the operations local to it**: on any
store that has the same value there, these answer as they do in the whole
run, and leave the same value. -/
theorem runMachine_project {I : Type*} {step : (K → V) → I → α × (K → V)} {key : I → K}
    (hlocal : ∀ i, LocalAt (key i) fun l => step l i) (k : K) {l l₀ : K → V} (hl : l k = l₀ k)
    (is : List I) :
    (is.zip (runMachine step l is).1).filter (fun x => key x.1 = k) =
        (is.filter fun i => key i = k).zip
          (runMachine step l₀ (is.filter fun i => key i = k)).1 ∧
      (runMachine step l is).2 k =
        (runMachine step l₀ (is.filter fun i => key i = k)).2 k := by
  induction is generalizing l l₀ with
  | nil => exact ⟨rfl, hl⟩
  | cons i is ih =>
    by_cases hk : key i = k
    · -- the operation is in both runs, and finds the same value
      have hanswer : (step l i).1 = (step l₀ i).1 := (hlocal i).answer_congr (by rw [hk, hl])
      have hvalue : (step l i).2 k = (step l₀ i).2 k := by
        obtain ⟨answer, write, hop⟩ := hlocal i
        have hstep : ∀ l, (step l i).2 = Function.update l (key i) (write (l (key i))) :=
          fun l => congrArg Prod.snd (hop l)
        rw [hstep, hstep, hk, hl, Function.update_self, Function.update_self]
      obtain ⟨hanswers, hend⟩ := ih hvalue
      rw [List.filter_cons_of_pos (by simpa using hk)]
      refine ⟨?_, hend⟩
      rw [runMachine, List.zip_cons_cons, List.filter_cons_of_pos (by simpa using hk), hanswers,
        hanswer]
      rfl
    · -- it leaves the key alone
      have hvalue : (step l i).2 k = l₀ k := ((hlocal i).frame (Ne.symm hk) l).trans hl
      obtain ⟨hanswers, hend⟩ := ih hvalue
      rw [List.filter_cons_of_neg (by simpa using hk)]
      refine ⟨?_, hend⟩
      rw [runMachine, List.zip_cons_cons, List.filter_cons_of_neg (by simpa using hk), hanswers]

/-! ## Write sets -/

/-- The value a list of writes leaves at a key. -/
def lastValue (ws : List (K × V)) (k : K) : Option V :=
  (ws.filter fun w => w.1 = k).getLast?.map Prod.snd

/-- **The last write wins**, and a key that is not written keeps its
value. -/
theorem foldl_update_apply (ws : List (K × V)) (l : K → Option V) (k : K) :
    ws.foldl (fun (l : K → Option V) w => Function.update l w.1 (some w.2)) l k =
      (lastValue ws k).or (l k) := by
  induction ws using List.reverseRecOn with
  | nil => rfl
  | append_singleton ws w ih =>
    rw [List.foldl_append, List.foldl_cons, List.foldl_nil, lastValue, List.filter_append]
    by_cases hk : w.1 = k
    · rw [hk, Function.update_self, List.filter_cons_of_pos (by simpa using hk), List.filter_nil,
        List.getLast?_concat]
      rfl
    · rw [Function.update_of_ne (Ne.symm hk), ih, List.filter_cons_of_neg (by simpa using hk),
        List.filter_nil, List.append_nil]
      rfl

end Common

end TeeChaincode
