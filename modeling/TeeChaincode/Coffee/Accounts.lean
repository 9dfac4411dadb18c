import TeeChaincode.Coffee.Commute

/-!
# Accounts over whole histories

Every person has an account: the record at the person's key, and the
operations on it. What a person is told, and what is left of the record,
depends on that person's own operations and on nothing else of a history.

The second result says what the record comes to. It is opened by the first
`create` with an amount that is not empty, and every later `create` is
refused; up to the first `add` it is the amount as it was given, digits or
not, and from then on the numeral of the amount's leading digits and those
of everything added since, modulo `2 ^ 32`.
-/

namespace TeeChaincode

namespace Coffee

open Common

variable {D : Deployment} {l l' : Ledger} {i : Operation} {is : List Operation} {xs : List Bytes}

/-! ## Independence -/

/-- A list of invocations is a run of the operations. -/
theorem runs_iff_runMachine : Runs D l is xs l' ↔ runMachine outcome l is = (xs, l') := by
  induction is generalizing l xs with
  | nil =>
    rw [runs_nil_iff, runMachine, Prod.mk.injEq]
    exact and_congr eq_comm eq_comm
  | cons i is ih =>
    simp only [runs_cons_iff, ih, runMachine, Prod.mk.injEq]
    constructor
    · rintro ⟨ys, rfl, h⟩
      rw [h]
      exact ⟨rfl, rfl⟩
    · rintro ⟨rfl, rfl⟩
      exact ⟨_, rfl, rfl⟩

/-- The operations on a key. -/
def onKey (k : Bytes) (is : List Operation) : List Operation := is.filter fun i => i.key = k

/-- **Accounts are independent.** For every list of invocations, with any
functions, persons and amounts, and every key: the operations on that key
alone, on any ledger with the same record there, give each of them the
answer it has in the whole list, and leave the same record. -/
theorem accounts_independent (D : Deployment) {l l' : Ledger} {is : List Operation}
    {xs : List Bytes} (h : Runs D l is xs l') (k : Bytes) (l₀ : Ledger) (hl : l k = l₀ k) :
    ∃ ys l₀', Runs D l₀ (onKey k is) ys l₀' ∧ l' k = l₀' k ∧
      (is.zip xs).filter (fun x => x.1.key = k) = (onKey k is).zip ys := by
  obtain ⟨hanswers, hend⟩ := runMachine_project localAt_outcome k hl is
  rw [runs_iff_runMachine] at h
  rw [h] at hanswers hend
  exact ⟨_, _, runs_iff_runMachine.2 rfl, hend, hanswers⟩

/-- Two persons take turns, and the second one's amounts are no
numerals. -/
def turns : List Operation :=
  [⟨ascii "create", ascii "alice", [ascii "5"]⟩, ⟨ascii "create", ascii "bob", [ascii "9 cups"]⟩,
    addAlice (ascii "7"), queryBob, ⟨ascii "add", ascii "bob", [ascii "1 more"]⟩]

/-- One of them is answered as if there were no other. -/
theorem accounts_independent_turns :
    ∃ ys l₀', Runs linkedDeployment (fun _ => none) (onKey (ascii "bob") turns) ys l₀' ∧
      (runMachine outcome (fun _ => none) turns).2 (ascii "bob") = l₀' (ascii "bob") ∧
      ys.length = 3 := by
  have hrun : Runs linkedDeployment (fun _ => none) turns
      (runMachine outcome (fun _ => none) turns).1 (runMachine outcome (fun _ => none) turns).2 :=
    runs_iff_runMachine.2 rfl
  obtain ⟨ys, l₀', hruns, hend, -⟩ :=
    accounts_independent linkedDeployment hrun (ascii "bob") (fun _ => none) rfl
  refine ⟨ys, l₀', hruns, hend, ?_⟩
  have hys : (runMachine outcome (fun _ => none) (onKey (ascii "bob") turns)).1 = ys :=
    congrArg Prod.fst (runs_iff_runMachine.1 hruns)
  rw [← hys]
  decide +kernel

/-! ## What an account comes to -/

namespace Operation

/-- It opens an account that is not open. -/
def Opens (i : Operation) : Prop := clip 63 i.fn = Lit.create.text ∧ i.amount ≠ []

instance (i : Operation) : Decidable i.Opens := inferInstanceAs (Decidable (_ ∧ _))

/-- It adds to an account that is open. -/
def adds (i : Operation) : Bool := clip 63 i.fn = Lit.add.text

/-- The record as it reads behind the operation. -/
def post (v : Bytes) (i : Operation) : Bytes :=
  if v = [] then if i.Opens then i.amount else []
  else if i.adds then sum32 v i.amount else v

end Operation

/-- **One operation**, for somebody. -/
theorem stored_outcome (hk : i.key ≠ []) (l : Ledger) :
    stored (outcome l i).2 i.key = Operation.post (stored l i.key) i := by
  have hamount : ∀ l : Ledger,
      stored (Function.update l i.key (some i.amount)) i.key = i.amount := fun l => stored_create _
  rw [outcome, if_neg fun hn => hk hn.2, spec, Operation.post]
  by_cases hc : clip 63 i.fn = Lit.create.text
  · have hadds : i.adds = false := by
      rw [Operation.adds, hc]
      decide
    rw [if_pos hc, hadds]
    by_cases hv : stored l i.key = []
    · rw [if_neg (not_not.2 hv), if_pos hv, hamount]
      by_cases ha : i.amount = []
      · rw [if_neg fun ho => ho.2 ha, ha]
      · rw [if_pos ⟨hc, ha⟩]
    · rw [if_pos hv, if_neg hv]
      rfl
  have hopens : ¬ i.Opens := fun ho => hc ho.1
  rw [if_neg hc, if_neg hopens]
  by_cases ha : clip 63 i.fn = Lit.add.text
  · have hadds : i.adds = true := by simpa [Operation.adds] using ha
    rw [if_pos ha, hadds, if_pos rfl]
    by_cases hv : stored l i.key = []
    · rw [if_pos hv, if_pos hv, hv]
    · rw [if_neg hv, if_neg hv, stored_add]
  · have hadds : ¬ i.adds = true := by simpa [Operation.adds] using ha
    have hsame : (if clip 63 i.fn = Lit.query.text then
        (if stored l i.key = [] then Lit.notfound.text else stored l i.key, l)
        else (Lit.error.text, l)).2 = l := by
      split <;> rfl
    rw [if_neg ha, if_neg hadds, hsame]
    split
    · next hv => exact hv
    · rfl

/-- **A history, at one key**: the operations on it, in order. -/
theorem stored_runMachine {k : Bytes} (hk : k ≠ []) (l : Ledger) (is : List Operation) :
    stored (runMachine outcome l is).2 k = (onKey k is).foldl Operation.post (stored l k) := by
  induction is generalizing l with
  | nil => rfl
  | cons i is ih =>
    rw [runMachine, ih, onKey, onKey]
    by_cases hi : i.key = k
    · subst hi
      rw [List.filter_cons_of_pos (by simp), List.foldl_cons, stored_outcome hk]
    · have hframe : (outcome l i).2 k = l k := (localAt_outcome i).frame (Ne.symm hi) l
      rw [List.filter_cons_of_neg (by simpa using hi), stored, hframe]
      rfl

/-- What an open account comes to: the amount it was opened with, or the
sum of it and of all that was added. -/
def counted (v : Bytes) (added : List Operation) : Bytes :=
  if added = [] then v
  else numeral ((leadingValue v + (added.map fun i => leadingValue i.amount).sum) % 2 ^ 32)

/-- **What the operations on an account leave of it**, from the first that
opens it on. -/
def accountAfter : List Operation → Bytes
  | [] => []
  | i :: is => if i.Opens then counted i.amount (is.filter Operation.adds) else accountAfter is

/-- An open account stays open. -/
theorem foldl_post_of_ne_nil {v : Bytes} (hv : v ≠ []) (is : List Operation) :
    is.foldl Operation.post v = counted v (is.filter Operation.adds) := by
  induction is generalizing v with
  | nil => rfl
  | cons i is ih =>
    rw [List.foldl_cons]
    by_cases hi : i.adds = true
    · have hpost : Operation.post v i = sum32 v i.amount := by
        rw [Operation.post, if_neg hv, if_pos hi]
      rw [hpost, ih (sum32_ne_nil _ _), List.filter_cons_of_pos hi, counted, counted,
        if_neg (List.cons_ne_nil _ _), List.map_cons, List.sum_cons]
      by_cases hrest : is.filter Operation.adds = []
      · rw [if_pos hrest, hrest, sum32]
        rfl
      · rw [if_neg hrest, sum32, leadingValue_numeral]
        congr 1
        omega
    · have hpost : Operation.post v i = v := by rw [Operation.post, if_neg hv, if_neg hi]
      rw [hpost, ih hv, List.filter_cons_of_neg hi]

theorem foldl_post_nil (is : List Operation) : is.foldl Operation.post [] = accountAfter is := by
  induction is with
  | nil => rfl
  | cons i is ih =>
    rw [List.foldl_cons, accountAfter, Operation.post, if_pos rfl]
    by_cases hi : i.Opens
    · rw [if_pos hi, if_pos hi, foldl_post_of_ne_nil hi.2]
    · rw [if_neg hi, if_neg hi, ih]

/-- **What an account comes to, in every history.** For every list of
invocations with any functions, persons and amounts, interleaved in any
way, and every person who has no record that reads as one to begin with:
the record is empty until a `create` for the person has an amount, then
that amount as it was given until something is added, and then the numeral
of its leading digits and of those of all that was added since, modulo
`2 ^ 32`. -/
theorem account_after_history (D : Deployment) {l l' : Ledger} {is : List Operation}
    {xs : List Bytes} (h : Runs D l is xs l') {k : Bytes} (hk : k ≠ []) (hl : stored l k = []) :
    stored l' k = accountAfter (onKey k is) := by
  rw [runs_iff_runMachine] at h
  have hend := stored_runMachine hk l is
  rw [h, hl, foldl_post_nil] at hend
  exact hend

theorem account_after_history_turns :
    stored (runMachine outcome (fun _ => none) turns).2 (ascii "bob") = ascii "10" := by
  rw [account_after_history linkedDeployment (runs_iff_runMachine.2 rfl) (by decide) rfl]
  decide +kernel

end Coffee

end TeeChaincode
