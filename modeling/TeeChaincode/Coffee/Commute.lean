import TeeChaincode.Coffee.Ledger
import TeeChaincode.Common.Store

/-!
# Operations in another order

An operation of the chaincode is local to the key of its person, so
operations of different persons commute. For one person, `add` re-reads
what the last one printed: the numeral is read back as its value, sums are
taken modulo `2 ^ 32`, and a record that is there stays there, so a list
of `add`s gives one ledger and the same answers in every order. The first
`add` on a record that is no numeral counts its leading digits, whichever
it is.
-/

namespace TeeChaincode

namespace Coffee

open Common

/-! ## Operations -/

/-- The arguments of an invocation. -/
structure Operation where
  fn : Bytes
  person : Bytes
  rest : List Bytes

namespace Operation

def args (i : Operation) : List Bytes := i.fn :: i.person :: i.rest

/-- The key it acts on. -/
def key (i : Operation) : Bytes := clip 63 i.person

def amount (i : Operation) : Bytes := clip 63 (i.rest.getD 0 [])

/-- It is an `add` for somebody. -/
def IsAdd (i : Operation) : Prop := clip 63 i.fn = Lit.add.text ∧ i.key ≠ []

end Operation

/-- What an operation answers and leaves, on any arguments. -/
def outcome (l : Ledger) (i : Operation) : Bytes × Ledger :=
  if clip 63 i.fn = Lit.create.text ∧ i.key = [] then (ascii "NO_RESPONSE", l)
  else spec l (clip 63 i.fn) i.key i.amount

/-- **An invocation is the operation.** -/
theorem invokes_iff_outcome (D : Deployment) {l l' : Ledger} (i : Operation) {x : Bytes} :
    Invokes D l i.args x l' ↔ outcome l i = (x, l') := by
  unfold outcome
  split
  · next h => exact invokes_nobody_iff D h.1 h.2
  · next h => exact invokes_somebody_iff D fun hf hp => h ⟨hf, hp⟩

/-- **An operation is local to its key.** -/
theorem localAt_outcome (i : Operation) : LocalAt i.key fun l => outcome l i := by
  by_cases hn : clip 63 i.fn = Lit.create.text ∧ i.key = []
  · refine ⟨fun _ => ascii "NO_RESPONSE", id, fun l => ?_⟩
    simp only [outcome, if_pos hn, id_eq, Function.update_eq_self]
  simp only [outcome, if_neg hn, spec]
  by_cases hc : clip 63 i.fn = Lit.create.text
  · refine ⟨fun v => if replyValue (v.getD []) = [] then Lit.ok.text else Lit.exist.text,
      fun v => if replyValue (v.getD []) = [] then some i.amount else v, fun l => ?_⟩
    by_cases hv : replyValue ((l i.key).getD []) = []
    · simp [hc, stored, hv]
    · simp [hc, stored, hv]
  simp only [if_neg hc]
  by_cases ha : clip 63 i.fn = Lit.add.text
  · refine ⟨fun v => if replyValue (v.getD []) = [] then Lit.empty.text else Lit.ok.text,
      fun v => if replyValue (v.getD []) = [] then v
        else some (sum32 (replyValue (v.getD [])) i.amount), fun l => ?_⟩
    by_cases hv : replyValue ((l i.key).getD []) = []
    · simp [ha, stored, hv]
    · simp [ha, stored, hv]
  simp only [if_neg ha]
  by_cases hq : clip 63 i.fn = Lit.query.text
  · refine ⟨fun v => if replyValue (v.getD []) = [] then Lit.notfound.text
      else replyValue (v.getD []), id, fun l => ?_⟩
    by_cases hv : replyValue ((l i.key).getD []) = []
    · simp [hq, stored, hv]
    · simp [hq, stored, hv]
  · refine ⟨fun _ => Lit.error.text, id, fun l => ?_⟩
    simp only [if_neg hq, id_eq, Function.update_eq_self]

/-! ## Lists of operations -/

/-- Invocations one after another, with their answers. -/
inductive Runs (D : Deployment) : Ledger → List Operation → List Bytes → Ledger → Prop
  | nil (l : Ledger) : Runs D l [] [] l
  | cons {l l₁ l' : Ledger} {i : Operation} {is : List Operation} {x : Bytes} {xs : List Bytes}
      (h : Invokes D l i.args x l₁) (t : Runs D l₁ is xs l') : Runs D l (i :: is) (x :: xs) l'

variable {D : Deployment} {l l' : Ledger} {i j : Operation} {is : List Operation} {xs : List Bytes}

theorem runs_nil_iff : Runs D l [] xs l' ↔ xs = [] ∧ l' = l := by
  constructor
  · rintro ⟨⟩
    exact ⟨rfl, rfl⟩
  · rintro ⟨rfl, rfl⟩
    exact .nil l'

theorem runs_cons_iff : Runs D l (i :: is) xs l' ↔
    ∃ ys, xs = (outcome l i).1 :: ys ∧ Runs D (outcome l i).2 is ys l' := by
  constructor
  · rintro (_ | ⟨h, t⟩)
    rw [invokes_iff_outcome] at h
    rw [h]
    exact ⟨_, rfl, t⟩
  · rintro ⟨ys, rfl, t⟩
    exact .cons ((invokes_iff_outcome D i).2 rfl) t

/-- Two operations of different persons. -/
theorem runs_pair_iff (hk : i.key ≠ j.key) (l : Ledger) :
    Runs D l [i, j] xs l' ↔
      xs = [(outcome l i).1, (outcome l j).1] ∧ l' = (outcome (outcome l i).2 j).2 := by
  have hj : (outcome (outcome l i).2 j).1 = (outcome l j).1 :=
    (localAt_outcome j).answer_congr ((localAt_outcome i).frame hk.symm l)
  rw [runs_cons_iff]
  simp only [runs_cons_iff, runs_nil_iff, hj]
  constructor
  · rintro ⟨ys, rfl, zs, rfl, rfl, rfl⟩
    exact ⟨rfl, rfl⟩
  · rintro ⟨rfl, rfl⟩
    exact ⟨_, rfl, _, rfl, rfl, rfl⟩

/-! ## Additions -/

/-- The ledger behind an `add`. -/
def addTo (l : Ledger) (i : Operation) : Ledger :=
  if stored l i.key = [] then l
  else Function.update l i.key (some (sum32 (stored l i.key) i.amount))

theorem outcome_add (h : i.IsAdd) (l : Ledger) :
    outcome l i = (if stored l i.key = [] then Lit.empty.text else Lit.ok.text, addTo l i) := by
  rw [outcome, if_neg fun hn => h.2 hn.2, spec, h.1, if_neg (by decide), if_pos rfl, addTo]
  split <;> rfl

/-- Sums are taken modulo `2 ^ 32`, in any order. -/
theorem sum32_comm (v a b : Bytes) : sum32 (sum32 v a) b = sum32 (sum32 v b) a := by
  simp only [sum32, leadingValue_numeral]
  congr 1
  omega

theorem sum32_ne_nil (v a : Bytes) : sum32 v a ≠ [] := numeral_ne_nil _

theorem stored_update_of_ne {k k' v : Bytes} (h : k' ≠ k) :
    stored (Function.update l k (some v)) k' = stored l k' := by
  rw [stored, Function.update_of_ne h, stored]

/-- A record that is there stays there, and none appears. -/
theorem stored_addTo_eq_nil_iff (l : Ledger) (i : Operation) (k : Bytes) :
    stored (addTo l i) k = [] ↔ stored l k = [] := by
  unfold addTo
  split
  · rfl
  next hv =>
  by_cases hk : k = i.key
  · subst hk
    rw [stored_add]
    exact iff_of_false (sum32_ne_nil _ _) hv
  · rw [stored_update_of_ne hk]

/-- **Two additions commute**, also for one person. -/
theorem addTo_comm (l : Ledger) (i j : Operation) : addTo (addTo l i) j = addTo (addTo l j) i := by
  have hi := stored_addTo_eq_nil_iff l j i.key
  have hj := stored_addTo_eq_nil_iff l i j.key
  by_cases hvi : stored l i.key = []
  · rw [addTo.eq_1 (addTo l j), if_pos (hi.2 hvi), addTo.eq_1 l i, if_pos hvi]
  by_cases hvj : stored l j.key = []
  · rw [addTo.eq_1 (addTo l i), if_pos (hj.2 hvj), addTo.eq_1 l j, if_pos hvj]
  rw [addTo.eq_1 (addTo l i), if_neg (mt hj.1 hvj), addTo.eq_1 (addTo l j), if_neg (mt hi.1 hvi),
    addTo.eq_1 l i, if_neg hvi, addTo.eq_1 l j, if_neg hvj]
  by_cases hk : i.key = j.key
  · rw [hk, stored_add, stored_add, sum32_comm, Function.update_idem, Function.update_idem]
  · rw [stored_update_of_ne (Ne.symm hk), stored_update_of_ne hk, Function.update_comm hk]

/-- The answer of an `add`, as far as the ledger decides it. -/
def addAnswer (l : Ledger) (i : Operation) : Bytes :=
  if stored l i.key = [] then Lit.empty.text else Lit.ok.text

/-- **A list of additions** answers from the first ledger. -/
theorem runs_adds_iff (h : ∀ i ∈ is, i.IsAdd) (l : Ledger) :
    Runs D l is xs l' ↔ xs = is.map (addAnswer l) ∧ l' = is.foldl addTo l := by
  induction is generalizing l xs with
  | nil => exact runs_nil_iff
  | cons i is ih =>
    have hanswer : addAnswer (addTo l i) = addAnswer l := by
      funext j
      simp only [addAnswer, stored_addTo_eq_nil_iff]
    rw [runs_cons_iff, outcome_add (h i List.mem_cons_self)]
    simp only [ih (fun j hj => h j (List.mem_cons_of_mem i hj)), hanswer, List.map_cons,
      List.foldl_cons]
    constructor
    · rintro ⟨ys, rfl, rfl, rfl⟩
      exact ⟨rfl, rfl⟩
    · rintro ⟨rfl, rfl⟩
      exact ⟨_, rfl, rfl, rfl⟩

/-- **Independent operations commute.** On every ledger: a list of `add`
invocations for persons with a name gives, in every order, the same ledger
and each invocation the same answer; and two operations of different
persons give the same answers and the same ledger in either order. -/
theorem operations_commute (D : Deployment) (l : Ledger) :
    (∀ adds : List Operation, (∀ i ∈ adds, i.IsAdd) →
      ∃ (answer : Operation → Bytes) (l' : Ledger), ∀ order : List Operation, order.Perm adds →
        ∀ xs l'', Runs D l order xs l'' ↔ xs = order.map answer ∧ l'' = l') ∧
    (∀ i j : Operation, i.key ≠ j.key →
      ∃ x y l', ∀ xs l'',
        (Runs D l [i, j] xs l'' ↔ xs = [x, y] ∧ l'' = l') ∧
        (Runs D l [j, i] xs l'' ↔ xs = [y, x] ∧ l'' = l')) := by
  refine ⟨fun adds hadds => ?_, fun i j hk => ?_⟩
  · refine ⟨addAnswer l, adds.foldl addTo l, fun order hperm xs l'' => ?_⟩
    have hcomm : RightCommutative addTo := ⟨addTo_comm⟩
    rw [runs_adds_iff (fun i hi => hadds i (hperm.mem_iff.1 hi)) l, hperm.foldl_eq]
  · have hswap := (localAt_outcome i).comm (localAt_outcome j) hk l
    refine ⟨(outcome l i).1, (outcome l j).1, (outcome (outcome l i).2 j).2, fun xs l'' => ?_⟩
    rw [runs_pair_iff hk, runs_pair_iff hk.symm]
    exact ⟨Iff.rfl, by rw [hswap]⟩

/-- Two additions to one record, and two operations of different
persons. -/
def addAlice (amount : Bytes) : Operation := ⟨ascii "add", ascii "alice", [amount]⟩

def queryBob : Operation := ⟨ascii "query", ascii "bob", []⟩

/-- On a ledger whose one record is no numeral. -/
theorem operations_commute_malformed :
    (∃ (answer : Operation → Bytes) (l' : Ledger), ∀ xs l'',
      (Runs linkedDeployment (fun _ => some (ascii "7 cups"))
          [addAlice (ascii "1"), addAlice (ascii "2")] xs l'' ↔
        xs = [answer (addAlice (ascii "1")), answer (addAlice (ascii "2"))] ∧ l'' = l') ∧
      (Runs linkedDeployment (fun _ => some (ascii "7 cups"))
          [addAlice (ascii "2"), addAlice (ascii "1")] xs l'' ↔
        xs = [answer (addAlice (ascii "2")), answer (addAlice (ascii "1"))] ∧ l'' = l')) ∧
    (∃ x y l', ∀ xs l'',
      (Runs linkedDeployment (fun _ => some (ascii "7 cups"))
          [addAlice (ascii "1"), queryBob] xs l'' ↔ xs = [x, y] ∧ l'' = l') ∧
      (Runs linkedDeployment (fun _ => some (ascii "7 cups"))
          [queryBob, addAlice (ascii "1")] xs l'' ↔ xs = [y, x] ∧ l'' = l')) := by
  obtain ⟨hadds, hpair⟩ := operations_commute linkedDeployment fun _ => some (ascii "7 cups")
  have hadd : ∀ i ∈ [addAlice (ascii "1"), addAlice (ascii "2")], i.IsAdd := by
    intro i hi
    simp only [List.mem_cons, List.not_mem_nil, or_false] at hi
    rcases hi with rfl | rfl <;> exact ⟨by decide, by decide⟩
  obtain ⟨answer, l', hall⟩ := hadds _ hadd
  refine ⟨⟨answer, l', fun xs l'' => ⟨hall _ (List.Perm.refl _) xs l'', ?_⟩⟩,
    hpair _ _ (by decide)⟩
  exact hall _ (List.Perm.swap _ _ _) xs l''

end Coffee

end TeeChaincode
