import Mathlib.Logic.Relation
import Mathlib.Order.RelClasses

/-!
# Runs of a transition relation

Two notions over an arbitrary step relation. A property is kept along
every run when it holds at the start and every step keeps it. A state
*ends in* `Q` when every run from it is finite and every state a run can
stop in satisfies `Q`: there is no infinite run, and a deadlock outside
`Q` would be a stop that breaks it. `Steps` are runs that carry their
length, for bounds on it. A machine answers each input and goes on from
the state behind it; a step of it may have a price, and a run of it may
be asked to keep to something at each step.
-/

namespace TeeChaincode

namespace Common

variable {α : Type*} {R : α → α → Prop} {I Q : α → Prop} {a b : α}

/-- **Invariance.** -/
theorem invariant_of_step (hstep : ∀ a b, I a → R a b → I b) (h : Relation.ReflTransGen R a b)
    (ha : I a) : I b := by
  induction h with
  | refl => exact ha
  | tail _ hbc ih => exact hstep _ _ ih hbc

/-- **Every run from `a` is finite, and stops in `Q`.** -/
structure Ends (R : α → α → Prop) (Q : α → Prop) (a : α) : Prop where
  /-- No run goes on for ever. -/
  acc : Acc (fun b a => R a b) a
  /-- Where a run stops, `Q` holds. -/
  stop : ∀ b, Relation.ReflTransGen R a b → (∀ c, ¬ R b c) → Q b

/-- A state without a step. -/
theorem Ends.of_stopped (hq : Q a) (h : ∀ b, ¬ R a b) : Ends R Q a where
  acc := ⟨a, fun b hb => absurd hb (h b)⟩
  stop b hab _ := by
    rcases hab.cases_head with rfl | ⟨c, hac, -⟩
    · exact hq
    · exact absurd hac (h c)

/-- **A step closer to the end.** Some step is possible, and every step
leads on. -/
theorem Ends.of_step (hne : ∃ b, R a b) (h : ∀ b, R a b → Ends R Q b) : Ends R Q a where
  acc := ⟨a, fun b hb => (h b hb).acc⟩
  stop b hab hb := by
    rcases hab.cases_head with rfl | ⟨c, hac, hcb⟩
    · obtain ⟨c, hc⟩ := hne
      exact absurd hc (hb c)
    · exact (h c hac).stop b hcb hb

/-- **Some run stops**, in `Q`. -/
theorem Ends.exists_stop (h : Ends R Q a) :
    ∃ b, Relation.ReflTransGen R a b ∧ (∀ c, ¬ R b c) ∧ Q b := by
  obtain ⟨hacc, hstop⟩ := h
  induction hacc with
  | intro a _ ih =>
    by_cases hne : ∃ b, R a b
    · obtain ⟨b, hab⟩ := hne
      obtain ⟨c, hbc, hc, hq⟩ := ih b hab fun c hbc => hstop c (hbc.head hab)
      exact ⟨c, hbc.head hab, hc, hq⟩
    · have hno : ∀ b, ¬ R a b := fun b hb => hne ⟨b, hb⟩
      exact ⟨a, .refl, hno, hstop a .refl hno⟩

/-- **A rank that every step lowers**, where an invariant holds. -/
theorem Ends.of_rank (rank : α → ℕ) (hstep : ∀ a b, I a → R a b → I b ∧ rank b < rank a)
    (hstop : ∀ a, I a → (∀ b, ¬ R a b) → Q a) (ha : I a) : Ends R Q a where
  acc := by
    generalize hn : rank a = n
    induction n using Nat.strongRecOn generalizing a with
    | ind n ih =>
      refine ⟨a, fun b hab => ?_⟩
      obtain ⟨hb, hlt⟩ := hstep a b ha hab
      exact ih (rank b) (hn ▸ hlt) hb rfl
  stop b hab hb := hstop b (invariant_of_step (fun a b h hr => (hstep a b h hr).1) hab ha) hb

/-! ## Runs with their length -/

/-- A run of `n` steps. -/
inductive Steps (R : α → α → Prop) (a : α) : ℕ → α → Prop
  | refl : Steps R a 0 a
  | tail {n : ℕ} {b c : α} (h : Steps R a n b) (hbc : R b c) : Steps R a (n + 1) c

variable {n : ℕ} {c : α}

theorem Steps.run (h : Steps R a n b) : Relation.ReflTransGen R a b := by
  induction h with
  | refl => exact .refl
  | tail _ hbc ih => exact ih.tail hbc

theorem Steps.head (hab : R a b) (h : Steps R b n c) : Steps R a (n + 1) c := by
  induction h with
  | refl => exact .tail .refl hab
  | tail _ hcd ih => exact ih.tail hcd

/-- **A potential that pays for every step**, where an invariant holds. A
step may also be paid for by a credit it brings, at a price of its own. -/
theorem Steps.length_le (potential credit : α → ℕ) (price : ℕ)
    (hstep : ∀ a b, I a → R a b →
      I b ∧ potential b + price * credit a + 1 ≤ potential a + price * credit b)
    (h : Steps R a n b) (ha : I a) :
    I b ∧ potential b + price * credit a + n ≤ potential a + price * credit b := by
  induction h with
  | refl => exact ⟨ha, by omega⟩
  | tail _ hbc ih =>
    obtain ⟨hb, hle⟩ := ih
    obtain ⟨hc, hle'⟩ := hstep _ _ hb hbc
    exact ⟨hc, by omega⟩

/-- **Runs of bounded length end.** -/
theorem Ends.of_length_le {bound : ℕ} (hlen : ∀ n b, Steps R a n b → n ≤ bound)
    (hstop : ∀ b, Relation.ReflTransGen R a b → (∀ c, ¬ R b c) → Q b) : Ends R Q a where
  acc := by
    clear hstop
    induction bound generalizing a with
    | zero => exact ⟨a, fun b hab => absurd (hlen 1 b (.tail .refl hab)) (by omega)⟩
    | succ bound ih =>
      refine ⟨a, fun b hab => ih fun n c hbc => ?_⟩
      have hle := hlen (n + 1) c (hbc.head hab)
      omega
  stop := hstop

/-! ## Machines -/

/-- The answers of a machine to its inputs, and the state behind them. -/
def runMachine {S I O : Type*} (step : S → I → O × S) : S → List I → List O × S
  | s, [] => ([], s)
  | s, i :: is =>
    ((step s i).1 :: (runMachine step (step s i).2 is).1, (runMachine step (step s i).2 is).2)

/-- What a run costs, where a step has its price. -/
def totalCost {S I O : Type*} (step : S → I → O × S) (cost : S → I → ℕ) : S → List I → ℕ
  | _, [] => 0
  | s, i :: is => cost s i + totalCost step cost (step s i).2 is

/-- Something holds of every input of a run, in the state it comes to. -/
def Along {S I O : Type*} (step : S → I → O × S) (P : S → I → Prop) : S → List I → Prop
  | _, [] => True
  | s, i :: is => P s i ∧ Along step P (step s i).2 is

section Machines

variable {S I O : Type*} {step : S → I → O × S} {cost : S → I → ℕ} {P P' : S → I → Prop}

theorem Along.mono {s : S} {is : List I} (hP : ∀ s i, P s i → P' s i) (h : Along step P s is) :
    Along step P' s is := by
  induction is generalizing s with
  | nil => trivial
  | cons i is ih => exact ⟨hP s i h.1, ih h.2⟩

theorem along_append {s : S} {is js : List I} :
    Along step P s (is ++ js) ↔
      Along step P s is ∧ Along step P (runMachine step s is).2 js := by
  induction is generalizing s with
  | nil => exact ⟨fun h => ⟨trivial, h⟩, And.right⟩
  | cons i is ih =>
    rw [List.cons_append, Along, ih, Along, and_assoc]
    rfl

/-- **What every step keeps, a run keeps.** -/
theorem runMachine_invariant {P : S → Prop} (hstep : ∀ s i, P s → P (step s i).2) {s : S} (hs : P s)
    (is : List I) : P (runMachine step s is).2 := by
  induction is generalizing s with
  | nil => exact hs
  | cons i is ih => exact ih (hstep s i hs)

theorem runMachine_append (s : S) (is js : List I) :
    (runMachine step s (is ++ js)).2 = (runMachine step (runMachine step s is).2 js).2 := by
  induction is generalizing s with
  | nil => rfl
  | cons i is ih => exact ih (step s i).2

theorem totalCost_append (s : S) (is js : List I) :
    totalCost step cost s (is ++ js) =
      totalCost step cost s is + totalCost step cost (runMachine step s is).2 js := by
  induction is generalizing s with
  | nil => exact (Nat.zero_add _).symm
  | cons i is ih =>
    rw [List.cons_append, totalCost, ih, totalCost, Nat.add_assoc]
    rfl

end Machines

end Common

end TeeChaincode
