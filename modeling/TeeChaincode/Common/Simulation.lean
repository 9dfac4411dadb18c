import TeeChaincode.Common.Run

/-!
# Refinement of a sequential program

A sequential program is a function `next` from a state to the next one,
undefined where it halts. A system with a step relation follows it when
every step of the system either leaves the program where it is, and lowers
a rank, or is a step of the program, and the system can stop only where
the program has halted. Such a system runs the program: it ends if and
only if the program does, in a state that stands for the one the program
halts in, whatever steps it has to choose from on the way.

Where the steps of a system depend on an image of its state alone, its
runs are the runs of the image.
-/

namespace TeeChaincode

namespace Common

variable {α γ : Type*}

/-- **The program halts**, in `d`. -/
def Halts (next : γ → Option γ) (c d : γ) : Prop :=
  Relation.ReflTransGen (fun c c' => next c = some c') c d ∧ next d = none

/-- **A system that follows a program.** -/
structure Follows (R : α → α → Prop) (next : γ → Option γ) (Rel : γ → α → Prop)
    (rank : α → ℕ) : Prop where
  /-- A step is one of the program, or comes closer to one. -/
  step : ∀ c a b, Rel c a → R a b →
    Rel c b ∧ rank b < rank a ∨ ∃ c', next c = some c' ∧ Rel c' b
  /-- The system does not stop before the program halts. -/
  stop : ∀ c a, Rel c a → (∀ b, ¬ R a b) → next c = none

variable {R : α → α → Prop} {next : γ → Option γ} {Rel : γ → α → Prop} {rank : α → ℕ}
variable {a b : α} {c d : γ}

/-- **Programs that go alike halt alike.** -/
theorem Halts.congr {δ : Type*} {next' : δ → Option δ} {E : γ → δ → Prop}
    (hE : ∀ c c', E c c' → Option.Rel E (next c) (next' c')) {c' : δ} (h : Halts next c d)
    (hc : E c c') : ∃ d', Halts next' c' d' ∧ E d d' := by
  obtain ⟨hrun, hstop⟩ := h
  induction hrun using Relation.ReflTransGen.head_induction_on generalizing c' with
  | refl =>
    have hrel := hE d c' hc
    rw [hstop] at hrel
    cases hn : next' c' with
    | none => exact ⟨c', ⟨.refl, hn⟩, hc⟩
    | some e =>
      rw [hn] at hrel
      cases hrel
  | @head c c₁ hcc₁ _ ih =>
    have hrel := hE c c' hc
    rw [hcc₁] at hrel
    cases hn : next' c' with
    | none =>
      rw [hn] at hrel
      cases hrel
    | some e =>
      rw [hn] at hrel
      cases hrel with
      | some he =>
        obtain ⟨d', hd', hdd'⟩ := ih he
        exact ⟨d', ⟨hd'.1.head hn, hd'.2⟩, hdd'⟩

/-- **The system ends where the program halts.** -/
theorem Follows.ends (hf : Follows R next Rel rank) (h : Halts next c d) (ha : Rel c a) :
    Ends R (Rel d) a := by
  obtain ⟨hrun, hstop⟩ := h
  induction hrun using Relation.ReflTransGen.head_induction_on generalizing a with
  | refl =>
    -- every step that is left lowers the rank
    refine Ends.of_rank rank (I := Rel d) (fun a b h hab => ?_) (fun a h _ => h) ha
    rcases hf.step d a b h hab with hb | ⟨c', hc', -⟩
    · exact hb
    · rw [hstop] at hc'
      cases hc'
  | @head c c' hcc' _ ih =>
    generalize hn : rank a = n
    induction n using Nat.strongRecOn generalizing a with
    | ind n ihn =>
      refine Ends.of_step ?_ fun b hab => ?_
      · by_contra hno
        have hnone := hf.stop c a ha fun b hb => hno ⟨b, hb⟩
        rw [hcc'] at hnone
        cases hnone
      rcases hf.step c a b ha hab with ⟨hb, hlt⟩ | ⟨c'', hc'', hb⟩
      · exact ihn (rank b) (hn ▸ hlt) hb rfl
      · rw [hcc'] at hc''
        cases hc''
        exact ih hb

/-- **Where the system stops, the program has halted.** -/
theorem Follows.halts (hf : Follows R next Rel rank) (h : Relation.ReflTransGen R a b)
    (hb : ∀ b', ¬ R b b') (ha : Rel c a) : ∃ d, Halts next c d ∧ Rel d b := by
  have hreach : ∃ d, Relation.ReflTransGen (fun c c' => next c = some c') c d ∧ Rel d b := by
    clear hb
    induction h with
    | refl => exact ⟨c, .refl, ha⟩
    | tail _ hbb' ih =>
      obtain ⟨d, hd, hrel⟩ := ih
      rcases hf.step _ _ _ hrel hbb' with ⟨hrel', -⟩ | ⟨d', hd', hrel'⟩
      · exact ⟨d, hd, hrel'⟩
      · exact ⟨d', hd.tail hd', hrel'⟩
  obtain ⟨d, hd, hrel⟩ := hreach
  exact ⟨d, ⟨hd, hf.stop d b hrel hb⟩, hrel⟩

/-- **Runs of an image lift**, where its steps do. -/
theorem exists_run_of_image {β : Type*} {R' : β → β → Prop} {f : α → β} {e : β}
    (hlift : ∀ a e, R' (f a) e → ∃ b, R a b ∧ f b = e) (h : Relation.ReflTransGen R' (f a) e) :
    ∃ b, Relation.ReflTransGen R a b ∧ f b = e := by
  induction h with
  | refl => exact ⟨a, .refl, rfl⟩
  | tail _ hee' ih =>
    obtain ⟨b, hab, rfl⟩ := ih
    obtain ⟨c, hbc, hc⟩ := hlift b _ hee'
    exact ⟨c, hab.tail hbc, hc⟩

end Common

end TeeChaincode
