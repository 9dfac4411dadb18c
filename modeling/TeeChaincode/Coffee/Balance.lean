import TeeChaincode.Coffee.Ledger

/-!
# Balances

`add` reads two numerals into `unsigned long`, adds them and prints the
sum: on wasm32 all of this is modulo `2 ^ 32`, and nothing checks the
range. A balance built by one `create` and a list of `add`s is therefore
the exact sum precisely while that sum stays below `2 ^ 32`.
-/

namespace TeeChaincode

namespace Coffee

open Common

/-- A person's balance, as `s_atoul` reads it. -/
def balance (l : Ledger) (person : Bytes) : ℕ := leadingValue (stored l person)

/-- The arguments of the three operations. -/
def createArgs (person amount : Bytes) : List Bytes := [Lit.create.text, person, amount]

def addArgs (person amount : Bytes) : List Bytes := [Lit.add.text, person, amount]

def queryArgs (person : Bytes) : List Bytes := [Lit.query.text, person]

/-- `add`s run one after another, each answered with OK. -/
inductive Adds (D : Deployment) (person : Bytes) : List Bytes → Ledger → Ledger → Prop
  | nil (l : Ledger) : Adds D person [] l l
  | cons {a : Bytes} {as : List Bytes} {l l₁ l₂ : Ledger}
      (h : Invokes D l (addArgs person a) Lit.ok.text l₁) (t : Adds D person as l₁ l₂) :
      Adds D person (a :: as) l l₂

variable {D : Deployment} {person a x : Bytes} {as : List Bytes} {l l' : Ledger}

/-- The exact sum of a list of numerals. -/
def total (as : List Bytes) : ℕ := (as.map digitsValue).sum

/-- A short numeral is passed on as it is. -/
theorem clip_numeral (h : IsNumeral a) (hl : a.length ≤ 63) : clip 63 a = a :=
  clip_eq_self h.zero_notMem hl

/-- An `add` that answers OK writes the sum modulo `2 ^ 32`. -/
theorem invokes_add_ok (hp : clip 63 person ≠ []) (ha : IsNumeral a) (hl : a.length ≤ 63)
    (h : Invokes D l (addArgs person a) Lit.ok.text l') :
    stored l' (clip 63 person) =
      numeral ((balance l (clip 63 person) + digitsValue a) % 2 ^ 32) := by
  rcases (invokes_add_iff D hp).1 h with ⟨-, hx, -⟩ | ⟨-, -, rfl⟩
  · exact absurd hx (by decide)
  · rw [List.getD_cons_zero, clip_numeral ha hl, stored_add, sum32, ha.leadingValue]
    rfl

theorem balance_add_ok (hp : clip 63 person ≠ []) (ha : IsNumeral a) (hl : a.length ≤ 63)
    (h : Invokes D l (addArgs person a) Lit.ok.text l') :
    balance l' (clip 63 person) = (balance l (clip 63 person) + digitsValue a) % 2 ^ 32 := by
  rw [balance, invokes_add_ok hp ha hl h, leadingValue_numeral]

/-- **What a list of `add`s leaves**: the sum modulo `2 ^ 32`. -/
theorem stored_adds (hp : clip 63 person ≠ []) (has : ∀ a ∈ as, IsNumeral a ∧ a.length ≤ 63)
    (hne : as ≠ []) (h : Adds D person as l l') :
    stored l' (clip 63 person) =
      numeral ((balance l (clip 63 person) + total as) % 2 ^ 32) := by
  induction h with
  | nil l => exact absurd rfl hne
  | @cons a as l l₁ l₂ hadd t ih =>
    obtain ⟨ha, hl⟩ := has a List.mem_cons_self
    have htotal : total (a :: as) = digitsValue a + total as := by simp [total]
    by_cases hnil : as = []
    · subst hnil
      cases t
      rw [invokes_add_ok hp ha hl hadd, htotal]
      rfl
    · rw [ih (fun b hb => has b (List.mem_cons_of_mem a hb)) hnil, balance_add_ok hp ha hl hadd,
        htotal, Nat.mod_add_mod, Nat.add_assoc]

/-- **While the sum fits, no `add` wraps.** -/
theorem balance_adds (hp : clip 63 person ≠ []) (has : ∀ a ∈ as, IsNumeral a ∧ a.length ≤ 63)
    (hlt : balance l (clip 63 person) + total as < 2 ^ 32) (h : Adds D person as l l') :
    balance l' (clip 63 person) = balance l (clip 63 person) + total as := by
  by_cases hne : as = []
  · subst hne
    cases h
    rfl
  · rw [balance, stored_adds hp has hne h, leadingValue_numeral, Nat.mod_eq_of_lt hlt]

/-- A `create` that answers OK was for somebody, and its amount is the
balance. -/
theorem invokes_create_ok (ha : IsNumeral a) (hl : a.length ≤ 63)
    (h : Invokes D l (createArgs person a) Lit.ok.text l') :
    clip 63 person ≠ [] ∧ balance l' (clip 63 person) = digitsValue a := by
  have hp : clip 63 person ≠ [] := by
    intro hp
    have := (invokes_nobody_iff D (clip_lit .create) hp).1 h
    simp only [Prod.mk.injEq] at this
    exact absurd this.1 (by decide)
  refine ⟨hp, ?_⟩
  rcases (invokes_create_iff D hp).1 h with ⟨-, hx, -⟩ | ⟨-, -, rfl⟩
  · exact absurd hx (by decide)
  · rw [balance, List.getD_cons_zero, stored_create, clip_numeral ha hl, ha.leadingValue]

/-- No `add` of a list stores less than it read. -/
def NeverShrinks (D : Deployment) (person : Bytes) (as : List Bytes) (l : Ledger) : Prop :=
  ∀ before a after l₁ l₂, as = before ++ a :: after → Adds D person before l l₁ →
    Invokes D l₁ (addArgs person a) Lit.ok.text l₂ →
    balance l₁ (clip 63 person) ≤ balance l₂ (clip 63 person)

/-- **Balances are exact precisely below `2 ^ 32`.** After a `create` on a
ledger without the person and a list of `add`s, each answered OK, a query
answers the numeral of the exact sum, and no `add` stored less than it
read, if and only if that sum is below `2 ^ 32`. -/
theorem balance_exact_iff (D : Deployment) {person a₀ x : Bytes} {as : List Bytes}
    {l l₀ lₙ l' : Ledger} (h₀ : IsNumeral a₀) (hl₀ : a₀.length ≤ 63)
    (has : ∀ a ∈ as, IsNumeral a ∧ a.length ≤ 63) (hne : as ≠ [])
    (hcreate : Invokes D l (createArgs person a₀) Lit.ok.text l₀)
    (hadds : Adds D person as l₀ lₙ) (hquery : Invokes D lₙ (queryArgs person) x l') :
    x = numeral (digitsValue a₀ + total as) ∧ NeverShrinks D person as l₀ ↔
      digitsValue a₀ + total as < 2 ^ 32 := by
  obtain ⟨hp, hb₀⟩ := invokes_create_ok h₀ hl₀ hcreate
  have hstored := stored_adds hp has hne hadds
  obtain ⟨hx, -⟩ := (invokes_query_iff D hp).1 hquery
  rw [hstored, if_neg (numeral_ne_nil _), hb₀] at hx
  constructor
  · rintro ⟨heq, -⟩
    have hmod := numeral_inj (hx.symm.trans heq)
    rw [← hmod]
    exact Nat.mod_lt _ (by omega)
  · intro hlt
    refine ⟨by rw [hx, Nat.mod_eq_of_lt hlt], ?_⟩
    rintro before a after l₁ l₂ rfl hbefore hadd
    have htotal : total (before ++ a :: after) = total before + (digitsValue a + total after) := by
      simp [total]
    obtain ⟨ha, hl⟩ := has a (by simp)
    have hb₁ := balance_adds hp (fun b hb => has b (by simp [hb])) (by omega) hbefore
    rw [balance_add_ok hp ha hl hadd, hb₁, Nat.mod_eq_of_lt (by omega)]
    omega

/-! ## Two runs -/

/-- An empty ledger, and ledgers with one record. -/
def emptyLedger : Ledger := fun _ => none

def aliceHas (v : Bytes) : Ledger := Function.update emptyLedger (ascii "alice") (some v)

theorem alice_create (D : Deployment) (v : Bytes) :
    Invokes D emptyLedger (createArgs (ascii "alice") v) Lit.ok.text (aliceHas (clip 63 v)) :=
  (invokes_create_iff D (by decide)).2 (.inr ⟨by decide, rfl, rfl⟩)

/-- `add` and `query` on a short record. -/
theorem alice_add (D : Deployment) {v : Bytes} (a : Bytes) (h : replyValue v = v) (hne : v ≠ []) :
    Adds D (ascii "alice") [a] (aliceHas v) (aliceHas (sum32 v (clip 63 a))) := by
  have hv : stored (aliceHas v) (clip 63 (ascii "alice")) = v := h
  refine .cons ((invokes_add_iff D (by decide)).2 (.inr ⟨by rw [hv]; exact hne, rfl, ?_⟩)) (.nil _)
  rw [hv]
  exact (Function.update_idem ..).symm

theorem alice_query (D : Deployment) {v : Bytes} (h : replyValue v = v) (hne : v ≠ []) :
    Invokes D (aliceHas v) (queryArgs (ascii "alice")) v (aliceHas v) := by
  have hv : stored (aliceHas v) (clip 63 (ascii "alice")) = v := h
  refine (invokes_query_iff D (by decide)).2 ⟨?_, rfl⟩
  rw [hv, if_neg hne]

/-- Five and seven make twelve. -/
theorem balance_exact_iff_twelve :
    Invokes linkedDeployment emptyLedger (createArgs (ascii "alice") (ascii "5")) Lit.ok.text
        (aliceHas (ascii "5")) ∧
      Adds linkedDeployment (ascii "alice") [ascii "7"] (aliceHas (ascii "5"))
        (aliceHas (ascii "12")) ∧
      Invokes linkedDeployment (aliceHas (ascii "12")) (queryArgs (ascii "alice")) (ascii "12")
        (aliceHas (ascii "12")) ∧
      NeverShrinks linkedDeployment (ascii "alice") [ascii "7"] (aliceHas (ascii "5")) := by
  have hcreate := alice_create linkedDeployment (ascii "5")
  have hadds := alice_add linkedDeployment (v := ascii "5") (ascii "7") (by decide) (by decide)
  rw [show clip 63 (ascii "5") = ascii "5" by decide] at hcreate
  rw [show sum32 (ascii "5") (clip 63 (ascii "7")) = ascii "12" by decide] at hadds
  have hquery := alice_query linkedDeployment (v := ascii "12") (by decide) (by decide)
  have hseven : ∀ a ∈ [ascii "7"], IsNumeral a ∧ a.length ≤ 63 := by
    intro a ha
    rw [List.mem_singleton] at ha
    subst ha
    exact ⟨.of_all (by decide), by decide⟩
  refine ⟨hcreate, hadds, hquery, ?_⟩
  exact ((balance_exact_iff linkedDeployment (.of_all (by decide)) (by decide) hseven (by decide)
    hcreate hadds hquery).2 (by decide)).2

/-- One more than the largest machine word makes nothing. -/
theorem balance_wraps :
    Invokes linkedDeployment emptyLedger (createArgs (ascii "alice") (ascii "4294967295"))
        Lit.ok.text (aliceHas (ascii "4294967295")) ∧
      Adds linkedDeployment (ascii "alice") [ascii "1"] (aliceHas (ascii "4294967295"))
        (aliceHas (ascii "0")) ∧
      Invokes linkedDeployment (aliceHas (ascii "0")) (queryArgs (ascii "alice")) (ascii "0")
        (aliceHas (ascii "0")) ∧
      ¬ (ascii "0" = numeral (digitsValue (ascii "4294967295") + total [ascii "1"]) ∧
        NeverShrinks linkedDeployment (ascii "alice") [ascii "1"]
          (aliceHas (ascii "4294967295"))) := by
  have hcreate := alice_create linkedDeployment (ascii "4294967295")
  have hadds := alice_add linkedDeployment (v := ascii "4294967295") (ascii "1") (by decide)
    (by decide)
  rw [show clip 63 (ascii "4294967295") = ascii "4294967295" by decide] at hcreate
  rw [show sum32 (ascii "4294967295") (clip 63 (ascii "1")) = ascii "0" by decide +kernel] at hadds
  refine ⟨hcreate, hadds, alice_query linkedDeployment (by decide) (by decide), ?_⟩
  rintro ⟨heq, -⟩
  exact absurd heq (by decide +kernel)

end Coffee

end TeeChaincode
