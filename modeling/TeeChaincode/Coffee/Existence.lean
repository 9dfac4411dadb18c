import TeeChaincode.Coffee.Balance

/-!
# Existence over whole histories

Whether a person has a record is not stored anywhere: the chaincode takes
the first byte of the value it got for the answer. That encoding fails
for two amounts. A record created with an empty amount reads as absent,
and one created with the text NOTFOUND is queried as if it were. The main
theorem says that these are the only ways to fail: over a whole history,
the three operations agree on who exists exactly when no person's first
`create` carries such an amount.
-/

namespace TeeChaincode

namespace Coffee

open Common

/-! ## Histories -/

/-- A person: a name that fits its buffer. -/
structure Person where
  name : Bytes
  ne_nil : name ≠ []
  zero_notMem : (0 : UInt8) ∉ name
  length_le : name.length ≤ 63

theorem Person.clip_name (p : Person) : clip 63 p.name = p.name :=
  clip_eq_self p.zero_notMem p.length_le

theorem Person.clip_ne_nil (p : Person) : clip 63 p.name ≠ [] := by
  rw [p.clip_name]
  exact p.ne_nil

/-- The three operations. -/
inductive Kind
  | create
  | add
  | query
deriving DecidableEq, Repr

/-- Their names. -/
def Kind.text : Kind → Bytes
  | .create => Lit.create.text
  | .add => Lit.add.text
  | .query => Lit.query.text

/-- An invocation: the operation, the person and the arguments behind,
the first of which is the amount. -/
structure Invocation where
  kind : Kind
  person : Person
  rest : List Bytes

/-- The arguments of `invoke`. -/
def Invocation.args (i : Invocation) : List Bytes := i.kind.text :: i.person.name :: i.rest

/-- The amount as the chaincode reads it. -/
def Invocation.amount (i : Invocation) : Bytes := clip 63 (i.rest.getD 0 [])

/-- An invocation that creates a person's record. -/
def Invocation.Creates (i : Invocation) (p : Person) : Prop :=
  i.kind = .create ∧ i.person.name = p.name

instance (i : Invocation) (p : Person) : Decidable (i.Creates p) :=
  inferInstanceAs (Decidable (_ ∧ _))

/-- **A history**: invocations with their answers, one after another from
an empty ledger, and the ledger they leave. -/
inductive History (D : Deployment) : List (Invocation × Bytes) → Ledger → Prop
  | nil : History D [] emptyLedger
  | snoc {h : List (Invocation × Bytes)} {l l' : Ledger} {i : Invocation} {x : Bytes}
      (t : History D h l) (hi : Invokes D l i.args x l') : History D (h ++ [(i, x)]) l'

variable {D : Deployment} {h : List (Invocation × Bytes)} {l l' : Ledger} {i : Invocation}
variable {x : Bytes} {p : Person}

/-- The point before the last invocation. -/
theorem History.unsnoc (hh : History D (h ++ [(i, x)]) l') :
    ∃ l, History D h l ∧ Invokes D l i.args x l' := by
  generalize he : h ++ [(i, x)] = hs at hh
  cases hh with
  | nil => simp at he
  | snoc t hi =>
    obtain ⟨rfl, h2⟩ := List.append_inj' he rfl
    simp only [List.cons.injEq, Prod.mk.injEq, and_true] at h2
    obtain ⟨rfl, rfl⟩ := h2
    exact ⟨_, t, hi⟩

/-- Every point of a history has a ledger. -/
theorem History.of_prefix (hh : History D h l) {pre : List (Invocation × Bytes)}
    (hp : pre <+: h) : ∃ lp, History D pre lp := by
  induction hh with
  | nil =>
    rw [List.prefix_nil] at hp
    subst hp
    exact ⟨_, .nil⟩
  | snoc t hi ih =>
    rcases List.prefix_concat_iff.1 hp with rfl | hp
    · exact ⟨_, .snoc t hi⟩
    · exact ih hp

/-- A `create` for the person is in the history. -/
def Seen (h : List (Invocation × Bytes)) (p : Person) : Prop := ∃ e ∈ h, e.1.Creates p

/-- And it answered OK. -/
def Created (h : List (Invocation × Bytes)) (p : Person) : Prop :=
  ∃ e ∈ h, e.1.Creates p ∧ e.2 = Lit.ok.text

/-! ## The law -/

/-- At a point of a history, the three operations agree with what the
history created. -/
def Tracks (D : Deployment) (h : List (Invocation × Bytes)) (l : Ledger) : Prop :=
  ∀ (p : Person) (rest : List Bytes) (x : Bytes) (l' : Ledger),
    (Invokes D l (Lit.create.text :: p.name :: rest) x l' → (x = Lit.exist.text ↔ Created h p)) ∧
    (Invokes D l (Lit.add.text :: p.name :: rest) x l' → (x = Lit.ok.text ↔ Created h p)) ∧
    (Invokes D l (Lit.query.text :: p.name :: rest) x l' → (x ≠ Lit.notfound.text ↔ Created h p))

/-- **Existence is tracked**: the operations agree at every point, at most
one `create` per person answers OK, and none overwrites a record. -/
structure Tracked (D : Deployment) (h : List (Invocation × Bytes)) : Prop where
  tracks : ∀ pre l, pre <+: h → History D pre l → Tracks D pre l
  once : ∀ p : Person, (h.countP fun e => e.1.Creates p ∧ e.2 = Lit.ok.text) ≤ 1
  fresh : ∀ pre i x l, pre ++ [(i, x)] <+: h → History D pre l → i.kind = .create →
    x = Lit.ok.text → l i.person.name = none

/-- **The condition**: a person's first `create` carries an amount that
reads neither as nothing nor as NOTFOUND. -/
def FirstAmounts (h : List (Invocation × Bytes)) : Prop :=
  ∀ pre i x, pre ++ [(i, x)] <+: h → i.kind = .create → ¬ Seen pre i.person →
    i.amount ≠ [] ∧ i.amount ≠ Lit.notfound.text

/-! ## What one invocation does -/

/-- **Everything an invocation can do.** -/
theorem invokes_cases (hi : Invokes D l i.args x l') :
    (i.kind = .create ∧ stored l i.person.name = [] ∧ x = Lit.ok.text ∧
      l' = Function.update l i.person.name (some i.amount)) ∨
    (i.kind = .create ∧ stored l i.person.name ≠ [] ∧ x = Lit.exist.text ∧ l' = l) ∨
    (i.kind = .add ∧ stored l i.person.name ≠ [] ∧
      l' = Function.update l i.person.name (some (sum32 (stored l i.person.name) i.amount))) ∨
    (i.kind ≠ .create ∧ l' = l) := by
  obtain ⟨kind, p, rest⟩ := i
  have hp := p.clip_ne_nil
  cases kind with
  | create =>
    have hs := (invokes_create_iff D hp).1 hi
    rw [p.clip_name] at hs
    rcases hs with ⟨hv, hx, hl⟩ | ⟨hv, hx, hl⟩
    · exact .inr (.inl ⟨rfl, hv, hx, hl⟩)
    · exact .inl ⟨rfl, hv, hx, hl⟩
  | add =>
    have hs := (invokes_add_iff D hp).1 hi
    rw [p.clip_name] at hs
    rcases hs with ⟨-, -, hl⟩ | ⟨hv, -, hl⟩
    · exact .inr (.inr (.inr ⟨by simp, hl⟩))
    · exact .inr (.inr (.inl ⟨rfl, hv, hl⟩))
  | query => exact .inr (.inr (.inr ⟨by simp, ((invokes_query_iff D hp).1 hi).2⟩))

/-- It touches no other person's record. -/
theorem invokes_frame (hi : Invokes D l i.args x l') {q : Bytes} (hq : q ≠ i.person.name) :
    l' q = l q := by
  rcases invokes_cases hi with ⟨-, -, -, rfl⟩ | ⟨-, -, -, rfl⟩ | ⟨-, -, rfl⟩ | ⟨-, rfl⟩
  · exact Function.update_of_ne hq ..
  · rfl
  · exact Function.update_of_ne hq ..
  · rfl

theorem stored_congr {q : Bytes} (hl : l' q = l q) : stored l' q = stored l q := by
  rw [stored, stored, hl]

theorem seen_snoc : Seen (h ++ [(i, x)]) p ↔ Seen h p ∨ i.Creates p := by
  simp [Seen, List.mem_append, or_and_right, exists_or]

theorem created_snoc :
    Created (h ++ [(i, x)]) p ↔ Created h p ∨ i.Creates p ∧ x = Lit.ok.text := by
  simp [Created, List.mem_append, or_and_right, exists_or]

/-- **Only a `create` makes a record.** -/
theorem absent_of_not_seen (hh : History D h l) (hp : ¬ Seen h p) : l p.name = none := by
  induction hh with
  | nil => rfl
  | @snoc h l l' i x t hi ih =>
    rw [seen_snoc, not_or] at hp
    have hnone := ih hp.1
    by_cases hq : p.name = i.person.name
    · rcases invokes_cases hi with ⟨hk, -⟩ | ⟨hk, -⟩ | ⟨-, hv, -⟩ | ⟨-, rfl⟩
      · exact absurd ⟨hk, hq.symm⟩ hp.2
      · exact absurd ⟨hk, hq.symm⟩ hp.2
      · exact absurd (stored_of_none (hq ▸ hnone)) hv
      · exact hnone
    · rw [invokes_frame hi hq, hnone]

/-! ## Under the condition -/

theorem FirstAmounts.of_prefix {h' : List (Invocation × Bytes)} (hf : FirstAmounts h)
    (hp : h' <+: h) : FirstAmounts h' :=
  fun pre i x hpre => hf pre i x (hpre.trans hp)

/-- A record that reads as present. -/
def Present (l : Ledger) (p : Person) : Prop :=
  stored l p.name ≠ [] ∧ stored l p.name ≠ Lit.notfound.text

/-- A numeral is not the text NOTFOUND. -/
theorem sum32_ne_notfound (v a : Bytes) : sum32 v a ≠ Lit.notfound.text := by
  intro he
  have hd := isNumeral_numeral ((leadingValue v + leadingValue a) % 2 ^ 32)
  rw [← sum32, he] at hd
  exact absurd (hd 78 (by decide)) (by decide)

/-- **The invariant**: who was seen exists, and was created. -/
theorem present_of_seen (hh : History D h l) (hf : FirstAmounts h) (hp : Seen h p) :
    Present l p ∧ Created h p := by
  induction hh generalizing p with
  | nil => obtain ⟨e, he, -⟩ := hp; cases he
  | @snoc h l l' i x t hi ih =>
    have ih' := fun {q : Person} => ih (p := q) (hf.of_prefix (List.prefix_append _ _))
    have hfirst := hf h i x (List.prefix_refl _)
    rw [created_snoc]
    by_cases hq : p.name = i.person.name
    · rcases invokes_cases hi with ⟨hk, hv, hx, rfl⟩ | ⟨hk, hv, -, rfl⟩ | ⟨hk, hv, rfl⟩ | ⟨hk, rfl⟩
      · -- an absent record: this is the person's first `create`
        have hns : ¬ Seen h i.person := fun hs => (ih' (q := i.person) hs).1.1 hv
        obtain ⟨hne, hnf⟩ := hfirst hk hns
        have hread :
            stored (Function.update l i.person.name (some i.amount)) p.name = i.amount := by
          rw [hq]
          exact stored_create _
        exact ⟨⟨by rw [hread]; exact hne, by rw [hread]; exact hnf⟩, .inr ⟨⟨hk, hq.symm⟩, hx⟩⟩
      · have hs : Seen h p := by
          by_contra hns
          exact hv (stored_of_none (hq ▸ absent_of_not_seen t hns))
        exact ⟨(ih' hs).1, .inl (ih' hs).2⟩
      · have hs : Seen h p := by
          by_contra hns
          exact hv (stored_of_none (hq ▸ absent_of_not_seen t hns))
        refine ⟨?_, .inl (ih' hs).2⟩
        rw [Present, hq, stored_add]
        exact ⟨numeral_ne_nil _, sum32_ne_notfound _ _⟩
      · have hs : Seen h p := (seen_snoc.1 hp).resolve_right fun hc => hk hc.1
        exact ⟨(ih' hs).1, .inl (ih' hs).2⟩
    · have hs : Seen h p := (seen_snoc.1 hp).resolve_right fun hc => hq hc.2.symm
      rw [Present, stored_congr (invokes_frame hi hq)]
      exact ⟨(ih' hs).1, .inl (ih' hs).2⟩

/-- Who was created was seen. -/
theorem Created.seen (hc : Created h p) : Seen h p := by
  obtain ⟨e, he, hcr, -⟩ := hc
  exact ⟨e, he, hcr⟩

/-- **Under the condition the operations agree**, at every point. -/
theorem tracks_of_firstAmounts (hh : History D h l) (hf : FirstAmounts h) : Tracks D h l := by
  intro p rest x l'
  have hiff : Created h p ↔ stored l p.name ≠ [] := by
    constructor
    · intro hc
      exact (present_of_seen hh hf hc.seen).1.1
    · intro hv
      by_contra hc
      refine hv (stored_of_none (absent_of_not_seen hh fun hs => hc ?_))
      exact (present_of_seen hh hf hs).2
  rw [hiff]
  refine ⟨fun hi => ?_, fun hi => ?_, fun hi => ?_⟩
  · have hs := (invokes_create_iff D p.clip_ne_nil).1 hi
    rw [p.clip_name] at hs
    rcases hs with ⟨hv, rfl, -⟩ | ⟨hv, rfl, -⟩
    · exact iff_of_true rfl hv
    · exact iff_of_false (by decide) (not_not.2 hv)
  · have hs := (invokes_add_iff D p.clip_ne_nil).1 hi
    rw [p.clip_name] at hs
    rcases hs with ⟨hv, rfl, -⟩ | ⟨hv, rfl, -⟩
    · exact iff_of_false (by decide) (not_not.2 hv)
    · exact iff_of_true rfl hv
  · obtain ⟨hx, -⟩ := (invokes_query_iff D p.clip_ne_nil).1 hi
    rw [p.clip_name] at hx
    by_cases hv : stored l p.name = []
    · rw [if_pos hv] at hx
      exact iff_of_false (not_not.2 hx) (not_not.2 hv)
    · rw [if_neg hv] at hx
      rw [hx]
      exact iff_of_true (present_of_seen hh hf (hiff.2 hv).seen).1.2 hv

/-- A `create` that answers OK was the person's first. -/
theorem not_seen_of_ok (hh : History D h l) (hf : FirstAmounts h) (hi : Invokes D l i.args x l')
    (hk : i.kind = .create) (hx : x = Lit.ok.text) : ¬ Seen h i.person := by
  intro hs
  rcases invokes_cases hi with ⟨-, hv, -⟩ | ⟨-, -, he, -⟩ | ⟨hk', -⟩ | ⟨hk', -⟩
  · exact (present_of_seen hh hf hs).1.1 hv
  · exact absurd (hx.symm.trans he) (by decide)
  · rw [hk] at hk'
    cases hk'
  · exact hk' hk

/-- At most one `create` per person answers OK. -/
theorem count_created_le_one (hh : History D h l) (hf : FirstAmounts h) (p : Person) :
    (h.countP fun e => e.1.Creates p ∧ e.2 = Lit.ok.text) ≤ 1 := by
  induction hh with
  | nil => simp
  | @snoc h l l' i x t hi ih =>
    have hf' := hf.of_prefix (List.prefix_append _ _)
    rw [List.countP_append, List.countP_singleton]
    split
    next hc =>
      obtain ⟨⟨hk, hn⟩, hx⟩ := of_decide_eq_true hc
      have hns := not_seen_of_ok t hf' hi hk hx
      have hzero : (h.countP fun e => e.1.Creates p ∧ e.2 = Lit.ok.text) = 0 := by
        rw [List.countP_eq_zero]
        rintro e he hce
        exact hns ⟨e, he, (of_decide_eq_true hce).1.1, (of_decide_eq_true hce).1.2.trans hn.symm⟩
      rw [hzero]
    next => exact ih hf'

/-! ## The condition is needed -/

/-- Right behind a person's first `create` the record is its amount. -/
theorem first_create (hh : History D h l) (hi : Invokes D l i.args x l') (hk : i.kind = .create)
    (hns : ¬ Seen h i.person) : x = Lit.ok.text ∧ stored l' i.person.name = i.amount := by
  have hv := stored_of_none (absent_of_not_seen hh hns)
  rcases invokes_cases hi with ⟨-, -, hx, rfl⟩ | ⟨-, hv', -⟩ | ⟨hk', -⟩ | ⟨hk', -⟩
  · exact ⟨hx, stored_create _⟩
  · exact absurd hv hv'
  · rw [hk] at hk'
    cases hk'
  · exact absurd hk hk'

/-- There, agreement says that the amount is not one of the two. -/
theorem amount_of_tracks {l' : Ledger} (ht : Tracks D (h ++ [(i, x)]) l') (hk : i.kind = .create)
    (hx : x = Lit.ok.text) (hv : stored l' i.person.name = i.amount) :
    i.amount ≠ [] ∧ i.amount ≠ Lit.notfound.text := by
  have hc : Created (h ++ [(i, x)]) i.person := created_snoc.2 (.inr ⟨⟨hk, rfl⟩, hx⟩)
  have hp := i.person.clip_ne_nil
  have hname := i.person.clip_name
  constructor
  · intro he
    -- an empty record would be created once more
    have hagain : Invokes D l' [Lit.create.text, i.person.name] Lit.ok.text
        (Function.update l' (clip 63 i.person.name) (some (clip 63 []))) :=
      (invokes_create_iff D hp).2 (.inr ⟨by rw [hname, hv, he], rfl, rfl⟩)
    exact absurd (((ht i.person [] _ _).1 hagain).2 hc) (by decide)
  · intro he
    -- and one that reads NOTFOUND would be answered as such
    have hquery : Invokes D l' [Lit.query.text, i.person.name] Lit.notfound.text l' :=
      (invokes_query_iff D hp).2 ⟨by rw [hname, hv, he, if_neg (by decide)], rfl⟩
    exact ((ht i.person [] _ _).2.2 hquery).2 hc rfl

/-- **Existence is tracked over a whole history exactly when every
person's first `create` carries an amount that reads neither as nothing
nor as NOTFOUND.** -/
theorem tracked_iff (D : Deployment) {h : List (Invocation × Bytes)} {l : Ledger}
    (hh : History D h l) : Tracked D h ↔ FirstAmounts h := by
  constructor
  · intro ht pre i x hpre hk hns
    obtain ⟨l₁, h₁⟩ := hh.of_prefix hpre
    obtain ⟨l₀, h₀, hi⟩ := h₁.unsnoc
    obtain ⟨hx, hv⟩ := first_create h₀ hi hk hns
    exact amount_of_tracks (ht.tracks _ _ hpre h₁) hk hx hv
  · intro hf
    refine ⟨fun pre l hpre hl => tracks_of_firstAmounts hl (hf.of_prefix hpre),
      count_created_le_one hh hf, fun pre i x l hpre hl hk hx => ?_⟩
    obtain ⟨l₁, h₁⟩ := hh.of_prefix hpre
    obtain ⟨l₀, h₀, hi⟩ := h₁.unsnoc
    have hf' := hf.of_prefix ((List.prefix_append _ _).trans hpre)
    exact absent_of_not_seen hl (not_seen_of_ok h₀ hf' hi hk hx)

/-! ## Two histories -/

/-- A person to create. -/
def alice : Person := ⟨ascii "alice", by decide, by decide, by decide⟩

/-- A history of one `create`. -/
theorem alice_history (v : Bytes) :
    History linkedDeployment [(⟨.create, alice, [v]⟩, Lit.ok.text)] (aliceHas (clip 63 v)) :=
  .snoc (h := []) .nil (alice_create linkedDeployment v)

/-- An amount that is neither. -/
theorem tracked_iff_seven :
    Tracked linkedDeployment [(⟨.create, alice, [ascii "7"]⟩, Lit.ok.text)] := by
  refine (tracked_iff linkedDeployment (alice_history (ascii "7"))).2 ?_
  intro pre i x hpre hk hns
  rcases List.prefix_cons_iff.1 hpre with h | ⟨t, ht, htp⟩
  · simp at h
  · rw [List.prefix_nil] at htp
    subst htp
    obtain ⟨rfl, he⟩ := List.append_inj' (ht.trans (List.nil_append _).symm) rfl
    simp only [List.cons.injEq, Prod.mk.injEq, and_true] at he
    obtain ⟨rfl, rfl⟩ := he
    decide

/-- A record created with an empty amount is created again. -/
theorem empty_amount_not_tracked :
    History linkedDeployment [(⟨.create, alice, [[]]⟩, Lit.ok.text)] (aliceHas []) ∧
      ¬ Tracked linkedDeployment [(⟨.create, alice, [[]]⟩, Lit.ok.text)] := by
  refine ⟨alice_history [], fun ht => ?_⟩
  have hlast := ht.tracks _ _ (List.prefix_refl _) (alice_history [])
  exact (amount_of_tracks (h := []) hlast rfl rfl rfl).1 rfl

end Coffee

end TeeChaincode
