import TeeChaincode.Coffee.Refinement

/-!
# Invocations as steps of the ledger

A deployment is a wrapper and a proxy configured for the chaincode.
`Invokes D l args x l'` says that an invocation in which nothing fails,
run to its end on the ledger `l`, succeeds with payload `x` and commits
`l'`. The refinement makes it a function: `invokes_iff` gives it as the
specification, and the results over whole histories are proved from
there.
-/

namespace TeeChaincode

namespace Coffee

open Common

/-- A wrapper and a proxy set up to run the chaincode. -/
structure Deployment where
  layout : Layout
  load : Loader Globals
  files : Bytes → Option Bytes
  uuid : Bytes
  ccfile : Bytes
  wasm : Bytes
  /-- The proxy finds the module where the wrapper says it is. -/
  file_eq : files ccfile = some wasm
  /-- And it is the chaincode. -/
  load_eq : load wasm = some (coffee layout)

/-- The deployment of the linked chaincode. -/
def linkedDeployment : Deployment :=
  ⟨linked, linkedLoader, linkedFiles, [], [], smallestWasm, rfl, rfl⟩

variable (D : Deployment) {l l' : Ledger} {f person x : Bytes} {rest : List Bytes}

/-- A step of an invocation in which nothing fails. -/
abbrev Deployment.Step : Sys (TaRun Globals) → Sys (TaRun Globals) → Prop :=
  OkStep (taTee D.load) D.files Env.ok

/-- An invocation on a ledger, from a freshly opened session. -/
def Deployment.start (args : List Bytes) (l : Ledger) : Sys (TaRun Globals) :=
  Sys.init freshRun D.uuid D.ccfile args l

/-- **An invocation run to its end**: it succeeds with a payload and
commits a ledger. -/
def Invokes (l : Ledger) (args : List Bytes) (x : Bytes) (l' : Ledger) : Prop :=
  ∃ s, Relation.ReflTransGen D.Step (D.start args l) s ∧ (∀ s', ¬ D.Step s s') ∧
    s.wrapper = .done (.success x) ∧ s.stub.commit = l'

/-- Where every run settles on one result, that is the result. -/
theorem invokes_of_ends {args : List Bytes} {r : Bytes × Ledger}
    (h : Ends D.Step (Settled r) (D.start args l)) : Invokes D l args x l' ↔ r = (x, l') := by
  constructor
  · rintro ⟨s, hrun, hstop, hw, hl⟩
    obtain ⟨hw', -, hl'⟩ := h.stop s hrun hstop
    rw [hw'] at hw
    simp only [Wrapper.done.injEq, ShimResponse.success.injEq] at hw
    exact Prod.ext hw (hl'.symm.trans hl)
  · rintro rfl
    obtain ⟨s, hrun, hstop, hw, -, hl⟩ := h.exists_stop
    exact ⟨s, hrun, hstop, hw, hl⟩

/-- An invocation is a step of the specification, but for a `create` for
nobody. -/
theorem invokes_somebody_iff (hp : clip 63 f = Lit.create.text → clip 63 person ≠ []) :
    Invokes D l (f :: person :: rest) x l' ↔
      spec l (clip 63 f) (clip 63 person) (clip 63 (rest.getD 0 [])) = (x, l') := by
  refine invokes_of_ends D ?_
  refine ends_invocation D.uuid D.file_eq D.load_eq l f person rest
    fun args s t h0 h1 h2 h hin => ?_
  rw [← h0, ← h1, ← h2]
  exact ends_start (by rw [h0, h1]; exact hp) h hin

/-- **An invocation is a step of the specification.** -/
theorem invokes_iff (hp : clip 63 person ≠ []) :
    Invokes D l (f :: person :: rest) x l' ↔
      spec l (clip 63 f) (clip 63 person) (clip 63 (rest.getD 0 [])) = (x, l') :=
  invokes_somebody_iff D fun _ => hp

/-- **A `create` for nobody is not answered.** -/
theorem invokes_nobody_iff (hf : clip 63 f = Lit.create.text) (hp : clip 63 person = []) :
    Invokes D l (f :: person :: rest) x l' ↔ (ascii "NO_RESPONSE", l) = (x, l') := by
  refine invokes_of_ends D ?_
  refine ends_invocation D.uuid D.file_eq D.load_eq l f person rest
    fun args s t h0 h1 _ h hin => ?_
  exact ends_start_nobody (h0.trans hf) (h1.trans hp) h hin

theorem clip_lit (l : Lit) : clip 63 l.text = l.text := by
  cases l <;> decide

/-- **What `create` answers and writes.** -/
theorem invokes_create_iff (hp : clip 63 person ≠ []) :
    Invokes D l (Lit.create.text :: person :: rest) x l' ↔
      stored l (clip 63 person) ≠ [] ∧ x = Lit.exist.text ∧ l' = l ∨
      stored l (clip 63 person) = [] ∧ x = Lit.ok.text ∧
        l' = Function.update l (clip 63 person) (some (clip 63 (rest.getD 0 []))) := by
  rw [invokes_iff D hp, clip_lit, spec, if_pos rfl]
  by_cases hv : stored l (clip 63 person) = []
  · simp [hv, eq_comm]
  · simp [hv, eq_comm]

/-- **What `add` answers and writes.** -/
theorem invokes_add_iff (hp : clip 63 person ≠ []) :
    Invokes D l (Lit.add.text :: person :: rest) x l' ↔
      stored l (clip 63 person) = [] ∧ x = Lit.empty.text ∧ l' = l ∨
      stored l (clip 63 person) ≠ [] ∧ x = Lit.ok.text ∧
        l' = Function.update l (clip 63 person)
          (some (sum32 (stored l (clip 63 person)) (clip 63 (rest.getD 0 [])))) := by
  rw [invokes_iff D hp, clip_lit, spec, if_neg (by decide), if_pos rfl]
  by_cases hv : stored l (clip 63 person) = []
  · simp [hv, eq_comm]
  · simp [hv, eq_comm]

/-- **What `query` answers.** -/
theorem invokes_query_iff (hp : clip 63 person ≠ []) :
    Invokes D l (Lit.query.text :: person :: rest) x l' ↔
      x = (if stored l (clip 63 person) = [] then Lit.notfound.text
        else stored l (clip 63 person)) ∧ l' = l := by
  rw [invokes_iff D hp, clip_lit, spec, if_neg (by decide), if_neg (by decide), if_pos rfl,
    Prod.mk.injEq, eq_comm (b := x), eq_comm (b := l')]

/-! ## Records -/

/-- A record short enough to be replied reads as itself. -/
theorem stored_update {v : Bytes} (h0 : (0 : UInt8) ∉ v) (hl : v.length < valSize) :
    stored (Function.update l person (some v)) person = v := by
  rw [stored, Function.update_self, Option.getD_some, replyValue, if_pos hl, cstr_eq_self h0]

theorem stored_of_none (h : l person = none) : stored l person = [] := by
  rw [stored, h, Option.getD_none]
  rfl

/-- What `create` writes reads as itself. -/
theorem stored_create (a : Bytes) :
    stored (Function.update l person (some (clip 63 a))) person = clip 63 a :=
  stored_update (zero_notMem_clip 63 a)
    (lt_of_le_of_lt (length_clip_le 63 a) (by decide))

/-- What `add` writes reads as itself. -/
theorem stored_add (v a : Bytes) :
    stored (Function.update l person (some (sum32 v a))) person = sum32 v a :=
  stored_update (isNumeral_numeral _).zero_notMem
    (lt_of_le_of_lt (length_sum32 v a) (by decide))

end Coffee

end TeeChaincode
