import TeeChaincode.Coffee.Steps
import TeeChaincode.Ta.Commands

/-!
# The chaincode as a machine of eight phases

Between two commands an invocation of the chaincode stands in one of
eight phases. `Phase.next` is the abstract machine: from a phase and the
value the host replied with, the next phase and what the TA asks for. It
reads the function name and the two arguments and nothing else.

`Config` ties a phase to the chaincode's statics and the session, and the
two theorems at the end say that the TA running the chaincode refines the
machine: RUN_WASM on a fresh session enters it, and every RESUME_WASM is
one of its steps.
-/

namespace TeeChaincode

namespace Coffee

open Common

/-! ## The abstract machine -/

/-- Where an invocation stands between two commands. -/
inductive Phase
  /-- No operation under way. -/
  | idle
  /-- `create` waits for the person's value. -/
  | createGet
  /-- `create` waits for its write. -/
  | createPut
  /-- `create` asked for a person without a name: its state machine never
  left its start. -/
  | stuckGet
  | stuck
  | addGet
  | addPut
  | queryGet
deriving DecidableEq, Repr

namespace Phase

/-- The operation of a phase. -/
def op : Phase → Op
  | .idle => .none
  | .createGet | .createPut | .stuckGet | .stuck => .create
  | .addGet | .addPut => .add
  | .queryGet => .query

/-- Its `fsm_state`. -/
def fsm : Phase → ℕ
  | .idle | .stuckGet | .stuck => 0
  | .createGet => 11
  | .createPut => 12
  | .addGet => 21
  | .addPut => 22
  | .queryGet => 31

/-- The request that is pending. -/
def pending : Phase → PendingType
  | .idle | .stuck => .none
  | .createGet | .stuckGet | .addGet | .queryGet => .getState
  | .createPut | .addPut => .putState

/-- The functions and persons a phase is reached for. -/
def Meant (f person : Bytes) : Phase → Prop
  | .idle => True
  | .createGet | .createPut => f = Lit.create.text ∧ person ≠ []
  | .stuckGet | .stuck => f = Lit.create.text ∧ person = []
  | .addGet | .addPut => f = Lit.add.text
  | .queryGet => f = Lit.query.text

/-- What an idle chaincode does: open the operation the function
names. -/
def start (f person : Bytes) : Phase × Ask :=
  if f = Lit.create.text then (if person = [] then .stuckGet else .createGet, .get person)
  else if f = Lit.add.text then (.addGet, .get person)
  else if f = Lit.query.text then (.queryGet, .get person)
  else (.idle, .answer Lit.error.text)

/-- **The machine.** `v` is the value the host replied with. -/
def next (f person amount : Bytes) : Phase → Bytes → Phase × Ask
  | .idle, _ => start f person
  | .createGet, v =>
    if v = [] then (.createPut, .put person amount) else (.idle, .answer Lit.exist.text)
  | .createPut, _ => (.idle, .answer Lit.ok.text)
  | .stuckGet, _ | .stuck, _ => (.stuck, .answer (ascii "NO_RESPONSE"))
  | .addGet, v =>
    if v = [] then (.idle, .answer Lit.empty.text) else (.addPut, .put person (sum32 v amount))
  | .addPut, _ => (.idle, .answer Lit.ok.text)
  | .queryGet, v => (.idle, .answer (if v = [] then Lit.notfound.text else v))

end Phase

/-! ## Configurations -/

variable {L : Layout} {w w' : Static → Bytes} {gl gl' : Globals} {s s' : Session}
variable {args : Buf sizeofArguments} {ph ph' : Phase} {v : Bytes}

/-- The statics and the session of an invocation in a phase. -/
structure Config (L : Layout) (args : Buf sizeofArguments) (ph : Phase) (w : Static → Bytes)
    (gl : Globals) (s : Session) : Prop where
  args_eq : s.args = args
  runtime : s.runtime = true
  /-- The function name is fetched once. -/
  function : w .gFunction = [] ∨ w .gFunction = rowText args 0
  op : gl.currentOp = ph.op
  fsm : gl.fsmState = ph.fsm
  pending : s.pendingType = ph.pending
  /-- A pending GET goes to the cleared `g_cur_val`. -/
  out : ph.pending = .getState →
    s.wasmOutOffset = L.addr .gCurVal ∧ s.wasmOutLen = 256 ∧ w .gCurVal = []
  person : ph.op ≠ .none → w .gPerson = rowText args 1
  amount : ph.op = .create ∨ ph.op = .add → w .gArg1 = rowText args 2
  meant : ph.Meant (rowText args 0) (rowText args 1)
  /-- A `create` for nobody never answers. -/
  silent : rowText args 0 = Lit.create.text → rowText args 1 = [] → s.hasResponse = false

/-- The strings with the host's reply copied. -/
def replied (ph : Phase) (w : Static → Bytes) (v : Bytes) : Static → Bytes :=
  if ph.pending = .getState then Function.update w .gCurVal v else w

/-- What a session that has answered calls for. -/
theorem asked_answered (h : s.pendingType = .none) {x : Bytes} (h0 : (0 : UInt8) ∉ x)
    (hl : x.length ≤ 255) (hne : x ≠ []) : asked (answered s x) = .answer x := by
  have hx : clip 255 (answered s x).response.bytes = x := clip_pad h0 hl (by decide)
  have hp : (answered s x).pendingType = .none := h
  rw [asked, hp]
  simp only [finalResponse_eq, hx, if_neg hne]
  rfl

theorem asked_pendGet {key : Bytes} (h0 : (0 : UInt8) ∉ key) (hl : key.length ≤ 63) :
    asked (pendGet L s key) = .get key := by
  have hk : clip 63 (pendGet L s key).key.bytes = key := clip_pad h0 hl (by decide)
  exact congrArg Ask.get hk

theorem asked_pendPut {key value : Bytes} (h0 : (0 : UInt8) ∉ key) (hl : key.length ≤ 63)
    (hv0 : (0 : UInt8) ∉ value) (hvl : value.length ≤ 255) :
    asked (pendPut s key value) = .put key value := by
  have hk : clip 63 (pendPut s key value).key.bytes = key := clip_pad h0 hl (by decide)
  have hv : clip 255 (pendPut s key value).value.bytes = value := clip_pad hv0 hvl (by decide)
  exact congrArg₂ Ask.put hk hv

/-- A row of the argument table is a short C string. -/
theorem zero_notMem_rowText (i : ℕ) : (0 : UInt8) ∉ rowText args i := zero_notMem_clip _ _

theorem length_rowText_le (i : ℕ) : (rowText args i).length ≤ 63 := length_clip_le _ _

theorem asked_pendGet_person : asked (pendGet L s (rowText args 1)) = .get (rowText args 1) :=
  asked_pendGet (zero_notMem_rowText 1) (length_rowText_le 1)

/-- A literal is a valid answer. -/
theorem asked_answered_lit (h : s.pendingType = .none) (l : Lit) :
    asked (answered s l.text) = .answer l.text :=
  asked_answered h l.zero_notMem (by cases l <;> decide) l.text_ne_nil

/-! ## One step of the machine -/

/-- What a step of the chaincode in a phase comes to. -/
def Steps (L : Layout) (args : Buf sizeofArguments) (w : Static → Bytes) (gl : Globals)
    (s : Session) (r : Phase × Ask) : Prop :=
  ∃ w' gl' s', Does L (stepResume L) w gl s () w' gl' s' ∧ Config L args r.1 w' gl' s' ∧
    asked s' = r.2

/-- Every operation opens with the person's state asked for. -/
theorem Config.opened (h : Config L args .idle w gl s) (ph : Phase) {op : Op} {fsm exit : ℕ}
    (hp : ph.pending = .getState) (hop : ph.op = op) (hf : ph.fsm = fsm)
    (hm : ph.Meant (rowText args 0) (rowText args 1)) {amount : Bytes}
    (ha : op = .create ∨ op = .add → amount = rowText args 2) :
    Config L args ph
      (opened (Function.update w .gFunction (rowText args 0)) (rowText args 1) amount)
      ⟨fsm, op, exit⟩ (pendGet L s (rowText args 1)) where
  args_eq := h.args_eq
  runtime := h.runtime
  function := .inr (by simp [Coffee.opened])
  op := hop.symm
  fsm := hf.symm
  pending := hp.symm
  out _ := ⟨rfl, rfl, rfl⟩
  person _ := rfl
  amount hor := ha (hop ▸ hor)
  meant := hm
  silent := h.silent

/-- An idle step with a function name is its dispatch. -/
theorem Config.steps_dispatch (h : Config L args .idle w gl s) {r : Phase × Ask}
    (hne : rowText args 0 ≠ [])
    (hd : Does L (dispatch L) (Function.update w .gFunction (rowText args 0)) (unflag gl) s ()
      w' gl' s') (hc : Config L args r.1 w' gl' s') (ha : asked s' = r.2) :
    Steps L args w gl s r := by
  have hargs := h.args_eq
  subst hargs
  refine ⟨w', gl', s', does_stepResume_idle h.op h.function ?_, hc, ha⟩
  rw [if_neg hne]
  exact hd

/-- **From idle.** -/
theorem steps_idle (h : Config L args .idle w gl s) :
    Steps L args w gl s (Phase.start (rowText args 0) (rowText args 1)) := by
  have hargs := h.args_eq
  subst hargs
  have hfn : Function.update w .gFunction (rowText s.args 0) .gFunction = rowText s.args 0 :=
    Function.update_self ..
  have hne : ∀ l : Lit, rowText s.args 0 = l.text → rowText s.args 0 ≠ [] :=
    fun l hl => hl ▸ l.text_ne_nil
  rw [Phase.start]
  by_cases hc : rowText s.args 0 = Lit.create.text
  · rw [if_pos hc]
    refine h.steps_dispatch (hne _ hc) (does_dispatch (fun _ => does_bind (does_modifyGlobals _)
      does_createInit) ?_ ?_ ?_) ?_ asked_pendGet_person
    · rw [hfn, hc]; intro he; exact absurd he (by decide)
    · rw [hfn, hc]; intro he; exact absurd he (by decide)
    · rw [hfn, hc]; intro he; exact absurd rfl he
    · by_cases hp : rowText s.args 1 = []
      · rw [if_pos hp, if_pos hp]
        exact h.opened .stuckGet rfl rfl h.fsm.symm ⟨hc, hp⟩ fun _ => rfl
      · rw [if_neg hp, if_neg hp]
        exact h.opened .createGet rfl rfl rfl ⟨hc, hp⟩ fun _ => rfl
  rw [if_neg hc]
  by_cases ha : rowText s.args 0 = Lit.add.text
  · rw [if_pos ha]
    refine h.steps_dispatch (hne _ ha) (does_dispatch ?_ (fun _ => does_bind (does_modifyGlobals _)
      does_addInit) ?_ ?_) (h.opened .addGet rfl rfl rfl ha fun _ => rfl) asked_pendGet_person
    · rw [hfn, ha]; intro he; exact absurd he (by decide)
    · rw [hfn, ha]; intro he; exact absurd he (by decide)
    · rw [hfn, ha]; intro _ he; exact absurd rfl he
  rw [if_neg ha]
  by_cases hq : rowText s.args 0 = Lit.query.text
  · rw [if_pos hq]
    refine h.steps_dispatch (hne _ hq) (does_dispatch ?_ ?_ (fun _ => does_bind
      (does_modifyGlobals _) does_queryInit) ?_) (h.opened .queryGet rfl rfl rfl hq ?_)
      asked_pendGet_person
    · rw [hfn, hq]; intro he; exact absurd he (by decide)
    · rw [hfn, hq]; intro he; exact absurd he (by decide)
    · rw [hfn, hq]; intro _ _ he; exact absurd rfl he
    · intro hor
      rcases hor with hor | hor <;> cases hor
  rw [if_neg hq]
  refine ⟨Function.update w .gFunction (rowText s.args 0), unflag gl, answered s Lit.error.text,
    does_stepResume_idle h.op h.function ?_, ?_, asked_answered_lit h.pending .error⟩
  · split
    · exact does_respondLit rfl (by decide)
    · refine does_dispatch ?_ ?_ ?_ (fun _ _ _ => does_respondLit rfl (by decide)) <;> rw [hfn]
      · intro he; exact absurd he hc
      · intro he; exact absurd he ha
      · intro he; exact absurd he hq
  · exact {
      args_eq := rfl
      runtime := h.runtime
      function := .inr hfn
      op := h.op
      fsm := h.fsm
      pending := h.pending
      out := fun he => by cases he
      person := fun he => absurd rfl he
      amount := fun he => by rcases he with he | he <;> cases he
      meant := trivial
      silent := fun he => absurd he hc }

/-! ### Resuming -/

/-- A step with `create`, `add` or `query` under way. -/
theorem does_stepResume_create (hop : gl.currentOp = .create)
    (h : Does L (ccDoCreateResume L) w (unflag gl) s () w' gl' s') :
    Does L (stepResume L) w gl s () w' gl' s' := by
  refine does_stepResume_op (by simp [hop]) (does_globals ?_)
  rw [show (unflag gl).currentOp = .create from hop]
  exact h

theorem does_stepResume_add (hop : gl.currentOp = .add)
    (h : Does L (ccDoAddResume L) w (unflag gl) s () w' gl' s') :
    Does L (stepResume L) w gl s () w' gl' s' := by
  refine does_stepResume_op (by simp [hop]) (does_globals ?_)
  rw [show (unflag gl).currentOp = .add from hop]
  exact h

theorem does_stepResume_query (hop : gl.currentOp = .query)
    (h : Does L (ccDoQueryResume L) w (unflag gl) s () w' gl' s') :
    Does L (stepResume L) w gl s () w' gl' s' := by
  refine does_stepResume_op (by simp [hop]) (does_globals ?_)
  rw [show (unflag gl).currentOp = .query from hop]
  exact h

theorem replied_of_ne {u : Static} (hu : u ≠ .gCurVal) : replied ph w v u = w u := by
  rw [replied]
  split
  · exact Function.update_of_ne hu ..
  · rfl

theorem replied_gCurVal (h : ph.pending = .getState) : replied ph w v .gCurVal = v := by
  rw [replied, if_pos h, Function.update_self]

/-- The exit flag is no part of the state machine. -/
theorem Config.unflag_fsm (h : Config L args ph w gl s) : (unflag gl).fsmState = ph.fsm := h.fsm

/-- Answering ends the operation. -/
theorem Config.answered (h : Config L args ph w gl s) {exit : ℕ} {x : Bytes}
    (hw : w' .gFunction = w .gFunction)
    (hm : rowText args 0 = Lit.create.text → rowText args 1 ≠ []) :
    Config L args .idle w' ⟨0, .none, exit⟩ (answered s.drained x) where
  args_eq := (Session.drained_args s).trans h.args_eq
  runtime := (Session.drained_runtime s).trans h.runtime
  function := by rw [hw]; exact h.function
  op := rfl
  fsm := rfl
  pending := Session.drained_pendingType s
  out he := by cases he
  person he := absurd rfl he
  amount he := by rcases he with he | he <;> cases he
  meant := trivial
  silent hf hp := absurd hp (hm hf)

/-- Writing keeps it. -/
theorem Config.wrote (h : Config L args ph w gl s) (ph' : Phase) {key value : Bytes}
    (hw : ∀ u, u ≠ .gTmp → u ≠ .gCurVal → w' u = w u) (hop : ph'.op = ph.op)
    (hgop : gl'.currentOp = ph'.op) (hfsm : gl'.fsmState = ph'.fsm)
    (hne : ph.op ≠ .none) (hp : ph'.pending = .putState)
    (hm : ph'.Meant (rowText args 0) (rowText args 1)) :
    Config L args ph' w' gl' (pendPut s.drained key value) where
  args_eq := (Session.drained_args s).trans h.args_eq
  runtime := (Session.drained_runtime s).trans h.runtime
  function := by rw [hw _ (by decide) (by decide)]; exact h.function
  op := hgop
  fsm := hfsm
  pending := hp.symm
  out he := by rw [hp] at he; cases he
  person _ := by rw [hw _ (by decide) (by decide)]; exact h.person hne
  amount he := by rw [hw _ (by decide) (by decide)]; exact h.amount (hop ▸ he)
  meant := hm
  silent hf hp := (Session.drained_hasResponse s).trans (h.silent hf hp)

/-- Literals are told apart. -/
theorem Lit.text_ne_create {f : Bytes} {l : Lit} (h : f = l.text) (hl : l = .add ∨ l = .query) :
    f ≠ Lit.create.text := by
  subst h
  rcases hl with rfl | rfl <;> decide

/-- **`create`, with the person's value.** -/
theorem steps_createGet (h : Config L args .createGet w gl s) :
    Steps L args (replied .createGet w v) gl s.drained
      (Phase.next (rowText args 0) (rowText args 1) (rowText args 2) .createGet v) := by
  have hd := does_stepResume_create (w := replied .createGet w v) (s := s.drained) h.op
    (does_createResume_get (L := L) h.unflag_fsm)
  rw [replied_gCurVal rfl, replied_of_ne (by decide), replied_of_ne (by decide),
    h.person (by decide), h.amount (.inl rfl)] at hd
  rw [Phase.next]
  by_cases hv : v = []
  · rw [if_pos hv, if_pos hv] at hd
    rw [if_pos hv]
    exact ⟨_, _, _, hd, h.wrote .createPut (fun u _ hu => replied_of_ne hu) rfl h.op rfl
      (by decide) rfl h.meant, asked_pendPut (zero_notMem_rowText 1) (length_rowText_le 1)
      (zero_notMem_rowText 2) (le_trans (length_rowText_le 2) (by omega))⟩
  · rw [if_neg hv, if_neg hv] at hd
    rw [if_neg hv]
    exact ⟨_, _, _, hd, h.answered (replied_of_ne (by decide)) fun _ => h.meant.2,
      asked_answered_lit (Session.drained_pendingType s) .exist⟩

/-- **`create`, with its write acknowledged.** -/
theorem steps_createPut (h : Config L args .createPut w gl s) :
    Steps L args w gl s.drained (.idle, .answer Lit.ok.text) :=
  ⟨_, _, _, does_stepResume_create h.op (does_createResume_put (L := L) h.unflag_fsm),
    h.answered rfl fun _ => h.meant.2, asked_answered_lit (Session.drained_pendingType s) .ok⟩

/-- **`create` for nobody**: nothing happens, and nothing has been
answered. -/
theorem steps_stuck (h : Config L args ph w gl s) (hph : ph = .stuckGet ∨ ph = .stuck) :
    Steps L args (replied ph w v) gl s.drained (.stuck, .answer (ascii "NO_RESPONSE")) := by
  have hop : ph.op = .create := by rcases hph with rfl | rfl <;> rfl
  have hfsm : ph.fsm = 0 := by rcases hph with rfl | rfl <;> rfl
  have hm : rowText args 0 = Lit.create.text ∧ rowText args 1 = [] := by
    rcases hph with rfl | rfl <;> exact h.meant
  have hresp : s.drained.hasResponse = false :=
    (Session.drained_hasResponse s).trans (h.silent hm.1 hm.2)
  refine ⟨_, _, _, does_stepResume_create (h.op.trans hop) (does_createResume_stuck (L := L)
    (h.unflag_fsm.trans hfsm)), ?_, ?_⟩
  · exact {
      args_eq := (Session.drained_args s).trans h.args_eq
      runtime := (Session.drained_runtime s).trans h.runtime
      function := by rw [replied_of_ne (by decide)]; exact h.function
      op := h.op.trans hop
      fsm := h.fsm.trans hfsm
      pending := Session.drained_pendingType s
      out := fun he => by cases he
      person := fun _ => by
        rw [replied_of_ne (by decide)]
        exact h.person (by rw [hop]; decide)
      amount := fun _ => by rw [replied_of_ne (by decide)]; exact h.amount (.inl hop)
      meant := hm
      silent := fun _ _ => hresp }
  · rw [asked, Session.drained_pendingType]
    simp only [finalResponse_eq, hresp, Bool.false_eq_true, if_false]

/-- What `add` writes fits every buffer it goes through. -/
theorem length_sum32 (a b : Bytes) : (sum32 a b).length ≤ 10 :=
  length_numeral_le (lt_of_lt_of_le (Nat.mod_lt _ (by omega)) (by norm_num)) (by omega)

/-- **`add`, with the person's value.** -/
theorem steps_addGet (h : Config L args .addGet w gl s) :
    Steps L args (replied .addGet w v) gl s.drained
      (Phase.next (rowText args 0) (rowText args 1) (rowText args 2) .addGet v) := by
  have hd := does_stepResume_add (w := replied .addGet w v) (s := s.drained) h.op
    (does_addResume_get (L := L) h.unflag_fsm)
  rw [replied_gCurVal rfl, replied_of_ne (u := .gPerson) (by decide),
    replied_of_ne (u := .gArg1) (by decide), h.person (by decide), h.amount (.inr rfl)] at hd
  rw [Phase.next]
  by_cases hv : v = []
  · rw [if_pos hv, if_pos hv, if_pos hv] at hd
    rw [if_pos hv]
    exact ⟨_, _, _, hd, h.answered (replied_of_ne (by decide)) fun hf =>
      absurd hf (Lit.text_ne_create h.meant (.inl rfl)),
      asked_answered_lit (Session.drained_pendingType s) .empty⟩
  · rw [if_neg hv, if_neg hv, if_neg hv] at hd
    rw [if_neg hv]
    refine ⟨_, _, _, hd, h.wrote .addPut (fun u ht hu => ?_) rfl h.op rfl (by decide) rfl h.meant,
      asked_pendPut (zero_notMem_rowText 1) (length_rowText_le 1)
      (isNumeral_numeral _).zero_notMem (le_trans (length_sum32 _ _) (by omega))⟩
    rw [Function.update_of_ne ht, replied_of_ne hu]

/-- **`add`, with its write acknowledged.** -/
theorem steps_addPut (h : Config L args .addPut w gl s) :
    Steps L args w gl s.drained (.idle, .answer Lit.ok.text) :=
  ⟨_, _, _, does_stepResume_add h.op (does_addResume_put (L := L) h.unflag_fsm),
    h.answered rfl fun hf => absurd hf (Lit.text_ne_create h.meant (.inl rfl)),
    asked_answered_lit (Session.drained_pendingType s) .ok⟩

/-- **`query`, with the person's value.** -/
theorem steps_queryGet (h : Config L args .queryGet w gl s) (hv0 : (0 : UInt8) ∉ v)
    (hvl : v.length ≤ 255) :
    Steps L args (replied .queryGet w v) gl s.drained
      (.idle, .answer (if v = [] then Lit.notfound.text else v)) := by
  have hd := does_stepResume_query (w := replied .queryGet w v) (s := s.drained) h.op
    (does_queryResume (L := L) h.unflag_fsm)
  rw [replied_gCurVal rfl] at hd
  refine ⟨_, _, _, hd, h.answered (replied_of_ne (by decide)) fun hf =>
    absurd hf (Lit.text_ne_create h.meant (.inr rfl)), ?_⟩
  by_cases hv : v = []
  · rw [if_pos hv]
    exact asked_answered_lit (Session.drained_pendingType s) .notfound
  · rw [if_neg hv]
    exact asked_answered (Session.drained_pendingType s) hv0 hvl hv

/-- **One step of the chaincode is one step of the machine.** -/
theorem steps_next (h : Config L args ph w gl s) (hv0 : (0 : UInt8) ∉ v) (hvl : v.length ≤ 255) :
    Steps L args (replied ph w v) gl s.drained
      (ph.next (rowText args 0) (rowText args 1) (rowText args 2) v) := by
  cases ph with
  | idle =>
    have hs : s.drained = s := by rw [Session.drained, h.pending]; rfl
    rw [hs]
    exact steps_idle h
  | createGet => exact steps_createGet h
  | createPut => exact steps_createPut h
  | stuckGet => exact steps_stuck h (.inl rfl)
  | stuck => exact steps_stuck h (.inr rfl)
  | addGet => exact steps_addGet h
  | addPut => exact steps_addPut h
  | queryGet => exact steps_queryGet h hv0 hvl

end Coffee

end TeeChaincode
