import TeeChaincode.Coffee.Memory
import TeeChaincode.Ta.Natives

/-!
# What each step of the chaincode does

`Does L c w gl s a w' gl' s'`: started with the strings `w` in its
buffers, the scalars `gl` and the session `s`, the code `c` returns `a`
and ends with `w'`, `gl'` and `s'`. The chaincode's functions are
specified one by one, each proof following the text of its function, up
to the four things a `step_resume` can do: open an operation, resume one,
or answer ERROR.
-/

namespace TeeChaincode

namespace Coffee

open Common

variable {L : Layout} {w w' w'' : Static → Bytes} {gl gl' gl'' : Globals}
variable {s s' s'' : Session} {m : Memory} {α β : Type} {a : α} {b : β}

/-- The chaincode's own state: its scalars, and strings in its
buffers. -/
structure At (L : Layout) (w : Static → Bytes) (gl : Globals) (g : Instance Globals) : Prop where
  globals : g.globals = gl
  holds : L.Holds g.mem w

/-- **What a piece of the chaincode does.** -/
def Does (L : Layout) (c : Code α) (w : Static → Bytes) (gl : Globals) (s : Session) (a : α)
    (w' : Static → Bytes) (gl' : Globals) (s' : Session) : Prop :=
  ∀ g, At L w gl g → GuestM.Wp natives c (fun a' g' t => a' = a ∧ At L w' gl' g' ∧ t = s') g s

/-! ## Rules -/

theorem does_pure (L : Layout) (a : α) : Does L (pure a) w gl s a w gl s :=
  fun _ hg => GuestM.wp_pure ⟨rfl, hg, rfl⟩

theorem does_bind {c : Code α} {f : α → Code β} (hc : Does L c w gl s a w' gl' s')
    (hf : Does L (f a) w' gl' s' b w'' gl'' s'') : Does L (c >>= f) w gl s b w'' gl'' s'' := by
  intro g hg
  refine GuestM.wp_bind (GuestM.wp_mono (hc g hg) ?_)
  rintro a' g' t ⟨rfl, hg', rfl⟩
  exact hf g' hg'

/-- Reading memory: what follows may use that it holds the strings. -/
theorem does_mem {f : Memory → Code β}
    (h : ∀ m, L.Holds m w → Does L (f m) w gl s b w' gl' s') :
    Does L (mem >>= f) w gl s b w' gl' s' := by
  intro g hg
  refine GuestM.wp_bind (GuestM.wp_bind (GuestM.wp_get (GuestM.wp_pure ?_)))
  exact h g.mem hg.holds g hg

/-- Reading the scalars. -/
theorem does_globals {f : Globals → Code β} (h : Does L (f gl) w gl s b w' gl' s') :
    Does L (globals >>= f) w gl s b w' gl' s' := by
  intro g hg
  refine GuestM.wp_bind (GuestM.wp_bind (GuestM.wp_get (GuestM.wp_pure ?_)))
  rw [hg.globals]
  exact h g hg

theorem does_modifyGlobals (f : Globals → Globals) :
    Does L (modifyGlobals f) w gl s () w (f gl) s :=
  fun _ hg => GuestM.wp_modify ⟨rfl, ⟨by simp [hg.globals], hg.holds⟩, rfl⟩

theorem does_modifyMem {f : Memory → Memory} (h : ∀ m, L.Holds m w → L.Holds (f m) w') :
    Does L (modifyMem f) w gl s () w' gl s :=
  fun _ hg => GuestM.wp_modify ⟨rfl, ⟨hg.globals, h _ hg.holds⟩, rfl⟩

/-- A native that raises nothing. -/
theorem does_native {c : NativeCall} {r : Int32}
    (h : ∀ m, L.Holds m w → ∃ m', callNative c m s = ⟨r, m', s', none⟩ ∧ L.Holds m' w') :
    Does L (native c) w gl s r w' gl s' := by
  intro g hg
  obtain ⟨m', hc, hm'⟩ := h g.mem hg.holds
  have hn : natives c g s = ⟨r, { g with mem := m' }, s', none⟩ := by
    simp only [natives, hc, Option.map_none]
  refine GuestM.wp_call (by rw [hn]) ?_
  rw [hn]
  exact ⟨rfl, ⟨hg.globals, hm'⟩, rfl⟩

/-- A code whose result is not used. -/
theorem does_ignore {c : Code α} (h : Does L c w gl s a w' gl' s') :
    Does L (do let _ ← c; pure ()) w gl s () w' gl' s' :=
  does_bind h (does_pure L ())

/-! ## Natives on the chaincode's buffers -/

/-- The session with a GET request of the chaincode pending. -/
def pendGet (L : Layout) (s : Session) (key : Bytes) : Session :=
  { s with
    key := Buf.load _ key
    pendingType := .getState
    wasmOutOffset := L.addr .gCurVal
    wasmOutLen := 256 }

/-- The session with a PUT request pending. -/
def pendPut (s : Session) (key value : Bytes) : Session :=
  { s with
    key := Buf.load _ key
    value := Buf.load _ value
    pendingType := .putState
    wasmOutOffset := 0
    wasmOutLen := 0 }

/-- The session with an answer. -/
def answered (s : Session) (x : Bytes) : Session :=
  { s with response := Buf.load _ x, hasResponse := true }

/-- `cc_get_arg` into a buffer of 64 bytes. -/
theorem does_getArg (idx : Int32) {v : Static} (hv : v.size = 64) :
    Does L (native (.ccGetArg idx (L.addr v) 64)) w gl s
      (Int32.ofNat (clip 63 (argText s idx.toInt)).length)
      (Function.update w v (clip 63 (argText s idx.toInt))) gl s := by
  refine does_native fun m hm => ?_
  have hlen : (64 : Int32).toInt.toNat = v.size := hv.symm
  obtain ⟨h1, h2, h3⟩ := copyOut_spec m (L.addr v).toNat 64 (by decide)
    (argText s idx.toInt)
  have hin := hm.addr_add_le v
  refine ⟨_, ?_, hm.update (zero_notMem_clip _ _) ?_ (hlen ▸ h1) (hlen ▸ h2)⟩
  · rw [callNative, ccGetArgNative_eq idx (by decide) (by rw [hlen]; exact hin), h3]
    rfl
  · have := length_clip_le 63 (argText s idx.toInt)
    rw [hv]
    exact Nat.lt_of_le_of_lt this (by omega)

/-- `cc_get_function` into `g_function`. -/
theorem does_getFunction :
    Does L (native (.ccGetFunction (L.addr .gFunction) 64)) w gl s
      (Int32.ofNat (clip 63 s.image).length)
      (Function.update w .gFunction (clip 63 s.image)) gl s := by
  refine does_native fun m hm => ?_
  obtain ⟨h1, h2, h3⟩ := copyOut_spec m (L.addr .gFunction).toNat 64 (by decide) s.image
  have hin := hm.addr_add_le .gFunction
  refine ⟨_, ?_, hm.update (zero_notMem_clip _ _) ?_ h1 h2⟩
  · rw [callNative, ccGetFunctionNative_eq (by decide) hin, h3]
    rfl
  · have := length_clip_le 63 s.image
    exact Nat.lt_of_le_of_lt this (by decide)

/-- A length of the chaincode's own is small. -/
theorem toInt_ofNat_length (hm : L.Holds m w) (v : Static) :
    (Int32.ofNat (w v).length).toInt = (w v).length := by
  have h1 := hm.length_lt v
  have h2 := v.size_le
  exact Int32.toInt_ofNat_of_lt (by omega)

/-- The bytes behind a buffer and the length of what it holds. -/
theorem addressed_static (hm : L.Holds m w) (v : Static) :
    addressed m (L.addr v) (Int32.ofNat (w v).length) = w v := by
  rw [addressed, toInt_ofNat_length hm, Int.toNat_natCast,
    Memory.read_of_pad (hm.static v) (le_of_lt (hm.length_lt v))]

/-- And they lie in memory. -/
theorem static_in (hm : L.Holds m w) (v : Static) :
    (L.addr v).toNat + (Int32.ofNat (w v).length).toInt.toNat ≤ m.size := by
  have h1 := hm.addr_add_le v
  have h2 := hm.length_lt v
  rw [toInt_ofNat_length hm, Int.toNat_natCast]
  omega

theorem nonneg_static (hm : L.Holds m w) (v : Static) :
    0 ≤ (Int32.ofNat (w v).length).toInt := by
  rw [toInt_ofNat_length hm]
  omega

/-- `cc_get_state` with the person's name. -/
theorem does_ccGetState :
    Does L (native (.ccGetState (L.addr .gPerson) (Int32.ofNat (w .gPerson).length)
        (L.addr .gCurVal) 256)) w gl s (Int32.ofNat (w .gPerson).length) w gl
      (pendGet L s (w .gPerson)) := by
  refine does_native fun m hm => ⟨m, ?_, hm⟩
  have hp := hm.length_lt .gPerson
  simp only [Static.size] at hp
  have hin := hm.addr_add_le .gCurVal
  rw [callNative, ccGetStateNative_eq (nonneg_static hm _) (static_in hm _) (by decide) hin,
    addressed_static hm, List.take_of_length_le (by omega), toInt_ofNat_length hm,
    min_eq_left (by omega)]
  rfl

/-- `cc_put_state` with the person's name and the string of a buffer. -/
theorem does_ccPutState (v : Static) :
    Does L (native (.ccPutState (L.addr .gPerson) (Int32.ofNat (w .gPerson).length)
        (L.addr v) (Int32.ofNat (w v).length))) w gl s (-1) w gl
      (pendPut s (w .gPerson) (w v)) := by
  refine does_native fun m hm => ⟨m, ?_, hm⟩
  have hp := hm.length_lt .gPerson
  have hv := hm.length_lt v
  have hv' := v.size_le
  simp only [Static.size] at hp
  rw [callNative, ccPutStateNative_eq (nonneg_static hm _) (static_in hm _) (nonneg_static hm _)
    (static_in hm _), addressed_static hm, addressed_static hm,
    List.take_of_length_le (by omega), List.take_of_length_le (by omega)]
  rfl

/-- `cc_return_response` with a literal. -/
theorem does_ccReturnLit {l : Lit} {n : Int32} (hn : n.toInt.toNat = l.text.length)
    (h0 : 0 ≤ n.toInt) :
    Does L (native (.ccReturnResponse (L.lit l) n)) w gl s (Int32.ofInt (min n.toInt 255)) w gl
      (answered s l.text) := by
  refine does_native fun m hm => ⟨m, ?_, hm⟩
  have hlit := L.lit_in l
  have hread : addressed m (L.lit l) n = l.text := by
    rw [addressed, hn, ← Nat.min_eq_left (Nat.le_succ l.text.length), ← Memory.take_read, hm.lit,
      List.take_append_of_le_length le_rfl, List.take_length]
  have hlen : l.text.length ≤ 255 := by cases l <;> decide
  rw [callNative, ccReturnResponseNative_eq h0 (by rw [hm.size, hn]; omega), hread,
    List.take_of_length_le hlen]
  rfl

/-- `cc_return_response` with the value read. -/
theorem does_ccReturnCurVal :
    Does L (native (.ccReturnResponse (L.addr .gCurVal) (Int32.ofNat (w .gCurVal).length))) w gl s
      (Int32.ofInt (min (Int32.ofNat (w .gCurVal).length).toInt 255)) w gl
      (answered s (w .gCurVal)) := by
  refine does_native fun m hm => ⟨m, ?_, hm⟩
  have hl := hm.length_lt .gCurVal
  simp only [Static.size] at hl
  rw [callNative, ccReturnResponseNative_eq (nonneg_static hm _) (static_in hm _),
    addressed_static hm, List.take_of_length_le (by omega)]
  rfl

/-- **`cc_get_state` for the person.** -/
theorem does_getPersonState :
    Does L (getPersonState L) w gl s (Int32.ofNat (w .gPerson).length) w gl
      (pendGet L s (w .gPerson)) := by
  refine does_mem fun m hm => ?_
  rw [sStrlen_eq hm]
  exact does_ccGetState

/-- **`cc_put_state` for the person**, with the string of a buffer. -/
theorem does_putPersonState (v : Static) :
    Does L (putPersonState L v) w gl s () w gl (pendPut s (w .gPerson) (w v)) := by
  refine does_mem fun m hm => ?_
  rw [sStrlen_eq hm, sStrlen_eq hm]
  exact does_ignore (does_ccPutState v)

/-- **`cc_return_response` with a literal.** -/
theorem does_respondLit {l : Lit} {n : Int32} (hn : n.toInt.toNat = l.text.length)
    (h0 : 0 ≤ n.toInt) : Does L (respondLit L l n) w gl s () w gl (answered s l.text) :=
  does_ignore (does_ccReturnLit hn h0)

/-- **`cc_return_response` with the value read.** -/
theorem does_respondCurVal :
    Does L (do
      let _ ← native (.ccReturnResponse (L.addr .gCurVal) (Int32.ofNat (w .gCurVal).length))
      finish) w gl s () w { gl with fsmState := 0, currentOp := .none }
      (answered s (w .gCurVal)) :=
  does_bind does_ccReturnCurVal (does_modifyGlobals _)

/-! ## The arguments as the chaincode reads them -/

/-- The text of a row of the argument table. -/
def rowText (args : Buf sizeofArguments) (i : ℕ) : Bytes := clip 63 (args.bytes.drop (64 * i))

/-- A scan of at most 63 bytes from the front of a row stays in the
table. -/
theorem clip_image_drop (s : Session) {i : ℕ} (hi : i < argsNumber) :
    clip 63 (s.image.drop (64 * i)) = rowText s.args i := by
  have hlen : s.args.bytes.length = 640 := s.args.size_eq
  have hi' : i < 10 := hi
  rw [rowText, ← cstr_take, ← cstr_take, Session.image]
  simp only [List.append_assoc]
  rw [List.drop_append_of_le_length (by omega),
    List.take_append_of_le_length (by simp only [List.length_drop]; omega)]

theorem clip_image (s : Session) : clip 63 s.image = rowText s.args 0 := by
  simpa using clip_image_drop s (i := 0) (by decide)

theorem clip_argText_zero (s : Session) :
    clip 63 (argText s (0 : Int32).toInt) = rowText s.args 1 :=
  clip_image_drop s (i := 1) (by decide)

theorem clip_argText_one (s : Session) : clip 63 (argText s (1 : Int32).toInt) = rowText s.args 2 :=
  clip_image_drop s (i := 2) (by decide)

/-! ## Opening an operation -/

/-- The strings once an operation has read its arguments. -/
def opened (w : Static → Bytes) (person amount : Bytes) : Static → Bytes
  | .gFunction => w .gFunction
  | .gArg1 => amount
  | .gPerson => person
  | .gCurVal => []
  | .gTmp => w .gTmp

/-- The common start of `create` and `add`: clear the buffers, read both
arguments, ask for the person's state. -/
theorem does_open {f : Int32 → Code Unit}
    (h : Does L (f (Int32.ofNat (rowText s.args 1).length))
      (opened w (rowText s.args 1) (rowText s.args 2)) gl (pendGet L s (rowText s.args 1)) ()
      (opened w (rowText s.args 1) (rowText s.args 2)) gl' s') :
    Does L (do
      modifyMem fun m => sMemset m (L.addr .gPerson) 0 64
      modifyMem fun m => sMemset m (L.addr .gArg1) 0 64
      modifyMem fun m => sMemset m (L.addr .gCurVal) 0 256
      let _ ← native (.ccGetArg 0 (L.addr .gPerson) 64)
      let _ ← native (.ccGetArg 1 (L.addr .gArg1) 64)
      let r ← getPersonState L
      f r) w gl s () (opened w (rowText s.args 1) (rowText s.args 2)) gl' s' := by
  refine does_bind (does_modifyMem fun m hm => hm.sMemset .gPerson) ?_
  refine does_bind (does_modifyMem fun m hm => hm.sMemset .gArg1) ?_
  refine does_bind (does_modifyMem fun m hm => hm.sMemset .gCurVal) ?_
  refine does_bind (does_getArg 0 (v := .gPerson) rfl) ?_
  refine does_bind (does_getArg 1 (v := .gArg1) rfl) ?_
  rw [clip_argText_zero, clip_argText_one]
  -- the five writes, in whatever order, leave the strings of an opened operation
  have hw : (Function.update (Function.update (Function.update (Function.update
      (Function.update w .gPerson []) .gArg1 []) .gCurVal []) .gPerson (rowText s.args 1))
      .gArg1 (rowText s.args 2)) = opened w (rowText s.args 1) (rowText s.args 2) := by
    funext v
    cases v <;> rfl
  rw [hw]
  exact does_bind does_getPersonState h

/-- **`cc_do_create_init`**: the state advances only for a person with a
name. -/
theorem does_createInit :
    Does L (ccDoCreateInit L) w gl s () (opened w (rowText s.args 1) (rowText s.args 2))
      (if rowText s.args 1 = [] then gl else { gl with fsmState := 11, gShouldExit := 1 })
      (pendGet L s (rowText s.args 1)) := by
  refine does_open ?_
  have hlen := length_clip_le 63 (s.args.bytes.drop (64 * 1))
  have hto : (Int32.ofNat (rowText s.args 1).length).toInt = (rowText s.args 1).length :=
    Int32.toInt_ofNat_of_lt (by rw [rowText]; omega)
  by_cases hp : rowText s.args 1 = []
  · rw [if_pos hp, if_neg (by rw [hto, hp]; simp)]
    exact does_pure L ()
  · rw [if_neg hp, if_pos (by rw [hto]; exact_mod_cast List.length_pos_iff.2 hp)]
    exact does_modifyGlobals _

/-- **`cc_do_add_init`.** -/
theorem does_addInit :
    Does L (ccDoAddInit L) w gl s () (opened w (rowText s.args 1) (rowText s.args 2))
      { gl with fsmState := 21 } (pendGet L s (rowText s.args 1)) :=
  does_open (f := fun _ => setFsm 21) (does_modifyGlobals _)

/-- **`cc_do_query_init`**: the amount is not read. -/
theorem does_queryInit :
    Does L (ccDoQueryInit L) w gl s () (opened w (rowText s.args 1) (w .gArg1))
      { gl with fsmState := 31 } (pendGet L s (rowText s.args 1)) := by
  refine does_bind (does_modifyMem fun m hm => hm.sMemset .gPerson) ?_
  refine does_bind (does_modifyMem fun m hm => hm.sMemset .gCurVal) ?_
  refine does_bind (does_getArg 0 (v := .gPerson) rfl) ?_
  rw [clip_argText_zero]
  have hw : (Function.update (Function.update (Function.update w .gPerson []) .gCurVal [])
      .gPerson (rowText s.args 1)) = opened w (rowText s.args 1) (w .gArg1) := by
    funext v
    cases v <;> rfl
  rw [hw]
  exact does_bind does_getPersonState (does_modifyGlobals _)

/-! ## Resuming one -/

/-- Both operations answer with a literal and go idle. -/
theorem does_finish {l : Lit} {n : Int32} (hn : n.toInt.toNat = l.text.length)
    (h0 : 0 ≤ n.toInt) :
    Does L (do respondLit L l n; finish) w gl s () w
      { gl with fsmState := 0, currentOp := .none } (answered s l.text) :=
  does_bind (does_respondLit hn h0) (does_modifyGlobals _)

/-- **`cc_do_create_resume`, with the value read.** -/
theorem does_createResume_get (hf : gl.fsmState = 11) :
    Does L (ccDoCreateResume L) w gl s () w
      (if w .gCurVal = [] then { gl with fsmState := 12 }
        else { gl with fsmState := 0, currentOp := .none })
      (if w .gCurVal = [] then pendPut s (w .gPerson) (w .gArg1)
        else answered s Lit.exist.text) := by
  refine does_globals ?_
  rw [if_pos hf]
  refine does_mem fun m hm => ?_
  by_cases hv : w .gCurVal = []
  · rw [if_neg (not_not.2 ((hm.byte_eq_zero_iff .gCurVal).2 hv)), if_pos hv, if_pos hv]
    exact does_bind (does_putPersonState .gArg1) (does_modifyGlobals _)
  · rw [if_pos (fun h => hv ((hm.byte_eq_zero_iff .gCurVal).1 h)), if_neg hv, if_neg hv]
    exact does_finish rfl (by decide)

/-- **`cc_do_create_resume`, with the value written.** -/
theorem does_createResume_put (hf : gl.fsmState = 12) :
    Does L (ccDoCreateResume L) w gl s () w { gl with fsmState := 0, currentOp := .none }
      (answered s Lit.ok.text) := by
  refine does_globals ?_
  rw [if_neg (by omega), if_pos hf]
  exact does_finish rfl (by decide)

/-- `cc_do_create_resume` in a state that `create` did not advance from
does nothing. -/
theorem does_createResume_stuck (hf : gl.fsmState = 0) :
    Does L (ccDoCreateResume L) w gl s () w gl s := by
  refine does_globals ?_
  rw [if_neg (by omega), if_neg (by omega)]
  exact does_pure L ()

/-- What an `add` writes: the sum modulo `2 ^ 32`. -/
def sum32 (v amount : Bytes) : Bytes :=
  numeral ((leadingValue v + leadingValue amount) % 2 ^ 32)

/-- **`cc_do_add_resume`, with the value read.** -/
theorem does_addResume_get (hf : gl.fsmState = 21) :
    Does L (ccDoAddResume L) w gl s ()
      (if w .gCurVal = [] then w
        else Function.update w .gTmp (sum32 (w .gCurVal) (w .gArg1)))
      (if w .gCurVal = [] then { gl with fsmState := 0, currentOp := .none }
        else { gl with fsmState := 22 })
      (if w .gCurVal = [] then answered s Lit.empty.text
        else pendPut s (w .gPerson) (sum32 (w .gCurVal) (w .gArg1))) := by
  refine does_globals ?_
  rw [if_pos hf]
  refine does_mem fun m hm => ?_
  by_cases hv : w .gCurVal = []
  · rw [if_pos ((hm.byte_eq_zero_iff .gCurVal).2 hv), if_pos hv, if_pos hv, if_pos hv]
    exact does_finish rfl (by decide)
  · rw [if_neg (fun h => hv ((hm.byte_eq_zero_iff .gCurVal).1 h)), if_neg hv, if_neg hv, if_neg hv,
      sAtoul_eq hm, sAtoul_eq hm]
    have hsum : numeral (UInt32.ofNat (leadingValue (w .gCurVal)) +
        UInt32.ofNat (leadingValue (w .gArg1))).toNat = sum32 (w .gCurVal) (w .gArg1) := by
      rw [sum32, ← UInt32.ofNat_add, UInt32.toNat_ofNat']
    have hput : pendPut s (w .gPerson) (sum32 (w .gCurVal) (w .gArg1)) =
        pendPut s (Function.update w .gTmp (sum32 (w .gCurVal) (w .gArg1)) .gPerson)
          (Function.update w .gTmp (sum32 (w .gCurVal) (w .gArg1)) .gTmp) := by
      rw [Function.update_of_ne (by decide), Function.update_self]
    -- clearing `g_tmp` first: what is printed over it is the same
    have hprint : Does L (modifyMem fun m => sUltoa m (UInt32.ofNat (leadingValue (w .gCurVal)) +
        UInt32.ofNat (leadingValue (w .gArg1))) (L.addr .gTmp) 256)
        (Function.update w .gTmp []) gl s ()
        (Function.update w .gTmp (sum32 (w .gCurVal) (w .gArg1))) gl s := by
      refine does_modifyMem fun m hm => ?_
      rw [← hsum, ← Function.update_idem (a := Static.gTmp) (v := ([] : Bytes))]
      exact hm.sUltoa (by simp) _
    refine does_bind (does_modifyMem fun m hm => hm.sMemset .gTmp) (does_bind hprint ?_)
    rw [hput]
    exact does_bind (does_putPersonState .gTmp) (does_modifyGlobals _)

/-- **`cc_do_add_resume`, with the value written.** -/
theorem does_addResume_put (hf : gl.fsmState = 22) :
    Does L (ccDoAddResume L) w gl s () w { gl with fsmState := 0, currentOp := .none }
      (answered s Lit.ok.text) := by
  refine does_globals ?_
  rw [if_neg (by omega), if_pos hf]
  exact does_finish rfl (by decide)

/-- **`cc_do_query_resume`.** -/
theorem does_queryResume (hf : gl.fsmState = 31) :
    Does L (ccDoQueryResume L) w gl s () w { gl with fsmState := 0, currentOp := .none }
      (answered s (if w .gCurVal = [] then Lit.notfound.text else w .gCurVal)) := by
  refine does_globals ?_
  rw [if_pos hf]
  refine does_mem fun m hm => ?_
  by_cases hv : w .gCurVal = []
  · rw [if_pos ((hm.byte_eq_zero_iff .gCurVal).2 hv), if_pos hv]
    exact does_finish rfl (by decide)
  · rw [if_neg (fun h => hv ((hm.byte_eq_zero_iff .gCurVal).1 h)), if_neg hv, sStrlen_eq hm]
    exact does_respondCurVal

/-! ## A whole step -/

/-- `step_resume` clears the exit flag, which nothing reads. -/
def unflag (gl : Globals) : Globals := { gl with gShouldExit := 0 }

/-- **A step with an operation under way resumes it.** -/
theorem does_stepResume_op (hop : gl.currentOp ≠ .none)
    (h : Does L (resumeOp L) w (unflag gl) s () w' gl' s') :
    Does L (stepResume L) w gl s () w' gl' s' := by
  refine does_bind (does_modifyGlobals _) (does_globals ?_)
  rw [if_neg (by simpa using hop)]
  exact h

/-- **A step without one fetches the function name and dispatches on
it**, or answers ERROR where there is no name. -/
theorem does_stepResume_idle (hop : gl.currentOp = .none)
    (hw : w .gFunction = [] ∨ w .gFunction = rowText s.args 0)
    (h : Does L (if rowText s.args 0 = [] then respondLit L .error 5 else dispatch L)
      (Function.update w .gFunction (rowText s.args 0)) (unflag gl) s () w' gl' s') :
    Does L (stepResume L) w gl s () w' gl' s' := by
  refine does_bind (does_modifyGlobals _) (does_globals ?_)
  rw [if_pos (by simpa using hop)]
  have hfetch : Does L (fetchFunction L) w (unflag gl) s ()
      (Function.update w .gFunction (rowText s.args 0)) (unflag gl) s := by
    refine does_mem fun m hm => ?_
    by_cases he : w .gFunction = []
    · rw [if_pos ((hm.byte_eq_zero_iff .gFunction).2 he), ← clip_image]
      exact does_ignore does_getFunction
    · rw [if_neg fun h => he ((hm.byte_eq_zero_iff .gFunction).1 h), ← hw.resolve_left he,
        Function.update_eq_self]
      exact does_pure L ()
  refine does_bind hfetch (does_mem fun m hm => ?_)
  have hbyte := hm.byte_eq_zero_iff .gFunction
  rw [Function.update_self] at hbyte
  by_cases he : rowText s.args 0 = []
  · rw [if_neg (not_not.2 (hbyte.2 he))]
    rw [if_pos he] at h
    refine does_globals ?_
    rw [show (unflag gl).currentOp = .none from hop]
    exact h
  · rw [if_pos fun h => he (hbyte.1 h)]
    rw [if_neg he] at h
    exact h

/-- The dispatch on the name held in `g_function`. -/
theorem does_dispatch
    (hc : w .gFunction = Lit.create.text → Does L (do
      modifyGlobals fun g => { g with currentOp := .create }
      ccDoCreateInit L) w gl s () w' gl' s')
    (ha : w .gFunction = Lit.add.text → Does L (do
      modifyGlobals fun g => { g with currentOp := .add }
      ccDoAddInit L) w gl s () w' gl' s')
    (hq : w .gFunction = Lit.query.text → Does L (do
      modifyGlobals fun g => { g with currentOp := .query }
      ccDoQueryInit L) w gl s () w' gl' s')
    (he : w .gFunction ≠ Lit.create.text → w .gFunction ≠ Lit.add.text →
      w .gFunction ≠ Lit.query.text → Does L (respondLit L .error 5) w gl s () w' gl' s') :
    Does L (dispatch L) w gl s () w' gl' s' := by
  refine does_mem fun m hm => ?_
  simp only [sStreq_eq hm, decide_eq_true_eq]
  by_cases h1 : w .gFunction = Lit.create.text
  · rw [if_pos h1]; exact hc h1
  rw [if_neg h1]
  by_cases h2 : w .gFunction = Lit.add.text
  · rw [if_pos h2]; exact ha h2
  rw [if_neg h2]
  by_cases h3 : w .gFunction = Lit.query.text
  · rw [if_pos h3]; exact hq h3
  rw [if_neg h3]
  exact he h1 h2 h3

end Coffee

end TeeChaincode
