import TeeChaincode.Common.Numeral
import TeeChaincode.Model.Natives

/-!
# The coffee chaincode

`coffee_chaincode_wasm.c`, as a module the TA runs. The character arrays
live in linear memory, where the natives and the TA reach them; the
scalars are globals, since no pointer to them is ever passed on. Where
the linker puts the arrays and the string literals is not fixed by the
source: a `Layout` is any placement a linker may choose, carried with the
facts every placement satisfies.

`unsigned long` is 32 bits wide on wasm32.
-/

namespace TeeChaincode

namespace Coffee

open Common

/-! ## Globals and layout -/

/-- `enum Op`. -/
inductive Op
  | none
  | create
  | add
  | query
deriving DecidableEq, Repr

/-- The scalar statics. -/
structure Globals where
  fsmState : ℕ
  currentOp : Op
  gShouldExit : ℕ
deriving DecidableEq, Repr

/-- The character arrays. `g_arg0` is declared and never used. -/
inductive Static
  | gFunction
  | gArg1
  | gPerson
  | gCurVal
  | gTmp
deriving DecidableEq, Repr

/-- `KEY_MAX`, `ARG_MAX` and `VAL_MAX`. -/
def Static.size : Static → ℕ
  | .gFunction => 64
  | .gArg1 => 64
  | .gPerson => 64
  | .gCurVal => 256
  | .gTmp => 256

/-- The string literals. -/
inductive Lit
  | create
  | add
  | query
  | exist
  | ok
  | empty
  | notfound
  | error
deriving DecidableEq, Repr

/-- Their texts. -/
def Lit.text : Lit → Bytes
  | .create => ascii "create"
  | .add => ascii "add"
  | .query => ascii "query"
  | .exist => ascii "EXIST"
  | .ok => ascii "OK"
  | .empty => ascii "EMPTY"
  | .notfound => ascii "NOTFOUND"
  | .error => ascii "ERROR"

/-- A placement of arrays and literals in linear memory. -/
structure Layout where
  /-- Linear memory after instantiation. -/
  image : Memory
  addr : Static → UInt32
  lit : Lit → UInt32
  /-- With `--stack-first` no object sits at address `0`. -/
  addr_ne_zero : ∀ v, addr v ≠ 0
  addr_in : ∀ v, (addr v).toNat + v.size ≤ image.size
  lit_in : ∀ l, (lit l).toNat + (l.text.length + 1) ≤ image.size
  static_disjoint : ∀ v w, v ≠ w →
    (addr v).toNat + v.size ≤ (addr w).toNat ∨ (addr w).toNat + w.size ≤ (addr v).toNat
  lit_disjoint : ∀ l v,
    (lit l).toNat + (l.text.length + 1) ≤ (addr v).toNat ∨ (addr v).toNat + v.size ≤ (lit l).toNat
  image_static : ∀ v, image.read (addr v).toNat v.size = List.replicate v.size 0
  image_lit : ∀ l, image.read (lit l).toNat (l.text.length + 1) = l.text ++ [0]

/-! ## The string utilities -/

/-- The loop of `s_strlen`; `fuel` bounds it by the memory. -/
def scanLen (m : Memory) : ℕ → ℕ → ℕ
  | _, 0 => 0
  | s, fuel + 1 => if m.byte s = 0 then 0 else scanLen m (s + 1) fuel + 1

/-- `s_strlen`. -/
def sStrlen (m : Memory) (s : UInt32) : ℕ :=
  if s = 0 then 0 else scanLen m s.toNat m.size

/-- `s_memset`. -/
def sMemset (m : Memory) (dst : UInt32) (v : UInt8) (n : ℕ) : Memory := m.fill dst.toNat n v

/-- The loop of `s_streq`. -/
def streqFrom (m : Memory) : ℕ → ℕ → ℕ → Bool
  | _, _, 0 => false
  | a, b, fuel + 1 =>
    if m.byte a ≠ m.byte b then false
    else if m.byte a = 0 then true
    else streqFrom m (a + 1) (b + 1) fuel

/-- `s_streq`. -/
def sStreq (m : Memory) (a b : UInt32) : Bool := streqFrom m a.toNat b.toNat m.size

/-- The loop of `s_atoul`. -/
def atoulFrom (m : Memory) : ℕ → UInt32 → ℕ → UInt32
  | _, v, 0 => v
  | s, v, fuel + 1 =>
    if isDigit (m.byte s) then atoulFrom m (s + 1) (v * 10 + (m.byte s - 48).toUInt32) fuel
    else v

/-- `s_atoul`. -/
def sAtoul (m : Memory) (s : UInt32) : UInt32 :=
  if s = 0 then 0 else atoulFrom m s.toNat 0 m.size

/-- The first loop of `s_ultoa`: digits from the lowest on, into a buffer
of `room` bytes. -/
def ultoaDigits : ℕ → UInt32 → Bytes
  | 0, _ => []
  | room + 1, v => if v = 0 then [] else (48 + (v % 10).toUInt8) :: ultoaDigits room (v / 10)

/-- The second loop of `s_ultoa`: the buffer's first `i` bytes, from the
back, to `out[k]` on, and the terminator. -/
def ultoaCopy (buf : Bytes) (out : ℕ) (outLen : ℤ) : ℕ → ℕ → Memory → Memory
  | 0, k, m => m.write (out + k) [0]
  | i + 1, k, m =>
    if (k : ℤ) < outLen - 1 then
      ultoaCopy buf out outLen i (k + 1) (m.write (out + k) [buf.getD i 0])
    else m.write (out + k) [0]

/-- `s_ultoa`. -/
def sUltoa (m : Memory) (v : UInt32) (out : UInt32) (outLen : ℤ) : Memory :=
  if out = 0 ∨ outLen ≤ 0 then m
  else if v = 0 then
    let m := m.write out.toNat [48]
    if 1 < outLen then m.write (out.toNat + 1) [0] else m
  else
    let buf := ultoaDigits 32 v
    ultoaCopy buf out.toNat outLen buf.length 0 m

/-! ## The steps -/

/-- Code of this module. -/
abbrev Code (α : Type) := WasmCode Globals α

/-- Linear memory. -/
def mem : Code Memory := do
  let g ← GuestM.get
  pure g.mem

/-- The scalars. -/
def globals : Code Globals := do
  let g ← GuestM.get
  pure g.globals

def modifyMem (f : Memory → Memory) : Code Unit :=
  GuestM.modify fun g => { g with mem := f g.mem }

def modifyGlobals (f : Globals → Globals) : Code Unit :=
  GuestM.modify fun g => { g with globals := f g.globals }

/-- A call of an import. -/
def native (c : NativeCall) : Code Int32 := GuestM.call c

/-- `cc_return_response` with a literal. -/
def respondLit (L : Layout) (l : Lit) (n : Int32) : Code Unit := do
  let _ ← native (.ccReturnResponse (L.lit l) n)
  pure ()

/-- `fsm_state = 0; current_op = OP_NONE;` -/
def finish : Code Unit := modifyGlobals fun g => { g with fsmState := 0, currentOp := .none }

def setFsm (n : ℕ) : Code Unit := modifyGlobals fun g => { g with fsmState := n }

/-- `cc_get_state(g_person, s_strlen(g_person), g_cur_val, VAL_MAX)`. -/
def getPersonState (L : Layout) : Code Int32 := do
  let m ← mem
  native (.ccGetState (L.addr .gPerson) (Int32.ofNat (sStrlen m (L.addr .gPerson)))
    (L.addr .gCurVal) 256)

/-- `cc_put_state(g_person, s_strlen(g_person), v, s_strlen(v))`. -/
def putPersonState (L : Layout) (v : Static) : Code Unit := do
  let m ← mem
  let _ ← native (.ccPutState (L.addr .gPerson) (Int32.ofNat (sStrlen m (L.addr .gPerson)))
    (L.addr v) (Int32.ofNat (sStrlen m (L.addr v))))
  pure ()

/-- `cc_do_create_init`. The state advances only where `cc_get_state`
reports a positive key length. -/
def ccDoCreateInit (L : Layout) : Code Unit := do
  modifyMem fun m => sMemset m (L.addr .gPerson) 0 64
  modifyMem fun m => sMemset m (L.addr .gArg1) 0 64
  modifyMem fun m => sMemset m (L.addr .gCurVal) 0 256
  let _ ← native (.ccGetArg 0 (L.addr .gPerson) 64)
  let _ ← native (.ccGetArg 1 (L.addr .gArg1) 64)
  let getStateResult ← getPersonState L
  if 0 < getStateResult.toInt then
    modifyGlobals fun g => { g with fsmState := 11, gShouldExit := 1 }
  else pure ()

/-- `cc_do_create_resume`. -/
def ccDoCreateResume (L : Layout) : Code Unit := do
  let g ← globals
  if g.fsmState = 11 then
    let m ← mem
    if m.byte (L.addr .gCurVal).toNat ≠ 0 then
      respondLit L .exist 5
      finish
    else
      putPersonState L .gArg1
      setFsm 12
  else if g.fsmState = 12 then
    respondLit L .ok 2
    finish
  else pure ()

/-- `cc_do_add_init`. -/
def ccDoAddInit (L : Layout) : Code Unit := do
  modifyMem fun m => sMemset m (L.addr .gPerson) 0 64
  modifyMem fun m => sMemset m (L.addr .gArg1) 0 64
  modifyMem fun m => sMemset m (L.addr .gCurVal) 0 256
  let _ ← native (.ccGetArg 0 (L.addr .gPerson) 64)
  let _ ← native (.ccGetArg 1 (L.addr .gArg1) 64)
  let _ ← getPersonState L
  setFsm 21

/-- `cc_do_add_resume`. -/
def ccDoAddResume (L : Layout) : Code Unit := do
  let g ← globals
  if g.fsmState = 21 then
    let m ← mem
    if m.byte (L.addr .gCurVal).toNat = 0 then
      respondLit L .empty 5
      finish
    else
      let cur := sAtoul m (L.addr .gCurVal)
      let add := sAtoul m (L.addr .gArg1)
      let nv := cur + add
      modifyMem fun m => sMemset m (L.addr .gTmp) 0 256
      modifyMem fun m => sUltoa m nv (L.addr .gTmp) 256
      putPersonState L .gTmp
      setFsm 22
  else if g.fsmState = 22 then
    respondLit L .ok 2
    finish
  else pure ()

/-- `cc_do_query_init`. -/
def ccDoQueryInit (L : Layout) : Code Unit := do
  modifyMem fun m => sMemset m (L.addr .gPerson) 0 64
  modifyMem fun m => sMemset m (L.addr .gCurVal) 0 256
  let _ ← native (.ccGetArg 0 (L.addr .gPerson) 64)
  let _ ← getPersonState L
  setFsm 31

/-- `cc_do_query_resume`. -/
def ccDoQueryResume (L : Layout) : Code Unit := do
  let g ← globals
  if g.fsmState = 31 then
    let m ← mem
    if m.byte (L.addr .gCurVal).toNat = 0 then
      respondLit L .notfound 8
      finish
    else
      let _ ← native (.ccReturnResponse (L.addr .gCurVal)
        (Int32.ofNat (sStrlen m (L.addr .gCurVal))))
      finish
  else pure ()

/-- `step_init`. -/
def stepInit : Code Unit := pure ()

/-- The first part of `step_resume`: fetch the function name if it is not
there yet. -/
def fetchFunction (L : Layout) : Code Unit := do
  let m ← mem
  if m.byte (L.addr .gFunction).toNat = 0 then
    let _ ← native (.ccGetFunction (L.addr .gFunction) 64)
    pure ()
  else pure ()

/-- The dispatch of `step_resume` on the function name. -/
def dispatch (L : Layout) : Code Unit := do
  let m ← mem
  if sStreq m (L.addr .gFunction) (L.lit .create) then
    modifyGlobals fun g => { g with currentOp := .create }
    ccDoCreateInit L
  else if sStreq m (L.addr .gFunction) (L.lit .add) then
    modifyGlobals fun g => { g with currentOp := .add }
    ccDoAddInit L
  else if sStreq m (L.addr .gFunction) (L.lit .query) then
    modifyGlobals fun g => { g with currentOp := .query }
    ccDoQueryInit L
  else respondLit L .error 5

/-- The last part of `step_resume`: resume the current operation. -/
def resumeOp (L : Layout) : Code Unit := do
  let g ← globals
  match g.currentOp with
  | .create => ccDoCreateResume L
  | .add => ccDoAddResume L
  | .query => ccDoQueryResume L
  | .none => respondLit L .error 5

/-- `step_resume`. -/
def stepResume (L : Layout) : Code Unit := do
  modifyGlobals fun g => { g with gShouldExit := 0 }
  let g ← globals
  if g.currentOp = .none then
    fetchFunction L
    let m ← mem
    if m.byte (L.addr .gFunction).toNat ≠ 0 then dispatch L
    else resumeOp L
  else resumeOp L

/-- The module. -/
def coffee (L : Layout) : WasmModule Globals where
  export?
    | .stepInit => some stepInit
    | .stepResume => some (stepResume L)
  initial := ⟨⟨0, .none, 0⟩, L.image⟩

end Coffee

end TeeChaincode
