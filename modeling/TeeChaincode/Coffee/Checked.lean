import TeeChaincode.Coffee.Steps

/-!
# The chaincode with its indices checked

The chaincode is compiled without bounds checks and its string loops have
no bound of their own. This module writes the same program with the
checks in: every loop checks each index against the size of the array or
literal it walks, every byte stored is checked in the same way, and the
program stops where an array would be left without a NUL. A check that
fails traps.

The loops with checks do what the loops without them do wherever the
arrays hold strings (`Layout.Holds`), which is what the steps of the two
programs are compared by.
-/

namespace TeeChaincode

namespace Coffee

open Common

variable {L : Layout} {m : Memory} {w : Static → Bytes}

/-- **Every array has a NUL within its size.** -/
def Terminated (L : Layout) (m : Memory) : Prop :=
  ∀ v : Static, ∃ i, i < v.size ∧ m.byte ((L.addr v).toNat + i) = 0

instance : Decidable (Terminated L m) :=
  decidable_of_iff
    (∀ v ∈ [Static.gFunction, .gArg1, .gPerson, .gCurVal, .gTmp],
      ∃ i, i < v.size ∧ m.byte ((L.addr v).toNat + i) = 0)
    ⟨fun h v => h v (by cases v <;> simp), fun h v _ => h v⟩

theorem Layout.Holds.terminated (h : L.Holds m w) : Terminated L m := by
  intro v
  have hl := h.length_lt v
  refine ⟨(w v).length, hl, ?_⟩
  have hbyte := Memory.byte_of_read (h.static v) hl
  rw [hbyte, pad_eq hl, List.getD_append_right _ _ _ _ le_rfl, Nat.sub_self, List.getD_cons_zero]

/-! ## Loops -/

/-- The loop of `s_strlen` on an array of which `n` bytes are left. -/
def strlenIn (m : Memory) : ℕ → ℕ → Option ℕ
  | _, 0 => none
  | s, n + 1 => if m.byte s = 0 then some 0 else (strlenIn m (s + 1) n).map (· + 1)

/-- The loop of `s_streq` on arrays of which `n` and `k` bytes are
left. -/
def streqIn (m : Memory) : ℕ → ℕ → ℕ → ℕ → Option Bool
  | _, _, 0, _ => none
  | _, _, _ + 1, 0 => none
  | a, b, n + 1, k + 1 =>
    if m.byte a ≠ m.byte b then some false
    else if m.byte a = 0 then some true
    else streqIn m (a + 1) (b + 1) n k

/-- The loop of `s_atoul` on an array of which `n` bytes are left. -/
def atoulIn (m : Memory) : ℕ → UInt32 → ℕ → Option UInt32
  | _, _, 0 => none
  | s, v, n + 1 =>
    if isDigit (m.byte s) then atoulIn m (s + 1) (v * 10 + (m.byte s - 48).toUInt32) n else some v

/-- A byte stored at an index of an array. -/
def storeIn (L : Layout) (v : Static) (i : ℕ) (b : UInt8) (m : Memory) : Option Memory :=
  if i < v.size ∧ Terminated L (m.write ((L.addr v).toNat + i) [b]) then
    some (m.write ((L.addr v).toNat + i) [b])
  else none

/-- The loop of `s_memset`, with `n` bytes to go. -/
def memsetIn (L : Layout) (v : Static) (b : UInt8) : ℕ → ℕ → Memory → Option Memory
  | 0, _, m => some m
  | n + 1, i, m => (storeIn L v i b m).bind (memsetIn L v b n (i + 1))

/-- The second loop of `s_ultoa`. The index into the digits is checked
too; the first loop has its bound in the source. -/
def ultoaCopyIn (L : Layout) (v : Static) (buf : Bytes) (outLen : ℤ) :
    ℕ → ℕ → Memory → Option Memory
  | 0, k, m => storeIn L v k 0 m
  | i + 1, k, m =>
    if (k : ℤ) < outLen - 1 then
      buf[i]?.bind fun d => (storeIn L v k d m).bind (ultoaCopyIn L v buf outLen i (k + 1))
    else storeIn L v k 0 m

/-- `s_ultoa`. -/
def ultoaIn (L : Layout) (n : UInt32) (v : Static) (outLen : ℤ) (m : Memory) : Option Memory :=
  if outLen ≤ 0 then some m
  else if n = 0 then
    (storeIn L v 0 48 m).bind fun m => if 1 < outLen then storeIn L v 1 0 m else some m
  else
    let buf := ultoaDigits 32 n
    ultoaCopyIn L v buf outLen buf.length 0 m

/-! ## What the loops compute

Each of them, on strings that end within the array, is the loop without
checks. -/

theorem strlenIn_eq {s n : ℕ} {b : Bytes} (h : m.CStrAt s b) (hn : b.length < n) :
    strlenIn m s n = some b.length := by
  induction b generalizing s n with
  | nil =>
    obtain ⟨k, rfl⟩ : ∃ k, n = k + 1 := ⟨n - 1, by simp at hn; omega⟩
    have h' : m.byte s = 0 := h
    simp [strlenIn, h']
  | cons x b ih =>
    obtain ⟨k, rfl⟩ : ∃ k, n = k + 1 := ⟨n - 1, by simp at hn; omega⟩
    obtain ⟨hx, hne, ht⟩ := h
    rw [strlenIn, hx, if_neg hne, ih ht (by simpa using hn), Option.map_some, List.length_cons]

/-- An array without a NUL is left. -/
example : strlenIn ⟨4, fun _ => 120⟩ 0 4 = none := by decide

theorem streqIn_eq {a c n k : ℕ} {x y : Bytes} (hx : m.CStrAt a x) (hy : m.CStrAt c y)
    (hn : x.length < n) (hk : y.length < k) : streqIn m a c n k = some (decide (x = y)) := by
  induction x generalizing a c y n k with
  | nil =>
    obtain ⟨n, rfl⟩ : ∃ i, n = i + 1 := ⟨n - 1, by simp at hn; omega⟩
    obtain ⟨k, rfl⟩ : ∃ i, k = i + 1 := ⟨k - 1, by omega⟩
    have ha : m.byte a = 0 := hx
    cases y with
    | nil =>
      have hc : m.byte c = 0 := hy
      simp [streqIn, ha, hc]
    | cons z y =>
      obtain ⟨hz, hne, -⟩ := hy
      simp [streqIn, ha, hz, Ne.symm hne]
  | cons u x ih =>
    obtain ⟨n, rfl⟩ : ∃ i, n = i + 1 := ⟨n - 1, by simp at hn; omega⟩
    obtain ⟨k, rfl⟩ : ∃ i, k = i + 1 := ⟨k - 1, by omega⟩
    obtain ⟨hu, hune, hxt⟩ := hx
    cases y with
    | nil =>
      have hc : m.byte c = 0 := hy
      simp [streqIn, hu, hc, hune]
    | cons z y =>
      obtain ⟨hz, hne, hyt⟩ := hy
      rw [streqIn, hu, hz]
      by_cases huz : u = z
      · subst huz
        rw [if_neg (by simp), if_neg hune, ih hxt hyt (by simpa using hn) (by simpa using hk)]
        simp
      · simp [huz]

theorem atoulIn_eq {s n : ℕ} {b : Bytes} (v : UInt32) (h : m.CStrAt s b) (hn : b.length < n) :
    atoulIn m s v n = some ((b.takeWhile isDigit).foldl pushDigit32 v) := by
  induction b generalizing s v n with
  | nil =>
    obtain ⟨k, rfl⟩ : ∃ k, n = k + 1 := ⟨n - 1, by simp at hn; omega⟩
    have h' : m.byte s = 0 := h
    simp [atoulIn, h', isDigit]
  | cons x b ih =>
    obtain ⟨k, rfl⟩ : ∃ k, n = k + 1 := ⟨n - 1, by simp at hn; omega⟩
    obtain ⟨hx, -, ht⟩ := h
    rw [atoulIn, hx]
    by_cases hd : isDigit x = true
    · rw [if_pos hd, ih _ ht (by simpa using hn), List.takeWhile_cons_of_pos hd, List.foldl_cons]
      rfl
    · rw [if_neg hd, List.takeWhile_cons_of_neg hd, List.foldl_nil]

/-- Storing a NUL anywhere leaves every array with one. -/
theorem Terminated.write_zero (h : Terminated L m) (off : ℕ) : Terminated L (m.write off [0]) := by
  intro v
  obtain ⟨i, hi, hb⟩ := h v
  refine ⟨i, hi, ?_⟩
  simp only [Memory.write, List.length_singleton]
  split
  · next hr => rw [show (L.addr v).toNat + i - off = 0 by omega, List.getD_cons_zero]
  · exact hb

/-- So does storing a byte in front of one that stays. -/
theorem Terminated.write (h : Terminated L m) {v : Static} {i j : ℕ} (hij : i < j)
    (hj : j < v.size) (h0 : m.byte ((L.addr v).toNat + j) = 0) (b : UInt8) :
    Terminated L (m.write ((L.addr v).toNat + i) [b]) ∧
      (m.write ((L.addr v).toNat + i) [b]).byte ((L.addr v).toNat + j) = 0 := by
  have hkeep : (m.write ((L.addr v).toNat + i) [b]).byte ((L.addr v).toNat + j) = 0 := by
    simp only [Memory.write, List.length_singleton]
    rw [if_neg (by omega)]
    exact h0
  refine ⟨fun u => ?_, hkeep⟩
  by_cases huv : u = v
  · subst huv
    exact ⟨j, hj, hkeep⟩
  · obtain ⟨k, hk, hb⟩ := h u
    have hdis := L.static_disjoint u v huv
    refine ⟨k, hk, ?_⟩
    simp only [Memory.write, List.length_singleton]
    rw [if_neg (by omega)]
    exact hb

theorem storeIn_zero (h : Terminated L m) {v : Static} {i : ℕ} (hi : i < v.size) :
    storeIn L v i 0 m = some (m.write ((L.addr v).toNat + i) [0]) :=
  if_pos ⟨hi, h.write_zero _⟩

theorem memsetIn_eq (h : Terminated L m) {v : Static} {n i : ℕ} (hi : i + n ≤ v.size) :
    memsetIn L v 0 n i m = some (m.fill ((L.addr v).toNat + i) n 0) := by
  induction n generalizing i m with
  | zero =>
    rw [memsetIn]
    congr 1
    refine Memory.ext rfl fun j => ?_
    simp only [Memory.fill]
    rw [if_neg (by omega)]
  | succ n ih =>
    rw [memsetIn, storeIn_zero h (by omega), Option.bind_some, ih (h.write_zero _) (by omega),
      ← Nat.add_assoc, Memory.fill_succ]

/-- Digits are printed in front of a NUL that stays. -/
theorem ultoaCopyIn_eq (buf : Bytes) (outLen : ℤ) {v : Static} {i j k : ℕ} (h : Terminated L m)
    (hj : j < v.size) (h0 : m.byte ((L.addr v).toNat + j) = 0) (hi : i ≤ buf.length)
    (hk : k + i < j) :
    ultoaCopyIn L v buf outLen i k m = some (ultoaCopy buf (L.addr v).toNat outLen i k m) := by
  induction i generalizing k m with
  | zero => exact storeIn_zero h (by omega)
  | succ i ih =>
    rw [ultoaCopyIn, ultoaCopy]
    split
    · obtain ⟨hterm, hkeep⟩ := h.write (by omega : k < j) hj h0 (buf.getD i 0)
      have hget : buf[i]? = some (buf.getD i 0) := by
        rw [List.getElem?_eq_getElem (by omega), List.getD_eq_getElem _ _ (by omega)]
      have hstore : storeIn L v k (buf.getD i 0) m =
          some (m.write ((L.addr v).toNat + k) [buf.getD i 0]) := if_pos ⟨by omega, hterm⟩
      rw [hget, Option.bind_some, hstore, Option.bind_some]
      exact ih hterm hkeep (by omega) (by omega)
    · exact storeIn_zero h (by omega)

theorem length_ultoaDigits_le (room : ℕ) (n : UInt32) : (ultoaDigits room n).length ≤ room := by
  induction room generalizing n with
  | zero => exact le_rfl
  | succ room ih =>
    rw [ultoaDigits]
    split
    · exact Nat.zero_le _
    · exact Nat.succ_le_succ (ih _)

namespace Layout.Holds

theorem strlenIn (h : L.Holds m w) (v : Static) :
    strlenIn m (L.addr v).toNat v.size = some (sStrlen m (L.addr v)) := by
  rw [sStrlen_eq h, strlenIn_eq (h.cstrAt v) (h.length_lt v)]

theorem streqIn (h : L.Holds m w) (v : Static) (l : Lit) :
    streqIn m (L.addr v).toNat (L.lit l).toNat v.size (l.text.length + 1) =
      some (sStreq m (L.addr v) (L.lit l)) := by
  rw [sStreq_eq h, streqIn_eq (h.cstrAt v) (h.cstrAt_lit l) (h.length_lt v) (Nat.lt_succ_self _)]

theorem atoulIn (h : L.Holds m w) (v : Static) :
    atoulIn m (L.addr v).toNat 0 v.size = some (sAtoul m (L.addr v)) := by
  rw [sAtoul, if_neg (L.addr_ne_zero v), atoulFrom_eq 0 (h.cstrAt v) (h.length_lt_size v),
    atoulIn_eq 0 (h.cstrAt v) (h.length_lt v)]

theorem memsetIn (h : L.Holds m w) (v : Static) :
    memsetIn L v 0 v.size 0 m = some (Coffee.sMemset m (L.addr v) 0 v.size) :=
  memsetIn_eq h.terminated (Nat.zero_add _).le

/-- Printing into a cleared `g_tmp`. -/
theorem ultoaIn (h : L.Holds m w) (hw : w .gTmp = []) (n : UInt32) :
    ultoaIn L n .gTmp 256 m = some (Coffee.sUltoa m n (L.addr .gTmp) 256) := by
  have hlast : m.byte ((L.addr .gTmp).toNat + 255) = 0 := by
    rw [Memory.byte_of_read (h.static .gTmp) (by decide), hw, pad_nil]
    decide +kernel
  have hout : ¬ (L.addr .gTmp = 0 ∨ (256 : ℤ) ≤ 0) := by
    rintro (h0 | h0)
    · exact L.addr_ne_zero .gTmp h0
    · omega
  rw [Coffee.ultoaIn, if_neg (by omega), Coffee.sUltoa, if_neg hout]
  by_cases hn : n = 0
  · obtain ⟨hterm, -⟩ := h.terminated.write (v := .gTmp) (i := 0) (by omega) (by decide) hlast 48
    have hstore : storeIn L .gTmp 0 48 m = some (m.write (L.addr .gTmp).toNat [48]) :=
      if_pos ⟨by decide, hterm⟩
    rw [if_pos hn, if_pos hn, hstore, Option.bind_some, if_pos (by omega), if_pos (by omega)]
    exact storeIn_zero hterm (by decide)
  · have hlen := length_ultoaDigits_le 32 n
    rw [if_neg hn, if_neg hn]
    exact ultoaCopyIn_eq _ _ h.terminated (by decide) hlast le_rfl (by omega)

end Layout.Holds

/-! ## The program -/

namespace Checked

/-- A check: go on with the value, or trap. -/
def ofOption {α : Type} : Option α → Code α
  | some a => pure a
  | none => GuestM.trap none

/-- Trap where an array has lost its NUL. -/
def inspect (L : Layout) : Code Unit := do
  let m ← mem
  if Terminated L m then pure () else GuestM.trap none

def sStrlen (L : Layout) (v : Static) : Code ℕ := do
  let m ← mem
  ofOption (strlenIn m (L.addr v).toNat v.size)

def sStreq (L : Layout) (v : Static) (l : Lit) : Code Bool := do
  let m ← mem
  ofOption (streqIn m (L.addr v).toNat (L.lit l).toNat v.size (l.text.length + 1))

def sAtoul (L : Layout) (v : Static) : Code UInt32 := do
  let m ← mem
  ofOption (atoulIn m (L.addr v).toNat 0 v.size)

def sMemset (L : Layout) (v : Static) (b : UInt8) (n : ℕ) : Code Unit := do
  let m ← mem
  let m' ← ofOption (memsetIn L v b n 0 m)
  modifyMem fun _ => m'

def sUltoa (L : Layout) (n : UInt32) (v : Static) (outLen : ℤ) : Code Unit := do
  let m ← mem
  let m' ← ofOption (ultoaIn L n v outLen m)
  modifyMem fun _ => m'

/-- A call of an import, between two inspections. -/
def native (L : Layout) (c : NativeCall) : Code Int32 := do
  inspect L
  let r ← Coffee.native c
  inspect L
  pure r

def respondLit (L : Layout) (l : Lit) (n : Int32) : Code Unit := do
  let _ ← native L (.ccReturnResponse (L.lit l) n)
  pure ()

def getPersonState (L : Layout) : Code Int32 := do
  let k ← sStrlen L .gPerson
  native L (.ccGetState (L.addr .gPerson) (Int32.ofNat k) (L.addr .gCurVal) 256)

def putPersonState (L : Layout) (v : Static) : Code Unit := do
  let k ← sStrlen L .gPerson
  let n ← sStrlen L v
  let _ ← native L (.ccPutState (L.addr .gPerson) (Int32.ofNat k) (L.addr v) (Int32.ofNat n))
  pure ()

def ccDoCreateInit (L : Layout) : Code Unit := do
  sMemset L .gPerson 0 64
  sMemset L .gArg1 0 64
  sMemset L .gCurVal 0 256
  let _ ← native L (.ccGetArg 0 (L.addr .gPerson) 64)
  let _ ← native L (.ccGetArg 1 (L.addr .gArg1) 64)
  let getStateResult ← getPersonState L
  if 0 < getStateResult.toInt then
    modifyGlobals fun g => { g with fsmState := 11, gShouldExit := 1 }
  else pure ()

def ccDoCreateResume (L : Layout) : Code Unit := do
  let g ← globals
  if g.fsmState = 11 then
    let m ← mem
    if m.byte (L.addr .gCurVal).toNat ≠ 0 then
      respondLit L .exist 5
      finish
    else
      putPersonState L .gArg1
      setFsm 12
  else if g.fsmState = 12 then
    respondLit L .ok 2
    finish
  else pure ()

def ccDoAddInit (L : Layout) : Code Unit := do
  sMemset L .gPerson 0 64
  sMemset L .gArg1 0 64
  sMemset L .gCurVal 0 256
  let _ ← native L (.ccGetArg 0 (L.addr .gPerson) 64)
  let _ ← native L (.ccGetArg 1 (L.addr .gArg1) 64)
  let _ ← getPersonState L
  setFsm 21

def ccDoAddResume (L : Layout) : Code Unit := do
  let g ← globals
  if g.fsmState = 21 then
    let m ← mem
    if m.byte (L.addr .gCurVal).toNat = 0 then
      respondLit L .empty 5
      finish
    else
      let cur ← sAtoul L .gCurVal
      let add ← sAtoul L .gArg1
      let nv := cur + add
      sMemset L .gTmp 0 256
      sUltoa L nv .gTmp 256
      putPersonState L .gTmp
      setFsm 22
  else if g.fsmState = 22 then
    respondLit L .ok 2
    finish
  else pure ()

def ccDoQueryInit (L : Layout) : Code Unit := do
  sMemset L .gPerson 0 64
  sMemset L .gCurVal 0 256
  let _ ← native L (.ccGetArg 0 (L.addr .gPerson) 64)
  let _ ← getPersonState L
  setFsm 31

def ccDoQueryResume (L : Layout) : Code Unit := do
  let g ← globals
  if g.fsmState = 31 then
    let m ← mem
    if m.byte (L.addr .gCurVal).toNat = 0 then
      respondLit L .notfound 8
      finish
    else
      let n ← sStrlen L .gCurVal
      let _ ← native L (.ccReturnResponse (L.addr .gCurVal) (Int32.ofNat n))
      finish
  else pure ()

def fetchFunction (L : Layout) : Code Unit := do
  let m ← mem
  if m.byte (L.addr .gFunction).toNat = 0 then
    let _ ← native L (.ccGetFunction (L.addr .gFunction) 64)
    pure ()
  else pure ()

def dispatch (L : Layout) : Code Unit := do
  if ← sStreq L .gFunction .create then
    modifyGlobals fun g => { g with currentOp := .create }
    ccDoCreateInit L
  else if ← sStreq L .gFunction .add then
    modifyGlobals fun g => { g with currentOp := .add }
    ccDoAddInit L
  else if ← sStreq L .gFunction .query then
    modifyGlobals fun g => { g with currentOp := .query }
    ccDoQueryInit L
  else respondLit L .error 5

def resumeOp (L : Layout) : Code Unit := do
  let g ← globals
  match g.currentOp with
  | .create => ccDoCreateResume L
  | .add => ccDoAddResume L
  | .query => ccDoQueryResume L
  | .none => respondLit L .error 5

def stepResume (L : Layout) : Code Unit := do
  inspect L
  modifyGlobals fun g => { g with gShouldExit := 0 }
  let g ← globals
  if g.currentOp = .none then
    fetchFunction L
    let m ← mem
    if m.byte (L.addr .gFunction).toNat ≠ 0 then dispatch L
    else resumeOp L
  else resumeOp L

end Checked

/-- **The module with its checks.** -/
def checked (L : Layout) : WasmModule Globals where
  export?
    | .stepInit => some stepInit
    | .stepResume => some (Checked.stepResume L)
  initial := ⟨⟨0, .none, 0⟩, L.image⟩

end Coffee

end TeeChaincode
