import TeeChaincode.Model.Proxy
import TeeChaincode.Ta.Commands

/-!
# The shared buffer, written on one side and read on the other

Three round trips. The argument table the proxy packs gives the TA, row
by row, the strings it was packed from, cut to 63 bytes. The answer the
TA lays out is the message the proxy sends on. The reply the proxy writes
back is the value the TA copies.
-/

namespace TeeChaincode

open Common

/-! ## Arguments -/

/-- Row `i` of an argument table. -/
def tableRow (buf : Bytes) (i : ℕ) : Bytes := clip 63 (buf.drop (64 * i))

theorem length_memMove {b data : Bytes} {off : ℕ} (h : off + data.length ≤ b.length) :
    (memMove b off data).length = b.length := by
  simp only [memMove, List.length_append, List.length_take, List.length_drop]
  omega

/-- What a row holds: a cut string and its terminator. -/
theorem length_cut (s : Bytes) : (s.take 63 ++ [0]).length ≤ 64 := by
  simp only [List.length_append, List.length_take, List.length_singleton]
  omega

theorem length_packRow {buf : Bytes} (h : buf.length = 640) {i : ℕ} (hi : i < 10) (s : Bytes) :
    (packRow buf i s).length = 640 := by
  have hc := length_cut s
  rw [packRow, length_memMove, h]
  rw [h, show argSize = 64 from rfl, show 64 - 1 = 63 from rfl]
  omega

/-- A row that has been packed reads as its string. -/
theorem tableRow_packRow_self {buf : Bytes} (h : buf.length = 640) {i : ℕ} (hi : i < 10)
    (s : Bytes) : tableRow (packRow buf i s) i = clip 63 s := by
  have hoff : i * argSize ≤ buf.length := by
    rw [h, show argSize = 64 from rfl]
    omega
  have hz : (0 : UInt8) ∈ s.take 63 ++ [0] := by simp
  have hcut : cstr (s.take 63 ++ [0]) = clip 63 s := by
    by_cases h0 : (0 : UInt8) ∈ s.take 63
    · rw [cstr_append_of_mem h0, cstr_take]
    · rw [cstr_append_zero h0, ← cstr_take, cstr_eq_self h0]
  rw [tableRow, packRow, Nat.mul_comm 64 i, drop_memMove hoff, clip,
    show argSize - 1 = 63 from rfl, cstr_append_of_mem hz, hcut,
    List.take_of_length_le (length_clip_le 63 s)]

/-- The bytes of a row. -/
def cell (buf : Bytes) (i : ℕ) : Bytes := (buf.drop (64 * i)).take 64

theorem tableRow_eq_cell (buf : Bytes) (i : ℕ) : tableRow buf i = cstr ((cell buf i).take 63) := by
  rw [tableRow, cell, List.take_take, ← cstr_take]
  rfl

/-- Packing a row leaves the others. -/
theorem cell_packRow_of_ne {buf : Bytes} (h : buf.length = 640) {i j : ℕ} (hi : i < 10)
    (hij : j ≠ i) (s : Bytes) : cell (packRow buf i s) j = cell buf j := by
  have hc := length_cut s
  have hlen : (buf.take (i * 64)).length = i * 64 := by
    rw [List.length_take]
    omega
  rw [cell, cell, packRow, memMove, show argSize = 64 from rfl, show 64 - 1 = 63 from rfl]
  rcases Nat.lt_or_ge j i with hlt | hge
  · -- the row lies in front of the copy
    rw [List.append_assoc, List.drop_append_of_le_length (by omega),
      List.take_append_of_le_length (by simp only [List.length_drop]; omega), List.drop_take,
      List.take_take, Nat.min_eq_left (by omega)]
  · -- the row lies behind it
    obtain ⟨k, hk⟩ : ∃ k, 64 * j = i * 64 + (s.take 63 ++ [0]).length + k :=
      ⟨64 * j - (i * 64 + (s.take 63 ++ [0]).length), by omega⟩
    have hfront : (buf.take (i * 64) ++ (s.take 63 ++ [0])).length + k = 64 * j := by
      rw [List.length_append, hlen, hk]
    rw [← hfront, List.drop_length_add_append, List.drop_drop, hfront, ← hk]

theorem tableRow_packRow_of_ne {buf : Bytes} (h : buf.length = 640) {i j : ℕ} (hi : i < 10)
    (hij : j ≠ i) (s : Bytes) : tableRow (packRow buf i s) j = tableRow buf j := by
  rw [tableRow_eq_cell, tableRow_eq_cell, cell_packRow_of_ne h hi hij]

/-- A row that has been packed holds a terminator. -/
theorem zero_mem_cell_packRow {buf : Bytes} (h : buf.length = 640) {i : ℕ} (hi : i < 10)
    (s : Bytes) : (0 : UInt8) ∈ cell (packRow buf i s) i := by
  have hoff : i * argSize ≤ buf.length := by
    rw [h, show argSize = 64 from rfl]
    omega
  rw [cell, packRow, Nat.mul_comm 64 i, drop_memMove hoff, show argSize - 1 = 63 from rfl,
    List.take_append, List.take_of_length_le (length_cut s)]
  simp

/-- A table in which every row holds one. -/
def Terminated (buf : Bytes) : Prop :=
  buf.length = 640 ∧ ∀ i, i < 10 → (0 : UInt8) ∈ cell buf i

theorem terminated_packRow {buf : Bytes} (h : Terminated buf) {i : ℕ} (hi : i < 10) (s : Bytes) :
    Terminated (packRow buf i s) := by
  refine ⟨length_packRow h.1 hi s, fun j hj => ?_⟩
  by_cases hij : j = i
  · subst hij
    exact zero_mem_cell_packRow h.1 hj s
  · rw [cell_packRow_of_ne h.1 hi hij]
    exact h.2 j hj

/-- The rows behind the loop over the arguments. -/
theorem tableRow_packArgs (as : List Bytes) {buf : Bytes} (h : buf.length = 640) {i : ℕ}
    (hi : i + as.length ≤ 10) :
    (packArgs buf i as).length = 640 ∧
    ∀ j, tableRow (packArgs buf i as) j =
      if i ≤ j ∧ j < i + as.length then clip 63 (as.getD (j - i) []) else tableRow buf j := by
  induction as generalizing buf i with
  | nil => exact ⟨h, fun j => by rw [if_neg (by simp)]; rfl⟩
  | cons a as ih =>
    simp only [List.length_cons] at hi ⊢
    obtain ⟨hlen, hrow⟩ := ih (length_packRow h (i := i) (by omega) a) (i := i + 1) (by omega)
    refine ⟨hlen, fun j => ?_⟩
    rw [packArgs, hrow]
    rcases Nat.lt_trichotomy j i with hlt | rfl | hgt
    · rw [if_neg (by omega), if_neg (by omega), tableRow_packRow_of_ne h (by omega) (by omega)]
    · rw [if_neg (by omega), if_pos (by omega), tableRow_packRow_self h (by omega), Nat.sub_self,
        List.getD_cons_zero]
    · rw [tableRow_packRow_of_ne h (by omega) (by omega),
        show j - i = j - (i + 1) + 1 by omega, List.getD_cons_succ]
      congr 1
      simp only [eq_iff_iff]
      omega

theorem tableRow_replicate (n i : ℕ) : tableRow (List.replicate n 0) i = [] := by
  rw [tableRow, List.drop_replicate]
  cases n - 64 * i with
  | zero => rfl
  | succ k => rw [List.replicate_succ, clip, cstr_cons_zero, List.take_nil]

/-- **The TA reads the strings the proxy packed**, cut to 63 bytes, and an
empty string where there is none. -/
theorem tableRow_packArguments (f : Bytes) (as : List Bytes) {i : ℕ} (hi : i < 10) :
    tableRow (packArguments f as) i = clip 63 ((f :: as).getD i []) := by
  have hb : (List.replicate maxSize (0 : UInt8)).length = 640 := List.length_replicate
  have h9 : (as.take (argsNumber - 1)).length ≤ 9 := List.length_take_le _ _
  obtain ⟨-, hrow⟩ := tableRow_packArgs (as.take (argsNumber - 1))
    (length_packRow hb (i := 0) (by omega) f) (i := 1) (by omega)
  rw [packArguments, hrow]
  cases i with
  | zero => rw [if_neg (by omega), tableRow_packRow_self hb (by omega), List.getD_cons_zero]
  | succ i =>
    rw [List.getD_cons_succ, Nat.add_sub_cancel, tableRow_packRow_of_ne hb (by omega) (by omega),
      tableRow_replicate]
    have htake : (as.take (argsNumber - 1)).length = min 9 as.length := List.length_take
    split
    next h =>
      rw [List.getD_eq_getElem _ _ (by omega), List.getD_eq_getElem _ _ (by omega),
        List.getElem_take]
    next h =>
      rw [List.getD_eq_default _ _ (by omega)]
      rfl

theorem terminated_packArgs (as : List Bytes) {buf : Bytes} (h : Terminated buf) {i : ℕ}
    (hi : i + as.length ≤ 10) : Terminated (packArgs buf i as) := by
  induction as generalizing buf i with
  | nil => exact h
  | cons a as ih =>
    simp only [List.length_cons] at hi
    exact ih (terminated_packRow h (by omega) a) (by omega)

/-- **Every row of the packed table ends within its bytes.** -/
theorem terminated_packArguments (f : Bytes) (as : List Bytes) :
    Terminated (packArguments f as) := by
  have hz : Terminated (List.replicate maxSize 0) := by
    refine ⟨List.length_replicate, fun i hi => ?_⟩
    rw [cell, List.drop_replicate, List.take_replicate, List.mem_replicate]
    refine ⟨?_, rfl⟩
    rw [show maxSize = 640 from rfl]
    omega
  have h9 : (as.take (argsNumber - 1)).length ≤ 9 := List.length_take_le _ _
  exact terminated_packArgs _ (terminated_packRow hz (by omega) f) (by omega)

theorem length_packArguments (f : Bytes) (as : List Bytes) :
    (packArguments f as).length = 640 :=
  (terminated_packArguments f as).1

/-! ## Answers -/

/-- The call the proxy makes on an answer. -/
def Ask.handler : Ask → Handler
  | .get key => .writeRequest .get (.getStateRequest key)
  | .put key value => .writeRequest .put (.putStateRequest key value)
  | .answer text => .writeResponse (.invocationResponse text)

/-- Behind a string, a cleared buffer holds zeros. -/
theorem drop_pad {n k : ℕ} {b : Bytes} (hk : b.length ≤ k) (hn : b.length ≤ n) :
    (pad n b).drop k = List.replicate (n - k) 0 := by
  obtain ⟨j, rfl⟩ : ∃ j, k = b.length + j := ⟨k - b.length, by omega⟩
  rw [pad, List.take_of_length_le hn, List.drop_length_add_append, List.drop_replicate]
  congr 1
  omega

/-- The front of a cleared buffer is a cleared buffer, where the string
ends in it. -/
theorem take_pad {n k : ℕ} {b : Bytes} (hk : b.length ≤ k) (hn : k ≤ n) :
    (pad n b).take k = pad k b := by
  rw [pad, pad, List.take_of_length_le (le_trans hk hn), List.take_of_length_le hk,
    List.take_append, List.take_of_length_le hk, List.take_replicate]
  congr 2
  omega

/-- The key and the value of a request, in their fields. -/
theorem memMove_keyValue {b key value : Bytes} (hk : key.length ≤ keySize)
    (hv : value.length ≤ valSize) :
    memMove (memMove (memFill b 0 sizeofKeyValue 0) 0 key) keySize value =
      pad keySize key ++ (pad valSize value ++ b.drop sizeofKeyValue) := by
  have hsize : sizeofKeyValue = keySize + valSize := rfl
  have hk' : key.length ≤ sizeofKeyValue := by omega
  rw [memMove_memFill_zero hk', memMove, List.take_append_of_le_length (by rw [length_pad]; omega),
    take_pad hk (by omega), List.drop_append_of_le_length (by rw [length_pad]; omega),
    drop_pad (by omega) hk', List.append_assoc]
  congr 1
  rw [pad, List.take_of_length_le hv, List.append_assoc, hsize, Nat.add_sub_add_left]

/-- A request for a value leaves the value cleared. -/
theorem memMove_key {b key : Bytes} (hk : key.length ≤ keySize) :
    memMove (memFill b 0 sizeofKeyValue 0) 0 key =
      pad keySize key ++ (pad valSize [] ++ b.drop sizeofKeyValue) := by
  rw [← memMove_keyValue hk (Nat.zero_le _)]
  simp [memMove]

/-- **The proxy sends on what the TA laid out.** -/
theorem dispatchReply_ask {p : Params} {a : Ask} (h : a.Fits) :
    dispatchReply ⟨.success, (p.ask a).value1, (p.ask a).memref2.buffer⟩ = a.handler := by
  rw [Params.ask_value1]
  cases a with
  | answer text =>
    obtain ⟨h0, hl⟩ := h
    have hb : (p.ask (.answer text)).memref2.buffer = pad responseSize text ++
        p.memref2.buffer.drop responseSize := memMove_memFill_zero (le_of_lt hl)
    simp only [dispatchReply, Ask.code, hb, cstr_pad_append _ h0 hl]
    rfl
  | get key =>
    obtain ⟨h0, hl⟩ := h
    have hb : (p.ask (.get key)).memref2.buffer = pad keySize key ++
        (pad valSize [] ++ p.memref2.buffer.drop sizeofKeyValue) := memMove_key (le_of_lt hl)
    simp only [dispatchReply, Ask.code, hb, cstr_pad_append _ h0 hl]
    rfl
  | put key value =>
    obtain ⟨⟨hk0, hkl⟩, hv0, hvl⟩ := h
    have hb : (p.ask (.put key value)).memref2.buffer = pad keySize key ++
        (pad valSize value ++ p.memref2.buffer.drop sizeofKeyValue) :=
      memMove_keyValue (le_of_lt hkl) (le_of_lt hvl)
    have hval : cstr ((p.ask (.put key value)).memref2.buffer.drop keySize) = value := by
      rw [hb, List.drop_left' (length_pad _ _), cstr_pad_append _ hv0 hvl]
    have hkey : cstr (p.ask (.put key value)).memref2.buffer = key := by
      rw [hb, cstr_pad_append _ hk0 hkl]
    simp only [dispatchReply, Ask.code, hkey, hval]
    rfl

/-! ## Replies -/

/-- What a GET reply comes to: nothing, if it is too long for the value
field. -/
def replyValue (v : Bytes) : Bytes := if v.length < valSize then cstr v else []

theorem length_replyValue_le (v : Bytes) : (replyValue v).length ≤ 255 := by
  have hle : (cstr v).length ≤ v.length := (List.takeWhile_prefix _).length_le
  rw [replyValue, show valSize = 256 from rfl]
  split
  · omega
  · exact Nat.zero_le _

/-- A string copied over zeros is read back. -/
theorem cstr_append_replicate {b r : Bytes} {n : ℕ} (h0 : (0 : UInt8) ∉ b) (hn : 0 < n) :
    cstr (b ++ (List.replicate n 0 ++ r)) = b := by
  obtain ⟨k, rfl⟩ : ∃ k, n = k + 1 := ⟨n - 1, by omega⟩
  rw [List.replicate_succ, List.cons_append, cstr_append_zero h0]

/-- **The value the proxy wrote back is the string the TA finds.** -/
theorem cstr_writeReply_get (m : WrapperMessage) :
    cstr ((writeReply .get m).drop keySize) = replyValue m.getGetStateResponse := by
  simp only [writeReply, replyValue, show valSize - 1 = 255 from rfl]
  split
  next hlt =>
    have hle : (cstr m.getGetStateResponse).length ≤ m.getGetStateResponse.length :=
      (List.takeWhile_prefix _).length_le
    have hcut : clip 255 m.getGetStateResponse = cstr m.getGetStateResponse :=
      List.take_of_length_le (by rw [show valSize = 256 from rfl] at hlt; omega)
    have hlen := length_clip_le 255 m.getGetStateResponse
    have hoff : keySize ≤ (List.replicate maxSize (0 : UInt8)).length := by
      rw [List.length_replicate]
      decide
    have hroom : 0 < maxSize - (keySize + (clip 255 m.getGetStateResponse).length) := by
      rw [show maxSize = 640 from rfl, show keySize = 64 from rfl]
      omega
    have hread := cstr_append_replicate (r := []) (zero_notMem_clip 255 m.getGetStateResponse) hroom
    rw [drop_memMove hoff, List.drop_replicate, ← List.append_nil (List.replicate _ _), hread,
      hcut]
  next =>
    rw [List.drop_replicate]
    decide +kernel

/-- A TA that has room for every reply copies all of it. -/
theorem clip_writeReply_get (m : WrapperMessage) :
    clip 255 ((writeReply .get m).drop keySize) = replyValue m.getGetStateResponse := by
  rw [clip, cstr_writeReply_get, List.take_of_length_le (length_replyValue_le _)]

/-! ## RESUME_WASM -/

section Resume

variable {σ : Type}

/-- The command a handler issues next. -/
def Handler.command : Handler → Option (Command × Params)
  | .run wasm buf => some (.runWasm, runParams wasm buf)
  | .resume buf => some (.resumeWasm, resumeParams buf)
  | _ => none

/-- RESUME_WASM reaches a TA that has not panicked. -/
theorem invoke_resume (load : Loader σ) {ta : Ta σ} (h : ta.panicked = false) (env : Env)
    (buf : Bytes) : invokeCommandEntryPoint load ta .resumeWasm (resumeParams buf) env =
      resumeWasm ta (resumeParams buf) env :=
  invoke_eq load h rfl env

theorem taTee_resume (load : Loader σ) {t : TaRun σ} (h : t.ta.panicked = false) (env : Env)
    (buf : Bytes) :
    (taTee load).resume t env buf = t.answer (resumeWasm t.ta (resumeParams buf) env) :=
  congrArg t.answer (invoke_resume load h env buf)

end Resume

end TeeChaincode
