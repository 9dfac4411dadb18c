import TeeChaincode.Coffee.Ledger
import TeeChaincode.Ta.Delivery

/-!
# A stored value shown to the module that asks for it

A module asks for a value with an output buffer in its memory, and sees
the value by a buffer that is no longer empty. On the way there the proxy
drops a value of `VAL_SIZE` bytes or more, and the buffer stays as it was:
to the module the key is absent. This module says that this is the only
way a value is lost, and what the chaincode makes of it. The value is one
that can be sent: `GetStateResponse` carries it as a proto3 string, and a
value that is not valid UTF-8 fails its `Send`.
-/

namespace TeeChaincode

open Common

/-! ## Any module -/

section Module

variable {σ : Type} {load : Loader σ} {ta : Ta σ} {s : Session} {inst : Instance σ}

/-- A module waits for a value, with a cleared output buffer that has room
for a byte and its terminator. -/
structure AwaitsValue (ta : Ta σ) (s : Session) (inst : Instance σ) : Prop
    extends ta.Awaits s inst where
  offset_ne : s.wasmOutOffset ≠ 0
  room : 2 ≤ s.wasmOutLen.toInt
  cleared : inst.mem.read s.wasmOutOffset.toNat s.wasmOutLen.toInt.toNat =
    List.replicate s.wasmOutLen.toInt.toNat 0

/-- The command fails, or it runs the module's step on the memory with the
reply copied, in which the output buffer starts with a non-empty prefix of
`v`. -/
def ShowsOrFails (ta : Ta σ) (s : Session) (inst : Instance σ) (p : Params) (env : Env)
    (v : Bytes) (r : Reply σ) : Prop :=
  r.result ≠ .success ∨
    ∃ n, 0 < n ∧ n ≤ s.wasmOutLen.toInt.toNat ∧
      (copyReply s p.memref2.buffer inst.mem).read s.wasmOutOffset.toNat n = v.take n ∧
      r = processHostcallFlow
        { ta with
          sess := some s.drained
          runtimeCtx := { ta.runtimeCtx with
            moduleInst := some { inst with mem := copyReply s p.memref2.buffer inst.mem } } }
        s.drained p env

/-- RESUME_WASM with a pending GET: the reply is copied, and the step
runs. -/
theorem AwaitsValue.resume (h : AwaitsValue ta s inst) (p : Params)
    (hp : p.types = Command.resumeWasm.paramTypes) (env : Env) :
    invokeCommandEntryPoint load ta .resumeWasm p env =
      processHostcallFlow
        { ta with
          sess := some s.drained
          runtimeCtx := { ta.runtimeCtx with
            moduleInst := some { inst with mem := copyReply s p.memref2.buffer inst.mem } } }
        s.drained p env := by
  have hrt : ¬ s.runtime = false := by rw [h.runtime]; decide
  simp only [invokeCommandEntryPoint, h.alive, hp, resumeWasm, h.sess, if_neg hrt, h.pending,
    h.moduleInst, Session.drained]
  rfl

/-- The buffer behind the reply: as much of the value as leaves room for a
terminator. -/
theorem AwaitsValue.copyReply (h : AwaitsValue ta s inst) {v : Bytes} (hv : v ≠ [])
    (h0 : (0 : UInt8) ∉ v) (hlt : v.length < valSize) :
    (copyReply s (writeReply .get (.getStateResponse v)) inst.mem).read s.wasmOutOffset.toNat
        s.wasmOutLen.toInt.toNat =
      pad s.wasmOutLen.toInt.toNat (v.take (s.wasmOutLen.toInt.toNat - 1)) := by
  have hlen := h.room
  have hstr : clip (s.wasmOutLen.toInt.toNat - 1)
      ((writeReply .get (.getStateResponse v)).drop keySize) =
        v.take (s.wasmOutLen.toInt.toNat - 1) := by
    rw [clip, cstr_writeReply_get, replyValue, WrapperMessage.getGetStateResponse, if_pos hlt,
      cstr_eq_self h0]
  have hne : v.take (s.wasmOutLen.toInt.toNat - 1) ≠ [] := by
    rw [Ne, List.take_eq_nil_iff]
    rintro (hz | hz)
    · omega
    · exact hv hz
  rw [copyReply_eq _ h.offset_ne h.len h.range, hstr, if_neg hne,
    Memory.read_write_fill (by rw [List.length_take]; omega)]

/-- **A value shorter than the value field is shown.** -/
theorem AwaitsValue.shows (h : AwaitsValue ta s inst) {v : Bytes} (hv : v ≠ [])
    (h0 : (0 : UInt8) ∉ v) (hlt : v.length < valSize) (env : Env) :
    ShowsOrFails ta s inst (resumeParams (writeReply .get (.getStateResponse v))) env v
      (invokeCommandEntryPoint load ta .resumeWasm
        (resumeParams (writeReply .get (.getStateResponse v))) env) := by
  have hlen := h.room
  have hpos : 0 < v.length := List.length_pos_iff.2 hv
  have hread := Memory.read_of_pad (h.copyReply hv h0 hlt) (by rw [List.length_take]; omega)
  refine .inr ⟨(v.take (s.wasmOutLen.toInt.toNat - 1)).length, ?_, ?_, ?_, h.resume _ rfl env⟩
  · rw [List.length_take]
    omega
  · rw [List.length_take]
    omega
  · rw [show (resumeParams (writeReply .get (.getStateResponse v))).memref2.buffer =
      writeReply .get (.getStateResponse v) from rfl, hread, List.length_take,
      ← List.take_take, List.take_length]

end Module

/-! ## The chaincode -/

namespace Coffee

variable {l : Ledger} {v : Bytes}

/-- **A value is never taken for absent**: not by a module that asks for
it, and not by the chaincode on a ledger that holds it. -/
structure NeverAbsent (D : Deployment) (v : Bytes) : Prop where
  shown : ∀ (σ : Type) (load : Loader σ) (ta : Ta σ) (s : Session) (inst : Instance σ) (env : Env),
    AwaitsValue ta s inst →
      ShowsOrFails ta s inst (resumeParams (writeReply .get (.getStateResponse v))) env v
        (invokeCommandEntryPoint load ta .resumeWasm
          (resumeParams (writeReply .get (.getStateResponse v))) env)
  /-- `create` does not overwrite it. -/
  kept : ∀ l f person rest x l', clip 63 f = Lit.create.text → l (clip 63 person) = some v →
    Invokes D l (f :: person :: rest) x l' → l' (clip 63 person) = some v
  /-- `add` does not answer EMPTY. -/
  added : ∀ l f person rest x l', clip 63 f = Lit.add.text → l (clip 63 person) = some v →
    Invokes D l (f :: person :: rest) x l' → x ≠ Lit.empty.text
  /-- `query` does not answer NOTFOUND. -/
  found : ∀ l f person rest x l', clip 63 f = Lit.query.text → l (clip 63 person) = some v →
    Invokes D l (f :: person :: rest) x l' → x ≠ Lit.notfound.text

/-- What a record that holds `v` reads as. -/
theorem stored_of_some {person : Bytes} (hl : l person = some v) (h0 : (0 : UInt8) ∉ v) :
    stored l person = if v.length < valSize then v else [] := by
  rw [stored, hl, Option.getD_some, replyValue, cstr_eq_self h0]

/-- **A stored value is never taken for absent if and only if the value
field has room for it** and it is not itself the answer NOTFOUND. It is a
non-empty value without a NUL, of any length, that a proto3 string can
carry. -/
theorem neverAbsent_iff (D : Deployment) {v : Bytes} (hv : v ≠ []) (h0 : (0 : UInt8) ∉ v) :
    NeverAbsent D v ↔ v.length < valSize ∧ v ≠ Lit.notfound.text := by
  constructor
  · intro h
    have hp : clip 63 (ascii "alice") ≠ [] := by decide
    have hread : stored (fun _ => some v) (clip 63 (ascii "alice")) =
        if v.length < valSize then v else [] := stored_of_some rfl h0
    constructor
    · -- otherwise `create` finds nothing and writes its amount, which is shorter
      by_contra hge
      rw [if_neg hge] at hread
      have hnew := h.kept (fun _ => some v) Lit.create.text (ascii "alice") [] _ _ (clip_lit _) rfl
        ((invokes_create_iff D hp).2 (.inr ⟨hread, rfl, rfl⟩))
      rw [Function.update_self] at hnew
      exact hv (Option.some.inj hnew).symm
    · intro he
      have hlt : v.length < valSize := by rw [he]; decide
      rw [if_pos hlt] at hread
      refine h.found (fun _ => some v) Lit.query.text (ascii "alice") [] _ _ (clip_lit _) rfl
        ((invokes_query_iff D hp).2 ⟨rfl, rfl⟩) ?_
      rw [hread, if_neg hv, he]
  · rintro ⟨hlt, hne⟩
    have hread : ∀ (l : Ledger) (person : Bytes), l person = some v → stored l person = v :=
      fun l person hl => by rw [stored_of_some hl h0, if_pos hlt]
    refine ⟨fun σ load ta s inst env ha => ha.shows hv h0 hlt env, ?_, ?_, ?_⟩
    · intro l f person rest x l' hf hl hi
      by_cases hp : clip 63 person = []
      · rw [invokes_nobody_iff D hf hp, Prod.mk.injEq] at hi
        rw [← hi.2, hl]
      · rw [invokes_iff D hp, hf, spec, if_pos rfl, if_pos (by rw [hread _ _ hl]; exact hv),
          Prod.mk.injEq] at hi
        rw [← hi.2, hl]
    · intro l f person rest x l' hf hl hi
      rw [invokes_somebody_iff D (by rw [hf]; intro he; exact absurd he (by decide)), hf, spec,
        if_neg (by decide), if_pos rfl, if_neg (by rw [hread _ _ hl]; exact hv),
        Prod.mk.injEq] at hi
      rw [← hi.1]
      decide
    · intro l f person rest x l' hf hl hi
      rw [invokes_somebody_iff D (by rw [hf]; intro he; exact absurd he (by decide)), hf, spec,
        if_neg (by decide), if_neg (by decide), if_pos rfl, hread _ _ hl, if_neg hv,
        Prod.mk.injEq] at hi
      rw [← hi.1]
      exact hne

/-- A balance. -/
theorem neverAbsent_iff_seven : NeverAbsent linkedDeployment (ascii "7") :=
  (neverAbsent_iff linkedDeployment (by decide) (by decide)).2 ⟨by decide, by decide⟩

/-- A value of 256 bytes. -/
def longValue : Bytes := List.replicate 256 120

/-- `create` overwrites a record that holds it. -/
theorem long_value_is_overwritten :
    Invokes linkedDeployment (fun _ => some longValue)
        [Lit.create.text, ascii "alice", ascii "7"] (ascii "OK")
        (Function.update (fun _ => some longValue) (ascii "alice") (some (ascii "7"))) ∧
      ¬ NeverAbsent linkedDeployment longValue := by
  have h0 : (0 : UInt8) ∉ longValue := by decide +kernel
  have hp : clip 63 (ascii "alice") ≠ [] := by decide
  have hread : stored (fun _ => some longValue) (clip 63 (ascii "alice")) = [] :=
    (stored_of_some rfl h0).trans (if_neg (by decide +kernel))
  have hrun : Invokes linkedDeployment (fun _ => some longValue)
      [Lit.create.text, ascii "alice", ascii "7"] (ascii "OK")
      (Function.update (fun _ => some longValue) (ascii "alice") (some (ascii "7"))) :=
    (invokes_create_iff linkedDeployment hp).2 (.inr ⟨hread, rfl, rfl⟩)
  refine ⟨hrun, fun h => ?_⟩
  have hnew := h.kept _ _ _ _ _ _ (clip_lit _) rfl hrun
  have hkey : clip 63 (ascii "alice") = ascii "alice" := by decide
  rw [hkey, Function.update_self] at hnew
  exact absurd hnew (by decide +kernel)

end Coffee

end TeeChaincode
