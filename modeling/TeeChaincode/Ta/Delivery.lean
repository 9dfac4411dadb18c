import TeeChaincode.Ta.Slot

/-!
# The range a value is delivered to

RESUME_WASM copies the value of a GET reply to the range the module gave.
It clears the range only where it also copies: an empty value, a range of
one byte and a range at offset zero leave the range as it was, so what the
module finds there depends on what it held before. In every other case the
range is a function of the value.
-/

namespace TeeChaincode

open Common

variable {σ : Type} {ta : Ta σ} {s : Session} {inst : Instance σ} {m : Memory} {reply : Bytes}

/-! ## Waiting for a value -/

/-- A module waits for a value, in a range of some length that lies in its
memory. -/
structure Ta.Awaits (ta : Ta σ) (s : Session) (inst : Instance σ) : Prop where
  alive : ta.panicked = false
  sess : ta.sess = some s
  runtime : s.runtime = true
  pending : s.pendingType = .getState
  moduleInst : ta.runtimeCtx.moduleInst = some inst
  len : 0 < s.wasmOutLen.toInt
  range : s.wasmOutOffset.toNat + s.wasmOutLen.toInt.toNat ≤ inst.mem.size

/-- The instance with other contents in that range. -/
def Instance.withRange (inst : Instance σ) (s : Session) (c : Bytes) : Instance σ :=
  { inst with mem := inst.mem.write s.wasmOutOffset.toNat c }

/-- The TA with other contents in that range. -/
def Ta.withRange (ta : Ta σ) (s : Session) (inst : Instance σ) (c : Bytes) : Ta σ :=
  { ta with runtimeCtx := { ta.runtimeCtx with moduleInst := some (inst.withRange s c) } }

/-- It waits like the other. -/
theorem Ta.Awaits.withRange (h : ta.Awaits s inst) (c : Bytes) :
    (ta.withRange s inst c).Awaits s (inst.withRange s c) :=
  ⟨h.alive, h.sess, h.runtime, h.pending, rfl, h.len, h.range⟩

/-- The value in the shared buffer. -/
def sharedValue (reply : Bytes) : Bytes := cstr (reply.drop keySize)

/-- What the range holds when RESUME_WASM enters the step, where it held
`c` before. -/
def delivered (s : Session) (inst : Instance σ) (reply c : Bytes) : Bytes :=
  (resumedInst s (inst.withRange s c) reply).mem.read s.wasmOutOffset.toNat s.wasmOutLen.toInt.toNat

/-- **The step is entered with the value delivered.** -/
theorem Ta.Awaits.enters (h : ta.Awaits s inst) (load : Loader σ) (b : Memref) (env : Env)
    (c : Bytes) :
    ∃ s₀, invokeCommandEntryPoint load (ta.withRange s inst c) .resumeWasm (resumeWith b) env =
      processHostcallFlow
        { ta with
          sess := some s₀
          runtimeCtx := { ta.runtimeCtx with
            moduleInst := some (resumedInst s (inst.withRange s c) b.buffer) } }
        s₀ (resumeWith b) env := by
  have hc := h.withRange c
  obtain ⟨s₀, -, hstart⟩ := resumeWasm_starts hc.sess hc.runtime hc.moduleInst (resumeWith b) env
  refine ⟨s₀, ?_⟩
  have hcmd : invokeCommandEntryPoint load (ta.withRange s inst c) .resumeWasm (resumeWith b) env =
      resumeWasm (ta.withRange s inst c) (resumeWith b) env := invoke_eq load hc.alive rfl env
  rw [hcmd, hstart]
  rfl

/-! ## What is delivered -/

/-- **The reply decides what is delivered**: whatever the range held, it
holds the value, cut to leave a terminator and with zeros behind it, and
the same for every reply with that value. -/
structure ReplyDecides (s : Session) (inst : Instance σ) (reply : Bytes) : Prop where
  same : ∀ reply' c c', sharedValue reply' = sharedValue reply →
    c.length = s.wasmOutLen.toInt.toNat → c'.length = s.wasmOutLen.toInt.toNat →
    delivered s inst reply c = delivered s inst reply' c'
  value : ∀ c, c.length = s.wasmOutLen.toInt.toNat → delivered s inst reply c =
    pad s.wasmOutLen.toInt.toNat ((sharedValue reply).take (s.wasmOutLen.toInt.toNat - 1))

/-- Where there is something to copy, and a place to copy it to. -/
theorem delivered_of_value (hp : s.pendingType = .getState) (h0 : s.wasmOutOffset ≠ 0)
    (hlen : 2 ≤ s.wasmOutLen.toInt)
    (hin : s.wasmOutOffset.toNat + s.wasmOutLen.toInt.toNat ≤ inst.mem.size)
    (hv : sharedValue reply ≠ []) (c : Bytes) :
    delivered s inst reply c =
      pad s.wasmOutLen.toInt.toNat ((sharedValue reply).take (s.wasmOutLen.toInt.toNat - 1)) := by
  have hne : clip (s.wasmOutLen.toInt.toNat - 1) (reply.drop keySize) ≠ [] := by
    rw [clip, Ne, List.take_eq_nil_iff]
    rintro (hz | hz)
    · omega
    · exact hv hz
  have hle := length_clip_le (s.wasmOutLen.toInt.toNat - 1) (reply.drop keySize)
  rw [delivered, resumedInst, if_pos hp]
  dsimp only
  rw [copyReply_eq (m := (inst.withRange s c).mem) _ h0 (by omega) hin, if_neg hne,
    Memory.read_write_fill (by omega)]
  rfl

/-- Everywhere else the range stays as it was. -/
theorem delivered_of_none (hp : s.pendingType = .getState) (hlen : 0 < s.wasmOutLen.toInt)
    (hin : s.wasmOutOffset.toNat + s.wasmOutLen.toInt.toNat ≤ inst.mem.size)
    (h : ¬ (s.wasmOutOffset ≠ 0 ∧ 2 ≤ s.wasmOutLen.toInt ∧ sharedValue reply ≠ []))
    {c : Bytes} (hc : c.length = s.wasmOutLen.toInt.toNat) : delivered s inst reply c = c := by
  have hkeep : copyReply s reply (inst.withRange s c).mem = (inst.withRange s c).mem := by
    by_cases h0 : s.wasmOutOffset = 0
    · simp [copyReply, h0]
    · have hnil : clip (s.wasmOutLen.toInt.toNat - 1) (reply.drop keySize) = [] := by
        rw [clip, List.take_eq_nil_iff]
        by_contra hno
        simp only [not_or] at hno
        exact h ⟨h0, by omega, hno.2⟩
      rw [copyReply_eq (m := (inst.withRange s c).mem) _ h0 hlen hin, if_pos hnil]
  rw [delivered, resumedInst, if_pos hp]
  dsimp only
  rw [hkeep, Instance.withRange, Memory.read_write_self rfl hc.le, List.drop_of_length_le,
    List.append_nil]
  rw [Memory.length_read, hc]

/-- **What is delivered is decided by the reply alone** if and only if the
range is not at offset zero, has room for a byte and a terminator, and the
value is not empty. This holds for every module that waits for a value,
and for whatever its memory holds; and what is said to be delivered is
what the step of the module is entered with. -/
theorem reply_decides_iff {σ : Type} {ta : Ta σ} {s : Session} {inst : Instance σ}
    (h : ta.Awaits s inst) (load : Loader σ) (b : Memref) :
    (∀ env c, ∃ s₀,
      invokeCommandEntryPoint load (ta.withRange s inst c) .resumeWasm (resumeWith b) env =
        processHostcallFlow
          { ta with
            sess := some s₀
            runtimeCtx := { ta.runtimeCtx with
              moduleInst := some (resumedInst s (inst.withRange s c) b.buffer) } }
          s₀ (resumeWith b) env) ∧
    (ReplyDecides s inst b.buffer ↔
      s.wasmOutOffset ≠ 0 ∧ 2 ≤ s.wasmOutLen.toInt ∧ sharedValue b.buffer ≠ []) := by
  refine ⟨fun env c => h.enters load b env c, ?_, ?_⟩
  · intro hd
    by_contra hno
    -- a range without a zero stays as it was, and would have to end in one
    have hkeep := delivered_of_none h.pending h.len h.range hno
      (c := List.replicate s.wasmOutLen.toInt.toNat 255) List.length_replicate
    have hval := hd.value (List.replicate s.wasmOutLen.toInt.toNat 255) List.length_replicate
    have hlen := h.len
    have hmem : (0 : UInt8) ∈ pad s.wasmOutLen.toInt.toNat
        ((sharedValue b.buffer).take (s.wasmOutLen.toInt.toNat - 1)) := by
      rw [pad_eq (by rw [List.length_take]; omega)]
      simp
    rw [← hval, hkeep] at hmem
    exact absurd (List.eq_of_mem_replicate hmem) (by decide)
  · rintro ⟨h0, hlen, hv⟩
    refine ⟨fun reply' c c' hsame _ _ => ?_,
      fun c _ => delivered_of_value h.pending h0 hlen h.range hv c⟩
    rw [delivered_of_value h.pending h0 hlen h.range hv c,
      delivered_of_value h.pending h0 hlen h.range (by rw [hsame]; exact hv) c', hsame]

/-- A module that asks for a key, into a range that holds `old`, and
answers with what it finds there. -/
def answersRange : WasmModule ℕ :=
  scripted (ascii "k" ++ List.replicate 7 0 ++ ascii "old") fun n =>
    if n = 0 then ⟨[.ccGetState 0 1 8 8], none⟩ else ⟨[.ccReturnResponse 8 3], none⟩

/-- It waits for the value. -/
theorem answersRange_awaits :
    ∃ s inst, (firstReply answersRange).ta.Awaits s inst ∧ s.wasmOutOffset = 8 ∧
      s.wasmOutLen = 8 :=
  ⟨_, _, ⟨rfl, rfl, rfl, rfl, rfl, by decide +kernel, by decide +kernel⟩, rfl, rfl⟩

/-- The buffer of the proxy with a value in its `key_value`. -/
def replyWith (value : Bytes) : Memref :=
  ⟨List.replicate keySize 0 ++ pad (sizeofArguments - keySize) value, sizeofArguments⟩

/-- A value is delivered whatever the range held. -/
theorem reply_decides_iff_new :
    ∃ s inst, (firstReply answersRange).ta.Awaits s inst ∧
      ReplyDecides s inst (replyWith (ascii "new")).buffer := by
  obtain ⟨s, inst, h, hoff, hlen⟩ := answersRange_awaits
  refine ⟨s, inst, h, (reply_decides_iff h (fun _ => some answersRange)
    (replyWith (ascii "new"))).2.2 ⟨?_, ?_, by decide +kernel⟩⟩
  · rw [hoff]
    decide
  · rw [hlen]
    decide

/-- The key is absent, and the module answers with what the range held. -/
theorem absent_key_shows_range :
    (∃ s inst, (firstReply answersRange).ta.Awaits s inst ∧
        ¬ ReplyDecides s inst (replyWith []).buffer) ∧
      (resumeAll (fun _ => some answersRange) (firstReply answersRange).ta
          [(replyWith [], Env.ok)]).map (fun r => dispatchReply r.tee) =
        [.writeResponse (.invocationResponse (ascii "old"))] := by
  obtain ⟨s, inst, h, hoff, hlen⟩ := answersRange_awaits
  refine ⟨⟨s, inst, h, fun hd => ?_⟩, by decide +kernel⟩
  have hempty : sharedValue (replyWith []).buffer = [] := by decide +kernel
  have hval := hd.value (List.replicate 8 255) (by rw [hlen]; decide)
  rw [delivered_of_none h.pending h.len h.range (fun hno => hno.2.2 hempty)
    (by rw [hlen]; decide), hlen, hempty] at hval
  exact absurd hval (by decide)

end TeeChaincode
