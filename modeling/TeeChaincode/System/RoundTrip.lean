import TeeChaincode.System.Answers
import TeeChaincode.System.Exchange
import TeeChaincode.System.Requests
import TeeChaincode.Ta.Slot

/-!
# State written and read back

What a module passes to `cc_put_state` crosses the session's slot, the
shared buffer, the two messages and the stub; what it asks for with
`cc_get_state` comes back the other way, into the range it gave. Each hop
has a bound of its own. Over the runs in which no request is lost they
fit together: a value that was put is in the write set, cut to 255 bytes
at most, and a range that is read into holds it up to its own length.
-/

namespace TeeChaincode

open Common

variable {σ : Type} {load : Loader σ} {files : Bytes → Option Bytes} {l : Ledger}
variable {s s' : Sys (TaRun σ)} {steps new : List (StepTrace σ)} {r : Reply σ}

/-! ## Steps that keep their request -/

/-- A command that makes a valid state call makes no other call that
could lose it. -/
def KeepsRequest (new : List (StepTrace σ)) : Prop := stateCalls new ≠ [] → OneRequest new

/-- A step of the system in which a request that is made is not lost. -/
def KeepsStep (load : Loader σ) (files : Bytes → Option Bytes) (s s' : Sys (TaRun σ)) : Prop :=
  Step (taTee load) files s s' ∧
    ∃ new, s'.tee.steps = s.tee.steps ++ new ∧ KeepsRequest new

/-- The last state call of a list of steps, valid or not. -/
def lastStateCall (steps : List (StepTrace σ)) : Option (NativeCall × Instance σ) :=
  ((callsOf steps).filter fun c => (c.1.request c.2.mem).isSome).getLast?

theorem lastStateCall_append (steps new : List (StepTrace σ)) :
    lastStateCall (steps ++ new) = (lastStateCall new).or (lastStateCall steps) := by
  simp only [lastStateCall, callsOf, List.flatMap_append, List.filter_append,
    List.getLast?_append]

/-- The last value of a partial function on a list is its value at the
last element that has one. -/
theorem getLast?_filterMap_of_filter {α β : Type} (f : α → Option β) (p : α → Bool)
    (hp : ∀ a, p a = (f a).isSome) {l : List α} {a : α} (h : (l.filter p).getLast? = some a) :
    (l.filterMap f).getLast? = f a := by
  induction l using List.reverseRecOn with
  | nil => cases h
  | append_singleton l b ih =>
    rw [List.filter_append, List.getLast?_append] at h
    rw [List.filterMap_append, List.getLast?_append]
    have hb := hp b
    cases hf : f b with
    | none =>
      rw [hf] at hb
      have hpb : p b = false := hb
      rw [List.filter_cons_of_neg (by rw [hpb]; decide)] at h
      rw [List.filterMap_cons_none hf]
      exact ih h
    | some y =>
      rw [hf] at hb
      have hpb : p b = true := hb
      rw [List.filter_cons_of_pos hpb] at h
      rw [List.filterMap_cons_some hf]
      obtain rfl := Option.some.inj h
      exact hf.symm

theorem lastStateCall_mem {c : NativeCall × Instance σ} (h : lastStateCall steps = some c) :
    c ∈ callsOf steps := by
  have hmem := List.mem_of_getLast? h
  exact List.mem_of_mem_filter hmem

theorem request_eq_none_of_lastStateCall (h : lastStateCall steps = none) :
    ∀ c ∈ callsOf steps, c.1.request c.2.mem = none := by
  intro c hc
  by_contra hne
  have hmem : c ∈ (callsOf steps).filter fun c => (c.1.request c.2.mem).isSome :=
    List.mem_filter.2 ⟨hc, Option.isSome_iff_ne_none.2 hne⟩
  rw [List.getLast?_eq_none_iff.1 h] at hmem
  exact List.not_mem_nil hmem

/-- Where the last state call is valid, a valid call has been made. -/
theorem stateCalls_ne_nil {c : NativeCall × Instance σ} (h : lastStateCall steps = some c)
    (hv : c.1.Valid c.2.mem) : stateCalls steps ≠ [] := by
  have hmem := List.mem_of_getLast? h
  obtain ⟨hc, hreq⟩ := List.mem_filter.1 hmem
  obtain ⟨q, hq⟩ := Option.isSome_iff_exists.1 hreq
  have hq' : q ∈ stateCalls steps :=
    List.mem_filterMap.2 ⟨c, hc, by rw [if_pos hv, hq]⟩
  exact List.ne_nil_of_mem hq'

theorem isSome_request {s : Session} (h : s.pendingType ≠ .none) : s.request.isSome = true := by
  unfold Session.request
  split
  · next hn => exact absurd hn h
  · rfl
  · rfl

/-! ## Commands -/

/-- A value a command asks to be put fits its field. -/
theorem Executed.put_fits {s : Session} {p : Params} (h : Executed s p r) {key value : Bytes}
    (hq : r.tee.request = some (.put key value)) : value.length < valSize := by
  cases h with
  | failed hres _ =>
    unfold TeeReply.request Reply.tee at hq
    rw [if_pos hres] at hq
    cases hq
  | answered init last hres _ _ _ _ _ hparams =>
    have hfits := fits_answer (s.after (callsOf r.steps)) last
    rw [request_of_params hres hparams hfits] at hq
    generalize (if last.ended.ok then asked (s.after (callsOf r.steps))
      else .answer (ascii "RUNTIME_ERROR")) = a at hq hfits
    cases a with
    | put key' value' =>
      obtain ⟨rfl, rfl⟩ := Request.put.inj (Option.some.inj hq)
      exact hfits.2.2
    | get => cases hq
    | answer => cases hq

/-- A command behind which the proxy goes on asking has left its request
in the session. -/
theorem Executed.asks {s : Session} {p : Params} (h : Executed s p r)
    (hw : (dispatchReply r.tee).Waits) :
    r.result = .success ∧ r.ta.sess = some (s.after (callsOf r.steps)) ∧
      r.tee.request = (s.after (callsOf r.steps)).request ∧
      (s.after (callsOf r.steps)).pendingType ≠ .none := by
  cases h with
  | failed hres _ =>
    unfold dispatchReply Reply.tee at hw
    rw [if_pos hres] at hw
    exact absurd hw id
  | answered init last hres _ _ _ _ hsess hparams =>
    have hfits := fits_answer (s.after (callsOf r.steps)) last
    have hreq := request_of_params hres hparams hfits
    rw [dispatchReply_of_params hres hparams hfits] at hw
    cases hl : last.ended.ok with
    | false =>
      rw [hl] at hw
      exact absurd hw id
    | true =>
      rw [hl, if_pos rfl] at hw hreq
      refine ⟨hres, hsess, by rw [hreq, request_asked], fun hp => ?_⟩
      rw [asked_of_none hp] at hw
      exact absurd hw id

/-! ## What has been put -/

/-- Every valid state call has been emitted, every value that was emitted
fits its field, and the session is fresh up to RUN_WASM. -/
structure Emitted (s : Sys (TaRun σ)) : Prop where
  requests : ∀ q ∈ stateCalls s.tee.steps, q ∈ teeRequests s.trace
  fits : ∀ key value, .put key value ∈ teeRequests s.trace → value.length < valSize
  fresh : s.handler.stage = .arriving → s.tee.ta = initializeSession

theorem Emitted.step (h : Emitted s) (hst : TaStep load s s')
    (hkeep : ∀ new, s'.tee.steps = s.tee.steps ++ new → KeepsRequest new) : Emitted s' := by
  have hfresh := hst.fresh h.fresh
  cases hst with
  | off hsteps hreqs _ _ =>
    exact ⟨by rw [hsteps, hreqs]; exact h.requests, by rw [hreqs]; exact h.fits, hfresh⟩
  | @command r hr hreqs htee _ =>
    have hnew := hkeep r.steps (by rw [htee])
    obtain ⟨s₀, p, hs₀, hex⟩ := hr.executed h.fresh
    refine ⟨fun q hq => ?_, fun key value hq => ?_, hfresh⟩
    · rw [htee, stateCalls_append] at hq
      rw [hreqs]
      rcases List.mem_append.1 hq with hold | hmade
      · exact List.mem_append_left _ (h.requests q hold)
      · -- the command has made a valid call, so it emits what it made
        have hone := hnew (List.ne_nil_of_mem hmade)
        rw [hex.emits hs₀ hone, ← stateCalls_of_valid hone.valid]
        exact List.mem_append_right _ hmade
    · rw [hreqs] at hq
      rcases List.mem_append.1 hq with hold | hmade
      · exact h.fits key value hold
      · exact hex.put_fits (Option.mem_toList.1 hmade)

/-! ## What is waited for -/

/-- What the TA holds for the reply to a state call: the request in the
slot, with a range that lies in linear memory, and a module to resume. -/
structure Held (ta : Ta σ) (c : NativeCall × Instance σ) : Prop where
  live : ta.Live
  slot : ∃ s, ta.sess = some s ∧ s.slot = c.1.slot c.2.mem
  room : ∃ inst, ta.runtimeCtx.moduleInst = some inst ∧ c.2.mem.size ≤ inst.mem.size

/-- **The reply that is waited for** is the one to the last state call, if
that was valid. -/
structure Awaited (s : Sys (TaRun σ)) : Prop where
  fresh : s.handler.stage = .arriving → s.tee.ta = initializeSession
  growing : s.handler.Waits → s.tee.ta.Growing
  pending : s.handler.Waits → ∀ c, lastStateCall s.tee.steps = some c → c.1.Valid c.2.mem →
    (teeRequests s.trace).getLast? = c.1.request c.2.mem ∧ Held s.tee.ta c

/-- A command whose reply is to be waited for. -/
theorem Executed.held {s₀ : Session} {p : Params} (hex : Executed s₀ p r)
    (hs₀ : s₀.pendingType = .none) (hready : Ready r.ta (callsOf r.steps))
    (hkeep : KeepsRequest r.steps) (hw : (dispatchReply r.tee).Waits)
    {c : NativeCall × Instance σ} (hc : (lastStateCall r.steps).or (lastStateCall steps) = some c)
    (hv : c.1.Valid c.2.mem) :
    r.tee.request = c.1.request c.2.mem ∧ Held r.ta c := by
  obtain ⟨-, hsess, hreq, hpend⟩ := hex.asks hw
  -- something is pending, so the command itself has made a state call
  have hlast : lastStateCall r.steps = some c := by
    cases hl : lastStateCall r.steps with
    | some d =>
      rw [hl] at hc
      exact hc
    | none =>
      exact absurd (pendingType_after (request_eq_none_of_lastStateCall hl) hs₀) hpend
  obtain ⟨hvalid, hone, hok⟩ := hkeep (stateCalls_ne_nil hlast hv)
  have hnil : s₀.request = none := by rw [Session.request, hs₀]
  have hnil' : s₀.slot = none := by rw [Session.slot, hnil]; rfl
  have hlastReq : (requests (callsOf r.steps)).getLast? = c.1.request c.2.mem :=
    getLast?_filterMap_of_filter _ _ (fun _ => rfl) hlast
  have hlastSlot : ((callsOf r.steps).filterMap fun c => c.1.slot c.2.mem).getLast? =
      c.1.slot c.2.mem :=
    getLast?_filterMap_of_filter _ _
      (fun d : NativeCall × Instance σ => (isSome_slot d.1 d.2.mem).symm) hlast
  refine ⟨?_, hready.live, ⟨_, hsess, ?_⟩, ?_⟩
  · rw [hreq, request_after hvalid, hlastReq, hnil, Option.or_none]
  · rw [slot_after hvalid, hlastSlot, hnil', Option.or_none]
  · obtain ⟨inst, hi, hroom⟩ := hready.room
    exact ⟨inst, hi, hroom c (lastStateCall_mem hlast)⟩

/-- What a command leaves, where it succeeded, is ready for a reply. -/
theorem TeeCommand.ready {ta : Ta σ} {hd : Handler} (h : TeeCommand load ta r hd)
    (hload : ∀ wasm M, load wasm = some M → M.Grows)
    (hfresh : hd.stage = .arriving → ta = initializeSession) (hg : hd.Waits → ta.Growing)
    (hres : r.result = .success) : Ready r.ta (callsOf r.steps) := by
  cases h with
  | run wasm buf env hr =>
    obtain rfl := hfresh rfl
    subst hr
    have hs : (initializeSession : Ta σ).sess = some Session.zero := rfl
    exact runWasm_ready hload rfl hs hres
  | resume buf env hr =>
    subst hr
    exact resume_ready (hg trivial) hres

theorem Awaited.step (h : Awaited s) (hst : TaStep load s s')
    (hload : ∀ wasm M, load wasm = some M → M.Grows)
    (hkeep : ∀ new, s'.tee.steps = s.tee.steps ++ new → KeepsRequest new) : Awaited s' := by
  have hfresh := hst.fresh h.fresh
  cases hst with
  | off hsteps hreqs _ hwaits =>
    refine ⟨hfresh, fun hw => ?_, fun hw c hc hv => ?_⟩
    · obtain ⟨hw', htee⟩ := hwaits hw
      rw [htee]
      exact h.growing hw'
    · obtain ⟨hw', htee⟩ := hwaits hw
      rw [htee] at hc ⊢
      rw [hreqs]
      exact h.pending hw' c hc hv
  | @command r hr hreqs htee hhd =>
    have hnew := hkeep r.steps (by rw [htee])
    obtain ⟨s₀, p, hs₀, hex⟩ := hr.executed h.fresh
    refine ⟨hfresh, fun hw => ?_, fun hw c hc hv => ?_⟩
    · rw [hhd] at hw
      rw [htee]
      exact (hr.ready hload h.fresh h.growing (hex.asks hw).1).growing
    · rw [hhd] at hw
      rw [htee, lastStateCall_append] at hc
      have hready := hr.ready hload h.fresh h.growing (hex.asks hw).1
      obtain ⟨hreq, hheld⟩ := hex.held hs₀ hready hnew hw hc hv
      obtain ⟨q, hq⟩ : ∃ q, r.tee.request = some q := by
        obtain ⟨-, -, hr', hpend⟩ := hex.asks hw
        rw [hr']
        exact Option.isSome_iff_exists.1 (isSome_request hpend)
      rw [hreqs, List.getLast?_append, getLast?_toList, htee]
      refine ⟨?_, hheld⟩
      rw [← hreq, hq]
      rfl

/-! ## Runs -/

variable {uuid ccfile : Bytes} {args : List Bytes}

theorem KeepsStep.taStep (h : KeepsStep load files s s') :
    TaStep load s s' ∧ ∀ new, s'.tee.steps = s.tee.steps ++ new → KeepsRequest new := by
  obtain ⟨hst, new, hnew, hkeep⟩ := h
  refine ⟨taStep_of_step hst, fun new' hnew' => ?_⟩
  obtain rfl := List.append_cancel_left (hnew.symm.trans hnew')
  exact hkeep

theorem emitted_of_run (h : Relation.ReflTransGen (KeepsStep load files)
    (Sys.init freshRun uuid ccfile args l) s) : Emitted s := by
  refine invariant_of_step (fun _ _ ha hs => ha.step hs.taStep.1 hs.taStep.2) h ?_
  exact ⟨nofun, nofun, fun _ => rfl⟩

theorem awaited_of_run (hload : ∀ wasm M, load wasm = some M → M.Grows)
    (h : Relation.ReflTransGen (KeepsStep load files)
      (Sys.init freshRun uuid ccfile args l) s) : Awaited s := by
  refine invariant_of_step (fun _ _ ha hs => ha.step hs.taStep.1 hload hs.taStep.2) h ?_
  exact ⟨fun _ => rfl, nofun, nofun⟩

theorem run_of_keepsStep (h : Relation.ReflTransGen (KeepsStep load files)
    (Sys.init freshRun uuid ccfile args l) s) :
    Relation.ReflTransGen (Step (taTee load) files)
      (Sys.init freshRun uuid ccfile args l) s :=
  Relation.ReflTransGen.mono (fun _ _ hs => hs.1) _ _ h

/-! ## The write set -/

/-- A write of an invocation that no later one replaces. -/
def LastWrite (writes : List (Bytes × Bytes)) (key value : Bytes) : Prop :=
  ∃ pre post, writes = pre ++ (key, value) :: post ∧ ∀ e ∈ post, e.1 ≠ key

/-- It is the entry that is committed. -/
theorem commit_of_lastWrite {stub : Stub} {key value : Bytes}
    (h : LastWrite stub.writes key value) : stub.commit key = some value := by
  obtain ⟨pre, post, hwrites, hpost⟩ := h
  rw [Stub.commit, hwrites, List.foldl_append, List.foldl_cons]
  generalize List.foldl _ stub.committed pre = l
  clear hwrites
  -- by the writes behind it, last first
  induction post using List.reverseRecOn with
  | nil => exact Function.update_self ..
  | append_singleton post e ih =>
    have hne : key ≠ e.1 := fun heq => hpost e (by simp) heq.symm
    rw [List.foldl_append, List.foldl_cons, List.foldl_nil, Function.update_of_ne hne]
    exact ih fun d hd => hpost d (List.mem_append_left _ hd)

theorem mem_putsOf {reqs : List Request} {key value : Bytes} :
    (key, value) ∈ putsOf reqs ↔ .put key value ∈ reqs := by
  unfold putsOf
  rw [List.mem_filterMap]
  constructor
  · rintro ⟨q, hq, heq⟩
    cases q with
    | get => cases heq
    | put k v =>
      obtain ⟨rfl, rfl⟩ := Prod.mk.inj (Option.some.inj heq)
      exact hq
  · intro h
    exact ⟨_, h, rfl⟩

/-- What a successful invocation has put is in its write set. -/
theorem mem_writes {x key value : Bytes}
    (h : Relation.ReflTransGen (KeepsStep load files)
      (Sys.init freshRun uuid ccfile args l) s)
    (hx : s.wrapper = .done (.success x)) (hq : .put key value ∈ stateCalls s.tee.steps) :
    (key, value) ∈ s.stub.writes := by
  have hrun := run_of_keepsStep h
  obtain ⟨rest, hreq, -, hrest⟩ := (conforming_of_run hrun).requests
  obtain ⟨failed, hputs, hfailed⟩ := writeSet_of_run hrun
  rw [hrest x hx, List.append_nil] at hreq
  have hnone : failed = [] := by
    by_contra hne
    obtain ⟨e, he⟩ := hfailed hne
    rw [hx] at he
    cases he
  rw [hnone, List.append_nil] at hputs
  rw [← hputs, mem_putsOf, ← hreq]
  exact (emitted_of_run h).requests _ hq

/-- Every value of a write set fits the value field. -/
theorem writes_fit
    (h : Relation.ReflTransGen (KeepsStep load files)
      (Sys.init freshRun uuid ccfile args l) s) :
    ∀ e ∈ s.stub.writes, e.2.length < valSize := by
  intro e he
  have hrun := run_of_keepsStep h
  obtain ⟨rest, hreq, -⟩ := (conforming_of_run hrun).requests
  obtain ⟨failed, hputs, -⟩ := writeSet_of_run hrun
  refine (emitted_of_run h).fits e.1 e.2 ?_
  rw [hreq]
  refine List.mem_append_left _ (mem_putsOf.1 ?_)
  rw [hputs]
  exact List.mem_append_left _ he

/-! ## The round trip -/

/-- A module is about to be resumed behind a valid `cc_get_state` for a
key, with a range its value goes to. -/
structure Reading (load : Loader σ) (files : Bytes → Option Bytes) (l : Ledger)
    (s : Sys (TaRun σ)) (key : Bytes) (outPtr : UInt32) (outLen : Int32) (buf : Bytes) : Prop where
  modules : ∀ wasm M, load wasm = some M → M.Grows
  run : ∃ uuid ccfile args, Relation.ReflTransGen (KeepsStep load files)
    (Sys.init freshRun uuid ccfile args l) s
  handler : s.handler = .resume buf
  call : ∃ keyPtr keyLen inst,
    lastStateCall s.tee.steps = some (.ccGetState keyPtr keyLen outPtr outLen, inst) ∧
      (NativeCall.ccGetState keyPtr keyLen outPtr outLen).Valid inst.mem ∧
      clip 63 (addressed inst.mem keyPtr keyLen) = key

/-- **The value has been read back**: RESUME_WASM goes on with its
`step_resume` in a linear memory whose output range holds the value, cut
to leave a terminator and with zeros behind it, and that is otherwise the
one before the command. -/
def ReadsBack (load : Loader σ) (ta : Ta σ) (value : Bytes) (outPtr : UInt32) (outLen : Int32)
    (buf : Bytes) : Prop :=
  ∃ inst mem, ta.runtimeCtx.moduleInst = some inst ∧
    (∀ env, ∃ s₀, invokeCommandEntryPoint load ta .resumeWasm (resumeParams buf) env =
      processHostcallFlow
        { ta with
          sess := some s₀
          runtimeCtx := { ta.runtimeCtx with moduleInst := some { inst with mem := mem } } }
        s₀ (resumeParams buf) env) ∧
    mem.read outPtr.toNat outLen.toInt.toNat =
      pad outLen.toInt.toNat (value.take (outLen.toInt.toNat - 1)) ∧
    inst.mem.SameOutside mem outPtr.toNat outLen.toInt.toNat

/-- A value the system wrote comes back whole. -/
theorem replyValue_clip (v : Bytes) : replyValue (clip 255 v) = clip 255 v := by
  have hlen := length_clip_le 255 v
  have hlt : (clip 255 v).length < valSize := by
    rw [show valSize = 256 from rfl]
    omega
  rw [replyValue, if_pos hlt, cstr_clip]

/-- A slot that holds a GET request. -/
theorem pending_of_slot {ses : Session} {key : Bytes} {outPtr : UInt32} {outLen : Int32}
    (h : ses.slot = some (.get key, outPtr, outLen)) :
    ses.pendingType = .getState ∧ ses.wasmOutOffset = outPtr ∧ ses.wasmOutLen = outLen := by
  obtain ⟨q, hq, heq⟩ := Option.map_eq_some_iff.1 h
  obtain ⟨rfl, rfl, rfl⟩ : q = .get key ∧ ses.wasmOutOffset = outPtr ∧ ses.wasmOutLen = outLen := by
    simpa using heq
  refine ⟨?_, rfl, rfl⟩
  unfold Session.request at hq
  cases hp : ses.pendingType with
  | getState => rfl
  | none =>
    rw [hp] at hq
    cases hq
  | putState =>
    rw [hp] at hq
    cases hq

/-- The reply that carries such a value fills the range of the slot. -/
theorem copyReply_writeReply {ses : Session} {m : Memory} {v : Bytes} (hne : clip 255 v ≠ [])
    (hout : ses.wasmOutOffset ≠ 0) (hlen : 2 ≤ ses.wasmOutLen.toInt)
    (hin : ses.wasmOutOffset.toNat + ses.wasmOutLen.toInt.toNat ≤ m.size) :
    copyReply ses (writeReply .get (.getStateResponse (clip 255 v))) m =
      (m.fill ses.wasmOutOffset.toNat ses.wasmOutLen.toInt.toNat 0).write ses.wasmOutOffset.toNat
        ((clip 255 v).take (ses.wasmOutLen.toInt.toNat - 1)) := by
  have hstr : clip (ses.wasmOutLen.toInt.toNat - 1)
      ((writeReply .get (.getStateResponse (clip 255 v))).drop keySize) =
        (clip 255 v).take (ses.wasmOutLen.toInt.toNat - 1) := by
    rw [clip, cstr_writeReply_get]
    exact congrArg _ (replyValue_clip v)
  have hcut : (clip 255 v).take (ses.wasmOutLen.toInt.toNat - 1) ≠ [] := by
    rw [Ne, List.take_eq_nil_iff]
    rintro (hz | hz)
    · omega
    · exact hne hz
  rw [copyReply_eq _ hout (by omega) hin, hstr, if_neg hcut]

/-- **What the ledger holds is read back.** -/
theorem Reading.readsBack {key v : Bytes} {outPtr : UInt32} {outLen : Int32} {buf : Bytes}
    (h : Reading load files l s key outPtr outLen buf) (hl : l key = some (clip 255 v))
    (hne : clip 255 v ≠ []) (hout : outPtr ≠ 0) (hlen : 2 ≤ outLen.toInt) :
    ReadsBack load s.tee.ta (clip 255 v) outPtr outLen buf := by
  obtain ⟨hload, ⟨uuid, ccfile, args, hrun⟩, hhd, keyPtr, keyLen, inst₀, hlast, hv, rfl⟩ := h
  have hw : s.handler.Waits := by rw [hhd]; trivial
  obtain ⟨hreq, hlive, ⟨ses, hses, hslot⟩, inst, hinst, hroom⟩ :=
    (awaited_of_run hload hrun).pending hw _ hlast hv
  -- the buffer is the ledger's answer to this call
  obtain ⟨q, hq, rfl⟩ := (exchange_of_run (run_of_keepsStep hrun)).resume hhd
  rw [hreq] at hq
  obtain rfl := Option.some.inj hq
  have hbuf : replyTo l (.get (clip 63 (addressed inst₀.mem keyPtr keyLen))) =
      .getStateResponse (clip 255 v) := by
    simp only [replyTo, hl, Option.getD_some]
  rw [hbuf]
  -- the range is the one in the slot, and still lies in linear memory
  obtain ⟨hpend, rfl, rfl⟩ := pending_of_slot hslot
  obtain ⟨-, -, hfits⟩ := hv
  have hcopy := copyReply_writeReply hne hout hlen (hfits.trans hroom)
  have hcut : ((clip 255 v).take (ses.wasmOutLen.toInt.toNat - 1)).length ≤
      ses.wasmOutLen.toInt.toNat := by
    rw [List.length_take]
    omega
  obtain ⟨halive, ⟨ses', hses', hrt⟩, -, -⟩ := hlive
  obtain rfl : ses' = ses := Option.some.inj (hses'.symm.trans hses)
  refine ⟨inst, _, hinst, fun env => ?_, Memory.read_write_fill hcut,
    Memory.SameOutside.fill.trans (Memory.SameOutside.write le_rfl (by omega))⟩
  obtain ⟨s₀, -, hstart⟩ := resumeWasm_starts hses hrt hinst
    (resumeParams (writeReply .get (.getStateResponse (clip 255 v)))) env
  refine ⟨s₀, ?_⟩
  rw [resumedInst, if_pos hpend] at hstart
  rw [← hcopy, invoke_resume load halive]
  exact hstart

/-- **State that was put is read back** where no request is lost. Let an
invocation succeed in which every TEE command that makes a valid state
call makes no other one, none of its steps fails, and no length it passes
to `cc_return_response` is negative. Then each `cc_put_state` with ranges
in linear memory has written the entry of its key, up to the first NUL
and cut to 63 bytes, with its value, up to the first NUL and cut to 255;
no value written is as long as the value field; and where the entry has
not been replaced, a later such invocation that asks for the key resumes
its module with as much of the value as the range it gave holds. -/
theorem state_round_trip {σ₁ : Type} (load₁ : Loader σ₁) (files₁ : Bytes → Option Bytes)
    (uuid ccfile : Bytes) (args : List Bytes) (l₁ : Ledger) {s₁ : Sys (TaRun σ₁)}
    (h₁ : Relation.ReflTransGen (KeepsStep load₁ files₁)
      (Sys.init freshRun uuid ccfile args l₁) s₁)
    {x : Bytes} (hx : s₁.wrapper = .done (.success x))
    {keyPtr valPtr : UInt32} {keyLen valLen : Int32} {inst : Instance σ₁}
    (hc : (.ccPutState keyPtr keyLen valPtr valLen, inst) ∈ callsOf s₁.tee.steps)
    (hv : (NativeCall.ccPutState keyPtr keyLen valPtr valLen).Valid inst.mem)
    {key value : Bytes} (hkey : key = clip 63 (addressed inst.mem keyPtr keyLen))
    (hvalue : value = clip 255 (addressed inst.mem valPtr valLen)) :
    (key, value) ∈ s₁.stub.writes ∧
    (∀ e ∈ s₁.stub.writes, e.2.length < valSize) ∧
    ∀ (σ₂ : Type) (load₂ : Loader σ₂) (files₂ : Bytes → Option Bytes) (l₂ : Ledger)
      (s₂ : Sys (TaRun σ₂)) (outPtr : UInt32) (outLen : Int32) (buf : Bytes),
      LastWrite s₁.stub.writes key value → l₂ key = s₁.stub.commit key →
      Reading load₂ files₂ l₂ s₂ key outPtr outLen buf →
      value ≠ [] → outPtr ≠ 0 → 2 ≤ outLen.toInt →
      ReadsBack load₂ s₂.tee.ta value outPtr outLen buf := by
  subst hkey hvalue
  have hput : .put (clip 63 (addressed inst.mem keyPtr keyLen))
      (clip 255 (addressed inst.mem valPtr valLen)) ∈ stateCalls s₁.tee.steps :=
    List.mem_filterMap.2 ⟨_, hc, if_pos hv⟩
  refine ⟨mem_writes h₁ hx hput, writes_fit h₁, ?_⟩
  intro σ₂ load₂ files₂ l₂ s₂ outPtr outLen buf hlast hl hreading hne hout hlen
  rw [commit_of_lastWrite hlast] at hl
  exact hreading.readsBack hl hne hout hlen

/-! ## Three runs -/

instance (steps : List (StepTrace σ)) : Decidable (OneRequest steps) :=
  decidable_of_iff ((∀ c ∈ callsOf steps, c.1.Valid c.2.mem) ∧
      (requests (callsOf steps)).length ≤ 1 ∧
      (requests (callsOf steps) ≠ [] → ∀ tr ∈ steps, tr.ended.ok = true))
    ⟨fun h => ⟨h.1, h.2.1, h.2.2⟩, fun h => ⟨h.valid, h.one, h.ok⟩⟩

instance (steps : List (StepTrace σ)) : Decidable (KeepsRequest steps) :=
  inferInstanceAs (Decidable (_ → _))

/-- The system behind a list of moves that keep their request. -/
def Sys.keepingMoves (load : Loader σ) (files : Bytes → Option Bytes) (s : Sys (TaRun σ))
    (ms : List (Move Env)) : Option (Sys (TaRun σ)) :=
  ms.foldlM (fun s m => (s.move (taTee load) files m).filter fun s' =>
    KeepsRequest (s'.tee.steps.drop s.tee.steps.length)) s

theorem reaches_of_keepingMoves {ms : List (Move Env)}
    (h : s.keepingMoves load files ms = some s') :
    Relation.ReflTransGen (KeepsStep load files) s s' := by
  induction ms generalizing s with
  | nil =>
    obtain rfl : s = s' := by simpa [Sys.keepingMoves] using h
    exact .refl
  | cons m ms ih =>
    rw [Sys.keepingMoves, List.foldlM_cons, Option.bind_eq_bind, Option.bind_eq_some_iff] at h
    obtain ⟨s₁, h₁, h₂⟩ := h
    obtain ⟨hmove, hkeep⟩ := Option.filter_eq_some_iff.1 h₁
    refine .head ⟨step_of_move hmove, _, ?_, of_decide_eq_true hkeep⟩ (ih h₂)
    cases taStep_of_step (step_of_move hmove) with
    | off hsteps _ _ _ => rw [hsteps, List.drop_length, List.append_nil]
    | command _ _ htee _ => rw [htee, List.drop_left]

/-- A module that puts `b` under `a` and then answers. -/
def putsAndAnswers : Loader ℕ := fun _ => some <| scripted (ascii "ab") fun n =>
  if n = 0 then ⟨[.ccPutState 0 1 1 1], none⟩ else ⟨[.ccReturnResponse 0 1], none⟩

/-- A module that asks for `a`. -/
def getsOnce : Loader Unit := fun _ => some {
  export? := fun
    | .stepInit => some (pure ())
    | .stepResume => some (discard (GuestM.call (.ccGetState 0 1 2 4)))
  initial := ⟨(), ⟨wasmPage, fun i => (ascii "a").getD i 0⟩⟩ }

theorem getsOnce_grows : ∀ wasm M, getsOnce wasm = some M → M.Grows := by
  intro wasm M hM name fn hfn inst
  obtain rfl := Option.some.inj hM
  cases name with
  | stepInit =>
    obtain rfl := Option.some.inj hfn
    exact le_rfl
  | stepResume =>
    obtain rfl := Option.some.inj hfn
    exact ⟨le_rfl, fun _ _ _ => le_rfl⟩

/-- The moves of an invocation with one request, up to its RESUME_WASM. -/
def upToResume : List (Move Env) := oneRequestRun.take 10

theorem putsAndAnswers_run :
    ∃ s, Relation.ReflTransGen (KeepsStep putsAndAnswers fun _ => some smallestWasm)
        (Sys.init freshRun [] [] [[], []] fun _ => none) s ∧
      s.wrapper = .done (.success (ascii "a")) ∧ s.stub.writes = [(ascii "a", ascii "b")] ∧
      ∃ inst, (.ccPutState 0 1 1 1, inst) ∈ callsOf s.tee.steps ∧
        (NativeCall.ccPutState 0 1 1 1).Valid inst.mem ∧
        ascii "a" = clip 63 (addressed inst.mem 0 1) ∧
        ascii "b" = clip 255 (addressed inst.mem 1 1) := by
  have hrun : ((Sys.init freshRun [] [] [[], []] fun _ => none).keepingMoves
      putsAndAnswers (fun _ => some smallestWasm) oneRequestRun).any (fun s =>
        s.wrapper = .done (.success (ascii "a")) ∧ s.stub.writes = [(ascii "a", ascii "b")] ∧
          (callsOf s.tee.steps).head?.any fun c => c.1 = .ccPutState 0 1 1 1 ∧
            c.1.Valid c.2.mem ∧ ascii "a" = clip 63 (addressed c.2.mem 0 1) ∧
            ascii "b" = clip 255 (addressed c.2.mem 1 1)) = true := by
    decide +kernel
  obtain ⟨s, hs, hend⟩ := (Option.any_eq_true _ _).1 hrun
  obtain ⟨hw, hwrites, hcall⟩ := of_decide_eq_true hend
  obtain ⟨⟨c, inst⟩, hc, hval⟩ := (Option.any_eq_true _ _).1 hcall
  obtain ⟨rfl, hvalid, hk, hv⟩ := of_decide_eq_true hval
  exact ⟨s, reaches_of_keepingMoves hs, hw, hwrites, inst, List.mem_of_head? hc, hvalid, hk, hv⟩

/-- A ledger that holds `b` under `a`. -/
def abLedger : Ledger := fun key => if key = ascii "a" then some (ascii "b") else none

theorem getsOnce_reading :
    ∃ s buf, Reading getsOnce (fun _ => some smallestWasm) abLedger s (ascii "a") 2 4 buf := by
  have hrun : ((Sys.init freshRun [] [] [[], []] abLedger).keepingMoves
      getsOnce (fun _ => some smallestWasm) upToResume).any (fun s =>
        s.handler = .resume (writeReply .get (.getStateResponse (ascii "b"))) ∧
          (lastStateCall s.tee.steps).any fun c => c.1 = .ccGetState 0 1 2 4 ∧
            c.1.Valid c.2.mem ∧ clip 63 (addressed c.2.mem 0 1) = ascii "a") = true := by
    decide +kernel
  obtain ⟨s, hs, hend⟩ := (Option.any_eq_true _ _).1 hrun
  obtain ⟨hh, hcall⟩ := of_decide_eq_true hend
  obtain ⟨⟨c, inst⟩, hc, hval⟩ := (Option.any_eq_true _ _).1 hcall
  obtain ⟨rfl, hvalid, hk⟩ := of_decide_eq_true hval
  exact ⟨s, _, getsOnce_grows, ⟨[], [], [[], []], reaches_of_keepingMoves hs⟩, hh, 0, 1, inst, hc,
    hvalid, hk⟩

/-- What the first module puts, the second reads back. -/
theorem state_round_trip_ab :
    ∃ (s₁ : Sys (TaRun ℕ)) (s₂ : Sys (TaRun Unit)) (buf : Bytes),
      (ascii "a", ascii "b") ∈ s₁.stub.writes ∧ abLedger (ascii "a") = s₁.stub.commit (ascii "a") ∧
      s₂.handler = .resume buf ∧ ReadsBack getsOnce s₂.tee.ta (ascii "b") 2 4 buf := by
  obtain ⟨s₁, h₁, hx, hwrites, inst, hc, hv, hk, hval⟩ := putsAndAnswers_run
  obtain ⟨s₂, buf, hreading⟩ := getsOnce_reading
  obtain ⟨hmem, -, hback⟩ := state_round_trip _ _ _ _ _ _ h₁ hx hc hv hk hval
  have hlast : LastWrite s₁.stub.writes (ascii "a") (ascii "b") := ⟨[], [], hwrites, nofun⟩
  have hl : abLedger (ascii "a") = s₁.stub.commit (ascii "a") :=
    (if_pos rfl).trans (commit_of_lastWrite hlast).symm
  exact ⟨s₁, s₂, buf, hmem, hl, hreading.handler,
    hback _ _ _ _ _ _ _ _ hlast hl hreading (by decide) (by decide) (by decide)⟩

/-- A module whose `step_init` puts `a` under `a`, and whose first
`step_resume` puts `b` under `b`; then it answers. -/
def putsTwice : Loader ℕ := fun _ => some {
  scripted (ascii "ab") fun n =>
    if n = 0 then ⟨[.ccPutState 1 1 1 1], none⟩ else ⟨[.ccReturnResponse 0 1], none⟩ with
  export? := fun
    | .stepInit => some (discard (GuestM.call (.ccPutState 0 1 0 1)))
    | .stepResume => (scripted (ascii "ab") fun n =>
        if n = 0 then ⟨[.ccPutState 1 1 1 1], none⟩
        else ⟨[.ccReturnResponse 0 1], none⟩).export? .stepResume }

/-- Each of its steps makes at most one request and returns, the
invocation succeeds, and the first entry is not written. -/
theorem putsTwice_not_written :
    ∃ s, Relation.ReflTransGen (Step (taTee putsTwice) fun _ => some smallestWasm)
        (Sys.init freshRun [] [] [[], []] fun _ => none) s ∧
      s.wrapper = .done (.success (ascii "a")) ∧
      (∀ tr ∈ s.tee.steps, tr.ended = .returned ∧ (requests tr.calls).length ≤ 1) ∧
      .put (ascii "a") (ascii "a") ∈ stateCalls s.tee.steps ∧
      s.stub.writes = [(ascii "b", ascii "b")] ∧ (ascii "a", ascii "a") ∉ s.stub.writes := by
  have hrun : ((Sys.init freshRun [] [] [[], []] fun _ => none).moves
      (taTee putsTwice) (fun _ => some smallestWasm) oneRequestRun).any (fun s =>
        s.wrapper = .done (.success (ascii "a")) ∧
          (∀ tr ∈ s.tee.steps, tr.ended = .returned ∧ (requests tr.calls).length ≤ 1) ∧
          .put (ascii "a") (ascii "a") ∈ stateCalls s.tee.steps ∧
          s.stub.writes = [(ascii "b", ascii "b")]) = true := by
    decide +kernel
  obtain ⟨s, hs, hend⟩ := (Option.any_eq_true _ _).1 hrun
  obtain ⟨hw, hsteps, hput, hwrites⟩ := of_decide_eq_true hend
  refine ⟨s, reaches_of_sysMoves (fun _ _ _ => step_of_move) hs, hw, hsteps, hput, hwrites, ?_⟩
  rw [hwrites]
  decide

end TeeChaincode
