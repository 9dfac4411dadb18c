import TeeChaincode.Coffee.Checked
import TeeChaincode.Coffee.Once
import TeeChaincode.Ta.Failures

/-!
# The chaincode stays inside its arrays

A host that is not to be trusted chooses every byte of the shared buffer,
at RUN_WASM and at each RESUME_WASM. What keeps the chaincode's loops in
their arrays is held up from three sides: the natives terminate what they
copy out, the TA terminates the reply it copies to `g_cur_val`, and the
chaincode clears an array before it writes to it.

`Kept` is the invariant, and `Safe` the comparison with the program that
checks its indices: from a kept state both run alike, every call is made
with arrays that end and lengths that fit, and the state is kept. The
result is that whatever the host sends, the checks are never missed.
-/

namespace TeeChaincode

namespace Coffee

open Common GuestM

variable {L : Layout} {w : Static → Bytes} {g : Instance Globals} {s : Session} {m : Memory}
variable {α β : Type}

/-! ## What is kept -/

/-- A reply to a pending GET goes to `g_cur_val`. -/
def Aimed (L : Layout) (s : Session) : Prop :=
  s.pendingType = .getState → s.wasmOutOffset = L.addr .gCurVal ∧ s.wasmOutLen = 256

theorem aimed_of_none (h : s.pendingType = .none) : Aimed L s := by
  intro he
  rw [h] at he
  cases he

/-- **The invariant**: the arrays hold strings, and a reply that is waited
for goes to one of them. -/
def Kept (L : Layout) (g : Instance Globals) (s : Session) : Prop :=
  (∃ w, L.Holds g.mem w) ∧ Aimed L s

/-- A length is that of something in the array or literal it is passed
with: not negative, and smaller than its size. -/
def Measures (L : Layout) (ptr : UInt32) (len : Int32) : Prop :=
  0 ≤ len.toInt ∧
    ((∃ v : Static, ptr = L.addr v ∧ len.toInt < v.size) ∨
      ∃ l : Lit, ptr = L.lit l ∧ len.toInt < l.text.length + 1)

/-- The key, value and message lengths of a call fit. -/
def LengthsFit (L : Layout) : NativeCall → Prop
  | .ccGetState keyPtr keyLen _ _ => Measures L keyPtr keyLen
  | .ccPutState keyPtr keyLen valPtr valLen => Measures L keyPtr keyLen ∧ Measures L valPtr valLen
  | .ccReturnResponse msgPtr msgLen => Measures L msgPtr msgLen
  | _ => True

/-- A call made with arrays that end and lengths that fit. -/
def CallFits (L : Layout) (x : NativeCall × Instance Globals) : Prop :=
  Terminated L x.2.mem ∧ LengthsFit L x.1

/-- **A piece of the program with checks and the same piece without**: from
every state of the invariant they run alike, and keep it. -/
def Safe (L : Layout) (c c' : Code α) : Prop :=
  ∀ g s, Kept L g s → Agrees natives (CallFits L) c c' (fun _ g' s' => Kept L g' s') g s

/-! ## Rules -/

theorem safe_pure (a : α) : Safe L (pure a) (pure a) :=
  fun _ _ h => agrees_pure h

theorem safe_bind {c c' : Code α} {f f' : α → Code β} (hc : Safe L c c')
    (hf : ∀ a, Safe L (f a) (f' a)) : Safe L (c >>= f) (c' >>= f') :=
  fun g s h => agrees_bind (agrees_mono (hc g s h) fun a g' s' h' => hf a g' s' h')

theorem safe_modifyGlobals (f : Globals → Globals) :
    Safe L (modifyGlobals f) (modifyGlobals f) :=
  fun _ _ h => agrees_modify h

theorem safe_globals {f f' : Globals → Code α} (hf : ∀ x, Safe L (f x) (f' x)) :
    Safe L (globals >>= f) (globals >>= f') :=
  safe_bind (fun g _ h => ⟨rfl, nofun, g.globals, rfl, h⟩) hf

theorem safe_mem {f f' : Memory → Code α} (hf : ∀ m, Safe L (f m) (f' m)) :
    Safe L (mem >>= f) (mem >>= f') :=
  safe_bind (fun g _ h => ⟨rfl, nofun, g.mem, rfl, h⟩) hf

section Pointwise

variable {Q : α → Instance Globals → Session → Prop}

/-- A check that passes. -/
theorem agrees_scan {c' : Code α} {o : Memory → Option β} {b : β} {f : β → Code α}
    (ho : o g.mem = some b) (h : Agrees natives (CallFits L) (f b) c' Q g s) :
    Agrees natives (CallFits L) ((do let m ← mem; Checked.ofOption (o m)) >>= f) c' Q g s := by
  refine agrees_read ?_ h
  change Checked.ofOption (o g.mem) g = .ret b g
  rw [ho]
  rfl

/-- The program without checks reads memory in front. -/
theorem agrees_mem {c : Code α} {f' : Memory → Code α}
    (h : Agrees natives (CallFits L) c (f' g.mem) Q g s) :
    Agrees natives (CallFits L) c (mem >>= f') Q g s :=
  ⟨h.exec_eq, h.calls, h.returns⟩

/-- A write whose checks pass. -/
theorem agrees_update {o : Memory → Option Memory} {f : Memory → Memory}
    {Q : Unit → Instance Globals → Session → Prop} (ho : o g.mem = some (f g.mem))
    (h : Q () { g with mem := f g.mem } s) :
    Agrees natives (CallFits L)
      (do
        let m ← mem
        let m' ← Checked.ofOption (o m)
        modifyMem fun _ => m')
      (modifyMem f) Q g s := by
  refine agrees_read (b := g.mem) rfl (agrees_read (b := f g.mem) ?_ ⟨rfl, nofun, wp_modify h⟩)
  rw [ho]
  rfl

/-- An inspection that passes. -/
theorem Kept.inspect (h : Kept L g s) : Checked.inspect L g = .ret () g := by
  obtain ⟨⟨w, hw⟩, -⟩ := h
  change (if Terminated L g.mem then pure () else GuestM.trap none : Code Unit) g = _
  rw [if_pos hw.terminated]
  rfl

/-- A call whose inspections pass. -/
theorem agrees_native {c : NativeCall} (hk : Kept L g s) (hfit : LengthsFit L c)
    (hw : Wp natives (native c) (fun _ g' s' => Kept L g' s') g s) :
    Agrees natives (CallFits L) (Checked.native L c) (native c)
      (fun _ g' s' => Kept L g' s') g s := by
  obtain ⟨⟨w, hholds⟩, -⟩ := id hk
  have hcall : Agrees natives (CallFits L) (native c) (native c)
      (fun r g' s' => Agrees natives (CallFits L) (do Checked.inspect L; pure r) (pure r)
        (fun _ g' s' => Kept L g' s') g' s') g s :=
    agrees_call ⟨hholds.terminated, hfit⟩
      (wp_mono hw fun _ g' s' h' => agrees_read h'.inspect (agrees_pure h'))
  exact agrees_read hk.inspect (agrees_bind hcall)

end Pointwise

/-! ## Natives -/

/-- The call of a native the chaincode is specified for. -/
theorem agrees_of_does {c : NativeCall} {r : Int32} {w w' : Static → Bytes} {s s' : Session}
    (hw : L.Holds g.mem w) (haim : Aimed L s)
    (hd : Does L (native c) w g.globals s r w' g.globals s') (haim' : Aimed L s')
    (hfit : LengthsFit L c) :
    Agrees natives (CallFits L) (Checked.native L c) (native c)
      (fun _ g' s' => Kept L g' s') g s := by
  refine agrees_native ⟨⟨w, hw⟩, haim⟩ hfit (wp_mono (hd g ⟨rfl, hw⟩) ?_)
  rintro r' g' t ⟨-, hat, rfl⟩
  exact ⟨⟨w', hat.holds⟩, haim'⟩

/-- The length of what an array holds. -/
theorem measures_static (hw : L.Holds m w) (v : Static) :
    Measures L (L.addr v) (Int32.ofNat (w v).length) := by
  have hlt := hw.length_lt v
  refine ⟨nonneg_static hw v, .inl ⟨v, rfl, ?_⟩⟩
  rw [toInt_ofNat_length hw]
  omega

/-- The length of a literal. -/
theorem measures_lit {l : Lit} {n : Int32} (hn : n.toInt.toNat = l.text.length)
    (h0 : 0 ≤ n.toInt) : Measures L (L.lit l) n :=
  ⟨h0, .inr ⟨l, rfl, by omega⟩⟩

theorem safe_getArg (idx : Int32) {v : Static} (hv : v.size = 64) :
    Safe L (Checked.native L (.ccGetArg idx (L.addr v) 64))
      (native (.ccGetArg idx (L.addr v) 64)) := by
  rintro g s ⟨⟨w, hw⟩, haim⟩
  exact agrees_of_does hw haim (does_getArg idx hv) haim trivial

theorem safe_getFunction :
    Safe L (Checked.native L (.ccGetFunction (L.addr .gFunction) 64))
      (native (.ccGetFunction (L.addr .gFunction) 64)) := by
  rintro g s ⟨⟨w, hw⟩, haim⟩
  exact agrees_of_does hw haim does_getFunction haim trivial

theorem safe_getPersonState : Safe L (Checked.getPersonState L) (getPersonState L) := by
  rintro g s ⟨⟨w, hw⟩, haim⟩
  refine agrees_scan (hw.strlenIn .gPerson) (agrees_mem ?_)
  rw [sStrlen_eq hw]
  exact agrees_of_does hw haim does_ccGetState (fun _ => ⟨rfl, rfl⟩) (measures_static hw _)

theorem safe_putPersonState (v : Static) :
    Safe L (Checked.putPersonState L v) (putPersonState L v) := by
  rintro g s ⟨⟨w, hw⟩, haim⟩
  refine agrees_scan (hw.strlenIn .gPerson) (agrees_scan (hw.strlenIn v) (agrees_mem ?_))
  rw [sStrlen_eq hw, sStrlen_eq hw]
  refine agrees_bind (agrees_mono (agrees_of_does hw haim (does_ccPutState v) ?_
    ⟨measures_static hw _, measures_static hw _⟩) fun _ _ _ h => agrees_pure h)
  intro he
  cases he

theorem safe_respondLit {l : Lit} {n : Int32} (hn : n.toInt.toNat = l.text.length)
    (h0 : 0 ≤ n.toInt) : Safe L (Checked.respondLit L l n) (respondLit L l n) := by
  refine safe_bind ?_ fun _ => safe_pure ()
  rintro g s ⟨⟨w, hw⟩, haim⟩
  exact agrees_of_does hw haim (does_ccReturnLit hn h0) haim (measures_lit hn h0)

/-- The answer to a `query`. -/
theorem agrees_respondCurVal (h : Kept L g s) :
    Agrees natives (CallFits L)
      (do
        let n ← Checked.sStrlen L .gCurVal
        let _ ← Checked.native L (.ccReturnResponse (L.addr .gCurVal) (Int32.ofNat n))
        finish)
      (do
        let _ ← native (.ccReturnResponse (L.addr .gCurVal)
          (Int32.ofNat (sStrlen g.mem (L.addr .gCurVal))))
        finish) (fun _ g' s' => Kept L g' s') g s := by
  obtain ⟨⟨w, hw⟩, haim⟩ := h
  refine agrees_scan (hw.strlenIn .gCurVal) ?_
  rw [sStrlen_eq hw]
  exact agrees_bind (agrees_mono (agrees_of_does hw haim does_ccReturnCurVal haim
    (measures_static hw _)) fun _ g' s' h => safe_modifyGlobals _ g' s' h)

theorem safe_memset (v : Static) :
    Safe L (Checked.sMemset L v 0 v.size) (modifyMem fun m => sMemset m (L.addr v) 0 v.size) := by
  rintro g s ⟨⟨w, hw⟩, haim⟩
  exact agrees_update (hw.memsetIn v) ⟨⟨_, hw.sMemset v⟩, haim⟩

/-! ## Steps -/

theorem safe_createInit : Safe L (Checked.ccDoCreateInit L) (ccDoCreateInit L) := by
  refine safe_bind (safe_memset .gPerson) fun _ => safe_bind (safe_memset .gArg1) fun _ =>
    safe_bind (safe_memset .gCurVal) fun _ => safe_bind (safe_getArg 0 rfl) fun _ =>
    safe_bind (safe_getArg 1 rfl) fun _ => safe_bind safe_getPersonState fun r => ?_
  split
  · exact safe_modifyGlobals _
  · exact safe_pure ()

theorem safe_addInit : Safe L (Checked.ccDoAddInit L) (ccDoAddInit L) :=
  safe_bind (safe_memset .gPerson) fun _ => safe_bind (safe_memset .gArg1) fun _ =>
    safe_bind (safe_memset .gCurVal) fun _ => safe_bind (safe_getArg 0 rfl) fun _ =>
    safe_bind (safe_getArg 1 rfl) fun _ => safe_bind safe_getPersonState fun _ =>
    safe_modifyGlobals _

theorem safe_queryInit : Safe L (Checked.ccDoQueryInit L) (ccDoQueryInit L) :=
  safe_bind (safe_memset .gPerson) fun _ => safe_bind (safe_memset .gCurVal) fun _ =>
    safe_bind (safe_getArg 0 rfl) fun _ => safe_bind safe_getPersonState fun _ =>
    safe_modifyGlobals _

/-- A literal for an answer. -/
theorem safe_finish {l : Lit} {n : Int32} (hn : n.toInt.toNat = l.text.length)
    (h0 : 0 ≤ n.toInt) :
    Safe L (do Checked.respondLit L l n; finish) (do respondLit L l n; finish) :=
  safe_bind (safe_respondLit hn h0) fun _ => safe_modifyGlobals _

theorem safe_createResume : Safe L (Checked.ccDoCreateResume L) (ccDoCreateResume L) := by
  refine safe_globals fun x => ?_
  split
  · refine safe_mem fun m => ?_
    split
    · exact safe_finish rfl (by decide)
    · exact safe_bind (safe_putPersonState .gArg1) fun _ => safe_modifyGlobals _
  split
  · exact safe_finish rfl (by decide)
  · exact safe_pure ()

/-- The sum is printed into `g_tmp` once it is cleared. -/
theorem agrees_addSum (h : Kept L g s) :
    Agrees natives (CallFits L)
      (do
        let cur ← Checked.sAtoul L .gCurVal
        let add ← Checked.sAtoul L .gArg1
        Checked.sMemset L .gTmp 0 256
        Checked.sUltoa L (cur + add) .gTmp 256
        Checked.putPersonState L .gTmp
        setFsm 22)
      (do
        modifyMem fun m => sMemset m (L.addr .gTmp) 0 256
        modifyMem fun m => sUltoa m
          (sAtoul g.mem (L.addr .gCurVal) + sAtoul g.mem (L.addr .gArg1)) (L.addr .gTmp) 256
        putPersonState L .gTmp
        setFsm 22) (fun _ g' s' => Kept L g' s') g s := by
  obtain ⟨⟨w, hw⟩, haim⟩ := h
  have hclear := hw.sMemset .gTmp
  have hempty : Function.update w .gTmp [] .gTmp = [] := Function.update_self ..
  refine agrees_scan (hw.atoulIn .gCurVal) (agrees_scan (hw.atoulIn .gArg1) ?_)
  refine agrees_bind (agrees_update (hw.memsetIn .gTmp) ?_)
  refine agrees_bind (agrees_update (hclear.ultoaIn hempty _) ?_)
  exact safe_bind (safe_putPersonState .gTmp) (fun _ => safe_modifyGlobals _) _ _
    ⟨⟨_, hclear.sUltoa hempty _⟩, haim⟩

theorem safe_addResume : Safe L (Checked.ccDoAddResume L) (ccDoAddResume L) := by
  refine safe_globals fun x => ?_
  split
  · intro g s h
    refine agrees_read (b := g.mem) rfl (agrees_mem ?_)
    dsimp only
    split
    · exact safe_finish rfl (by decide) g s h
    · exact agrees_addSum h
  split
  · exact safe_finish rfl (by decide)
  · exact safe_pure ()

theorem safe_queryResume : Safe L (Checked.ccDoQueryResume L) (ccDoQueryResume L) := by
  refine safe_globals fun x => ?_
  split
  · intro g s h
    refine agrees_read (b := g.mem) rfl (agrees_mem ?_)
    split
    · exact safe_finish rfl (by decide) g s h
    · exact agrees_respondCurVal h
  · exact safe_pure ()

theorem safe_resumeOp : Safe L (Checked.resumeOp L) (resumeOp L) := by
  refine safe_globals fun x => ?_
  cases x.currentOp with
  | create => exact safe_createResume
  | add => exact safe_addResume
  | query => exact safe_queryResume
  | none => exact safe_respondLit rfl (by decide)

theorem safe_fetchFunction : Safe L (Checked.fetchFunction L) (fetchFunction L) := by
  refine safe_mem fun m => ?_
  split
  · exact safe_bind safe_getFunction fun _ => safe_pure ()
  · exact safe_pure ()

theorem safe_dispatch : Safe L (Checked.dispatch L) (dispatch L) := by
  intro g s h
  obtain ⟨⟨w, hw⟩, -⟩ := id h
  refine agrees_mem (agrees_scan (hw.streqIn .gFunction .create) ?_)
  split
  · exact safe_bind (safe_modifyGlobals _) (fun _ => safe_createInit) g s h
  refine agrees_scan (hw.streqIn .gFunction .add) ?_
  split
  · exact safe_bind (safe_modifyGlobals _) (fun _ => safe_addInit) g s h
  refine agrees_scan (hw.streqIn .gFunction .query) ?_
  split
  · exact safe_bind (safe_modifyGlobals _) (fun _ => safe_queryInit) g s h
  · exact safe_respondLit rfl (by decide) g s h

/-- **A whole step.** -/
theorem safe_stepResume : Safe L (Checked.stepResume L) (stepResume L) := by
  have hbody : Safe L
      (do
        modifyGlobals fun g => { g with gShouldExit := 0 }
        let g ← globals
        if g.currentOp = .none then
          Checked.fetchFunction L
          let m ← mem
          if m.byte (L.addr .gFunction).toNat ≠ 0 then Checked.dispatch L
          else Checked.resumeOp L
        else Checked.resumeOp L)
      (stepResume L) := by
    refine safe_bind (safe_modifyGlobals _) fun _ => safe_globals fun x => ?_
    split
    · refine safe_bind safe_fetchFunction fun _ => safe_mem fun m => ?_
      split
      · exact safe_dispatch
      · exact safe_resumeOp
    · exact safe_resumeOp
  intro g s h
  exact agrees_read h.inspect (hbody g s h)

/-! ## Commands -/

/-- What the client and the host get to see of a command: its result, its
parameters, and the steps it ran with all their calls. -/
def seen (r : Reply Globals) : TeeResult × Params × List (StepTrace Globals) :=
  (r.result, r.params, r.steps)

/-- **A command that stays inside the arrays**: no step of it traps, each
call is made with arrays that end and lengths that fit, and it leaves the
arrays with their NULs. -/
structure Inside (L : Layout) (r : Reply Globals) : Prop where
  ended : ∀ st ∈ r.steps, st.ended = .returned ∨ st.ended = .noExecEnv
  calls : ∀ st ∈ r.steps, ∀ x ∈ st.calls, CallFits L x
  arrays : ∀ inst, r.ta.runtimeCtx.moduleInst = some inst → Terminated L inst.mem

/-- The TA with the chaincode and the TA with the chaincode that checks,
between two commands. -/
inductive Paired (L : Layout) (ta ta' : Ta Globals) : Prop
  /-- Neither has a module. -/
  | unloaded {s : Session} (hs : ta.sess = some s) (hs' : ta'.sess = some s)
    (hrt : s.runtime = false) (ha : ta.panicked = false) (ha' : ta'.panicked = false)
    (hi : ta.runtimeCtx.moduleInst = none)
  /-- They have their modules loaded, with the same instance. -/
  | loaded {s : Session} {inst : Instance Globals} (hs : ta.sess = some s)
    (hs' : ta'.sess = some s) (ha : ta.panicked = false) (ha' : ta'.panicked = false)
    (hM : ta.runtimeCtx.wasmModule = some (coffee L))
    (hM' : ta'.runtimeCtx.wasmModule = some (checked L))
    (hx : ta.runtimeCtx.execEnv = false) (hx' : ta'.runtimeCtx.execEnv = false)
    (hi : ta.runtimeCtx.moduleInst = some inst) (hi' : ta'.runtimeCtx.moduleInst = some inst)
    (hk : Kept L inst s)

/-- Two commands that are seen alike, inside the arrays. -/
structure Alike (L : Layout) (r r' : Reply Globals) : Prop where
  seen : seen r = seen r'
  inside : Inside L r
  paired : Paired L r.ta r'.ta

variable {ta ta' : Ta Globals} {inst : Instance Globals}

/-- A command that runs no step. -/
theorem Paired.refused (h : Paired L ta ta') (result : TeeResult) (p : Params) :
    Alike L ⟨result, p, ta, []⟩ ⟨result, p, ta', []⟩ := by
  refine ⟨rfl, ⟨nofun, nofun, fun inst hinst => ?_⟩, h⟩
  cases h with
  | unloaded hs hs' hrt ha ha' hi =>
    rw [hi] at hinst
    cases hinst
  | loaded hs hs' ha ha' hM hM' hx hx' hi hi' hk =>
    obtain ⟨⟨w, hw⟩, -⟩ := hk
    obtain rfl := Option.some.inj (hi.symm.trans hinst)
    exact hw.terminated

/-- **`process_hostcall_flow` with the two modules.** -/
theorem processHostcallFlow_alike_checked (ta ta' : Ta Globals) (p : Params) (env : Env)
    (ha : ta.panicked = false) (ha' : ta'.panicked = false)
    (hM : ta.runtimeCtx.wasmModule = some (coffee L))
    (hM' : ta'.runtimeCtx.wasmModule = some (checked L))
    (hx : ta.runtimeCtx.execEnv = false) (hx' : ta'.runtimeCtx.execEnv = false)
    (hi : ta.runtimeCtx.moduleInst = some inst) (hi' : ta'.runtimeCtx.moduleInst = some inst)
    (hk : Kept L inst s) :
    Alike L (processHostcallFlow ta s p env) (processHostcallFlow ta' s p env) := by
  cases he : env.execEnv with
  | false =>
    have hflow := processHostcallFlow_of_noExecEnv (s := s) (p := p) ta (stepResume L)
      hM hi rfl hx he
    have hflow' := processHostcallFlow_of_noExecEnv (s := s) (p := p) ta' (Checked.stepResume L)
      hM' hi' rfl hx' he
    rw [hflow, hflow']
    obtain ⟨⟨w, hw⟩, -⟩ := id hk
    refine ⟨rfl, ⟨?_, ?_, fun inst' hinst => ?_⟩, .loaded rfl rfl ha ha' hM hM' hx hx' hi hi' hk⟩
    · intro st hst
      rw [List.mem_singleton.1 hst]
      exact .inr rfl
    · intro st hst x hmem
      rw [List.mem_singleton.1 hst] at hmem
      cases hmem
    · obtain rfl := Option.some.inj (hi.symm.trans hinst)
      exact hw.terminated
  | true =>
    obtain ⟨hexec, hcalls, ⟨⟩, hout, hkept⟩ := safe_stepResume inst s hk
    have hflow := processHostcallFlow_of_returned p (stepResume L) hM hi rfl (.inr he) hout
    have hout' : ((Checked.stepResume L inst).exec natives s).out = .ok () := by
      rw [hexec]
      exact hout
    have hflow' := processHostcallFlow_of_returned p (Checked.stepResume L) hM' hi' rfl (.inr he)
      hout'
    rw [hflow, hflow', hexec]
    obtain ⟨⟨w, hw⟩, -⟩ := id hkept
    refine ⟨rfl, ⟨?_, ?_, fun inst' hinst => ?_⟩,
      .loaded rfl rfl ha ha' hM hM' rfl rfl rfl rfl hkept⟩
    · intro st hst
      rw [List.mem_singleton.1 hst]
      exact .inl rfl
    · intro st hst x hmem
      rw [List.mem_singleton.1 hst] at hmem
      exact hcalls x hmem
    · obtain rfl := Option.some.inj hinst
      exact hw.terminated

/-- The reply of any host leaves strings in the arrays. -/
theorem Kept.copyReply (hk : Kept L inst s) (hp : s.pendingType = .getState) (buf : Bytes) :
    ∃ w, L.Holds (copyReply s buf inst.mem) w := by
  obtain ⟨⟨w, hw⟩, haim⟩ := hk
  obtain ⟨hoff, hlen⟩ := haim hp
  have h256 : s.wasmOutLen.toInt.toNat = Static.gCurVal.size := by rw [hlen]; rfl
  have hcopy := copyReply_eq (m := inst.mem) buf (by rw [hoff]; exact L.addr_ne_zero _)
    (by rw [hlen]; decide) (by rw [hoff, h256]; exact hw.addr_add_le .gCurVal)
  rw [h256, hoff] at hcopy
  have hle := length_clip_le (Static.gCurVal.size - 1) (buf.drop keySize)
  have hpos := Static.gCurVal.size_pos
  rw [hcopy]
  split
  · exact ⟨w, hw⟩
  · exact ⟨_, hw.update (zero_notMem_clip _ _) (by omega)
      (Memory.SameOutside.fill.trans (Memory.SameOutside.write le_rfl (by omega)))
      (Memory.read_write_fill (by omega))⟩

/-- **Any RESUME_WASM.** -/
theorem Paired.resume (h : Paired L ta ta') (load load' : Loader Globals) (b : Memref)
    (env : Env) :
    Alike L (invokeCommandEntryPoint load ta .resumeWasm (resumeWith b) env)
      (invokeCommandEntryPoint load' ta' .resumeWasm (resumeWith b) env) := by
  have hcmd : ∀ (load : Loader Globals) (ta : Ta Globals), ta.panicked = false →
      invokeCommandEntryPoint load ta .resumeWasm (resumeWith b) env =
        resumeWasm ta (resumeWith b) env :=
    fun load ta ha => invoke_eq load ha rfl env
  cases id h with
  | @unloaded s hs hs' hrt ha ha' hi =>
    rw [hcmd load ta ha, hcmd load' ta' ha']
    simp only [resumeWasm, hs, hs', if_pos hrt]
    exact h.refused _ _
  | @loaded s inst hs hs' ha ha' hM hM' hx hx' hi hi' hk =>
    rw [hcmd load ta ha, hcmd load' ta' ha']
    simp only [resumeWasm, hs, hs']
    split
    · exact h.refused _ _
    obtain ⟨hholds, haim⟩ := id hk
    cases hp : s.pendingType with
    | getState =>
      simp only [hi, hi']
      exact processHostcallFlow_alike_checked _ _ _ env ha ha' hM hM' hx hx' rfl rfl
        ⟨hk.copyReply hp _, aimed_of_none rfl⟩
    | putState =>
      exact processHostcallFlow_alike_checked _ _ _ env ha ha' hM hM' hx hx' hi hi'
        ⟨hholds, aimed_of_none rfl⟩
    | none => exact processHostcallFlow_alike_checked _ _ _ env ha ha' hM hM' hx hx' hi hi' hk

/-- `step_init` does nothing, with either module. -/
theorem callStep_stepInit {M : WasmModule Globals} (hM : M.export? .stepInit = some stepInit)
    (ta : Ta Globals) (p : Params) (execEnvOk : Bool) (s : Session) :
    callStep (WamrContext.launched ta p M) .stepInit execEnvOk s =
      some ⟨execEnvOk, WamrContext.launched ta p M, s,
        ⟨.stepInit, if execEnvOk then .returned else .noExecEnv, []⟩⟩ := by
  simp only [callStep, WamrContext.launched, hM]
  cases execEnvOk <;> rfl

/-- One more step in front, without calls. -/
theorem Alike.cons {r r' : Reply Globals} (h : Alike L r r') {tr : StepTrace Globals}
    (he : tr.ended = .returned ∨ tr.ended = .noExecEnv) (hc : tr.calls = []) :
    Alike L { r with steps := tr :: r.steps } { r' with steps := tr :: r'.steps } := by
  obtain ⟨hseen, ⟨hended, hcalls, harrays⟩, hpaired⟩ := h
  simp only [Coffee.seen, Prod.mk.injEq] at hseen
  obtain ⟨hresult, hparams, hsteps⟩ := hseen
  refine ⟨?_, ⟨?_, ?_, harrays⟩, hpaired⟩
  · simp only [Coffee.seen, hresult, hparams, hsteps]
  · intro st hst
    rcases List.mem_cons.1 hst with rfl | hst
    · exact he
    · exact hended st hst
  · intro st hst x hx
    rcases List.mem_cons.1 hst with rfl | hst
    · rw [hc] at hx
      cases hx
    · exact hcalls st hst x hx

/-- **RUN_WASM on a session just opened**, whatever is in the buffer. -/
theorem run_alike {load : Loader Globals} {wasm : Bytes} (hl : load wasm = some (coffee L))
    (heapSize : UInt32) (b : Memref) (env : Env) :
    Alike L (runReply load heapSize wasm b env)
      (runReply (fun _ => some (checked L)) heapSize wasm b env) := by
  have hrun : ∀ load : Loader Globals, runReply load heapSize wasm b env =
      runWasm load (openedTa heapSize) (runWith wasm b) env := fun _ => rfl
  rw [hrun, hrun]
  by_cases halloc : env.heapMalloc = false ∨ env.wasmMalloc = false
  · simp only [runWasm, openedTa, if_pos halloc]
    exact Paired.refused (.unloaded rfl rfl rfl rfl rfl rfl) _ _
  simp only [not_or, Bool.not_eq_false] at halloc
  obtain ⟨hheap, hwasm⟩ := halloc
  by_cases hi : Initialises load wasm env
  · have hi' : Initialises (fun _ => some (checked L)) wasm env :=
      ⟨hi.heapMalloc, hi.wasmMalloc, hi.fullInit, hi.loads, hi.instantiate, _, rfl⟩
    have hkept : Kept L (coffee L).initial (Session.zero.launched (runWith wasm b)) :=
      ⟨⟨_, L.holds_image⟩, aimed_of_none rfl⟩
    rw [runWasm_of_initialises rfl hi hl, runWasm_of_initialises rfl hi' rfl,
      Ta.firstSteps, Ta.firstSteps, callStep_stepInit rfl, callStep_stepInit rfl]
    dsimp only
    cases env.execEnvInit with
    | true =>
      exact (processHostcallFlow_alike_checked _ _ _ env rfl rfl rfl rfl rfl rfl rfl rfl hkept).cons
        (.inl rfl) rfl
    | false =>
      have hpair : Paired L
          { (openedTa heapSize : Ta Globals) with
            sess := some (Session.zero.launched (runWith wasm b))
            runtimeCtx := WamrContext.launched (openedTa heapSize) (runWith wasm b) (coffee L) }
          { (openedTa heapSize : Ta Globals) with
            sess := some (Session.zero.launched (runWith wasm b))
            runtimeCtx := WamrContext.launched (openedTa heapSize) (runWith wasm b) (checked L) } :=
        .loaded rfl rfl rfl rfl rfl rfl rfl rfl rfl rfl hkept
      exact (hpair.refused _ _).cons (.inr rfl) rfl
  · have hi' : ¬ Initialises (fun _ => some (checked L)) wasm env := fun h =>
      hi ⟨h.heapMalloc, h.wasmMalloc, h.fullInit, h.loads, h.instantiate, _, hl⟩
    obtain ⟨ctx, hinst, hrun₁⟩ := runWasm_of_not_initialises (openedTa heapSize) (runWith wasm b)
      rfl hheap hwasm hi
    obtain ⟨ctx', -, hrun₂⟩ := runWasm_of_not_initialises (openedTa heapSize) (runWith wasm b)
      rfl hheap hwasm hi'
    rw [hrun₁, hrun₂]
    exact Paired.refused (.unloaded rfl rfl rfl rfl rfl hinst) _ _

/-- The resumes behind it. -/
theorem Paired.resumes (load load' : Loader Globals) (resumes : List (Memref × Env))
    (h : Paired L ta ta') :
    (resumeAll load ta resumes).map seen = (resumeAll load' ta' resumes).map seen ∧
      ∀ r ∈ resumeAll load ta resumes, Inside L r := by
  induction resumes generalizing ta ta' with
  | nil =>
    refine ⟨rfl, fun r hr => ?_⟩
    rw [resumeAll] at hr
    cases hr
  | cons q resumes ih =>
    obtain ⟨b, env⟩ := q
    obtain ⟨hseen, hinside, hpaired⟩ := h.resume load load' b env
    obtain ⟨hseens, hinsides⟩ := ih hpaired
    rw [resumeAll, resumeAll]
    refine ⟨?_, ?_⟩
    · rw [List.map_cons, List.map_cons, hseen, hseens]
    · intro r hr
      rcases List.mem_cons.1 hr with rfl | hr
      · exact hinside
      · exact hinsides r hr

/-- **No string loop of the chaincode leaves its array.** Whatever bytes
the host puts into the shared buffer, at RUN_WASM on a session just opened
and at any number of RESUME_WASM commands behind it, and whichever of the
TA's allocations and WAMR calls fail: the chaincode is seen to do exactly
what it does with every index checked, no step traps, every array has its
NUL at every call and between commands, and the lengths passed fit. -/
theorem scans_stay_inside {L : Layout} {load : Loader Globals} {wasm : Bytes}
    (hl : load wasm = some (coffee L)) (heapSize : UInt32) (b : Memref) (env : Env)
    (resumes : List (Memref × Env)) :
    (replies load heapSize wasm b env resumes).map seen =
        (replies (fun _ => some (checked L)) heapSize wasm b env resumes).map seen ∧
      ∀ r ∈ replies load heapSize wasm b env resumes, Inside L r := by
  obtain ⟨hseen, hinside, hpaired⟩ := run_alike hl heapSize b env
  obtain ⟨hseens, hinsides⟩ := hpaired.resumes load (fun _ => some (checked L)) resumes
  refine ⟨?_, ?_⟩
  · rw [replies, replies, List.map_cons, List.map_cons, hseen, hseens]
  · intro r hr
    rcases List.mem_cons.1 hr with rfl | hr
    · exact hinside
    · exact hinsides r hr

/-- An `add` whose rows and reply have no NUL at all. -/
theorem scans_stay_inside_unterminated :
    (replies linkedLoader 0 [] ⟨ascii "add" ++ 0 :: List.replicate 636 120, 640⟩ Env.ok
        [(⟨List.replicate 320 57, 320⟩, Env.ok)]).map seen =
      (replies (fun _ => some (checked linked)) 0 []
        ⟨ascii "add" ++ 0 :: List.replicate 636 120, 640⟩ Env.ok
        [(⟨List.replicate 320 57, 320⟩, Env.ok)]).map seen ∧
    ∀ r ∈ replies linkedLoader 0 [] ⟨ascii "add" ++ 0 :: List.replicate 636 120, 640⟩ Env.ok
      [(⟨List.replicate 320 57, 320⟩, Env.ok)], Inside linked r :=
  scans_stay_inside rfl 0 _ _ _

end Coffee

end TeeChaincode
