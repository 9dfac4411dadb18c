import Mathlib.Data.FinEnum
import TeeChaincode.Common.Simulation
import TeeChaincode.Model.Setup
import TeeChaincode.System.Direct

/-!
# What becomes of the UUID

`setup` stores a UUID and `invoke` sends it with every request, but the
proxy never reads it: the function that would take it apart is not called.
So the UUID decides nothing. `Sys.erase` forgets it wherever it can be in
the system, and both parties move alike on two systems that are equal up
to that; histories go on alike with and without their `setup`s.

Which UUID it is, is the other result. `setup` stores what has been
decoded before it looks at the error, so a `setup` that fails replaces the
UUID all the same.
-/

namespace TeeChaincode

open Common

variable {τ ε : Type} {T : Tee τ ε} {files : Bytes → Option Bytes}

/-! ## Forgetting it -/

def InvocationRequest.erase (r : InvocationRequest) : InvocationRequest :=
  { r with chaincodeUuid := [] }

def WrapperMessage.erase : WrapperMessage → WrapperMessage
  | .invocationRequest r => .invocationRequest r.erase
  | m => m

def Wrapper.erase : Wrapper → Wrapper
  | .dial req => .dial req.erase
  | .send m => .send m.erase
  | w => w

def Handler.erase : Handler → Handler
  | .openFile req => .openFile req.erase
  | hd => hd

def Event.erase : Event → Event
  | .wrapperSent m => .wrapperSent m.erase
  | .proxyReceived m => .proxyReceived m.erase
  | ev => ev

/-- The system without its UUID. -/
def Sys.erase (s : Sys τ) : Sys τ :=
  { s with
    wrapper := s.wrapper.erase
    handler := s.handler.erase
    up := s.up.map WrapperMessage.erase
    trace := s.trace.map Event.erase }

theorem getInvocationRequest_erase (m : WrapperMessage) :
    m.erase.getInvocationRequest = m.getInvocationRequest.erase := by
  cases m <;> rfl

theorem writeReply_erase (kind : RequestKind) (m : WrapperMessage) :
    writeReply kind m.erase = writeReply kind m := by
  cases m <;> rfl

theorem handleMessage_erase (m : ProxyMessage) : (handleMessage m).erase = handleMessage m := by
  cases m <;> rfl

theorem dispatchReply_erase (r : TeeReply) : (dispatchReply r).erase = dispatchReply r := by
  unfold dispatchReply
  repeat' split
  all_goals rfl

/-! ## Moves of the wrapper -/

theorem wrapperInput_erase (s : Sys τ) (fail : Option Bytes) :
    s.erase.wrapperInput fail = s.wrapperInput fail := by
  obtain ⟨w, hd, up, down, tee, stub, tr⟩ := s
  cases w <;> cases fail <;> rfl

theorem wrapperStep_erase (w : Wrapper) (i : WrapperInput) :
    wrapperStep w.erase i = (wrapperStep w i).map Wrapper.erase := by
  cases w with
  | dial req => rcases i with (_ | e) | _ | _ | _ | _ <;> rfl
  | send m => rcases i with _ | (_ | e) | _ | _ | _ <;> rfl
  | recv =>
    rcases i with _ | _ | (e | m) | _ | _
    · rfl
    · rfl
    · rfl
    · exact congrArg some (handleMessage_erase m).symm
    · rfl
    · rfl
  | getState key => rcases i with _ | _ | _ | (e | v) | _ <;> rfl
  | putState key value => rcases i with _ | _ | _ | _ | (_ | e) <;> rfl
  | done r => cases i <;> rfl

theorem wrapperEvents_erase (w : Wrapper) (i : WrapperInput) :
    wrapperEvents w.erase i = (wrapperEvents w i).map Event.erase := by
  cases w <;> rcases i with (_ | e) | (_ | e) | (e | m) | (e | v) | (_ | e) <;> rfl

theorem sentUp_erase (w : Wrapper) (i : WrapperInput) :
    sentUp w.erase i = (sentUp w i).map WrapperMessage.erase := by
  cases w <;> rcases i with (_ | e) | (_ | e) | (e | m) | (e | v) | (_ | e) <;> rfl

theorem after_erase (stub : Stub) (w : Wrapper) (i : WrapperInput) :
    stub.after w.erase i = stub.after w i := by
  cases w <;> rcases i with (_ | e) | (_ | e) | (e | m) | (e | v) | (_ | e) <;> rfl

/-- **The wrapper moves alike.** -/
theorem wrapperMove_erase (s : Sys τ) (fail : Option Bytes) :
    s.erase.wrapperMove fail = (s.wrapperMove fail).map Sys.erase := by
  unfold Sys.wrapperMove
  rw [wrapperInput_erase]
  cases s.wrapperInput fail with
  | none => rfl
  | some i =>
    dsimp only
    rw [show s.erase.wrapper = s.wrapper.erase from rfl, wrapperStep_erase, Option.map_map,
      Option.map_map]
    congr 1
    funext w
    simp only [Function.comp_apply, Sys.erase, Sys.log, wrapperEvents_erase, sentUp_erase,
      after_erase, List.map_append]

/-! ## Moves of the proxy -/

def Input.erase : Input ε → Input ε
  | .read (some m) => .read (some m.erase)
  | i => i

theorem handlerInput_erase (s : Sys τ) (c : Choice ε) :
    s.erase.handlerInput files c =
      (s.handlerInput files c).map fun x => (x.1.erase, x.2.map WrapperMessage.erase) := by
  obtain ⟨w, hd, up, down, tee, stub, tr⟩ := s
  obtain ⟨fail, env⟩ := c
  cases hd with
  | readRequest | readReply => cases fail <;> cases up <;> rfl
  | openFile req => cases fail <;> rfl
  | _ => rfl

theorem handlerStep_erase (t : τ) (hd : Handler) (i : Input ε) :
    handlerStep T t hd.erase i.erase = (handlerStep T t hd i).map fun x => (x.1.erase, x.2) := by
  cases hd with
  | readRequest =>
    rcases i with (_ | m) | _ | _ | _ | _
    · rfl
    · simp only [Handler.erase, Input.erase, handlerStep, getInvocationRequest_erase,
        Option.map_some]
    all_goals rfl
  | readReply kind =>
    rcases i with (_ | m) | _ | _ | _ | _
    · rfl
    · simp only [Handler.erase, Input.erase, handlerStep, writeReply_erase, Option.map_some]
    all_goals rfl
  | run wasm buf =>
    rcases i with (_ | m) | _ | (_ | env) | _ | _
    · rfl
    · rfl
    · rfl
    · rfl
    · change some _ = some ((dispatchReply (T.run t env wasm buf).1).erase, _)
      rw [dispatchReply_erase]
    all_goals rfl
  | resume buf =>
    rcases i with (_ | m) | _ | (_ | env) | _ | _
    · rfl
    · rfl
    · rfl
    · rfl
    · change some _ = some ((dispatchReply (T.resume t env buf).1).erase, _)
      rw [dispatchReply_erase]
    all_goals rfl
  | openFile req => rcases i with (_ | m) | (_ | wasm) | _ | _ | _ <;> rfl
  | writeRequest kind m => rcases i with (_ | m) | _ | _ | (_ | _) | _ <;> rfl
  | writeResponse m => rcases i with (_ | m) | _ | _ | _ | _ <;> rfl
  | restart ok => rcases i with (_ | m) | _ | _ | _ | _ <;> rfl
  | finished st => rcases i with (_ | m) | _ | _ | _ | _ <;> rfl

theorem handlerEvents_erase (t : τ) (hd : Handler) (i : Input ε) :
    handlerEvents T t hd.erase i.erase = (handlerEvents T t hd i).map Event.erase := by
  have hreply : ∀ r : TeeReply, repliedEvents r = (repliedEvents r).map Event.erase := by
    intro r
    unfold repliedEvents
    split <;> rfl
  cases hd with
  | run wasm buf =>
    rcases i with (_ | m) | (_ | wasm) | (_ | env) | (_ | _) | _
    all_goals first | rfl | exact hreply _
  | resume buf =>
    rcases i with (_ | m) | (_ | wasm) | (_ | env) | (_ | _) | _
    all_goals first | rfl | exact hreply _
  | _ => rcases i with (_ | m) | (_ | wasm) | (_ | env) | (_ | _) | _ <;> rfl

theorem sentBy_erase (hd : Handler) (i : Input ε) : sentBy hd.erase i.erase = sentBy hd i := by
  cases hd <;> rcases i with (_ | m) | _ | _ | (_ | _) | _ <;> rfl

/-- **The proxy moves alike.** -/
theorem proxyMove_erase (s : Sys τ) (c : Choice ε) :
    s.erase.proxyMove T files c = (s.proxyMove T files c).map Sys.erase := by
  unfold Sys.proxyMove
  rw [handlerInput_erase]
  cases s.handlerInput files c with
  | none => rfl
  | some x =>
    obtain ⟨i, up⟩ := x
    dsimp only [Option.map_some]
    rw [show s.erase.handler = s.handler.erase from rfl, show s.erase.tee = s.tee from rfl,
      handlerStep_erase, Option.map_map, Option.map_map]
    congr 1
    funext r
    simp only [Function.comp_apply, Sys.erase, Sys.log, handlerEvents_erase, sentBy_erase,
      List.map_append]

/-! ## Runs -/

variable {s s' : Sys τ}

theorem Step.erase (h : Step T files s s') : Step T files s.erase s'.erase := by
  cases h with
  | wrapper fail hm => exact .wrapper fail (by rw [wrapperMove_erase, hm]; rfl)
  | proxy c hm => exact .proxy c (by rw [proxyMove_erase, hm]; rfl)

theorem exists_step_of_erase {e : Sys τ} (h : Step T files s.erase e) :
    ∃ s', Step T files s s' ∧ s'.erase = e := by
  cases h with
  | wrapper fail hm =>
    rw [wrapperMove_erase] at hm
    obtain ⟨s', hs', he⟩ := Option.map_eq_some_iff.1 hm
    exact ⟨s', .wrapper fail hs', he⟩
  | proxy c hm =>
    rw [proxyMove_erase] at hm
    obtain ⟨s', hs', he⟩ := Option.map_eq_some_iff.1 hm
    exact ⟨s', .proxy c hs', he⟩

/-- **A run with one UUID is a run with another.** -/
theorem exists_run_of_erase {s₀ s₁ : Sys τ} (h : Relation.ReflTransGen (Step T files) s₀ s)
    (h₀ : s₀.erase = s₁.erase) :
    ∃ s', Relation.ReflTransGen (Step T files) s₁ s' ∧ s'.erase = s.erase := by
  have herased : Relation.ReflTransGen (Step T files) s₁.erase s.erase :=
    h₀ ▸ h.lift Sys.erase fun _ _ hst => hst.erase
  exact exists_run_of_image (fun _ _ => exists_step_of_erase) herased

/-- Nothing of the erased is to be seen behind an invocation. -/
theorem done_erase_iff {r : ShimResponse} : s.erase.wrapper = .done r ↔ s.wrapper = .done r := by
  obtain ⟨w, hd, up, down, tee, stub, tr⟩ := s
  cases w <;> simp [Sys.erase, Wrapper.erase]

theorem ledger_erase (s : Sys τ) : s.erase.ledger = s.ledger := by
  obtain ⟨w, hd, up, down, tee, stub, tr⟩ := s
  cases w <;> rfl

/-! ## Transactions -/

/-- What is kept from one transaction to the next. -/
structure World (τ : Type) where
  /-- `t.Uuid` of the wrapper. -/
  uuid : Bytes
  tee : τ
  ledger : Ledger

/-- The proxy is at rest: its call has returned, or was never made. -/
def Sys.AtRest (s : Sys τ) : Prop :=
  (∃ st, s.handler = .finished st) ∨ s.handler = .readRequest ∧ s.up = []

theorem atRest_erase_iff : s.erase.AtRest ↔ s.AtRest := by
  obtain ⟨w, hd, up, down, tee, stub, tr⟩ := s
  cases hd <;> simp [Sys.AtRest, Sys.erase, Handler.erase]

/-- **One transaction**, through the entry point: it is answered in the
wrapper, or goes to the proxy, where any call may fail. -/
inductive Transact (T : Tee τ ε) (files : Bytes → Option Bytes) (w : World τ)
    (args : List Bytes) : ShimResponse → World τ → Prop
  | answered {r : ShimResponse} (h : (invokeEntry w.uuid args).1 = .done r) :
      Transact T files w args r ⟨(invokeEntry w.uuid args).2, w.tee, w.ledger⟩
  | served {req : InvocationRequest} {r : ShimResponse} {s : Sys τ}
      (h : (invokeEntry w.uuid args).1 = .dial req)
      (hrun : Relation.ReflTransGen (Step T files)
        ⟨.dial req, .readRequest, [], [], w.tee, ⟨w.ledger, []⟩, []⟩ s)
      (hr : s.wrapper = .done r) (hrest : s.AtRest) :
      Transact T files w args r ⟨(invokeEntry w.uuid args).2, s.tee, s.ledger⟩

/-- Transactions one after another, with their responses. -/
inductive Transacts (T : Tee τ ε) (files : Bytes → Option Bytes) :
    World τ → List (List Bytes × ShimResponse) → World τ → Prop
  | nil (w : World τ) : Transacts T files w [] w
  | cons {w w' w'' : World τ} {args : List Bytes} {r : ShimResponse}
      {h : List (List Bytes × ShimResponse)} (hone : Transact T files w args r w')
      (hrest : Transacts T files w' h w'') : Transacts T files w ((args, r) :: h) w''

/-- The calls of `setup`. -/
def isSetup (args : List Bytes) : Bool := (getFunctionAndParameters args).1 = setupName

/-- The response of a `setup` does not depend on the UUID it replaces. -/
def setupResponse (args : List Bytes) : ShimResponse :=
  (setup [] (getFunctionAndParameters args).2).1

variable {w w' : World τ} {args : List Bytes} {r : ShimResponse}
variable {h : List (List Bytes × ShimResponse)}

theorem setup_response (uuid : Bytes) (params : List Bytes) :
    (setup uuid params).1 = (setup [] params).1 := by
  rcases params with _ | ⟨p, _ | ⟨q, ps⟩⟩
  · rfl
  · rfl
  · rfl

theorem invokeEntry_setup (hs : isSetup args = true) (uuid : Bytes) :
    invokeEntry uuid args =
      (.done (setupResponse args), (setup uuid (getFunctionAndParameters args).2).2) := by
  rw [setupResponse, ← setup_response uuid]
  exact if_pos (of_decide_eq_true hs)

theorem invokeEntry_invoke (hs : isSetup args = false) (uuid : Bytes) :
    invokeEntry uuid args = (invoke uuid (getFunctionAndParameters args).1
      (getFunctionAndParameters args).2, uuid) := by
  exact if_neg (of_decide_eq_false hs)

/-- A `setup` touches the UUID and nothing else. -/
theorem transact_setup_iff (hs : isSetup args = true) :
    Transact T files w args r w' ↔ r = setupResponse args ∧
      w' = ⟨(setup w.uuid (getFunctionAndParameters args).2).2, w.tee, w.ledger⟩ := by
  constructor
  · intro ht
    cases ht with
    | answered hd =>
      rw [invokeEntry_setup hs] at hd ⊢
      exact ⟨(Wrapper.done.inj hd).symm, rfl⟩
    | served hd _ _ _ =>
      rw [invokeEntry_setup hs] at hd
      cases hd
  · rintro ⟨rfl, rfl⟩
    have hone : Transact T files w args (setupResponse args)
        ⟨(invokeEntry w.uuid args).2, w.tee, w.ledger⟩ := .answered (by rw [invokeEntry_setup hs])
    rwa [invokeEntry_setup hs] at hone

/-- Two requests that differ in the UUID start systems that are equal up
to it. -/
theorem invoke_dial_erase {uuid function : Bytes} {params : List Bytes} {req : InvocationRequest}
    (hd : invoke uuid function params = .dial req) (uuid' : Bytes) :
    ∃ req', invoke uuid' function params = .dial req' ∧ req'.erase = req.erase := by
  rcases params with _ | ⟨p, _ | ⟨q, ps⟩⟩
  · cases hd
  · cases hd
  · cases hd
    exact ⟨_, rfl, rfl⟩

theorem invoke_done {uuid function : Bytes} {params : List Bytes}
    (hd : invoke uuid function params = .done r) (uuid' : Bytes) :
    invoke uuid' function params = .done r := by
  rcases params with _ | ⟨p, _ | ⟨q, ps⟩⟩
  · exact hd
  · exact hd
  · cases hd

/-- **Any other transaction keeps the UUID, and goes alike with every
other one.** -/
theorem Transact.withUuid (ht : Transact T files w args r w') (hs : isSetup args = false)
    (uuid : Bytes) :
    w'.uuid = w.uuid ∧
      Transact T files ⟨uuid, w.tee, w.ledger⟩ args r ⟨uuid, w'.tee, w'.ledger⟩ := by
  have hentry := invokeEntry_invoke hs
  cases ht with
  | answered hd =>
    rw [hentry] at hd ⊢
    refine ⟨rfl, ?_⟩
    have hone : Transact T files ⟨uuid, w.tee, w.ledger⟩ args r
        ⟨(invokeEntry uuid args).2, w.tee, w.ledger⟩ :=
      .answered (by rw [hentry]; exact invoke_done hd uuid)
    rwa [hentry] at hone
  | @served req _ s hd hrun hr hrest =>
    rw [hentry] at hd ⊢
    refine ⟨rfl, ?_⟩
    obtain ⟨req', hd', hreq⟩ := invoke_dial_erase hd uuid
    have hstart : Sys.erase ⟨.dial req, .readRequest, [], [], w.tee, ⟨w.ledger, []⟩, []⟩ =
        Sys.erase ⟨.dial req', .readRequest, [], [], w.tee, ⟨w.ledger, []⟩, []⟩ := by
      simp only [Sys.erase, Wrapper.erase, hreq]
    obtain ⟨s', hrun', hs'⟩ := exists_run_of_erase hrun hstart
    have hone : Transact T files ⟨uuid, w.tee, w.ledger⟩ args r
        ⟨(invokeEntry uuid args).2, s'.tee, s'.ledger⟩ :=
      .served (by rw [hentry]; exact hd') hrun'
        (done_erase_iff.1 (by rw [hs']; exact done_erase_iff.2 hr))
        (atRest_erase_iff.1 (by rw [hs']; exact atRest_erase_iff.2 hrest))
    have htee : s'.erase.tee = s.erase.tee := by rw [hs']
    rw [hentry, ← ledger_erase, hs', ledger_erase] at hone
    rwa [show s'.tee = s.tee from htee] at hone

/-- The history without its `setup`s. -/
def withoutSetups (h : List (List Bytes × ShimResponse)) : List (List Bytes × ShimResponse) :=
  h.filter fun x => !isSetup x.1

theorem withoutSetups_cons (hs : isSetup args = true) :
    withoutSetups ((args, r) :: h) = withoutSetups h :=
  List.filter_cons_of_neg (by simp [hs])

theorem withoutSetups_cons' (hs : isSetup args = false) :
    withoutSetups ((args, r) :: h) = (args, r) :: withoutSetups h :=
  List.filter_cons_of_pos (by simp [hs])

/-- A history goes on without its `setup`s. -/
theorem Transacts.without (hh : Transacts T files w h w') (uuid : Bytes) :
    (∀ x ∈ h, isSetup x.1 = true → x.2 = setupResponse x.1) ∧
      Transacts T files ⟨uuid, w.tee, w.ledger⟩ (withoutSetups h)
        ⟨uuid, w'.tee, w'.ledger⟩ := by
  induction hh with
  | nil w => exact ⟨fun x hx => absurd hx List.not_mem_nil, .nil _⟩
  | @cons w w₁ w' args r h hone _ ih =>
    obtain ⟨hresp, hrest⟩ := ih
    rw [List.forall_mem_cons]
    cases hs : isSetup args with
    | true =>
      obtain ⟨hr, rfl⟩ := (transact_setup_iff hs).1 hone
      rw [withoutSetups_cons hs]
      exact ⟨⟨fun _ => hr, hresp⟩, hrest⟩
    | false =>
      rw [withoutSetups_cons' hs]
      exact ⟨⟨nofun, hresp⟩, .cons (hone.withUuid hs uuid).2 hrest⟩

/-- A history can be given its `setup`s back. -/
theorem transacts_of_without {t t' : τ} {l l' : Ledger} {uuid uuid' : Bytes}
    (hresp : ∀ x ∈ h, isSetup x.1 = true → x.2 = setupResponse x.1)
    (hh : Transacts T files ⟨uuid', t, l⟩ (withoutSetups h) ⟨uuid', t', l'⟩) :
    ∃ uuid'', Transacts T files ⟨uuid, t, l⟩ h ⟨uuid'', t', l'⟩ := by
  induction h generalizing uuid t l with
  | nil =>
    cases hh
    exact ⟨uuid, .nil _⟩
  | cons x h ih =>
    obtain ⟨args, r⟩ := x
    rw [List.forall_mem_cons] at hresp
    cases hs : isSetup args with
    | true =>
      rw [withoutSetups_cons hs] at hh
      obtain ⟨uuid'', hrest⟩ := ih hresp.2 hh
      exact ⟨uuid'', .cons ((transact_setup_iff hs).2 ⟨hresp.1 hs, rfl⟩) hrest⟩
    | false =>
      rw [withoutSetups_cons' hs] at hh
      cases hh with
      | @cons _ w₁ _ _ _ _ hone hh =>
        obtain ⟨hsame, hone'⟩ := hone.withUuid hs uuid
        obtain ⟨v, t₁, l₁⟩ := w₁
        obtain rfl : v = uuid' := hsame
        obtain ⟨uuid'', hrest⟩ := ih hresp.2 hh
        exact ⟨uuid'', .cons hone' hrest⟩

/-- **The UUID decides nothing.** For every TEE and every history of
transactions, whichever calls fail in them: its responses, its TEE and its
ledger are possible if and only if they are, with any UUID to start from,
for the history without its `setup`s; and a `setup` is answered by its
arguments alone. -/
theorem uuid_decides_nothing (T : Tee τ ε) (files : Bytes → Option Bytes) (uuid uuid' : Bytes)
    (t t' : τ) (l l' : Ledger) (h : List (List Bytes × ShimResponse)) :
    (∃ uuid'', Transacts T files ⟨uuid, t, l⟩ h ⟨uuid'', t', l'⟩) ↔
      (∀ x ∈ h, isSetup x.1 = true → x.2 = setupResponse x.1) ∧
        Transacts T files ⟨uuid', t, l⟩ (withoutSetups h) ⟨uuid', t', l'⟩ := by
  constructor
  · rintro ⟨uuid'', hh⟩
    exact hh.without uuid'
  · rintro ⟨hresp, hh⟩
    exact transacts_of_without hresp hh

/-! ## The UUID behind a history -/

/-- A digit as `hex.EncodeToString` writes it. -/
def lowerHexDigit (d : UInt8) : UInt8 := if d < 10 then 48 + d else 87 + d

/-- `hex.EncodeToString`. -/
def encodeToString (bs : Bytes) : Bytes :=
  bs.flatMap fun b : UInt8 => [lowerHexDigit (b >>> 4), lowerHexDigit (b &&& 15)]

/-- A digit in lower case. -/
def toLower (c : UInt8) : UInt8 := if 65 ≤ c ∧ c ≤ 70 then c + 32 else c

/-- **Where decoding stops**, and the error it stops with. -/
inductive StopsAt : Bytes → Option HexError → Prop
  | all : StopsAt [] none
  | odd {c : UInt8} (hc : (fromHexChar c).isSome) : StopsAt [c] (some .oddLength)
  | first {c : UInt8} (rest : Bytes) (hc : fromHexChar c = none) :
      StopsAt (c :: rest) (some (.invalidByte c))
  | second {p c : UInt8} (rest : Bytes) (hp : (fromHexChar p).isSome) (hc : fromHexChar c = none) :
      StopsAt (p :: c :: rest) (some (.invalidByte c))

theorem lowerHexDigit_fromHexChar {c d : UInt8} (h : fromHexChar c = some d) :
    lowerHexDigit d = toLower c ∧ d < 16 := by
  have hall : ∀ c : UInt8,
      (fromHexChar c).all (fun d => lowerHexDigit d = toLower c ∧ d < 16) = true := by
    decide +kernel
  have hd := hall c
  rw [h] at hd
  exact of_decide_eq_true hd

/-- Two digits make a byte, and can be told from it. -/
theorem nibbles {a b : UInt8} (ha : a < 16) (hb : b < 16) :
    (a <<< 4 ||| b) >>> 4 = a ∧ (a <<< 4 ||| b) &&& 15 = b := by
  have hall : ∀ i j : Fin 16,
      (UInt8.ofNat i <<< 4 ||| UInt8.ofNat j) >>> 4 = UInt8.ofNat i ∧
        (UInt8.ofNat i <<< 4 ||| UInt8.ofNat j) &&& 15 = UInt8.ofNat j := by
    decide +kernel
  have h := hall ⟨a.toNat, ha⟩ ⟨b.toNat, hb⟩
  rwa [UInt8.ofNat_toNat, UInt8.ofNat_toNat] at h

/-- **Decoding takes the longest prefix of whole bytes.** -/
theorem decodeString_spec (input : Bytes) :
    ∃ digits rest, input = digits ++ rest ∧
      digits.map toLower = encodeToString (decodeString input).1 ∧
      StopsAt rest (decodeString input).2 := by
  fun_induction decodeString input with
  | case1 => exact ⟨[], [], rfl, rfl, .all⟩
  | case2 c hc => exact ⟨[], [c], rfl, rfl, .first [] hc⟩
  | case3 c d hc => exact ⟨[], [c], rfl, rfl, .odd (by rw [hc]; rfl)⟩
  | case4 p q rest hp => exact ⟨[], p :: q :: rest, rfl, rfl, .first _ hp⟩
  | case5 p q rest a hq hp => exact ⟨[], p :: q :: rest, rfl, rfl, .second _ (by rw [hp]; rfl) hq⟩
  | case6 p q rest a b hq hp ih =>
    obtain ⟨digits, rest', hrest, hdigits, hstop⟩ := ih
    obtain ⟨ha, hlt⟩ := lowerHexDigit_fromHexChar hp
    obtain ⟨hb, hlt'⟩ := lowerHexDigit_fromHexChar hq
    obtain ⟨hhigh, hlow⟩ := nibbles hlt hlt'
    refine ⟨p :: q :: digits, rest', by rw [hrest]; rfl, ?_, hstop⟩
    rw [encodeToString, List.flatMap_cons, hhigh, hlow, ha, hb, List.map_cons, List.map_cons,
      hdigits]
    rfl

/-- The input of a `setup` with one argument. -/
def setupInput : List Bytes → Option Bytes
  | [f, input] => if f = setupName then some input else none
  | _ => none

/-- The last of these in a history, with its response. -/
def lastSetup (h : List (List Bytes × ShimResponse)) : Option (Bytes × ShimResponse) :=
  h.reverse.findSome? fun x => (setupInput x.1).map fun input => (input, x.2)

/-- The response to what decoding stops with. -/
def decodeResponse : Option HexError → ShimResponse
  | none => .success []
  | some e => .error (setupDecodeError e)

theorem lastSetup_cons (args : List Bytes) (r : ShimResponse)
    (h : List (List Bytes × ShimResponse)) :
    lastSetup ((args, r) :: h) =
      (lastSetup h).or ((setupInput args).map fun input => (input, r)) := by
  rw [lastSetup, List.reverse_cons, List.findSome?_append, List.findSome?_singleton]
  rfl

/-- A `setup` that cannot be decoded stores what was decoded of it. -/
theorem setup_singleton (uuid input : Bytes) :
    setup uuid [input] = (decodeResponse (decodeString input).2, (decodeString input).1) := by
  rw [setup]
  obtain ⟨decoded, _ | e⟩ := decodeString input <;> rfl

/-- What one transaction does to the UUID. -/
theorem Transact.uuid (ht : Transact T files w args r w') :
    (setupInput args = none → w'.uuid = w.uuid) ∧
      ∀ input, setupInput args = some input →
        w'.uuid = (decodeString input).1 ∧ r = decodeResponse (decodeString input).2 := by
  cases hs : isSetup args with
  | false =>
    have hnone : setupInput args = none := by
      rcases args with _ | ⟨f, _ | ⟨p, _ | ⟨q, ps⟩⟩⟩
      · rfl
      · rfl
      · exact if_neg (of_decide_eq_false hs)
      · rfl
    rw [hnone]
    exact ⟨fun _ => (ht.withUuid hs []).1, nofun⟩
  | true =>
    obtain ⟨rfl, rfl⟩ := (transact_setup_iff hs).1 ht
    rcases args with _ | ⟨f, _ | ⟨p, _ | ⟨q, ps⟩⟩⟩
    · cases hs
    · exact ⟨fun _ => rfl, nofun⟩
    · have hsome : setupInput [f, p] = some p := if_pos (of_decide_eq_true hs)
      rw [hsome]
      refine ⟨nofun, fun input hi => ?_⟩
      obtain rfl := Option.some.inj hi
      simp only [setupResponse, getFunctionAndParameters, setup_singleton, and_self]
    · exact ⟨fun _ => rfl, nofun⟩

theorem Transacts.uuid (hh : Transacts T files w h w') :
    (lastSetup h = none → w'.uuid = w.uuid) ∧
      ∀ input r, lastSetup h = some (input, r) →
        w'.uuid = (decodeString input).1 ∧ r = decodeResponse (decodeString input).2 := by
  induction hh with
  | nil w => exact ⟨fun _ => rfl, nofun⟩
  | @cons w w₁ w' args r h hone _ ih =>
    obtain ⟨hkeep, hset⟩ := hone.uuid
    rw [lastSetup_cons]
    cases hlast : lastSetup h with
    | some x =>
      rw [Option.some_or]
      exact ⟨nofun, fun input r' he => ih.2 input r' (hlast.trans he)⟩
    | none =>
      rw [Option.none_or, ih.1 hlast]
      cases hi : setupInput args with
      | none => exact ⟨fun _ => hkeep hi, nofun⟩
      | some input =>
        refine ⟨nofun, fun input' r' he => ?_⟩
        obtain ⟨rfl, rfl⟩ := Prod.mk.inj (Option.some.inj he)
        exact hset input hi

/-- **The UUID is what the last `setup` had decoded**, whether it failed or
not. Over every history, whichever calls fail in it: the UUID is the one
the wrapper started with as long as no `setup` has had its one argument,
and spells, up to case, the longest prefix of whole bytes of the last such
argument. That `setup` succeeded exactly when this was all of it, and
otherwise named what it stopped at. -/
theorem uuid_of_last_setup (T : Tee τ ε) (files : Bytes → Option Bytes) {w w' : World τ}
    {h : List (List Bytes × ShimResponse)} (hh : Transacts T files w h w') :
    (lastSetup h = none → w'.uuid = w.uuid) ∧
      ∀ input r, lastSetup h = some (input, r) →
        ∃ digits rest e, input = digits ++ rest ∧ digits.map toLower = encodeToString w'.uuid ∧
          StopsAt rest e ∧ r = decodeResponse e := by
  refine ⟨hh.uuid.1, fun input r hlast => ?_⟩
  obtain ⟨huuid, hr⟩ := hh.uuid.2 input r hlast
  obtain ⟨digits, rest, hinput, hdigits, hstop⟩ := decodeString_spec input
  exact ⟨digits, rest, _, hinput, by rw [huuid]; exact hdigits, hstop, hr⟩

/-- A `setup` and one that fails behind its first byte. -/
def twoSetups : List (List Bytes × ShimResponse) :=
  [([setupName, ascii "00fF"], .success []),
    ([setupName, ascii "0Axy"], .error (setupDecodeError (.invalidByte 120)))]

/-- The UUID that was stored is gone, though the second `setup` failed. -/
theorem uuid_of_last_setup_failed :
    ∃ w' : World (TaRun Unit),
      Transacts (taTee fun _ => none) (fun _ => none) ⟨[], freshRun, fun _ => none⟩
        twoSetups w' ∧ w'.uuid = [10] ∧
      ∃ digits rest e, ascii "0Axy" = digits ++ rest ∧ digits.map toLower = ascii "0a" ∧
        StopsAt rest e := by
  have hfirst : Transact (taTee (σ := Unit) fun _ => none) (fun _ => none)
      ⟨[], freshRun, fun _ => none⟩ [setupName, ascii "00fF"] (.success [])
      ⟨[0, 255], freshRun, fun _ => none⟩ :=
    (transact_setup_iff (by decide)).2 ⟨by decide, rfl⟩
  have hsecond : Transact (taTee (σ := Unit) fun _ => none) (fun _ => none)
      ⟨[0, 255], freshRun, fun _ => none⟩ [setupName, ascii "0Axy"]
      (.error (setupDecodeError (.invalidByte 120)))
      ⟨[10], freshRun, fun _ => none⟩ :=
    (transact_setup_iff (by decide)).2 ⟨by decide, rfl⟩
  have hh := Transacts.cons hfirst (.cons hsecond (.nil _))
  obtain ⟨digits, rest, e, hinput, hdigits, hstop, -⟩ :=
    (uuid_of_last_setup _ _ hh).2 (ascii "0Axy") _ rfl
  exact ⟨_, hh, rfl, digits, rest, e, hinput, hdigits, hstop⟩

end TeeChaincode
