import Mathlib.Data.List.Induction
import Mathlib.Tactic.Common

/-!
# Guest programs over a host

A sandboxed program computes on a state of its own and reaches the
outside only through calls to its host. `Guest C R G E α` is one such
program as the host sees it: it returns, it traps, or it makes a call and
goes on with the answer. Between calls it may change its own state `G` in
any way, so a call carries the state it is made in; the host may change
that state too (it writes answers into the guest's memory), and it may
answer a call by raising an exception, which stops the guest there.

`exec` runs a guest against a host and records its calls. Two rules carry
everything proved of an arbitrary guest: `hostAfter_invariant`, for what
every call preserves, and `exec_bisim`, for two hosts the guest cannot tell
apart. A guest that is known only by how it treats its own state is
`Keeps`, or `Alike` another one. For a guest that is given, `Wp` says that it returns, with a
postcondition, and its rules follow the program text; `Agrees` says it of
two guests at once, and that they run alike.
-/

namespace TeeChaincode

namespace Common

/-- A guest program making calls `C` with answers `R`, on a state `G`,
with exceptions `E`. -/
inductive Guest (C R G E α : Type) : Type
  /-- The guest returns. -/
  | ret (a : α) (g : G)
  /-- The guest traps; its state stays as it was at the trap. -/
  | trap (ex : E) (g : G)
  /-- The guest calls its host. -/
  | call (c : C) (g : G) (k : R → G → Guest C R G E α)

/-- A host's answer to a call: the value returned, the guest's state and
the host's own behind it, and the exception raised, if any. -/
structure Answer (R G E S : Type) where
  /-- The value returned. -/
  ret : R
  /-- The guest's state behind the call. -/
  guest : G
  /-- The host's state behind the call. -/
  host : S
  /-- The exception the host raised. -/
  ex : Option E

/-- A host answers a call made in a guest state, in a state of its own. -/
abbrev Host (C R G E S : Type) := C → G → S → Answer R G E S

/-- How a guest's run against a host ended. -/
structure Outcome (C G E S α : Type) where
  /-- The value returned, or the exception the run ended with. -/
  out : Except E α
  /-- The guest's final state. -/
  guest : G
  /-- The host's final state. -/
  host : S
  /-- The calls made, each with the guest state it was made in. -/
  calls : List (C × G)

namespace Guest

variable {C R G E S α β : Type}

/-- Run a guest against a host. -/
def exec (H : Host C R G E S) : Guest C R G E α → S → Outcome C G E S α
  | .ret a g, s => ⟨.ok a, g, s, []⟩
  | .trap ex g, s => ⟨.error ex, g, s, []⟩
  | .call c g k, s =>
    match (H c g s).ex with
    | some ex => ⟨.error ex, (H c g s).guest, (H c g s).host, [(c, g)]⟩
    | none =>
      let r := (k (H c g s).ret (H c g s).guest).exec H (H c g s).host
      { r with calls := (c, g) :: r.calls }

/-- Go on with `f` where the guest returns. -/
def bind : Guest C R G E α → (α → G → Guest C R G E β) → Guest C R G E β
  | .ret a g, f => f a g
  | .trap ex g, _ => .trap ex g
  | .call c g k, f => .call c g fun r g' => (k r g').bind f

variable {H : Host C R G E S}

/-- **Hosts a guest cannot tell apart.** If related host states answer
every call alike and stay related, a run from either ends the same way in
the same guest state, having made the same calls. -/
theorem exec_bisim {S' : Type} {H' : Host C R G E S'} {Rel : S → S' → Prop}
    (hcall : ∀ c g s s', Rel s s' → (H c g s).ret = (H' c g s').ret ∧
      (H c g s).guest = (H' c g s').guest ∧ (H c g s).ex = (H' c g s').ex ∧
      Rel (H c g s).host (H' c g s').host)
    (p : Guest C R G E α) {s : S} {s' : S'} (hs : Rel s s') :
    (p.exec H s).out = (p.exec H' s').out ∧ (p.exec H s).guest = (p.exec H' s').guest ∧
      (p.exec H s).calls = (p.exec H' s').calls ∧
      Rel (p.exec H s).host (p.exec H' s').host := by
  induction p generalizing s s' with
  | ret a g => exact ⟨rfl, rfl, rfl, hs⟩
  | trap ex g => exact ⟨rfl, rfl, rfl, hs⟩
  | call c g k ih =>
    obtain ⟨hret, hg, hex, hrel⟩ := hcall c g s s' hs
    simp only [exec]
    rw [← hex, ← hg, ← hret]
    cases h : (H c g s).ex with
    | some ex => exact ⟨rfl, rfl, rfl, hrel⟩
    | none =>
      obtain ⟨h1, h2, h3, h4⟩ := ih (H c g s).ret (H c g s).guest hrel
      exact ⟨h1, h2, by simp only [h3], h4⟩

/-- The host's state behind a list of calls. -/
def hostAfter (H : Host C R G E S) (s : S) (calls : List (C × G)) : S :=
  calls.foldl (fun s c => (H c.1 c.2 s).host) s

theorem hostAfter_append (s : S) (calls calls' : List (C × G)) :
    hostAfter H s (calls ++ calls') = hostAfter H (hostAfter H s calls) calls' :=
  List.foldl_append

/-- **What every call preserves stays**, whatever the guest does in
between. -/
theorem hostAfter_invariant {I : S → Prop} {calls : List (C × G)}
    (hcall : ∀ c ∈ calls, ∀ s, I s → I (H c.1 c.2 s).host) {s : S} (hs : I s) :
    I (hostAfter H s calls) := by
  induction calls generalizing s with
  | nil => exact hs
  | cons c calls ih =>
    have htail : ∀ d ∈ calls, ∀ s, I s → I (H d.1 d.2 s).host :=
      fun d hd => hcall d (List.mem_cons_of_mem _ hd)
    exact ih htail (hcall c List.mem_cons_self s hs)

/-- **What a run makes of the host is what its calls make of it.** -/
theorem exec_host (p : Guest C R G E α) (s : S) :
    (p.exec H s).host = hostAfter H s (p.exec H s).calls := by
  induction p generalizing s with
  | ret a g => rfl
  | trap ex g => rfl
  | call c g k ih =>
    rw [exec]
    cases h : (H c g s).ex with
    | some ex => rfl
    | none => exact ih _ _ _

/-- No call of a run that returned raised an exception. -/
theorem exec_ok_calls (p : Guest C R G E α) {s : S} {a : α} (h : (p.exec H s).out = .ok a) :
    ∀ c ∈ (p.exec H s).calls, ∃ s', (H c.1 c.2 s').ex = none := by
  induction p generalizing s with
  | ret b g => simp [exec]
  | trap ex g => simp [exec]
  | call c g k ih =>
    rw [exec] at h ⊢
    cases hx : (H c g s).ex with
    | some ex => simp [hx] at h
    | none =>
      simp only [hx] at h ⊢
      intro d hd
      rcases List.mem_cons.1 hd with rfl | hd
      · exact ⟨s, hx⟩
      · exact ih _ _ h d hd

/-- **A reading of the host that every call overwrites or leaves** is,
behind a list of calls, what the last of those that overwrite it wrote. -/
theorem hostAfter_last {read : S → Option β} {wrote : C × G → Option β} {calls : List (C × G)}
    (h : ∀ c ∈ calls, ∀ s, read (H c.1 c.2 s).host = (wrote c).or (read s)) (s : S) :
    read (hostAfter H s calls) = (calls.filterMap wrote).getLast?.or (read s) := by
  induction calls using List.reverseRecOn with
  | nil => rfl
  | append_singleton calls c ih =>
    have hlast : ((calls ++ [c]).filterMap wrote).getLast? =
        (wrote c).or (calls.filterMap wrote).getLast? := by
      cases hw : wrote c <;> simp [List.filterMap_append, hw]
    have hstep : hostAfter H s (calls ++ [c]) = (H c.1 c.2 (hostAfter H s calls)).host :=
      hostAfter_append s calls [c]
    rw [hstep, h c (by simp), ih fun d hd => h d (by simp [hd]), hlast, Option.or_assoc]

/-- The calls of a run, each with the states of guest and host it is made
in. -/
def visits (H : Host C R G E S) : Guest C R G E α → S → List (C × G × S)
  | .ret _ _, _ => []
  | .trap _ _, _ => []
  | .call c g k, s => (c, g, s) ::
    match (H c g s).ex with
    | some _ => []
    | none => (k (H c g s).ret (H c g s).guest).visits H (H c g s).host

/-- They are the calls `exec` records. -/
theorem map_visits (p : Guest C R G E α) (s : S) :
    (p.visits H s).map (fun v => (v.1, v.2.1)) = (p.exec H s).calls := by
  induction p generalizing s with
  | ret a g => rfl
  | trap ex g => rfl
  | call c g k ih =>
    rw [exec, visits, List.map_cons]
    cases h : (H c g s).ex with
    | some ex => rfl
    | none => exact congrArg _ (ih _ _ _)

/-- **What every call preserves holds at each of them.** -/
theorem visits_invariant {I : S → Prop} (p : Guest C R G E α) {s : S}
    (hcall : ∀ x ∈ (p.exec H s).calls, ∀ s, I s → I (H x.1 x.2 s).host) (hs : I s) :
    ∀ v ∈ p.visits H s, I v.2.2 := by
  induction p generalizing s with
  | ret a g => exact nofun
  | trap ex g => exact nofun
  | call c g k ih =>
    rw [exec] at hcall
    rw [visits]
    intro v hv
    rcases List.mem_cons.1 hv with rfl | hv
    · exact hs
    · cases h : (H c g s).ex with
      | some ex =>
        rw [h] at hv
        exact absurd hv List.not_mem_nil
      | none =>
        rw [h] at hv hcall
        exact ih _ _ (fun x hx => hcall x (List.mem_cons_of_mem _ hx))
          (hcall (c, g) List.mem_cons_self s hs) v hv

/-- The guest never lowers a measure of its state, as long as its host
does not. -/
def Climbs (μ : G → ℕ) : ℕ → Guest C R G E α → Prop
  | n, .ret _ g => n ≤ μ g
  | n, .trap _ g => n ≤ μ g
  | n, .call _ g k => n ≤ μ g ∧ ∀ r g', μ g ≤ μ g' → (k r g').Climbs μ (μ g')

/-- **A run ends with the measure at least as high** as it began and as
it was at each call. -/
theorem exec_climbs {μ : G → ℕ} (hH : ∀ c g s, μ g ≤ μ (H c g s).guest) (p : Guest C R G E α)
    {n : ℕ} {s : S} (h : p.Climbs μ n) :
    n ≤ μ (p.exec H s).guest ∧ ∀ x ∈ (p.exec H s).calls, μ x.2 ≤ μ (p.exec H s).guest := by
  induction p generalizing n s with
  | ret a g => exact ⟨h, nofun⟩
  | trap ex g => exact ⟨h, nofun⟩
  | call c g k ih =>
    obtain ⟨hn, hk⟩ := h
    have hstep := hH c g s
    rw [exec]
    cases hx : (H c g s).ex with
    | some ex =>
      refine ⟨Nat.le_trans hn hstep, fun x hmem => ?_⟩
      rw [List.mem_singleton.1 hmem]
      exact hstep
    | none =>
      obtain ⟨hend, hcalls⟩ := ih _ _ (s := (H c g s).host) (hk (H c g s).ret _ hstep)
      refine ⟨Nat.le_trans hn (Nat.le_trans hstep hend), fun x hmem => ?_⟩
      rcases List.mem_cons.1 hmem with rfl | hmem
      · exact Nat.le_trans hstep hend
      · exact hcalls x hmem

/-- The guest's state moves along a relation, as long as its host moves it
so. -/
def Keeps (Rel : G → G → Prop) : G → Guest C R G E α → Prop
  | g₀, .ret _ g => Rel g₀ g
  | g₀, .trap _ g => Rel g₀ g
  | g₀, .call _ g k => Rel g₀ g ∧ ∀ r g', Rel g g' → (k r g').Keeps Rel g'

/-- **A run moves along it too.** -/
theorem Keeps.run {Rel : G → G → Prop} {p : Guest C R G E α} {g₀ : G} (h : p.Keeps Rel g₀)
    (htrans : ∀ a b c, Rel a b → Rel b c → Rel a c) (hH : ∀ c g s, Rel g (H c g s).guest) (s : S) :
    Rel g₀ (p.exec H s).guest := by
  induction p generalizing g₀ s with
  | ret a g => exact h
  | trap ex g => exact h
  | call c g k ih =>
    obtain ⟨hg, hk⟩ := h
    have hstep := htrans _ _ _ hg (hH c g s)
    rw [exec]
    cases hx : (H c g s).ex with
    | some ex => exact hstep
    | none => exact htrans _ _ _ hstep (ih _ _ (hk (H c g s).ret _ (hH c g s)) _)

/-- Guests that make the same calls, on states that are related as long as
the host's answers are. -/
def Alike (Rel : G → G → Prop) : Guest C R G E α → Guest C R G E α → Prop
  | .ret a g, .ret a' g' => a = a' ∧ Rel g g'
  | .trap ex g, .trap ex' g' => ex = ex' ∧ Rel g g'
  | .call c g k, .call c' g' k' =>
    c = c' ∧ Rel g g' ∧ ∀ r g₁ g₁', Rel g₁ g₁' → (k r g₁).Alike Rel (k' r g₁')
  | _, _ => False

/-- **They end alike**, where the host answers related states alike. -/
theorem Alike.run {Rel : G → G → Prop} {p p' : Guest C R G E α} (h : p.Alike Rel p')
    (hH : ∀ c g g' s, Rel g g' → (H c g s).ret = (H c g' s).ret ∧
      Rel (H c g s).guest (H c g' s).guest ∧ (H c g s).host = (H c g' s).host ∧
      (H c g s).ex = (H c g' s).ex) (s : S) :
    (p.exec H s).out = (p'.exec H s).out ∧ Rel (p.exec H s).guest (p'.exec H s).guest ∧
      (p.exec H s).host = (p'.exec H s).host ∧
      (p.exec H s).calls.map Prod.fst = (p'.exec H s).calls.map Prod.fst := by
  induction p generalizing p' s with
  | ret a g =>
    cases p' with
    | ret a' g' => exact ⟨congrArg Except.ok h.1, h.2, rfl, rfl⟩
    | trap | call => exact absurd h id
  | trap ex g =>
    cases p' with
    | trap ex' g' => exact ⟨congrArg Except.error h.1, h.2, rfl, rfl⟩
    | ret | call => exact absurd h id
  | call c g k ih =>
    cases p' with
    | ret | trap => exact absurd h id
    | call c' g' k' =>
      obtain ⟨rfl, hg, hk⟩ := h
      obtain ⟨hret, hguest, hhost, hex⟩ := hH c g g' s hg
      simp only [exec]
      rw [← hex, ← hret, ← hhost]
      cases hx : (H c g s).ex with
      | some ex => exact ⟨rfl, hguest, rfl, rfl⟩
      | none =>
        obtain ⟨h1, h2, h3, h4⟩ := ih (H c g s).ret (H c g s).guest (hk _ _ _ hguest) (H c g s).host
        exact ⟨h1, h2, h3, congrArg (List.cons c) h4⟩

end Guest

/-! ## Writing guests -/

/-- A guest program as a function of the state it starts in. -/
def GuestM (C R G E α : Type) : Type := G → Guest C R G E α

namespace GuestM

variable {C R G E S α β : Type}

instance : Monad (GuestM C R G E) where
  pure a := fun g => .ret a g
  bind m f := fun g => (m g).bind fun a g' => f a g'

/-- The guest's state. -/
def get : GuestM C R G E G := fun g => .ret g g

/-- Change the guest's state. -/
def modify (f : G → G) : GuestM C R G E Unit := fun g => .ret () (f g)

/-- Stop with an exception. -/
def trap (ex : E) : GuestM C R G E α := fun g => .trap ex g

/-- Call the host. -/
def call (c : C) : GuestM C R G E R := fun g => .call c g fun r g' => .ret r g'

/-- **The guest returns**, from `g` with the host in `s`, and the
postcondition holds of the value, the guest's state and the host's. -/
def Wp (H : Host C R G E S) (m : GuestM C R G E α) (Q : α → G → S → Prop) (g : G) (s : S) : Prop :=
  ∃ a, ((m g).exec H s).out = .ok a ∧ Q a ((m g).exec H s).guest ((m g).exec H s).host

variable {H : Host C R G E S} {g : G} {s : S}

theorem wp_pure {a : α} {Q : α → G → S → Prop} (h : Q a g s) :
    Wp H (pure a : GuestM C R G E α) Q g s :=
  ⟨a, rfl, h⟩

theorem wp_get {Q : G → G → S → Prop} (h : Q g g s) : Wp H get Q g s :=
  ⟨g, rfl, h⟩

theorem wp_modify {f : G → G} {Q : Unit → G → S → Prop} (h : Q () (f g) s) :
    Wp H (modify f) Q g s :=
  ⟨(), rfl, h⟩

/-- A call whose answer raises nothing. -/
theorem wp_call {c : C} {Q : R → G → S → Prop} (hex : (H c g s).ex = none)
    (h : Q (H c g s).ret (H c g s).guest (H c g s).host) : Wp H (call c) Q g s := by
  have he : ((call c : GuestM C R G E R) g).exec H s =
      ⟨.ok (H c g s).ret, (H c g s).guest, (H c g s).host, [(c, g)]⟩ := by
    simp only [call, Guest.exec, hex]
  exact ⟨(H c g s).ret, by rw [he], by rw [he]; exact h⟩

/-- The run of a program behind one that returns. -/
theorem exec_bind (p : Guest C R G E α) (f : α → G → Guest C R G E β) {s : S} {a : α}
    (h : (p.exec H s).out = .ok a) :
    (p.bind f).exec H s =
      let r := (f a (p.exec H s).guest).exec H (p.exec H s).host
      { r with calls := (p.exec H s).calls ++ r.calls } := by
  induction p generalizing s with
  | ret b g =>
    simp only [Guest.exec, Except.ok.injEq] at h
    subst h
    rfl
  | trap ex g => simp [Guest.exec] at h
  | call c g k ih =>
    simp only [Guest.exec, Guest.bind] at h ⊢
    cases hx : (H c g s).ex with
    | some ex => simp [hx] at h
    | none =>
      simp only [hx] at h ⊢
      rw [ih _ _ h]
      rfl

/-- **Sequencing.** -/
theorem wp_bind {m : GuestM C R G E α} {f : α → GuestM C R G E β} {Q : β → G → S → Prop}
    (h : Wp H m (fun a g' s' => Wp H (f a) Q g' s') g s) : Wp H (m >>= f) Q g s := by
  obtain ⟨a, ha, b, hb, hQ⟩ := h
  have hexec := exec_bind (m g) (fun a g' => f a g') ha
  refine ⟨b, ?_, ?_⟩
  · exact (congrArg Outcome.out hexec).trans hb
  · change Q b (((m g).bind fun a g' => f a g').exec H s).guest
      (((m g).bind fun a g' => f a g').exec H s).host
    rw [hexec]
    exact hQ

/-- **Consequence.** -/
theorem wp_mono {m : GuestM C R G E α} {Q Q' : α → G → S → Prop} (h : Wp H m Q g s)
    (hQ : ∀ a g' s', Q a g' s' → Q' a g' s') : Wp H m Q' g s := by
  obtain ⟨a, ha, hq⟩ := h
  exact ⟨a, ha, hQ _ _ _ hq⟩

/-! ## Two programs that run alike -/

/-- **`c` runs as `c'` does**, from `g` with the host in `s`: they make
the same calls, each of them with `K`, and both return with the
postcondition. -/
structure Agrees (H : Host C R G E S) (K : C × G → Prop) (c c' : GuestM C R G E α)
    (Q : α → G → S → Prop) (g : G) (s : S) : Prop where
  exec_eq : (c g).exec H s = (c' g).exec H s
  calls : ∀ x ∈ ((c' g).exec H s).calls, K x
  returns : Wp H c' Q g s

variable {K : C × G → Prop} {c c' : GuestM C R G E α}

theorem agrees_pure {a : α} {Q : α → G → S → Prop} (h : Q a g s) :
    Agrees H K (pure a) (pure a) Q g s :=
  ⟨rfl, nofun, wp_pure h⟩

theorem agrees_modify {f : G → G} {Q : Unit → G → S → Prop} (h : Q () (f g) s) :
    Agrees H K (modify f) (modify f) Q g s :=
  ⟨rfl, nofun, wp_modify h⟩

/-- A call whose answer raises nothing. -/
theorem agrees_call {x : C} {Q : R → G → S → Prop} (hK : K (x, g)) (hw : Wp H (call x) Q g s) :
    Agrees H K (call x) (call x) Q g s := by
  refine ⟨rfl, fun y hy => ?_, hw⟩
  have hy' : y = (x, g) := by
    simp only [call, Guest.exec] at hy
    cases hx : (H x g s).ex <;> simpa [hx] using hy
  rw [hy']
  exact hK

/-- **Sequencing.** -/
theorem agrees_bind {f f' : α → GuestM C R G E β} {Q : β → G → S → Prop}
    (h : Agrees H K c c' (fun a g' s' => Agrees H K (f a) (f' a) Q g' s') g s) :
    Agrees H K (c >>= f) (c' >>= f') Q g s := by
  obtain ⟨heq, hcalls, a, ha, hf⟩ := h
  have hexec : ((c >>= f) g).exec H s = _ :=
    exec_bind (c g) (fun a g' => f a g') (heq ▸ ha : ((c g).exec H s).out = .ok a)
  have hexec' : ((c' >>= f') g).exec H s = _ := exec_bind (c' g) (fun a g' => f' a g') ha
  refine ⟨?_, ?_, wp_bind ⟨a, ha, hf.returns⟩⟩
  · rw [hexec, hexec', heq]
    simp only [hf.exec_eq]
  · rw [hexec']
    intro x hx
    rcases List.mem_append.1 hx with hx | hx
    · exact hcalls x hx
    · exact hf.calls x hx

/-- **Consequence.** -/
theorem agrees_mono {Q Q' : α → G → S → Prop} (h : Agrees H K c c' Q g s)
    (hQ : ∀ a g' s', Q a g' s' → Q' a g' s') : Agrees H K c c' Q' g s :=
  ⟨h.exec_eq, h.calls, wp_mono h.returns hQ⟩

/-- A program in front that reads the guest's state and goes on. -/
theorem agrees_read {u : GuestM C R G E β} {b : β} {f : β → GuestM C R G E α}
    {Q : α → G → S → Prop} (hu : u g = .ret b g) (h : Agrees H K (f b) c' Q g s) :
    Agrees H K (u >>= f) c' Q g s := by
  have hbind : (u >>= f) g = f b g := by
    change (u g).bind _ = f b g
    rw [hu]
    rfl
  refine ⟨?_, h.calls, h.returns⟩
  rw [hbind]
  exact h.exec_eq

end GuestM

end Common

end TeeChaincode
