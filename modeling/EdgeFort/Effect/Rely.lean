/-
Programs that others interrupt.

Threads and an environment act on one state.  Between two operations of a thread the others may
change the state in the ways the thread relies on.  `wpr` says of a program that, whatever they
do, each of its operations does what the other threads rely on, and it returns or raises only in
the states of its postconditions.  Threads whose programs all satisfy `wpr` keep to it together.

An operation may have no outcome in a state; the thread then waits.
-/
import EdgeFort.Effect.Frame
import EdgeFort.Effect.System
import Mathlib.Logic.Function.Basic

namespace Effect

/-- The operations of the threads `ι`, the steps of their environment, and what each thread may
rely on. -/
structure Reliance (ι Op : Type) (Res : Op → Type) (ε W : Type) where
  outcome : ι → (o : Op) → W → Except ε (Res o) × W → Prop
  environment : W → W → Prop
  rely : ι → W → W → Prop
  refl : ∀ i w, rely i w w
  trans : ∀ {i w w' w''}, rely i w w' → rely i w' w'' → rely i w w''
  environment_relied : ∀ {i w w'}, environment w w' → rely i w w'

variable {ι Op : Type} {Res : Op → Type} {ε W α β A : Type}

def wpr (T : Reliance ι Op Res ε W) (i : ι) :
    Prog Op Res ε α → (α → W → Prop) → (ε → W → Prop) → W → Prop
  | .pure a, Q, _, w => ∀ w', T.rely i w w' → Q a w'
  | .throw e, _, E, w => ∀ w', T.rely i w w' → E e w'
  | .op o k, Q, E, w => ∀ w', T.rely i w w' → ∀ x, T.outcome i o w' x →
      (∀ j, j ≠ i → T.rely j w' x.2) ∧ wpr T i (k x.1) Q E x.2

section Rules

variable {T : Reliance ι Op Res ε W} {i : ι} {w w' : W} {p : Prog Op Res ε α}
  {Q Q' : α → W → Prop} {E E' : ε → W → Prop}

/-- What the others do makes no difference. -/
theorem wpr_rely (h : wpr T i p Q E w) (hw : T.rely i w w') : wpr T i p Q E w' := by
  cases p with
  | pure a => exact fun w'' hw' => h w'' (T.trans hw hw')
  | throw e => exact fun w'' hw' => h w'' (T.trans hw hw')
  | op o k => exact fun w'' hw' => h w'' (T.trans hw hw')

theorem wpr_mono (h : wpr T i p Q E w) (hQ : ∀ a w, Q a w → Q' a w) (hE : ∀ e w, E e w → E' e w) :
    wpr T i p Q' E' w := by
  induction p generalizing w with
  | pure a => exact fun w' hw => hQ a w' (h w' hw)
  | throw e => exact fun w' hw => hE e w' (h w' hw)
  | op o k ih =>
    intro w' hw x hx
    obtain ⟨hothers, hnext⟩ := h w' hw x hx
    exact ⟨hothers, ih x.1 hnext⟩

theorem wpr_bind {Q : β → W → Prop} {f : α → Prog Op Res ε β}
    (h : wpr T i p (fun a w => wpr T i (f a) Q E w) E w) : wpr T i (p >>= f) Q E w := by
  induction p generalizing w with
  | pure a => exact h w (T.refl i w)
  | throw e => exact h
  | op o k ih =>
    intro w' hw x hx
    obtain ⟨hothers, hnext⟩ := h w' hw x hx
    exact ⟨hothers, ih x.1 hnext⟩

theorem wpr_catch {f : ε → Prog Op Res ε α}
    (h : wpr T i p Q (fun e w => wpr T i (f e) Q E w) w) : wpr T i (p.catch' f) Q E w := by
  induction p generalizing w with
  | pure a => exact h
  | throw e => exact h w (T.refl i w)
  | op o k ih =>
    intro w' hw x hx
    obtain ⟨hothers, hnext⟩ := h w' hw x hx
    exact ⟨hothers, ih x.1 hnext⟩

/-- The postconditions hold for as long as the thread does nothing. -/
theorem wpr_stable (h : wpr T i p Q E w) :
    wpr T i p (fun a w => ∀ w', T.rely i w w' → Q a w') (fun e w => ∀ w', T.rely i w w' → E e w') w := by
  induction p generalizing w with
  | pure a => exact fun w' hw w'' hw' => h w'' (T.trans hw hw')
  | throw e => exact fun w' hw w'' hw' => h w'' (T.trans hw hw')
  | op o k ih =>
    intro w' hw x hx
    obtain ⟨hothers, hnext⟩ := h w' hw x hx
    exact ⟨hothers, ih x.1 hnext⟩

theorem wpr_finally {f : Prog Op Res ε Unit}
    (h : wpr T i p (fun a w => wpr T i f (fun _ => Q a) E w)
      (fun e w => wpr T i f (fun _ => E e) E w) w) : wpr T i (p.finally' f) Q E w := by
  refine wpr_bind (wpr_catch (wpr_mono h (fun a w hf => wpr_bind ?_) fun e w hf => wpr_bind ?_))
  · exact wpr_mono (wpr_stable hf) (fun _ _ hq => hq) fun e w he => he w (T.refl i w)
  · exact wpr_mono (wpr_stable hf) (fun _ _ hq => hq) fun e w he => he w (T.refl i w)

theorem wpr_perform {o : Op} {Q : Res o → W → Prop}
    (h : ∀ w', T.rely i w w' → ∀ x, T.outcome i o w' x → (∀ j, j ≠ i → T.rely j w' x.2) ∧
      (∀ a, x.1 = .ok a → ∀ w'', T.rely i x.2 w'' → Q a w'') ∧
      ∀ e, x.1 = .error e → ∀ w'', T.rely i x.2 w'' → E e w'') :
    wpr T i (.perform o) Q E w := by
  intro w' hw x hx
  obtain ⟨hothers, hok, herror⟩ := h w' hw x hx
  refine ⟨hothers, ?_⟩
  cases hr : x.1 with
  | ok a => exact hok a hr
  | error e => exact herror e hr

theorem wpr_ofExcept {r : Except ε α} (hok : ∀ a, r = .ok a → ∀ w', T.rely i w w' → Q a w')
    (herror : ∀ e, r = .error e → ∀ w', T.rely i w w' → E e w') : wpr T i (.ofExcept r) Q E w := by
  cases r with
  | ok a => exact hok a rfl
  | error e => exact herror e rfl

theorem wpr_liftM {r : Except ε α} (hok : ∀ a, r = .ok a → ∀ w', T.rely i w w' → Q a w')
    (herror : ∀ e, r = .error e → ∀ w', T.rely i w w' → E e w') :
    wpr T i (MonadLiftT.monadLift r) Q E w := wpr_ofExcept hok herror

/-- Operations that nobody notices leave the thread where the others may. -/
theorem wpr_unnoticed {ok : Op → Prop} {post : α → Prop} (hp : p.All ok) (hpost : p.Returns post)
    (hok : ∀ o w x, ok o → T.outcome i o w x → ∀ j, T.rely j w x.2) :
    wpr T i p (fun a w' => T.rely i w w' ∧ post a) (fun _ w' => T.rely i w w') w := by
  suffices ∀ w₀, T.rely i w₀ w →
      wpr T i p (fun a w' => T.rely i w₀ w' ∧ post a) (fun _ w' => T.rely i w₀ w') w from
    this w (T.refl i w)
  induction p generalizing w with
  | pure a => exact fun w₀ hw w' hw' => ⟨T.trans hw hw', hpost⟩
  | throw e => exact fun w₀ hw w' hw' => T.trans hw hw'
  | op o k ih =>
    intro w₀ hw w' hw' x hx
    have hstep := hok o w' x hp.1 hx
    exact ⟨fun j _ => hstep j,
      ih x.1 (hp.2 x.1) (hpost x.1) w₀ (T.trans (T.trans hw hw') (hstep i))⟩

end Rules

/-! ## Threads that run such programs -/

/-- A call, the state in which it was made, and what is left of it. -/
structure Underway (Op : Type) (Res : Op → Type) (ε α A W : Type) where
  call : A
  start : W
  rest : Prog Op Res ε α

structure Pool (ι Op : Type) (Res : Op → Type) (ε α A W : Type) where
  world : W
  run : ι → Option (Underway Op Res ε α A W)

namespace Pool

variable [DecidableEq ι] (T : Reliance ι Op Res ε W) (program : A → Prog Op Res ε α)

inductive Step : Pool ι Op Res ε α A W → Pool ι Op Res ε α A W → Prop
  | call {s i} (a : A) : s.run i = none →
      Step s { s with run := Function.update s.run i (some ⟨a, s.world, program a⟩) }
  | act {s i a w o k} {x : Except ε (Res o) × W} : s.run i = some ⟨a, w, .op o k⟩ →
      T.outcome i o s.world x →
      Step s ⟨x.2, Function.update s.run i (some ⟨a, w, k x.1⟩)⟩
  | done {s i a w} (r : Except ε α) : s.run i = some ⟨a, w, .ofExcept r⟩ →
      Step s { s with run := Function.update s.run i none }
  | environment {s : Pool ι Op Res ε α A W} {w' : W} : T.environment s.world w' →
      Step s { s with world := w' }

def system (initial : W → Prop) : System (Pool ι Op Res ε α A W) where
  initial s := initial s.world ∧ ∀ i, s.run i = none
  step := Step T program

variable {T program} {ready : ι → W → Prop} {spec : A → W → α → W → Prop} {initial : W → Prop}
  {s t : Pool ι Op Res ε α A W}

/-- Each thread is ready for a call, or in the middle of one that will meet its specification. -/
def Kept (T : Reliance ι Op Res ε W) (ready : ι → W → Prop) (spec : A → W → α → W → Prop)
    (s : Pool ι Op Res ε α A W) : Prop :=
  ∀ i, match s.run i with
    | none => ready i s.world
    | some c => wpr T i c.rest (fun r w => ready i w ∧ spec c.call c.start r w)
        (fun _ w => ready i w) s.world

/-- A step of one thread that the others rely on. -/
theorem Kept.update {i : ι} {w : W} {c : Option (Underway Op Res ε α A W)} (h : Kept T ready spec s)
    (hready : ∀ {i w w'}, ready i w → T.rely i w w' → ready i w')
    (hothers : ∀ j, j ≠ i → T.rely j s.world w)
    (hself : match c with
      | none => ready i w
      | some c => wpr T i c.rest (fun r w => ready i w ∧ spec c.call c.start r w)
          (fun _ w => ready i w) w) :
    Kept T ready spec ⟨w, Function.update s.run i c⟩ := by
  intro j
  by_cases hj : j = i
  · subst hj
    simp only [Function.update_self]
    exact hself
  · have hold := h j
    simp only [Function.update_of_ne hj]
    cases hrun : s.run j with
    | none =>
      rw [hrun] at hold
      exact hready hold (hothers j hj)
    | some c =>
      rw [hrun] at hold
      exact wpr_rely hold (hothers j hj)

theorem Kept.step (hready : ∀ {i w w'}, ready i w → T.rely i w w' → ready i w')
    (hprogram : ∀ i a w, ready i w → wpr T i (program a)
      (fun r w' => ready i w' ∧ spec a w r w') (fun _ w' => ready i w') w)
    (h : Kept T ready spec s) (hs : Step T program s t) : Kept T ready spec t := by
  cases hs with
  | call a hrun =>
    rename_i i
    have hi := h i
    rw [hrun] at hi
    exact h.update hready (fun j _ => T.refl j _) (hprogram i a s.world hi)
  | act hrun hx =>
    rename_i i a w o k x
    have hi := h i
    rw [hrun] at hi
    obtain ⟨hothers, hnext⟩ := hi s.world (T.refl i _) x hx
    exact h.update hready hothers hnext
  | done r hrun =>
    rename_i i a w
    have hi := h i
    rw [hrun] at hi
    refine h.update hready (fun j _ => T.refl j _) ?_
    cases r with
    | ok r => exact (hi s.world (T.refl i _)).1
    | error e => exact hi s.world (T.refl i _)
  | environment hw =>
    intro i
    have hi := h i
    dsimp only
    cases hrun : s.run i with
    | none =>
      rw [hrun] at hi
      exact hready hi (T.environment_relied hw)
    | some c =>
      rw [hrun] at hi
      exact wpr_rely hi (T.environment_relied hw)

variable (ready spec) in
/-- A call about to return meets its specification. -/
theorem meets_spec (hready : ∀ {i w w'}, ready i w → T.rely i w w' → ready i w')
    (hinitial : ∀ i w, initial w → ready i w)
    (hprogram : ∀ i a w, ready i w → wpr T i (program a)
      (fun r w' => ready i w' ∧ spec a w r w') (fun _ w' => ready i w') w)
    (hs : (system T program initial).Reachable s) {i : ι} {a : A} {w : W} {r : α}
    (hrun : s.run i = some ⟨a, w, .pure r⟩) : spec a w r s.world := by
  have hkept : Kept T ready spec s := by
    refine System.invariant (Kept T ready spec) (fun s hs i => ?_)
      (fun _ _ h hst => h.step hready hprogram hst) hs
    rw [hs.2 i]
    exact hinitial i s.world hs.1
  have hi := hkept i
  rw [hrun] at hi
  exact (hi s.world (T.refl i _)).2

end Pool

end Effect
