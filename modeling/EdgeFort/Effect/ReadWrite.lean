/-
Calls that do their work in one section under a reader-writer lock.

A call runs a prelude, takes its thread locks and then the lock, shared or exclusive, runs
its section and gives everything back.  A process may crash between any two operations: its
threads end, its locks are free, and what they have done to the state stays.

If each section, on its own, does to an abstract object what one of its operations does,
every history of such calls is explained by a run of the object.  A shared section takes
effect when it takes the lock; an exclusive one with the operation that changes what the
state stands for, or at its end.
-/
import EdgeFort.Effect.Linearizable
import EdgeFort.Effect.Program
import EdgeFort.Effect.System
import Mathlib.Logic.Function.Basic
import Mathlib.Tactic.SplitIfs

namespace Effect

inductive Mode where
  | shared
  | exclusive
  deriving DecidableEq

/-- What a call runs.  The section gets what the prelude returns. -/
structure Method (Op : Type) (Res : Op → Type) (ε α β μ : Type) where
  prelude : Prog Op Res ε β
  mutexes : List μ
  mode : Mode
  body : β → Prog Op Res ε α

/-- Where a call is. -/
inductive CallPc (Op : Type) (Res : Op → Type) (ε α β μ : Type) where
  | prelude (p : Prog Op Res ε β)
  | locking (b : β) (rest : List μ)
  | inside (p : Prog Op Res ε α)
  | leaving (rest : List μ) (r : Except ε α)

structure Running (Op : Type) (Res : Op → Type) (ε α β μ A : Type) where
  id : Nat
  op : A
  pc : CallPc Op Res ε α β μ

structure RwState (Op : Type) (Res : Op → Type) (ε α β μ A τ π W : Type) where
  world : W
  writer : Option τ
  readers : τ → Prop
  mutex : μ → Option τ
  run : τ → Option (Running Op Res ε α β μ A)
  history : List (Event τ π A (Except ε α))

/-- The threads of some processes, and what they may call. -/
structure Clients (Op : Type) (Res : Op → Type) (ε α β μ A τ π : Type) where
  proc : τ → π
  method : A → Method Op Res ε α β μ
  may : List (Event τ π A (Except ε α)) → τ → A → Prop

namespace RwState

variable {Op : Type} {Res : Op → Type} {ε α β μ A τ π W : Type}

section Machine

variable [DecidableEq τ] [DecidableEq μ]

def goto (s : RwState Op Res ε α β μ A τ π W) (t : τ) (c : Option (Running Op Res ε α β μ A)) :
    RwState Op Res ε α β μ A τ π W :=
  { s with run := Function.update s.run t c }

def emit (s : RwState Op Res ε α β μ A τ π W) (x : Event τ π A (Except ε α)) :
    RwState Op Res ε α β μ A τ π W :=
  { s with history := s.history ++ [x] }

/-- The number of a call: the events before it. -/
def nextId (s : RwState Op Res ε α β μ A τ π W) : Nat := s.history.length

variable (S : Sem Op Res ε W) (C : Clients Op Res ε α β μ A τ π)

/-- One step of one thread, or the crash of a process. -/
inductive Step : RwState Op Res ε α β μ A τ π W → RwState Op Res ε α β μ A τ π W → Prop
  | call {s t a} : s.run t = none → .crash (C.proc t) ∉ s.history → C.may s.history t a →
      Step s ((s.goto t (some ⟨s.nextId, a, .prelude (C.method a).prelude⟩)).emit
        (.call s.nextId t a))
  | prelude {s t i a o k} {x : Except ε (Res o) × W} :
      s.run t = some ⟨i, a, .prelude (.op o k)⟩ → S.Outcome o s.world x →
      Step s { s.goto t (some ⟨i, a, .prelude (k x.1)⟩) with world := x.2 }
  | refuse {s t i a e} : s.run t = some ⟨i, a, .prelude (.throw e)⟩ →
      Step s ((s.goto t none).emit (.ret i (.error e)))
  | ready {s t i a b} : s.run t = some ⟨i, a, .prelude (.pure b)⟩ →
      Step s (s.goto t (some ⟨i, a, .locking b (C.method a).mutexes⟩))
  | lock {s t i a b m rest} : s.run t = some ⟨i, a, .locking b (m :: rest)⟩ →
      s.mutex m = none ∨ s.mutex m = some t →
      Step s { s.goto t (some ⟨i, a, .locking b rest⟩) with
        mutex := Function.update s.mutex m (some t) }
  | share {s t i a b} : s.run t = some ⟨i, a, .locking b []⟩ → (C.method a).mode = .shared →
      s.writer = none →
      Step s { s.goto t (some ⟨i, a, .inside ((C.method a).body b)⟩) with
        readers := Function.update s.readers t True }
  | exclude {s t i a b} : s.run t = some ⟨i, a, .locking b []⟩ → (C.method a).mode = .exclusive →
      s.writer = none → (∀ u, ¬s.readers u) →
      Step s { s.goto t (some ⟨i, a, .inside ((C.method a).body b)⟩) with writer := some t }
  | act {s t i a o k} {x : Except ε (Res o) × W} : s.run t = some ⟨i, a, .inside (.op o k)⟩ →
      S.Outcome o s.world x →
      Step s { s.goto t (some ⟨i, a, .inside (k x.1)⟩) with world := x.2 }
  | leave {s t i a} (r : Except ε α) : s.run t = some ⟨i, a, .inside (.ofExcept r)⟩ →
      Step s { s.goto t (some ⟨i, a, .leaving (C.method a).mutexes.reverse r⟩) with
        writer := if s.writer = some t then none else s.writer
        readers := Function.update s.readers t False }
  | unlock {s t i a m rest r} : s.run t = some ⟨i, a, .leaving (m :: rest) r⟩ →
      Step s { s.goto t (some ⟨i, a, .leaving rest r⟩) with
        mutex := Function.update s.mutex m none }
  | finish {s t i a r} : s.run t = some ⟨i, a, .leaving [] r⟩ →
      Step s ((s.goto t none).emit (.ret i r))
  | crash {s : RwState Op Res ε α β μ A τ π W} (q : π) (dead : τ → Bool)
      (hdead : ∀ t, dead t = true ↔ C.proc t = q) :
      Step s (RwState.emit { s with
        writer := if s.writer.any dead = true then none else s.writer
        readers := fun t => dead t = false ∧ s.readers t
        mutex := fun m => if (s.mutex m).any dead = true then none else s.mutex m
        run := fun t => if dead t = true then none else s.run t } (.crash q))

def system (initial : W → Prop) : System (RwState Op Res ε α β μ A τ π W) where
  initial s := initial s.world ∧ s.writer = none ∧ (∀ t, ¬s.readers t) ∧
    (∀ m, s.mutex m = none) ∧ (∀ t, s.run t = none) ∧ s.history = []
  step := Step S C

end Machine

end RwState

/-! ## The discipline of one call -/

section Discipline

variable {Op : Type} {Res : Op → Type} {ε α β μ A W V : Type}
variable (S : Sem Op Res ε W) (O : SeqObject A (Except ε α) V) (R : W → V → Prop)
  (le quiet : W → W → Prop)

/-- What happens over time, `le`, and what happens while a thread is in its section,
`quiet`. -/
structure Interference : Prop where
  refl : ∀ w, quiet w w
  quiet_trans : ∀ {a b c}, quiet a b → quiet b c → quiet a c
  le_trans : ∀ {a b c}, le a b → le b c → le a c
  quiet_le : ∀ {w w'}, quiet w w' → le w w'
  keeps : ∀ {w w' v}, quiet w w' → R w v → R w' v

/-- A section that leaves the state alone and ends with `r`. -/
def Reads (r : Except ε α) : Prog Op Res ε α → W → Prop
  | .pure a, _ => r = .ok a
  | .throw e, _ => r = .error e
  | .op o k, w => ∀ w', quiet w w' → ∀ x, S.Outcome o w' x →
      quiet w' x.2 ∧ Reads r (k x.1) x.2

/-- A section that has taken effect and ends with `r`. -/
def Wrote (r : Except ε α) (v : V) : Prog Op Res ε α → W → Prop
  | .pure a, _ => r = .ok a
  | .throw e, _ => r = .error e
  | .op o k, w => ∀ w', quiet w w' → R w' v → ∀ x, S.Outcome o w' x →
      le w' x.2 ∧ R x.2 v ∧ Wrote r v (k x.1) x.2

/-- A section that does operation `a` in state `v`.  It takes effect with one of its
operations or at its end. -/
def Writes (a : A) (v : V) : Prog Op Res ε α → W → Prop
  | .pure b, _ => O.step v a = (.ok b, v)
  | .throw e, _ => O.step v a = (.error e, v)
  | .op o k, w => ∀ w', quiet w w' → R w' v → ∀ x, S.Outcome o w' x → le w' x.2 ∧
      (R x.2 v ∧ Writes a v (k x.1) x.2 ∨
        R x.2 (O.step v a).2 ∧ Wrote S R le quiet (O.step v a).1 (O.step v a).2 (k x.1) x.2)

/-- What a call needs when it has its lock. -/
def Enters (m : Method Op Res ε α β μ) (a : A) (b : β) (v : V) (w : W) : Prop :=
  match m.mode with
  | .shared => (O.step v a).2 = v ∧ Reads S quiet (O.step v a).1 (m.body b) w
  | .exclusive => Writes S O R le quiet a v (m.body b) w

/-- A prelude that can be followed by the section at any time, or that refuses what the
object refuses. -/
def Before (m : Method Op Res ε α β μ) (a : A) : Prog Op Res ε β → W → Prop
  | .pure b, w => ∀ w', le w w' → ∀ v, R w' v → Enters S O R le quiet m a b v w'
  | .throw e, w => ∀ w', le w w' → ∀ v, R w' v → O.step v a = (.error e, v)
  | .op o k, w => ∀ w', le w w' → ∀ v, R w' v → ∀ x, S.Outcome o w' x →
      quiet w' x.2 ∧ Before m a (k x.1) x.2

variable {S O R le quiet} {w w' : W} {v : V} {r : Except ε α} {a : A} {p : Prog Op Res ε α}
  {m : Method Op Res ε α β μ}

theorem Reads.stable (hI : Interference R le quiet) (h : Reads S quiet r p w)
    (hw : quiet w w') : Reads S quiet r p w' := by
  cases p with
  | pure b => exact h
  | throw e => exact h
  | op o k => exact fun w'' hw'' => h w'' (hI.quiet_trans hw hw'')

theorem Wrote.stable (hI : Interference R le quiet) (h : Wrote S R le quiet r v p w)
    (hw : quiet w w') : Wrote S R le quiet r v p w' := by
  cases p with
  | pure b => exact h
  | throw e => exact h
  | op o k => exact fun w'' hw'' => h w'' (hI.quiet_trans hw hw'')

theorem Writes.stable (hI : Interference R le quiet) (h : Writes S O R le quiet a v p w)
    (hw : quiet w w') : Writes S O R le quiet a v p w' := by
  cases p with
  | pure b => exact h
  | throw e => exact h
  | op o k => exact fun w'' hw'' => h w'' (hI.quiet_trans hw hw'')

theorem Before.stable (hI : Interference R le quiet) {q : Prog Op Res ε β}
    (h : Before S O R le quiet m a q w) (hw : le w w') : Before S O R le quiet m a q w' := by
  cases q with
  | pure b => exact fun w'' hw'' => h w'' (hI.le_trans hw hw'')
  | throw e => exact fun w'' hw'' => h w'' (hI.le_trans hw hw'')
  | op o k => exact fun w'' hw'' => h w'' (hI.le_trans hw hw'')

/-- A finished section has done its operation, which changed nothing. -/
theorem Writes.finished (h : Writes S O R le quiet a v (.ofExcept r) w) : O.step v a = (r, v) := by
  cases r <;> exact h

theorem Wrote.finished {r' : Except ε α} (h : Wrote S R le quiet r v (.ofExcept r') w) :
    r = r' := by
  cases r' <;> exact h

theorem Reads.finished {r' : Except ε α} (h : Reads S quiet r (.ofExcept r') w) : r = r' := by
  cases r' <;> exact h

/-! ### Sections in parts -/

theorem Reads.ofExcept (r : Except ε α) (w : W) : Reads S quiet r (.ofExcept r) w := by
  cases r <;> rfl

variable {γ : Type} {q : Prog Op Res ε γ} {f : γ → Prog Op Res ε α} {c : γ}

/-- A section that reads first, and then goes on or raises.  `P` may be any discipline that lets
operations pass which leave the state alone. -/
theorem Reads.bind_of (hI : Interference R le quiet) {P : Prog Op Res ε α → W → Prop}
    (hop : ∀ o k w, (∀ w', quiet w w' → ∀ x, S.Outcome o w' x → quiet w' x.2 ∧ P (k x.1) x.2) →
      P (.op o k) w)
    {answer : Except ε γ} (hq : Reads S quiet answer q w)
    (hok : ∀ c, answer = .ok c → ∀ w', quiet w w' → P (f c) w')
    (herror : ∀ e, answer = .error e → ∀ w', quiet w w' → P (.throw e) w') : P (q >>= f) w := by
  induction q generalizing w with
  | pure c => exact hok c hq w (hI.refl w)
  | throw e => exact herror e hq w (hI.refl w)
  | op o k ih =>
    refine hop o _ w fun w' hw' x hx => ?_
    obtain ⟨hquiet, hnext⟩ := hq w' hw' x hx
    have hpast : ∀ w'', quiet x.2 w'' → quiet w w'' := fun w'' hw'' =>
      hI.quiet_trans hw' (hI.quiet_trans hquiet hw'')
    exact ⟨hquiet, ih x.1 hnext (fun c hc w'' hw'' => hok c hc w'' (hpast w'' hw''))
      fun e he w'' hw'' => herror e he w'' (hpast w'' hw'')⟩

theorem Reads.bind (hI : Interference R le quiet) (hq : Reads S quiet (.ok c) q w)
    (hf : ∀ w', quiet w w' → Reads S quiet r (f c) w') : Reads S quiet r (q >>= f) w :=
  Reads.bind_of hI (fun _ _ _ h => h) hq (fun _ hc => Except.ok.inj hc ▸ hf) nofun

theorem Writes.op (hI : Interference R le quiet) {o : Op} {k : Except ε (Res o) → Prog Op Res ε α}
    (h : ∀ w', quiet w w' → ∀ x, S.Outcome o w' x →
      quiet w' x.2 ∧ Writes S O R le quiet a v (k x.1) x.2) :
    Writes S O R le quiet a v (.op o k) w := by
  intro w' hw' hR x hx
  obtain ⟨hquiet, hnext⟩ := h w' hw' x hx
  exact ⟨hI.quiet_le hquiet, Or.inl ⟨hI.keeps hquiet hR, hnext⟩⟩

/-- A writer reads first. -/
theorem Writes.bind (hI : Interference R le quiet) (hq : Reads S quiet (.ok c) q w)
    (hf : ∀ w', quiet w w' → Writes S O R le quiet a v (f c) w') :
    Writes S O R le quiet a v (q >>= f) w :=
  Reads.bind_of hI (fun _ _ _ => Writes.op hI) hq (fun _ hc => Except.ok.inj hc ▸ hf) nofun

/-- A writer that raises after it has read. -/
theorem Writes.bind_error (hI : Interference R le quiet) {e : ε}
    (hq : Reads S quiet (.error e) q w) (hstep : O.step v a = (.error e, v)) :
    Writes S O R le quiet a v (q >>= f) w :=
  Reads.bind_of hI (fun _ _ _ => Writes.op hI) hq nofun fun _ he _ _ => Except.error.inj he ▸ hstep

/-- A writer reads after it has taken effect. -/
theorem Wrote.bind (hI : Interference R le quiet) (hq : Reads S quiet (.ok c) q w)
    (hf : ∀ w', quiet w w' → Wrote S R le quiet r v (f c) w') :
    Wrote S R le quiet r v (q >>= f) w := by
  refine Reads.bind_of hI (fun o k w h => ?_) hq (fun _ hc => Except.ok.inj hc ▸ hf) nofun
  intro w' hw' hR x hx
  obtain ⟨hquiet, hnext⟩ := h w' hw' x hx
  exact ⟨hI.quiet_le hquiet, hI.keeps hquiet hR, hnext⟩

end Discipline

/-! ## Runs -/

namespace RwState

variable {Op : Type} {Res : Op → Type} {ε α β μ A τ π W V : Type}
variable {S : Sem Op Res ε W} {C : Clients Op Res ε α β μ A τ π} {O : SeqObject A (Except ε α) V}
  {R : W → V → Prop} {le quiet : W → W → Prop}

/-- The call has not taken effect. -/
def Fresh (lin : List (Effected A (Except ε α))) (i : Nat) : Prop := ∀ e ∈ lin, e.id ≠ i

variable (S C O R le quiet) in
/-- What holds of a call, given the world, whether it holds the lock for writing or for
reading, what has taken effect and the state of the object. -/
def PcOk (w : W) (writes reads : Prop) (lin : List (Effected A (Except ε α))) (v : V)
    (c : Running Op Res ε α β μ A) : Prop :=
  match c.pc with
  | .prelude p => Before S O R le quiet (C.method c.op) c.op p w ∧ Fresh lin c.id
  | .locking b _ => Before S O R le quiet (C.method c.op) c.op (.pure b) w ∧ Fresh lin c.id
  | .inside p =>
    match (C.method c.op).mode with
    | .shared => reads ∧ ∃ r, ⟨c.id, c.op, r⟩ ∈ lin ∧ Reads S quiet r p w
    | .exclusive => writes ∧ (Fresh lin c.id ∧ Writes S O R le quiet c.op v p w ∨
        ∃ r, ⟨c.id, c.op, r⟩ ∈ lin ∧ Wrote S R le quiet r v p w)
  | .leaving _ r => ⟨c.id, c.op, r⟩ ∈ lin

/-- What other threads do leaves a call as it is. -/
theorem PcOk.mono (hI : Interference R le quiet) {w w' : W} {writes writes' reads reads' : Prop}
    {lin lin' : List (Effected A (Except ε α))} {v v' : V} {c : Running Op Res ε α β μ A}
    (h : PcOk S C O R le quiet w writes reads lin v c) (hle : le w w')
    (hreads : reads → reads' ∧ quiet w w') (hwrites : writes → writes' ∧ quiet w w' ∧ v = v')
    (hlin : lin ⊆ lin') (hfresh : Fresh lin c.id → Fresh lin' c.id) :
    PcOk S C O R le quiet w' writes' reads' lin' v' c := by
  obtain ⟨i, a, pc⟩ := c
  cases pc with
  | prelude p => exact ⟨h.1.stable hI hle, hfresh h.2⟩
  | locking b rest => exact ⟨h.1.stable hI hle, hfresh h.2⟩
  | leaving rest r => exact hlin h
  | inside p =>
    simp only [PcOk] at h ⊢
    cases hmode : (C.method a).mode with
    | shared =>
      simp only [hmode] at h ⊢
      obtain ⟨hr, r, hmem, hp⟩ := h
      exact ⟨(hreads hr).1, r, hlin hmem, hp.stable hI (hreads hr).2⟩
    | exclusive =>
      simp only [hmode] at h ⊢
      obtain ⟨hw, hp⟩ := h
      obtain ⟨hw', hquiet, rfl⟩ := hwrites hw
      refine ⟨hw', ?_⟩
      rcases hp with ⟨hnew, hp⟩ | ⟨r, hmem, hp⟩
      · exact Or.inl ⟨hfresh hnew, hp.stable hI hquiet⟩
      · exact Or.inr ⟨r, hlin hmem, hp.stable hI hquiet⟩

variable (S C O R le quiet) in
/-- `lin` explains the run so far, and takes the object to what the world stands for. -/
structure Inv (v₀ : V) (s : RwState Op Res ε α β μ A τ π W) (lin : List (Effected A (Except ε α)))
    (v : V) : Prop where
  replays : O.Replays v₀ lin v
  linearizes : Linearizes s.history lin
  stands : R s.world v
  called : ∀ t c, s.run t = some c → s.history[c.id]? = some (.call c.id t c.op)
  numbered : ∀ i t a, .call i t a ∈ s.history → s.history[i]? = some (.call i t a)
  pcs : ∀ t c, s.run t = some c →
    PcOk S C O R le quiet s.world (s.writer = some t) (s.readers t) lin v c
  writer_inside : ∀ t, s.writer = some t → ∃ i a p, s.run t = some ⟨i, a, .inside p⟩ ∧
    (C.method a).mode = .exclusive
  readers_inside : ∀ t, s.readers t → ∃ i a p, s.run t = some ⟨i, a, .inside p⟩ ∧
    (C.method a).mode = .shared
  excludes : ∀ t u, s.writer = some t → ¬s.readers u

namespace Inv

variable {v₀ v : V} {s : RwState Op Res ε α β μ A τ π W} {lin : List (Effected A (Except ε α))}

/-- Two calls with one number are one. -/
theorem id_inj (h : Inv S C O R le quiet v₀ s lin v) {t u : τ} {c c' : Running Op Res ε α β μ A}
    (hc : s.run t = some c) (hc' : s.run u = some c') (hid : c.id = c'.id) : t = u := by
  have hcall := h.called t c hc
  rw [hid, h.called u c' hc', Option.some.injEq, Event.call.injEq] at hcall
  exact hcall.2.1.symm

theorem mem_call (h : Inv S C O R le quiet v₀ s lin v) {t : τ} {c : Running Op Res ε α β μ A}
    (hc : s.run t = some c) : .call c.id t c.op ∈ s.history :=
  List.mem_of_getElem? (h.called t c hc)

/-- The number of a call is the number of events before it. -/
theorem number_lt (h : Inv S C O R le quiet v₀ s lin v) {i : Nat} {t : τ} {a : A}
    (hcall : .call i t a ∈ s.history) : i < s.history.length :=
  (List.getElem?_eq_some_iff.mp (h.numbered i t a hcall)).1

/-- A number is that of one call. -/
theorem call_inj (h : Inv S C O R le quiet v₀ s lin v) {i : Nat} {t u : τ} {a b : A}
    (hcall : .call i t a ∈ s.history) (hcall' : .call i u b ∈ s.history) : t = u ∧ a = b := by
  have heq := (h.numbered i t a hcall).symm.trans (h.numbered i u b hcall')
  rw [Option.some.injEq, Event.call.injEq] at heq
  exact heq.2

/-- When a call takes effect, the others have not. -/
theorem fresh_snoc (h : Inv S C O R le quiet v₀ s lin v) {t u : τ}
    {c c' : Running Op Res ε α β μ A} (hc : s.run t = some c) (hc' : s.run u = some c')
    (hne : u ≠ t) {r : Except ε α} (hfresh : Fresh lin c'.id) :
    Fresh (lin ++ [⟨c.id, c.op, r⟩]) c'.id := by
  intro e he
  rcases List.mem_append.mp he with he | he
  · exact hfresh e he
  · rw [List.mem_singleton.mp he]
    exact fun hid => hne (h.id_inj hc hc' hid).symm

/-- A call takes effect. -/
theorem effect (h : Inv S C O R le quiet v₀ s lin v) {t : τ} {c : Running Op Res ε α β μ A}
    (hrun : s.run t = some c) (hfresh : Fresh lin c.id) {r : Except ε α} {v' : V}
    (hstep : O.step v c.op = (r, v')) :
    O.Replays v₀ (lin ++ [⟨c.id, c.op, r⟩]) v' ∧
      Linearizes s.history (lin ++ [⟨c.id, c.op, r⟩]) ∧
        ∀ u c', u ≠ t → s.run u = some c' → Fresh lin c'.id →
          Fresh (lin ++ [⟨c.id, c.op, r⟩]) c'.id := by
  refine ⟨?_, h.linearizes.effect (h.mem_call hrun) hfresh,
    fun u c' hu hc' hfresh' => h.fresh_snoc hrun hc' hu hfresh'⟩
  have hsnoc := h.replays.snoc c.id c.op
  rwa [hstep] at hsnoc

/-- One thread moves; the others have their locks and calls as before. -/
theorem update (hI : Interference R le quiet) (h : Inv S C O R le quiet v₀ s lin v) {t : τ}
    {s' : RwState Op Res ε α β μ A τ π W} {lin' : List (Effected A (Except ε α))} {v' : V}
    (hhistory : s'.history = s.history) (hrun : ∀ u, u ≠ t → s'.run u = s.run u)
    (hwriter : ∀ u, u ≠ t → (s'.writer = some u ↔ s.writer = some u))
    (hreaders : ∀ u, u ≠ t → (s'.readers u ↔ s.readers u))
    (hexcludes : ∀ u u', s'.writer = some u → ¬s'.readers u') (hle : le s.world s'.world)
    (hquiet : ∀ u, u ≠ t → s.readers u ∨ s.writer = some u →
      quiet s.world s'.world ∧ v = v')
    (hreplays : O.Replays v₀ lin' v') (hlinearizes : Linearizes s.history lin')
    (hstands : R s'.world v') (hlin : lin ⊆ lin')
    (hfresh : ∀ u c, u ≠ t → s.run u = some c → Fresh lin c.id → Fresh lin' c.id)
    (hcall : ∀ c, s'.run t = some c → s.history[c.id]? = some (.call c.id t c.op) ∧
      PcOk S C O R le quiet s'.world (s'.writer = some t) (s'.readers t) lin' v' c)
    (hwrites : s'.writer = some t → ∃ i a p, s'.run t = some ⟨i, a, .inside p⟩ ∧
      (C.method a).mode = .exclusive)
    (hreads : s'.readers t → ∃ i a p, s'.run t = some ⟨i, a, .inside p⟩ ∧
      (C.method a).mode = .shared) :
    Inv S C O R le quiet v₀ s' lin' v' where
  replays := hreplays
  linearizes := hhistory ▸ hlinearizes
  stands := hstands
  called u c hc := by
    rw [hhistory]
    by_cases hu : u = t
    · subst hu
      exact (hcall c hc).1
    · exact h.called u c (hrun u hu ▸ hc)
  numbered := hhistory ▸ h.numbered
  pcs u c hc := by
    by_cases hu : u = t
    · subst hu
      exact (hcall c hc).2
    · rw [hrun u hu] at hc
      refine (h.pcs u c hc).mono hI hle (fun hr => ?_) (fun hw => ?_) hlin (hfresh u c hu hc)
      · exact ⟨(hreaders u hu).mpr hr, (hquiet u hu (Or.inl hr)).1⟩
      · exact ⟨(hwriter u hu).mpr hw, hquiet u hu (Or.inr hw)⟩
  writer_inside u hw := by
    by_cases hu : u = t
    · subst hu
      exact hwrites hw
    · rw [hrun u hu]
      exact h.writer_inside u ((hwriter u hu).mp hw)
  readers_inside u hr := by
    by_cases hu : u = t
    · subst hu
      exact hreads hr
    · rw [hrun u hu]
      exact h.readers_inside u ((hreaders u hu).mp hr)
  excludes := hexcludes

/-- An event that is no call of an old number and no answer of a call that has not taken
effect. -/
theorem emit (h : Inv S C O R le quiet v₀ s lin v) {x : Event τ π A (Except ε α)}
    (hcall : ∀ i t a, x = .call i t a → i = s.nextId)
    (hret : ∀ i r, x = .ret i r → ∃ a, ⟨i, a, r⟩ ∈ lin) :
    Inv S C O R le quiet v₀ (s.emit x) lin v where
  replays := h.replays
  linearizes := by
    refine h.linearizes.snoc (fun i t a hx e he hid => ?_) hret
    obtain ⟨u, hu⟩ := h.linearizes.called e he
    have hlt := h.number_lt hu
    rw [hid, hcall i t a hx] at hlt
    exact lt_irrefl _ hlt
  stands := h.stands
  called t c hc := List.getElem?_append_left
    (List.getElem?_eq_some_iff.mp (h.called t c hc)).1 ▸ h.called t c hc
  numbered i t a hmem := by
    rcases List.mem_append.mp hmem with hmem | hmem
    · exact List.getElem?_append_left (h.number_lt hmem) ▸ h.numbered i t a hmem
    · obtain rfl := List.mem_singleton.mp hmem
      rw [hcall i t a rfl]
      exact List.getElem?_concat_length
  pcs := h.pcs
  writer_inside := h.writer_inside
  readers_inside := h.readers_inside
  excludes := h.excludes

/-- A thread outside its section holds no lock. -/
theorem idle (h : Inv S C O R le quiet v₀ s lin v) {t : τ}
    (hout : ∀ i a p, s.run t ≠ some ⟨i, a, .inside p⟩) : s.writer ≠ some t ∧ ¬s.readers t := by
  constructor
  · intro hw
    obtain ⟨i, a, p, hrun, -⟩ := h.writer_inside t hw
    exact hout i a p hrun
  · intro hr
    obtain ⟨i, a, p, hrun, -⟩ := h.readers_inside t hr
    exact hout i a p hrun

/-- A thread moves outside its section. -/
theorem outside (hI : Interference R le quiet) (h : Inv S C O R le quiet v₀ s lin v) {t : τ}
    {s' : RwState Op Res ε α β μ A τ π W} {lin' : List (Effected A (Except ε α))}
    (hout : ∀ i a p, s.run t ≠ some ⟨i, a, .inside p⟩)
    (hhistory : s'.history = s.history) (hrun : ∀ u, u ≠ t → s'.run u = s.run u)
    (hwriter : s'.writer = s.writer) (hreaders : s'.readers = s.readers)
    (hquiet : quiet s.world s'.world) (hreplays : O.Replays v₀ lin' v)
    (hlinearizes : Linearizes s.history lin') (hlin : lin ⊆ lin')
    (hfresh : ∀ u c, u ≠ t → s.run u = some c → Fresh lin c.id → Fresh lin' c.id)
    (hcall : ∀ c, s'.run t = some c → s.history[c.id]? = some (.call c.id t c.op) ∧
      PcOk S C O R le quiet s'.world False False lin' v c) :
    Inv S C O R le quiet v₀ s' lin' v := by
  obtain ⟨hnowrite, hnoread⟩ := h.idle hout
  refine h.update hI hhistory hrun (fun _ _ => by rw [hwriter]) (fun _ _ => by rw [hreaders])
    (by rw [hwriter, hreaders]; exact h.excludes) (hI.quiet_le hquiet) (fun _ _ _ => ⟨hquiet, rfl⟩)
    hreplays hlinearizes (hI.keeps hquiet h.stands) hlin hfresh (fun c hc => ?_)
    (fun hw => absurd (hwriter ▸ hw) hnowrite) (fun hr => absurd (hreaders ▸ hr) hnoread)
  obtain ⟨hmem, hpc⟩ := hcall c hc
  exact ⟨hmem, hpc.mono hI (hI.quiet_le (hI.refl _)) False.elim False.elim (List.Subset.refl _) id⟩

/-- Threads end; the locks they held are free. -/
theorem crash (hI : Interference R le quiet) (h : Inv S C O R le quiet v₀ s lin v)
    (dead : τ → Bool) : Inv S C O R le quiet v₀ { s with
      writer := if s.writer.any dead = true then none else s.writer
      readers := fun t => dead t = false ∧ s.readers t
      mutex := fun m => if (s.mutex m).any dead = true then none else s.mutex m
      run := fun t => if dead t = true then none else s.run t } lin v := by
  have halive : ∀ {t c}, (if dead t = true then none else s.run t) = some c →
      dead t = false ∧ s.run t = some c := by
    intro t c hc
    split_ifs at hc with ht
    exact ⟨Bool.eq_false_iff.mpr ht, hc⟩
  have hrun : ∀ {t}, dead t = false → (if dead t = true then none else s.run t) = s.run t :=
    fun ht => if_neg (by rw [ht]; exact Bool.false_ne_true)
  have hwriter : ∀ {t}, (if s.writer.any dead = true then none else s.writer) = some t ↔
      dead t = false ∧ s.writer = some t := by
    intro t
    split_ifs with hany
    · constructor
      · nofun
      · rintro ⟨ht, hw⟩
        rw [hw] at hany
        exact absurd (ht.symm.trans hany) Bool.false_ne_true
    · refine ⟨fun hw => ⟨?_, hw⟩, And.right⟩
      rw [hw] at hany
      exact Bool.eq_false_iff.mpr hany
  refine ⟨h.replays, h.linearizes, h.stands, fun t c hc => h.called t c (halive hc).2, h.numbered,
    fun t c hc => ?_, fun t hw => ?_, fun t hr => ?_, fun t u hw hr => ?_⟩
  · obtain ⟨ht, hc⟩ := halive hc
    exact (h.pcs t c hc).mono hI (hI.quiet_le (hI.refl _)) (fun hr => ⟨⟨ht, hr⟩, hI.refl _⟩)
      (fun hw => ⟨hwriter.mpr ⟨ht, hw⟩, hI.refl _, rfl⟩) (List.Subset.refl _) id
  · obtain ⟨ht, hw⟩ := hwriter.mp hw
    simp only [hrun ht]
    exact h.writer_inside t hw
  · simp only [hrun hr.1]
    exact h.readers_inside t hr.2
  · exact h.excludes t u (hwriter.mp hw).2 hr.2

/-- A thread that is outside is nowhere inside. -/
theorem not_inside {t : τ} {i : Nat} {a : A} {pc : CallPc Op Res ε α β μ}
    (hrun : s.run t = some ⟨i, a, pc⟩) (hpc : ∀ p, pc ≠ .inside p) :
    ∀ j b p, s.run t ≠ some ⟨j, b, .inside p⟩ := by
  intro j b p hp
  rw [hrun] at hp
  cases hp
  exact hpc p rfl

variable [DecidableEq τ]

/-- A thread that moves outside its section, and takes no effect. -/
theorem goto (hI : Interference R le quiet) (h : Inv S C O R le quiet v₀ s lin v) {t : τ}
    {i : Nat} {a : A} {pc pc' : CallPc Op Res ε α β μ} (hrun : s.run t = some ⟨i, a, pc⟩)
    (hout : ∀ p, pc ≠ .inside p) {s' : RwState Op Res ε α β μ A τ π W}
    (hs' : s'.history = s.history ∧ s'.writer = s.writer ∧ s'.readers = s.readers ∧
      s'.run = Function.update s.run t (some ⟨i, a, pc'⟩)) (hquiet : quiet s.world s'.world)
    (hpc : PcOk S C O R le quiet s'.world False False lin v ⟨i, a, pc'⟩) :
    Inv S C O R le quiet v₀ s' lin v := by
  obtain ⟨hhistory, hwriter, hreaders, hrun'⟩ := hs'
  refine h.outside hI (t := t) (fun j b p hp => ?_) hhistory (fun u hu => ?_) hwriter hreaders
    hquiet h.replays h.linearizes (List.Subset.refl _) (fun _ _ _ _ => id) (fun c hc => ?_)
  · rw [hrun] at hp
    cases hp
    exact hout p rfl
  · rw [hrun', Function.update_of_ne hu]
  · rw [hrun', Function.update_self] at hc
    cases hc
    exact ⟨h.called t ⟨i, a, pc⟩ hrun, hpc⟩

/-- A call ends, or a thread that runs nothing starts none. -/
theorem stop (hI : Interference R le quiet) (h : Inv S C O R le quiet v₀ s lin v) {t : τ}
    (hout : ∀ i a p, s.run t ≠ some ⟨i, a, .inside p⟩)
    {lin' : List (Effected A (Except ε α))} (hreplays : O.Replays v₀ lin' v)
    (hlinearizes : Linearizes s.history lin') (hlin : lin ⊆ lin')
    (hfresh : ∀ u c, u ≠ t → s.run u = some c → Fresh lin c.id → Fresh lin' c.id) :
    Inv S C O R le quiet v₀ (s.goto t none) lin' v := by
  refine h.outside hI (t := t) hout rfl (fun u hu => Function.update_of_ne hu _ _) rfl rfl
    (hI.refl _) hreplays hlinearizes hlin hfresh (fun c hc => ?_)
  have hnone : (s.goto t none).run t = none := Function.update_self _ _ _
  rw [hnone] at hc
  cases hc

/-- A thread moves in its section, or out of it. -/
theorem inside (hI : Interference R le quiet) (h : Inv S C O R le quiet v₀ s lin v) {t : τ}
    {i : Nat} {a : A} {p : Prog Op Res ε α} {pc : CallPc Op Res ε α β μ}
    (hrun : s.run t = some ⟨i, a, .inside p⟩) {s' : RwState Op Res ε α β μ A τ π W}
    {lin' : List (Effected A (Except ε α))} {v' : V} (hhistory : s'.history = s.history)
    (hrun' : s'.run = Function.update s.run t (some ⟨i, a, pc⟩))
    (hlocks : s'.writer = s.writer ∧ s'.readers = s.readers ∧ (∃ p', pc = .inside p') ∨
      s'.writer = (if s.writer = some t then none else s.writer) ∧
        s'.readers = Function.update s.readers t False)
    (hworld : (C.method a).mode = .shared ∧ quiet s.world s'.world ∧ v = v' ∨
      s.writer = some t ∧ le s.world s'.world)
    (hreplays : O.Replays v₀ lin' v') (hlinearizes : Linearizes s.history lin')
    (hstands : R s'.world v') (hlin : lin ⊆ lin')
    (hfresh : ∀ u c, u ≠ t → s.run u = some c → Fresh lin c.id → Fresh lin' c.id)
    (hpc : PcOk S C O R le quiet s'.world (s'.writer = some t) (s'.readers t) lin' v'
      ⟨i, a, pc⟩) :
    Inv S C O R le quiet v₀ s' lin' v' := by
  have hself : ∀ c, s'.run t = some c → c = ⟨i, a, pc⟩ := by
    intro c hc
    rw [hrun', Function.update_self] at hc
    exact (Option.some.inj hc).symm
  have hmode : ∀ j b q, s.run t = some ⟨j, b, .inside q⟩ → b = a := by
    intro j b q hq
    rw [hrun] at hq
    cases hq
    rfl
  refine h.update hI (t := t) hhistory (fun u hu => by rw [hrun', Function.update_of_ne hu])
    (fun u hu => ?_) (fun u hu => ?_) (fun u u' hw hr => ?_) ?_ (fun u hu hlock => ?_) hreplays
    hlinearizes hstands hlin hfresh (fun c hc => ?_) (fun hw => ?_) (fun hr => ?_)
  · rcases hlocks with ⟨hw, -, -⟩ | ⟨hw, -⟩
    · rw [hw]
    · rw [hw]
      split_ifs with ht
      · rw [ht]
        exact ⟨nofun, fun heq => absurd (Option.some.inj heq).symm hu⟩
      · rfl
  · rcases hlocks with ⟨-, hr, -⟩ | ⟨-, hr⟩
    · rw [hr]
    · rw [hr, Function.update_of_ne hu]
  · rcases hlocks with ⟨hw', hr', -⟩ | ⟨hw', hr'⟩
    · exact h.excludes u u' (hw' ▸ hw) (hr' ▸ hr)
    · rw [hw'] at hw
      rw [hr'] at hr
      split_ifs at hw with ht
      by_cases hu' : u' = t
      · subst hu'
        rw [Function.update_self] at hr
        exact hr
      · rw [Function.update_of_ne hu'] at hr
        exact h.excludes u u' hw hr
  · rcases hworld with ⟨-, hquiet, -⟩ | ⟨-, hle⟩
    · exact hI.quiet_le hquiet
    · exact hle
  · rcases hworld with ⟨-, hquiet, hv⟩ | ⟨ht, -⟩
    · exact ⟨hquiet, hv⟩
    · rcases hlock with hr | hw
      · exact absurd hr (h.excludes t u ht)
      · exact absurd (Option.some.inj (hw.symm.trans ht)) hu
  · rw [hself c hc]
    exact ⟨h.called t ⟨i, a, .inside p⟩ hrun, hpc⟩
  · rcases hlocks with ⟨hw', -, p', rfl⟩ | ⟨hw', -⟩
    · obtain ⟨j, b, q, hq, hexclusive⟩ := h.writer_inside t (hw' ▸ hw)
      rw [hmode j b q hq] at hexclusive
      exact ⟨i, a, p', by rw [hrun', Function.update_self], hexclusive⟩
    · rw [hw'] at hw
      split_ifs at hw with ht
      exact absurd hw ht
  · rcases hlocks with ⟨-, hr', p', rfl⟩ | ⟨-, hr'⟩
    · obtain ⟨j, b, q, hq, hshared⟩ := h.readers_inside t (hr' ▸ hr)
      rw [hmode j b q hq] at hshared
      exact ⟨i, a, p', by rw [hrun', Function.update_self], hshared⟩
    · rw [hr', Function.update_self] at hr
      exact hr.elim

/-- A thread takes the lock. -/
theorem enter (hI : Interference R le quiet) (h : Inv S C O R le quiet v₀ s lin v) {t : τ}
    {i : Nat} {a : A} {b : β} {p : Prog Op Res ε α}
    (hrun : s.run t = some ⟨i, a, .locking b []⟩)
    {s' : RwState Op Res ε α β μ A τ π W} {lin' : List (Effected A (Except ε α))}
    (hhistory : s'.history = s.history) (hworld : s'.world = s.world)
    (hrun' : s'.run = Function.update s.run t (some ⟨i, a, .inside p⟩))
    (hwriter : s.writer = none)
    (hlocks : (C.method a).mode = .shared ∧ s'.writer = s.writer ∧
        s'.readers = Function.update s.readers t True ∨
      (C.method a).mode = .exclusive ∧ (∀ u, ¬s.readers u) ∧ s'.writer = some t ∧
        s'.readers = s.readers)
    (hreplays : O.Replays v₀ lin' v) (hlinearizes : Linearizes s.history lin')
    (hlin : lin ⊆ lin')
    (hfresh : ∀ u c, u ≠ t → s.run u = some c → Fresh lin c.id → Fresh lin' c.id)
    (hpc : PcOk S C O R le quiet s.world (s'.writer = some t) (s'.readers t) lin' v
      ⟨i, a, .inside p⟩) :
    Inv S C O R le quiet v₀ s' lin' v := by
  have hself : s'.run t = some ⟨i, a, .inside p⟩ := by rw [hrun', Function.update_self]
  refine h.update hI (t := t) hhistory (fun u hu => by rw [hrun', Function.update_of_ne hu])
    (fun u hu => ?_) (fun u hu => ?_) (fun u u' hw hr => ?_)
    (by rw [hworld]; exact hI.quiet_le (hI.refl _))
    (fun _ _ _ => ⟨by rw [hworld]; exact hI.refl _, rfl⟩) hreplays
    hlinearizes (hworld ▸ h.stands) hlin hfresh (fun c hc => ?_) (fun hw => ?_) (fun hr => ?_)
  · rcases hlocks with ⟨-, hw, -⟩ | ⟨-, -, hw, -⟩
    · rw [hw]
    · rw [hw, hwriter]
      exact ⟨fun heq => absurd (Option.some.inj heq).symm hu, nofun⟩
  · rcases hlocks with ⟨-, -, hr⟩ | ⟨-, -, -, hr⟩
    · rw [hr, Function.update_of_ne hu]
    · rw [hr]
  · rcases hlocks with ⟨-, hw', -⟩ | ⟨-, hnone, -, hr'⟩
    · rw [hw', hwriter] at hw
      cases hw
    · exact hnone u' (hr' ▸ hr)
  · rw [hself] at hc
    cases hc
    rw [hworld]
    exact ⟨h.called t ⟨i, a, .locking b []⟩ hrun, hpc⟩
  · rcases hlocks with ⟨-, hw', -⟩ | ⟨hexclusive, -⟩
    · rw [hw', hwriter] at hw
      cases hw
    · exact ⟨i, a, p, hself, hexclusive⟩
  · rcases hlocks with ⟨hshared, -⟩ | ⟨-, hnone, -, hr'⟩
    · exact ⟨i, a, p, hself, hshared⟩
    · exact absurd (hr' ▸ hr) (hnone t)

/-- A thread starts a call. -/
theorem start (hI : Interference R le quiet) (h : Inv S C O R le quiet v₀ s lin v) {t : τ} {a : A}
    (hnone : s.run t = none)
    (hbefore : Before S O R le quiet (C.method a) a (C.method a).prelude s.world) :
    Inv S C O R le quiet v₀ ((s.goto t (some ⟨s.nextId, a, .prelude (C.method a).prelude⟩)).emit
      (.call s.nextId t a)) lin v := by
  have hfresh : Fresh lin s.nextId := by
    intro e he hid
    obtain ⟨u, hu⟩ := h.linearizes.called e he
    exact absurd (hid ▸ h.number_lt hu) (lt_irrefl _)
  have hemit : Inv S C O R le quiet v₀ (s.emit (.call s.nextId t a)) lin v :=
    h.emit (fun i u b heq => by cases heq; rfl) nofun
  refine hemit.outside hI (t := t) (fun i b p hp => ?_) rfl
    (fun u hu => Function.update_of_ne hu _ _) rfl rfl (hI.refl _) hemit.replays hemit.linearizes
    (List.Subset.refl _) (fun _ _ _ _ => id) (fun c hc => ?_)
  · rw [show (s.emit (.call s.nextId t a)).run t = none from hnone] at hp
    cases hp
  · have hself : Function.update s.run t (some ⟨s.nextId, a, .prelude (C.method a).prelude⟩) t =
        some c := hc
    rw [Function.update_self] at hself
    cases hself
    exact ⟨List.getElem?_concat_length, hbefore, hfresh⟩

/-- An operation of a section. -/
theorem act (hI : Interference R le quiet) (h : Inv S C O R le quiet v₀ s lin v) {t : τ} {i : Nat}
    {a : A} {o : Op} {k : Except ε (Res o) → Prog Op Res ε α} {x : Except ε (Res o) × W}
    (hrun : s.run t = some ⟨i, a, .inside (.op o k)⟩) (hx : S.Outcome o s.world x) :
    ∃ lin' v', Inv S C O R le quiet v₀
      { s.goto t (some ⟨i, a, .inside (k x.1)⟩) with world := x.2 } lin' v' ∧
        le s.world x.2 := by
  have hpc := h.pcs t _ hrun
  simp only [PcOk] at hpc
  cases hmode : (C.method a).mode with
  | shared =>
    simp only [hmode] at hpc
    obtain ⟨hr, r, hmem, hreads⟩ := hpc
    obtain ⟨hquiet, hnext⟩ := hreads _ (hI.refl _) x hx
    refine ⟨lin, v, h.inside hI hrun rfl rfl (Or.inl ⟨rfl, rfl, _, rfl⟩)
      (Or.inl ⟨hmode, hquiet, rfl⟩) h.replays h.linearizes (hI.keeps hquiet h.stands)
      (List.Subset.refl _) (fun _ _ _ _ => id) ?_, hI.quiet_le hquiet⟩
    simp only [PcOk, hmode]
    exact ⟨hr, r, hmem, hnext⟩
  | exclusive =>
    simp only [hmode] at hpc
    obtain ⟨hw, ⟨hfresh, hwrites⟩ | ⟨r, hmem, hwrote⟩⟩ := hpc
    · obtain ⟨hle, ⟨hstands, hnext⟩ | ⟨hstands, hnext⟩⟩ := hwrites _ (hI.refl _) h.stands x hx
      · refine ⟨lin, v, h.inside hI hrun rfl rfl (Or.inl ⟨rfl, rfl, _, rfl⟩)
          (Or.inr ⟨hw, hle⟩) h.replays h.linearizes hstands (List.Subset.refl _)
          (fun _ _ _ _ => id) ?_, hle⟩
        simp only [PcOk, hmode]
        exact ⟨hw, Or.inl ⟨hfresh, hnext⟩⟩
      · -- the operation that takes effect
        obtain ⟨hreplays, hlinearizes, hothers⟩ := h.effect hrun hfresh rfl
        refine ⟨_, _, h.inside hI hrun rfl rfl (Or.inl ⟨rfl, rfl, _, rfl⟩) (Or.inr ⟨hw, hle⟩)
          hreplays hlinearizes hstands (List.subset_append_left _ _) hothers ?_, hle⟩
        simp only [PcOk, hmode]
        exact ⟨hw, Or.inr ⟨_, List.mem_append_right _ List.mem_cons_self, hnext⟩⟩
    · obtain ⟨hle, hstands, hnext⟩ := hwrote _ (hI.refl _) h.stands x hx
      refine ⟨lin, v, h.inside hI hrun rfl rfl (Or.inl ⟨rfl, rfl, _, rfl⟩)
        (Or.inr ⟨hw, hle⟩) h.replays h.linearizes hstands (List.Subset.refl _)
        (fun _ _ _ _ => id) ?_, hle⟩
      simp only [PcOk, hmode]
      exact ⟨hw, Or.inr ⟨r, hmem, hnext⟩⟩

/-- A section ends. -/
theorem leave (hI : Interference R le quiet) (h : Inv S C O R le quiet v₀ s lin v) {t : τ}
    {i : Nat} {a : A} {r : Except ε α} (hrun : s.run t = some ⟨i, a, .inside (.ofExcept r)⟩) :
    ∃ lin', Inv S C O R le quiet v₀
      { s.goto t (some ⟨i, a, .leaving (C.method a).mutexes.reverse r⟩) with
        writer := if s.writer = some t then none else s.writer
        readers := Function.update s.readers t False } lin' v := by
  have hpc := h.pcs t _ hrun
  simp only [PcOk] at hpc
  cases hmode : (C.method a).mode with
  | shared =>
    simp only [hmode] at hpc
    obtain ⟨-, r', hmem, hreads⟩ := hpc
    obtain rfl := hreads.finished
    exact ⟨lin, h.inside hI hrun rfl rfl (Or.inr ⟨rfl, rfl⟩) (Or.inl ⟨hmode, hI.refl _, rfl⟩)
      h.replays h.linearizes h.stands (List.Subset.refl _) (fun _ _ _ _ => id) hmem⟩
  | exclusive =>
    simp only [hmode] at hpc
    have hrefl : le s.world s.world := hI.quiet_le (hI.refl _)
    obtain ⟨hw, ⟨hfresh, hwrites⟩ | ⟨r', hmem, hwrote⟩⟩ := hpc
    · -- what has changed nothing takes effect at its end
      obtain ⟨hreplays, hlinearizes, hothers⟩ := h.effect hrun hfresh hwrites.finished
      exact ⟨_, h.inside hI hrun rfl rfl (Or.inr ⟨rfl, rfl⟩) (Or.inr ⟨hw, hrefl⟩) hreplays
        hlinearizes h.stands (List.subset_append_left _ _) hothers
        (List.mem_append_right _ List.mem_cons_self)⟩
    · obtain rfl := hwrote.finished
      exact ⟨lin, h.inside hI hrun rfl rfl (Or.inr ⟨rfl, rfl⟩) (Or.inr ⟨hw, hrefl⟩) h.replays
        h.linearizes h.stands (List.Subset.refl _) (fun _ _ _ _ => id) hmem⟩

variable [DecidableEq μ]

/-- One step keeps the invariant, and the world moves on. -/
theorem step (hI : Interference R le quiet)
    (hstart : ∀ {s : RwState Op Res ε α β μ A τ π W} {lin v t a}, Inv S C O R le quiet v₀ s lin v →
      C.may s.history t a → Before S O R le quiet (C.method a) a (C.method a).prelude s.world)
    (h : Inv S C O R le quiet v₀ s lin v) {s' : RwState Op Res ε α β μ A τ π W}
    (hs : Step S C s s') :
    ∃ lin' v', Inv S C O R le quiet v₀ s' lin' v' ∧ le s.world s'.world := by
  have hrefl : le s.world s.world := hI.quiet_le (hI.refl _)
  have hkept : ∀ {b : A}, (O.step v b).2 = v → O.step v b = ((O.step v b).1, v) :=
    fun hb => Prod.ext rfl hb
  cases hs with
  | call hnone _ hmay => exact ⟨lin, v, h.start hI hnone (hstart h hmay), hrefl⟩
  | prelude hrun hx =>
    obtain ⟨hbefore, hfresh⟩ := h.pcs _ _ hrun
    obtain ⟨hquiet, hnext⟩ := hbefore _ hrefl v h.stands _ hx
    exact ⟨lin, v, h.goto hI hrun nofun ⟨rfl, rfl, rfl, rfl⟩ hquiet ⟨hnext, hfresh⟩,
      hI.quiet_le hquiet⟩
  | refuse hrun =>
    obtain ⟨hbefore, hfresh⟩ := h.pcs _ _ hrun
    obtain ⟨hreplays, hlinearizes, hothers⟩ :=
      h.effect hrun hfresh (hbefore _ hrefl v h.stands)
    have hstop := h.stop hI (not_inside hrun nofun) hreplays hlinearizes
      (List.subset_append_left _ _) hothers
    refine ⟨_, v, hstop.emit nofun fun j r heq => ?_, hrefl⟩
    cases heq
    exact ⟨_, List.mem_append_right _ List.mem_cons_self⟩
  | ready hrun =>
    obtain ⟨hbefore, hfresh⟩ := h.pcs _ _ hrun
    exact ⟨lin, v, h.goto hI hrun nofun ⟨rfl, rfl, rfl, rfl⟩ (hI.refl _) ⟨hbefore, hfresh⟩, hrefl⟩
  | lock hrun _ =>
    obtain ⟨hbefore, hfresh⟩ := h.pcs _ _ hrun
    exact ⟨lin, v, h.goto hI hrun nofun ⟨rfl, rfl, rfl, rfl⟩ (hI.refl _) ⟨hbefore, hfresh⟩, hrefl⟩
  | share hrun hmode hwriter =>
    obtain ⟨hbefore, hfresh⟩ := h.pcs _ _ hrun
    have henters := hbefore _ hrefl v h.stands
    simp only [Enters, hmode] at henters
    obtain ⟨hsame, hreads⟩ := henters
    obtain ⟨hreplays, hlinearizes, hothers⟩ := h.effect hrun hfresh (hkept hsame)
    refine ⟨_, v, h.enter hI hrun rfl rfl rfl hwriter (Or.inl ⟨hmode, rfl, rfl⟩) hreplays
      hlinearizes (List.subset_append_left _ _) hothers ?_, hrefl⟩
    simp only [PcOk, hmode, Function.update_self]
    exact ⟨trivial, _, List.mem_append_right _ List.mem_cons_self, hreads⟩
  | exclude hrun hmode hwriter hreaders =>
    obtain ⟨hbefore, hfresh⟩ := h.pcs _ _ hrun
    have henters := hbefore _ hrefl v h.stands
    simp only [Enters, hmode] at henters
    refine ⟨lin, v, h.enter hI hrun rfl rfl rfl hwriter (Or.inr ⟨hmode, hreaders, rfl, rfl⟩)
      h.replays h.linearizes (List.Subset.refl _) (fun _ _ _ _ => id) ?_, hrefl⟩
    simp only [PcOk, hmode]
    exact ⟨trivial, Or.inl ⟨hfresh, henters⟩⟩
  | act hrun hx => exact h.act hI hrun hx
  | leave r hrun =>
    obtain ⟨lin', hleave⟩ := h.leave hI hrun
    exact ⟨lin', v, hleave, hrefl⟩
  | unlock hrun =>
    exact ⟨lin, v, h.goto hI hrun nofun ⟨rfl, rfl, rfl, rfl⟩ (hI.refl _) (h.pcs _ _ hrun), hrefl⟩
  | finish hrun =>
    have hstop := h.stop hI (not_inside hrun nofun) h.replays h.linearizes (List.Subset.refl _)
      fun _ _ _ _ => id
    refine ⟨lin, v, hstop.emit nofun fun j r heq => ?_, hrefl⟩
    cases heq
    exact ⟨_, h.pcs _ _ hrun⟩
  | crash q dead _ => exact ⟨lin, v, (h.crash hI dead).emit nofun nofun, hrefl⟩

/-- Nothing has happened. -/
theorem initial {initial : W → Prop} (hinitial : ∀ w, initial w → R w v₀)
    (h : (system S C initial).initial s) :
    Inv S C O R le quiet v₀ s [] v₀ := by
  obtain ⟨hw, hwriter, hreaders, -, hrun, hhistory⟩ := h
  refine ⟨rfl, hhistory ▸ Linearizes.nil, hinitial _ hw, fun t c hc => ?_, fun i t a hmem => ?_,
    fun t c hc => ?_, fun t ht => ?_, fun t ht => absurd ht (hreaders t), fun t u ht => ?_⟩
  · rw [hrun t] at hc
    cases hc
  · rw [hhistory] at hmem
    cases hmem
  · rw [hrun t] at hc
    cases hc
  · rw [hwriter] at ht
    cases ht
  · rw [hwriter] at ht
    cases ht

end Inv

variable [DecidableEq τ] [DecidableEq μ] {v₀ : V} {s : RwState Op Res ε α β μ A τ π W}

/-- Every run is explained by the object, and the world stands for its state. -/
theorem linearizable (hI : Interference R le quiet) {initial : W → Prop}
    (hinitial : ∀ w, initial w → R w v₀)
    (hstart : ∀ {s : RwState Op Res ε α β μ A τ π W} {lin v t a}, Inv S C O R le quiet v₀ s lin v →
      C.may s.history t a → Before S O R le quiet (C.method a) a (C.method a).prelude s.world)
    (h : (system S C initial).Reachable s) : ∃ lin v, Inv S C O R le quiet v₀ s lin v := by
  induction h with
  | initial h => exact ⟨[], v₀, Inv.initial hinitial h⟩
  | step _ hs ih =>
    obtain ⟨lin, v, hinv⟩ := ih
    obtain ⟨lin', v', hinv', -⟩ := hinv.step hI hstart hs
    exact ⟨lin', v', hinv'⟩

end RwState

end Effect
