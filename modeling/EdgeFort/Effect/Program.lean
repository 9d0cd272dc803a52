/-
Programs over atomic operations.

A program is the tree of the operations it may perform.  Each operation answers
with a result or with an exception, and the rest of the tree says what follows.
Nothing here fixes what an operation does: a `Sem` gives that for one kind of
state, so that the same program can run on a plain store, on a store that loses
unsynced writes, or against an environment that answers as it likes.

A crash is the end of the run between two operations.  The states a crash can
leave are exactly the states `Steps` passes through.
-/
import Mathlib.Logic.Relation

namespace Effect

/-- A program over the operations `Op`, where `Res o` is what `o` answers with
and `ε` is the type of exceptions. -/
inductive Prog (Op : Type) (Res : Op → Type) (ε : Type) (α : Type) where
  | pure (a : α)
  | throw (e : ε)
  | op (o : Op) (k : Except ε (Res o) → Prog Op Res ε α)

namespace Prog

variable {Op : Type} {Res : Op → Type} {ε α β : Type}

def bind : Prog Op Res ε α → (α → Prog Op Res ε β) → Prog Op Res ε β
  | .pure a, f => f a
  | .throw e, _ => .throw e
  | .op o k, f => .op o fun r => (k r).bind f

/-- Run `p` and hand an exception it raises to `h`. -/
def catch' : Prog Op Res ε α → (ε → Prog Op Res ε α) → Prog Op Res ε α
  | .pure a, _ => .pure a
  | .throw e, h => h e
  | .op o k, h => .op o fun r => (k r).catch' h

/-- The rest of a program whose next answer is already known. -/
def ofExcept : Except ε α → Prog Op Res ε α
  | .ok a => .pure a
  | .error e => .throw e

/-- One operation, as a program. -/
def perform (o : Op) : Prog Op Res ε (Res o) :=
  .op o ofExcept

/-- Run `f` after `p`, whether `p` returns or raises. -/
def finally' (p : Prog Op Res ε α) (f : Prog Op Res ε Unit) : Prog Op Res ε α :=
  (p.catch' fun e => f.bind fun _ => .throw e).bind fun a => f.bind fun _ => .pure a

/-- Run `p` and forget an exception it raises. -/
def ignore (p : Prog Op Res ε Unit) : Prog Op Res ε Unit :=
  p.catch' fun _ => .pure ()

instance : Monad (Prog Op Res ε) where
  pure := .pure
  bind := .bind

instance : MonadExcept ε (Prog Op Res ε) where
  throw := .throw
  tryCatch := .catch'

instance : MonadLift (Except ε) (Prog Op Res ε) where
  monadLift := ofExcept

end Prog

/-- What the operations do to a state of type `W`.  `exec` is the answer of a
store that works; `fault` lists the other answers the environment may give. -/
structure Sem (Op : Type) (Res : Op → Type) (ε W : Type) where
  exec : (o : Op) → W → Except ε (Res o) × W
  fault : (o : Op) → W → Except ε (Res o) × W → Prop

namespace Sem

variable {Op : Type} {Res : Op → Type} {ε W α : Type}

/-- The answers operation `o` can have in state `w`, with the states they leave. -/
def Outcome (S : Sem Op Res ε W) (o : Op) (w : W) (x : Except ε (Res o) × W) : Prop :=
  x = S.exec o w ∨ S.fault o w x

/-- One operation of a program. -/
inductive Step (S : Sem Op Res ε W) : Prog Op Res ε α × W → Prog Op Res ε α × W → Prop
  | op {o : Op} {k : Except ε (Res o) → Prog Op Res ε α} {w : W} {x : Except ε (Res o) × W} :
      S.Outcome o w x → Step S (.op o k, w) (k x.1, x.2)

/-- Any number of operations of a program. -/
def Steps (S : Sem Op Res ε W) : Prog Op Res ε α × W → Prog Op Res ε α × W → Prop :=
  Relation.ReflTransGen S.Step

/-- The program runs to its end with answer `r`. -/
def Finishes (S : Sem Op Res ε W) (p : Prog Op Res ε α) (w : W) (r : Except ε α) (w' : W) : Prop :=
  S.Steps (p, w) (.ofExcept r, w')

/-- The run may be cut in state `w'`. -/
def CutAt (S : Sem Op Res ε W) (p : Prog Op Res ε α) (w w' : W) : Prop :=
  ∃ q, S.Steps (p, w) (q, w')

/-- The run without faults. -/
def run (S : Sem Op Res ε W) : Prog Op Res ε α → W → Except ε α × W
  | .pure a, w => (.ok a, w)
  | .throw e, w => (.error e, w)
  | .op o k, w => S.run (k (S.exec o w).1) (S.exec o w).2

/-! ## The run without faults, construct by construct -/

section Run

variable (S : Sem Op Res ε W) (w : W) {β : Type}

@[simp] theorem run_pure (a : α) : S.run (pure a : Prog Op Res ε α) w = (.ok a, w) := rfl

@[simp] theorem run_throw (e : ε) : S.run (throw e : Prog Op Res ε α) w = (.error e, w) := rfl

@[simp] theorem run_ofExcept (r : Except ε α) :
    S.run (.ofExcept r : Prog Op Res ε α) w = (r, w) := by
  cases r <;> rfl

@[simp] theorem run_liftM (r : Except ε α) :
    S.run (MonadLiftT.monadLift r : Prog Op Res ε α) w = (r, w) :=
  S.run_ofExcept w r

@[simp] theorem run_perform (o : Op) : S.run (.perform o) w = S.exec o w :=
  S.run_ofExcept _ _

theorem run_bind (p : Prog Op Res ε α) (f : α → Prog Op Res ε β) :
    S.run (p >>= f) w = match S.run p w with
      | (.ok a, w) => S.run (f a) w
      | (.error e, w) => (.error e, w) := by
  induction p generalizing w with
  | pure a => rfl
  | throw e => rfl
  | op o k ih => exact ih _ _

theorem run_catch (p : Prog Op Res ε α) (h : ε → Prog Op Res ε α) :
    S.run (p.catch' h) w = match S.run p w with
      | (.ok a, w) => (.ok a, w)
      | (.error e, w) => S.run (h e) w := by
  induction p generalizing w with
  | pure a => rfl
  | throw e => rfl
  | op o k ih => exact ih _ _

variable {S w}

theorem run_bind_ok {p : Prog Op Res ε α} {f : α → Prog Op Res ε β} {a : α} {w' : W}
    (h : S.run p w = (.ok a, w')) : S.run (p >>= f) w = S.run (f a) w' := by
  rw [run_bind, h]

theorem run_bind_error {p : Prog Op Res ε α} {f : α → Prog Op Res ε β} {e : ε} {w' : W}
    (h : S.run p w = (.error e, w')) : S.run (p >>= f) w = (.error e, w') := by
  rw [run_bind, h]

theorem run_catch_ok {p : Prog Op Res ε α} {h : ε → Prog Op Res ε α} {a : α} {w' : W}
    (hp : S.run p w = (.ok a, w')) : S.run (p.catch' h) w = (.ok a, w') := by
  rw [run_catch, hp]

theorem run_bind_eq_ok {p : Prog Op Res ε α} {f : α → Prog Op Res ε β} {b : β} :
    (S.run (p >>= f) w).1 = .ok b ↔
      ∃ a w', S.run p w = (.ok a, w') ∧ (S.run (f a) w').1 = .ok b := by
  rw [run_bind]
  obtain ⟨r, w'⟩ := S.run p w
  cases r with
  | ok a => exact ⟨fun h => ⟨a, w', rfl, h⟩, fun ⟨_, _, hp, h⟩ => by cases hp; exact h⟩
  | error e => exact ⟨nofun, fun ⟨_, _, hp, _⟩ => nomatch hp⟩

/-- A handler that never returns makes no difference to what is returned. -/
theorem run_catch_eq_ok {p : Prog Op Res ε α} {h : ε → Prog Op Res ε α} {a : α}
    (hh : ∀ e w', (S.run (h e) w').1 ≠ .ok a) :
    (S.run (p.catch' h) w).1 = .ok a ↔ (S.run p w).1 = .ok a := by
  rw [run_catch]
  obtain ⟨r, w'⟩ := S.run p w
  cases r with
  | ok b => exact Iff.rfl
  | error e => exact iff_of_false (hh e w') nofun

end Run

/-- The program and the state after the first `n` operations of the run without
faults. -/
def runFor (S : Sem Op Res ε W) : Nat → Prog Op Res ε α → W → Prog Op Res ε α × W
  | n + 1, .op o k, w => S.runFor n (k (S.exec o w).1) (S.exec o w).2
  | _, p, w => (p, w)

theorem run_finishes (S : Sem Op Res ε W) (p : Prog Op Res ε α) (w : W) :
    S.Finishes p w (S.run p w).1 (S.run p w).2 := by
  induction p generalizing w with
  | pure a => exact Relation.ReflTransGen.refl
  | throw e => exact Relation.ReflTransGen.refl
  | op o k ih => exact Relation.ReflTransGen.head (Step.op (Or.inl rfl)) (ih _ _)

theorem runFor_steps (S : Sem Op Res ε W) (n : Nat) (p : Prog Op Res ε α) (w : W) :
    S.Steps (p, w) (S.runFor n p w) := by
  induction n generalizing p w with
  | zero => cases p <;> exact Relation.ReflTransGen.refl
  | succ n ih =>
    cases p with
    | pure a => exact Relation.ReflTransGen.refl
    | throw e => exact Relation.ReflTransGen.refl
    | op o k => exact Relation.ReflTransGen.head (Step.op (Or.inl rfl)) (ih _ _)

theorem runFor_cutAt (S : Sem Op Res ε W) (n : Nat) (p : Prog Op Res ε α) (w : W) :
    S.CutAt p w (S.runFor n p w).2 :=
  ⟨(S.runFor n p w).1, S.runFor_steps n p w⟩

/-- A finished run may also be cut after its last operation. -/
theorem Finishes.cutAt {S : Sem Op Res ε W} {p : Prog Op Res ε α} {w w' : W} {r : Except ε α}
    (h : S.Finishes p w r w') : S.CutAt p w w' :=
  ⟨_, h⟩

end Sem

end Effect
