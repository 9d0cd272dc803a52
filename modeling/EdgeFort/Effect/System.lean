/-
Transition systems and their invariants.
-/

namespace Effect

/-- A transition system on states of type `σ`. -/
structure System (σ : Type) where
  initial : σ → Prop
  step : σ → σ → Prop

namespace System

variable {σ : Type} {S : System σ} {s t : σ}

/-- The states runs of the system reach. -/
inductive Reachable (S : System σ) : σ → Prop
  | initial {s : σ} : S.initial s → Reachable S s
  | step {s t : σ} : Reachable S s → S.step s t → Reachable S t

/-- What holds initially and is kept by every step holds in every reachable state. -/
theorem invariant (I : σ → Prop) (hinit : ∀ s, S.initial s → I s)
    (hstep : ∀ s t, I s → S.step s t → I t) (h : S.Reachable s) : I s := by
  induction h with
  | initial h => exact hinit _ h
  | step _ hs ih => exact hstep _ _ ih hs

/-- The runs of `S` whose steps all satisfy `allowed`. -/
def restrict (S : System σ) (allowed : σ → σ → Prop) : System σ where
  initial := S.initial
  step s t := S.step s t ∧ allowed s t

/-- A restricted run is a run. -/
theorem Reachable.of_restrict {allowed : σ → σ → Prop} (h : (S.restrict allowed).Reachable s) :
    S.Reachable s := by
  induction h with
  | initial h => exact .initial h
  | step _ hs ih => exact .step ih hs.1

end System

end Effect
