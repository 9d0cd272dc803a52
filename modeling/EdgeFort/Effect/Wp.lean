/-
Weakest preconditions of programs that may crash.

`wp S p Q E C w` says that every run of `p` from `w` keeps `C` in each state it
passes through, returns only where `Q` holds and raises only where `E` holds.
`C` is the crash condition: it holds between any two operations, so it is what
recovery may rely on.  Because it ranges over single operations, `wp` is also an
invariant of a program that other parties interrupt, as long as they leave the
state the program reads alone (`wp_steps`).
-/
import EdgeFort.Effect.Program

namespace Effect

variable {Op : Type} {Res : Op → Type} {ε W α β : Type}

def wp (S : Sem Op Res ε W) :
    Prog Op Res ε α → (α → W → Prop) → (ε → W → Prop) → (W → Prop) → W → Prop
  | .pure a, Q, _, C, w => C w ∧ Q a w
  | .throw e, _, E, C, w => C w ∧ E e w
  | .op o k, Q, E, C, w => C w ∧ ∀ x, S.Outcome o w x → wp S (k x.1) Q E C x.2

variable {S : Sem Op Res ε W} {C : W → Prop} {w : W}

/-! ## Structural rules -/

theorem wp_pure {a : α} {Q : α → W → Prop} {E : ε → W → Prop} :
    wp S (pure a) Q E C w ↔ C w ∧ Q a w := Iff.rfl

theorem wp_throw {e : ε} {Q : α → W → Prop} {E : ε → W → Prop} :
    wp S (throw e) Q E C w ↔ C w ∧ E e w := Iff.rfl

theorem wp_crash {p : Prog Op Res ε α} {Q : α → W → Prop} {E : ε → W → Prop}
    (h : wp S p Q E C w) : C w := by
  cases p <;> exact h.1

theorem wp_ofExcept {r : Except ε α} {Q : α → W → Prop} {E : ε → W → Prop} :
    wp S (.ofExcept r) Q E C w ↔ C w ∧ (∀ a, r = .ok a → Q a w) ∧ ∀ e, r = .error e → E e w := by
  cases r <;> simp [Prog.ofExcept, wp]

theorem wp_liftM {r : Except ε α} {Q : α → W → Prop} {E : ε → W → Prop} :
    wp S (liftM r) Q E C w ↔ C w ∧ (∀ a, r = .ok a → Q a w) ∧ ∀ e, r = .error e → E e w :=
  wp_ofExcept

theorem wp_perform {o : Op} {Q : Res o → W → Prop} {E : ε → W → Prop} :
    wp S (.perform o) Q E C w ↔ C w ∧ ∀ x, S.Outcome o w x →
      C x.2 ∧ (∀ a, x.1 = .ok a → Q a x.2) ∧ ∀ e, x.1 = .error e → E e x.2 := by
  simp only [Prog.perform, wp, wp_ofExcept]

theorem wp_mono {p : Prog Op Res ε α} {Q Q' : α → W → Prop} {E E' : ε → W → Prop}
    {C' : W → Prop} (h : wp S p Q E C w) (hQ : ∀ a w, C w → Q a w → Q' a w)
    (hE : ∀ e w, C w → E e w → E' e w) (hC : ∀ w, C w → C' w) : wp S p Q' E' C' w := by
  induction p generalizing w with
  | pure a => exact ⟨hC _ h.1, hQ _ _ h.1 h.2⟩
  | throw e => exact ⟨hC _ h.1, hE _ _ h.1 h.2⟩
  | op o k ih => exact ⟨hC _ h.1, fun x hx => ih _ (h.2 x hx)⟩

theorem wp_trivial (p : Prog Op Res ε α) (w : W) :
    wp S p (fun _ _ => True) (fun _ _ => True) (fun _ => True) w := by
  induction p generalizing w with
  | pure a => exact ⟨trivial, trivial⟩
  | throw e => exact ⟨trivial, trivial⟩
  | op o k ih => exact ⟨trivial, fun x _ => ih x.1 x.2⟩

theorem wp_bind {p : Prog Op Res ε α} {f : α → Prog Op Res ε β} {Q : β → W → Prop}
    {E : ε → W → Prop} :
    wp S (p >>= f) Q E C w ↔ wp S p (fun a => wp S (f a) Q E C) E C w := by
  show wp S (p.bind f) Q E C w ↔ _
  induction p generalizing w with
  | pure a => exact ⟨fun h => ⟨wp_crash h, h⟩, fun h => h.2⟩
  | throw e => exact Iff.rfl
  | op o k ih => exact and_congr_right fun _ => forall_congr' fun x => imp_congr_right fun _ => ih x.1

theorem wp_catch {p : Prog Op Res ε α} {h : ε → Prog Op Res ε α} {Q : α → W → Prop}
    {E : ε → W → Prop} :
    wp S (p.catch' h) Q E C w ↔ wp S p Q (fun e => wp S (h e) Q E C) C w := by
  induction p generalizing w with
  | pure a => exact Iff.rfl
  | throw e => exact ⟨fun h => ⟨wp_crash h, h⟩, fun h => h.2⟩
  | op o k ih => exact and_congr_right fun _ => forall_congr' fun x => imp_congr_right fun _ => ih x.1

theorem wp_finally {p : Prog Op Res ε α} {f : Prog Op Res ε Unit} {Q : α → W → Prop}
    {E : ε → W → Prop} :
    wp S (p.finally' f) Q E C w ↔
      wp S p (fun a => wp S f (fun _ => Q a) E C) (fun e => wp S f (fun _ => E e) E C) C w := by
  show wp S (_ >>= _) Q E C w ↔ _
  rw [wp_bind, wp_catch]
  have hret : ∀ a w, wp S (f.bind fun _ => .pure a) Q E C w ↔ wp S f (fun _ => Q a) E C w :=
    fun a w => ⟨fun h => wp_mono (wp_bind.mp h) (fun _ _ _ h => h.2) (fun _ _ _ h => h) fun _ h => h,
      fun h => wp_bind.mpr (wp_mono h (fun _ _ hC h => ⟨hC, h⟩) (fun _ _ _ h => h) fun _ h => h)⟩
  have hraise : ∀ e (R : α → W → Prop) w,
      wp S (f.bind fun _ => .throw e) R E C w ↔ wp S f (fun _ => E e) E C w :=
    fun e R w => ⟨fun h => wp_mono (wp_bind.mp h) (fun _ _ _ h => h.2) (fun _ _ _ h => h) fun _ h => h,
      fun h => wp_bind.mpr (wp_mono h (fun _ _ hC h => ⟨hC, h⟩) (fun _ _ _ h => h) fun _ h => h)⟩
  constructor <;> intro h <;> refine wp_mono h ?_ ?_ fun _ h => h
  · exact fun a w _ h => (hret a w).mp h
  · exact fun e w _ h => (hraise e _ w).mp h
  · exact fun a w _ h => (hret a w).mpr h
  · exact fun e w _ h => (hraise e _ w).mpr h

theorem wp_ignore {p : Prog Op Res ε Unit} {Q : Unit → W → Prop} {E : ε → W → Prop} :
    wp S p.ignore Q E C w ↔ wp S p Q (fun _ => Q ()) C w := by
  rw [Prog.ignore, wp_catch]
  constructor <;> intro h <;> refine wp_mono h (fun _ _ _ h => h) ?_ fun _ h => h
  · exact fun _ _ _ h => h.2
  · exact fun _ _ hC h => ⟨hC, h⟩

/-! ## Soundness -/

theorem wp_step {p q : Prog Op Res ε α} {w w' : W} {Q : α → W → Prop} {E : ε → W → Prop}
    (h : wp S p Q E C w) (hs : S.Step (p, w) (q, w')) : wp S q Q E C w' := by
  cases hs with
  | op hx => exact h.2 _ hx

theorem wp_steps {p q : Prog Op Res ε α} {w w' : W} {Q : α → W → Prop} {E : ε → W → Prop}
    (h : wp S p Q E C w) (hs : S.Steps (p, w) (q, w')) : wp S q Q E C w' := by
  suffices ∀ c : Prog Op Res ε α × W, S.Steps (p, w) c → wp S c.1 Q E C c.2 from this _ hs
  intro c hc
  induction hc with
  | refl => exact h
  | tail _ hs ih => exact wp_step ih hs

theorem wp_cutAt {p : Prog Op Res ε α} {w w' : W} {Q : α → W → Prop} {E : ε → W → Prop}
    (h : wp S p Q E C w) (hs : S.CutAt p w w') : C w' := by
  obtain ⟨q, hq⟩ := hs
  exact wp_crash (wp_steps h hq)

/-- What is done with the answer does not change the points of the run. -/
theorem wp_cutAt_map {p : Prog Op Res ε α} {f : α → β} {w w' : W} {Q : α → W → Prop}
    {E : ε → W → Prop} (h : wp S p Q E C w) (hs : S.CutAt (p >>= fun a => pure (f a)) w w') :
    C w' := by
  have hmap : wp S (p >>= fun a => pure (f a)) (fun _ _ => True) (fun _ _ => True) C w :=
    wp_bind.mpr (wp_mono h (fun _ _ hC _ => wp_pure.mpr ⟨hC, trivial⟩)
      (fun _ _ _ _ => trivial) fun _ hC => hC)
  exact wp_cutAt hmap hs

theorem wp_returns {p : Prog Op Res ε α} {w w' : W} {a : α} {Q : α → W → Prop}
    {E : ε → W → Prop} (h : wp S p Q E C w) (hs : S.Finishes p w (.ok a) w') : Q a w' :=
  (wp_steps h hs).2

theorem wp_raises {p : Prog Op Res ε α} {w w' : W} {e : ε} {Q : α → W → Prop}
    {E : ε → W → Prop} (h : wp S p Q E C w) (hs : S.Finishes p w (.error e) w') : E e w' :=
  (wp_steps h hs).2

/-- A run that never raises ends with an answer. -/
theorem exists_returns {p : Prog Op Res ε α} {Q : α → W → Prop}
    (h : wp S p Q (fun _ _ => False) C w) : ∃ a w', S.Finishes p w (.ok a) w' ∧ Q a w' := by
  have hr := S.run_finishes p w
  match hx : (S.run p w).1 with
  | .ok a => exact ⟨a, _, hx ▸ hr, wp_returns h (hx ▸ hr)⟩
  | .error e => exact (wp_raises h (hx ▸ hr)).elim

end Effect
