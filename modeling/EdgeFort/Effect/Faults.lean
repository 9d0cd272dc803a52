/-
Programs with marked operations, and stores on which some of them may fail.

A mark says which part of a program an operation is in, such as the handler of an
exception, and with it whether the operation may fail.  It changes nothing of what the
program does: `erase` takes it away.
-/
import EdgeFort.Effect.Frame

namespace Effect

variable {Op M : Type} {Res : Op → Type} {ε W α β : Type}

namespace Prog

/-- `p`, with every operation marked `m`. -/
def mark (m : M) : Prog Op Res ε α → Prog (Op × M) (fun o => Res o.1) ε α
  | .pure a => .pure a
  | .throw e => .throw e
  | .op o k => .op (o, m) fun r => (k r).mark m

def erase : Prog (Op × M) (fun o => Res o.1) ε α → Prog Op Res ε α
  | .pure a => .pure a
  | .throw e => .throw e
  | .op o k => .op o.1 fun r => (k r).erase

@[simp] theorem erase_mark (m : M) (p : Prog Op Res ε α) : (p.mark m).erase = p := by
  induction p with
  | pure a => rfl
  | throw e => rfl
  | op o k ih =>
    rw [mark, erase]
    congr 1
    exact funext ih

@[simp] theorem erase_pure (a : α) :
    (pure a : Prog (Op × M) (fun o => Res o.1) ε α).erase = pure a := rfl

@[simp] theorem erase_throw (e : ε) :
    (throw e : Prog (Op × M) (fun o => Res o.1) ε α).erase = throw e := rfl

@[simp] theorem erase_bind (p : Prog (Op × M) (fun o => Res o.1) ε α)
    (f : α → Prog (Op × M) (fun o => Res o.1) ε β) :
    (p >>= f).erase = p.erase >>= fun a => (f a).erase := by
  induction p with
  | pure a => rfl
  | throw e => rfl
  | op o k ih =>
    show Prog.op o.1 (fun r => ((k r).bind f).erase) = _
    congr 1
    exact funext ih

@[simp] theorem erase_catch' (p : Prog (Op × M) (fun o => Res o.1) ε α)
    (h : ε → Prog (Op × M) (fun o => Res o.1) ε α) :
    (p.catch' h).erase = p.erase.catch' fun e => (h e).erase := by
  induction p with
  | pure a => rfl
  | throw e => rfl
  | op o k ih =>
    show Prog.op o.1 (fun r => ((k r).catch' h).erase) = _
    congr 1
    exact funext ih

theorem mark_bind (m : M) (p : Prog Op Res ε α) (f : α → Prog Op Res ε β) :
    (p >>= f).mark m = p.mark m >>= fun a => (f a).mark m := by
  induction p with
  | pure a => rfl
  | throw e => rfl
  | op o k ih =>
    show Prog.op (o, m) (fun r => ((k r).bind f).mark m) = _
    congr 1
    exact funext ih

theorem mark_catch' (m : M) (p : Prog Op Res ε α) (h : ε → Prog Op Res ε α) :
    (p.catch' h).mark m = (p.mark m).catch' fun e => (h e).mark m := by
  induction p with
  | pure a => rfl
  | throw e => rfl
  | op o k ih =>
    show Prog.op (o, m) (fun r => ((k r).catch' h).mark m) = _
    congr 1
    exact funext ih

theorem mark_finally' (m : M) (p : Prog Op Res ε α) (f : Prog Op Res ε Unit) :
    (p.finally' f).mark m = (p.mark m).finally' (f.mark m) := by
  have hraise : ∀ e : ε, (f.bind fun _ => (.throw e : Prog Op Res ε α)).mark m =
      (f.mark m).bind fun _ => .throw e := fun e => mark_bind m f fun _ => .throw e
  have hret : ∀ a : α, (f.bind fun _ => (.pure a : Prog Op Res ε α)).mark m =
      (f.mark m).bind fun _ => .pure a := fun a => mark_bind m f fun _ => .pure a
  show ((p.catch' fun e => f.bind fun _ => .throw e) >>= fun a => f.bind fun _ => .pure a).mark m = _
  rw [mark_bind, mark_catch']
  simp only [hraise, hret]
  rfl

theorem mark_ofExcept (m : M) (r : Except ε α) :
    (ofExcept r : Prog Op Res ε α).mark m = ofExcept r := by
  cases r <;> rfl

theorem mark_liftM (m : M) (r : Except ε α) :
    (liftM r : Prog Op Res ε α).mark m = liftM r := mark_ofExcept m r

theorem mark_perform (m : M) (o : Op) :
    (perform o : Prog Op Res ε (Res o)).mark m =
      (perform (o, m) : Prog (Op × M) (fun o => Res o.1) ε (Res o)) := by
  rw [perform, mark, perform]
  congr 1
  exact funext fun r => mark_ofExcept m r

/-- An operation that may fail has no handler, and satisfies `ok`. -/
def FailsFast (may ok : Op → Prop) : Prog Op Res ε α → Prop
  | .pure _ => True
  | .throw _ => True
  | .op o k => (may o → ok o ∧ ∀ e, k (.error e) = .throw e) ∧ ∀ r, (k r).FailsFast may ok

variable {may ok : Op → Prop}

theorem FailsFast.pure (a : α) : (Pure.pure a : Prog Op Res ε α).FailsFast may ok := trivial

theorem FailsFast.throw (e : ε) :
    (MonadExcept.throw e : Prog Op Res ε α).FailsFast may ok := trivial

theorem FailsFast.ofExcept (r : Except ε α) :
    (ofExcept r : Prog Op Res ε α).FailsFast may ok := by
  cases r <;> trivial

theorem FailsFast.liftM (r : Except ε α) :
    (MonadLiftT.monadLift r : Prog Op Res ε α).FailsFast may ok := FailsFast.ofExcept r

theorem FailsFast.perform {o : Op} (h : may o → ok o) :
    (Prog.perform o : Prog Op Res ε (Res o)).FailsFast may ok :=
  ⟨fun ho => ⟨h ho, fun _ => rfl⟩, fun r => FailsFast.ofExcept r⟩

theorem FailsFast.bind {p : Prog Op Res ε α} {f : α → Prog Op Res ε β}
    (hp : p.FailsFast may ok) (hf : ∀ a, (f a).FailsFast may ok) :
    (p >>= f).FailsFast may ok := by
  induction p with
  | pure a => exact hf a
  | throw e => trivial
  | op o k ih =>
    refine ⟨fun ho => ⟨(hp.1 ho).1, fun e => ?_⟩, fun r => ih r (hp.2 r)⟩
    show (k (.error e)).bind f = _
    rw [(hp.1 ho).2 e]
    rfl

theorem FailsFast.of_all {p : Prog Op Res ε α} (hp : p.All fun o => ¬may o) :
    p.FailsFast may ok := by
  induction p with
  | pure a => trivial
  | throw e => trivial
  | op o k ih => exact ⟨fun ho => absurd ho hp.1, fun r => ih r (hp.2 r)⟩

end Prog

namespace Sem

/-- `S`, where an operation that `may` fail raises any exception and leaves one of the
states `leaves` lists. -/
def faulty (S : Sem Op Res ε W) (may : Op → M → Prop) (leaves : Op → W → W → Prop) :
    Sem (Op × M) (fun o => Res o.1) ε W where
  exec o := S.exec o.1
  fault o w x := S.fault o.1 w x ∨ may o.1 o.2 ∧ leaves o.1 w x.2 ∧ ∃ e, x.1 = .error e

/-- `S`, where the operations in `failing` raise `e` and change nothing. -/
def broken (S : Sem Op Res ε W) (failing : Op × M → Bool) (e : ε) :
    Sem (Op × M) (fun o => Res o.1) ε W where
  exec o w := if failing o then (.error e, w) else S.exec o.1 w
  fault _ _ _ := False

theorem Finishes.mono {S S' : Sem Op Res ε W} {p : Prog Op Res ε α} {w w' : W} {r : Except ε α}
    (h : S'.Finishes p w r w') (hle : ∀ o w x, S'.Outcome o w x → S.Outcome o w x) :
    S.Finishes p w r w' := by
  refine Relation.ReflTransGen.mono (fun c d hs => ?_) _ _ h
  cases hs with
  | op hx => exact .op (hle _ _ _ hx)

end Sem

variable {S : Sem Op Res ε W} {may : Op → M → Prop} {leaves : Op → W → W → Prop} {m : M}
  {C F : W → Prop} {w : W}

theorem broken_finishes (S : Sem Op Res ε W) (failing : Op × M → Bool) (e : ε)
    (hmay : ∀ o, failing o = true → may o.1 o.2) (hleaves : ∀ o w, leaves o w w)
    (p : Prog (Op × M) (fun o => Res o.1) ε α) (w : W) :
    (S.faulty may leaves).Finishes p w ((S.broken failing e).run p w).1
      ((S.broken failing e).run p w).2 := by
  refine ((S.broken failing e).run_finishes p w).mono fun o w x hx => ?_
  rcases hx with rfl | hx
  · by_cases ho : failing o = true
    · refine Or.inr (Or.inr ⟨hmay o ho, ?_, e, ?_⟩)
      · simpa [Sem.broken, ho] using hleaves o.1 w
      · simp [Sem.broken, ho]
    · exact Or.inl (by simp [Sem.broken, Sem.faulty, ho])
  · exact hx.elim

/-- What no fault can reach is as before. -/
theorem wp_erase {p : Prog (Op × M) (fun o => Res o.1) ε α} {Q : α → W → Prop}
    {E : ε → W → Prop} (hp : p.All fun o => ¬may o.1 o.2) (h : wp S p.erase Q E C w) :
    wp (S.faulty may leaves) p Q E C w := by
  induction p generalizing w with
  | pure a => exact h
  | throw e => exact h
  | op o k ih =>
    refine ⟨h.1, fun x hx => ih x.1 (hp.2 x.1) (h.2 x ?_)⟩
    rcases hx with hx | hx | hx
    · exact Or.inl hx
    · exact Or.inr hx
    · exact absurd hx.1 hp.1

/-- Faults only add outcomes. -/
theorem wp_of_faulty {p : Prog (Op × M) (fun o => Res o.1) ε α} {Q : α → W → Prop}
    {E : ε → W → Prop} (h : wp (S.faulty may leaves) p Q E C w) : wp S p.erase Q E C w := by
  induction p generalizing w with
  | pure a => exact h
  | throw e => exact h
  | op o k ih => exact ⟨h.1, fun x hx => ih x.1 (h.2 x (hx.imp id Or.inl))⟩

theorem Prog.All.mark {ok : Op × M → Prop} {p : Prog Op Res ε α}
    (hp : p.All fun o => ok (o, m)) : (p.mark m).All ok := by
  induction p with
  | pure a => trivial
  | throw e => trivial
  | op o k ih => exact ⟨hp.1, fun r => ih r (hp.2 r)⟩

theorem Prog.All.of_forall {ok : Op → Prop} (h : ∀ o, ok o) (p : Prog Op Res ε α) : p.All ok := by
  induction p with
  | pure a => trivial
  | throw e => trivial
  | op o k ih => exact ⟨h o, ih⟩

/-- A part of a program that no fault can reach. -/
theorem wp_mark_safe {p : Prog Op Res ε α} {Q : α → W → Prop} {E : ε → W → Prop}
    (hm : ∀ o, ¬may o m) (h : wp S p Q E C w) :
    wp (S.faulty may leaves) (p.mark m) Q E C w := by
  apply wp_erase
  · exact .mark (.of_forall hm p)
  · rwa [Prog.erase_mark]

/-- A program that ends where an operation fails: what it is known to do without faults,
or a point of it where one has failed. -/
theorem wp_mark {ok : Op → Prop} {p : Prog Op Res ε α} {Q : α → W → Prop} {E : ε → W → Prop}
    (hp : p.FailsFast (fun o => may o m) ok) (h : wp S p Q E C w)
    (hE : ∀ o e w w', ok o → C w → leaves o w w' → E e w') :
    wp (S.faulty may leaves) (p.mark m) Q E (fun _ => True) w := by
  induction p generalizing w with
  | pure a => exact ⟨trivial, h.2⟩
  | throw e => exact ⟨trivial, h.2⟩
  | op o k ih =>
    refine ⟨trivial, fun x hx => ?_⟩
    obtain ⟨r, w'⟩ := x
    rcases hx with hx | hx | ⟨hmay, hleaves, e, he⟩
    · exact ih r (hp.2 r) (h.2 (r, w') (Or.inl hx))
    · exact ih r (hp.2 r) (h.2 (r, w') (Or.inr hx))
    · dsimp only at he hleaves
      subst he
      obtain ⟨ho, hk⟩ := hp.1 hmay
      show wp (S.faulty may leaves) ((k (.error e)).mark m) Q E _ w'
      rw [hk e]
      exact ⟨trivial, hE o e w w' ho h.1 hleaves⟩

/-- One operation that may fail. -/
theorem wp_mark_perform {o : Op} {Q : Res o → W → Prop} {E : ε → W → Prop}
    (h : wp S (Prog.perform o : Prog Op Res ε (Res o)) Q E (fun _ => True) w)
    (hE : may o m → ∀ e w', leaves o w w' → E e w') :
    wp (S.faulty may leaves) ((Prog.perform o : Prog Op Res ε (Res o)).mark m) Q E
      (fun _ => True) w := by
  rw [Prog.mark_perform]
  refine wp_perform.mpr ⟨trivial, fun x hx => ?_⟩
  have hsem := (wp_perform.mp h).2
  rcases hx with hx | hx | ⟨hmay, hleaves, e, he⟩
  · exact hsem x (Or.inl hx)
  · exact hsem x (Or.inr hx)
  · refine ⟨trivial, fun a ha => ?_, fun e' _ => hE hmay e' x.2 hleaves⟩
    rw [he] at ha
    cases ha

end Effect
