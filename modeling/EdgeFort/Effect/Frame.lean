/-
Programs by the operations they perform.

`p.All ok` says that whatever `p` is answered, each operation it performs satisfies
`ok`.  What such operations keep, `p` keeps, on any state at all.  `p.Performs o` says
that `p` does not return without `o`.
-/
import EdgeFort.Effect.Wp

namespace Effect

variable {Op : Type} {Res : Op → Type} {ε W α β : Type}

namespace Prog

def All (ok : Op → Prop) : Prog Op Res ε α → Prop
  | .pure _ => True
  | .throw _ => True
  | .op o k => ok o ∧ ∀ r, (k r).All ok

variable {ok ok' : Op → Prop}

theorem All.pure (a : α) : (Pure.pure a : Prog Op Res ε α).All ok := trivial

theorem All.throw (e : ε) : (MonadExcept.throw e : Prog Op Res ε α).All ok := trivial

theorem All.ofExcept (r : Except ε α) : (Prog.ofExcept r : Prog Op Res ε α).All ok := by
  cases r <;> trivial

theorem All.liftM (r : Except ε α) : (MonadLiftT.monadLift r : Prog Op Res ε α).All ok :=
  All.ofExcept r

theorem All.perform {o : Op} (h : ok o) : (Prog.perform o : Prog Op Res ε (Res o)).All ok :=
  ⟨h, fun r => All.ofExcept r⟩

theorem All.bind {p : Prog Op Res ε α} {f : α → Prog Op Res ε β} (hp : p.All ok)
    (hf : ∀ a, (f a).All ok) : (p >>= f).All ok := by
  induction p with
  | pure a => exact hf a
  | throw e => trivial
  | op o k ih => exact ⟨hp.1, fun r => ih r (hp.2 r)⟩

theorem All.catch' {p : Prog Op Res ε α} {h : ε → Prog Op Res ε α} (hp : p.All ok)
    (hh : ∀ e, (h e).All ok) : (p.catch' h).All ok := by
  induction p with
  | pure a => trivial
  | throw e => exact hh e
  | op o k ih => exact ⟨hp.1, fun r => ih r (hp.2 r)⟩

theorem All.finally' {p : Prog Op Res ε α} {f : Prog Op Res ε Unit} (hp : p.All ok)
    (hf : f.All ok) : (p.finally' f).All ok :=
  All.bind (All.catch' hp fun _ => All.bind hf fun _ => trivial)
    fun _ => All.bind hf fun _ => trivial

theorem All.ignore {p : Prog Op Res ε Unit} (hp : p.All ok) : p.ignore.All ok :=
  All.catch' hp fun _ => trivial

theorem All.mono {p : Prog Op Res ε α} (hp : p.All ok) (h : ∀ o, ok o → ok' o) : p.All ok' := by
  induction p with
  | pure a => trivial
  | throw e => trivial
  | op o k ih => exact ⟨h o hp.1, fun r => ih r (hp.2 r)⟩

/-- Whatever it is answered, `p` returns only values in `post`. -/
def Returns (post : α → Prop) : Prog Op Res ε α → Prop
  | .pure a => post a
  | .throw _ => True
  | .op _ k => ∀ r, (k r).Returns post

theorem Returns.trivial (p : Prog Op Res ε α) : p.Returns fun _ => True := by
  induction p with
  | pure a => exact True.intro
  | throw e => exact True.intro
  | op o k ih => exact ih

theorem Returns.mono {post post' : α → Prop} {p : Prog Op Res ε α} (hp : p.Returns post)
    (h : ∀ a, post a → post' a) : p.Returns post' := by
  induction p with
  | pure a => exact h a hp
  | throw e => exact True.intro
  | op o k ih => exact fun r => ih r (hp r)

theorem Returns.bind {post : β → Prop} {mid : α → Prop} {p : Prog Op Res ε α}
    {f : α → Prog Op Res ε β} (hp : p.Returns mid) (hf : ∀ a, mid a → (f a).Returns post) :
    (p >>= f).Returns post := by
  induction p with
  | pure a => exact hf a hp
  | throw e => exact True.intro
  | op o k ih => exact fun r => ih r (hp r)

theorem Returns.liftM {post : α → Prop} {r : Except ε α} (h : ∀ a, r = .ok a → post a) :
    (MonadLiftT.monadLift r : Prog Op Res ε α).Returns post := by
  cases r with
  | ok a => exact h a rfl
  | error e => exact True.intro

/-- Whatever it is answered, `p` performs `o` before it returns. -/
def Performs (o : Op) : Prog Op Res ε α → Prop
  | .pure _ => False
  | .throw _ => True
  | .op o' k => o' = o ∨ ∀ r, (k r).Performs o

theorem Performs.perform (o : Op) : (Prog.perform o : Prog Op Res ε (Res o)).Performs o :=
  Or.inl rfl

theorem Performs.bind_left {o : Op} {p : Prog Op Res ε α} {f : α → Prog Op Res ε β}
    (h : p.Performs o) : (p >>= f).Performs o := by
  induction p with
  | pure a => exact h.elim
  | throw e => trivial
  | op o' k ih => exact h.imp_right fun hk r => ih r (hk r)

theorem Performs.bind_right {o : Op} {p : Prog Op Res ε α} {f : α → Prog Op Res ε β}
    (h : ∀ a, (f a).Performs o) : (p >>= f).Performs o := by
  induction p with
  | pure a => exact h a
  | throw e => trivial
  | op o' k ih => exact Or.inr ih

end Prog

variable {S : Sem Op Res ε W} {ok : Op → Prop} {I : W → Prop} {w : W}

/-- What every operation keeps holds throughout, and at the end. -/
theorem wp_all {p : Prog Op Res ε α} (hp : p.All ok)
    (hok : ∀ o w x, ok o → I w → S.Outcome o w x → I x.2) (hw : I w) :
    wp S p (fun _ => I) (fun _ => I) I w := by
  induction p generalizing w with
  | pure a => exact ⟨hw, hw⟩
  | throw e => exact ⟨hw, hw⟩
  | op o k ih => exact ⟨hw, fun x hx => ih x.1 (hp.2 x.1) (hok o w x hp.1 hw hx)⟩

/-- What every operation does to the state, a program does. -/
theorem wp_tracks {R : W → W → Prop} (hrefl : ∀ w, R w w)
    (htrans : ∀ a b c, R a b → R b c → R a c) (hop : ∀ o w x, S.Outcome o w x → R w x.2)
    {p : Prog Op Res ε α} {Q : α → W → Prop} {E : ε → W → Prop} {C : W → Prop}
    (h : wp S p Q E C w) :
    wp S p (fun a w' => R w w' ∧ Q a w') (fun e w' => R w w' ∧ E e w') C w := by
  suffices ∀ w₀, R w₀ w →
      wp S p (fun a w' => R w₀ w' ∧ Q a w') (fun e w' => R w₀ w' ∧ E e w') C w from
    this w (hrefl w)
  induction p generalizing w with
  | pure a => exact fun w₀ hw => ⟨h.1, hw, h.2⟩
  | throw e => exact fun w₀ hw => ⟨h.1, hw, h.2⟩
  | op o k ih =>
    exact fun w₀ hw => ⟨h.1, fun x hx => ih x.1 (h.2 x hx) w₀ (htrans _ _ _ hw (hop o w x hx))⟩

/-- `p` restores `I` by the time it returns or raises. -/
def Keeps (S : Sem Op Res ε W) (I : W → Prop) (p : Prog Op Res ε α) : Prop :=
  ∀ w, I w → wp S p (fun _ => I) (fun _ => I) (fun _ => True) w

theorem Keeps.all {p : Prog Op Res ε α} (hp : p.All ok)
    (hok : ∀ o w x, ok o → I w → S.Outcome o w x → I x.2) : Keeps S I p := fun _ hw =>
  wp_mono (wp_all hp hok hw) (fun _ _ _ h => h) (fun _ _ _ h => h) fun _ _ => trivial

theorem Keeps.bind {p : Prog Op Res ε α} {f : α → Prog Op Res ε β} (hp : Keeps S I p)
    (hf : ∀ a, Keeps S I (f a)) : Keeps S I (p >>= f) := fun w hw =>
  wp_bind.mpr (wp_mono (hp w hw) (fun a w _ h => hf a w h) (fun _ _ _ h => h) fun _ h => h)

theorem Keeps.finishes {p : Prog Op Res ε α} {r : Except ε α} {w' : W} (hp : Keeps S I p)
    (hw : I w) (h : S.Finishes p w r w') : I w' := by
  cases r with
  | ok a => exact wp_returns (hp w hw) h
  | error e => exact wp_raises (hp w hw) h

/-- A run of a sequence is a run of its first part, then of the rest. -/
theorem finishes_bind {p : Prog Op Res ε α} {f : α → Prog Op Res ε β} {b : β} {w' : W}
    (h : S.Finishes (p >>= f) w (.ok b) w') :
    ∃ a w₁, S.Finishes p w (.ok a) w₁ ∧ S.Finishes (f a) w₁ (.ok b) w' := by
  induction p generalizing w with
  | pure a => exact ⟨a, w, .refl, h⟩
  | throw e =>
    rcases Relation.ReflTransGen.cases_head h with h | ⟨_, hs, _⟩
    · cases h
    · cases hs
  | op o k ih =>
    rcases Relation.ReflTransGen.cases_head h with h | ⟨c, hs, hrest⟩
    · cases h
    · cases hs with
      | op hx =>
        obtain ⟨a, w₁, ha, hb⟩ := ih _ hrest
        exact ⟨a, w₁, .head (.op hx) ha, hb⟩

end Effect
