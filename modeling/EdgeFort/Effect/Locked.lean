/-
Parties that share a state under one lock.

Each party runs programs whose operations take the lock, give it back, or act on
the state.  A party may crash between any two operations; the lock is then free
again, and what it has done to the state stays.  Outside the lock a party only does
what no holder of the lock can see.

`Safe` is the discipline of one program: it keeps an invariant at every step it
takes under the lock, and if it raises it has not changed what `view` shows of the
state.  A program whose work is one section under the lock is safe if the section
has a weakest precondition for the invariant (`Safe.locked`).
-/
import EdgeFort.Effect.Frame
import EdgeFort.Effect.System
import Mathlib.Logic.Function.Basic

namespace Effect

inductive LockOp (Op : Type) where
  | acquire
  | release
  | act (o : Op)

@[reducible] def LockOp.Res {Op : Type} (Res : Op → Type) : LockOp Op → Type
  | .acquire | .release => Unit
  | .act o => Res o

/-- What a party runs. -/
abbrev Party (Op : Type) (Res : Op → Type) (ε α : Type) := Prog (LockOp Op) (LockOp.Res Res) ε α

variable {Op : Type} {Res : Op → Type} {ε α β W V ι : Type}

namespace Party

/-- A program that does not touch the lock. -/
def lift : Prog Op Res ε α → Party Op Res ε α
  | .pure a => .pure a
  | .throw e => .throw e
  | .op o k => .op (.act o) fun r => lift (k r)

/-- `with lock: p` -/
def locked (p : Prog Op Res ε α) : Party Op Res ε α := do
  Prog.perform LockOp.acquire
  (lift p).finally' (Prog.perform LockOp.release)

/-- What a party does while nobody else wants the lock. -/
def solo {W : Type} (S : Sem Op Res ε W) : Sem (LockOp Op) (LockOp.Res Res) ε W where
  exec
    | .acquire, w => (.ok (), w)
    | .release, w => (.ok (), w)
    | .act o, w => S.exec o w
  fault _ _ _ := False

theorem solo_lift {W : Type} (S : Sem Op Res ε W) (p : Prog Op Res ε α) (w : W) :
    (solo S).run (lift p) w = S.run p w := by
  induction p generalizing w with
  | pure a => rfl
  | throw e => rfl
  | op o k ih => exact ih _ _

theorem solo_locked {W : Type} (S : Sem Op Res ε W) (p : Prog Op Res ε α) (w : W) :
    (solo S).run (locked p) w = S.run p w := by
  have hfinally : (solo S).run ((lift p).finally' (Prog.perform LockOp.release)) w = S.run p w := by
    rw [← solo_lift S p w]
    induction lift p generalizing w with
    | pure a => rfl
    | throw e => rfl
    | op o k ih => exact ih _ _
  exact hfinally

end Party

/-- The parties and the state they share. -/
structure Shared (ι Op : Type) (Res : Op → Type) (ε α W : Type) where
  world : W
  holder : Option ι
  /-- the state when the lock was last taken -/
  since : W
  /-- what each party has left to run, none between two programs -/
  run : ι → Option (Party Op Res ε α)
  /-- whether the program a party runs has changed what `view` shows -/
  changed : ι → Prop

namespace Shared

variable [DecidableEq ι] (S : Sem Op Res ε W) (view : W → V)
  (calls : ι → Party Op Res ε α → Prop)

def goto (s : Shared ι Op Res ε α W) (i : ι) (p : Option (Party Op Res ε α)) :
    Shared ι Op Res ε α W :=
  { s with run := Function.update s.run i p }

/-- One step of one party. -/
inductive Step : Shared ι Op Res ε α W → Shared ι Op Res ε α W → Prop
  | start {s i p} : s.run i = none → calls i p →
      Step s { s.goto i (some p) with changed := Function.update s.changed i False }
  | acquire {s i k} : s.run i = some (.op .acquire k) → s.holder = none →
      Step s { s.goto i (some (k (.ok ()))) with holder := some i, since := s.world }
  | refused {s i k} (e : ε) : s.run i = some (.op .acquire k) →
      Step s (s.goto i (some (k (.error e))))
  | release {s i k} : s.run i = some (.op .release k) →
      Step s { s.goto i (some (k (.ok ()))) with
        holder := none
        changed := Function.update s.changed i (s.changed i ∨ view s.world ≠ view s.since) }
  | act {s i o k} {x : Except ε (Res o) × W} : s.run i = some (.op (.act o) k) →
      S.Outcome o s.world x → Step s { s.goto i (some (k x.1)) with world := x.2 }
  | finish {s i} (r : Except ε α) : s.run i = some (.ofExcept r) → Step s (s.goto i none)
  | crash {s i p} : s.run i = some p →
      Step s { s.goto i none with holder := if s.holder = some i then none else s.holder }

def system (initial : W → Prop) : System (Shared ι Op Res ε α W) where
  initial s := initial s.world ∧ s.holder = none ∧ ∀ i, s.run i = none
  step := Step S view calls

end Shared

/-! ## The discipline of one program -/

variable (S : Sem Op Res ε W) (view : W → V) (I : W → Prop)

/-- A change of the state that a holder of the lock cannot see. -/
structure Unseen (rel : W → W → Prop) : Prop where
  keeps : ∀ {w w'}, rel w w' → I w → I w'
  shows : ∀ {w w'}, rel w w' → view w = view w'
  answers : ∀ {o w w' x'}, rel w w' → S.Outcome o w' x' →
    ∃ x, S.Outcome o w x ∧ x.1 = x'.1 ∧ rel x.2 x'.2

variable (rel : W → W → Prop)

/-- An operation that may be performed outside the lock. -/
def Quiet (o : Op) : Prop := ∀ w x, S.Outcome o w x → rel w x.2

/-- What is left of a program is safe: outside the lock, or under it with the state
when the lock was taken and the state now.  `c` says whether the program has
changed anything so far. -/
def Safe : Party Op Res ε α → Option (W × W) → Prop → Prop
  | .pure _, none, _ => True
  | .throw _, none, c => ¬c
  | .op .acquire k, none, c =>
    (∀ w, I w → Safe (k (.ok ())) (some (w, w)) c) ∧ ∀ e, Safe (k (.error e)) none c
  | .op (.act o) k, none, c => Quiet S rel o ∧ ∀ r, Safe (k r) none c
  | .op .release k, some (w₀, w), c => Safe (k (.ok ())) none (c ∨ view w ≠ view w₀)
  | .op (.act o) k, some (w₀, w), c =>
    ∀ x, S.Outcome o w x → I x.2 ∧ Safe (k x.1) (some (w₀, x.2)) c
  | _, _, _ => False

variable {S view I rel}

/-- What a party does outside the lock does not disturb the one under it. -/
theorem Safe.unseen (hrel : Unseen S view I rel) {p : Party Op Res ε α} {w₀ w w' : W} {c : Prop}
    (h : Safe S view I rel p (some (w₀, w)) c) (hw : rel w w') :
    Safe S view I rel p (some (w₀, w')) c := by
  induction p generalizing w w' with
  | pure a => exact h
  | throw e => exact h
  | op o k ih =>
    cases o with
    | acquire => exact h
    | release =>
      show Safe S view I rel (k (.ok ())) none (c ∨ view w' ≠ view w₀)
      rw [← hrel.shows hw]
      exact h
    | act o =>
      intro x' hx'
      obtain ⟨x, hx, hr, hx2⟩ := hrel.answers hw hx'
      obtain ⟨hI, hsafe⟩ := h x hx
      refine ⟨hrel.keeps hx2 hI, ?_⟩
      rw [← hr]
      exact ih _ hsafe hx2

/-- A program that only acts outside the lock, before one that is safe. -/
theorem Safe.bind {p : Prog Op Res ε α} {f : α → Party Op Res ε β} {post : α → Prop} {c : Prop}
    (hc : ¬c) (hp : p.All (Quiet S rel)) (hpost : p.Returns post)
    (hf : ∀ a, post a → Safe S view I rel (f a) none c) :
    Safe S view I rel (Party.lift p >>= f) none c := by
  induction p with
  | pure a => exact hf a hpost
  | throw e => exact hc
  | op o k ih => exact ⟨hp.1, fun r => ih r (hp.2 r) (hpost r)⟩

/-- A section that keeps the invariant, and that changes nothing if it raises. -/
theorem Safe.locked {p : Prog Op Res ε α} {f : α → Party Op Res ε β} {c : Prop} (hc : ¬c)
    (hp : ∀ w₀, I w₀ → wp S p (fun _ _ => True) (fun _ w => view w = view w₀) I w₀)
    (hf : ∀ a c, Safe S view I rel (f a) none c) :
    Safe S view I rel (Party.locked p >>= f) none c := by
  refine ⟨fun w₀ hw₀ => ?_, fun e => hc⟩
  have hsection : ∀ (q : Prog Op Res ε α) (w : W),
      wp S q (fun _ _ => True) (fun _ w => view w = view w₀) I w →
      Safe S view I rel ((Party.lift q).finally' (Prog.perform LockOp.release) >>= f)
        (some (w₀, w)) c := by
    intro q w hw
    induction q generalizing w with
    | pure a => exact hf a _
    | throw e => exact not_or.mpr ⟨hc, not_not.mpr hw.2⟩
    | op o k ih =>
      intro x hx
      have hnext := hw.2 x hx
      exact ⟨wp_crash hnext, ih x.1 _ hnext⟩
  exact hsection p w₀ (hp w₀ hw₀)

/-! ## Every reachable state -/

namespace Shared

variable [DecidableEq ι] {calls : ι → Party Op Res ε α → Prop} {initial : W → Prop}

/-- The state under the lock, as party `i` sees it. -/
def under (s : Shared ι Op Res ε α W) (i : ι) : Option (W × W) :=
  if s.holder = some i then some (s.since, s.world) else none

/-- What every step keeps: the invariant, and that each party is safe. -/
structure Kept (S : Sem Op Res ε W) (view : W → V) (I : W → Prop) (rel : W → W → Prop)
    (s : Shared ι Op Res ε α W) : Prop where
  holds : I s.world
  safe : ∀ i p, s.run i = some p → Safe S view I rel p (s.under i) (s.changed i)
  held : ∀ i, s.holder = some i → s.run i ≠ none

variable {s t : Shared ι Op Res ε α W} {i j : ι}

theorem under_self (h : s.holder = some i) : s.under i = some (s.since, s.world) := if_pos h

theorem under_none (h : s.holder ≠ some i) : s.under i = none := if_neg h

/-- Two states agree on what party `j` sees under the lock. -/
theorem under_congr (hholder : t.holder = some j ↔ s.holder = some j)
    (hsame : s.holder = some j → t.since = s.since ∧ t.world = s.world) :
    t.under j = s.under j := by
  by_cases h : s.holder = some j
  · rw [under_self h, under_self (hholder.mpr h), (hsame h).1, (hsame h).2]
  · rw [under_none h, under_none fun ht => h (hholder.mp ht)]

/-- One party goes on; the others are where they were. -/
theorem Kept.of_goto (h : Kept S view I rel s) (hrun : ∀ j, j ≠ i → t.run j = s.run j)
    (hchanged : ∀ j, j ≠ i → t.changed j = s.changed j) (hworld : I t.world)
    (hself : ∀ p, t.run i = some p → Safe S view I rel p (t.under i) (t.changed i))
    (hothers : ∀ j (p : Party Op Res ε α), j ≠ i → Safe S view I rel p (s.under j) (s.changed j) →
      Safe S view I rel p (t.under j) (s.changed j))
    (hheld : ∀ j, t.holder = some j → j ≠ i ∧ s.holder = some j ∨ j = i ∧ t.run i ≠ none) :
    Kept S view I rel t where
  holds := hworld
  safe := by
    intro j p hp
    by_cases hj : j = i
    · subst hj
      exact hself p hp
    · rw [hchanged j hj]
      exact hothers j p hj (h.safe j p (hrun j hj ▸ hp))
  held := by
    intro j hj
    rcases hheld j hj with ⟨hne, hs⟩ | ⟨rfl, hne⟩
    · rw [hrun j hne]
      exact h.held j hs
    · exact hne

@[simp] theorem goto_run (p : Option (Party Op Res ε α)) :
    (s.goto i p).run = Function.update s.run i p := rfl

/-- A party goes on without touching lock or state. -/
theorem Kept.goto (h : Kept S view I rel s) {p : Option (Party Op Res ε α)} {c : Prop}
    (hp : ∀ q, p = some q → Safe S view I rel q (s.under i) c)
    (hnone : p = none → s.holder ≠ some i) :
    Kept S view I rel { s.goto i p with changed := Function.update s.changed i c } := by
  refine h.of_goto (i := i) (fun j hj => ?_) (fun j hj => ?_) h.holds (fun q hq => ?_)
    (fun j q _ hq => hq) fun j hj => ?_
  · exact Function.update_of_ne hj _ _
  · exact Function.update_of_ne hj _ _
  · simp only [goto_run, Function.update_self] at hq ⊢
    exact hp q hq
  · by_cases hji : j = i
    · subst hji
      refine Or.inr ⟨rfl, ?_⟩
      simp only [goto_run, Function.update_self]
      exact fun hp => hnone hp hj
    · exact Or.inl ⟨hji, hj⟩

theorem Kept.step (hrel : Unseen S view I rel)
    (hcalls : ∀ i p, calls i p → Safe S view I rel p none False) (h : Kept S view I rel s)
    (hs : Step S view calls s t) : Kept S view I rel t := by
  cases hs with
  | start hidle hp =>
    rename_i i p
    have hfree : s.holder ≠ some i := fun hi => h.held i hi hidle
    refine h.goto (fun q hq => ?_) (fun hq => absurd hq (Option.some_ne_none p))
    rw [under_none hfree]
    exact Option.some.inj hq ▸ hcalls i p hp
  | acquire hrun hfree =>
    rename_i i k
    have hsafe := h.safe i _ hrun
    rw [under_none (by simp [hfree])] at hsafe
    refine h.of_goto (i := i) (fun j hj => Function.update_of_ne hj _ _) (fun _ _ => rfl) h.holds
      (fun p hp => ?_) (fun j p hj hp => ?_) fun j hj => ?_
    · simp only [goto_run, Function.update_self, Option.some.injEq] at hp
      rw [under_self rfl, ← hp]
      exact hsafe.1 _ h.holds
    · rw [under_none fun hi => hj (Option.some.inj hi).symm]
      rwa [under_none (by simp [hfree])] at hp
    · exact Or.inr ⟨(Option.some.inj hj).symm, by simp⟩
  | refused e hrun =>
    rename_i i k
    have hsafe := h.safe i _ hrun
    have hfree : s.holder ≠ some i := fun hi => by
      rw [under_self hi] at hsafe
      exact hsafe
    rw [under_none hfree] at hsafe
    have hgo := h.goto (i := i) (p := some (k (.error e))) (c := s.changed i)
      (fun q hq => by
        rw [under_none hfree]
        exact Option.some.inj hq ▸ hsafe.2 e)
      (fun hq => absurd hq (Option.some_ne_none _))
    rwa [Function.update_eq_self] at hgo
  | release hrun =>
    rename_i i k
    have hsafe := h.safe i _ hrun
    have hheld : s.holder = some i := by
      by_contra hi
      rw [under_none hi] at hsafe
      exact hsafe
    rw [under_self hheld] at hsafe
    refine h.of_goto (i := i) (fun j hj => Function.update_of_ne hj _ _)
      (fun j hj => Function.update_of_ne hj _ _) h.holds (fun p hp => ?_) (fun j p hj hp => ?_)
      fun j hj => ?_
    · simp only [goto_run, Function.update_self, Option.some.injEq] at hp
      rw [under_none (by simp), ← hp]
      simp only [Function.update_self]
      exact hsafe
    · rw [under_none (by simp)]
      rwa [under_none fun hi => hj (Option.some.inj (hi.symm.trans hheld))] at hp
    · cases hj
  | act hrun hx =>
    rename_i i o k x
    have hsafe := h.safe i _ hrun
    have hunder : ∀ j, ({ s.goto i (some (k x.1)) with world := x.2 } :
        Shared ι Op Res ε α W).under j =
          if s.holder = some j then some (s.since, x.2) else none := fun _ => rfl
    by_cases hheld : s.holder = some i
    · rw [under_self hheld] at hsafe
      obtain ⟨hI, hsafe⟩ := hsafe x hx
      refine h.of_goto (i := i) (fun j hj => Function.update_of_ne hj _ _) (fun _ _ => rfl) hI
        (fun p hp => ?_) (fun j p hj hp => ?_) fun j hj => ?_
      · simp only [goto_run, Function.update_self, Option.some.injEq] at hp
        rw [hunder, if_pos hheld, ← hp]
        exact hsafe
      · have hne : s.holder ≠ some j := fun hi => hj (Option.some.inj (hi.symm.trans hheld))
        rw [hunder, if_neg hne]
        rwa [under_none hne] at hp
      · exact Or.inr ⟨Option.some.inj (hj.symm.trans hheld), by simp⟩
    · rw [under_none hheld] at hsafe
      have hunseen := hsafe.1 _ x hx
      refine h.of_goto (i := i) (fun j hj => Function.update_of_ne hj _ _) (fun _ _ => rfl)
        (hrel.keeps hunseen h.holds) (fun p hp => ?_) (fun j p hj hp => ?_) fun j hj => ?_
      · simp only [goto_run, Function.update_self, Option.some.injEq] at hp
        rw [hunder, if_neg hheld, ← hp]
        exact hsafe.2 x.1
      · by_cases hholder : s.holder = some j
        · rw [under_self hholder] at hp
          rw [hunder, if_pos hholder]
          exact hp.unseen hrel hunseen
        · rw [hunder, if_neg hholder]
          rwa [under_none hholder] at hp
      · exact Or.inl ⟨fun hji => hheld (hji ▸ hj), hj⟩
  | finish r hrun =>
    rename_i i
    have hsafe := h.safe i _ hrun
    have hfree : s.holder ≠ some i := fun hi => by
      rw [under_self hi] at hsafe
      cases r <;> exact hsafe
    have hgo := h.goto (i := i) (p := none) (c := s.changed i) (fun q hq => nomatch hq)
      fun _ => hfree
    rwa [Function.update_eq_self] at hgo
  | crash hrun =>
    rename_i i p
    refine h.of_goto (i := i) (fun j hj => Function.update_of_ne hj _ _) (fun _ _ => rfl) h.holds
      (fun q hq => ?_) (fun j q hj hq => ?_) fun j hj => ?_
    · simp at hq
    · have hsame : ({ s.goto i none with
          holder := if s.holder = some i then none else s.holder } :
            Shared ι Op Res ε α W).under j = s.under j := by
        refine under_congr ?_ fun _ => ⟨rfl, rfl⟩
        have hij : ¬i = j := fun h => hj h.symm
        by_cases hi : s.holder = some i
        · simp [hi, hij]
        · simp [hi]
      rwa [hsame]
    · by_cases hi : s.holder = some i
      · simp [hi] at hj
      · simp only [hi, if_false] at hj
        exact Or.inl ⟨fun hji => hi (hji ▸ hj), hj⟩

theorem kept_of_reachable (hrel : Unseen S view I rel)
    (hcalls : ∀ i p, calls i p → Safe S view I rel p none False)
    (hinit : ∀ w, initial w → I w) (hs : (system S view calls initial).Reachable s) :
    Kept S view I rel s := by
  refine System.invariant (Kept S view I rel) (fun s hs => ?_) (fun s t h hst => ?_) hs
  · obtain ⟨hw, hfree, hidle⟩ := hs
    refine ⟨hinit _ hw, fun i p hp => ?_, fun i hi => ?_⟩
    · rw [hidle i] at hp
      cases hp
    · rw [hfree] at hi
      cases hi
  · exact h.step hrel hcalls hst

/-- While the others rest, a party runs its program to the end. -/
theorem reaches_end (hrel : Unseen S view I rel)
    (hcalls : ∀ i p, calls i p → Safe S view I rel p none False)
    (hinit : ∀ w, initial w → I w) (hs : (system S view calls initial).Reachable s)
    {p : Party Op Res ε α} (hrun : s.run i = some p)
    (hfree : s.holder = none ∨ s.holder = some i) :
    ∃ t, (system S view calls initial).Reachable t ∧
      t.run i = some (.ofExcept ((Party.solo S).run p s.world).1) ∧
      t.world = ((Party.solo S).run p s.world).2 := by
  induction p generalizing s with
  | pure a => exact ⟨s, hs, hrun, rfl⟩
  | throw e => exact ⟨s, hs, hrun, rfl⟩
  | op o k ih =>
    cases o with
    | acquire =>
      have hnone : s.holder = none := hfree.resolve_right fun hi => by
        have hsafe := (kept_of_reachable hrel hcalls hinit hs).safe i _ hrun
        rw [under_self hi] at hsafe
        exact hsafe
      have hstep : (system S view calls initial).step s _ := Step.acquire hrun hnone
      have hend := ih _ (.step hs hstep) (Function.update_self ..) (Or.inr rfl)
      exact hend
    | release =>
      have hstep : (system S view calls initial).step s _ := Step.release hrun
      have hend := ih _ (.step hs hstep) (Function.update_self ..) (Or.inl rfl)
      exact hend
    | act o =>
      have hstep : (system S view calls initial).step s _ := Step.act hrun (Or.inl rfl)
      have hend := ih _ (.step hs hstep) (Function.update_self ..) hfree
      exact hend

/-- A program about to raise has changed nothing that shows. -/
theorem not_changed_of_raise (h : Kept S view I rel s) {e : ε}
    (hrun : s.run i = some (.throw e)) : ¬s.changed i := by
  have hsafe := h.safe i _ hrun
  cases hu : s.under i with
  | none =>
    rw [hu] at hsafe
    exact hsafe
  | some p =>
    rw [hu] at hsafe
    exact hsafe.elim

end Shared

end Effect
