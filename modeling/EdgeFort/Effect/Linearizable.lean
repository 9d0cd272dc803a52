/-
Histories of concurrent calls and their sequential explanations.

A history lists the calls, the answers and the crashes in the order they happened.  An
explanation lists calls with their answers in the order in which they took effect: it holds
every call that has returned, possibly calls that have not, and respects the order of calls
that did not overlap.
-/
import Mathlib.Data.List.Nodup
import Mathlib.Data.List.Sublists

namespace Effect

/-- A sequential object: the answer of an operation and the next state. -/
structure SeqObject (A ρ V : Type) where
  step : V → A → ρ × V

/-- What is seen of a run.  `τ` are the threads and `π` the processes. -/
inductive Event (τ π A ρ : Type) where
  | call (id : Nat) (t : τ) (a : A)
  | ret (id : Nat) (r : ρ)
  | crash (q : π)

/-- A call that took effect, with its answer. -/
structure Effected (A ρ : Type) where
  id : Nat
  op : A
  answer : ρ

variable {τ π A ρ V : Type}

namespace SeqObject

variable (O : SeqObject A ρ V)

/-- The object gives these answers, one after the other. -/
def Replays (v : V) : List (Effected A ρ) → V → Prop
  | [], v' => v = v'
  | e :: lin, v' => (O.step v e.op).1 = e.answer ∧ Replays (O.step v e.op).2 lin v'

variable {O} {v v' : V} {lin lin' : List (Effected A ρ)}

theorem replays_append : O.Replays v (lin ++ lin') v' ↔
    ∃ m, O.Replays v lin m ∧ O.Replays m lin' v' := by
  induction lin generalizing v with
  | nil => exact ⟨fun h => ⟨v, rfl, h⟩, fun ⟨_, hm, h⟩ => hm ▸ h⟩
  | cons e lin ih =>
    simp only [List.cons_append, Replays, ih]
    constructor
    · rintro ⟨he, m, hm, h⟩
      exact ⟨m, ⟨he, hm⟩, h⟩
    · rintro ⟨m, ⟨he, hm⟩, h⟩
      exact ⟨he, m, hm, h⟩

/-- One more call takes effect. -/
theorem Replays.snoc (h : O.Replays v lin v') (id : Nat) (a : A) :
    O.Replays v (lin ++ [⟨id, a, (O.step v' a).1⟩]) (O.step v' a).2 :=
  replays_append.mpr ⟨v', h, rfl, rfl⟩

/-- What every step keeps, a replay keeps. -/
theorem Replays.rel {le : V → V → Prop} (hrefl : ∀ v, le v v)
    (htrans : ∀ {a b c}, le a b → le b c → le a c) (hstep : ∀ v a, le v (O.step v a).2)
    (h : O.Replays v lin v') : le v v' := by
  induction lin generalizing v with
  | nil => exact h ▸ hrefl v
  | cons e lin ih => exact htrans (hstep v e.op) (ih h.2)

/-- A call in a replay is a step from one state on the way to another. -/
theorem Replays.exists_step {e : Effected A ρ} (h : O.Replays v lin v') (he : e ∈ lin) :
    ∃ m pre post, O.Replays v pre m ∧ (O.step m e.op).1 = e.answer ∧
      O.Replays (O.step m e.op).2 post v' := by
  obtain ⟨pre, post, rfl⟩ := List.append_of_mem he
  obtain ⟨m, hpre, hanswer, hpost⟩ := replays_append.mp h
  exact ⟨m, pre, post, hpre, hanswer, hpost⟩

end SeqObject

/-- `lin` explains the history. -/
structure Linearizes (history : List (Event τ π A ρ)) (lin : List (Effected A ρ)) : Prop where
  distinct : (lin.map Effected.id).Nodup
  called : ∀ e ∈ lin, ∃ t, .call e.id t e.op ∈ history
  returned : ∀ id r, .ret id r ∈ history → ∃ a, ⟨id, a, r⟩ ∈ lin
  ordered : ∀ e ∈ lin, ∀ e' ∈ lin, ∀ r t a,
    [.ret e.id r, .call e'.id t a].Sublist history → [e, e'].Sublist lin

namespace Linearizes

variable {history : List (Event τ π A ρ)} {lin : List (Effected A ρ)}

theorem nil : Linearizes ([] : List (Event τ π A ρ)) ([] : List (Effected A ρ)) where
  distinct := List.nodup_nil
  called := nofun
  returned := nofun
  ordered := nofun

/-- Two events of a longer history are of the old one, or the last is the new one. -/
theorem pair_snoc {x y z : Event τ π A ρ} (h : [x, y].Sublist (history ++ [z])) :
    [x, y].Sublist history ∨ y = z := by
  obtain ⟨l₁, l₂, hsplit, h₁, h₂⟩ := List.sublist_append_iff.mp h
  rcases List.sublist_singleton.mp h₂ with rfl | rfl
  · exact Or.inl (by rwa [hsplit, List.append_nil])
  · have hlast : y = z := by simpa using congrArg List.getLast? hsplit
    exact Or.inr hlast

/-- An event that is no call and no answer of another call. -/
theorem snoc (h : Linearizes history lin) {x : Event τ π A ρ}
    (hcall : ∀ id t a, x = .call id t a → ∀ e ∈ lin, e.id ≠ id)
    (hret : ∀ id r, x = .ret id r → ∃ a, ⟨id, a, r⟩ ∈ lin) :
    Linearizes (history ++ [x]) lin where
  distinct := h.distinct
  called e he := (h.called e he).imp fun _ ht => List.mem_append_left _ ht
  returned id r hr := by
    rcases List.mem_append.mp hr with hr | hr
    · exact h.returned id r hr
    · exact hret id r (List.mem_singleton.mp hr).symm
  ordered e he e' he' r t a hsub := by
    rcases pair_snoc hsub with hsub | heq
    · exact h.ordered e he e' he' r t a hsub
    · exact absurd rfl (hcall _ t a heq.symm e' he')

/-- A call takes effect. -/
theorem effect (h : Linearizes history lin) {e : Effected A ρ} {t : τ}
    (hcall : .call e.id t e.op ∈ history) (hnew : ∀ e' ∈ lin, e'.id ≠ e.id) :
    Linearizes history (lin ++ [e]) where
  distinct := by
    rw [List.map_append, List.nodup_append]
    refine ⟨h.distinct, List.nodup_singleton _, ?_⟩
    rintro i hi j hj rfl
    obtain ⟨e', he', rfl⟩ := List.mem_map.mp hi
    exact hnew e' he' (List.mem_singleton.mp hj)
  called e' he' := by
    rcases List.mem_append.mp he' with he' | he'
    · exact h.called e' he'
    · exact List.mem_singleton.mp he' ▸ ⟨t, hcall⟩
  returned id r hr := (h.returned id r hr).imp fun _ ha => List.mem_append_left _ ha
  ordered e₁ he₁ e₂ he₂ r t' a hsub := by
    have hret : ∃ a, ⟨e₁.id, a, r⟩ ∈ lin := h.returned _ _ (hsub.subset List.mem_cons_self)
    have hold : e₁ ∈ lin := by
      rcases List.mem_append.mp he₁ with he₁ | he₁
      · exact he₁
      · obtain ⟨a, ha⟩ := hret
        exact absurd (congrArg Effected.id (List.mem_singleton.mp he₁)) (hnew ⟨e₁.id, a, r⟩ ha)
    rcases List.mem_append.mp he₂ with he₂ | he₂
    · exact (h.ordered e₁ hold e₂ he₂ r t' a hsub).trans (List.sublist_append_left _ _)
    · rw [List.mem_singleton.mp he₂]
      exact (List.singleton_sublist.mpr hold).append (List.Sublist.refl [e])

end Linearizes

end Effect
