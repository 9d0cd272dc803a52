/-
Inversion of computations that may raise.
-/

namespace Effect

variable {ε α β : Type}

theorem bind_eq_ok {x : Except ε α} {f : α → Except ε β} {b : β} :
    (x >>= f) = .ok b ↔ ∃ a, x = .ok a ∧ f a = .ok b := by
  cases x with
  | error e =>
    constructor
    · intro h
      cases h
    · rintro ⟨_, h, _⟩
      cases h
  | ok a =>
    constructor
    · exact fun h => ⟨a, rfl, h⟩
    · rintro ⟨_, ha, h⟩
      cases ha
      exact h

theorem pure_eq_ok {a b : α} : (pure a : Except ε α) = .ok b ↔ a = b :=
  ⟨Except.ok.inj, congrArg _⟩

theorem map_eq_ok {x : Except ε α} {f : α → β} {b : β} :
    x.map f = .ok b ↔ ∃ a, x = .ok a ∧ f a = b := by
  cases x with
  | error e => exact ⟨nofun, fun ⟨a, h, _⟩ => nomatch h⟩
  | ok a =>
    constructor
    · intro h
      exact ⟨a, rfl, Except.ok.inj h⟩
    · rintro ⟨a', ha, rfl⟩
      rw [Except.ok.inj ha]
      rfl

theorem error_ne_ok {e : ε} {a : α} : (.error e : Except ε α) ≠ .ok a := nofun

theorem ok_ne_error {e : ε} {a : α} : (.ok a : Except ε α) ≠ .error e := nofun

theorem ok_bind {a : α} {f : α → Except ε β} : (Except.ok a >>= f) = f a := rfl

theorem error_bind {e : ε} {f : α → Except ε β} : (Except.error e >>= f) = .error e := rfl

/-- What a computation may raise. -/
def RaisesOnly (P : ε → Prop) (x : Except ε α) : Prop := ∀ e, x = .error e → P e

theorem raisesOnly_ok {P : ε → Prop} {a : α} : RaisesOnly P (.ok a : Except ε α) := nofun

theorem raisesOnly_error {P : ε → Prop} {e : ε} : RaisesOnly P (.error e : Except ε α) ↔ P e :=
  ⟨fun h => h e rfl, fun h _ he => Except.error.inj he ▸ h⟩

theorem raisesOnly_bind {P : ε → Prop} {x : Except ε α} {f : α → Except ε β} :
    RaisesOnly P (x >>= f) ↔ RaisesOnly P x ∧ ∀ a, x = .ok a → RaisesOnly P (f a) := by
  cases x with
  | error e =>
    rw [error_bind, raisesOnly_error, raisesOnly_error]
    exact ⟨fun h => ⟨h, nofun⟩, And.left⟩
  | ok a =>
    rw [ok_bind]
    exact ⟨fun h => ⟨raisesOnly_ok, fun _ ha => Except.ok.inj ha ▸ h⟩, fun h => h.2 a rfl⟩

theorem exists_ok {x : Except ε α} (h : x.isOk = true) : ∃ a, x = .ok a := by
  cases x with
  | error e => cases h
  | ok a => exact ⟨a, rfl⟩

/-- A loop whose body returns `g a` under the condition `P a`. -/
theorem mapM_eq_ok {f : α → Except ε β} {g : α → β} {P : α → Prop} {l : List α}
    (hf : ∀ a ∈ l, ∀ b, f a = .ok b ↔ P a ∧ b = g a) {out : List β} :
    l.mapM f = .ok out ↔ (∀ a ∈ l, P a) ∧ out = l.map g := by
  induction l generalizing out with
  | nil =>
    rw [List.mapM_nil, pure_eq_ok]
    exact ⟨fun h => ⟨(fun a ha => by cases ha), h.symm⟩, fun h => h.2.symm⟩
  | cons a l ih =>
    have hl : ∀ bs, l.mapM f = .ok bs ↔ (∀ a ∈ l, P a) ∧ bs = l.map g := fun _ =>
      ih fun a' ha' => hf a' (List.mem_cons_of_mem a ha')
    rw [List.mapM_cons, bind_eq_ok, List.forall_mem_cons, List.map_cons]
    constructor
    · rintro ⟨b, hb, h⟩
      obtain ⟨bs, hbs, h⟩ := bind_eq_ok.mp h
      obtain rfl := pure_eq_ok.mp h
      obtain ⟨hpa, rfl⟩ := (hf a List.mem_cons_self b).mp hb
      obtain ⟨hpl, rfl⟩ := (hl bs).mp hbs
      exact ⟨⟨hpa, hpl⟩, rfl⟩
    · rintro ⟨⟨hpa, hpl⟩, rfl⟩
      exact ⟨g a, (hf a List.mem_cons_self _).mpr ⟨hpa, rfl⟩,
        bind_eq_ok.mpr ⟨l.map g, (hl _).mpr ⟨hpl, rfl⟩, rfl⟩⟩

end Effect
