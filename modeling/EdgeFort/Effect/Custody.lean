/-
Tokens in exclusive custody.

Several parties hold tokens, each token at most once over all parties.  A step
hands tokens over between two parties, or lets go of some.
-/
import Mathlib.Data.List.Nodup
import Mathlib.Data.List.Perm.Subperm

namespace Effect

variable {ι T : Type}

/-- No party holds a token twice, and no two parties hold the same token. -/
structure Exclusive (held : ι → List T) : Prop where
  nodup : ∀ i, (held i).Nodup
  unique : ∀ i j t, t ∈ held i → t ∈ held j → i = j

variable {held held' : ι → List T} {i j : ι}

theorem Exclusive.disjoint (h : Exclusive held) (hij : i ≠ j) : (held i).Disjoint (held j) :=
  fun t hi hj => hij (h.unique i j t hi hj)

/-- Two parties keep some of the tokens they had between them. -/
theorem Exclusive.exchange (h : Exclusive held) (hij : i ≠ j)
    (hsub : (held' i ++ held' j).Subperm (held i ++ held j))
    (hothers : ∀ k, k ≠ i → k ≠ j → held' k = held k) : Exclusive held' := by
  have hboth : (held i ++ held j).Nodup :=
    List.nodup_append'.mpr ⟨h.nodup i, h.nodup j, h.disjoint hij⟩
  have hboth' : (held' i ++ held' j).Nodup := by
    obtain ⟨l, hperm, hsubl⟩ := hsub
    exact hperm.nodup_iff.mp (hboth.sublist hsubl)
  obtain ⟨hi', hj', hdisj⟩ := List.nodup_append'.mp hboth'
  have hmem : ∀ t, t ∈ held' i ∨ t ∈ held' j → t ∈ held i ∨ t ∈ held j := fun t ht =>
    List.mem_append.mp (hsub.subset (List.mem_append.mpr ht))
  -- a third party holds none of them
  have hthird : ∀ k t, k ≠ i → k ≠ j → t ∈ held' k → t ∈ held' i ∨ t ∈ held' j → False := by
    intro k t hki hkj hk ht
    rw [hothers k hki hkj] at hk
    rcases hmem t ht with hti | htj
    · exact hki (h.unique k i t hk hti)
    · exact hkj (h.unique k j t hk htj)
  refine ⟨fun k => ?_, fun k l t hk hl => ?_⟩
  · by_cases hki : k = i
    · exact hki ▸ hi'
    · by_cases hkj : k = j
      · exact hkj ▸ hj'
      · rw [hothers k hki hkj]
        exact h.nodup k
  · by_cases hki : k = i
    · subst hki
      by_cases hli : l = k
      · exact hli.symm
      · by_cases hlj : l = j
        · subst hlj
          exact absurd hl (hdisj hk)
        · exact (hthird l t hli hlj hl (Or.inl hk)).elim
    · by_cases hkj : k = j
      · subst hkj
        by_cases hlj : l = k
        · exact hlj.symm
        · by_cases hli : l = i
          · subst hli
            exact absurd hk (hdisj hl)
          · exact (hthird l t hli hlj hl (Or.inr hk)).elim
      · by_cases hli : l = i
        · subst hli
          exact (hthird k t hki hkj hk (Or.inl hl)).elim
        · by_cases hlj : l = j
          · subst hlj
            exact (hthird k t hki hkj hk (Or.inr hl)).elim
          · rw [hothers k hki hkj] at hk
            rw [hothers l hli hlj] at hl
            exact h.unique k l t hk hl

/-- A party takes a token that nobody has held. -/
theorem Exclusive.take (h : Exclusive held) {t : T} (hfresh : ∀ k, t ∉ held k)
    (hi : held' i = t :: held i) (hothers : ∀ k, k ≠ i → held' k = held k) : Exclusive held' := by
  have hcases : ∀ k x, x ∈ held' k → x = t ∧ k = i ∨ x ≠ t ∧ x ∈ held k := by
    intro k x hx
    by_cases hki : k = i
    · subst hki
      rw [hi] at hx
      rcases List.mem_cons.mp hx with rfl | hx
      · exact Or.inl ⟨rfl, rfl⟩
      · exact Or.inr ⟨fun heq => hfresh k (heq ▸ hx), hx⟩
    · rw [hothers k hki] at hx
      exact Or.inr ⟨fun heq => hfresh k (heq ▸ hx), hx⟩
  refine ⟨fun k => ?_, fun k l x hk hl => ?_⟩
  · by_cases hki : k = i
    · subst hki
      rw [hi]
      exact List.nodup_cons.mpr ⟨hfresh k, h.nodup k⟩
    · rw [hothers k hki]
      exact h.nodup k
  · rcases hcases k x hk with ⟨hxt, hki⟩ | ⟨hxt, hk⟩
    · rcases hcases l x hl with ⟨_, hli⟩ | ⟨hne, _⟩
      · exact hki.trans hli.symm
      · exact absurd hxt hne
    · rcases hcases l x hl with ⟨heq, _⟩ | ⟨_, hl⟩
      · exact absurd heq hxt
      · exact h.unique k l x hk hl

end Effect
