/-
Crash atomicity: whatever call was cut, construction succeeds, and recovers the
state before the call or the state the call would have committed.
-/
import EdgeFort.Deploy.Lifecycle

namespace EdgeFort
namespace Deploy

open Effect ABDeployer

/-! ## What recovery finds -/

/-- Construction over `w`, cut any number of times before it finishes in `w'`. -/
inductive Restart (D : ABDeployer) : World → World → Prop
  | finished {w w' : World} (order : Order) : sem.Finishes (D.construct order) w (.ok ()) w' →
      Restart D w w'
  | cut {w w₁ w' : World} (order : Order) : sem.CutAt (D.construct order) w w₁ →
      Restart D w₁ w' → Restart D w w'

/-- Every recorded slot verifies, and nothing else is left in the root. -/
structure Recovered (D : ABDeployer) (w : World) (st : DeploymentState) : Prop where
  populated : ∀ s v, st.slots.get s = some v → Verifies D (w.node (.slot s)) v
  unpopulated : ∀ s, st.slots.get s = none → w.node (.slot s) = .missing
  noBackup : ∀ s, w.node (.backup s) = .missing
  noCandidate : ∀ s, w.node (.candidate s) = .missing
  noJournal : w.node .pending = .missing

/-- A restart from `w` can finish, and ends in `st` however it goes. -/
structure RecoversTo (D : ABDeployer) (w : World) (st : DeploymentState) : Prop where
  finishes : ∃ w', Restart D w w'
  ends : ∀ w', Restart D w w' → durableState w' = some st ∧ Recovered D w' st

/-- The state a call would commit over `st`, if there is one. -/
def Request.commits (D : ABDeployer) (st : DeploymentState) : Request → Option DeploymentState
  | .deploy args =>
    match D.canonicalManifest args.version with
    | .ok m => some (st.committed args.version m.releaseSequence)
    | .error _ => none
  | .rollback _ => st.previousSlot.map st.rolledBack

/-- The commit of `new` has happened between `w` and `w₁`: `state.json` has been
renamed, or the anchor has advanced to the release. -/
def CommitReached (D : ABDeployer) (w w₁ : World) (new : DeploymentState) : Prop :=
  durableState w₁ = some new ∨
    D.anchored = true ∧ w.floor < w₁.floor ∧ w₁.floor = new.highestReleaseSequence

variable {D : ABDeployer} {P : Provenance} {s : Sys} {st L new : DeploymentState}
  {w w' w₁ : World} {req : Request}

theorem Settled.recovered (h : Settled D P w st) : Recovered D w st where
  populated s v hv := by
    have hs := h.slots s
    rw [hv] at hs
    exact hs.1
  unpopulated s hv := by
    have hs := h.slots s
    rw [hv] at hs
    exact hs.1
  noBackup := h.noBackup
  noCandidate := h.noCandidate
  noJournal := h.pending

theorem Restart.settled (h : Restart D w w') (hr : Recoverable D P w L) : Settled D P w' L := by
  induction h with
  | finished order hf => exact (wp_returns (wp_construct order hr) hf).1
  | cut order hc _ ih => exact ih (wp_cutAt (wp_construct order hr) hc).recoverable

theorem Recoverable.recoversTo (h : Recoverable D P w L) : RecoversTo D w L where
  finishes := by
    obtain ⟨_, w', hf, _⟩ := exists_returns (wp_construct ⟨.A, .A⟩ h)
    exact ⟨w', .finished ⟨.A, .A⟩ hf⟩
  ends w' hr :=
    ⟨(hr.settled h).toDurable.durableState, (hr.settled h).recovered⟩

theorem RecoversTo.unique (h : RecoversTo D w st) (h' : RecoversTo D w L) : st = L := by
  obtain ⟨w', hr⟩ := h.finishes
  exact Option.some.inj ((h.ends w' hr).1.symm.trans (h'.ends w' hr).1)

/-! ## What a call commits -/

/-- The logical state of a recoverable directory is well-formed. -/
theorem Recoverable.wellFormed (h : Recoverable D P w L) : L.WellFormed := by
  obtain ⟨w', hr⟩ := h.recoversTo.finishes
  exact (hr.settled h).wellFormed

theorem Request.Commits.commits (h : req.Commits D w st new) : req.commits D st = some new := by
  cases req with
  | deploy args =>
    obtain ⟨m, hadm, rfl⟩ := h
    simp [Request.commits, hadm.canonical]
  | rollback loadRuntime =>
    obtain ⟨s, hs, rfl⟩ := h
    simp [Request.commits, hs]

theorem Request.commits_generation (h : req.commits D st = some new) :
    new.generation = st.generation + 1 := by
  cases req with
  | deploy args =>
    simp only [Request.commits] at h
    split at h
    · obtain rfl := Option.some.inj h
      rfl
    · cases h
  | rollback loadRuntime =>
    obtain ⟨s, _, rfl⟩ := Option.map_eq_some_iff.mp h
    rfl

/-- A commit always changes the active slot. -/
theorem Request.commits_active (hwf : st.WellFormed) (h : req.commits D st = some new) :
    new.activeSlot ≠ st.activeSlot := by
  cases req with
  | deploy args =>
    simp only [Request.commits] at h
    split at h
    · obtain rfl := Option.some.inj h
      exact (Slot.inactive_ne st.activeSlot).symm
    · cases h
  | rollback loadRuntime =>
    obtain ⟨s, hs, rfl⟩ := Option.map_eq_some_iff.mp h
    intro heq
    have heq : some s = st.activeSlot := heq
    rcases hwf.distinct with hn | hne
    · exact nomatch heq.trans hn
    · exact hne (heq.symm.trans hs.symm)

theorem Request.commits_lifecycle (hwf : st.WellFormed) (h : req.commits D st = some new) :
    new.lifecycle ≠ st.lifecycle :=
  fun heq => Request.commits_active hwf h (congrArg Prod.fst heq)

/-- The state on disk is the logical state, or the one the anchored commit of the
logical state started from. -/
theorem Phase.generation_le (h : Phase D P w st L) : st.generation ≤ L.generation := by
  cases h with
  | quiet => exact Nat.le_refl _
  | prepared => exact Nat.le_refl _
  | advanced => exact Nat.le_succ _
  | committed => exact Nat.le_refl _

/-- A commit has been reached exactly when the call has come to its commit. -/
theorem Progress.reached_iff (hL : Recoverable D P w L) (hh : w.history ≠ [])
    (hr : Recoverable D P w₁ L') (hh₁ : w₁.history ≠ []) (hp : Progress D req w L w₁ L')
    (hnew : req.commits D L = some new) :
    L'.lifecycle = new.lifecycle ↔ CommitReached D w w₁ new := by
  obtain ⟨d, hd, hphase⟩ := hL.durable hh
  obtain ⟨d₁, hd₁, _⟩ := hr.durable hh₁
  obtain ⟨past, hpast⟩ := hd.history
  obtain ⟨past₁, hpast₁⟩ := hd₁.history
  have hgen := Request.commits_generation hnew
  have hne := Request.commits_lifecycle hL.wellFormed hnew
  have hnot : ∀ {x}, w₁.floor = w.floor → d₁ = x → x ≠ new → ¬CommitReached D w w₁ new := by
    rintro x hfl rfl hx (hdur | ⟨_, hlt, _⟩)
    · rw [hd₁.durableState] at hdur
      exact hx (Option.some.inj hdur)
    · exact Int.lt_irrefl _ (hfl ▸ hlt)
  cases hp with
  | same hhist hfl =>
    have heq : d₁ = d := by
      rw [hpast, hpast₁] at hhist
      exact (List.cons.inj hhist).1
    refine ⟨fun h => absurd h.symm hne, fun h => absurd h (hnot hfl heq fun hdn => ?_)⟩
    have := hphase.generation_le
    rw [hdn, hgen] at this
    omega
  | failed e _ hhist hfl =>
    have heq : d₁ = L.failed e := by
      rw [hpast₁] at hhist
      exact (List.cons.inj hhist).1
    refine ⟨fun h => absurd h.symm hne, fun h => absurd h (hnot hfl heq fun hdn => ?_)⟩
    exact hne (hdn ▸ rfl)
  | renamed hc hhist =>
    obtain rfl := Option.some.inj (hc.commits.symm.trans hnew)
    refine ⟨fun _ => Or.inl ?_, fun _ => rfl⟩
    rw [hpast₁] at hhist
    rw [hd₁.durableState, (List.cons.inj hhist).1]
  | advanced hc hhist ha hlt hfl =>
    obtain rfl := Option.some.inj (hc.commits.symm.trans hnew)
    exact ⟨fun _ => Or.inr ⟨ha, hlt, hfl⟩, fun _ => rfl⟩

theorem Progress.lifecycle (hp : Progress D req w L w₁ L') :
    L'.lifecycle = L.lifecycle ∨ ∃ new, req.commits D L = some new ∧
      L'.lifecycle = new.lifecycle := by
  cases hp with
  | same => exact Or.inl rfl
  | failed e => exact Or.inl rfl
  | renamed hc => exact Or.inr ⟨_, hc.commits, rfl⟩
  | advanced hc => exact Or.inr ⟨_, hc.commits, rfl⟩

/-! ## The theorem -/

/-- In every reachable state construction returns and cannot raise, and every
restart ends in the same state, with nothing left over.  A call cut at any of its
operations is recovered to the state before it or to the one it would have
committed, the latter exactly when its commit has been reached. -/
theorem crash_atomicity (h : (lifecycle D).Reachable s) :
    (∀ order, (∃ w', sem.Finishes (D.construct order) s.world (.ok ()) w') ∧
      ∀ e w', ¬sem.Finishes (D.construct order) s.world (.error e) w') ∧
    (∃ st, RecoversTo D s.world st) ∧
    (s.alive = true → ∀ (req : Request) (w₁ : World), sem.CutAt (req.program D) s.world w₁ →
      ∃ st st', RecoversTo D s.world st ∧
        (s.world.self.recoveryRequired = false → durableState s.world = some st) ∧
        RecoversTo D w₁ st' ∧
        (st'.lifecycle = st.lifecycle ∨
          ∃ new, req.commits D st = some new ∧ st'.lifecycle = new.lifecycle) ∧
        ∀ new, req.commits D st = some new →
          (st'.lifecycle = new.lifecycle ↔ CommitReached D s.world w₁ new)) := by
  have hinv := lifecycleInv_reachable h
  obtain ⟨L, hL⟩ := hinv.recoverable
  refine ⟨fun order => ⟨?_, fun e w' hf => (wp_raises (wp_construct order hL) hf).elim⟩,
    ⟨L, hL.recoversTo⟩, fun ha req w₁ hcut => ?_⟩
  · obtain ⟨_, w', hf, _⟩ := exists_returns (wp_construct order hL)
    exact ⟨w', hf⟩
  · obtain ⟨hh₁, L, L', hL, hdur, hr, hp⟩ := wp_cutAt (hinv.request ha req) hcut
    exact ⟨L, L', hL.recoversTo, hdur, hr.recoversTo, hp.lifecycle, fun new hnew =>
      hp.reached_iff (hL.mono fun _ _ hv => hv.mono) (hinv.started ha) hr hh₁ hnew⟩

theorem crash_atomicity_sample :
    ∃ st, RecoversTo (Sample.deployer true)
      (Sample.deployed true Sample.one (Sample.constructed true)) st :=
  (crash_atomicity (Sample.reachable_deployed Sample.one (Sample.reachable_constructed true))).2.1

end Deploy
end EdgeFort
