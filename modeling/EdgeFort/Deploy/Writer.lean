/-
The writer of a deployment directory, one operation at a time.

Wherever it is in a call or in its construction, a kill there would leave the disk as it is.  So
what holds in every state of a lifecycle holds at every point of a call.
-/
import EdgeFort.Deploy.AntiRollback

namespace EdgeFort
namespace Deploy

open Effect ABDeployer

/-- A lifecycle, and what is left of the call or the construction under way. -/
structure Writer where
  sys : Sys
  rest : Option (Cmd Unit)

/-- A later state has the greater generation. -/
theorem Lineage.generations {D : ABDeployer} {P : Provenance} {states : List DeploymentState}
    (h : Lineage D P states) :
    states.Pairwise fun newer older => older.generation < newer.generation := by
  induction h with
  | initial => exact List.pairwise_singleton _ _
  | step hl hs ih =>
    have hnext := (Lineage.step hl hs).generation_lt
    refine List.pairwise_cons.mpr ⟨fun older holder => ?_, ih⟩
    rcases List.mem_cons.mp holder with rfl | hmem
    · omega
    · have hlt := List.rel_of_pairwise_cons ih hmem
      omega

namespace Writer

inductive Step (D : ABDeployer) : Writer → Writer → Prop
  | construct {s : Writer} (order : Order) : s.rest = none → s.sys.alive = false →
      Step D s ⟨s.sys, some (D.construct order)⟩
  | call {s : Writer} (req : Request) : s.rest = none → s.sys.alive = true →
      Step D s ⟨{ s.sys with calls := req.logged s.sys.world ++ s.sys.calls }, some (req.program D)⟩
  | act {s : Writer} {p q : Cmd Unit} {w : World} : s.rest = some p →
      sem.Step (p, s.sys.world) (q, w) → Step D s ⟨{ s.sys with world := w }, some q⟩
  | done {s : Writer} (r : Except PyError Unit) : s.rest = some (.ofExcept r) →
      Step D s ⟨{ s.sys with alive := s.sys.alive || r.isOk }, none⟩
  | killed {s : Writer} : Step D s ⟨{ s.sys with alive := false }, none⟩

/-- The program under way was started in a state of a lifecycle. -/
inductive Underway (D : ABDeployer) (s : Sys) (q : Cmd Unit) : Prop
  | construct {s₀ : Sys} {order : Order} : (lifecycle D).Reachable s₀ → s₀.alive = false →
      sem.Steps (D.construct order, s₀.world) (q, s.world) → s = { s₀ with world := s.world } →
      Underway D s q
  | call {s₀ : Sys} {req : Request} : (lifecycle D).Reachable s₀ → s₀.alive = true →
      sem.Steps (req.program D, s₀.world) (q, s.world) →
      s = ⟨s.world, true, req.logged s₀.world ++ s₀.calls⟩ → Underway D s q

/-- The writer is in a state of a lifecycle, or on the way from one to the next. -/
def Inv (D : ABDeployer) (s : Writer) : Prop :=
  match s.rest with
  | none => (lifecycle D).Reachable s.sys
  | some q => Underway D s.sys q

variable {D : ABDeployer} {s s' : Writer} {P : Provenance}

theorem Underway.killed {s : Sys} {q : Cmd Unit} (h : Underway D s q) :
    (lifecycle D).Reachable { s with alive := false } := by
  cases h with
  | construct hreach hdead hsteps heq =>
    rw [heq]
    rename_i s₀ order
    obtain ⟨w, alive, calls⟩ := s₀
    obtain rfl : alive = false := hdead
    exact .step hreach (.constructCut rfl ⟨q, hsteps⟩)
  | call hreach halive hsteps heq =>
    rw [heq]
    exact .step hreach (.cut halive ⟨q, hsteps⟩)

theorem Underway.done {s : Sys} {r : Except PyError Unit} (h : Underway D s (.ofExcept r)) :
    (lifecycle D).Reachable { s with alive := s.alive || r.isOk } := by
  cases h with
  | construct hreach hdead hsteps heq =>
    rw [heq]
    rename_i s₀ order
    obtain ⟨w, alive, calls⟩ := s₀
    obtain rfl : alive = false := hdead
    cases r with
    | ok a => exact .step hreach (.constructed rfl hsteps)
    | error e => exact .step hreach (.constructRaised rfl hsteps)
  | call hreach halive hsteps heq =>
    rw [heq]
    exact .step hreach (.answered halive hsteps)

theorem reachable_killed {s : Sys} (h : (lifecycle D).Reachable s) :
    (lifecycle D).Reachable { s with alive := false } := by
  obtain ⟨w, alive, calls⟩ := s
  cases alive with
  | false => exact h
  | true =>
    -- a rollback killed before its first operation
    let req : Request := .rollback fun _ _ => .ok ()
    have hcut : sem.CutAt (req.program D) w w := ⟨_, Relation.ReflTransGen.refl⟩
    have hstep : LifecycleStep D ⟨w, true, calls⟩ ⟨w, false, req.logged w ++ calls⟩ :=
      .cut rfl hcut
    exact .step h hstep

theorem Inv.killed (h : Inv D s) : (lifecycle D).Reachable { s.sys with alive := false } := by
  unfold Inv at h
  split at h
  · exact reachable_killed h
  · exact h.killed

theorem Inv.step (h : Inv D s) (hs : Step D s s') : Inv D s' := by
  cases hs with
  | construct order hrest hdead =>
    unfold Inv at h
    rw [hrest] at h
    exact .construct h hdead Relation.ReflTransGen.refl rfl
  | call req hrest halive =>
    unfold Inv at h
    rw [hrest] at h
    exact .call h halive Relation.ReflTransGen.refl (by rw [← halive])
  | act hrest hstep =>
    unfold Inv at h
    rw [hrest] at h
    cases h with
    | construct hreach hdead hsteps heq =>
      refine .construct hreach hdead (hsteps.tail hstep) ?_
      rw [heq]
    | call hreach halive hsteps heq =>
      refine .call hreach halive (hsteps.tail hstep) ?_
      rw [heq]
  | done r hrest =>
    unfold Inv at h
    rw [hrest] at h
    exact h.done
  | killed => exact h.killed

/-! ## What readers see -/

/-- At every point `state.json` holds the newest state of the history, and each state of the
history has the generation after that of the one before. -/
theorem Inv.history (h : Inv D s) : durableState s.sys.world = s.sys.world.history.head? ∧
    s.sys.world.history.Pairwise fun newer older => older.generation < newer.generation := by
  obtain ⟨L, hrec⟩ := (lifecycleInv_reachable h.killed).recoverable
  obtain ⟨hhead, hlineage⟩ := hrec.history
  refine ⟨hhead, ?_⟩
  rcases hlineage with hempty | hlineage
  · rw [hempty]
    exact List.Pairwise.nil
  · exact hlineage.generations

/-- Nothing is ever taken out of the history. -/
theorem Step.history (hs : Step D s s') : s.sys.world.history <:+ s'.sys.world.history := by
  cases hs with
  | act _ hstep => exact steps_history (Relation.ReflTransGen.single hstep)
  | construct | call | done | killed => exact List.suffix_refl _

/-! ## Building runs -/

theorem steps_act (sys : Sys) {p q : Cmd Unit} {w : World}
    (h : sem.Steps (p, sys.world) (q, w)) :
    Relation.ReflTransGen (Step D) ⟨sys, some p⟩ ⟨{ sys with world := w }, some q⟩ := by
  suffices ∀ c : Cmd Unit × World, sem.Steps (p, sys.world) c →
      Relation.ReflTransGen (Step D) ⟨sys, some p⟩ ⟨{ sys with world := c.2 }, some c.1⟩ from
    this _ h
  intro c hc
  induction hc with
  | refl => exact .refl
  | tail _ hstep ih => exact ih.tail (.act rfl hstep)

theorem steps_construct {w w' : World} {calls : List (DeployArgs × World)} {order : Order}
    (h : sem.Finishes (D.construct order) w (.ok ()) w') :
    Relation.ReflTransGen (Step D) ⟨⟨w, false, calls⟩, none⟩ ⟨⟨w', true, calls⟩, none⟩ := by
  have hsteps := steps_act (D := D) ⟨w, false, calls⟩ h
  exact .head (.construct order rfl rfl) (hsteps.tail (.done (.ok ()) rfl))

theorem steps_call {w : World} {calls : List (DeployArgs × World)} (req : Request) :
    Relation.ReflTransGen (Step D) ⟨⟨w, true, calls⟩, none⟩
      ⟨⟨(sem.run (req.program D) w).2, true, req.logged w ++ calls⟩, none⟩ := by
  have hsteps := steps_act (D := D) ⟨w, true, req.logged w ++ calls⟩
    (sem.run_finishes (req.program D) w)
  exact .head (.call req rfl rfl) (hsteps.tail (.done _ rfl))

end Writer
end Deploy
end EdgeFort
