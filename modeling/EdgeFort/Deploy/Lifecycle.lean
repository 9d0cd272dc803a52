/-
The life of a deployment directory under one deployer at a time.

The deployer is constructed, answers calls one after the other, and may be killed
between any two operations of a call or of its construction.  A dead deployer is
replaced by a new construction over what it left.
-/
import EdgeFort.Deploy.Rollback
import EdgeFort.Effect.System

namespace EdgeFort
namespace Deploy

open Effect ABDeployer

/-! ## Runs -/

/-- A call of a live deployer. -/
inductive Request where
  | deploy (args : DeployArgs)
  | rollback (loadRuntime : Bytes → ArtifactManifest → Except PyError Unit)

namespace Request

/-- The call as a program, without its answer. -/
def program (D : ABDeployer) : Request → Cmd Unit
  | .deploy args => do let _ ← D.deploy args
  | .rollback loadRuntime => do let _ ← D.rollback loadRuntime

def isDeploy : Request → Bool
  | .deploy _ => true
  | .rollback _ => false

/-- The deployments a run remembers: arguments, and the world they started in. -/
def logged (w : World) : Request → List (DeployArgs × World)
  | .deploy args => [(args, w)]
  | .rollback _ => []

end Request

structure Sys where
  world : World
  alive : Bool
  calls : List (DeployArgs × World)

inductive LifecycleStep (D : ABDeployer) : Sys → Sys → Prop
  | constructed {s : Sys} {order : Order} {w : World} : s.alive = false →
      sem.Finishes (D.construct order) s.world (.ok ()) w →
      LifecycleStep D s { s with world := w, alive := true }
  | constructRaised {s : Sys} {order : Order} {e : PyError} {w : World} : s.alive = false →
      sem.Finishes (D.construct order) s.world (.error e) w →
      LifecycleStep D s { s with world := w }
  | constructCut {s : Sys} {order : Order} {w : World} : s.alive = false →
      sem.CutAt (D.construct order) s.world w → LifecycleStep D s { s with world := w }
  | answered {s : Sys} {req : Request} {r : Except PyError Unit} {w : World} : s.alive = true →
      sem.Finishes (req.program D) s.world r w →
      LifecycleStep D s { world := w, alive := true, calls := req.logged s.world ++ s.calls }
  | cut {s : Sys} {req : Request} {w : World} : s.alive = true →
      sem.CutAt (req.program D) s.world w →
      LifecycleStep D s { world := w, alive := false, calls := req.logged s.world ++ s.calls }

/-- An empty root, and an anchor that has seen nothing. -/
structure EmptyRoot (w : World) : Prop where
  node : ∀ p, w.node p = .missing
  floor : w.floor = -1
  history : w.history = []

def lifecycle (D : ABDeployer) : System Sys where
  initial s := EmptyRoot s.world ∧ s.alive = false ∧ s.calls = []
  step := LifecycleStep D

/-- The state in `state.json`, when it holds one. -/
def durableState (w : World) : Option DeploymentState :=
  match w.node .state with
  | .file (.json v) => (DeploymentState.parseState v).toOption
  | _ => none

/-- One of the calls deployed version `v` over `st`, with every check passed. -/
def Qualified (D : ABDeployer) (calls : List (DeployArgs × World)) : Provenance := fun st v =>
  ∃ c ∈ calls, c.1.version = v ∧ durableState c.2 = some st ∧ ∃ m, Admitted D c.1 st c.2 m

variable {D : ABDeployer} {P : Provenance} {s s' : Sys} {st L : DeploymentState}
  {w w' : World} {req : Request}

theorem Durable.durableState (h : Durable D P w st) : durableState w = some st := by
  simp [Deploy.durableState, h.state, DeploymentState.parseState_toDict h.wellFormed,
    Except.toOption]

theorem Qualified.mono {calls more : List (DeployArgs × World)} {v : PyStr}
    (h : Qualified D calls st v) : Qualified D (more ++ calls) st v := by
  obtain ⟨c, hc, h⟩ := h
  exact ⟨c, List.mem_append_right _ hc, h⟩

/-! ## What one call can do -/

/-- `new` is what the call, made in `w`, may commit over `st`. -/
def Request.Commits (D : ABDeployer) (w : World) (st new : DeploymentState) : Request → Prop
  | .deploy args =>
    ∃ m, Admitted D args st w m ∧ new = st.committed args.version m.releaseSequence
  | .rollback _ => ∃ s, st.previousSlot = some s ∧ new = st.rolledBack s

/-- How far a call from `w`, whose logical state is `L`, has come at `w'`: the last
argument is the logical state there. -/
inductive Progress (D : ABDeployer) (req : Request) (w : World) (L : DeploymentState) (w' : World) :
    DeploymentState → Prop
  | same : w'.history = w.history → w'.floor = w.floor → Progress D req w L w' L
  | failed (e : PyError) : req.isDeploy = true → w'.history = L.failed e :: w.history →
      w'.floor = w.floor → Progress D req w L w' (L.failed e)
  | renamed {new : DeploymentState} : req.Commits D w L new → w'.history = new :: w.history →
      Progress D req w L w' new
  | advanced {new : DeploymentState} : req.Commits D w L new → w'.history = w.history →
      D.anchored = true → w.floor < w'.floor → w'.floor = new.highestReleaseSequence →
      Progress D req w L w' new

theorem DeployPoint.progress {args : DeployArgs} (hc : Calm D P w st)
    (h : DeployPoint D P args st w w') :
    ∃ L', Recoverable D P w' L' ∧ Progress D (.deploy args) w st w' L' := by
  cases h with
  | before hr _ hk => exact ⟨_, hr, .same hk.history hk.floor⟩
  | failed e hr _ hk => exact ⟨_, hr, .failed e rfl hk.history hk.floor⟩
  | advanced hadm ha hr _ hk =>
    refine ⟨_, hr, .advanced ⟨_, hadm, rfl⟩ hk.history ha ?_ ?_⟩
    · rw [hk.floor, hc.floor ha]
      exact hadm.sequence_lt ha
    · rw [hk.floor, hadm.floor_eq ha]
  | committed hadm hr _ hk _ => exact ⟨_, hr, .renamed ⟨_, hadm, rfl⟩ hk.history⟩

theorem RollbackPoint.progress (loadRuntime : Bytes → ArtifactManifest → Except PyError Unit)
    (h : RollbackPoint D P st w w') :
    ∃ L', Recoverable D P w' L' ∧ Progress D (.rollback loadRuntime) w st w' L' := by
  cases h with
  | before hr _ hu => exact ⟨_, hr, .same hu.history hu.floor⟩
  | swapped hs hr _ hu =>
    exact ⟨_, hr, .renamed ⟨_, hs, rfl⟩ hu.history⟩

/-! ## The invariant of runs -/

/-- The directory is always recoverable, and calm while its deployer is alive,
unless that deployer waits for recovery. -/
structure LifecycleInv (D : ABDeployer) (s : Sys) : Prop where
  recoverable : ∃ L, Recoverable D (Qualified D s.calls) s.world L
  alive : s.alive = true → Alive D (Qualified D s.calls) s.world
  started : s.alive = true → s.world.history ≠ []

/-- Once `state.json` has been written, a recoverable directory holds a state. -/
theorem Recoverable.durable (h : Recoverable D P w L) (hh : w.history ≠ []) :
    ∃ st, Durable D P w st ∧ Phase D P w st L := by
  rcases h with ⟨h, _⟩ | h
  · exact absurd h.history hh
  · exact h

theorem Calm.agrees_of_not {st₀ : DeploymentState} (hreq : w.self.recoveryRequired = true) :
    ¬AnchorAgrees w st₀ := fun h => nomatch hreq.symm.trans h.notRequired

/-- A call never leaves the invariant, whatever it answers and wherever it is cut. -/
theorem LifecycleInv.request (h : LifecycleInv D s) (ha : s.alive = true) (req : Request) :
    wp sem (req.program D)
      (fun _ w' => Alive D (Qualified D (req.logged s.world ++ s.calls)) w')
      (fun _ w' => Alive D (Qualified D (req.logged s.world ++ s.calls)) w')
      (fun w' => w'.history ≠ [] ∧ ∃ L L', Recoverable D (Qualified D s.calls) s.world L ∧
        (s.world.self.recoveryRequired = false → durableState s.world = some L) ∧
        Recoverable D (Qualified D (req.logged s.world ++ s.calls)) w' L' ∧
        Progress D req s.world L w' L') s.world := by
  have hmono : ∀ st v, Qualified D s.calls st v →
      Qualified D (req.logged s.world ++ s.calls) st v := fun _ _ hv => hv.mono
  rcases h.alive ha with ⟨L, hcalm, hready⟩ | ⟨hanch, hself, hreq⟩
  · have hhist : ∀ w' L', Progress D req s.world L w' L' → w'.history ≠ [] := by
      intro w' L' hp
      obtain ⟨past, hpast⟩ := hcalm.history
      cases hp <;> simp_all
    have hdur := hcalm.toDurable.durableState
    cases req with
    | deploy args =>
      have hP : ∀ m, Admitted D args L s.world m →
          Qualified D ((Request.deploy args).logged s.world ++ s.calls) L args.version :=
        fun m hm => ⟨(args, s.world), by simp [Request.logged], rfl, hdur, m, hm⟩
      refine wp_bind.mpr (wp_mono (wp_deploy (hcalm.mono hmono) hready hP) ?_ ?_ ?_)
      · rintro _ w' hpoint ⟨hready', _, m, _, hland⟩
        obtain ⟨L', hr, hp⟩ := hpoint.progress (hcalm.mono hmono)
        exact ⟨⟨hhist w' L' hp, L, L', hcalm.recoverable, fun _ => hdur, hr, hp⟩,
          Or.inl ⟨_, hland.toCalm, hready'⟩⟩
      · exact fun _ _ _ halive => halive.1
      · intro w' hpoint
        obtain ⟨L', hr, hp⟩ := hpoint.progress (hcalm.mono hmono)
        exact ⟨hhist w' L' hp, L, L', hcalm.recoverable, fun _ => hdur, hr, hp⟩
    | rollback loadRuntime =>
      refine wp_bind.mpr (wp_mono (wp_rollback (hcalm.mono hmono) hready) ?_ ?_ ?_)
      · rintro done w' hpoint ⟨hready', _, hdone⟩
        obtain ⟨L', hr, hp⟩ := hpoint.progress loadRuntime
        refine ⟨⟨hhist w' L' hp, L, L', hcalm.recoverable, fun _ => hdur, hr, hp⟩, Or.inl ?_⟩
        split_ifs at hdone
        · obtain ⟨_, _, hc⟩ := hdone
          exact ⟨_, hc, hready'⟩
        · exact ⟨_, hdone, hready'⟩
      · exact fun _ _ _ ⟨hready', _, hc⟩ => Or.inl ⟨_, hc, hready'⟩
      · intro w' hpoint
        obtain ⟨L', hr, hp⟩ := hpoint.progress loadRuntime
        exact ⟨hhist w' L' hp, L, L', hcalm.recoverable, fun _ => hdur, hr, hp⟩
  · -- a deployer that waits for recovery refuses every call
    obtain ⟨L, hrec⟩ := h.recoverable
    obtain ⟨st, hd, _⟩ := hrec.durable (h.started ha)
    have hno : ¬AnchorAgrees s.world st := Calm.agrees_of_not hreq
    have hpoint : ∀ w', ReadOnly s.world w' → w'.history ≠ [] ∧
        ∃ L L', Recoverable D (Qualified D s.calls) s.world L ∧
          (s.world.self.recoveryRequired = false → durableState s.world = some L) ∧
          Recoverable D (Qualified D (req.logged s.world ++ s.calls)) w' L' ∧
          Progress D req s.world L w' L' := fun w' hr =>
      ⟨hr.history ▸ h.started ha, L, L, hrec, fun hf => (nomatch hreq.symm.trans hf),
        (hrec.mono hmono).same hr.toSameDisk, .same hr.history hr.floor⟩
    have hraised : ∀ w', ReadOnly s.world w' →
        Alive D (Qualified D (req.logged s.world ++ s.calls)) w' := fun w' hr =>
      Or.inr ⟨hanch, hr.trustedFloor.trans hself, hr.recoveryRequired.trans hreq⟩
    cases req with
    | deploy args =>
      exact wp_bind.mpr (wp_mono (wp_deploy_refused hd.state hd.wellFormed hself hanch hno)
        (fun _ _ _ hq => hq.elim) (fun _ w' _ hr => hraised w' hr) hpoint)
    | rollback loadRuntime =>
      exact wp_bind.mpr (wp_mono (wp_rollback_refused hd.state hd.wellFormed hself hanch hno)
        (fun _ _ _ hq => hq.elim) (fun _ w' _ hr => hraised w' hr) hpoint)

theorem LifecycleInv.initial (h : (lifecycle D).initial s) : LifecycleInv D s := by
  obtain ⟨hroot, hdead, _⟩ := h
  refine ⟨⟨{}, Or.inl ⟨?_, rfl⟩⟩, fun ha => ?_, fun ha => ?_⟩
  · exact {
      state := hroot.node _
      slotsRoot := Or.inl (hroot.node _)
      slot := fun _ => hroot.node _
      backup := fun _ => hroot.node _
      candidate := fun _ => hroot.node _
      pending := hroot.node _
      floor := fun _ => hroot.floor
      history := hroot.history }
  · exact nomatch hdead.symm.trans ha
  · exact nomatch hdead.symm.trans ha

theorem LifecycleInv.step (h : LifecycleInv D s) (hs : LifecycleStep D s s') :
    LifecycleInv D s' := by
  cases hs with
  | constructed hdead hf =>
    obtain ⟨L, hrec⟩ := h.recoverable
    rename_i order w₁
    have hwp := wp_construct order hrec
    obtain ⟨hset, hready⟩ := wp_returns hwp hf
    refine ⟨⟨L, (wp_cutAt hwp hf.cutAt).recoverable⟩, fun _ => Or.inl ⟨L, hset.toCalm, hready⟩,
      fun _ => ?_⟩
    obtain ⟨past, hpast⟩ := hset.history
    simp [hpast]
  | constructRaised hdead hf =>
    obtain ⟨L, hrec⟩ := h.recoverable
    exact (wp_raises (wp_construct _ hrec) hf).elim
  | constructCut hdead hc =>
    obtain ⟨L, hrec⟩ := h.recoverable
    refine ⟨⟨L, (wp_cutAt (wp_construct _ hrec) hc).recoverable⟩, fun ha => ?_, fun ha => ?_⟩
    · exact nomatch hdead.symm.trans ha
    · exact nomatch hdead.symm.trans ha
  | answered ha hf =>
    rename_i req r _
    have hwp := h.request ha req
    obtain ⟨hhist, _, L', _, _, hrec, _⟩ := wp_cutAt hwp hf.cutAt
    refine ⟨⟨L', hrec⟩, fun _ => ?_, fun _ => hhist⟩
    cases r with
    | ok a =>
      have halive := wp_returns hwp hf
      exact halive
    | error e =>
      have halive := wp_raises hwp hf
      exact halive
  | cut ha hc =>
    obtain ⟨_, _, L', _, _, hrec, _⟩ := wp_cutAt (h.request ha _) hc
    exact ⟨⟨L', hrec⟩, fun ha => (nomatch ha), fun ha => nomatch ha⟩

theorem lifecycleInv_reachable (h : (lifecycle D).Reachable s) : LifecycleInv D s :=
  System.invariant (LifecycleInv D) (fun _ => LifecycleInv.initial)
    (fun _ _ hi hs => hi.step hs) h

/-! ## Building runs -/

theorem finishes_of_isOk {p : Cmd Unit} (hok : (sem.run p w).1.isOk = true) :
    sem.Finishes p w (.ok ()) (sem.run p w).2 := by
  have hf := sem.run_finishes p w
  cases hr : (sem.run p w).1 with
  | ok a => exact hr ▸ hf
  | error e =>
    rw [hr] at hok
    cases hok

theorem reachable_answered {calls : List (DeployArgs × World)} (req : Request)
    (h : (lifecycle D).Reachable ⟨w, true, calls⟩) :
    (lifecycle D).Reachable
      ⟨(sem.run (req.program D) w).2, true, req.logged w ++ calls⟩ :=
  .step h (.answered rfl (sem.run_finishes _ _))

theorem reachable_cut {calls : List (DeployArgs × World)} (req : Request) (n : Nat)
    (h : (lifecycle D).Reachable ⟨w, true, calls⟩) :
    (lifecycle D).Reachable
      ⟨(sem.runFor n (req.program D) w).2, false, req.logged w ++ calls⟩ :=
  .step h (.cut rfl (sem.runFor_cutAt _ _ _))

namespace Sample

open EdgeFort.Sample

def emptyRoot : World where
  node _ := .missing
  temp := none
  floor := -1
  self := { trustedFloor := none, recoveryRequired := false }
  history := []
  observed := none

def policy : HealthPolicy where
  minAccuracy := .int 0
  maxAccuracyDrop := .int 1
  maxEce := .int 1
  maxP95LatencyMs := .int 100
  maxRssMb := .int 100

def deployer (anchored : Bool) : ABDeployer where
  registry := registry
  policy := policy
  maxModelUncompressedBytes := 1024
  anchored := anchored

def order : Order := ⟨.A, .A⟩

/-- A deployment whose measurements are those of the manifest. -/
def args (version : PyStr) (allowDowngrade : Bool) : DeployArgs where
  version := version
  candidateMetrics _ m := .ok m.metrics
  baselineMetrics _ m := .ok m.metrics
  allowDowngrade := allowDowngrade

def one : DeployArgs := args "1.0.0" false
def two : DeployArgs := args "2.0.0" false
def oneAgain : DeployArgs := args "1.0.0" true

/-- The root after a first construction. -/
@[irreducible] def constructed (anchored : Bool) : World :=
  (sem.run ((deployer anchored).construct order) emptyRoot).2

/-- The root after a deployment. -/
@[irreducible] def deployed (anchored : Bool) (a : DeployArgs) (w : World) : World :=
  (sem.run ((Request.deploy a).program (deployer anchored)) w).2

theorem constructed_finishes (anchored : Bool) :
    sem.Finishes ((deployer anchored).construct order) emptyRoot (.ok ())
      (constructed anchored) := by
  unfold constructed
  exact finishes_of_isOk (by cases anchored <;> decide +kernel)

theorem reachable_constructed (anchored : Bool) :
    (lifecycle (deployer anchored)).Reachable ⟨constructed anchored, true, []⟩ := by
  have hempty : (lifecycle (deployer anchored)).Reachable ⟨emptyRoot, false, []⟩ :=
    .initial ⟨⟨fun _ => rfl, rfl, rfl⟩, rfl, rfl⟩
  exact .step hempty (LifecycleStep.constructed rfl (constructed_finishes anchored))

theorem reachable_deployed {anchored : Bool} {w : World} {calls : List (DeployArgs × World)}
    (a : DeployArgs) (h : (lifecycle (deployer anchored)).Reachable ⟨w, true, calls⟩) :
    (lifecycle (deployer anchored)).Reachable
      ⟨deployed anchored a w, true, (Request.deploy a).logged w ++ calls⟩ := by
  unfold deployed
  exact reachable_answered (.deploy a) h

end Sample

end Deploy
end EdgeFort
