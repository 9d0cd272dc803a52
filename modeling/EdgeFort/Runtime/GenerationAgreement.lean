/-
The runner and its child agree on the loaded generation.

They do as long as no model is rejected while another one is believed to be loaded: on the
rejection the child drops its runtime and the runner keeps its generation.
-/
import EdgeFort.Runtime.LoadedGeneration

namespace EdgeFort
namespace Runtime
namespace ProcessRunner
namespace Supervised

open Effect Ipc

variable {ρ : Type} {I : Interpreter} {B : Backend ρ} {limits : WorkerLimits}
  {models : LoadArtifact → Prop} {maxReceive : Int} {w w' w₀ : Supervised ρ}

/-! ## What a runner reports -/

/-- `is_alive` -/
def isAlive (w : Supervised ρ) : Bool := w.host.runner.usable w.host.alive

/-- `loaded_generation` -/
def loadedGeneration (w : Supervised ρ) : Option Int := w.host.runner.generation

/-- Whether `process_workers_loaded` counts the runner. -/
def countedLoaded (w : Supervised ρ) : Bool := w.loadedGeneration.isSome

/-- The runner's child is there and holds a runtime built from a model of the generation. -/
def Holds (B : Backend ρ) (models : LoadArtifact → Prop) (w : Supervised ρ) (g : Int) : Prop :=
  ∃ c ∈ w.host.alive, w.host.runner.process = some c ∧ w.host.runner.channel = some c ∧
    ∃ runtime, w.state c = ⟨some runtime, some g⟩ ∧ BuiltFrom B models g runtime

/-- A runner that has not been used. -/
structure Unused (w : Supervised ρ) : Prop where
  runner : w.host.runner = .new
  fresh : ∀ c, w.Fresh c

/-! ## Runs of calls -/

/-- The snapshot a call is about. -/
def prepared? : Call → Option Prepared
  | .start => none
  | .load prepared | .execute prepared _ => some prepared

/-- One call that meets `ok`, or what children do between two calls. -/
inductive CallStep (I : Interpreter) (B : Backend ρ) (limits : WorkerLimits) (maxReceive : Int)
    (models : LoadArtifact → Prop) (ok : Call → Supervised ρ → Prop) (w w' : Supervised ρ) : Prop
  | call {call : Call} {r : Except PyError (Option (NdArray UInt32))} :
      (∀ p ∈ prepared? call, models p.artifact) → ok call w →
      (sem I B limits).Finishes (call.prog I maxReceive) w r w' →
      CallStep I B limits maxReceive models ok w w'
  | children : Drift I B limits w w' → CallStep I B limits maxReceive models ok w w'

def Runs (I : Interpreter) (B : Backend ρ) (limits : WorkerLimits) (maxReceive : Int)
    (models : LoadArtifact → Prop) (ok : Call → Supervised ρ → Prop) :
    Supervised ρ → Supervised ρ → Prop :=
  Relation.ReflTransGen (CallStep I B limits maxReceive models ok)

/-- No model is rejected while another one is believed to be loaded. -/
def Orderly (I : Interpreter) (B : Backend ρ) (limits : WorkerLimits) (call : Call)
    (w : Supervised ρ) : Prop :=
  ∀ p ∈ prepared? call, Replaceable I B limits p.artifact w

/-- What a call keeps. -/
theorem spec_call (hI : I.Lawful) (h : Calm B models w) {call : Call}
    (hm : ∀ p ∈ prepared? call, models p.artifact) :
    Spec I B limits (call.prog I maxReceive) (fun _ w' => Same B models w w')
      (fun _ w' => Calm B models w' ∧ (Orderly I B limits call w → w.Agrees → w'.Agrees)) w := by
  cases call with
  | start =>
    refine wp_bind.mpr (wp_mono (spec_start h maxReceive) (fun _ w₁ _ hstarted => ?_)
      (fun _ _ _ hblank => ⟨hblank.1, fun _ _ => agrees_of_none hblank.2⟩) fun _ h => h)
    exact wp_pure.mpr ⟨trivial, hstarted.elim Kept.same Blank.same⟩
  | load prepared =>
    refine wp_bind.mpr (wp_mono (spec_load hI h (hm prepared rfl) maxReceive)
      (fun _ w₁ _ hloaded => ?_) (fun _ w₁ _ hfailed => ?_) fun _ h => h)
    · exact wp_pure.mpr ⟨trivial, hloaded.1, hloaded.2.2⟩
    · exact ⟨hfailed.1, fun horderly => hfailed.2 (horderly prepared rfl)⟩
  | execute prepared output =>
    refine wp_bind.mpr (wp_mono (spec_execute hI h (hm prepared rfl) maxReceive output)
      (fun _ w₁ _ hdone => ?_) (fun _ w₁ _ hfailed => ?_) fun _ h => h)
    · exact wp_pure.mpr ⟨trivial, hdone.1⟩
    · exact ⟨hfailed.1, fun horderly => hfailed.2 (horderly prepared rfl)⟩

theorem CallStep.same (hI : I.Lawful)
    (h : CallStep I B limits maxReceive models (Orderly I B limits) w w') (hw : Calm B models w) :
    Same B models w w' := by
  cases h with
  | @call call r hm horderly hrun =>
    cases r with
    | ok a =>
      have hsame := wp_returns (spec_call hI hw hm) hrun
      exact hsame
    | error e =>
      obtain ⟨hcalm, hagrees⟩ := wp_raises (spec_call hI hw hm) hrun
      exact ⟨hcalm, hagrees horderly⟩
  | children hdrift => exact (hdrift.undisturbed.kept hw).same

theorem Unused.calm (h : w.Unused) : Calm B models w ∧ w.Agrees := by
  have hchannel : w.host.runner.channel = none := by rw [h.runner]; rfl
  have hgeneration : w.host.runner.generation = none := by rw [h.runner]; rfl
  have hprocess : w.host.runner.process = none := by rw [h.runner]; rfl
  refine ⟨⟨⟨Or.inl ⟨hprocess, hchannel, hgeneration⟩, fun c _ => h.fresh c⟩, fun c hc => ?_,
    fun c hc => ?_⟩, agrees_of_none hgeneration⟩
  · rw [hchannel] at hc
    cases hc
  · rw [hchannel] at hc
    cases hc

theorem Runs.same (hI : I.Lawful)
    (h : Runs I B limits maxReceive models (Orderly I B limits) w w') (hw : Calm B models w) :
    Same B models w w' := by
  induction h with
  | refl => exact ⟨hw, id⟩
  | tail _ hstep ih => exact ih.trans (hstep.same hI ih.calm)

theorem Calm.holds (h : Calm B models w) (hagrees : w.Agrees) {g : Int}
    (hg : w.loadedGeneration = some g) (halive : w.isAlive = true) : Holds B models w g := by
  rw [isAlive, Fields.usable, Bool.and_eq_true] at halive
  obtain ⟨d, hd⟩ := Option.isSome_iff_exists.mp halive.1
  obtain ⟨c, hprocess, hchannel, -⟩ := h.owns.resolve_left fun hdetached => by
    rw [hdetached.channel] at hd
    cases hd
  have hmem : c ∈ w.host.alive := by
    have hfound := halive.2
    rw [hprocess] at hfound
    exact List.contains_iff_mem.mp hfound
  obtain ⟨runtime, hstate⟩ := hagrees g c hg hchannel
  exact ⟨c, hmem, hprocess, hchannel, runtime, hstate, h.sound c hchannel runtime g hstate⟩

/-- The runner never reports a model that its living child does not hold, never skips a load
that is needed, and returns only results of the generation it was asked for. -/
theorem generation_agreement (hI : I.Lawful) (hunused : w₀.Unused)
    (hrun : Runs I B limits maxReceive models (Orderly I B limits) w₀ w) :
    (∀ g, w.loadedGeneration = some g → w.isAlive = true → Holds B models w g) ∧
    (w.countedLoaded = true → w.isAlive = true → ∃ g, Holds B models w g) ∧
    (∀ prepared w', models prepared.artifact →
      (sem I B limits).Finishes (load I maxReceive prepared) w (.ok ()) w' →
        w'.loadedGeneration = some prepared.generation ∧
          (w'.isAlive = true → Holds B models w' prepared.generation)) ∧
    ∀ prepared output array w', models prepared.artifact →
      (sem I B limits).Finishes (execute I maxReceive prepared output) w (.ok array) w' →
        ComputedBy B limits models prepared.generation prepared.inputs array := by
  obtain ⟨hcalm₀, hagrees₀⟩ : Calm B models w₀ ∧ w₀.Agrees := hunused.calm
  have hsame := hrun.same hI hcalm₀
  have hagrees := hsame.agrees hagrees₀
  refine ⟨fun g hg => hsame.calm.holds hagrees hg, fun hcounted halive => ?_,
    fun prepared w' hm hload => ?_, fun prepared output array w' hm hexecute => ?_⟩
  · obtain ⟨g, hg⟩ := Option.isSome_iff_exists.mp hcounted
    exact ⟨g, hsame.calm.holds hagrees hg halive⟩
  · obtain ⟨hcalm', hg, hagrees'⟩ := wp_returns (spec_load hI hsame.calm hm maxReceive) hload
    exact ⟨hg, hcalm'.holds (hagrees' hagrees) hg⟩
  · exact (wp_returns (spec_execute hI hsame.calm hm maxReceive output) hexecute).2

/-! ## Samples -/

/-- A backend that takes one model, and whose logits are its inputs. -/
def pickyBackend : Backend Unit where
  loadRuntime modelBytes _ _ _ :=
    if modelBytes = [1] then .ok ()
    else .error ⟨py "ValueError", false, py "not a model"⟩
  logits _ inputs := .ok (some (.ofFloat32 inputs))

/-- Nothing has been started, and every child is to come up. -/
def idle : Supervised Unit where
  host := hostOf fun _ => framed readyFrame
  inbox _ := []
  state _ := ⟨none, none⟩

theorem unused_idle : idle.Unused :=
  ⟨rfl, fun _ => ⟨rfl, rfl, Or.inr ⟨readyFrame, rfl, by decide⟩⟩⟩

/-- A call in which nothing fails by itself. -/
def afterCall (call : Call) (w : Supervised Unit) : Supervised Unit :=
  ((sem Sample.interpreter pickyBackend sampleLimits).run (call.prog Sample.interpreter 5000) w).2

theorem runs_afterCall {ok : Call → Supervised Unit → Prop} {call : Call} {w : Supervised Unit}
    (hok : ok call w) : Runs Sample.interpreter pickyBackend sampleLimits 5000 (fun _ => True) ok w
      (afterCall call w) :=
  Relation.ReflTransGen.single (.call (fun _ _ => trivial) hok (Sem.run_finishes _ _ w))

/-- The model of generation 1 has been loaded. -/
def loadedOnce : Supervised Unit := afterCall (.load samplePrepared) idle

/-- A model that the backend rejects. -/
def rejectedModel : Prepared :=
  ⟨⟨2, [0], py "linear", py "numpy-v1", 1024⟩, samplePrepared.inputs⟩

def rejectedOnce : Supervised Unit := afterCall (.load rejectedModel) loadedOnce

theorem generation_agreement_sample : loadedOnce.loadedGeneration = some 1 ∧
    loadedOnce.isAlive = true ∧
    ((∀ g, loadedOnce.loadedGeneration = some g → loadedOnce.isAlive = true →
        Holds pickyBackend (fun _ => True) loadedOnce g) ∧
      (loadedOnce.countedLoaded = true → loadedOnce.isAlive = true →
        ∃ g, Holds pickyBackend (fun _ => True) loadedOnce g) ∧
      (∀ prepared w', True →
        (sem Sample.interpreter pickyBackend sampleLimits).Finishes
          (load Sample.interpreter 5000 prepared) loadedOnce (.ok ()) w' →
          w'.loadedGeneration = some prepared.generation ∧
            (w'.isAlive = true → Holds pickyBackend (fun _ => True) w' prepared.generation)) ∧
      ∀ prepared output array w', True →
        (sem Sample.interpreter pickyBackend sampleLimits).Finishes
          (execute Sample.interpreter 5000 prepared output) loadedOnce (.ok array) w' →
          ComputedBy pickyBackend sampleLimits (fun _ => True) prepared.generation
            prepared.inputs array) :=
  ⟨by decide +kernel, by decide +kernel, generation_agreement Sample.interpreter_lawful unused_idle
    (runs_afterCall fun p hp => Option.mem_some_iff.mp hp ▸ Or.inl rfl)⟩

/-- Generation 2 is rejected after generation 1 was loaded.  The child, which is alive, has
dropped its runtime; the runner still reports generation 1, skips the load of it, and its next
request fails. -/
theorem rejection_keeps_generation : idle.Unused ∧
    Runs Sample.interpreter pickyBackend sampleLimits 5000 (fun _ => True) (fun _ _ => True) idle
      rejectedOnce ∧
    rejectedOnce.loadedGeneration = some 1 ∧ rejectedOnce.isAlive = true ∧
    ¬Holds pickyBackend (fun _ => True) rejectedOnce 1 ∧
    ((sem Sample.interpreter pickyBackend sampleLimits).run
      (load Sample.interpreter 5000 samplePrepared) rejectedOnce).1.isOk = true ∧
    ((sem Sample.interpreter pickyBackend sampleLimits).run
      (execute Sample.interpreter 5000 samplePrepared ⟨8, 8, by decide⟩) rejectedOnce).1.isOk =
        false := by
  refine ⟨unused_idle, (runs_afterCall trivial).trans (runs_afterCall trivial), by decide +kernel,
    by decide +kernel, ?_, by decide +kernel, by decide +kernel⟩
  rintro ⟨c, -, -, hc, runtime, hstate, -⟩
  have hchannel : rejectedOnce.host.runner.channel = some 0 := by decide +kernel
  have hdropped : (rejectedOnce.state 0).generation = none := by decide +kernel
  obtain rfl : 0 = c := Option.some.inj (hchannel.symm.trans hc)
  rw [hstate] at hdropped
  cases hdropped

end Supervised
end ProcessRunner
end Runtime
end EdgeFort
