/-
What a call of the engine returns was the active release at some moment of the call.

Time is told by the history of `state.json`, which only grows.
-/
import EdgeFort.Engine.Isolation
import EdgeFort.Engine.Serving

namespace EdgeFort
namespace Engine

open Effect Deploy ABDeployer EngineState

/-! ## Reads of the deployer -/

section Reads

/-- A look, or an operation on the deployer's own memory. -/
def Reading (o : Deploy.Op) : Prop := reads o = true

variable {D : ABDeployer} {α : Type} {p : Path} {st : DeploymentState}

theorem look_reading : (look p).All Reading := .perform rfl

theorem readAnchorFloor_reading : D.readAnchorFloor.All Reading :=
  .bind (.liftM _) fun _ =>
    .catch' (.bind (.perform rfl) fun _ => .liftM _) fun _ => .throw _

theorem setTrustedFloor_reading {floor : Option Int} : (setTrustedFloor floor).All Reading :=
  .bind (.perform rfl) fun _ => .perform rfl

theorem validateStateAnchor_reading : (D.validateStateAnchor st).All Reading := by
  refine .bind (.perform rfl) fun self => ?_
  cases self.trustedFloor with
  | none => exact .pure _
  | some trusted =>
    refine .bind (.liftM _) fun _ => .bind look_reading fun pending => .bind ?_ fun _ => .liftM _
    unfold ABDeployer.refreshedFloor
    split
    · exact .bind readAnchorFloor_reading fun _ => .bind setTrustedFloor_reading fun _ => .pure _
    · exact .pure _

/-- What follows the first look of `_read`. -/
def readFrom (D : ABDeployer) : Node → Cmd DeploymentState
  | .missing => do
    let slotData ← slotDataExists
    liftM (raiseIf (slotData = true) missingState)
    return {}
  | .symlink false => throw missingState
  | .symlink true => throw (raise .deploymentError "deployment state must not be a symlink")
  | n => do
    let st ← liftM (readDoc "deployment state" DeploymentState.parseState n)
    (if true = true then D.validateStateAnchor st else pure ())
    return st

theorem read_eq : D.read true = look .state >>= readFrom D := by
  refine congrArg (fun k => look .state >>= k) (funext fun n => ?_)
  match n with
  | .missing | .symlink true | .symlink false | .dir _ | .file _ | .special => rfl

theorem readFrom_reading (n : Node) : (readFrom D n).All Reading := by
  have hdoc : ∀ n, (do
      let st ← liftM (readDoc "deployment state" DeploymentState.parseState n)
      (if true = true then D.validateStateAnchor st else pure ())
      return st : Cmd DeploymentState).All Reading := fun n =>
    .bind (.liftM _) fun _ => .bind validateStateAnchor_reading fun _ => .pure _
  match n with
  | .missing =>
    exact .bind (.bind look_reading fun _ => .bind look_reading fun _ => .bind look_reading fun _ =>
      .pure _) fun _ => .bind (.liftM _) fun _ => .pure _
  | .symlink true | .symlink false => exact .throw _
  | .dir _ | .file _ | .special => exact hdoc _

theorem readDoc_ok {label : PyStr} {n : Node}
    (h : readDoc label DeploymentState.parseState n = .ok st) :
    ∃ v, n = .file (.json v) ∧ DeploymentState.parseState v = .ok st := by
  simp only [readDoc, bind_eq_ok] at h
  obtain ⟨doc, hopen, hparse⟩ := h
  cases n with
  | file doc' =>
    obtain rfl : doc' = doc := Except.ok.inj hopen
    cases doc' with
    | json v =>
      refine ⟨v, rfl, ?_⟩
      cases hv : DeploymentState.parseState v with
      | ok st' =>
        rw [parseDoc, hv] at hparse
        exact hparse
      | error e =>
        rw [parseDoc, hv] at hparse
        cases hparse
    | oversized | malformed => cases hparse
  | missing | dir | symlink | special => cases hopen

/-- `_read` returns the state of the file, or the first state where there is none. -/
theorem readFrom_returns (w : World) : (readFrom D (w.node .state)).Returns fun st =>
    st = {} ∨ durableState w = some st := by
  have hdoc : ∀ n, w.node .state = n → (do
      let st ← liftM (readDoc "deployment state" DeploymentState.parseState n)
      (if true = true then D.validateStateAnchor st else pure ())
      return st : Cmd DeploymentState).Returns fun st => st = {} ∨ durableState w = some st := by
    intro n hn
    refine .bind (.liftM fun st hst => ?_) fun st hst => .bind (.trivial _) fun _ _ => hst
    obtain ⟨v, rfl, hv⟩ := readDoc_ok hst
    refine Or.inr ?_
    rw [durableState, hn]
    simp [hv, Except.toOption]
  generalize hn : w.node .state = n at hdoc ⊢
  cases n with
  | missing => exact .bind (.trivial _) fun _ _ => .bind (.trivial _) fun _ _ => Or.inl rfl
  | symlink resolves => cases resolves <;> exact trivial
  | dir | file | special => exact hdoc _ rfl

/-- The program looks at `state.json` first, and then returns only what `post` says of the state it
saw there. -/
def OfState (post : DeploymentState → α → Prop) (p : Cmd α) : Prop :=
  ∃ k, p = .op (.look .state) k ∧ ∀ w : World, (k (.ok (w.node .state))).All Reading ∧
    (k (.ok (w.node .state))).Returns fun a =>
      ∃ st, (st = {} ∨ durableState w = some st) ∧ post st a

theorem read_ofState : OfState (fun st a => a = st) (D.read true) := by
  refine ⟨_, read_eq, fun w => ⟨readFrom_reading _, ?_⟩⟩
  exact (readFrom_returns w).mono fun st hst => ⟨st, hst, rfl⟩

theorem OfState.bind {β : Type} {post : DeploymentState → α → Prop}
    {post' : DeploymentState → β → Prop} {p : Cmd α} {f : α → Cmd β} (hp : OfState post p)
    (hf : ∀ a, (f a).All Reading) (hpost : ∀ st a, post st a → (f a).Returns (post' st)) :
    OfState post' (p >>= f) := by
  obtain ⟨k, rfl, hk⟩ := hp
  refine ⟨fun r => (k r).bind f, rfl, fun w => ?_⟩
  obtain ⟨hall, hreturns⟩ := hk w
  refine ⟨.bind hall hf, .bind hreturns fun a ⟨st, hst, ha⟩ => ?_⟩
  exact (hpost st a ha).mono fun b hb => ⟨st, hst, hb⟩

theorem verifiedSlotRuntime_reading {ρ : Type} {slot : Slot} {v : PyStr}
    {loadRuntime : Bytes → ArtifactManifest → Except PyError ρ} :
    (D.verifiedSlotRuntime loadRuntime slot v).All Reading :=
  .bind look_reading fun _ => .liftM _

theorem verifiedSlotArtifact_reading {slot : Slot} {v : PyStr} :
    (D.verifiedSlotArtifact slot v).All Reading :=
  .bind look_reading fun _ => .liftM _

end Reads

/-! ## What belongs to a state -/

section Belongs

variable (D : ABDeployer) {ρ : Type} (loadRuntime : Bytes → ArtifactManifest → Except PyError ρ)

/-- The model of the state's active release: it is signed under the keyring, and its manifest is
the one the registry publishes for the version. -/
structure Released (st : DeploymentState) (version : PyStr) (model : Bytes)
    (manifest : ArtifactManifest) : Prop where
  active : activeVersionOf st = some version
  canonical : ∃ m, D.canonicalManifest version = .ok m ∧ manifest.pyEq m = true
  version_eq : manifest.version = version
  signed : ∃ keyId signature, D.registry.trust.keyringVerify keyId manifest signature = .ok ()
  size : (model.length : Int) = manifest.modelBytes
  digest : D.registry.trust.sha256 model = manifest.modelSha256

/-- The value of a field belongs to a state. -/
def Field.Of (st : DeploymentState) : (f : Field) → f.Value ρ → Prop
  | runtime, live => live.generation = st.generation ∧
      ∃ model manifest, Released D st live.version model manifest ∧
        loadRuntime model manifest = .ok live.runtime
  | isolated, artifact => artifact.generation = st.generation ∧
      ∃ manifest, Released D st artifact.version artifact.modelBytes manifest ∧
        artifact.modelKind = manifest.modelKind ∧ artifact.runtimeAbi = manifest.runtimeAbi

variable {D loadRuntime} {st : DeploymentState} {n : Node} {v : PyStr}

theorem Released.of_open {slot : Slot} {model : Bytes} {manifest m : ArtifactManifest}
    (hslot : activeSlotOf st = .ok (slot, v)) (hm : D.canonicalManifest v = .ok m)
    (hopen : D.registry.openVerifiedModel n v = .ok (model, manifest))
    (heq : manifest.pyEq m = true) : Released D st v model manifest := by
  obtain ⟨hversion, hsigned, hsize, hdigest⟩ := Registry.openVerifiedModel_checked hopen
  refine ⟨?_, ⟨m, hm, heq⟩, hversion, hsigned, hsize, hdigest⟩
  unfold activeSlotOf at hslot
  unfold activeVersionOf
  split at hslot
  · cases hslot
  · split at hslot
    · rename_i v' hv'
      obtain ⟨rfl, rfl⟩ := Prod.mk.inj (Except.ok.inj hslot)
      exact hv'
    · cases hslot

theorem verifiedSlotRuntime_returns {slot : Slot} (hslot : activeSlotOf st = .ok (slot, v)) :
    (D.verifiedSlotRuntime loadRuntime slot v).Returns fun r => ∃ model manifest,
      Released D st v model manifest ∧ loadRuntime model manifest = .ok r := by
  refine .bind (.trivial _) fun n _ => .liftM fun r hr => ?_
  simp only [ABDeployer.verifiedRuntime, bind_eq_ok, raiseIf_eq_ok] at hr
  obtain ⟨m, hm, ⟨model, manifest⟩, hopen, _, heq, hload⟩ := hr
  exact ⟨model, manifest, .of_open hslot hm hopen (Bool.eq_true_of_not_eq_false heq), hload⟩

theorem verifiedSlotArtifact_returns {slot : Slot} (hslot : activeSlotOf st = .ok (slot, v)) :
    (D.verifiedSlotArtifact slot v).Returns fun r => Released D st v r.1 r.2 := by
  refine .bind (.trivial _) fun n _ => .liftM fun r hr => ?_
  simp only [ABDeployer.verifiedArtifact, bind_eq_ok, raiseIf_eq_ok, pure_eq_ok] at hr
  obtain ⟨m, hm, ⟨model, manifest⟩, hopen, _, heq, _, _, raw, hraw, rfl⟩ := hr
  have hreleased : Released D st v model manifest :=
    .of_open hslot hm hopen (Bool.eq_true_of_not_eq_false heq)
  have hraw : raw = model := by
    simp only [ABDeployer.readModel, bind_eq_ok, pure_eq_ok] at hraw
    obtain ⟨_, _, rfl⟩ := hraw
    have hsize := hreleased.size
    exact List.take_of_length_le (by omega)
  rw [hraw]
  exact hreleased

/-- A snapshot belongs to the state it was taken of. -/
theorem snapshot_ofState (f : Field) :
    OfState (f.Of D loadRuntime) (f.snapshot D loadRuntime) := by
  cases f with
  | runtime =>
    have hsnapshot : OfState (fun st r => r.2.2 = st.generation ∧ ∃ model manifest,
        Released D st r.2.1 model manifest ∧ loadRuntime model manifest = .ok r.1)
          (D.activeSnapshot loadRuntime) := by
      refine read_ofState.bind (fun st => ?_) ?_
      · exact .bind (.liftM _) fun _ => .bind verifiedSlotRuntime_reading fun _ => .pure _
      · rintro st _ rfl
        refine .bind (.liftM fun r hr => hr) ?_
        rintro ⟨slot, v⟩ hslot
        exact .bind (verifiedSlotRuntime_returns hslot) fun r hr => ⟨rfl, hr⟩
    refine hsnapshot.bind (fun _ => .pure _) ?_
    rintro st ⟨r, v, g⟩ hr
    exact hr
  | isolated =>
    have hsnapshot : OfState (fun st r => r.2.2 = st.generation ∧ ∃ v, Released D st v r.1 r.2.1)
        D.activeArtifactSnapshot := by
      refine read_ofState.bind (fun st => ?_) ?_
      · exact .bind (.liftM _) fun _ => .bind verifiedSlotArtifact_reading fun _ => .pure _
      · rintro st _ rfl
        refine .bind (.liftM fun r hr => hr) ?_
        rintro ⟨slot, v⟩ hslot
        exact .bind (verifiedSlotArtifact_returns hslot) fun r hr => ⟨rfl, v, hr⟩
    refine hsnapshot.bind (fun _ => .pure _) ?_
    rintro st ⟨model, manifest, g⟩ ⟨hg, v, hr⟩
    exact ⟨hg, manifest, hr.version_eq.symm ▸ hr, rfl, rfl⟩

theorem activeIdentity_ofState :
    OfState (fun st r => r = (st.generation, activeVersionOf st)) D.activeIdentity :=
  read_ofState.bind (fun _ => .pure _) fun st a ha => by rw [ha]; exact rfl

end Belongs

/-! ## What a thread relies on -/

section Threads

variable (D : ABDeployer) {ρ ι : Type} (loadRuntime : Bytes → ArtifactManifest → Except PyError ρ)

/-- The writer is in a lifecycle, and what is cached belongs to a state of the history. -/
structure Inv (s : EngineState ρ ι) : Prop where
  writer : Writer.Inv D s.writer
  cache : ∀ f v, s.cache f = some v → ∃ st ∈ s.history, f.Of D loadRuntime st v

/-- The others add to the history, and leave the cache alone while the thread holds the lock. -/
structure Relied (i : ι) (s s' : EngineState ρ ι) : Prop where
  inv : Inv D loadRuntime s → Inv D loadRuntime s'
  history : s.history <:+ s'.history
  held : s.lock = some i → s'.lock = some i ∧ s'.cache = s.cache
  free : s.lock ≠ some i → s'.lock ≠ some i

variable {D loadRuntime} {i : ι} {s s' s'' : EngineState ρ ι} {h : List DeploymentState}
  {st : DeploymentState}

theorem Relied.refl (i : ι) (s : EngineState ρ ι) : Relied D loadRuntime i s s :=
  ⟨id, List.suffix_refl _, fun hl => ⟨hl, rfl⟩, id⟩

theorem Relied.trans (hs : Relied D loadRuntime i s s') (hs' : Relied D loadRuntime i s' s'') :
    Relied D loadRuntime i s s'' where
  inv hi := hs'.inv (hs.inv hi)
  history := hs.history.trans hs'.history
  held hl := by
    obtain ⟨hl', hc⟩ := hs.held hl
    obtain ⟨hl'', hc'⟩ := hs'.held hl'
    exact ⟨hl'', hc'.trans hc⟩
  free hl := hs'.free (hs.free hl)

/-- A step that leaves the lock and the cache alone. -/
theorem Relied.of_eq (hwriter : Writer.Inv D s.writer → Writer.Inv D s'.writer)
    (hhistory : s.history <:+ s'.history) (hlock : s'.lock = s.lock) (hcache : s'.cache = s.cache) :
    Relied D loadRuntime i s s' where
  inv hi := ⟨hwriter hi.writer, fun f v hv => by
    obtain ⟨st, hst, hof⟩ := hi.cache f v (hcache ▸ hv)
    exact ⟨st, hhistory.subset hst, hof⟩⟩
  history := hhistory
  held hl := ⟨hlock.trans hl, hcache⟩
  free hl := hlock ▸ hl

/-- `st` was the state in `state.json` at some moment after the history was `h`. -/
def Current (h : List DeploymentState) (s : EngineState ρ ι) (st : DeploymentState) : Prop :=
  ∃ past, h <:+ st :: past ∧ st :: past <:+ s.history

theorem Current.relied (hc : Current h s st) (hs : Relied D loadRuntime i s s') :
    Current h s' st := by
  obtain ⟨past, hstart, hend⟩ := hc
  exact ⟨past, hstart, hend.trans hs.history⟩

theorem Current.earlier {h' : List DeploymentState} (hc : Current h s st) (hh : h' <:+ h) :
    Current h' s st := by
  obtain ⟨past, hstart, hend⟩ := hc
  exact ⟨past, hh.trans hstart, hend⟩

theorem Inv.current (hi : Inv D loadRuntime s)
    (hst : durableState s.writer.sys.world = some st) : Current s.history s st := by
  obtain ⟨past, hpast⟩ := List.head?_eq_some_iff.mp (hi.writer.history.1.symm.trans hst)
  have hhistory : s.history = st :: past := hpast
  exact ⟨past, by rw [hhistory], by rw [hhistory]⟩

/-- No two states have one generation. -/
theorem Inv.unique {st' : DeploymentState} (hi : Inv D loadRuntime s) (hst : st ∈ s.history)
    (hst' : st' ∈ s.history) (hg : st.generation = st'.generation) : st = st' := by
  obtain ⟨n, hn, rfl⟩ := List.mem_iff_getElem.mp hst
  obtain ⟨n', hn', rfl⟩ := List.mem_iff_getElem.mp hst'
  have hpairwise := List.pairwise_iff_getElem.mp hi.writer.history.2
  rcases Nat.lt_trichotomy n n' with hlt | rfl | hlt
  · exact absurd hg (hpairwise n n' hn hn' hlt).ne'
  · rfl
  · exact absurd hg (hpairwise n' n hn' hn hlt).ne

theorem Environment.relied (hs : Environment D s s') : Relied D loadRuntime i s s' := by
  cases hs with
  | writer hstep => exact .of_eq (fun hw => hw.step hstep) hstep.history rfl rfl

variable {α : Type} {post : DeploymentState → α → Prop}

variable (D loadRuntime i) in
/-- What is returned belongs to a state of some moment since the history was `h`, or to the first
state. -/
def Read (h : List DeploymentState) (post : DeploymentState → α → Prop) (s : EngineState ρ ι)
    (a : α) (s' : EngineState ρ ι) : Prop :=
  Relied D loadRuntime i s s' ∧ ∃ st, (st = {} ∨ Current h s' st) ∧ post st a

variable (D loadRuntime) in
/-- The thread holds the lock. -/
def Held (i : ι) (s : EngineState ρ ι) : Prop := Inv D loadRuntime s ∧ s.lock = some i

variable (D loadRuntime) in
def Ready (i : ι) (s : EngineState ρ ι) : Prop := Inv D loadRuntime s ∧ s.lock ≠ some i

theorem Held.relied (hh : Held D loadRuntime i s) (hs : Relied D loadRuntime i s s') :
    Held D loadRuntime i s' := ⟨hs.inv hh.1, (hs.held hh.2).1⟩

theorem Ready.relied (hr : Ready D loadRuntime i s) (hs : Relied D loadRuntime i s s') :
    Ready D loadRuntime i s' := ⟨hs.inv hr.1, hs.free hr.2⟩

variable (D loadRuntime) in
/-- The value belongs to the active release of some moment since the history was `h`. -/
def Fresh (h : List DeploymentState) (f : Field) (v : f.Value ρ) (s : EngineState ρ ι) : Prop :=
  ∃ st, f.Of D loadRuntime st v ∧ Current h s st

theorem Field.Of.version_eq {f : Field} {v : f.Value ρ} (hv : f.Of D loadRuntime st v) :
    f.generation v = st.generation ∧ activeVersionOf st = some (f.version v) := by
  cases f with
  | runtime =>
    obtain ⟨hg, _, _, hr, _⟩ := hv
    exact ⟨hg, hr.active⟩
  | isolated =>
    obtain ⟨hg, _, hr, _⟩ := hv
    exact ⟨hg, hr.active⟩

theorem Fresh.relied {f : Field} {v : f.Value ρ} (hv : Fresh D loadRuntime h f v s)
    (hs : Relied D loadRuntime i s s') : Fresh D loadRuntime h f v s' := by
  obtain ⟨st, hof, hc⟩ := hv
  exact ⟨st, hof, hc.relied hs⟩

/-- What has been read of a field is fresh: the first state has no active release. -/
theorem Read.fresh {f : Field} {v : f.Value ρ}
    (hr : Read D loadRuntime i h (f.Of D loadRuntime) s v s') : Fresh D loadRuntime h f v s' := by
  obtain ⟨_, st, hst, hof⟩ := hr
  refine ⟨st, hof, hst.resolve_left ?_⟩
  rintro rfl
  exact nomatch hof.version_eq.2

variable [DecidableEq ι]

variable (D loadRuntime) in
def reliance : Reliance ι (EngineOp ρ) EngineOp.Res PyError (EngineState ρ ι) where
  outcome i o s := Outcome i s o
  environment := Environment D
  rely := Relied D loadRuntime
  refl := Relied.refl
  trans := Relied.trans
  environment_relied := Environment.relied

/-! ## The programs -/

/-- Only the memory of the deployer changes. -/
def Unnoticed : EngineOp ρ → Prop
  | .disk o => Reading o
  | .share | .unshare | .get _ => True
  | _ => False

theorem unnoticed_relied (o : EngineOp ρ) (s : EngineState ρ ι)
    (x : Except PyError o.Res × EngineState ρ ι) (ho : Unnoticed o) (hx : Outcome i s o x) (j : ι) :
    Relied D loadRuntime j s x.2 := by
  cases hx with
  | refused => exact .refl j s
  | executed hx =>
    cases o with
    | disk o =>
      obtain rfl := Option.some.inj ((if_pos ho).symm.trans hx)
      exact .of_eq id (List.suffix_refl _) rfl rfl
    | share =>
      obtain ⟨-, hx⟩ := Option.ite_none_right_eq_some.mp hx
      obtain rfl := Option.some.inj hx
      exact .of_eq id (List.suffix_refl _) rfl rfl
    | unshare | get =>
      obtain rfl := Option.some.inj hx
      exact .of_eq id (List.suffix_refl _) rfl rfl
    | acquire | release | set => cases ho

theorem lift_unnoticed {p : Cmd α} (hp : p.All Reading) :
    (lift p : EngineCmd ρ α).All Unnoticed := by
  induction p with
  | pure a => trivial
  | throw e => trivial
  | op o k ih => exact ⟨hp.1, fun r => ih r (hp.2 r)⟩

theorem lift_returns {p : Cmd α} {post : α → Prop} (hp : p.Returns post) :
    (lift p : EngineCmd ρ α).Returns post := by
  induction p with
  | pure a => exact hp
  | throw e => trivial
  | op o k ih => exact fun r => ih r (hp r)

theorem wpr_lift {p : Cmd α} (hp : OfState post p) (hi : Inv D loadRuntime s) :
    wpr (reliance D loadRuntime) i (lift p) (Read D loadRuntime i s.history post s)
      (fun _ s' => Relied D loadRuntime i s s') s := by
  obtain ⟨k, rfl, hk⟩ := hp
  intro s₁ hs₁ x hx
  have hall : ∀ j, Relied D loadRuntime j s₁ x.2 :=
    unnoticed_relied (EngineOp.disk (.look .state)) s₁ x rfl hx
  cases hx with
  | executed hx =>
    obtain rfl := Option.some.inj hx
    refine ⟨fun j _ => hall j, ?_⟩
    obtain ⟨hreads, hreturns⟩ := hk s₁.view
    refine wpr_mono (wpr_unnoticed (T := reliance D loadRuntime) (lift_unnoticed hreads)
      (lift_returns hreturns) fun o w x ho hx => unnoticed_relied o w x ho hx) ?_ ?_
    · rintro a s₂ ⟨hs₂, st, hst, ha⟩
      refine ⟨hs₁.trans ((hall i).trans hs₂), st, hst.imp_right fun hst => ?_, ha⟩
      have hcurrent : Current s₁.history s₁ st := (hs₁.inv hi).current hst
      exact ((hcurrent.earlier hs₁.history).relied (hall i)).relied hs₂
    · exact fun e s₂ hs₂ => hs₁.trans ((hall i).trans hs₂)

/-- An operation that nobody notices. -/
theorem wpr_unnoticed_op {o : EngineOp ρ} (ho : Unnoticed o) {Q : o.Res → EngineState ρ ι → Prop}
    {E : PyError → EngineState ρ ι → Prop}
    (hok : ∀ a s', Relied D loadRuntime i s s' → Q a s')
    (herror : ∀ e s', Relied D loadRuntime i s s' → E e s') :
    wpr (reliance D loadRuntime) i (.perform o) Q E s := by
  refine wpr_perform fun s₁ hs₁ x hx => ?_
  have hall : ∀ j, Relied D loadRuntime j s₁ x.2 := unnoticed_relied o s₁ x ho hx
  exact ⟨fun j _ => hall j, fun a _ s₂ hs₂ => hok a s₂ (hs₁.trans ((hall i).trans hs₂)),
    fun e _ s₂ hs₂ => herror e s₂ (hs₁.trans ((hall i).trans hs₂))⟩

theorem wpr_shared {p : Cmd α} (hp : OfState post p) (hi : Inv D loadRuntime s) :
    wpr (reliance D loadRuntime) i (shared p) (Read D loadRuntime i s.history post s)
      (fun _ s' => Relied D loadRuntime i s s') s := by
  refine wpr_bind (wpr_unnoticed_op (o := .share) trivial (fun _ s₁ hs₁ => wpr_finally ?_)
    fun _ _ hs₁ => hs₁)
  refine wpr_mono (wpr_lift hp (hs₁.inv hi)) ?_ fun e s₂ hs₂ => ?_
  · rintro a s₂ ⟨hs₂, st, hst, ha⟩
    refine wpr_unnoticed_op (o := .unshare) trivial (fun _ s₃ hs₃ => ?_)
      fun _ s₃ hs₃ => hs₁.trans (hs₂.trans hs₃)
    exact ⟨hs₁.trans (hs₂.trans hs₃), st,
      hst.imp_right fun hc => (hc.earlier hs₁.history).relied hs₃, ha⟩
  · exact wpr_unnoticed_op (o := .unshare) trivial (fun _ s₃ hs₃ => hs₁.trans (hs₂.trans hs₃))
      fun _ s₃ hs₃ => hs₁.trans (hs₂.trans hs₃)

theorem wpr_refresh (f : Field) (hh : Held D loadRuntime i s) (hstart : h <:+ s.history) :
    wpr (reliance D loadRuntime) i (refresh D loadRuntime f)
      (fun v s' => Held D loadRuntime i s' ∧ Fresh D loadRuntime h f v s')
      (fun _ s' => Held D loadRuntime i s') s := by
  refine wpr_bind (wpr_mono (wpr_shared (snapshot_ofState f) hh.1) ?_ fun _ _ hs => hh.relied hs)
  intro v s₁ hread
  obtain ⟨st, hof, hcurrent⟩ := hread.fresh
  have hh₁ : Held D loadRuntime i s₁ := hh.relied hread.1
  refine wpr_bind (wpr_perform fun s₂ hs₂ x hx => ?_)
  have hh₂ : Held D loadRuntime i s₂ := hh₁.relied hs₂
  have hcurrent₂ : Current h s₂ st := (hcurrent.earlier hstart).relied hs₂
  cases hx with
  | executed hx =>
    obtain rfl := Option.some.inj hx
    have hinv : Inv D loadRuntime { s₂ with cache := Function.update s₂.cache f (some v) } := by
      refine ⟨hh₂.1.writer, fun g u hu => ?_⟩
      by_cases hgf : g = f
      · subst hgf
        simp only [Function.update_self, Option.some.injEq] at hu
        subst hu
        obtain ⟨past, -, hpast⟩ := hcurrent₂
        exact ⟨st, hpast.subset List.mem_cons_self, hof⟩
      · simp only [Function.update_of_ne hgf] at hu
        exact hh₂.1.cache g u hu
    have hcurrent₃ : Current h { s₂ with cache := Function.update s₂.cache f (some v) } st :=
      hcurrent₂
    refine ⟨fun j hj => ⟨fun _ => hinv, List.suffix_refl _, fun hl => ?_, id⟩, ?_, nofun⟩
    · exact absurd (Option.some.inj (hl.symm.trans hh₂.2)) hj
    · intro _ _ s₃ hs₃ s₄ hs₄
      refine ⟨?_, st, hof, ?_⟩
      · exact (Held.relied ⟨hinv, hh₂.2⟩ hs₃).relied hs₄
      · exact (hcurrent₃.relied hs₃).relied hs₄

/-- Where the cache has the identity that was read, it holds the release that was active then. -/
theorem wpr_checked (f : Field) (version : PyStr) (hh : Held D loadRuntime i s)
    (hcurrent : Current h s st) :
    wpr (reliance D loadRuntime) i (checked D loadRuntime f st.generation version)
      (fun v s' => Held D loadRuntime i s' ∧ Fresh D loadRuntime h f v s')
      (fun _ s' => Held D loadRuntime i s') s := by
  refine wpr_bind (wpr_perform fun s₁ hs₁ x hx => ?_)
  cases hx with
  | executed hx =>
    obtain rfl := Option.some.inj hx
    refine ⟨fun j _ => Relied.refl j s₁, ?_, nofun⟩
    intro cache hanswer s₂ hs₂
    obtain rfl := Except.ok.inj hanswer
    have hh₁ := hh.relied hs₁
    have hh₂ := hh₁.relied hs₂
    have hcurrent₂ := (hcurrent.relied hs₁).relied hs₂
    have hrefresh : wpr (reliance D loadRuntime) i (refresh D loadRuntime f)
        (fun v s' => Held D loadRuntime i s' ∧ Fresh D loadRuntime h f v s')
        (fun _ s' => Held D loadRuntime i s') s₂ := by
      obtain ⟨past, hstart, hend⟩ := hcurrent₂
      exact wpr_refresh f hh₂ (hstart.trans hend)
    cases hcache : s₁.cache f with
    | none => exact hrefresh
    | some v =>
      dsimp only
      split_ifs with heq
      · intro s₃ hs₃
        refine ⟨hh₂.relied hs₃, st, ?_, hcurrent₂.relied hs₃⟩
        -- the cached value and the identity are of one generation
        obtain ⟨st', hst', hof⟩ := hh₁.1.cache f v hcache
        obtain ⟨past, -, hpast⟩ := hcurrent.relied hs₁
        have hsame : st' = st := hh₁.1.unique hst' (hpast.subset List.mem_cons_self)
          (hof.version_eq.1.symm.trans heq.1)
        exact hsame ▸ hof
      · exact hrefresh

theorem wpr_locked {p : EngineCmd ρ α} {F : α → EngineState ρ ι → Prop}
    (hF : ∀ {a s s'}, F a s → Relied D loadRuntime i s s' → F a s')
    (hfree : ∀ {a s}, F a s → F a { s with lock := none }) (hr : Ready D loadRuntime i s)
    (hp : ∀ s', s.history <:+ s'.history → Held D loadRuntime i s' →
      wpr (reliance D loadRuntime) i p (fun a s' => Held D loadRuntime i s' ∧ F a s')
        (fun _ s' => Held D loadRuntime i s') s') :
    wpr (reliance D loadRuntime) i (locked p)
      (fun a s' => Ready D loadRuntime i s' ∧ F a s') (fun _ s' => Ready D loadRuntime i s') s := by
  -- whoever has the lock gives it back
  have hrelease : ∀ {Q : Unit → EngineState ρ ι → Prop} {s : EngineState ρ ι},
      Held D loadRuntime i s → (∀ s', Relied D loadRuntime i s s' → ∀ s'', 
        Relied D loadRuntime i { s' with lock := none } s'' → Q () s'') →
      wpr (reliance D loadRuntime) i (.perform .release) Q
        (fun _ s' => Ready D loadRuntime i s') s := by
    intro Q s hh hQ
    refine wpr_perform fun s₁ hs₁ x hx => ?_
    have hh₁ := hh.relied hs₁
    cases hx with
    | executed hx =>
      obtain rfl := Option.some.inj hx
      refine ⟨fun j hj => ⟨fun hi => ⟨hi.writer, hi.cache⟩, List.suffix_refl _, fun hl => ?_,
        fun _ => nofun⟩, fun _ _ s₂ hs₂ => hQ s₁ hs₁ s₂ hs₂, nofun⟩
      exact absurd (Option.some.inj (hl.symm.trans hh₁.2)) hj
  have hready : ∀ {s' s'' : EngineState ρ ι}, Held D loadRuntime i s' →
      Relied D loadRuntime i { s' with lock := none } s'' → Ready D loadRuntime i s'' := by
    intro s' s'' hh hs
    have hfree : Ready D loadRuntime i { s' with lock := none } :=
      ⟨⟨hh.1.writer, hh.1.cache⟩, (Option.some_ne_none i).symm⟩
    exact hfree.relied hs
  refine wpr_bind (wpr_perform fun s₁ hs₁ x hx => ?_)
  have hr₁ := hr.relied hs₁
  cases hx with
  | executed hx =>
    obtain ⟨hnone, hx⟩ := Option.ite_none_right_eq_some.mp hx
    obtain rfl := Option.some.inj hx
    have hh₁ : Held D loadRuntime i { s₁ with lock := some i } :=
      ⟨⟨hr₁.1.writer, hr₁.1.cache⟩, rfl⟩
    refine ⟨fun j hj => ⟨fun hi => ⟨hi.writer, hi.cache⟩, List.suffix_refl _, fun hl => ?_,
      fun _ hl => hj (Option.some.inj hl).symm⟩, fun _ _ s₂ hs₂ => wpr_finally ?_, nofun⟩
    · exact nomatch (Option.isNone_iff_eq_none.mp hnone).symm.trans hl
    · have hhistory : s.history <:+ s₂.history := hs₁.history.trans hs₂.history
      refine wpr_mono (hp s₂ hhistory (hh₁.relied hs₂)) ?_ fun e s₃ hh₃ => ?_
      · rintro a s₃ ⟨hh₃, ha⟩
        exact hrelease hh₃ fun s₄ hs₄ s₅ hs₅ =>
          ⟨hready (hh₃.relied hs₄) hs₅, hF (hfree (hF ha hs₄)) hs₅⟩
      · exact hrelease hh₃ fun s₄ hs₄ s₅ hs₅ => hready (hh₃.relied hs₄) hs₅

theorem wpr_cached (f : Field) (hr : Ready D loadRuntime i s) :
    wpr (reliance D loadRuntime) i (cached D loadRuntime f)
      (fun v s' => Ready D loadRuntime i s' ∧ Fresh D loadRuntime s.history f v s')
      (fun _ s' => Ready D loadRuntime i s') s := by
  refine wpr_bind (wpr_mono (wpr_lift activeIdentity_ofState hr.1) ?_ fun _ _ hs => hr.relied hs)
  rintro ⟨generation, version⟩ s₁ ⟨hs₁, st, hst, heq⟩
  obtain ⟨rfl, rfl⟩ := Prod.mk.inj heq
  have hr₁ := hr.relied hs₁
  cases hversion : activeVersionOf st with
  | none => exact fun s₂ hs₂ => hr₁.relied hs₂
  | some version =>
    have hcurrent : Current s.history s₁ st := by
      refine hst.resolve_left ?_
      rintro rfl
      cases hversion
    refine wpr_locked Fresh.relied id hr₁ fun s₂ hhistory hh₂ => wpr_checked f version hh₂ ?_
    obtain ⟨past, hstart, hend⟩ := hcurrent
    exact ⟨past, hstart, hend.trans hhistory⟩

end Threads

/-! ## The theorem -/

section Serving

variable (e : Config.InferenceEngine) (D : ABDeployer) {ρ ι : Type}
  (loadRuntime : Bytes → ArtifactManifest → Except PyError ρ)

/-- An empty root, and an engine that has cached nothing. -/
structure Initial (s : EngineState ρ ι) : Prop where
  lifecycle : (lifecycle D).initial s.writer.sys
  rest : s.writer.rest = none
  lock : s.lock = none
  sharers : ∀ i, s.sharers i = false
  cache : ∀ f, s.cache f = none

variable {D loadRuntime} in
theorem Initial.ready {s : EngineState ρ ι} (h : Initial D s) (i : ι) : Ready D loadRuntime i s := by
  refine ⟨⟨?_, fun f v hv => ?_⟩, ?_⟩
  · rw [Writer.Inv, h.rest]
    exact .initial h.lifecycle
  · exact nomatch (h.cache f).symm.trans hv
  · rw [h.lock]
    exact (Option.some_ne_none i).symm

variable [DecidableEq ι]

/-- Any number of threads that call an engine while a writer deploys. -/
def serving : System (Pool ι (EngineOp ρ) EngineOp.Res PyError (Prepared ρ) EngineCall
    (EngineState ρ ι)) :=
  Pool.system (reliance D loadRuntime) (EngineCall.program e D loadRuntime) (Initial D)

/-- The material of an answer belongs to a state. -/
def Prepared.Of (st : DeploymentState) : Prepared ρ → Prop
  | inference _ live => Field.Of D loadRuntime st .runtime live
  | isolatedInference _ s | isolated s => s.maxUncompressedBytes = D.maxModelUncompressedBytes ∧
      Field.Of D loadRuntime st .isolated
        ⟨s.modelBytes, s.modelKind, s.runtimeAbi, s.version, s.generation⟩

/-- The inputs of an answer are those of the call, which the engine accepts. -/
def EngineCall.Accepts : EngineCall → Prepared ρ → Prop
  | prepare x, .inference a _ | prepareIsolated x, .isolatedInference a _ =>
    e.validatedArray x = .ok a
  | isolatedRuntimeSnapshot, .isolated _ => True
  | _, _ => False

variable {e D loadRuntime} {i : ι} {s : EngineState ρ ι}

theorem wpr_isolatedRuntimeSnapshot (hr : Ready D loadRuntime i s) :
    wpr (reliance D loadRuntime) i (isolatedRuntimeSnapshot D loadRuntime)
      (fun r s' => Ready D loadRuntime i s' ∧
        ∃ st, (Prepared.isolated r).Of D loadRuntime st ∧ Current s.history s' st)
      (fun _ s' => Ready D loadRuntime i s') s := by
  refine wpr_bind (wpr_mono (wpr_cached .isolated hr) ?_ fun _ _ h => h)
  rintro artifact s₁ ⟨hr₁, st, hof, hc⟩ s₂ hs₂
  exact ⟨hr₁.relied hs₂, st, ⟨rfl, hof⟩, hc.relied hs₂⟩

theorem wpr_program (call : EngineCall) (hr : Ready D loadRuntime i s) :
    wpr (reliance D loadRuntime) i (call.program e D loadRuntime)
      (fun r s' => Ready D loadRuntime i s' ∧ (call.Accepts e r ∧
        ∃ st, r.Of D loadRuntime st ∧ Current s.history s' st))
      (fun _ s' => Ready D loadRuntime i s') s := by
  cases call with
  | prepare x =>
    refine wpr_bind (wpr_liftM (fun a ha s₁ hs₁ => ?_) fun _ _ _ hs₁ => hr.relied hs₁)
    refine wpr_bind (wpr_mono (wpr_cached .runtime (hr.relied hs₁)) ?_ fun _ _ h => h)
    rintro live s₂ ⟨hr₂, st, hof, hc⟩ s₃ hs₃
    exact ⟨hr₂.relied hs₃, ha, st, hof, (hc.earlier hs₁.history).relied hs₃⟩
  | prepareIsolated x =>
    refine wpr_bind (wpr_liftM (fun a ha s₁ hs₁ => ?_) fun _ _ _ hs₁ => hr.relied hs₁)
    refine wpr_bind (wpr_mono (wpr_isolatedRuntimeSnapshot (hr.relied hs₁)) ?_ fun _ _ h => h)
    rintro r s₂ ⟨hr₂, st, hof, hc⟩ s₃ hs₃
    exact ⟨hr₂.relied hs₃, ha, st, hof, (hc.earlier hs₁.history).relied hs₃⟩
  | isolatedRuntimeSnapshot =>
    refine wpr_bind (wpr_mono (wpr_isolatedRuntimeSnapshot hr) ?_ fun _ _ h => h)
    rintro r s₂ ⟨hr₂, st, hof, hc⟩ s₃ hs₃
    exact ⟨hr₂.relied hs₃, trivial, st, hof, hc.relied hs₃⟩

/-- However the calls and the writer interleave, what a call is about to return belongs to one
state that was in `state.json` at some moment of the call. -/
theorem engine_linearizable (e : Config.InferenceEngine) (D : ABDeployer)
    (loadRuntime : Bytes → ArtifactManifest → Except PyError ρ)
    (s : Pool ι (EngineOp ρ) EngineOp.Res PyError (Prepared ρ) EngineCall (EngineState ρ ι))
    (hs : (serving e D loadRuntime).Reachable s) (i : ι) (call : EngineCall)
    (start : EngineState ρ ι) (r : Prepared ρ) (hrun : s.run i = some ⟨call, start, .pure r⟩) :
    call.Accepts e r ∧ ∃ st, r.Of D loadRuntime st ∧ Current start.history s.world st :=
  Pool.meets_spec (T := reliance D loadRuntime) (Ready D loadRuntime)
    (fun call start r s => call.Accepts e r ∧
      ∃ st, r.Of D loadRuntime st ∧ Current start.history s st)
    (fun hr hs => hr.relied hs) (fun i _ h => h.ready i) (fun _ call _ hr => wpr_program call hr) hs
    hrun

/-! ## Building runs -/

/-- A thread that nobody interrupts, for some operations at most: what is left of it. -/
def alone {α : Type} (i : ι) :
    Nat → EngineCmd ρ α → EngineState ρ ι → Option (EngineCmd ρ α × EngineState ρ ι)
  | n + 1, .op o k, s => (EngineState.exec i o s).bind fun x => alone i n (k x.1) x.2
  | _, p, s => some (p, s)

variable {t : Pool ι (EngineOp ρ) EngineOp.Res PyError (Prepared ρ) EngineCall (EngineState ρ ι)}

theorem reachable_alone {n : Nat} {p q : EngineCmd ρ (Prepared ρ)} {call : EngineCall}
    {start w : EngineState ρ ι} (ht : (serving e D loadRuntime).Reachable t)
    (hrun : t.run i = some ⟨call, start, p⟩) (halone : alone i n p t.world = some (q, w)) :
    ∃ u, (serving e D loadRuntime).Reachable u ∧ u.run i = some ⟨call, start, q⟩ ∧
      (∀ j ≠ i, u.run j = t.run j) ∧ u.world = w := by
  induction n generalizing t p with
  | zero =>
    obtain ⟨rfl, rfl⟩ := Prod.mk.inj (Option.some.inj halone)
    exact ⟨t, ht, hrun, fun _ _ => rfl, rfl⟩
  | succ n ih =>
    cases p with
    | pure a | throw a =>
      obtain ⟨rfl, rfl⟩ := Prod.mk.inj (Option.some.inj halone)
      exact ⟨t, ht, hrun, fun _ _ => rfl, rfl⟩
    | op o k =>
      obtain ⟨x, hx, hnext⟩ := Option.bind_eq_some_iff.mp halone
      obtain ⟨u, hu, hleft, hothers, hw⟩ :=
        ih (.step ht (.act hrun (.executed hx))) (Function.update_self ..) hnext
      exact ⟨u, hu, hleft, fun j hj => (hothers j hj).trans (Function.update_of_ne hj ..), hw⟩

/-- While the process lock is not shared the writer goes on. -/
theorem reachable_writer {w : Writer} (ht : (serving e D loadRuntime).Reachable t)
    (hsharers : ∀ i, t.world.sharers i = false)
    (hw : Relation.ReflTransGen (Writer.Step D) t.world.writer w) :
    (serving e D loadRuntime).Reachable { t with world := { t.world with writer := w } } := by
  induction hw with
  | refl => exact ht
  | tail _ hstep ih => exact .step ih (.environment (.writer hstep fun _ _ => hsharers))

end Serving

namespace Sample

open Deploy.Sample

/-- An engine of two threads that has cached nothing, beside a writer. -/
def beside (writer : Writer) : EngineState Unit Bool where
  writer := writer
  sharers _ := false
  lock := none
  memory := { trustedFloor := none, recoveryRequired := false }
  cache _ := none

/-- The root after a first release has been deployed. -/
def served : Sys :=
  ⟨deployed false one (constructed false), true,
    (Request.deploy one).logged (constructed false) ++ []⟩

def load (_ : Bytes) (_ : ArtifactManifest) : Except PyError Unit := .ok ()

variable {e : Config.InferenceEngine}

theorem reachable_served :
    (serving e (deployer false) load).Reachable ⟨beside ⟨served, none⟩, fun _ => none⟩ := by
  have hinitial : (serving e (deployer false) load).Reachable
      ⟨beside ⟨⟨emptyRoot, false, []⟩, none⟩, fun _ => none⟩ :=
    .initial ⟨⟨⟨⟨fun _ => rfl, rfl, rfl⟩, rfl, rfl⟩, rfl, rfl, fun _ => rfl, fun _ => rfl⟩,
      fun _ => rfl⟩
  have hconstruct := reachable_writer hinitial (fun _ => rfl)
    (Writer.steps_construct (constructed_finishes false))
  have hdeploy := reachable_writer hconstruct (fun _ => rfl) (Writer.steps_call (.deploy one))
  unfold served deployed
  exact hdeploy

def engine : Config.InferenceEngine := Config.InferenceEngine.Sample.engine

def program : EngineCmd Unit (Prepared Unit) :=
  EngineCall.isolatedRuntimeSnapshot.program engine (deployer false) load

/-- The writer deploys the second release. -/
def deployTwo (s : EngineState Unit Bool) : Option (EngineState Unit Bool) :=
  match s.writer with
  | ⟨⟨w, true, calls⟩, none⟩ =>
    if ∀ i, s.sharers i = false then
      some { s with writer := ⟨⟨(sem.run ((Request.deploy two).program (deployer false)) w).2, true,
        (Request.deploy two).logged w ++ calls⟩, none⟩ }
    else none
  | _ => none

/-- A thread takes a snapshot, which the engine caches.  A second one has read the identity of
the active release when the writer deploys the next, and goes on. -/
def meanwhile : Option (EngineState Unit Bool × EngineCmd Unit (Prepared Unit) ×
    EngineState Unit Bool) :=
  (alone false 1000 program (beside ⟨served, none⟩)).bind fun first =>
    (alone true 1 program first.2).bind fun second =>
      (deployTwo second.2).bind fun s =>
        (alone true 1000 second.1 s).map fun last => (first.2, last)

theorem reachable_meanwhile {start s : EngineState Unit Bool}
    {q : EngineCmd Unit (Prepared Unit)} (h : meanwhile = some (start, q, s)) :
    ∃ u, (serving engine (deployer false) load).Reachable u ∧
      u.run true = some ⟨.isolatedRuntimeSnapshot, start, q⟩ ∧ u.world = s := by
  unfold meanwhile at h
  simp only [Option.bind_eq_some_iff, Option.map_eq_some_iff, Prod.mk.injEq] at h
  obtain ⟨⟨_, s₁⟩, hfirst, ⟨p, s₂⟩, hsecond, s₃, hdeploy, _, hlast, rfl, rfl⟩ := h
  dsimp only at hsecond hdeploy hlast ⊢
  have hcalled := System.Reachable.step (reachable_served (e := engine))
    (.call (i := false) EngineCall.isolatedRuntimeSnapshot rfl)
  obtain ⟨t, ht, -, hothers, rfl⟩ := reachable_alone hcalled rfl hfirst
  have hidle : t.run true = none := hothers true (by decide)
  have hagain := System.Reachable.step ht (.call EngineCall.isolatedRuntimeSnapshot hidle)
  obtain ⟨u, hu, hrun, -, rfl⟩ := reachable_alone hagain (Function.update_self ..) hsecond
  unfold deployTwo at hdeploy
  split at hdeploy
  · rename_i w calls hwriter
    split_ifs at hdeploy with hfree
    obtain rfl := Option.some.inj hdeploy
    have hdeployed := reachable_writer hu hfree (hwriter ▸ Writer.steps_call (.deploy two))
    obtain ⟨v, hv, hleft, -, hend⟩ :=
      reachable_alone (i := true) (n := 1000) hdeployed hrun hlast
    exact ⟨v, hv, hleft, hend⟩
  · cases hdeploy

/-- The second thread returns the first release, and the second is active. -/
def overtaken : Option (EngineState Unit Bool × EngineCmd Unit (Prepared Unit) ×
    EngineState Unit Bool) → Bool
  | some (_, .pure (.isolated r), s) => r.version = py "1.0.0" ∧
      (s.history.head?.bind activeVersionOf) = some (py "2.0.0")
  | _ => false

theorem overtaken_meanwhile : overtaken meanwhile = true := by
  unfold meanwhile served deployed constructed
  decide +kernel

end Sample

/-- A call that finds in the cache what was active when it read the identity, and is active no
longer when it returns. -/
theorem engine_linearizable_sample : ∃ (start s : EngineState Unit Bool)
    (r : IsolatedRuntimeSnapshot), r.version = py "1.0.0" ∧
      s.history.head?.bind activeVersionOf = some (py "2.0.0") ∧
      EngineCall.isolatedRuntimeSnapshot.Accepts Sample.engine (Prepared.isolated (ρ := Unit) r) ∧
      ∃ st, (Prepared.isolated r).Of (Deploy.Sample.deployer false) Sample.load st ∧
        Current start.history s st := by
  have hend := Sample.overtaken_meanwhile
  unfold Sample.overtaken at hend
  split at hend
  · rename_i start r s hmeanwhile
    obtain ⟨u, hu, hrun, rfl⟩ := Sample.reachable_meanwhile hmeanwhile
    obtain ⟨hversion, hactive⟩ := of_decide_eq_true hend
    exact ⟨start, u.world, r, hversion, hactive, engine_linearizable Sample.engine
      (Deploy.Sample.deployer false) Sample.load u hu true .isolatedRuntimeSnapshot start _ hrun⟩
  · cases hend

end Engine
end EdgeFort
