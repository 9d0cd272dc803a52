/-
The registry over whole runs.

Any number of processes call `add` on one registry root, each step by step.
-/
import EdgeFort.Registry.ReadBack

namespace EdgeFort
namespace Publish

open Effect

variable {P : Platform} {used : TrustedKeyring → Prop} {c : AddCall}

/-- `add` is safe. -/
theorem add_safe (hP : P.interpreter.Lawful) (hused : used c.keyring) :
    Safe sem (fun w => visible w.root) (RootInv P used) (· = ·) (add P c) none False := by
  refine Safe.bind not_false (checked_quiet c) (checked_returns c) fun manifest hm => ?_
  refine Safe.locked not_false (fun w hw => ?_) fun _ _ => trivial
  exact wp_publishSection hP hm hused hw

/-- What a process outside the lock does, nobody sees. -/
theorem unseen_eq (I : World → Prop) : Unseen sem (fun w => visible w.root) I (· = ·) where
  keeps h := h ▸ id
  shows h := h ▸ rfl
  answers h hx := ⟨_, h ▸ hx, rfl, rfl⟩

/-- No operation takes back what is published. -/
theorem published_extends {o : Op} {w : World} {x : Except PyError o.Res × World}
    (hx : sem.Outcome o w x) : w.published <+: x.2.published := by
  have hfill : ∀ stage file data, (fill w stage file data).2.published = w.published := by
    intro stage file data
    unfold fill
    split <;> rfl
  rcases hx with rfl | hx
  · cases o with
    | publish stage name =>
      simp only [sem, exec]
      split
      · exact List.prefix_append _ _
      · exact List.prefix_append _ _
      · exact List.prefix_rfl
    | copyModel path stage =>
      simp only [sem, exec]
      split
      · rw [hfill]
      · exact List.prefix_rfl
    | writeFile stage file data =>
      show w.published <+: (fill w stage file data).2.published
      rw [hfill]
    | _ => exact List.prefix_rfl
  · cases hx with
    | copied data =>
      show w.published <+: (fill w _ .model data).2.published
      rw [hfill]
    | _ => exact List.prefix_rfl

variable {ι : Type}

def keyringUsed (may : ι → AddCall → Prop) (K : TrustedKeyring) : Prop :=
  ∃ i c, may i c ∧ c.keyring = K

theorem publishers_safe (hP : P.interpreter.Lawful) {may : ι → AddCall → Prop} (i : ι)
    (p : Party Op Op.Res PyError PyStr) (hp : ∃ c, may i c ∧ p = add P c) :
    Safe sem (fun w => visible w.root) (RootInv P (keyringUsed may)) (· = ·) p none False := by
  obtain ⟨c, hc, rfl⟩ := hp
  exact add_safe hP ⟨i, c, hc, rfl⟩

variable [DecidableEq ι]

/-- Processes that call `add` on one registry, with the calls each may make. -/
def publishers (P : Platform) (may : ι → AddCall → Prop) :
    System (Shared ι Op Op.Res PyError PyStr World) :=
  Shared.system sem (fun w => visible w.root) (fun i p => ∃ c, may i c ∧ p = add P c)
    fun w => Listing w.root ∧ visible w.root = [] ∧ w.published = []

variable {may : ι → AddCall → Prop} {s t : Shared ι Op Op.Res PyError PyStr World}

theorem rootInv_of_empty {w : World}
    (hw : Listing w.root ∧ visible w.root = [] ∧ w.published = []) : RootInv P used w := by
  obtain ⟨hlist, hnone, hpublished⟩ := hw
  refine ⟨hlist, hpublished.trans hnone.symm, ?_⟩
  rw [hnone]
  exact ⟨nofun, .nil⟩

theorem publishers_kept (hP : P.interpreter.Lawful) (hs : (publishers P may).Reachable s) :
    Shared.Kept sem (fun w => visible w.root) (RootInv P (keyringUsed may)) (· = ·) s :=
  Shared.kept_of_reachable (unseen_eq _) (publishers_safe hP) (fun _ => rootInv_of_empty) hs

/-- A publisher that nobody interferes with comes to the end of its call. -/
theorem publishers_end (hP : P.interpreter.Lawful) (hs : (publishers P may).Reachable s) {i : ι}
    {p : Party Op Op.Res PyError PyStr} (hrun : s.run i = some p) (hfree : s.holder = none) :
    ∃ t, (publishers P may).Reachable t ∧
      t.world = ((Party.solo sem).run p s.world).2 := by
  obtain ⟨t, ht, -, hworld⟩ := Shared.reaches_end (unseen_eq _) (publishers_safe hP)
    (fun _ => rootInv_of_empty) hs hrun (Or.inl hfree)
  exact ⟨t, ht, hworld⟩

/-- Every step only adds to what is published. -/
theorem publishers_extend (h : (publishers P may).step s t) :
    s.world.published <+: t.world.published := by
  cases h with
  | act _ hx => exact published_extends hx
  | _ => exact List.prefix_rfl

theorem publishers_later (h : Relation.ReflTransGen (publishers P may).step s t) :
    s.world.published <+: t.world.published := by
  induction h with
  | refl => exact List.prefix_rfl
  | tail _ hst ih => exact ih.trans (publishers_extend hst)

/-- What holds in a state of the registry: a published entry is a directory, named by
the version of a manifest that verifies under the keyring of a publisher; no two have
one release sequence; in every later state the name still has this entry; and an
`add` that raises has published nothing. -/
structure Intact (P : Platform) (may : ι → AddCall → Prop)
    (s : Shared ι Op Op.Res PyError PyStr World) : Prop where
  entry : ∀ e ∈ visible s.world.root, (∃ es, e.2 = .dir es) ∧ ∃ i c m, may i c ∧
    (registry P c.keyring).verifyDirectory e.2 e.1 = .ok m ∧ m.version = e.1
  sequences : ∀ e ∈ visible s.world.root, ∀ e' ∈ visible s.world.root, ∀ K K' m m',
    (registry P K).verifyDirectory e.2 e.1 = .ok m →
    (registry P K').verifyDirectory e'.2 e'.1 = .ok m' →
    m.releaseSequence = m'.releaseSequence → e = e'
  lasting : ∀ t, Relation.ReflTransGen (publishers P may).step s t →
    ∀ e ∈ visible s.world.root, t.world.root.lookup e.1 = some e.2
  raising : ∀ i e, s.run i = some (.throw e) → ¬s.changed i

theorem reachable_later (hs : (publishers P may).Reachable s)
    (h : Relation.ReflTransGen (publishers P may).step s t) : (publishers P may).Reachable t := by
  induction h with
  | refl => exact hs
  | tail _ hst ih => exact .step ih hst

/-- Every state that processes adding to an empty registry reach is intact. -/
theorem registry_integrity (P : Platform) (hP : P.interpreter.Lawful)
    (may : ι → AddCall → Prop) (s : Shared ι Op Op.Res PyError PyStr World)
    (hs : (publishers P may).Reachable s) : Intact P may s := by
  have hkept := publishers_kept hP hs
  constructor
  · intro e he
    obtain ⟨K, m, ⟨i, c, hc, rfl⟩, hm⟩ := hkept.holds.sound.verified e he
    obtain ⟨model, hopen⟩ := Registry.verifyDirectory_ok.mp hm
    exact ⟨Registry.openVerifiedModel_dir hopen, i, c, m, hc, hm,
      (Registry.openVerifiedModel_checked hopen).1⟩
  · intro e he e' he' K K' m m' hm hm' heq
    by_contra hne
    have hdiffer := hkept.holds.sound.sequences.forall he he' hne
    exact hdiffer K K' m m' hm hm' heq
  · intro t ht e he
    have hinv := (publishers_kept hP (reachable_later hs ht)).holds
    have hlater : e ∈ visible t.world.root := by
      rw [← hinv.published]
      exact (publishers_later ht).subset (hkept.holds.published ▸ he)
    exact hinv.listing.lookup (mem_visible.mp hlater).1
  · exact fun i e hrun => Shared.not_changed_of_raise hkept hrun

/-! ## A registry with one release -/

open EdgeFort.Sample

/-- One process, that may add one signed release. -/
def mayAddThree (_ : Unit) (c : AddCall) : Prop :=
  c = signedCall manifestThree.object messageThree signingKeyId

/-- An empty registry. -/
def sampleStart : Shared Unit Op Op.Res PyError PyStr World :=
  ⟨rootWith [], none, rootWith [], fun _ => none, fun _ => False⟩

/-- A state after the release has been added. -/
theorem sample_reachable : ∃ s es, (publishers signing mayAddThree).Reachable s ∧
    visible s.world.root = [(py "1.0.0", .dir es)] := by
  obtain ⟨m, es, hversion, -, -, hrun⟩ :=
    (signed_three signingKeyId).publishes interpreter_lawful fits_three
  have hstart : (publishers signing mayAddThree).Reachable sampleStart :=
    .initial ⟨⟨(signed_three signingKeyId).listing, rfl, rfl⟩, rfl, fun _ => rfl⟩
  have hcall : (publishers signing mayAddThree).step sampleStart _ :=
    Shared.Step.start (i := ()) rfl ⟨_, rfl, rfl⟩
  obtain ⟨t, ht, hworld⟩ := publishers_end interpreter_lawful (hstart.step hcall) (i := ()) rfl rfl
  refine ⟨t, es, ht, ?_⟩
  have hnew : ∀ e ∈ put (rootWith []).root (freshStage (rootWith []).root) none,
      e.1 ≠ py "1.0.0" := by
    intro e he
    rcases mem_put.mp he with ⟨he, -⟩ | ⟨-, he⟩
    · rw [List.mem_singleton.mp he]
      decide
    · cases he
  rw [hworld]
  show visible ((Party.solo sem).run _ (rootWith [])).2.root = _
  rw [hrun]
  show visible (put (put _ _ _) _ _) = _
  rw [visible_put_new (by decide) hnew, visible_put_hidden (hidden_freshStage _)]
  rfl

theorem registry_integrity_sample : ∃ s es, visible s.world.root = [(py "1.0.0", .dir es)] ∧
    Intact signing mayAddThree s := by
  obtain ⟨s, es, hs, hvisible⟩ := sample_reachable
  exact ⟨s, es, hvisible, registry_integrity signing interpreter_lawful mayAddThree s hs⟩

end Publish
end EdgeFort
