/-
What `add` keeps of the registry root.

What makes a registry sound is said once, of a root (`Sound`), and kept by every
operation of the section under the lock; before the lock is taken `add` only reads.
-/
import EdgeFort.Registry.CanonicalManifest
import EdgeFort.Registry.Publish

namespace EdgeFort
namespace Publish

open Effect Manifest

/-! ## Entries under other names -/

section Lookup

variable {α β : Type} [BEq α] [LawfulBEq α] {k other : α}

theorem lookup_singleton_ne (h : other ≠ k) (x : β) : [(k, x)].lookup other = none :=
  List.lookup_eq_none_iff.mpr fun e he => by
    rw [List.mem_singleton.mp he]
    exact bne_iff_ne.mpr h

variable [DecidableEq α]

theorem lookup_filter_self (xs : List (α × β)) :
    (xs.filter fun e => e.1 ≠ k).lookup k = none := by
  refine List.lookup_eq_none_iff.mpr fun e he => ?_
  have hne : e.1 ≠ k := of_decide_eq_true (List.mem_filter.mp he).2
  exact bne_iff_ne.mpr hne.symm

theorem lookup_filter_ne (h : other ≠ k) (xs : List (α × β)) :
    (xs.filter fun e => e.1 ≠ k).lookup other = xs.lookup other := by
  induction xs with
  | nil => rfl
  | cons e xs ih =>
    by_cases he : e.1 = k
    · have hne : (other == e.1) = false := beq_eq_false_iff_ne.mpr (he ▸ h)
      rw [List.filter_cons_of_neg (by simp [he]), ih, List.lookup_cons, hne]
    · rw [List.filter_cons_of_pos (by simp [he]), List.lookup_cons, List.lookup_cons, ih]

end Lookup

/-! ## The root as a list of entries -/

variable {root : List (PyStr × Node)} {name stage : PyStr}

/-- No two entries of one name, and each is there. -/
structure Listing (root : List (PyStr × Node)) : Prop where
  nodup : (root.map Prod.fst).Nodup
  present : ∀ e ∈ root, e.2.present = true

theorem mem_put {x : Option Node} {e : PyStr × Node} :
    e ∈ put root name x ↔ (e ∈ root ∧ e.1 ≠ name) ∨ (e.1 = name ∧ some e.2 = x) := by
  cases x <;> simp [put, Prod.ext_iff]

theorem Listing.put (h : Listing root) {x : Option Node} (hx : ∀ n, x = some n → n.present = true) :
    Listing (put root name x) where
  nodup := by
    have hsub : ((root.filter fun e => e.1 ≠ name).map Prod.fst).Nodup :=
      h.nodup.sublist (List.filter_sublist.map _)
    cases x with
    | none => simpa [Publish.put] using hsub
    | some n =>
      simp only [Publish.put, List.map_append, Option.map_some, Option.toList_some,
        List.map_cons, List.map_nil]
      refine List.Nodup.append hsub (List.nodup_singleton _) ?_
      simp [List.disjoint_singleton]
  present e he := by
    rcases mem_put.mp he with ⟨he, _⟩ | ⟨_, hn⟩
    · exact h.present e he
    · exact hx e.2 hn.symm

/-- A listed entry is what its name is looked up as. -/
theorem Listing.lookup (h : Listing root) {e : PyStr × Node} (he : e ∈ root) :
    root.lookup e.1 = some e.2 :=
  Json.lookup_of_nodup h.nodup he

/-- What is looked up as absent is not listed. -/
theorem Listing.absent (h : Listing root)
    (hn : ((root.lookup name).getD .missing).present = false) : ∀ e ∈ root, e.1 ≠ name := by
  rintro e he rfl
  rw [h.lookup he] at hn
  exact absurd (h.present e he) (by simpa using hn)

theorem lookup_put_self (n : Node) : (put root name (some n)).lookup name = some n := by
  rw [put, List.lookup_append, lookup_filter_self, Option.none_or]
  simp

theorem lookup_put_ne {other : PyStr} (h : other ≠ name) (x : Option Node) :
    (put root name x).lookup other = root.lookup other := by
  have hlast : (x.map fun n => (name, n)).toList.lookup other = none := by
    cases x with
    | none => rfl
    | some n => exact lookup_singleton_ne h n
  rw [put, List.lookup_append, lookup_filter_ne h, hlast, Option.or_none]

theorem put_put (x y : Option Node) : put (put root name x) name y = put root name y := by
  have hlast : (x.map fun n => (name, n)).toList.filter (fun e => e.1 ≠ name) = [] := by
    cases x <;> simp
  rw [put, put, List.filter_append, hlast, List.append_nil, List.filter_filter, put]
  simp

theorem visible_put_hidden (h : hidden name = true) (x : Option Node) :
    visible (put root name x) = visible root := by
  have hx : visible (x.map fun n => (name, n)).toList = [] := by
    cases x <;> simp [visible, h]
  rw [put, visible, List.filter_append, ← visible, ← visible, hx, List.append_nil, visible,
    List.filter_filter]
  refine List.filter_congr fun e _ => ?_
  by_cases he : e.1 = name
  · simp [he, h]
  · simp [he]

/-- An entry put in place under a name of its own comes after those in place. -/
theorem visible_put_new (h : hidden name = false) (hnew : ∀ e ∈ root, e.1 ≠ name) (n : Node) :
    visible (put root name (some n)) = visible root ++ [(name, n)] := by
  have hfilter : (root.filter fun e => e.1 ≠ name) = root :=
    List.filter_eq_self.mpr fun e he => by simpa using hnew e he
  rw [put, hfilter, visible, List.filter_append]
  simp [visible, h]

theorem mem_visible {e : PyStr × Node} : e ∈ visible root ↔ e ∈ root ∧ hidden e.1 = false := by
  simp [visible]

/-! ## What a sound registry is -/

variable (P : Platform)

/-- The releases of two entries, under whatever keyrings they verify, have
different sequence numbers. -/
def SequencesDiffer (a b : PyStr × Node) : Prop :=
  ∀ K K' m m', (registry P K).verifyDirectory a.2 a.1 = .ok m →
    (registry P K').verifyDirectory b.2 b.1 = .ok m' → m.releaseSequence ≠ m'.releaseSequence

/-- Every published entry verifies, under its name, with one of the keyrings in
use, and no two have one release sequence. -/
structure Sound (used : TrustedKeyring → Prop) (published : List (PyStr × Node)) : Prop where
  verified : ∀ e ∈ published, ∃ K m, used K ∧ (registry P K).verifyDirectory e.2 e.1 = .ok m
  sequences : published.Pairwise (SequencesDiffer P)

/-- The invariant of the root. -/
structure RootInv (used : TrustedKeyring → Prop) (w : World) : Prop where
  listing : Listing w.root
  published : w.published = visible w.root
  sound : Sound P used (visible w.root)

variable {P}

instance : Std.Symm (SequencesDiffer P) where
  symm _ _ h := fun K K' m m' hm hm' heq => h K' K m' m hm' hm heq.symm

theorem openRegularAt_ok {es : Entries} {file : FileName} {label : PyStr} {data : Bytes} :
    Registry.openRegularAt es file label = .ok data ↔ es.lookup file = some data := by
  unfold Registry.openRegularAt
  cases es.lookup file <;> simp

/-- The files metadata has been read from. -/
theorem readMetadata_ok {T : Trust} {es : Entries} {m : ArtifactManifest} {signature keyId : PyStr}
    (h : Registry.corruptEntry (Registry.readMetadata T es) = .ok (m, signature, keyId)) :
    ∃ raw signatureRaw keyIdRaw, es.lookup .manifest = some raw ∧
      es.lookup .signature = some signatureRaw ∧ es.lookup .keyId = some keyIdRaw ∧
      raw.length ≤ Registry.maxManifestBytes ∧ T.manifestFromBytes raw = .ok m ∧
      T.textFromBytes signatureRaw = .ok signature ∧ T.textFromBytes keyIdRaw = .ok keyId := by
  have hread : Registry.readMetadata T es = .ok (m, signature, keyId) := by
    cases hr : Registry.readMetadata T es with
    | ok x => simpa [Registry.corruptEntry, hr] using h
    | error e =>
      simp only [Registry.corruptEntry, hr] at h
      split_ifs at h
  simp only [Registry.readMetadata, Registry.readSmallFileAt, bind_eq_ok, pure_eq_ok,
    openRegularAt_ok, raiseIf_eq_ok, Prod.mk.injEq, not_lt] at hread
  obtain ⟨_, ⟨raw, hraw, _, hlen, rfl⟩, _, ⟨sig, hsig, _, _, rfl⟩, _, ⟨key, hkey, _, _, rfl⟩,
    _, hm, _, hs, _, hk, rfl, rfl, rfl⟩ := hread
  exact ⟨raw, sig, key, hraw, hsig, hkey, hlen, hm, hs, hk⟩

/-- The manifest of an entry that verifies is read from its manifest file. -/
theorem verifyDirectory_manifest {K : TrustedKeyring} {n : Node} {v : PyStr} {m : ArtifactManifest}
    (h : (registry P K).verifyDirectory n v = .ok m) :
    ∃ es raw, n = .dir es ∧ es.lookup .manifest = some raw ∧
      (P.trust K).manifestFromBytes raw = .ok m := by
  obtain ⟨model, hopen⟩ := Registry.verifyDirectory_ok.mp h
  obtain ⟨es, rfl⟩ := Registry.openVerifiedModel_dir hopen
  simp only [Registry.openVerifiedModel, bind_eq_ok, pure_eq_ok, Prod.mk.injEq] at hopen
  obtain ⟨_, hes, ⟨m', sig, keyId⟩, hmeta, hopen⟩ := hopen
  obtain rfl : es = _ := Except.ok.inj hes
  obtain rfl : m' = m := by
    obtain ⟨_, _, _, _, _, _, _, _, _, _, _, rfl⟩ := hopen
    rfl
  obtain ⟨raw, _, _, hraw, _, _, _, hm, _⟩ := readMetadata_ok hmeta
  exact ⟨es, raw, rfl, hraw, hm⟩

/-- Which keyring verifies an entry does not change what its manifest is. -/
theorem verifyDirectory_unique {K K' : TrustedKeyring} {n : Node} {v v' : PyStr}
    {m m' : ArtifactManifest} (h : (registry P K).verifyDirectory n v = .ok m)
    (h' : (registry P K').verifyDirectory n v' = .ok m') : m = m' := by
  obtain ⟨es, raw, rfl, hraw, hm⟩ := verifyDirectory_manifest h
  obtain ⟨es', raw', hes, hraw', hm'⟩ := verifyDirectory_manifest h'
  obtain rfl : es = es' := by simpa using hes
  obtain rfl := Option.some.inj (hraw.symm.trans hraw')
  exact Except.ok.inj (hm.symm.trans hm')

/-! ## The operations of the section -/

section Operations

variable {used : TrustedKeyring → Prop} {w₀ w : World} {es : Entries} {C : World → Prop}

/-- Nothing is published since `w₀`. -/
structure Staging (w₀ w : World) : Prop where
  listing : Listing w.root
  published : w.published = visible w.root
  same : visible w.root = visible w₀.root

theorem Staging.inv (hs : Sound P used (visible w₀.root)) (h : Staging w₀ w) :
    RootInv P used w := ⟨h.listing, h.published, h.same ▸ hs⟩

theorem Staging.put (h : Staging w₀ w) (hstage : hidden stage = true) {x : Option Node}
    (hx : ∀ n, x = some n → n.present = true) :
    Staging w₀ { w with root := put w.root stage x } :=
  have hvisible : visible (Publish.put w.root stage x) = visible w.root :=
    visible_put_hidden hstage x
  ⟨h.listing.put hx, h.published.trans hvisible.symm, hvisible.trans h.same⟩

theorem Staging.putDir (h : Staging w₀ w) (hstage : hidden stage = true) (es : Entries) :
    Staging w₀ { w with root := Publish.put w.root stage (some (.dir es)) } :=
  h.put hstage fun n hn => by
    rw [← Option.some.inj hn]
    rfl

theorem hidden_of_stagePrefix (h : stagePrefix <+: name) : hidden name = true := by
  obtain ⟨t, rfl⟩ := h
  rfl

theorem wp_look {Q : Node → World → Prop} {E : PyError → World → Prop} (hw : C w)
    (hQ : Q ((w.root.lookup name).getD .missing) w) (hE : ∀ e, E e w) :
    wp sem (perform (.look name)) Q E C w := by
  refine wp_perform.mpr ⟨hw, fun x hx => ?_⟩
  rcases hx with rfl | hx
  · exact ⟨hw, fun a ha => Except.ok.inj ha ▸ hQ, nofun⟩
  · cases hx with
    | fails e => exact ⟨hw, nofun, fun _ _ => hE _⟩

theorem wp_listdir {Q : List PyStr → World → Prop} {E : PyError → World → Prop} (hw : C w)
    (hQ : Q (w.root.map Prod.fst) w) (hE : ∀ e, E e w) :
    wp sem (perform .listdir) Q E C w := by
  refine wp_perform.mpr ⟨hw, fun x hx => ?_⟩
  rcases hx with rfl | hx
  · exact ⟨hw, fun a ha => Except.ok.inj ha ▸ hQ, nofun⟩
  · cases hx with
    | fails e => exact ⟨hw, nofun, fun _ _ => hE _⟩

/-- The scan looks at every entry that is not hidden, and passes only if each is
sound and has another sequence number. -/
theorem wp_assertReleaseSequenceAvailable {K : TrustedKeyring} {seq : Int} {v : PyStr}
    {names : List PyStr} {Q : Unit → World → Prop} {E : PyError → World → Prop} (hw : C w)
    (hE : ∀ e, E e w)
    (hQ : (∀ name ∈ names, hidden name = false → (registry P K).checkEntry seq v name
      ((w.root.lookup name).getD .missing) = .ok ()) → Q () w) :
    wp sem (assertReleaseSequenceAvailable P K seq v names) Q E C w := by
  induction names with
  | nil => exact wp_pure.mpr ⟨hw, hQ nofun⟩
  | cons name names ih =>
    have hrest : (hidden name = false → (registry P K).checkEntry seq v name
        ((w.root.lookup name).getD .missing) = .ok ()) →
        wp sem (assertReleaseSequenceAvailable P K seq v names) Q E C w := fun hname =>
      ih fun hnames => hQ (List.forall_mem_cons.mpr ⟨hname, hnames⟩)
    rw [assertReleaseSequenceAvailable]
    refine wp_bind.mpr ?_
    cases hh : hidden name with
    | true => exact wp_pure.mpr ⟨hw, hrest fun h => absurd (hh.symm.trans h) Bool.noConfusion⟩
    | false =>
      refine wp_bind.mpr (wp_look hw ?_ hE)
      exact wp_liftM.mpr ⟨hw, fun _ hok => hrest fun _ => hok, fun e _ => hE e⟩

theorem wp_mkdtemp (hs : Sound P used (visible w₀.root)) (h : Staging w₀ w) :
    wp sem (perform .mkdtemp)
      (fun stage w => hidden stage = true ∧ Staging w₀ w ∧ w.root.lookup stage = some (.dir []))
      (fun _ => Staging w₀) (RootInv P used) w := by
  refine wp_perform.mpr ⟨h.inv hs, fun x hx => ?_⟩
  rcases hx with rfl | hx
  · have hstage : hidden (freshStage w.root) = true := hidden_of_stagePrefix ⟨_, rfl⟩
    refine ⟨(h.putDir hstage []).inv hs, fun a ha => ?_, nofun⟩
    rw [← Except.ok.inj ha]
    exact ⟨hstage, h.putDir hstage [], lookup_put_self _⟩
  · cases hx with
    | fails e => exact ⟨h.inv hs, nofun, fun _ _ => h⟩
    | mkdtemp stage hprefix hnew =>
      have hstage := hidden_of_stagePrefix hprefix
      refine ⟨(h.putDir hstage []).inv hs, fun a ha => ?_, nofun⟩
      rw [← Except.ok.inj ha]
      exact ⟨hstage, h.putDir hstage [], lookup_put_self _⟩

theorem fill_eq (hl : w.root.lookup stage = some (.dir es)) (file : FileName) (data : Bytes) :
    fill w stage file data =
      (.ok (), { w with root := put w.root stage (some (.dir (withFile es file data))) }) := by
  simp only [fill, hl]

theorem wp_writeFile (hs : Sound P used (visible w₀.root)) (h : Staging w₀ w)
    (hstage : hidden stage = true) (hl : w.root.lookup stage = some (.dir es)) {file : FileName}
    {data : Bytes} :
    wp sem (perform (.writeFile stage file data))
      (fun _ w => Staging w₀ w ∧ w.root.lookup stage = some (.dir (withFile es file data)))
      (fun _ => Staging w₀) (RootInv P used) w := by
  refine wp_perform.mpr ⟨h.inv hs, fun x hx => ?_⟩
  rcases hx with rfl | hx
  · rw [show sem.exec (.writeFile stage file data) w = _ from fill_eq hl file data]
    exact ⟨(h.putDir hstage _).inv hs, fun _ _ => ⟨h.putDir hstage _, lookup_put_self _⟩, nofun⟩
  · cases hx with
    | fails e => exact ⟨h.inv hs, nofun, fun _ _ => h⟩
    | writeBroken e es => exact ⟨(h.putDir hstage es).inv hs, nofun, fun _ _ => h.putDir hstage es⟩

theorem wp_copyModel (hs : Sound P used (visible w₀.root)) (h : Staging w₀ w)
    (hstage : hidden stage = true) (hl : w.root.lookup stage = some (.dir es)) {path : PyStr} :
    wp sem (perform (.copyModel path stage))
      (fun _ w => Staging w₀ w ∧
        ∃ data, w.root.lookup stage = some (.dir (withFile es .model data)))
      (fun _ => Staging w₀) (RootInv P used) w := by
  have hfill : ∀ data, RootInv P used (fill w stage .model data).2 ∧
      (∀ a, (fill w stage .model data).1 = .ok a →
        Staging w₀ (fill w stage .model data).2 ∧ ∃ data',
          (fill w stage .model data).2.root.lookup stage =
            some (.dir (withFile es .model data'))) ∧
      ∀ e, (fill w stage .model data).1 = .error e → Staging w₀ (fill w stage .model data).2 := by
    intro data
    rw [fill_eq hl]
    exact ⟨(h.putDir hstage _).inv hs,
      fun _ _ => ⟨h.putDir hstage _, data, lookup_put_self _⟩, nofun⟩
  refine wp_perform.mpr ⟨h.inv hs, fun x hx => ?_⟩
  rcases hx with rfl | hx
  · show RootInv P used (exec (.copyModel path stage) w).2 ∧ _
    simp only [sem, exec]
    cases w.models path with
    | none => exact ⟨h.inv hs, nofun, fun _ _ => h⟩
    | some data => exact hfill data
  · cases hx with
    | fails e => exact ⟨h.inv hs, nofun, fun _ _ => h⟩
    | copied data => exact hfill data
    | copyBroken e es => exact ⟨(h.putDir hstage es).inv hs, nofun, fun _ _ => h.putDir hstage es⟩

theorem wp_removeTree {Q : Unit → World → Prop} {E : PyError → World → Prop}
    (hs : Sound P used (visible w₀.root)) (h : Staging w₀ w) (hstage : hidden stage = true)
    (hQ : ∀ w, Staging w₀ w → Q () w) (hE : ∀ e w, Staging w₀ w → E e w) :
    wp sem (perform (.removeTree stage)) Q E (RootInv P used) w := by
  refine wp_perform.mpr ⟨h.inv hs, fun x hx => ?_⟩
  rcases hx with rfl | hx
  · have hgone : Staging w₀ { w with root := Publish.put w.root stage none } := h.put hstage nofun
    exact ⟨hgone.inv hs, fun _ _ => hQ _ hgone, nofun⟩
  · cases hx with
    | fails e => exact ⟨h.inv hs, nofun, fun _ _ => hE _ _ h⟩
    | removeBroken es =>
      have hleft := h.putDir hstage es
      exact ⟨hleft.inv hs, fun _ _ => hQ _ hleft, nofun⟩

/-- The one operation that publishes. -/
theorem wp_publish {v : PyStr} (hs : Sound P used (visible w₀.root)) (h : Staging w₀ w)
    (hstage : hidden stage = true) (hl : w.root.lookup stage = some (.dir es))
    (hv : hidden v = false) (hnew : ∀ e ∈ visible w₀.root, e.1 ≠ v)
    (hsound : Sound P used (visible w₀.root ++ [(v, .dir es)])) :
    wp sem (perform (.publish stage v))
      (fun _ w => visible w.root = visible w₀.root ++ [(v, .dir es)])
      (fun _ => Staging w₀) (RootInv P used) w := by
  have hmoved : Staging w₀ { w with root := Publish.put w.root stage none } := h.put hstage nofun
  have hfree : ∀ e ∈ Publish.put w.root stage none, e.1 ≠ v := by
    rintro e he rfl
    exact hnew e (hmoved.same ▸ mem_visible.mpr ⟨he, hv⟩) rfl
  have hnone : w.root.lookup v = none := by
    refine List.lookup_eq_none_iff.mpr fun e he => bne_iff_ne.mpr ?_
    rintro rfl
    exact hnew e (h.same ▸ mem_visible.mpr ⟨he, hv⟩) rfl
  have hafter : visible (Publish.put (Publish.put w.root stage none) v (some (.dir es))) =
      visible w₀.root ++ [(v, .dir es)] := by
    rw [visible_put_new hv hfree, hmoved.same]
  refine wp_perform.mpr ⟨h.inv hs, fun x hx => ?_⟩
  rcases hx with rfl | hx
  · have hx : sem.exec (.publish stage v) w = (.ok (), { w with
        root := Publish.put (Publish.put w.root stage none) v (some (.dir es))
        published := w.published ++ [(v, .dir es)] }) := by
      simp only [sem, exec, hl, hnone]
    rw [hx]
    have hpublished : w.published ++ [(v, .dir es)] = visible w₀.root ++ [(v, .dir es)] := by
      rw [h.published, h.same]
    refine ⟨⟨hmoved.listing.put ?_, hpublished.trans hafter.symm, hafter ▸ hsound⟩,
      fun _ _ => hafter, nofun⟩
    intro n hn
    rw [← Option.some.inj hn]
    rfl
  · cases hx with
    | fails e => exact ⟨h.inv hs, nofun, fun _ _ => h⟩

end Operations

/-! ## The section -/

section Section

variable {used : TrustedKeyring → Prop} {w₀ w : World} {c : AddCall} {manifest : ArtifactManifest}

theorem lookup_withFile_self (es : Entries) (file : FileName) (data : Bytes) :
    (withFile es file data).lookup file = some data := by
  rw [withFile, List.lookup_append, lookup_filter_self, Option.none_or]
  simp

theorem lookup_withFile_ne {es : Entries} {file other : FileName} (h : other ≠ file)
    (data : Bytes) : (withFile es file data).lookup other = es.lookup other := by
  rw [withFile, List.lookup_append, lookup_filter_ne h, lookup_singleton_ne h, Option.or_none]

/-- An entry with the signed manifest verifies as no other manifest. -/
theorem verifyDirectory_canonical (hP : P.interpreter.Lawful)
    (hm : c.manifest.validate P = .ok manifest) {message : Bytes}
    (hb : c.manifest.canonicalBytes P = .ok message) {es : Entries}
    (hl : es.lookup .manifest = some (message ++ [0x0A])) {K : TrustedKeyring} {v : PyStr}
    {m : ArtifactManifest} (h : (registry P K).verifyDirectory (.dir es) v = .ok m) :
    m = manifest := by
  obtain ⟨es', raw, hes, hraw, hread⟩ := verifyDirectory_manifest h
  obtain rfl : es = es' := by simpa using hes
  obtain rfl := Option.some.inj (hraw.symm.trans hl)
  exact (ManifestObject.hasText hm hb).2.manifest_unique hP hread

theorem hidden_version : hidden manifest.version = false := by
  have hsemver := manifest.version_semver
  cases hv : manifest.version with
  | nil => rfl
  | cons d rest =>
    rw [hv] at hsemver
    have hd : d ≠ chr 0x2E := by
      rintro rfl
      exact absurd hsemver Bool.false_ne_true
    simpa [hidden] using hd

/-- After the scan a release of this version and sequence number may be
published. -/
theorem sound_of_scan (hs : Sound P used (visible w₀.root)) (hlist : Listing w₀.root)
    (hnew : ∀ e ∈ visible w₀.root, e.1 ≠ manifest.version)
    (hscan : ∀ name ∈ w₀.root.map Prod.fst, hidden name = false →
      (registry P c.keyring).checkEntry manifest.releaseSequence manifest.version name
        ((w₀.root.lookup name).getD .missing) = .ok ())
    (hused : used c.keyring) {n : Node}
    (hverified : (registry P c.keyring).verifyDirectory n manifest.version = .ok manifest) :
    Sound P used (visible w₀.root ++ [(manifest.version, n)]) where
  verified := by
    intro e he
    rcases List.mem_append.mp he with he | he
    · exact hs.verified e he
    · obtain rfl := List.mem_singleton.mp he
      exact ⟨c.keyring, _, hused, hverified⟩
  sequences := by
    refine List.pairwise_append.mpr ⟨hs.sequences, List.pairwise_singleton _ _, ?_⟩
    intro e he e' he' K K' m m' hm hm'
    obtain rfl := List.mem_singleton.mp he'
    obtain ⟨hroot, hvisible⟩ := mem_visible.mp he
    have hcheck := hscan e.1 (List.mem_map_of_mem hroot) hvisible
    rw [hlist.lookup hroot, Option.getD_some] at hcheck
    obtain ⟨existing, hexisting, hsequence⟩ :=
      Registry.checkEntry_ok (of_decide_eq_false hvisible) hcheck
    obtain rfl := verifyDirectory_unique hexisting hm
    obtain rfl := verifyDirectory_unique hverified hm'
    obtain ⟨model, hopen⟩ := Registry.verifyDirectory_ok.mp hexisting
    have hversion := (Registry.openVerifiedModel_checked hopen).1
    exact fun heq => hnew e he (hversion ▸ hsequence heq)

/-- The files of the entry, written after the model. -/
theorem wp_writeMetadata {stage : PyStr} {es : Entries} (hs : Sound P used (visible w₀.root))
    (h : Staging w₀ w) (hstage : hidden stage = true) (hl : w.root.lookup stage = some (.dir es)) :
    wp sem (writeMetadata P c stage)
      (fun _ w => Staging w₀ w ∧ ∃ message es, c.manifest.canonicalBytes P = .ok message ∧
        w.root.lookup stage = some (.dir es) ∧ es.lookup .manifest = some (message ++ [0x0A]))
      (fun _ => Staging w₀) (RootInv P used) w := by
  have hraise : ∀ {α : Type} {r : Except PyError α} {Q : α → World → Prop} {w : World},
      Staging w₀ w → (∀ a, r = .ok a → Q a w) →
      wp sem (liftM r) Q (fun _ => Staging w₀) (RootInv P used) w :=
    fun h hQ => wp_liftM.mpr ⟨h.inv hs, hQ, fun _ _ => h⟩
  refine wp_bind.mpr (hraise h fun message hb => ?_)
  refine wp_bind.mpr (wp_mono (wp_writeFile hs h hstage hl) (fun _ w _ h => ?_)
    (fun _ _ _ h => h) fun _ h => h)
  obtain ⟨h, hl⟩ := h
  refine wp_bind.mpr (hraise h fun signature _ => ?_)
  refine wp_bind.mpr (wp_mono (wp_writeFile hs h hstage hl) (fun _ w _ h => ?_)
    (fun _ _ _ h => h) fun _ h => h)
  obtain ⟨h, hl⟩ := h
  refine wp_bind.mpr (hraise h fun keyId _ => ?_)
  refine wp_mono (wp_writeFile hs h hstage hl) (fun _ w _ h => ?_) (fun _ _ _ h => h) fun _ h => h
  obtain ⟨h, hl⟩ := h
  refine ⟨h, message, _, hb, hl, ?_⟩
  rw [lookup_withFile_ne (by simp), lookup_withFile_ne (by simp), lookup_withFile_self]

/-- The section keeps the registry sound, and raises only with nothing published. -/
theorem wp_publishSection (hP : P.interpreter.Lawful) (hm : c.manifest.validate P = .ok manifest)
    (hused : used c.keyring) (hw : RootInv P used w₀) :
    wp sem (publishSection P c manifest) (fun _ _ => True)
      (fun _ w => visible w.root = visible w₀.root) (RootInv P used) w₀ := by
  have hs := hw.sound
  have hstart : Staging w₀ w₀ := ⟨hw.listing, hw.published, rfl⟩
  refine wp_bind.mpr (wp_liftM.mpr ⟨hw, fun _ _ => ?_, fun _ _ => rfl⟩)
  refine wp_bind.mpr (wp_look hw ?_ fun _ => rfl)
  refine wp_bind.mpr (wp_liftM.mpr ⟨hw, fun _ hfinal => ?_, fun _ _ => rfl⟩)
  have hnew : ∀ e ∈ visible w₀.root, e.1 ≠ manifest.version := fun e he =>
    hw.listing.absent (by simpa using raiseIf_eq_ok.mp hfinal) e (mem_visible.mp he).1
  refine wp_bind.mpr (wp_listdir hw ?_ fun _ => rfl)
  refine wp_bind.mpr (wp_assertReleaseSequenceAvailable hw (fun _ => rfl) fun hscan => ?_)
  refine wp_bind.mpr (wp_mono (wp_mkdtemp hs hstart) (fun stage w _ h => ?_)
    (fun _ _ _ h => h.same) fun _ h => h)
  obtain ⟨hstage, h, hl⟩ := h
  -- What follows raises only with the registry as it was; the handler then clears up.
  refine wp_catch.mpr (wp_mono (Q := fun _ _ => True) (E := fun _ => Staging w₀) ?_
    (fun _ _ _ h => h) (fun e w _ h => ?_) fun _ h => h)
  · refine wp_bind.mpr (wp_mono (wp_copyModel hs h hstage hl) (fun _ w _ h => ?_)
      (fun _ _ _ h => h) fun _ h => h)
    obtain ⟨h, data, hl⟩ := h
    refine wp_bind.mpr (wp_mono (wp_writeMetadata hs h hstage hl) (fun _ w _ h => ?_)
      (fun _ _ _ h => h) fun _ h => h)
    obtain ⟨h, message, es, hb, hl, hes⟩ := h
    refine wp_bind.mpr (wp_look (h.inv hs) ?_ fun _ => h)
    refine wp_bind.mpr (wp_liftM.mpr ⟨h.inv hs, fun m hverified => ?_, fun _ _ => h⟩)
    rw [hl, Option.getD_some] at hverified
    obtain rfl := verifyDirectory_canonical hP hm hb hes hverified
    have hsound := sound_of_scan hs hw.listing hnew hscan hused hverified
    exact wp_mono (wp_publish hs h hstage hl hidden_version hnew hsound) (fun _ _ _ _ => trivial)
      (fun _ _ _ h => h) fun _ h => h
  · refine wp_bind.mpr (wp_removeTree hs h hstage (fun w h => ?_) fun _ _ h => h.same)
    exact wp_throw.mpr ⟨h.inv hs, h.same⟩

end Section

/-! ## The checks before the lock -/

section Checks

variable {c : AddCall}

theorem checked_quiet (c : AddCall) : (checked P c).All (Quiet sem (· = ·)) := by
  refine .bind (.liftM _) fun _ => .bind (.liftM _) fun _ => .bind (.perform ?_) fun _ =>
    .bind (.liftM _) fun _ => .pure _
  rintro w x (rfl | hx)
  · rfl
  · cases hx <;> rfl

theorem verify_validate {K : TrustedKeyring} {keyId signature : PyStr} {o : ManifestObject}
    {m : ArtifactManifest} (h : K.verify P keyId o signature = .ok m) : o.validate P = .ok m := by
  obtain ⟨-, key, -, h⟩ := TrustedKeyring.verify_ok.mp h
  exact (verifyManifest_ok.mp h).1

theorem checked_returns (c : AddCall) :
    (checked P c).Returns fun m => c.manifest.validate P = .ok m :=
  (Prog.Returns.trivial _).bind fun _ _ =>
    (Prog.Returns.liftM fun _ h => verify_validate h).bind fun _ hm =>
      (Prog.Returns.trivial _).bind fun _ _ => (Prog.Returns.trivial _).bind fun _ _ => hm

end Checks

end Publish
end EdgeFort
