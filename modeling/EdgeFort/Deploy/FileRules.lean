/-
What the file routines do on a working disk, as rules for `wp`.
-/
import EdgeFort.Deploy.Files

namespace EdgeFort
namespace Deploy

open Effect

namespace World

/-- The disk once `doc` has been renamed onto `p`. -/
def written (w : World) (p : Path) (doc : Doc) : World :=
  { w.set p (.file doc) with history := recorded p doc ++ w.history }

def withTemp (w : World) (t : Option Doc) : World := { w with temp := t }

@[simp] theorem written_node (w : World) (p q : Path) (doc : Doc) :
    (w.written p doc).node q = if q = p then .file doc else w.node q := set_node w p q (.file doc)
@[simp] theorem written_floor (w : World) (p : Path) (doc : Doc) :
    (w.written p doc).floor = w.floor := rfl
@[simp] theorem written_self (w : World) (p : Path) (doc : Doc) :
    (w.written p doc).self = w.self := rfl
@[simp] theorem written_history (w : World) (p : Path) (doc : Doc) :
    (w.written p doc).history = recorded p doc ++ w.history := rfl

@[simp] theorem withTemp_node (w : World) (t : Option Doc) : (w.withTemp t).node = w.node := rfl
@[simp] theorem withTemp_floor (w : World) (t : Option Doc) : (w.withTemp t).floor = w.floor := rfl
@[simp] theorem withTemp_self (w : World) (t : Option Doc) : (w.withTemp t).self = w.self := rfl
@[simp] theorem withTemp_history (w : World) (t : Option Doc) :
    (w.withTemp t).history = w.history := rfl

@[simp] theorem set_set (w : World) (p : Path) (n m : Node) : (w.set p n).set p m = w.set p m := by
  simp [set]

theorem set_self_node (w : World) (p : Path) : w.set p (w.node p) = w := by
  simp [set]

end World

variable {α : Type} {w : World} {C : World → Prop}

/-! ## Single operations -/

/-- Only `advance_to` can fail to do what it is asked. -/
def Op.mayFail : Op → Bool
  | .advanceTo _ => true
  | _ => false

theorem not_fault {o : Op} (h : o.mayFail = false) (w : World)
    (x : Except PyError o.Res × World) : ¬sem.fault o w x := by
  intro hx
  cases hx <;> cases h

theorem wp_perform_ok {o : Op} (a : o.Res) (w' : World) {Q : o.Res → World → Prop}
    {E : PyError → World → Prop} (hf : o.mayFail = false) (hx : exec o w = (.ok a, w'))
    (hC : C w) (hC' : C w') (hQ : Q a w') : wp sem (perform o) Q E C w := by
  refine wp_perform.mpr ⟨hC, ?_⟩
  rintro x (rfl | h)
  · have hx : sem.exec o w = (.ok a, w') := hx
    rw [hx]
    exact ⟨hC', fun _ h => Except.ok.inj h ▸ hQ, fun _ h => nomatch h⟩
  · exact absurd h (not_fault hf w x)

theorem wp_perform_error {o : Op} (e : PyError) (w' : World) {Q : o.Res → World → Prop}
    {E : PyError → World → Prop} (hf : o.mayFail = false) (hx : exec o w = (.error e, w'))
    (hC : C w) (hC' : C w') (hE : E e w') : wp sem (perform o) Q E C w := by
  refine wp_perform.mpr ⟨hC, ?_⟩
  rintro x (rfl | h)
  · have hx : sem.exec o w = (.error e, w') := hx
    rw [hx]
    exact ⟨hC', fun _ h => (nomatch h), fun _ h => Except.error.inj h ▸ hE⟩
  · exact absurd h (not_fault hf w x)

theorem wp_look {p : Path} {Q : Node → World → Prop} {E : PyError → World → Prop} (hC : C w)
    (hQ : Q (w.node p) w) : wp sem (look p) Q E C w :=
  wp_perform_ok _ _ rfl rfl hC hC hQ

theorem wp_getSelf {Q : Self → World → Prop} {E : PyError → World → Prop} (hC : C w)
    (hQ : Q w.self w) : wp sem (perform .getSelf) Q E C w :=
  wp_perform_ok _ _ rfl rfl hC hC hQ

theorem wp_setSelf {s : Self} {Q : Unit → World → Prop} {E : PyError → World → Prop} (hC : C w)
    (hC' : C { w with self := s }) (hQ : Q () { w with self := s }) :
    wp sem (perform (.setSelf s)) Q E C w :=
  wp_perform_ok _ _ rfl rfl hC hC' hQ

theorem wp_rename {src dst : Path} {Q : Unit → World → Prop} {E : PyError → World → Prop}
    (hn : replaceError (w.node src) (w.node dst) = none) (hp : parentError w dst = none)
    (hC : C w) (hC' : C ((w.set src .missing).set dst (w.node src)))
    (hQ : Q () ((w.set src .missing).set dst (w.node src))) :
    wp sem (perform (.rename src dst)) Q E C w :=
  wp_perform_ok _ _ rfl (by simp [exec, rename, hn, hp]) hC hC' hQ

/-! ## Removing a directory -/

theorem wp_quiet {b : Bool} {p : Cmd Unit} {Q : Unit → World → Prop} {E : PyError → World → Prop}
    (h : wp sem p Q (fun _ _ => False) C w) : wp sem (quiet b p) Q E C w := by
  cases b with
  | false => exact wp_mono h (fun _ _ _ h => h) (fun _ _ _ h => h.elim) fun _ h => h
  | true => exact wp_ignore.mpr (wp_mono h (fun _ _ _ h => h) (fun _ _ _ h => h.elim) fun _ h => h)

theorem wp_removeAll {b : Bool} {p : Path} {Q : Unit → World → Prop} {E : PyError → World → Prop}
    (hC : ∀ n, n.Removable → C (w.set p n)) (hQ : Q () (w.set p .missing)) :
    ∀ (fs : List FileName) (es : Entries), (∀ e ∈ es, e.1 ∈ fs) →
      wp sem (removeAll b p fs) Q E C (w.set p (.dir es)) := by
  intro fs
  induction fs with
  | nil =>
    intro es hes
    obtain rfl : es = [] := List.eq_nil_iff_forall_not_mem.mpr fun e he => nomatch hes e he
    refine wp_quiet (wp_perform_ok () (w.set p .missing) rfl ?_
      (hC _ (.dir _)) (hC _ .missing) hQ)
    simp [exec]
  | cons f fs ih =>
    intro es hes
    refine wp_bind.mpr (wp_quiet (wp_perform_ok () (w.set p (.dir (Entries.remove es f)))
      rfl ?_ (hC _ (.dir _)) (hC _ (.dir _)) (ih _ ?_)))
    · simp [exec]
    · intro e he
      obtain ⟨hmem, hne⟩ := List.mem_filter.mp he
      exact (List.mem_cons.mp (hes e hmem)).resolve_left (by simpa using hne)

/-- `rmtree` of a directory, or of nothing when errors are ignored. -/
theorem wp_rmtree {b : Bool} {p : Path} {Q : Unit → World → Prop} {E : PyError → World → Prop}
    (hp : (w.node p).Removable) (hb : b = true ∨ w.node p ≠ .missing)
    (hC : ∀ n, n.Removable → C (w.set p n)) (hQ : Q () (w.set p .missing)) :
    wp sem (rmtree b p) Q E C w := by
  have hw : C w := by
    have := hC _ hp
    rwa [World.set_self_node] at this
  refine wp_bind.mpr (wp_look hw ?_)
  rcases hp with hp | ⟨es, hp⟩
  · simp only [hp] at hb ⊢
    have hw' : w.set p .missing = w := by rw [← hp, World.set_self_node]
    rw [hw'] at hQ
    rcases hb with rfl | hb
    · exact wp_ignore.mpr ⟨hw, hQ⟩
    · exact absurd rfl hb
  · simp only [hp]
    have h := wp_removeAll (b := b) (E := E) hC hQ (es.map Prod.fst) es
      fun e he => List.mem_map_of_mem he
    rwa [← hp, World.set_self_node] at h

/-! ## Copying a directory -/

/-- The files after `f` has been copied over them. -/
def Entries.put (es : Entries) (f : FileName) (data : Bytes) : Entries :=
  Entries.fill (Entries.remove es f ++ [(f, [])]) f data

def copiedOver (acc : Entries) : Entries → Entries
  | [] => acc
  | (f, data) :: es => copiedOver (Entries.put acc f data) es

/-- The files `copytree` leaves. -/
def copied (es : Entries) : Entries := copiedOver [] es

theorem wp_copyFiles {dst : Path} {Q : Unit → World → Prop} {E : PyError → World → Prop}
    (hC : ∀ es, C (w.set dst (.dir es))) :
    ∀ es acc : Entries, Q () (w.set dst (.dir (copiedOver acc es))) →
      wp sem (copyFiles dst es) Q E C (w.set dst (.dir acc)) := by
  intro es
  induction es with
  | nil => exact fun acc hQ => ⟨hC _, hQ⟩
  | cons e es ih =>
    obtain ⟨f, data⟩ := e
    intro acc hQ
    refine wp_bind.mpr (wp_perform_ok ()
      (w.set dst (.dir (Entries.remove acc f ++ [(f, [])])))
      rfl (by simp only [exec, World.set_node, World.set_set, if_true]) (hC _) (hC _) ?_)
    exact wp_bind.mpr (wp_perform_ok () (w.set dst (.dir (Entries.put acc f data)))
      rfl (by simp only [exec, World.set_node, World.set_set, if_true]; rfl) (hC _) (hC _)
      (ih _ hQ))

theorem wp_copytree {es : Entries} {dst : Path} {Q : Unit → World → Prop}
    {E : PyError → World → Prop} (hdst : w.node dst = .missing) (hw : C w)
    (hC : ∀ es, C (w.set dst (.dir es))) (hQ : Q () (w.set dst (.dir (copied es)))) :
    wp sem (copytree es dst) Q E C w :=
  wp_bind.mpr (wp_perform_ok () (w.set dst (.dir [])) rfl
    (by simp only [exec, hdst]) hw (hC _) (wp_copyFiles hC es [] hQ))

/-! ## Writing a file -/

theorem wp_fsyncRoot {Q : Unit → World → Prop} {E : PyError → World → Prop} (hC : C w)
    (hQ : Q () w) : wp sem fsyncRoot Q E C w :=
  wp_catch.mpr (wp_perform_ok _ _ rfl rfl hC hC hQ)

/-- `atomic_write` replaces the file at one step. -/
theorem wp_atomicWrite {p : Path} {doc : Doc} {Q : Unit → World → Prop}
    {E : PyError → World → Prop} (hp : ∀ es, w.node p ≠ .dir es)
    (hC : ∀ t, C (w.withTemp t)) (hC' : ∀ t, C ((w.written p doc).withTemp t))
    (hQ : Q () ((w.written p doc).withTemp none)) : wp sem (atomicWrite p doc) Q E C w := by
  have hw : C w := hC w.temp
  refine wp_bind.mpr (wp_perform_ok () (w.withTemp (some (.malformed "Expecting value")))
    rfl rfl hw (hC _) ?_)
  refine wp_finally.mpr (wp_bind.mpr (wp_perform_ok () (w.withTemp (some doc))
    rfl rfl (hC _) (hC _) ?_))
  refine wp_bind.mpr (wp_perform_ok _ _ rfl rfl (hC _) (hC _) ?_)
  refine wp_bind.mpr (wp_perform_ok () ((w.written p doc).withTemp none)
    rfl ?_ (hC _) (hC' _) ?_)
  · simp only [exec, World.withTemp_node]
    cases hn : w.node p with
    | dir es => exact absurd hn (hp es)
    | _ => rfl
  · refine wp_fsyncRoot (hC' _) (wp_catch.mpr ?_)
    refine wp_perform_error _ _ rfl rfl (hC' _) (hC' _) ?_
    exact ⟨hC' _, hQ⟩

end Deploy
end EdgeFort
