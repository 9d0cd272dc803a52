/-
What the quantizer keeps of a row of float32s: its scale is positive, and a value is at most
half a step of the scale from the one it is quantized to, but for rounding.
-/
import EdgeFort.Numpy.Rounding
import EdgeFort.Quantization.DynamicInt8

namespace EdgeFort

open PyFloat Binary32

variable {x y : PyFloat} {q r s : ℚ} {row : List PyFloat}

/-! ## Float32s -/

theorem rat_ofFloat_lt (h : (Binary32.ofFloat y).rat? = some r) : |r| < 2 ^ (128 : Int) := by
  have hzero : |(0 : ℚ)| < 2 ^ (128 : Int) := by norm_num
  match y with
  | nan | inf _ => cases h
  | negZero =>
    cases h
    exact hzero
  | finite q => exact Binary32.abs_lt_of_rat_round h

theorem eq_finite_of_rat (h : x.rat? = some r) (hr : r ≠ 0) : x = finite r := by
  match x, h with
  | negZero, rfl => exact absurd rfl hr
  | finite _, rfl => rfl

/-- A row of finite float32s. -/
def FiniteRow (row : List PyFloat) : Prop := ∀ x ∈ row, IsFloat32 x ∧ x.isfinite = true

theorem finiteRow_of_checkInput {m : DynamicInt8Model} {x x' : NdArray PyFloat}
    (h : m.checkInput x = .ok x') (hrow : row ∈ x'.rows) : FiniteRow row := by
  simp only [DynamicInt8Model.checkInput, Effect.bind_eq_ok, Effect.pure_eq_ok, raiseIf_eq_ok,
    not_not] at h
  obtain ⟨-, ⟨-, -, hfinite⟩, rfl⟩ := h
  intro v hv
  have hmem := NdArray.mem_data_of_mem_rows hrow hv
  refine ⟨?_, List.all_eq_true.mp hfinite v hmem⟩
  obtain ⟨y, -, rfl⟩ := List.mem_map.mp hmem
  exact ⟨y, rfl⟩

/-! ## The largest magnitude -/

theorem rat_abs (hx : x.rat? = some r) : x.abs.rat? = some |r| := by
  match x, hx with
  | negZero, rfl => rfl
  | finite r, rfl =>
    show some (if r < 0 then -r else r) = some |r|
    split_ifs with hr
    · rw [abs_of_neg hr]
    · rw [abs_of_nonneg (not_lt.mp hr)]

theorem rat_maximum (hx : x.rat? = some r) (hy : y.rat? = some s) :
    (maximum x y).rat? = some (max r s) := by
  have hlt : (PyNum.float x).lt (.float y) = decide (r < s) := by
    match x, y, hx, hy with
    | negZero, negZero, rfl, rfl | negZero, finite _, rfl, rfl | finite _, negZero, rfl, rfl
    | finite _, finite _, rfl, rfl => rfl
  have hmax : maximum x y = if r < s then y else x := by
    match x, y, hx, hy with
    | negZero, negZero, _, _ | negZero, finite _, _, _ | finite _, negZero, _, _
    | finite _, finite _, _, _ =>
      simp only [maximum, hlt, decide_eq_true_eq]
  rw [hmax]
  split_ifs with h
  · rw [hy, max_eq_right h.le]
  · rw [hx, max_eq_left (not_lt.mp h)]

/-- The greatest of some finite values. -/
theorem rat_foldl_maximum (vs : List PyFloat) (hvs : ∀ v ∈ vs, v.isfinite = true)
    (hx : x.rat? = some r) : ∃ m, (vs.foldl maximum x).rat? = some m ∧ r ≤ m ∧
      (∀ v ∈ vs, ∀ a, v.rat? = some a → a ≤ m) ∧ (m = r ∨ ∃ v ∈ vs, v.rat? = some m) := by
  induction vs generalizing x r with
  | nil => exact ⟨r, hx, le_refl r, List.forall_mem_nil _, Or.inl rfl⟩
  | cons v vs ih =>
    obtain ⟨hv, hvs⟩ := List.forall_mem_cons.mp hvs
    obtain ⟨a, ha⟩ := Option.isSome_iff_exists.mp hv
    obtain ⟨m, hm, hle, hall, hfrom⟩ := ih hvs (rat_maximum hx ha)
    refine ⟨m, hm, (le_max_left r a).trans hle, ?_, ?_⟩
    · refine List.forall_mem_cons.mpr ⟨fun b hb => ?_, hall⟩
      obtain rfl := Option.some.inj (ha.symm.trans hb)
      exact (le_max_right r a).trans hle
    · rcases hfrom with rfl | ⟨v', hv', hm'⟩
      · rcases le_total a r with har | hra
        · exact Or.inl (max_eq_left har)
        · exact Or.inr ⟨v, List.mem_cons_self, by rw [ha, max_eq_right hra]⟩
      · exact Or.inr ⟨v', List.mem_cons_of_mem v hv', hm'⟩

/-- The largest magnitude in a row. -/
theorem rat_maxAbs (hrow : FiniteRow row) : ∃ m, (maxAbs row).rat? = some m ∧ 0 ≤ m ∧
    m < 2 ^ (128 : Int) ∧ ∀ x ∈ row, ∀ r, x.rat? = some r → |r| ≤ m := by
  cases row with
  | nil => exact ⟨0, rfl, le_refl 0, by norm_num, List.forall_mem_nil _⟩
  | cons v vs =>
    obtain ⟨⟨hv, hvfinite⟩, hvs⟩ := List.forall_mem_cons.mp hrow
    obtain ⟨a, ha⟩ := Option.isSome_iff_exists.mp hvfinite
    have hfinite : ∀ u ∈ vs.map PyFloat.abs, u.isfinite = true := by
      intro u hu
      obtain ⟨w, hw, rfl⟩ := List.mem_map.mp hu
      obtain ⟨b, hb⟩ := Option.isSome_iff_exists.mp (hvs w hw).2
      exact Option.isSome_iff_exists.mpr ⟨_, rat_abs hb⟩
    obtain ⟨m, hm, hle, hall, hfrom⟩ := rat_foldl_maximum _ hfinite (rat_abs ha)
    have hlt : ∀ u, IsFloat32 u → ∀ b, u.rat? = some b → |b| < 2 ^ (128 : Int) := by
      rintro _ ⟨y, rfl⟩ b hb
      exact rat_ofFloat_lt hb
    refine ⟨m, hm, (abs_nonneg a).trans hle, ?_, ?_⟩
    · rcases hfrom with rfl | ⟨u, hu, hmax⟩
      · exact hlt v hv a ha
      · obtain ⟨w, hw, rfl⟩ := List.mem_map.mp hu
        obtain ⟨b, hb⟩ := Option.isSome_iff_exists.mp (hvs w hw).2
        obtain rfl := Option.some.inj ((rat_abs hb).symm.trans hmax)
        exact hlt w (hvs w hw).1 b hb
    · refine List.forall_mem_cons.mpr ⟨fun b hb => ?_, fun w hw b hb => ?_⟩
      · obtain rfl := Option.some.inj (ha.symm.trans hb)
        exact hle
      · exact hall _ (List.mem_map_of_mem hw) _ (rat_abs hb)

/-! ## The scale -/

/-- The float32 next to `1e-12`. -/
theorem rat_minScale : ∃ c, (Binary32.round (1 / 1000000000000)).rat? = some c ∧
    2 ^ (-40 : Int) ≤ c := by
  refine ⟨((Binary32.round (1 / 1000000000000)).rat?).getD 0, ?_, ?_⟩
  · decide +kernel
  · decide +kernel

/-- The scale of a row: no value is more than about 127 steps from zero. -/
theorem rat_xscale (hrow : FiniteRow row) : ∃ s, xscale row = finite s ∧ 2 ^ (-40 : Int) ≤ s ∧
    ∀ x ∈ row, ∀ r, x.rat? = some r → |r| ≤ 127 * (1 + 1 / 2 ^ 23) * s := by
  obtain ⟨m, hm, hnonneg, hlt, hall⟩ := rat_maxAbs hrow
  obtain ⟨c, hc, hclow⟩ := rat_minScale
  have hbound : |m / 127| ≤ 2 ^ (127 : Int) := by
    rw [abs_of_nonneg (div_nonneg hnonneg (by norm_num)), div_le_iff₀ (by norm_num)]
    have htop : (2 : ℚ) ^ (128 : Int) ≤ 2 ^ (127 : Int) * 127 := by norm_num
    exact hlt.le.trans htop
  have hquotient : (Binary32.div (maxAbs row) (finite 127)).rat? =
      some (Binary32.nearest (m / 127)) := Binary32.rat_div hm rfl (by norm_num) hbound
  have hscale := rat_maximum hquotient hc
  have hlow : 2 ^ (-40 : Int) ≤ max (Binary32.nearest (m / 127)) c := le_max_of_le_right hclow
  have hpos := (two_zpow_pos (-40)).trans_le hlow
  refine ⟨_, eq_finite_of_rat hscale hpos.ne', hlow, fun x hx r hr => ?_⟩
  refine (hall x hx r hr).trans ?_
  generalize ht : m / 127 = t at *
  obtain rfl : m = 127 * t := by rw [← ht]; ring
  by_cases hle : t ≤ max (Binary32.nearest t) c
  · linarith
  -- The quotient is not among the smallest numbers, so its error is relative.
  · have hc := (le_max_right (Binary32.nearest t) c).trans_lt (not_le.mp hle)
    have hn := le_max_left (Binary32.nearest t) c
    have hsmall : (2 : ℚ) ^ (-150 : Int) ≤ t / 2 ^ 24 := by
      rw [le_div_iff₀ (by norm_num)]
      have hgap : (2 : ℚ) ^ (-150 : Int) * 2 ^ 24 ≤ 2 ^ (-40 : Int) := by norm_num
      linarith
    have herror := Binary32.abs_nearest_sub_le t
    rw [abs_of_pos ((two_zpow_pos _).trans_le (hclow.trans hc.le)), max_eq_left hsmall,
      abs_le] at herror
    have hlow := herror.1
    norm_num at hlow ⊢
    linarith

/-! ## The quantized values -/

theorem rat_rint (hx : x.rat? = some r) : (rint x).rat? = some (roundHalfEven r : ℚ) := by
  match x, hx with
  | negZero, rfl => decide +kernel
  | finite r, rfl =>
    rw [rint]
    split_ifs with hzero
    · rw [Binary32.rat_zero, hzero]
      rfl
    · rfl

theorem rat_clip_eq {lo hi : ℚ} (hx : x.rat? = some r) (hlo : lo ≤ r) (hhi : r ≤ hi) :
    (clip lo hi x).rat? = some r := by
  have hinside : (if r < lo then finite lo else if hi < r then finite hi else x) = x := by
    rw [if_neg (not_lt.mpr hlo), if_neg (not_lt.mpr hhi)]
  match x, hx with
  | negZero, rfl => exact (congrArg rat? hinside).trans rfl
  | finite _, rfl => exact (congrArg rat? hinside).trans rfl

theorem truncate_intCast (n : Int) : truncate n = n := by
  unfold truncate
  split_ifs
  · exact Rat.floor_intCast n
  · exact Rat.ceil_intCast n

/-- Where no value is more than about 127 steps from zero, none is clipped, and each is at most
half a step from its quantized value, but for rounding. -/
theorem abs_quantizeValue_sub_le (hx : x.rat? = some r) (hs : 0 < s)
    (hle : |r| ≤ 127 * (1 + 1 / 2 ^ 23) * s) :
    |(quantizeValue (finite s) x).toInt * s - r| ≤ (1 / 2 + 1 / 2 ^ 16) * s := by
  have hquotient : |r / s| ≤ 127 * (1 + 1 / 2 ^ 23) := by
    rw [abs_div, abs_of_pos hs, div_le_iff₀ hs]
    exact hle
  have hsmall : |r / s| ≤ 2 ^ (127 : Int) :=
    hquotient.trans (by norm_num)
  have hdiv : (Binary32.div x (finite s)).rat? = some (Binary32.nearest (r / s)) :=
    Binary32.rat_div hx rfl hs.ne' hsmall
  have herror : |Binary32.nearest (r / s) - r / s| ≤ 1 / 2 ^ 16 := by
    refine (Binary32.abs_nearest_sub_le _).trans (max_le ?_ (by norm_num))
    rw [div_le_iff₀ (by norm_num)]
    exact hquotient.trans (by norm_num)
  generalize Binary32.nearest (r / s) = y at hdiv herror
  have hrint := Grid.abs_roundHalfEven_sub_le y
  have hquotient' := abs_le.mp hquotient
  have herror' := abs_le.mp herror
  have hrint' := abs_le.mp hrint
  have hrange : -127 ≤ roundHalfEven y ∧ roundHalfEven y ≤ 127 := by
    have hlow : (-128 : ℚ) < roundHalfEven y := by norm_num at *; linarith
    have hhigh : (roundHalfEven y : ℚ) < 128 := by norm_num at *; linarith
    have hlow' : -128 < roundHalfEven y := by exact_mod_cast hlow
    have hhigh' : roundHalfEven y < 128 := by exact_mod_cast hhigh
    omega
  have hclip : (clip (-127) 127 (rint (Binary32.div x (finite s)))).rat? =
      some (roundHalfEven y : ℚ) :=
    rat_clip_eq (rat_rint hdiv) (by exact_mod_cast hrange.1) (by exact_mod_cast hrange.2)
  have hvalue : (quantizeValue (finite s) x).toInt = roundHalfEven y := by
    rw [quantizeValue, astypeInt8, hclip, Option.getD_some, truncate_intCast,
      toInt_ofInt_small hrange.1 hrange.2]
  have hsteps : |(roundHalfEven y : ℚ) - r / s| ≤ 1 / 2 + 1 / 2 ^ 16 :=
    (abs_sub_le _ y _).trans (add_le_add hrint herror)
  rw [hvalue]
  calc |(roundHalfEven y : ℚ) * s - r| = |(roundHalfEven y - r / s) * s| := by
        rw [sub_mul, div_mul_cancel₀ _ hs.ne']
    _ = |(roundHalfEven y : ℚ) - r / s| * s := by rw [abs_mul, abs_of_pos hs]
    _ ≤ (1 / 2 + 1 / 2 ^ 16) * s := mul_le_mul_of_nonneg_right hsteps hs.le

end EdgeFort
