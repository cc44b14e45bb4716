import DialectBench.Proofs.NearestEven
import DialectBench.Report.Trace

/-!
# The comparison of floats

    A float is compared with a golden one by their distance, divided by the
    golden float and held against a tolerance.  All three steps round.  Still
    the comparison has an exact description: a positive finite golden float is
    missed exactly if the distance is at least `cutoff` times the golden float,
    and `cutoff` is half way from the tolerance to the next double.

    The reason is that rounding is harmless where it matters.  If the distance
    is at most half of the golden float, the difference fits into a double and
    is kept exactly; otherwise the quotient is far above the tolerance, and
    rounding cannot bring it down.  The quotient is then rounded once, and a
    rounded number exceeds the tolerance exactly if the number is at least
    `cutoff`.

    The division keeps the sign of the golden float, and not a number exceeds
    nothing: negative, infinite and undefined golden floats are never missed, an
    undefined float misses nothing, and a golden zero cannot be divided by.
-/

namespace DialectBench.Decimal

open Float.Model Float.Model.UnpackedFloat

/-! ## What exceeds the tolerance -/

/-- The mantissa of the tolerance. -/
def toleranceMantissa : ℕ := 7378697629483821

/-- Half way from the tolerance to the next double. -/
def cutoff : ℚ := (toleranceMantissa + 1 / 2) * 2 ^ (-66 : ℤ)

theorem cutoff_eq : cutoff = 14757395258967643 / 2 ^ 67 := by
  norm_num [cutoff, toleranceMantissa]

theorem unpack_floatTolerance :
    floatTolerance.toModel.unpack = .finite .positive toleranceMantissa (-66) (by decide) := rfl

/-- Parts that are above the tolerance. -/
def Exceeds (u : UnpackedFloat) : Prop :=
  (UnpackedFloat.finite .positive toleranceMantissa (-66) (by decide)).lt u = true

theorem exceeds_infinity : Exceeds (.infinity .positive) := rfl

theorem not_exceeds_notANumber : ¬ Exceeds .notANumber := Bool.false_ne_true

theorem not_exceeds_zero (s : Sign) : ¬ Exceeds (.zero s) := Bool.false_ne_true

theorem not_exceeds_negInfinity : ¬ Exceeds (.infinity .negative) := Bool.false_ne_true

theorem not_exceeds_negative {m : ℕ} {e : ℤ} (hm : 0 < m) :
    ¬ Exceeds (.finite .negative m e hm) := Bool.false_ne_true

/-- A number of 53 digits with a higher exponent is above the tolerance. -/
theorem tolerance_lt_of_exponent {n : ℕ} {k : ℤ} (hn : 2 ^ 52 ≤ n) (hk : -66 < k) :
    (toleranceMantissa * 2 ^ (-66 : ℤ) : ℚ) < n * 2 ^ k := by
  have hn' : (2 : ℚ) ^ 52 ≤ n := by exact_mod_cast hn
  have hpow : (2 : ℚ) ^ (-65 : ℤ) ≤ 2 ^ k := zpow_le_zpow_right₀ one_le_two (by omega)
  calc (toleranceMantissa * 2 ^ (-66 : ℤ) : ℚ) < 2 ^ 52 * 2 ^ (-65 : ℤ) := by
        norm_num [toleranceMantissa]
    _ ≤ n * 2 ^ k := mul_le_mul hn' hpow (by positivity) (by positivity)

/-- A number with a lower exponent is not above the tolerance. -/
theorem le_tolerance_of_exponent {n : ℕ} {k : ℤ} (hn : n ≤ 2 ^ 53) (hk : k < -66) :
    (n * 2 ^ k : ℚ) ≤ toleranceMantissa * 2 ^ (-66 : ℤ) := by
  have hn' : (n : ℚ) ≤ 2 ^ 53 := by exact_mod_cast hn
  have hpow : (2 : ℚ) ^ k ≤ 2 ^ (-67 : ℤ) := zpow_le_zpow_right₀ one_le_two (by omega)
  calc (n * 2 ^ k : ℚ) ≤ 2 ^ 53 * 2 ^ (-67 : ℤ) :=
        mul_le_mul hn' hpow (by positivity) (by positivity)
    _ ≤ toleranceMantissa * 2 ^ (-66 : ℤ) := by norm_num [toleranceMantissa]

/-- Canonical parts are compared as the numbers that they stand for. -/
theorem exceeds_finite_iff {m : ℕ} {e : ℤ} (hc : Canonical m e) :
    Exceeds (.finite .positive m e hc.pos) ↔
      (toleranceMantissa * 2 ^ (-66 : ℤ) : ℚ) < m * 2 ^ e := by
  have hcompare : Exceeds (.finite .positive m e hc.pos) ↔
      (-66 : ℤ) < e ∨ (-66 : ℤ) = e ∧ toleranceMantissa < m := by
    show (some ((compare (-66 : ℤ) e).then (compare toleranceMantissa m)) == some .lt) = true ↔ _
    rw [beq_iff_eq, Option.some.injEq, Ordering.then_eq_lt, compare_lt_iff_lt, compare_eq_iff_eq,
      compare_lt_iff_lt]
  rw [hcompare]
  rcases lt_trichotomy (-66) e with he | rfl | he
  · exact iff_of_true (.inl he)
      (tolerance_lt_of_exponent (hc.normal.resolve_right (by omega)) he)
  · rw [mul_lt_mul_iff_of_pos_right (by positivity)]
    simp
  · exact iff_of_false (by omega) (not_lt.mpr (le_tolerance_of_exponent hc.lt.le he))

/-- A rounded number exceeds the tolerance exactly if the number is not below the
    cutoff. -/
theorem tolerance_lt_iff {q : ℚ} {n : ℕ} {k : ℤ} (h : Rounding q n k) :
    (toleranceMantissa * 2 ^ (-66 : ℤ) : ℚ) < n * 2 ^ k ↔ cutoff ≤ q := by
  rcases lt_trichotomy (-66) k with hk | rfl | hk
  · have hpow : (2 : ℚ) ^ (-65 : ℤ) ≤ 2 ^ k := zpow_le_zpow_right₀ one_le_two (by omega)
    refine iff_of_true
      (tolerance_lt_of_exponent (h.normal_or.resolve_right (by omega)) hk) ?_
    calc cutoff ≤ 2 ^ 52 * 2 ^ (-65 : ℤ) := by norm_num [cutoff_eq]
      _ ≤ 2 ^ 52 * 2 ^ k := by gcongr
      _ ≤ q := h.normal.resolve_right (by omega)
  · -- the mantissa of the tolerance is odd, so that half way is rounded up
    rw [mul_lt_mul_iff_of_pos_right (by positivity), Nat.cast_lt,
      h.nearest.lt_iff_of_odd (by decide), le_div_iff₀ (by positivity)]
    rfl
  · have hpow : (2 : ℚ) ^ k ≤ 2 ^ (-67 : ℤ) := zpow_le_zpow_right₀ one_le_two (by omega)
    refine iff_of_false (not_lt.mpr (le_tolerance_of_exponent h.le hk)) (not_le.mpr ?_)
    calc q < 2 ^ 53 * 2 ^ k := h.lt
      _ ≤ 2 ^ 53 * 2 ^ (-67 : ℤ) := by gcongr
      _ ≤ cutoff := by norm_num [cutoff_eq]

theorem exceeds_rounded_iff {q : ℚ} {n : ℕ} {k : ℤ} (h : Rounding q n k) :
    Exceeds (settle (roundedParts .positive n k)) ↔ cutoff ≤ q := by
  rw [← tolerance_lt_iff h]
  rcases h.settle_cases .positive with ⟨rfl, hu⟩ | ⟨m, e, hc, hu, -, hvalue⟩ | ⟨hu, hlarge⟩
  · rw [hu]
    refine iff_of_false (not_exceeds_zero _) (not_lt.mpr ?_)
    rw [Nat.cast_zero, zero_mul]
    positivity
  · rw [hu, ← hvalue]
    exact exceeds_finite_iff hc
  · rw [hu]
    refine iff_of_true exceeds_infinity (lt_of_lt_of_le ?_ hlarge)
    calc (toleranceMantissa * 2 ^ (-66 : ℤ) : ℚ) < 2 ^ (0 : ℤ) := by norm_num [toleranceMantissa]
      _ ≤ 2 ^ (1023 : ℤ) := zpow_le_zpow_right₀ one_le_two (by decide)

theorem not_exceeds_rounded_negative {q : ℚ} {n : ℕ} {k : ℤ} (h : Rounding q n k) :
    ¬ Exceeds (settle (roundedParts .negative n k)) := by
  rcases h.settle_cases .negative with ⟨rfl, hu⟩ | ⟨m, e, hc, hu, -, -⟩ | ⟨hu, -⟩
  · rw [hu]
    exact not_exceeds_zero _
  · rw [hu]
    exact not_exceeds_negative hc.pos
  · rw [hu]
    exact not_exceeds_negInfinity

/-! ## The distance of two floats -/

/-- The difference of two numbers is computed exactly before it is rounded. -/
theorem exists_difference (s₁ s₂ : Sign) {m₁ m₂ : ℕ} (e₁ e₂ : ℤ) (h₁ : 0 < m₁) (h₂ : 0 < m₂) :
    ∃ D : ℤ, UnpackedFloat.sub .binary64 (.finite s₁ m₁ e₁ h₁) (.finite s₂ m₂ e₂ h₂) =
        UnpackedFloat.normalize .binary64 D (min e₁ e₂) .positive ∧
      (D * 2 ^ min e₁ e₂ : ℚ) = s₁.apply m₁ * 2 ^ e₁ - s₂.apply m₂ * 2 ^ e₂ := by
  refine ⟨_, rfl, ?_⟩
  have hscale : ∀ (s : Sign) (m : ℕ) {e : ℤ}, min e₁ e₂ ≤ e →
      (s.apply ((m <<< (e - min e₁ e₂).toNat : ℕ) : ℤ) : ℚ) * 2 ^ min e₁ e₂ =
        s.apply m * 2 ^ e := by
    intro s m e he
    rw [zpow_eq_pow_mul he, Nat.shiftLeft_eq]
    cases s <;> simp only [Sign.apply] <;> push_cast <;> ring
  rw [Int.cast_sub, sub_mul, hscale s₁ m₁ (min_le_left _ _), hscale s₂ m₂ (min_le_right _ _)]

theorem normalize_zero (e : ℤ) :
    UnpackedFloat.normalize .binary64 0 e .positive = .zero .positive := rfl

theorem exists_normalize {D : ℤ} (hD : D ≠ 0) (e : ℤ) :
    ∃ s, UnpackedFloat.normalize .binary64 D e .positive
      = UnpackedFloat.round .binary64 s D.natAbs e := by
  rcases lt_or_gt_of_ne hD with hlt | hgt
  · refine ⟨.negative, ?_⟩
    rw [UnpackedFloat.normalize, compare_lt_iff_lt.mpr hlt]
    simp only
    congr 1
    omega
  · refine ⟨.positive, ?_⟩
    rw [UnpackedFloat.normalize, compare_gt_iff_gt.mpr hgt]
    simp only
    congr 1
    omega

/-- The parts that the distance `x` from a positive number `g` is rounded to.  A
    distance of at most half of `g` is kept. -/
inductive Distance (x g : ℚ) : UnpackedFloat → Prop where
  | zero (hx : x = 0) : Distance x g (.zero .positive)
  | finite {m : ℕ} {e : ℤ} (hc : Canonical m e) (half : x ≤ 2 * (m * 2 ^ e))
      (kept : x ≤ g / 2 → (m * 2 ^ e : ℚ) = x) : Distance x g (.finite .positive m e hc.pos)
  | infinite (far : g / 2 < x) : Distance x g (.infinity .positive)

/-- A difference that fills more digits than a double has is more than half of
    the number subtracted. -/
theorem far_of_long {s : Sign} {m₁ m₂ M : ℕ} {e₁ e₂ : ℤ} (h₁ : m₁ < 2 ^ 53) (h₂ : m₂ < 2 ^ 53)
    (hM : 2 ^ 53 ≤ M)
    (hdiff : |(s.apply m₁ * 2 ^ e₁ : ℚ) - m₂ * 2 ^ e₂| = M * 2 ^ min e₁ e₂) :
    (m₂ * 2 ^ e₂ : ℚ) / 2 < |(s.apply m₁ * 2 ^ e₁ : ℚ) - m₂ * 2 ^ e₂| := by
  have hlong : (2 : ℚ) ^ 53 * 2 ^ min e₁ e₂ ≤ |(s.apply m₁ * 2 ^ e₁ : ℚ) - m₂ * 2 ^ e₂| := by
    rw [hdiff]
    gcongr
    exact_mod_cast hM
  rcases min_cases e₁ e₂ with ⟨hmin, -⟩ | ⟨hmin, -⟩
  · have habs : |(s.apply m₁ * 2 ^ e₁ : ℚ)| < 2 ^ 53 * 2 ^ e₁ := by
      have happly : |(s.apply m₁ : ℚ)| = m₁ := by cases s <;> simp [Sign.apply]
      rw [abs_mul, happly, abs_of_pos (by positivity : (0 : ℚ) < 2 ^ e₁)]
      gcongr
      exact_mod_cast h₁
    have htriangle := abs_sub_abs_le_abs_sub (m₂ * 2 ^ e₂ : ℚ) (s.apply m₁ * 2 ^ e₁)
    rw [abs_sub_comm (m₂ * 2 ^ e₂ : ℚ), abs_of_nonneg (by positivity : (0 : ℚ) ≤ m₂ * 2 ^ e₂)]
      at htriangle
    rw [hmin] at hlong
    linarith
  · have hlt : (m₂ * 2 ^ e₂ : ℚ) < 2 ^ 53 * 2 ^ e₂ := by
      gcongr
      exact_mod_cast h₂
    have hnonneg : (0 : ℚ) ≤ m₂ * 2 ^ e₂ := by positivity
    rw [hmin] at hlong
    linarith

theorem distance_of_finite {s : Sign} {m₁ m₂ : ℕ} {e₁ e₂ : ℤ} (h₁ : Canonical m₁ e₁)
    (h₂ : Canonical m₂ e₂) (he₂ : e₂ ≤ 971) :
    Distance |(s.apply m₁ * 2 ^ e₁ : ℚ) - m₂ * 2 ^ e₂| (m₂ * 2 ^ e₂)
      (settle (UnpackedFloat.sub .binary64 (.finite s m₁ e₁ h₁.pos)
        (.finite .positive m₂ e₂ h₂.pos))).abs := by
  obtain ⟨D, hsub, hD⟩ := exists_difference s .positive e₁ e₂ h₁.pos h₂.pos
  have hdiff : |(s.apply m₁ * 2 ^ e₁ : ℚ) - m₂ * 2 ^ e₂| = D.natAbs * 2 ^ min e₁ e₂ := by
    have hvalue : (s.apply m₁ * 2 ^ e₁ : ℚ) - m₂ * 2 ^ e₂ = D * 2 ^ min e₁ e₂ := hD.symm
    rw [hvalue, abs_mul, abs_of_pos (by positivity : (0 : ℚ) < 2 ^ min e₁ e₂), Nat.cast_natAbs,
      Int.cast_abs]
  have hfar := fun hM => far_of_long (s := s) h₁.lt h₂.lt hM hdiff
  rw [hsub]
  by_cases hzero : D = 0
  · subst hzero
    rw [normalize_zero, settle_zero]
    exact .zero (by rw [hdiff]; simp)
  · obtain ⟨s', hnormalize⟩ := exists_normalize hzero (min e₁ e₂)
    obtain ⟨n, k, hround, hr⟩ := exists_rounding_round s' (Int.natAbs_ne_zero.mpr hzero) (min e₁ e₂)
    have hleast : -1074 ≤ min e₁ e₂ := le_min h₁.least h₂.least
    have hhalf := hr.le_two_mul (hr.zpow_le (Int.natAbs_ne_zero.mpr hzero) hleast)
    rw [← hdiff] at hhalf
    have hkept : |(s.apply m₁ * 2 ^ e₁ : ℚ) - m₂ * 2 ^ e₂| ≤ m₂ * 2 ^ e₂ / 2 →
        (n * 2 ^ k : ℚ) = |(s.apply m₁ * 2 ^ e₁ : ℚ) - m₂ * 2 ^ e₂| := by
      intro hnear
      rw [hdiff]
      refine hr.eq_of_lt ?_ hleast
      by_contra hM
      exact absurd hnear (not_le.mpr (hfar (not_lt.mp hM)))
    rw [hnormalize, hround]
    rcases hr.settle_cases s' with ⟨rfl, hu⟩ | ⟨m, e, hc, hu, -, hvalue⟩ | ⟨hu, hlarge⟩
    · have hpos : (0 : ℚ) < D.natAbs * 2 ^ min e₁ e₂ :=
        mul_pos (by exact_mod_cast Int.natAbs_pos.mpr hzero) (by positivity)
      rw [hdiff, Nat.cast_zero] at hhalf
      linarith
    · rw [hu]
      rw [← hvalue] at hhalf hkept
      exact .finite hc hhalf hkept
    · rw [hu]
      refine .infinite ?_
      by_contra hnear
      rw [hkept (not_lt.mp hnear)] at hlarge
      have hsmall : (m₂ * 2 ^ e₂ : ℚ) < 2 * 2 ^ (1023 : ℤ) := by
        calc (m₂ * 2 ^ e₂ : ℚ) < 2 ^ (53 : ℤ) * 2 ^ (971 : ℤ) := by
              refine mul_lt_mul ?_ (zpow_le_zpow_right₀ one_le_two he₂) ?_ ?_
              · exact_mod_cast h₂.lt
              · positivity
              · positivity
          _ = 2 * 2 ^ (1023 : ℤ) := by
              rw [← zpow_add₀ two_ne_zero, ← zpow_one_add₀ two_ne_zero]
              rfl
      linarith

theorem distance_of_zero {s : Sign} {m : ℕ} {e : ℤ} (hc : Canonical m e) (he : e ≤ 971) :
    Distance |(0 : ℚ) - m * 2 ^ e| (m * 2 ^ e)
      (settle (UnpackedFloat.sub .binary64 (.zero s) (.finite .positive m e hc.pos))).abs := by
  have hvalue : |(0 : ℚ) - m * 2 ^ e| = m * 2 ^ e := by
    rw [zero_sub, abs_neg]
    exact abs_of_nonneg (by positivity)
  have hsub : UnpackedFloat.sub .binary64 (.zero s) (.finite .positive m e hc.pos) =
      .finite .negative m e hc.pos := rfl
  have hnonneg : (0 : ℚ) ≤ m * 2 ^ e := by positivity
  rw [hsub, settle_finite hc he, hvalue]
  exact .finite hc (by linarith) fun _ => rfl

/-! ## The quotient -/

theorem cutoff_pos : 0 < cutoff := by norm_num [cutoff_eq]

/-- The distance from a positive number exceeds the tolerance, relative to that
    number, exactly if it does not stay below the cutoff. -/
theorem exceeds_of_distance {x : ℚ} {u : UnpackedFloat} {m : ℕ} {e : ℤ} (hm : 0 < m)
    (hd : Distance x (m * 2 ^ e) u) :
    Exceeds (settle (UnpackedFloat.div .binary64 u (.finite .positive m e hm))) ↔
      cutoff * (m * 2 ^ e) ≤ x := by
  have hg : (0 : ℚ) < m * 2 ^ e := mul_pos (by exact_mod_cast hm) (by positivity)
  have hcutoff : cutoff < 1 / 4 := by norm_num [cutoff_eq]
  cases hd with
  | zero hx =>
      refine iff_of_false ?_ (not_le.mpr (hx ▸ mul_pos cutoff_pos hg))
      show ¬ Exceeds (settle (.zero .positive))
      rw [settle_zero]
      exact not_exceeds_zero _
  | @finite m₁ e₁ hc half kept =>
      obtain ⟨n, k, hdiv, hr⟩ := exists_rounding_div .positive .positive e₁ e hc.pos hm
      rw [hdiv]
      show Exceeds (settle (roundedParts .positive n k)) ↔ _
      rw [exceeds_rounded_iff hr, le_div_iff₀ hg]
      rcases le_or_gt x (m * 2 ^ e / 2) with hnear | hfar
      · rw [kept hnear]
      · -- far away, rounding the distance does not matter
        have hbound : cutoff * (m * 2 ^ e) < 1 / 4 * (m * 2 ^ e) :=
          mul_lt_mul_of_pos_right hcutoff hg
        refine iff_of_true ?_ ?_ <;> linarith
  | infinite far =>
      have hbound : cutoff * (m * 2 ^ e) < 1 / 4 * (m * 2 ^ e) :=
        mul_lt_mul_of_pos_right hcutoff hg
      refine iff_of_true ?_ (by linarith)
      show Exceeds (settle (.infinity .positive))
      rw [settle_infinity]
      exact exceeds_infinity

/-- Nothing exceeds the tolerance after division by what is not a number. -/
theorem not_exceeds_div_notANumber (d : Float.Model) :
    ¬ Exceeds (settle (UnpackedFloat.div .binary64 d.unpack.abs .notANumber)) := by
  have hdiv : UnpackedFloat.div .binary64 d.unpack.abs .notANumber = .notANumber := by
    cases d.unpack <;> rfl
  rw [hdiv, settle_notANumber]
  exact not_exceeds_notANumber

/-- Nothing exceeds the tolerance after division by an infinity: the quotient is
    zero or undefined. -/
theorem not_exceeds_div_infinity (d : Float.Model) (s : Sign) :
    ¬ Exceeds (settle (UnpackedFloat.div .binary64 d.unpack.abs (.infinity s))) := by
  have hdiv : UnpackedFloat.div .binary64 d.unpack.abs (.infinity s) = .notANumber ∨
      UnpackedFloat.div .binary64 d.unpack.abs (.infinity s) = .zero (.positive / s) := by
    cases d.unpack with
    | notANumber => exact .inl rfl
    | infinity => exact .inl rfl
    | zero => exact .inr rfl
    | finite => exact .inr rfl
  rcases hdiv with hdiv | hdiv
  · rw [hdiv, settle_notANumber]
    exact not_exceeds_notANumber
  · rw [hdiv, settle_zero]
    exact not_exceeds_zero _

/-- Nothing exceeds the tolerance after division by a negative number: distances
    are positive, and the quotient is not. -/
theorem not_exceeds_div_negative (d : Float.Model) {m : ℕ} {e : ℤ} (hm : 0 < m) :
    ¬ Exceeds (settle (UnpackedFloat.div .binary64 d.unpack.abs (.finite .negative m e hm))) := by
  cases hd : d.unpack with
  | notANumber =>
      show ¬ Exceeds (settle .notANumber)
      rw [settle_notANumber]
      exact not_exceeds_notANumber
  | infinity s =>
      show ¬ Exceeds (settle (.infinity .negative))
      rw [settle_infinity]
      exact not_exceeds_negInfinity
  | zero s =>
      show ¬ Exceeds (settle (.zero .negative))
      rw [settle_zero]
      exact not_exceeds_zero .negative
  | finite s m₁ e₁ h₁ =>
      obtain ⟨n, k, hdiv, hr⟩ := exists_rounding_div .positive .negative e₁ e h₁ hm
      show ¬ Exceeds (settle (UnpackedFloat.div .binary64 (.finite .positive m₁ e₁ h₁) _))
      rw [hdiv]
      exact not_exceeds_rounded_negative hr

/-! ## The comparison -/

/-- Whether the comparison records a failure, by what the two floats stand
    for. -/
def Reading.recorded : Reading → Reading → Bool
  | .infinite _, .number y => decide (0 < y)
  | .number x, .number y => decide (0 < y ∧ cutoff * y ≤ |x - y|)
  | _, _ => false

/-- Whether two floats are apart: by more than the ten thousandth part of the
    second, or in that they are not both numbers and not the same. -/
def Reading.apart : Reading → Reading → Bool
  | .number x, .number y => decide (1 / 10000 * |y| < |x - y|)
  | x, y => x != y

theorem settle_abs (d : Float.Model) : settle d.unpack.abs = d.unpack.abs := by
  cases hd : d.unpack with
  | notANumber => exact settle_notANumber
  | infinity s => exact settle_infinity .positive
  | zero s => exact settle_zero .positive
  | finite s m e hm =>
      obtain ⟨hc, he⟩ := canonical_unpack d.toBits.toBitVec hd
      exact settle_finite hc he

/-- The comparison, step by step on the parts of the two floats. -/
theorem gt_floatTolerance_iff (v g : Float) :
    (v - g).abs / g > floatTolerance ↔
      Exceeds
        (settle (UnpackedFloat.div .binary64 (v - g).toModel.unpack.abs g.toModel.unpack)) := by
  have habs : (v - g).abs.toModel.unpack = (v - g).toModel.unpack.abs :=
    settle_abs (v - g).toModel
  rw [← habs]
  show decide (UnpackedFloat.lt floatTolerance.toModel.unpack _ = true) = true ↔ _
  rw [decide_eq_true_iff, unpack_floatTolerance]
  rfl

theorem recorded_of_not_pos (r : Reading) {y : ℚ} (hy : ¬ 0 < y) :
    r.recorded (.number y) = false := by
  cases r <;> simp [Reading.recorded, hy]

theorem readParts_positive {m : ℕ} {e : ℤ} (hm : 0 < m) :
    readParts (.finite .positive m e hm) = .number (m * 2 ^ e) := rfl

/-- The comparison with a golden float that is not zero. -/
theorem gt_floatTolerance_iff_recorded (v g : Float) (hg : reading g ≠ .number 0) :
    (v - g).abs / g > floatTolerance ↔ (reading v).recorded (reading g) = true := by
  have hsub : (v - g).toModel.unpack =
      settle (UnpackedFloat.sub .binary64 v.toModel.unpack g.toModel.unpack) := rfl
  rw [gt_floatTolerance_iff]
  rw [reading_eq] at hg
  rw [reading_eq v, reading_eq g]
  cases hG : g.toModel.unpack with
  | notANumber =>
      refine iff_of_false (not_exceeds_div_notANumber _) ?_
      cases readParts v.toModel.unpack <;> exact Bool.false_ne_true
  | infinity s =>
      refine iff_of_false (not_exceeds_div_infinity _ s) ?_
      cases readParts v.toModel.unpack <;> exact Bool.false_ne_true
  | zero s => exact absurd (by rw [hG]; rfl) hg
  | finite s m e hm =>
      obtain ⟨hc, he⟩ := canonical_unpack g.toModel.toBits.toBitVec hG
      have hpos : (0 : ℚ) < m * 2 ^ e := mul_pos (by exact_mod_cast hm) (by positivity)
      cases s with
      | negative =>
          have hvalue : readParts (.finite .negative m e hm) = .number (-(m * 2 ^ e)) := by
            rw [readParts_finite]
            simp [Sign.apply]
          refine iff_of_false (not_exceeds_div_negative _ hm) ?_
          rw [hvalue, recorded_of_not_pos _ (by linarith)]
          exact Bool.false_ne_true
      | positive =>
          rw [hsub, hG, readParts_positive]
          cases hV : v.toModel.unpack with
          | notANumber =>
              refine iff_of_false ?_ Bool.false_ne_true
              have hnan : settle (UnpackedFloat.sub .binary64 .notANumber
                  (.finite .positive m e hm)) = .notANumber := settle_notANumber
              rw [hnan]
              show ¬ Exceeds (settle .notANumber)
              rw [settle_notANumber]
              exact not_exceeds_notANumber
          | infinity s =>
              refine iff_of_true ?_ (decide_eq_true hpos)
              have hinfinite : settle (UnpackedFloat.sub .binary64 (.infinity s)
                  (.finite .positive m e hm)) = .infinity s := settle_infinity s
              rw [hinfinite]
              show Exceeds (settle (.infinity .positive))
              rw [settle_infinity]
              exact exceeds_infinity
          | zero s =>
              rw [exceeds_of_distance hm (distance_of_zero hc he), readParts_zero]
              simp [Reading.recorded, hpos]
          | finite s m₁ e₁ hm₁ =>
              obtain ⟨hc₁, -⟩ := canonical_unpack v.toModel.toBits.toBitVec hV
              rw [exceeds_of_distance hm (distance_of_finite hc₁ hc he), readParts_finite]
              simp [Reading.recorded, hpos]

/-- A golden float is tested for zero by what it stands for. -/
theorem beq_zero_iff (g : Float) : (g == 0.0) = true ↔ reading g = .number 0 := by
  have hbeq : (g == 0.0) = g.toModel.unpack.beq (.zero .positive) := rfl
  rw [hbeq, reading_eq]
  cases hG : g.toModel.unpack with
  | notANumber =>
      refine iff_of_false Bool.false_ne_true ?_
      rw [readParts_notANumber]
      exact Reading.noConfusion
  | infinity s =>
      refine iff_of_false ?_ ?_
      · cases s <;> exact Bool.false_ne_true
      · rw [readParts_infinity]
        exact Reading.noConfusion
  | zero s => exact iff_of_true rfl rfl
  | finite s m e hm =>
      have hpow : (2 : ℚ) ^ e ≠ 0 := zpow_ne_zero e two_ne_zero
      refine iff_of_false ?_ ?_
      · cases s <;> exact Bool.false_ne_true
      · rw [readParts_finite]
        cases s <;> simp [Sign.apply, hm.ne', hpow]

/-! ## Recorded and apart -/

theorem cutoff_gt : 1 / 10000 < cutoff := by norm_num [cutoff_eq]

theorem cutoff_lt : cutoff < 1 / 10000 + 1 / 2 ^ 66 := by norm_num [cutoff_eq]

theorem apart_self (r : Reading) : r.apart r = false := by
  cases r <;> simp [Reading.apart]

/-- Only floats that are apart are recorded. -/
theorem apart_of_recorded {r t : Reading} (h : r.recorded t = true) : r.apart t = true := by
  cases r with
  | nan => cases t <;> cases h
  | infinite negative =>
      cases t with
      | nan => cases h
      | infinite negative' => cases h
      | number y => rfl
  | number x =>
      cases t with
      | nan => cases h
      | infinite negative => cases h
      | number y =>
          obtain ⟨hy, hfar⟩ := of_decide_eq_true h
          refine decide_eq_true ?_
          rw [abs_of_pos hy]
          exact lt_of_lt_of_le (mul_lt_mul_of_pos_right cutoff_gt hy) hfar

/-- Against positive golden floats, floats that are apart are recorded, except in
    a band that is narrower than the spacing of doubles at the tolerance. -/
theorem recorded_eq_apart {r : Reading} {y : ℚ} (hy : 0 < y) (hr : r ≠ .nan)
    (hband : ∀ x, r = .number x →
      |x - y| ≤ 1 / 10000 * y ∨ (1 / 10000 + 1 / 2 ^ 66) * y ≤ |x - y|) :
    r.recorded (.number y) = r.apart (.number y) := by
  cases r with
  | nan => exact absurd rfl hr
  | infinite negative => exact decide_eq_true hy
  | number x =>
      simp only [Reading.recorded, Reading.apart, hy, true_and, abs_of_pos hy, decide_eq_decide]
      rcases hband x rfl with hnear | hfar
      · refine iff_of_false (not_le.mpr ?_) (not_lt.mpr hnear)
        exact lt_of_le_of_lt hnear (mul_lt_mul_of_pos_right cutoff_gt hy)
      · have hcutoff : cutoff * y ≤ |x - y| :=
          le_trans (mul_le_mul_of_nonneg_right cutoff_lt.le hy.le) hfar
        refine iff_of_true hcutoff ?_
        exact lt_of_lt_of_le (mul_lt_mul_of_pos_right cutoff_gt hy) hcutoff

end DialectBench.Decimal

namespace DialectBench

open Decimal

/-- **FLOATS AGAINST POSITIVE GOLDEN FLOATS**: a golden zero ends the comparison
    with a fault.  Against any other golden float a failure is recorded exactly
    if the golden float is positive and finite and the float is an infinity or at
    least `cutoff` times the golden float away.  What is recorded is apart, so a
    float never fails against itself; and against positive golden floats, all
    floats that are apart are recorded, up to rounding and except for undefined
    ones. -/
theorem float_failures_exact [Gauge] (c : Context) (v g : Float) :
    valueReasons c (.float v) (.float g) =
        (if reading g = .number 0 then .error .divisionByZero
        else if (reading v).recorded (reading g) then
          .ok [c.format (Mismatch.float v g).message]
        else .ok []) ∧
      ((reading v).recorded (reading g) = true → (reading v).apart (reading g) = true) ∧
      (reading g ≠ .number 0 → valueReasons c (.float g) (.float g) = .ok []) ∧
      ∀ y, reading g = .number y → 0 < y → reading v ≠ .nan →
        (∀ x, reading v = .number x →
          |x - y| ≤ 1 / 10000 * y ∨ (1 / 10000 + 1 / 2 ^ 66) * y ≤ |x - y|) →
        (reading v).recorded (reading g) = (reading v).apart (reading g) := by
  have hreasons : ∀ v : Float, valueReasons c (.float v) (.float g) =
      if reading g = .number 0 then .error .divisionByZero
      else if (reading v).recorded (reading g) then .ok [c.format (Mismatch.float v g).message]
      else .ok [] := by
    intro v
    have hreport : Finding.report c (.here (.float v g)) =
        c.format (Mismatch.float v g).message := by
      simp [Finding.report, Finding.here, Context.chainAll]
    show (testFloat v g).map _ = _
    rw [testFloat, ← hreport]
    by_cases hzero : reading g = .number 0
    · rw [if_pos ((beq_zero_iff g).mpr hzero), if_pos hzero]
      rfl
    · rw [if_neg ((beq_zero_iff g).not.mpr hzero), if_neg hzero]
      simp only [gt_floatTolerance_iff_recorded v g hzero]
      cases (reading v).recorded (reading g) <;> rfl
  refine ⟨hreasons v, apart_of_recorded, ?_, ?_⟩
  · intro hzero
    have hself : (reading g).recorded (reading g) = false := by
      by_contra h
      rw [Bool.not_eq_false] at h
      exact absurd (apart_of_recorded h) (by rw [apart_self]; exact Bool.false_ne_true)
    rw [hreasons g, if_neg hzero, hself]
    rfl
  · intro y hy hpos hnan hband
    rw [hy]
    exact recorded_eq_apart hpos hnan hband

theorem float_failures_exact_half :
    reading 1.5 = .number (3 / 2) ∧ reading 1.0 = .number 1 ∧
      valueReasons .empty (.float 1.5) (.float 1.0) =
        .ok ["@ \nERROR: value (1.5) is not close to golden value (1.0)"] ∧
      (reading 1.5).recorded (reading 1.0) = (reading 1.5).apart (reading 1.0) := by
  have hv : reading 1.5 = .number (3 / 2) := by decide +kernel
  have hg : reading 1.0 = .number 1 := by decide +kernel
  refine ⟨hv, hg, by decide +kernel, ?_⟩
  refine (float_failures_exact .empty 1.5 1.0).2.2.2 1 hg one_pos (by rw [hv]; simp) ?_
  intro x hx
  rw [hv, Reading.number.injEq] at hx
  rw [← hx]
  norm_num

/-- Five is apart from minus one and passes against it, an undefined float passes
    against one, and against zero there is no answer. -/
theorem negative_golden_passes :
    (reading 5.0).apart (reading (-1.0)) = true ∧
      valueReasons .empty (.float 5.0) (.float (-1.0)) = .ok [] ∧
      (reading (0.0 / 0.0)).apart (reading 1.0) = true ∧
      valueReasons .empty (.float (0.0 / 0.0)) (.float 1.0) = .ok [] ∧
      valueReasons .empty (.float 1.0) (.float 0.0) = .error .divisionByZero := by
  refine ⟨?_, ?_, ?_, ?_, ?_⟩
  all_goals decide +kernel

end DialectBench
