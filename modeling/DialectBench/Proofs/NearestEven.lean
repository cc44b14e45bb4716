import Mathlib.Algebra.Order.Field.Power
import Mathlib.Data.Rat.Floor
import Mathlib.Tactic.FieldSimp
import Mathlib.Tactic.Linarith
import Mathlib.Tactic.Positivity
import DialectBench.Proofs.Doubles

/-!
# Rounding to the nearest double

    A result is computed with more digits than a double has, and then cut to the
    digits from some exponent `k` on.  What is cut off is remembered in two
    bits, which say where the exact result lies between two multiples of
    `2 ^ k`.  From the two bits the NEAREST of the two multiples is found, the
    even one if both are equally near.

    `Rounding q n k` says that a positive number `q` is rounded to `n * 2 ^ k`.
    Sums, differences and quotients of doubles are all of this form, so that
    what is needed of them follows from `Rounding` alone: what fits into a
    double is kept exactly, and rounding loses less than half of a number.
-/

namespace DialectBench.Decimal

open Float.Model Float.Model.UnpackedFloat

/-! ## The nearest integer -/

/-- A natural number is the NEAREST to `y`, the even one of two: it exceeds `N`
    exactly if `y` is more than half way from `N` to the next, or half way and
    `N` is odd. -/
def Nearest (y : ℚ) (n : ℕ) : Prop :=
  ∀ N : ℕ, N < n ↔ (N + 1 / 2 : ℚ) < y ∨ (N + 1 / 2 : ℚ) = y ∧ N % 2 = 1

namespace Nearest

variable {y : ℚ} {n : ℕ}

theorem le_of_lt (h : Nearest y n) {N : ℕ} (hN : y < N) : n ≤ N := by
  by_contra hlt
  rcases (h N).mp (not_le.mp hlt) with hy | ⟨hy, -⟩ <;> linarith

theorem le_of_le (h : Nearest y n) {N : ℕ} (hN : (N : ℚ) ≤ y) : N ≤ n := by
  cases N with
  | zero => exact Nat.zero_le n
  | succ N =>
      refine (h N).mpr (.inl ?_)
      push_cast at hN
      linarith

theorem eq_natCast {N : ℕ} (h : Nearest (N : ℚ) n) : n = N := by
  refine le_antisymm ?_ (h.le_of_le le_rfl)
  by_contra hlt
  rcases (h N).mp (not_le.mp hlt) with hy | ⟨hy, -⟩ <;> linarith

/-- Above an odd number half way is enough. -/
theorem lt_iff_of_odd (h : Nearest y n) {N : ℕ} (hN : N % 2 = 1) :
    N < n ↔ (N + 1 / 2 : ℚ) ≤ y := by
  rw [h N, le_iff_lt_or_eq]
  simp [hN]

end Nearest

/-! ## Mantissas with two more bits -/

/-- What a mantissa and the bit behind it amount to. -/
def base (em : ExtendedMantissa) : ℚ := em.mantissa + if em.roundBit then 1 / 2 else 0

/-- The number that a mantissa with two more bits STANDS FOR.  The second bit
    says whether the number is more than what mantissa and first bit amount
    to. -/
def StandsFor (em : ExtendedMantissa) (y : ℚ) : Prop :=
  if em.stickyBit then base em < y ∧ y < base em + 1 / 2 else y = base em

namespace StandsFor

variable {em : ExtendedMantissa} {y : ℚ}

theorem between (h : StandsFor em y) : (em.mantissa : ℚ) ≤ y ∧ y < em.mantissa + 1 := by
  obtain ⟨m, r, s⟩ := em
  cases r <;> cases s <;> simp [StandsFor, base] at h ⊢ <;> constructor <;> linarith

/-- A number that is not its mantissa lies strictly between two mantissas. -/
theorem strictly_between (h : StandsFor em y) (hbits : (em.roundBit || em.stickyBit) = true) :
    (em.mantissa : ℚ) < y ∧ y < em.mantissa + 1 := by
  obtain ⟨m, r, s⟩ := em
  cases r <;> cases s <;> simp [StandsFor, base] at h hbits ⊢ <;> constructor <;> linarith

theorem base_shiftRightOne (em : ExtendedMantissa) : base em.shiftRightOne = em.mantissa / 2 := by
  obtain ⟨m, r, s⟩ := em
  rcases Nat.even_or_odd' m with ⟨k, rfl | rfl⟩
  · simp [base, ExtendedMantissa.shiftRightOne]
  · have hhalf : (2 * k + 1) / 2 = k := by omega
    simp [base, ExtendedMantissa.shiftRightOne, hhalf]
    ring

/-- Dropping a digit halves the number. -/
theorem shiftRightOne (h : StandsFor em y) : StandsFor em.shiftRightOne (y / 2) := by
  rw [StandsFor, base_shiftRightOne]
  show if (em.roundBit || em.stickyBit) = true then _ else _
  by_cases hbits : (em.roundBit || em.stickyBit) = true
  · have hy := h.strictly_between hbits
    rw [if_pos hbits]
    constructor <;> linarith
  · obtain ⟨hround, hsticky⟩ : em.roundBit = false ∧ em.stickyBit = false := by
      simpa using hbits
    have hy : y = em.mantissa := by simpa [StandsFor, base, hround, hsticky] using h
    rw [if_neg hbits, hy]

theorem shiftRight (h : StandsFor em y) (k : ℕ) : StandsFor (em >>> k) (y / 2 ^ k) := by
  show StandsFor (k.repeat ExtendedMantissa.shiftRightOne em) (y / 2 ^ k)
  induction k with
  | zero => simpa [Nat.repeat] using h
  | succ k ih =>
      rw [Nat.repeat, pow_succ, ← div_div]
      exact ih.shiftRightOne

end StandsFor

theorem mantissa_le_roundedMantissa (em : ExtendedMantissa) :
    em.mantissa ≤ em.roundedMantissa ∧ em.roundedMantissa ≤ em.mantissa + 1 := by
  obtain ⟨m, r, s⟩ := em
  have hparity : m % 2 ≤ 1 := by omega
  cases r <;> cases s <;> simp [ExtendedMantissa.roundedMantissa, ExtendedMantissa.accuracy,
    Accuracy.roundToNearestEven, hparity]

/-- The two bits are enough to find the nearest mantissa. -/
theorem StandsFor.nearest_roundedMantissa {em : ExtendedMantissa} {y : ℚ} (h : StandsFor em y) :
    Nearest y em.roundedMantissa := by
  intro N
  have hy := h.between
  have hround := mantissa_le_roundedMantissa em
  rcases lt_trichotomy N em.mantissa with hN | rfl | hN
  · have hcast : (N : ℚ) + 1 ≤ em.mantissa := by exact_mod_cast hN
    exact iff_of_true (by omega) (.inl (by linarith))
  · -- here, and only here, the bits decide
    obtain ⟨m, r, s⟩ := em
    cases r with
    | false =>
        have hlt : y < m + 1 / 2 := by
          cases s with
          | false => simp [StandsFor, base] at h; linarith
          | true => simp [StandsFor, base] at h; linarith
        have hrounded : ExtendedMantissa.roundedMantissa ⟨m, false, s⟩ = m := by
          cases s <;> rfl
        refine iff_of_false (by simp [hrounded]) ?_
        rintro (hgt | ⟨heq, -⟩) <;> linarith
    | true =>
        cases s with
        | false =>
            have heq : y = m + 1 / 2 := by simpa [StandsFor, base] using h
            have hrounded : ExtendedMantissa.roundedMantissa ⟨m, true, false⟩ = m + m % 2 := rfl
            simp only [hrounded, heq, lt_irrefl, false_or, true_and]
            omega
        | true =>
            have hgt : m + 1 / 2 < y := by simpa [StandsFor, base] using h.1
            exact iff_of_true (Nat.lt_succ_self m) (.inl hgt)
  · have hcast : (em.mantissa : ℚ) + 1 ≤ N := by exact_mod_cast hN
    refine iff_of_false (by omega) ?_
    rintro (hlt | ⟨heq, -⟩) <;> linarith

/-! ## Rounding -/

/-- A number `q` is ROUNDED to `n * 2 ^ k`: the digits from `k` on are kept, which
    are 53 digits unless `k` is the least exponent of a double. -/
structure Rounding (q : ℚ) (n : ℕ) (k : ℤ) : Prop where
  least : -1074 ≤ k
  lt : q < 2 ^ 53 * 2 ^ k
  normal : 2 ^ 52 * 2 ^ k ≤ q ∨ k = -1074
  nearest : Nearest (q / 2 ^ k) n

/-- The parts of a rounded number.  If the mantissa got a digit too long, the
    last one is dropped. -/
def roundedParts (s : Sign) (n : ℕ) (k : ℤ) : UnpackedFloat :=
  if h : n = 0 then .zero s
  else if n < 2 ^ 53 then .finite s n k (Nat.pos_of_ne_zero h)
  else .finite s (2 ^ 52) (k + 1) (by decide)

/-- The exponent of the last digit that is kept of `m * 2 ^ e`. -/
def grid (m : ℕ) (e : ℤ) : ℤ := max (m.log2 + 1 + e - 53) (-1074)

theorem shiftToTargetExponent_eq (m : ℕ) (e : ℤ) (acc : Accuracy) :
    shiftToTargetExponent .binary64 m e acc =
      (ExtendedMantissa.ofMantissaAndAccuracy m acc >>> (grid m e - e).toNat,
        e + (grid m e - e).toNat) := rfl

theorem shiftToTargetExponent_of_lt {n : ℕ} {k : ℤ} (hn : n < 2 ^ 53) (hk : -1074 ≤ k) :
    shiftToTargetExponent .binary64 n k .exact = (⟨n, false, false⟩, k) := by
  have hlog : n.log2 < 53 := by
    by_cases h0 : n = 0
    · simp [h0]
    · exact (Nat.log2_lt h0).mpr hn
  have hshift : (grid n k - k).toNat = 0 := by
    rw [grid]
    omega
  rw [shiftToTargetExponent_eq, hshift]
  simp only [Nat.cast_zero, add_zero]
  rfl

theorem shiftToTargetExponent_carry {k : ℤ} (hk : -1074 ≤ k) :
    shiftToTargetExponent .binary64 (2 ^ 53) k .exact = (⟨2 ^ 52, false, false⟩, k + 1) := by
  have hshift : (grid (2 ^ 53) k - k).toNat = 1 := by
    rw [grid, Nat.log2_two_pow]
    omega
  rw [shiftToTargetExponent_eq, hshift]
  rfl

/-- The parts with a shifted mantissa, which may be zero. -/
def partsOf (s : Sign) (p : ExtendedMantissa × ℤ) : UnpackedFloat :=
  if h : p.1.mantissa = 0 then .zero s else .finite s p.1.mantissa p.2 (Nat.pos_of_ne_zero h)

/-- Rounding shifts a second time, as the rounded mantissa may be too long. -/
theorem roundWithAccuracy_eq (s : Sign) (m : ℕ) (e : ℤ) (acc : Accuracy) :
    roundWithAccuracy .binary64 s m e acc =
      partsOf s (shiftToTargetExponent .binary64
        (shiftToTargetExponent .binary64 m e acc).1.roundedMantissa
        (shiftToTargetExponent .binary64 m e acc).2 .exact) := rfl

theorem roundWithAccuracy_eq_roundedParts {s : Sign} {m : ℕ} {e k : ℤ} {acc : Accuracy}
    {em : ExtendedMantissa} (hshift : shiftToTargetExponent .binary64 m e acc = (em, k))
    (hk : -1074 ≤ k) (hle : em.roundedMantissa ≤ 2 ^ 53) :
    roundWithAccuracy .binary64 s m e acc = roundedParts s em.roundedMantissa k := by
  rw [roundWithAccuracy_eq, hshift]
  show partsOf s (shiftToTargetExponent .binary64 em.roundedMantissa k .exact) = _
  rcases hle.lt_or_eq with hlt | heq
  · rw [shiftToTargetExponent_of_lt hlt hk]
    by_cases hzero : em.roundedMantissa = 0
    · have hparts : roundedParts s em.roundedMantissa k = .zero s := dif_pos hzero
      rw [hparts]
      exact dif_pos hzero
    · have hparts : roundedParts s em.roundedMantissa k
          = .finite s em.roundedMantissa k (Nat.pos_of_ne_zero hzero) :=
        (dif_neg hzero).trans (if_pos hlt)
      rw [hparts]
      exact dif_neg hzero
  · rw [heq, shiftToTargetExponent_carry hk]
    rfl

theorem zpow_eq_pow_mul {e k : ℤ} (h : k ≤ e) : (2 : ℚ) ^ e = 2 ^ (e - k).toNat * 2 ^ k := by
  rw [← zpow_natCast, ← zpow_add₀ two_ne_zero]
  congr 1
  omega

theorem natCast_lt_zpow_log2 (m : ℕ) : (m : ℚ) + 1 ≤ 2 ^ ((m.log2 : ℤ) + 1) := by
  have h : m + 1 ≤ 2 ^ (m.log2 + 1) := Nat.lt_log2_self
  exact_mod_cast h

theorem zpow_log2_le {m : ℕ} (hm : m ≠ 0) : (2 : ℚ) ^ (m.log2 : ℤ) ≤ m := by
  have h : 2 ^ m.log2 ≤ m := Nat.log2_self_le hm
  exact_mod_cast h

/-- A number `y * 2 ^ e` of which the mantissa and some more bits are known is
    rounded, provided that enough digits are there. -/
theorem exists_rounding (s : Sign) {m : ℕ} {e : ℤ} {acc : Accuracy} {y : ℚ}
    (hy : StandsFor (.ofMantissaAndAccuracy m acc) y) (he : e ≤ grid m e) :
    ∃ n k, roundWithAccuracy .binary64 s m e acc = roundedParts s n k ∧
      Rounding (y * 2 ^ e) n k := by
  obtain ⟨k, hk⟩ : ∃ k, k = grid m e := ⟨_, rfl⟩
  have hleast : -1074 ≤ k := by rw [hk, grid]; omega
  have hmantissa : (ExtendedMantissa.ofMantissaAndAccuracy m acc).mantissa = m := by
    cases acc with
    | exact => rfl
    | inexact o => cases o <;> rfl
  have hbetween := hy.between
  rw [hmantissa] at hbetween
  have hpow : (0 : ℚ) < 2 ^ e := by positivity
  -- the first shift keeps the digits from `k` on
  have hshift : e + ((k - e).toNat : ℤ) = k := by omega
  have hshifted := hy.shiftRight (k - e).toNat
  have hscaled : y / 2 ^ (k - e).toNat = y * 2 ^ e / 2 ^ k := by
    rw [zpow_eq_pow_mul (by omega : e ≤ k)]
    field_simp
  rw [hscaled] at hshifted
  have hlt : y * 2 ^ e < 2 ^ 53 * 2 ^ k := by
    calc y * 2 ^ e < 2 ^ ((m.log2 : ℤ) + 1) * 2 ^ e := by
          have := natCast_lt_zpow_log2 m
          gcongr
          linarith
      _ = 2 ^ ((m.log2 : ℤ) + 1 + e) := (zpow_add₀ two_ne_zero _ _).symm
      _ ≤ 2 ^ (53 + k) := zpow_le_zpow_right₀ one_le_two (by rw [hk, grid]; omega)
      _ = 2 ^ 53 * 2 ^ k := by rw [zpow_add₀ two_ne_zero]; rfl
  have hnormal : 2 ^ 52 * 2 ^ k ≤ y * 2 ^ e ∨ k = -1074 := by
    by_cases hmin : k = -1074
    · exact .inr hmin
    · have hgrid : k = m.log2 + e - 52 := by rw [hk, grid] at hmin ⊢; omega
      have hm : m ≠ 0 := by rintro rfl; rw [Nat.log2_zero] at hgrid; omega
      refine .inl ?_
      calc (2 : ℚ) ^ 52 * 2 ^ k = 2 ^ (52 + k) := by rw [zpow_add₀ two_ne_zero]; rfl
        _ = 2 ^ (m.log2 : ℤ) * 2 ^ e := by rw [hgrid, ← zpow_add₀ two_ne_zero]; congr 1; omega
        _ ≤ y * 2 ^ e := by
          have := zpow_log2_le hm
          gcongr
          linarith
  have hrounding : Rounding (y * 2 ^ e) _ k :=
    ⟨hleast, hlt, hnormal, hshifted.nearest_roundedMantissa⟩
  refine ⟨_, k, roundWithAccuracy_eq_roundedParts ?_ hleast ?_, hrounding⟩
  · rw [shiftToTargetExponent_eq, ← hk, hshift]
  · refine hrounding.nearest.le_of_lt ?_
    rw [div_lt_iff₀ (by positivity)]
    exact_mod_cast hlt

namespace Rounding

variable {q : ℚ} {n : ℕ} {k : ℤ}

theorem le (h : Rounding q n k) : n ≤ 2 ^ 53 := by
  refine h.nearest.le_of_lt ?_
  rw [div_lt_iff₀ (by positivity)]
  exact_mod_cast h.lt

theorem normal_or (h : Rounding q n k) : 2 ^ 52 ≤ n ∨ k = -1074 := by
  rcases h.normal with hq | hk
  · refine .inl (h.nearest.le_of_le ?_)
    rw [le_div_iff₀ (by positivity)]
    exact_mod_cast hq
  · exact .inr hk

/-- What fits into a double is kept. -/
theorem eq_of_lt {M : ℕ} {e : ℤ} (h : Rounding (M * 2 ^ e) n k) (hM : M < 2 ^ 53)
    (he : -1074 ≤ e) : (n * 2 ^ k : ℚ) = M * 2 ^ e := by
  have hke : k ≤ e := by
    rcases h.normal with hq | hk
    · have hlt : (2 : ℚ) ^ (52 + k) < 2 ^ (53 + e) := by
        calc (2 : ℚ) ^ (52 + k) = 2 ^ 52 * 2 ^ k := by rw [zpow_add₀ two_ne_zero]; rfl
          _ ≤ M * 2 ^ e := hq
          _ < 2 ^ 53 * 2 ^ e := by gcongr; exact_mod_cast hM
          _ = 2 ^ (53 + e) := by rw [zpow_add₀ two_ne_zero]; rfl
      have := (zpow_lt_zpow_iff_right₀ one_lt_two).mp hlt
      omega
    · omega
  have hsplit := zpow_eq_pow_mul hke
  have hy : (M * 2 ^ e / 2 ^ k : ℚ) = (M * 2 ^ (e - k).toNat : ℕ) := by
    rw [hsplit]
    push_cast
    field_simp
  have hnearest := h.nearest
  rw [hy] at hnearest
  rw [hnearest.eq_natCast, hsplit]
  push_cast
  ring

/-- Rounding loses less than half of a number that has a digit to keep. -/
theorem le_two_mul (h : Rounding q n k) (hq : 2 ^ k ≤ q) : q ≤ 2 * (n * 2 ^ k) := by
  have hpow : (0 : ℚ) < 2 ^ k := by positivity
  have hone : 1 ≤ q / 2 ^ k := by rwa [le_div_iff₀ hpow, one_mul]
  obtain ⟨N, hN⟩ : ∃ N, N = ⌊q / 2 ^ k⌋₊ := ⟨_, rfl⟩
  have hfloor : (N : ℚ) ≤ q / 2 ^ k := hN ▸ Nat.floor_le (by linarith)
  have hsucc : q / 2 ^ k < N + 1 := hN ▸ Nat.lt_floor_add_one _
  have hNn : (N : ℚ) ≤ n := by exact_mod_cast h.nearest.le_of_le hfloor
  have hNpos : (1 : ℚ) ≤ N := by
    exact_mod_cast hN ▸ (Nat.one_le_floor_iff _).mpr hone
  have hle : q / 2 ^ k ≤ 2 * n := by linarith
  rw [div_le_iff₀ hpow] at hle
  linarith

/-- A multiple of the least power that doubles have has a digit to keep. -/
theorem zpow_le {M : ℕ} {e : ℤ} (h : Rounding (M * 2 ^ e) n k) (hM : M ≠ 0) (he : -1074 ≤ e) :
    (2 : ℚ) ^ k ≤ M * 2 ^ e := by
  have hone : (1 : ℚ) ≤ M := by exact_mod_cast Nat.pos_of_ne_zero hM
  rcases h.normal with hq | rfl
  · calc (2 : ℚ) ^ k ≤ 2 ^ 52 * 2 ^ k := le_mul_of_one_le_left (by positivity) (by norm_num)
      _ ≤ M * 2 ^ e := hq
  · calc (2 : ℚ) ^ (-1074 : ℤ) ≤ 2 ^ e := zpow_le_zpow_right₀ one_le_two he
      _ ≤ M * 2 ^ e := le_mul_of_one_le_left (by positivity) hone

/-- A rounded number that is not zero has canonical parts. -/
theorem exists_canonical (h : Rounding q n k) (hn : n ≠ 0) (s : Sign) :
    ∃ m e, ∃ hc : Canonical m e, roundedParts s n k = .finite s m e hc.pos ∧
      (m * 2 ^ e : ℚ) = n * 2 ^ k := by
  rcases h.le.lt_or_eq with hlt | rfl
  · refine ⟨n, k, ⟨Nat.pos_of_ne_zero hn, hlt, h.least, h.normal_or⟩, ?_, rfl⟩
    rw [roundedParts, dif_neg hn, if_pos hlt]
  · have hleast := h.least
    refine ⟨2 ^ 52, k + 1, ⟨by decide, by decide, by omega, .inl le_rfl⟩, rfl, ?_⟩
    rw [zpow_add₀ two_ne_zero]
    push_cast
    ring

/-- A rounded number as it comes back from a double: zero, of the same value, or
    an infinity. -/
theorem settle_cases (h : Rounding q n k) (s : Sign) :
    (n = 0 ∧ settle (roundedParts s n k) = .zero s) ∨
    (∃ m e, ∃ hc : Canonical m e, settle (roundedParts s n k) = .finite s m e hc.pos ∧
      e ≤ 971 ∧ (m * 2 ^ e : ℚ) = n * 2 ^ k) ∨
    (settle (roundedParts s n k) = .infinity s ∧ (2 : ℚ) ^ (1023 : ℤ) ≤ n * 2 ^ k) := by
  by_cases hn : n = 0
  · subst hn
    exact .inl ⟨rfl, settle_zero s⟩
  · obtain ⟨m, e, hc, hparts, hvalue⟩ := h.exists_canonical hn s
    rw [hparts, ← hvalue]
    by_cases he : e ≤ 971
    · exact .inr (.inl ⟨m, e, hc, settle_finite hc he, he, rfl⟩)
    · refine .inr (.inr ⟨settle_overflow hc.pos (by omega), ?_⟩)
      have hm : 2 ^ 52 ≤ m := hc.normal.resolve_right (by omega)
      calc (2 : ℚ) ^ (1023 : ℤ) = 2 ^ (52 : ℤ) * 2 ^ (971 : ℤ) :=
            zpow_add₀ two_ne_zero 52 971
        _ ≤ m * 2 ^ e := by
          refine mul_le_mul ?_ (zpow_le_zpow_right₀ one_le_two (by omega)) (by positivity)
            (by positivity)
          exact_mod_cast hm

end Rounding

/-! ## Operations that round -/

theorem standsFor_exact (m : ℕ) : StandsFor (.ofMantissaAndAccuracy m .exact) m := by
  simp [StandsFor, base, ExtendedMantissa.ofMantissaAndAccuracy]

theorem log2_mul_two_pow {m : ℕ} (hm : m ≠ 0) (j : ℕ) : (m * 2 ^ j).log2 = m.log2 + j := by
  refine (Nat.log2_eq_iff (by positivity)).mpr ⟨?_, ?_⟩
  · rw [pow_add]
    exact Nat.mul_le_mul_right _ (Nat.log2_self_le hm)
  · rw [show m.log2 + j + 1 = m.log2 + 1 + j by omega, pow_add]
    exact Nat.mul_lt_mul_of_pos_right Nat.lt_log2_self (by positivity)

/-- A mantissa and an exponent are rounded. -/
theorem exists_rounding_round (s : Sign) {M : ℕ} (hM : M ≠ 0) (e : ℤ) :
    ∃ n k, UnpackedFloat.round .binary64 s M e = roundedParts s n k ∧
      Rounding (M * 2 ^ e) n k := by
  obtain ⟨j, hj⟩ : ∃ j, j = (e - grid M e).toNat := ⟨_, rfl⟩
  have hround : UnpackedFloat.round .binary64 s M e =
      roundWithAccuracy .binary64 s (M * 2 ^ j) (e - j) .exact := by
    rw [hj, ← Nat.shiftLeft_eq]
    rfl
  have hgrid : grid (M * 2 ^ j) (e - j) = grid M e := by
    rw [grid, grid, log2_mul_two_pow hM]
    omega
  have hvalue : ((M * 2 ^ j : ℕ) : ℚ) * 2 ^ (e - j) = M * 2 ^ e := by
    rw [zpow_sub₀ two_ne_zero, zpow_natCast]
    push_cast
    field_simp
  rw [hround, ← hvalue]
  exact exists_rounding s (standsFor_exact _) (by rw [hgrid]; omega)

/-- A quotient of natural numbers, of which the remainder says how it lies
    between two mantissas. -/
theorem standsFor_fraction (m : ℕ) {d : ℕ} (hd : 0 < d) :
    StandsFor (.ofMantissaAndAccuracy (m / d) (accuracyOfFraction (m % d) d)) (m / d) := by
  have hd' : (0 : ℚ) < d := by exact_mod_cast hd
  have hdiv : (m : ℚ) / d = (m / d : ℕ) + (m % d : ℕ) / d := by
    have hmod : ((m % d + d * (m / d) : ℕ) : ℚ) = m := by rw [Nat.mod_add_div]
    rw [← hmod]
    push_cast
    field_simp
    ring
  have hlt : ((m % d : ℕ) : ℚ) < d := by exact_mod_cast Nat.mod_lt m hd
  rw [hdiv]
  generalize m / d = N at *
  generalize m % d = r at *
  rw [accuracyOfFraction]
  by_cases hr : r = 0
  · rw [if_pos hr, hr]
    simp [StandsFor, base, ExtendedMantissa.ofMantissaAndAccuracy]
  · have hpos : (0 : ℚ) < r := by exact_mod_cast Nat.pos_of_ne_zero hr
    have hfraction : (0 : ℚ) < r / d ∧ (r : ℚ) / d < 1 :=
      ⟨div_pos hpos hd', (div_lt_one hd').mpr hlt⟩
    rw [if_neg hr]
    rcases lt_trichotomy (2 * r) d with hhalf | hhalf | hhalf
    · have hcast : (r : ℚ) / d < 1 / 2 := by
        rw [div_lt_div_iff₀ hd' two_pos]
        exact_mod_cast (by omega : r * 2 < 1 * d)
      rw [Nat.compare_eq_lt.mpr hhalf]
      simp only [StandsFor, base, ExtendedMantissa.ofMantissaAndAccuracy]
      norm_num
      constructor <;> linarith
    · have hcast : (r : ℚ) / d = 1 / 2 := by
        rw [div_eq_div_iff hd'.ne' two_ne_zero]
        exact_mod_cast (by omega : r * 2 = 1 * d)
      rw [Nat.compare_eq_eq.mpr hhalf, hcast]
      simp [StandsFor, base, ExtendedMantissa.ofMantissaAndAccuracy]
    · have hcast : 1 / 2 < (r : ℚ) / d := by
        rw [div_lt_div_iff₀ two_pos hd']
        exact_mod_cast (by omega : 1 * d < r * 2)
      rw [Nat.compare_eq_gt.mpr hhalf]
      simp only [StandsFor, base, ExtendedMantissa.ofMantissaAndAccuracy]
      norm_num
      constructor <;> linarith

/-- A quotient has at least as many digits as the operands differ in, less one. -/
theorem le_log2_div {m d : ℕ} (hd : 0 < d) (h : d.log2 + 1 ≤ m.log2) :
    m.log2 - d.log2 - 1 ≤ (m / d).log2 := by
  have hm : m ≠ 0 := by rintro rfl; simp at h
  have hle : 2 ^ (m.log2 - d.log2 - 1) ≤ m / d := by
    rw [Nat.le_div_iff_mul_le hd]
    calc 2 ^ (m.log2 - d.log2 - 1) * d ≤ 2 ^ (m.log2 - d.log2 - 1) * 2 ^ (d.log2 + 1) :=
          Nat.mul_le_mul_left _ Nat.lt_log2_self.le
      _ = 2 ^ m.log2 := by rw [← pow_add]; congr 1; omega
      _ ≤ m := Nat.log2_self_le hm
  have hne : m / d ≠ 0 := (lt_of_lt_of_le (by positivity) hle).ne'
  exact (Nat.le_log2 hne).mpr hle

/-- A quotient of numbers is rounded. -/
theorem exists_rounding_div (s₁ s₂ : Sign) {m₁ m₂ : ℕ} (e₁ e₂ : ℤ) (h₁ : 0 < m₁) (h₂ : 0 < m₂) :
    ∃ n k, UnpackedFloat.div .binary64 (.finite s₁ m₁ e₁ h₁) (.finite s₂ m₂ e₂ h₂) =
        roundedParts (s₁ / s₂) n k ∧
      Rounding ((m₁ * 2 ^ e₁) / (m₂ * 2 ^ e₂)) n k := by
  obtain ⟨t, ht⟩ : ∃ t, t = min (e₁ - e₂)
      (max (m₁.log2 + 1 + e₁ - (m₂.log2 + 1 + e₂) - 53) (-1074)) := ⟨_, rfl⟩
  obtain ⟨j, hj⟩ : ∃ j, j = (e₁ - e₂ - t).toNat := ⟨_, rfl⟩
  have hdiv : UnpackedFloat.div .binary64 (.finite s₁ m₁ e₁ h₁) (.finite s₂ m₂ e₂ h₂) =
      roundWithAccuracy .binary64 (s₁ / s₂) (m₁ * 2 ^ j / m₂) t
        (accuracyOfFraction (m₁ * 2 ^ j % m₂) m₂) := by
    rw [hj, ht, ← Nat.shiftLeft_eq]
    rfl
  have hvalue : ((m₁ * 2 ^ j : ℕ) / m₂ : ℚ) * 2 ^ t = (m₁ * 2 ^ e₁) / (m₂ * 2 ^ e₂) := by
    have hsplit := zpow_eq_pow_mul (e := e₁ - e₂) (k := t) (by omega)
    rw [zpow_sub₀ two_ne_zero, ← hj] at hsplit
    push_cast
    rw [mul_div_mul_comm, hsplit]
    ring
  rw [hdiv, ← hvalue]
  refine exists_rounding _ (standsFor_fraction _ h₂) ?_
  -- there are enough digits unless the least exponent is reached
  by_cases hleast : t ≤ -1074
  · rw [grid]
    omega
  · have hlog : (m₁ * 2 ^ j).log2 = m₁.log2 + j := log2_mul_two_pow h₁.ne' j
    have hdigits : 53 + m₂.log2 ≤ m₁.log2 + j := by omega
    have hquotient := le_log2_div (m := m₁ * 2 ^ j) h₂ (by omega)
    rw [grid]
    omega

end DialectBench.Decimal
