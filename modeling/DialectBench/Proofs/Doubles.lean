import Mathlib.Algebra.Field.Rat
import DialectBench.Decimal.Exact

/-!
# Doubles as numbers

    A double is READ as not a number, as an infinity, or as a rational number;
    the two zeros read alike.  Arithmetic takes doubles apart into a sign, a
    mantissa and an exponent, computes on these and puts the result together
    again.  A mantissa and an exponent are CANONICAL if they are those of a
    double, except that the exponent may be too large.

    Two facts about putting together and taking apart are used later: canonical
    parts come back unchanged, or as an infinity if the exponent is too large,
    and what a double reads as can be read off its parts.
-/

namespace DialectBench.Decimal

open Float.Model Float.Model.UnpackedFloat

/-! ## Readings -/

/-- What a double stands for. -/
inductive Reading where
  | nan
  | infinite (negative : Bool)
  | number (x : ℚ)
  deriving DecidableEq

/-- The reading of an exact value. -/
def Exact.reading : Exact → Reading
  | .nan => .nan
  | .infinite negative => .infinite negative
  | .finite negative m q => .number ((if negative then -m else m : ℤ) * 2 ^ q)

/-- The reading of a double. -/
def reading (x : Float) : Reading := (Exact.ofFloat x).reading

/-- The reading of the parts of a double. -/
def readParts : UnpackedFloat → Reading
  | .notANumber => .nan
  | .infinity s => .infinite (s == .negative)
  | .zero _ => .number 0
  | .finite s m e _ => .number (s.apply m * 2 ^ e)

theorem readParts_notANumber : readParts .notANumber = .nan := rfl

theorem readParts_infinity (s : Sign) : readParts (.infinity s) = .infinite (s == .negative) := rfl

theorem readParts_zero (s : Sign) : readParts (.zero s) = .number 0 := rfl

theorem readParts_finite (s : Sign) {m : ℕ} (e : ℤ) (hm : 0 < m) :
    readParts (.finite s m e hm) = .number (s.apply m * 2 ^ e) := rfl

/-! ## Fields of the bits of a double -/

section

variable (b : BitVec 64)

theorem toNat_unpackMantissa : (@unpackMantissa .binary64 b).toNat = b.toNat % 2 ^ 52 := by
  simp [unpackMantissa, BitVec.extractLsb]

theorem toNat_unpackExponent :
    (@unpackExponent .binary64 b).toNat = b.toNat / 2 ^ 52 % 2 ^ 11 := by
  simp [unpackExponent, BitVec.extractLsb, Nat.shiftRight_eq_div_pow]

theorem toNat_unpackSign : (@unpackSign .binary64 b).toNat = b.toNat / 2 ^ 63 % 2 := by
  delta unpackSign
  simp [BitVec.extractLsb, Nat.shiftRight_eq_div_pow]

theorem unpackMantissa_eq_zero_iff : @unpackMantissa .binary64 b = 0#_ ↔ b.toNat % 2 ^ 52 = 0 := by
  rw [← BitVec.toNat_inj, toNat_unpackMantissa]
  rfl

theorem unpackExponent_eq_zero_iff :
    @unpackExponent .binary64 b = 0#_ ↔ b.toNat / 2 ^ 52 % 2 ^ 11 = 0 := by
  rw [← BitVec.toNat_inj, toNat_unpackExponent]
  rfl

theorem unpackExponent_eq_ones_iff :
    @unpackExponent .binary64 b = -1#_ ↔ b.toNat / 2 ^ 52 % 2 ^ 11 = 2047 := by
  rw [← BitVec.toNat_inj, toNat_unpackExponent]
  rfl

/-- The sign of a double is its highest bit. -/
theorem sign_unpackSign :
    Sign.ofBitVec (@unpackSign .binary64 b) =
      if b.toNat / 2 ^ 63 % 2 = 1 then .negative else .positive := by
  have hzero : @unpackSign .binary64 b = 0#1 ↔ b.toNat / 2 ^ 63 % 2 = 0 := by
    rw [← BitVec.toNat_inj, toNat_unpackSign]
    rfl
  rw [Sign.ofBitVec]
  by_cases h : b.toNat / 2 ^ 63 % 2 = 1
  · rw [if_neg (by rw [hzero]; omega), if_pos h]
  · rw [if_pos (by rw [hzero]; omega), if_neg h]

theorem toNat_implicit_append (m : BitVec 52) : (1#1 ++ m).toNat = 2 ^ 52 + m.toNat := by
  rw [BitVec.toNat_append, ← Nat.shiftLeft_add_eq_or_of_lt m.isLt]
  rfl

end

/-- The sign that the highest bit stands for. -/
def signOf (b : BitVec 64) : Sign := Sign.ofBitVec (@unpackSign .binary64 b)

/-- Parts with the same sign, mantissa and exponent are the same. -/
theorem finite_congr {s s' : Sign} {m m' : ℕ} {e e' : ℤ} {h : 0 < m} {h' : 0 < m'} (hs : s = s')
    (hm : m = m') (he : e = e') : UnpackedFloat.finite s m e h = .finite s' m' e' h' := by
  subst hs hm he
  rfl

section

variable {b : BitVec 64}

/-- A double with the least exponent has no implicit digit. -/
theorem unpack_subnormal (hzero : @unpackExponent .binary64 b = 0#11)
    (hpos : 0 < (@unpackMantissa .binary64 b).toNat) :
    UnpackedFloat.unpack .binary64 b
      = .finite (signOf b) (@unpackMantissa .binary64 b).toNat (-1074) hpos := by
  have hones : ¬ @unpackExponent .binary64 b = -1#11 := by
    rw [hzero]
    decide
  have hfraction : ¬ @unpackMantissa .binary64 b = 0#52 := by
    intro h
    rw [h] at hpos
    exact absurd hpos (by decide)
  refine ((if_neg hones).trans (if_pos hzero)).trans ((dif_neg hfraction).trans ?_)
  refine finite_congr rfl rfl ?_
  rw [hzero]
  rfl

/-- A double with another exponent has a digit in front of its mantissa. -/
theorem unpack_normal (hones : ¬ @unpackExponent .binary64 b = -1#11)
    (hzero : ¬ @unpackExponent .binary64 b = 0#11) :
    UnpackedFloat.unpack .binary64 b
      = .finite (signOf b) (2 ^ 52 + (@unpackMantissa .binary64 b).toNat)
          ((@unpackExponent .binary64 b).toNat - 1075) (by omega) :=
  (if_neg hones).trans ((if_neg hzero).trans (finite_congr rfl (toNat_implicit_append _) rfl))

end

/-- The parts of a double, by the fields of its bits. -/
theorem unpack_cases (b : BitVec 64) :
    (b.toNat / 2 ^ 52 % 2 ^ 11 = 2047 ∧ b.toNat % 2 ^ 52 = 0 ∧
        UnpackedFloat.unpack .binary64 b = .infinity (signOf b)) ∨
    (b.toNat / 2 ^ 52 % 2 ^ 11 = 2047 ∧ b.toNat % 2 ^ 52 ≠ 0 ∧
        UnpackedFloat.unpack .binary64 b = .notANumber) ∨
    (b.toNat / 2 ^ 52 % 2 ^ 11 = 0 ∧ b.toNat % 2 ^ 52 = 0 ∧
        UnpackedFloat.unpack .binary64 b = .zero (signOf b)) ∨
    (b.toNat / 2 ^ 52 % 2 ^ 11 = 0 ∧ ∃ h,
        UnpackedFloat.unpack .binary64 b = .finite (signOf b) (b.toNat % 2 ^ 52) (-1074) h) ∨
    (b.toNat / 2 ^ 52 % 2 ^ 11 ≠ 0 ∧ b.toNat / 2 ^ 52 % 2 ^ 11 ≠ 2047 ∧ ∃ h,
        UnpackedFloat.unpack .binary64 b = .finite (signOf b) (2 ^ 52 + b.toNat % 2 ^ 52)
          ((b.toNat / 2 ^ 52 % 2 ^ 11 : ℕ) - 1075) h) := by
  have hmantissa := toNat_unpackMantissa b
  have hexponent := toNat_unpackExponent b
  rw [← unpackExponent_eq_ones_iff, ← unpackExponent_eq_zero_iff, ← unpackMantissa_eq_zero_iff]
  by_cases hones : @unpackExponent .binary64 b = -1#_
  · by_cases hfraction : @unpackMantissa .binary64 b = 0#_
    · exact .inl ⟨hones, hfraction, (if_pos hones).trans (if_pos hfraction)⟩
    · exact .inr (.inl ⟨hones, mt (unpackMantissa_eq_zero_iff b).mpr hfraction,
        (if_pos hones).trans (if_neg hfraction)⟩)
  · by_cases hzero : @unpackExponent .binary64 b = 0#_
    · by_cases hfraction : @unpackMantissa .binary64 b = 0#_
      · exact .inr (.inr (.inl ⟨hzero, hfraction,
          ((if_neg hones).trans (if_pos hzero)).trans (dif_pos hfraction)⟩))
      · have hpos : 0 < b.toNat % 2 ^ 52 := by
          rw [unpackMantissa_eq_zero_iff] at hfraction
          omega
        refine .inr (.inr (.inr (.inl ⟨hzero, hpos, ?_⟩)))
        exact (unpack_subnormal hzero (hmantissa ▸ hpos)).trans (finite_congr rfl hmantissa rfl)
    · refine .inr (.inr (.inr (.inr ⟨mt (unpackExponent_eq_zero_iff b).mpr hzero,
        mt (unpackExponent_eq_ones_iff b).mpr hones, by omega, ?_⟩)))
      refine (unpack_normal hones hzero).trans (finite_congr rfl ?_ ?_)
      · rw [hmantissa]
      · rw [hexponent]

/-- What a double reads as can be read off its parts. -/
theorem reading_eq (x : Float) : reading x = readParts x.toModel.unpack := by
  obtain ⟨b, hb⟩ : ∃ b : BitVec 64, b = x.toModel.toBits.toBitVec := ⟨_, rfl⟩
  have hbits : x.toBits.toNat = b.toNat := by rw [hb]; rfl
  have hunpack : x.toModel.unpack = UnpackedFloat.unpack .binary64 b := by rw [hb]; rfl
  have hsign : signOf b = if b.toNat / 2 ^ 63 % 2 = 1 then .negative else .positive :=
    sign_unpackSign b
  have hcases := unpack_cases b
  rw [reading, Exact.ofFloat, hbits, hunpack]
  simp only [Nat.pow_eq, beq_iff_eq]
  generalize UnpackedFloat.unpack .binary64 b = u at *
  generalize b.toNat / 2 ^ 52 % 2 ^ 11 = exponent at *
  generalize b.toNat % 2 ^ 52 = fraction at *
  generalize b.toNat / 2 ^ 63 % 2 = bit at *
  rw [hsign] at hcases
  rcases hcases with ⟨rfl, rfl, rfl⟩ | ⟨rfl, hf, rfl⟩ | ⟨rfl, rfl, rfl⟩ | ⟨rfl, hf, rfl⟩ |
    ⟨he, he', hf, rfl⟩
  · by_cases hbit : bit = 1
    · rw [if_pos hbit, hbit]
      rfl
    · rw [if_neg hbit, beq_eq_false_iff_ne.mpr hbit]
      rfl
  · rw [readParts_notANumber]
    simp [hf, Exact.reading]
  · rw [readParts_zero]
    simp [Exact.reading]
  · rw [readParts_finite]
    by_cases hbit : bit = 1 <;> simp [hbit, Exact.reading, Sign.apply]
  · rw [readParts_finite]
    by_cases hbit : bit = 1 <;> simp [hbit, he, he', Exact.reading, Sign.apply]

/-! ## Canonical parts -/

/-- A mantissa and an exponent as doubles have them, except that the exponent
    may be too large: the mantissa has 53 digits, or fewer at the least
    exponent. -/
structure Canonical (m : ℕ) (e : ℤ) : Prop where
  pos : 0 < m
  lt : m < 2 ^ 53
  least : -1074 ≤ e
  normal : 2 ^ 52 ≤ m ∨ e = -1074

/-- The parts of a double are canonical, and its exponent is not too large. -/
theorem canonical_unpack (b : BitVec 64) {s : Sign} {m : ℕ} {e : ℤ} {hm : 0 < m}
    (h : UnpackedFloat.unpack .binary64 b = .finite s m e hm) : Canonical m e ∧ e ≤ 971 := by
  have hfraction : b.toNat % 2 ^ 52 < 2 ^ 52 := Nat.mod_lt _ (by decide)
  have hexponent : b.toNat / 2 ^ 52 % 2 ^ 11 < 2 ^ 11 := Nat.mod_lt _ (by decide)
  have hcases := unpack_cases b
  rw [h] at hcases
  generalize b.toNat / 2 ^ 52 % 2 ^ 11 = exponent at *
  generalize b.toNat % 2 ^ 52 = fraction at *
  rcases hcases with ⟨-, -, hu⟩ | ⟨-, -, hu⟩ | ⟨-, -, hu⟩ | ⟨-, hf, hu⟩ | ⟨he, he', hf, hu⟩
  · cases hu
  · cases hu
  · cases hu
  · cases hu
    exact ⟨⟨hf, by omega, le_rfl, .inr rfl⟩, by decide⟩
  · cases hu
    exact ⟨⟨hf, by omega, by omega, .inl (by omega)⟩, by omega⟩

/-- Parts put together to a double and taken apart again. -/
def settle (u : UnpackedFloat) : UnpackedFloat := (Float.Model.pack u).unpack

theorem settle_notANumber : settle .notANumber = .notANumber := rfl

theorem settle_infinity (s : Sign) : settle (.infinity s) = .infinity s := by
  cases s <;> rfl

theorem settle_zero (s : Sign) : settle (.zero s) = .zero s := by
  cases s <;> rfl

theorem unpackSign_packComponents {spec : Format} (s : Sign) (exponent : BitVec spec.exponentBits)
    (mantissa : BitVec spec.mantissaBitsWithoutImplicit) :
    Sign.ofBitVec (unpackSign (packComponents spec s exponent mantissa)) = s := by
  have hbit : unpackSign (packComponents spec s exponent mantissa) = s.toBitVec := by
    ext i hi
    obtain rfl : i = 0 := by omega
    delta unpackSign
    simp [packComponents, BitVec.getLsbD_append, BitVec.getElem_append]
  rw [hbit]
  cases s <;> rfl

theorem settle_overflow {s : Sign} {m : ℕ} {e : ℤ} (hm : 0 < m) (he : 971 < e) :
    settle (.finite s m e hm) = .infinity s := by
  have hlarge : 2 ^ 11 ≤ (e + 1023 + 52).toNat + 1 := by omega
  have hpack : UnpackedFloat.pack .binary64 (.finite s m e hm) = packedInfinity .binary64 s :=
    if_pos hlarge
  show UnpackedFloat.unpack .binary64 (UnpackedFloat.pack .binary64 (.finite s m e hm)) = _
  rw [hpack]
  exact settle_infinity s

/-- The fields of a normal double. -/
theorem unpack_packComponents_normal (s : Sign) {exponent m : ℕ} (hpos : 0 < exponent)
    (hlt : exponent < 2047) (hm : 2 ^ 52 ≤ m) (hm' : m < 2 ^ 53) :
    UnpackedFloat.unpack .binary64
        (packComponents .binary64 s (BitVec.ofNat 11 exponent) (BitVec.ofNat 52 m)) =
      .finite s m (exponent - 1075) (by omega) := by
  obtain ⟨b, hb⟩ : ∃ b : BitVec 64, b =
    packComponents .binary64 s (BitVec.ofNat 11 exponent) (BitVec.ofNat 52 m) := ⟨_, rfl⟩
  have hexponent : (BitVec.ofNat 11 exponent).toNat = exponent := by
    rw [BitVec.toNat_ofNat, Nat.mod_eq_of_lt (by omega)]
  have hfield : @unpackExponent .binary64 b = BitVec.ofNat 11 exponent :=
    hb ▸ unpackExponent_packComponents
  have hmantissa : 2 ^ 52 + (@unpackMantissa .binary64 b).toNat = m := by
    have hfraction : @unpackMantissa .binary64 b = BitVec.ofNat 52 m :=
      hb ▸ unpackMantissa_packComponents
    have hdigits : (BitVec.ofNat 52 m).toNat = m % 2 ^ 52 := BitVec.toNat_ofNat m 52
    rw [hfraction, hdigits]
    omega
  have hones : ¬ @unpackExponent .binary64 b = -1#11 := by
    rw [hfield, ← BitVec.toNat_inj, hexponent]
    exact hlt.ne
  have hzero : ¬ @unpackExponent .binary64 b = 0#11 := by
    rw [hfield, ← BitVec.toNat_inj, hexponent]
    exact hpos.ne'
  rw [← hb]
  refine (unpack_normal hones hzero).trans (finite_congr ?_ hmantissa ?_)
  · exact hb ▸ unpackSign_packComponents s _ _
  · rw [hfield, hexponent]

/-- The fields of a subnormal double. -/
theorem unpack_packComponents_subnormal (s : Sign) {m : ℕ} (hpos : 0 < m) (hlt : m < 2 ^ 52) :
    UnpackedFloat.unpack .binary64 (packComponents .binary64 s 0#11 (BitVec.ofNat 52 m)) =
      .finite s m (-1074) hpos := by
  obtain ⟨b, hb⟩ : ∃ b : BitVec 64, b =
    packComponents .binary64 s 0#11 (BitVec.ofNat 52 m) := ⟨_, rfl⟩
  have hzero : @unpackExponent .binary64 b = 0#11 := hb ▸ unpackExponent_packComponents
  have hmantissa : (@unpackMantissa .binary64 b).toNat = m := by
    have hfield : @unpackMantissa .binary64 b = BitVec.ofNat 52 m :=
      hb ▸ unpackMantissa_packComponents
    rw [hfield, BitVec.toNat_ofNat, Nat.mod_eq_of_lt hlt]
  rw [← hb]
  refine (unpack_subnormal hzero (hmantissa ▸ hpos)).trans (finite_congr ?_ hmantissa rfl)
  exact hb ▸ unpackSign_packComponents s _ _

/-- Canonical parts whose exponent is not too large come back unchanged. -/
theorem settle_finite {s : Sign} {m : ℕ} {e : ℤ} (h : Canonical m e) (he : e ≤ 971) :
    settle (.finite s m e h.pos) = .finite s m e h.pos := by
  obtain ⟨hpos, hlt, hleast, hnormal⟩ := h
  obtain ⟨biased, hbiased⟩ : ∃ n : ℕ, n = (e + 1023 + 52).toNat := ⟨_, rfl⟩
  have hlog : m.log2 + 1 = 53 ↔ 2 ^ 52 ≤ m := by
    have h1 := Nat.log2_lt (n := m) (k := 53) (by omega)
    have h2 := Nat.le_log2 (n := m) (k := 52) (by omega)
    omega
  have hpack : UnpackedFloat.pack .binary64 (.finite s m e hpos) =
      if m.log2 + 1 = 53 then
        packComponents .binary64 s (BitVec.ofNat 11 biased) (BitVec.ofNat 52 m)
      else packComponents .binary64 s 0#11 (BitVec.ofNat 52 m) := by
    have hsmall : ¬ 2 ^ 11 ≤ (e + 1023 + 52).toNat + 1 := by omega
    rw [hbiased]
    exact if_neg hsmall
  show UnpackedFloat.unpack .binary64 (UnpackedFloat.pack .binary64 (.finite s m e hpos)) = _
  rw [hpack]
  by_cases hm : 2 ^ 52 ≤ m
  · rw [if_pos (hlog.mpr hm), unpack_packComponents_normal s (by omega) (by omega) hm hlt]
    congr 1
    omega
  · obtain rfl : e = -1074 := hnormal.resolve_left hm
    rw [if_neg (by rwa [hlog])]
    exact unpack_packComponents_subnormal s hpos (by omega)

end DialectBench.Decimal
