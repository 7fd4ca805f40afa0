import Intake.Proofs.Float.Signed

/-!
# Sums of doubles

The sum of two finite doubles is the exact sum, rounded: `rounds_add`.  Only a sum that is zero
needs more than that, because the sign of a zero is not part of its value.  A sum of finite doubles
is a negative zero only if both are, `unpack_add_eq_negative_zero`: two numbers that cancel give a
positive zero, and a sum that is not zero is not rounded to zero, as both numbers are multiples of
the least double.

From this a running sum that starts at positive zero never becomes a negative zero, and never NaN,
even if it becomes infinite, as long as what is added is finite: `IsProper.add`.
-/

namespace Intake.Binary64

open Float.Model Float.Model.UnpackedFloat

variable {x y : Float}

/-- A multiple of a power of two is rounded to the nearest double. -/
theorem roundedTo_round {m : Nat} (hm : m ≠ 0) (e : Int) (s : Sign) :
    RoundedTo s (m * 2 ^ e) (UnpackedFloat.round .binary64 s m e) := by
  have hround : UnpackedFloat.round .binary64 s m e =
      roundWithAccuracy .binary64 s
        (m * 2 ^ (e - max ((m.log2 : Int) + e - 52) (-1074)).toNat)
        (e - (e - max ((m.log2 : Int) + e - 52) (-1074)).toNat) .exact := by
    simp only [UnpackedFloat.round, decreaseExponent, targetExponent_eq, Nat.shiftLeft_eq]
  rw [hround]
  generalize hk : (e - max ((m.log2 : Int) + e - 52) (-1074)).toNat = k
  refine roundedTo_roundWithAccuracy ?_ ?_ s
  · have hexact : (m : ℚ) * 2 ^ e / 2 ^ (e - k) = (m * 2 ^ k : ℕ) := by
      rw [zpow_sub₀ two_ne_zero, zpow_natCast]
      push_cast
      field_simp
    rw [hexact]
    exact represents_exact _
  · rw [log2_mul_two_pow hm]
    omega

@[simp] theorem normalize_zero (e : Int) (s : Sign) :
    UnpackedFloat.normalize .binary64 0 e s = .zero s := by
  rw [UnpackedFloat.normalize, compare_eq_iff_eq.2 rfl]

theorem rounds_normalize {m e : Int} {s : Sign}
    (h : x.toModel = Float.Model.pack (UnpackedFloat.normalize .binary64 m e s)) :
    Rounds (m * 2 ^ e) x := by
  rcases lt_trichotomy m 0 with hneg | rfl | hpos
  · rw [UnpackedFloat.normalize, Int.compare_eq_lt.2 hneg] at h
    obtain ⟨n, rfl⟩ : ∃ n : Nat, m = -n := ⟨m.natAbs, by omega⟩
    rw [neg_neg, Int.toNat_natCast] at h
    have hn : n ≠ 0 := by omega
    refine .magnitude ?_ (mul_pos ?_ (two_zpow_pos e)) (roundedTo_round hn e .negative) h
    · rw [signFactor]
      push_cast
      ring
    · exact_mod_cast Nat.pos_of_ne_zero hn
  · rw [normalize_zero] at h
    refine .zero (s := s) (by rw [Int.cast_zero, zero_mul]) ?_
    rw [h]
    exact unpack_pack_zero s
  · rw [UnpackedFloat.normalize, Int.compare_eq_gt.2 hpos] at h
    obtain ⟨n, rfl⟩ : ∃ n : Nat, m = n := ⟨m.natAbs, by omega⟩
    rw [Int.toNat_natCast] at h
    have hn : n ≠ 0 := by omega
    refine .magnitude ?_ (mul_pos ?_ (two_zpow_pos e)) (roundedTo_round hn e .positive) h
    · rw [signFactor, one_mul, Int.cast_natCast]
    · exact_mod_cast Nat.pos_of_ne_zero hn

theorem apply_value (s : Sign) (m : Nat) (e : Int) {place : Int} (h : place ≤ e) :
    (s.apply ((m <<< (e - place).toNat : Nat) : Int) : ℚ) * 2 ^ place =
      signFactor s * (m * 2 ^ e) := by
  rw [value_eq_of_le m h, Nat.shiftLeft_eq]
  cases s <;> simp [Sign.apply, signFactor]

/-- What a sum of two doubles is: two zeros add up to a zero, which is negative only if both are, a
zero leaves the other double as it is, and other doubles are added exactly and rounded. -/
inductive IsSum (x y z : Float) : Prop
  | zeros {s s' : Sign} (left : x.toModel.unpack = .zero s) (right : y.toModel.unpack = .zero s')
      (sum : z.toModel.unpack = .zero (if s == s' then s else .positive))
  | left (zero : toRat y = 0) (nonzero : toRat x ≠ 0) (sum : z = x)
  | right (zero : toRat x = 0) (nonzero : toRat y ≠ 0) (sum : z = y)
  | rounded {m e : Int} (least : -1074 ≤ e) (exact : toRat x + toRat y = m * 2 ^ e)
      (sum : z.toModel = Float.Model.pack (UnpackedFloat.normalize .binary64 m e .positive))

theorem isSum_add (hx : x.isFinite = true) (hy : y.isFinite = true) : IsSum x y (x + y) := by
  have hmodel : (x + y).toModel = Float.Model.pack
      (UnpackedFloat.add .binary64 x.toModel.unpack y.toModel.unpack) := rfl
  rcases isFinite_cases hx with ⟨s, hux⟩ | ⟨s, m, e, hd, hux⟩ <;>
    rcases isFinite_cases hy with ⟨s', huy⟩ | ⟨s', m', e', hd', huy⟩
  · refine .zeros hux huy ?_
    rw [hmodel, hux, huy]
    cases s <;> cases s' <;> rfl
  · have hadd : UnpackedFloat.add .binary64 x.toModel.unpack y.toModel.unpack =
        y.toModel.unpack := by
      rw [hux, huy]
      rfl
    rw [hadd, ← toModel_eq_pack y] at hmodel
    exact .right (toRat_eq_zero hux) (toRat_ne_zero hd' huy) (congrArg Float.ofModel hmodel)
  · have hadd : UnpackedFloat.add .binary64 x.toModel.unpack y.toModel.unpack =
        x.toModel.unpack := by
      rw [hux, huy]
      rfl
    rw [hadd, ← toModel_eq_pack x] at hmodel
    exact .left (toRat_eq_zero huy) (toRat_ne_zero hd hux) (congrArg Float.ofModel hmodel)
  · -- both are put on the lower of their places
    have hadd : UnpackedFloat.add .binary64 x.toModel.unpack y.toModel.unpack =
        UnpackedFloat.normalize .binary64
          (s.apply ((m <<< (e - min e e').toNat : Nat) : Int) +
            s'.apply ((m' <<< (e' - min e e').toNat : Nat) : Int)) (min e e') .positive := by
      rw [hux, huy]
      rfl
    rw [hadd] at hmodel
    refine .rounded (le_min hd.le_exponent hd'.le_exponent) ?_ hmodel
    rw [Int.cast_add, add_mul, apply_value s m e (min_le_left e e'),
      apply_value s' m' e' (min_le_right e e'), toRat, toRat, hux, huy, valueOf, valueOf]

/-- The sum of two doubles is the exact sum, rounded. -/
theorem rounds_add (hx : x.isFinite = true) (hy : y.isFinite = true) :
    Rounds (toRat x + toRat y) (x + y) := by
  cases isSum_add hx hy with
  | zeros left right sum =>
    refine .zero ?_ sum
    rw [toRat_eq_zero left, toRat_eq_zero right, add_zero]
  | left zero nonzero sum =>
    rw [zero, add_zero, sum]
    exact rounds_toRat hx
  | right zero nonzero sum =>
    rw [zero, zero_add, sum]
    exact rounds_toRat hy
  | rounded least exact sum =>
    rw [exact]
    exact rounds_normalize sum

/-- Only two negative zeros add up to a negative zero. -/
theorem unpack_add_eq_negative_zero (hx : x.isFinite = true) (hy : y.isFinite = true)
    (h : (x + y).toModel.unpack = .zero .negative) :
    x.toModel.unpack = .zero .negative ∧ y.toModel.unpack = .zero .negative := by
  cases isSum_add hx hy with
  | @zeros s s' left right sum =>
    rw [sum] at h
    cases s <;> cases s' <;> first | exact ⟨left, right⟩ | cases h
  | left zero nonzero sum =>
    rw [sum] at h
    exact absurd (toRat_eq_zero h) nonzero
  | right zero nonzero sum =>
    rw [sum] at h
    exact absurd (toRat_eq_zero h) nonzero
  | @rounded m e least exact sum =>
    rcases eq_or_ne m 0 with rfl | hm
    · have hzero : (x + y).toModel.unpack = .zero .positive := by
        rw [sum, normalize_zero]
        exact unpack_pack_zero .positive
      rw [hzero] at h
      cases h
    · refine absurd h ((rounds_normalize sum).unpack_ne_zero ?_ .negative)
      have hone : (1 : ℚ) ≤ |(m : ℚ)| := by exact_mod_cast Int.one_le_abs hm
      rw [abs_mul, abs_of_pos (two_zpow_pos e)]
      calc
        (2 : ℚ) ^ (-1074 : Int) ≤ 2 ^ e := zpow_le_zpow_right₀ one_le_two least
        _ ≤ |(m : ℚ)| * 2 ^ e := le_mul_of_one_le_left (two_zpow_pos e).le hone

/-! ## Infinities -/

theorem exists_infinity_of_not_isFinite (h : x.isNaN = false) (hx : x.isFinite = false) :
    ∃ s, x.toModel.unpack = .infinity s := by
  have h : x.toModel.unpack.isNaN = false := h
  have hx : x.toModel.unpack.isFinite = false := hx
  cases hux : x.toModel.unpack with
  | infinity s => exact ⟨s, rfl⟩
  | notANumber =>
    rw [hux] at h
    cases h
  | zero s | finite s m e hpos =>
    rw [hux] at hx
    cases hx

/-- An infinity stays what it is when a finite double is added. -/
theorem infinity_add {s : Sign} (hx : x.toModel.unpack = .infinity s) (hy : y.isFinite = true) :
    x + y = x := by
  have hmodel : (x + y).toModel = Float.Model.pack
      (UnpackedFloat.add .binary64 x.toModel.unpack y.toModel.unpack) := rfl
  have hadd : UnpackedFloat.add .binary64 x.toModel.unpack y.toModel.unpack =
      x.toModel.unpack := by
    rw [hx]
    rcases isFinite_cases hy with ⟨s', hy⟩ | ⟨s', m, e, hd, hy⟩ <;> rw [hy] <;> rfl
  rw [hadd, ← toModel_eq_pack x] at hmodel
  exact congrArg Float.ofModel hmodel

/-- What is not NaN is not NaN either when it is divided by a positive double. -/
theorem isNaN_div (h : x.isNaN = false) {b : ℚ} (hy : HasValue y b) : (x / y).isNaN = false := by
  cases hx : x.isFinite with
  | true => exact (rounds_div hx hy).isNaN
  | false =>
    obtain ⟨s, hux⟩ := exists_infinity_of_not_isFinite h hx
    obtain ⟨m, e, hd, huy, -⟩ := hy
    have hmodel : (x / y).toModel = Float.Model.pack
        (UnpackedFloat.div .binary64 x.toModel.unpack y.toModel.unpack) := rfl
    have hdiv : UnpackedFloat.div .binary64 x.toModel.unpack y.toModel.unpack =
        .infinity (s / .positive) := by
      rw [hux, huy]
      rfl
    show (x / y).toModel.unpack.isNaN = false
    rw [hmodel, hdiv]
    cases s <;> rfl

/-! ## Running sums -/

/-- A sum that started at positive zero: it is not NaN, and zero only with a positive sign. -/
structure IsProper (x : Float) : Prop where
  isNaN : x.isNaN = false
  ne_negative_zero : x ≠ -0.0

@[simp] theorem unpack_negative_zero : (-0.0 : Float).toModel.unpack = .zero .negative := rfl

theorem isProper_zero : IsProper 0 := by
  refine ⟨rfl, fun h => ?_⟩
  have hunpack := unpack_negative_zero
  rw [← h] at hunpack
  cases hunpack

/-- Adding a finite double keeps a sum from becoming NaN or a negative zero. -/
theorem IsProper.add (h : IsProper x) (hy : y.isFinite = true) : IsProper (x + y) := by
  cases hx : x.isFinite with
  | true =>
    refine ⟨(rounds_add hx hy).isNaN, fun hzero => h.ne_negative_zero ?_⟩
    have hunpack := unpack_negative_zero
    rw [← hzero] at hunpack
    exact eq_of_unpack (unpack_add_eq_negative_zero hx hy hunpack).1 unpack_negative_zero
  | false =>
    obtain ⟨s, hux⟩ := exists_infinity_of_not_isFinite h.isNaN hx
    rwa [infinity_add hux hy]

end Intake.Binary64
