import Intake.Proofs.Float.Packing

/-!
# Rounding to a double

The operations on doubles compute an exact significand and exponent, with more bits than a double
has, and round them by shifting the significand to the right.  Two questions about such a rounding
are answered here: whether the result is finite, and how far it lies above the exact value.

A shift by `k` places leaves at most half a place of error, `roundedMantissa_mul_le`.  So a value
below the middle between the greatest double and the next power of two is rounded to a finite
double, `isFinite_pack_of_lt`, and a value with enough bits is rounded up by at most one part in
`2 ^ 53`, `exists_round_eq`.
-/

namespace Intake.Binary64

open Float.Model Float.Model.UnpackedFloat

/-! ## Shifting -/

@[simp] theorem shiftRight_zero (em : ExtendedMantissa) : em >>> 0 = em := rfl

theorem shiftRight_succ (em : ExtendedMantissa) (k : Nat) :
    em >>> (k + 1) = (em >>> k).shiftRightOne := rfl

@[simp] theorem mantissa_shiftRight (em : ExtendedMantissa) (k : Nat) :
    (em >>> k).mantissa = em.mantissa / 2 ^ k := by
  induction k with
  | zero => rw [shiftRight_zero, Nat.pow_zero, Nat.div_one]
  | succ k ih =>
    rw [shiftRight_succ, ExtendedMantissa.shiftRightOne, ih, Nat.div_div_eq_div_mul, Nat.pow_succ]

theorem roundBit_shiftRight_succ (em : ExtendedMantissa) (k : Nat) :
    (em >>> (k + 1)).roundBit = (em.mantissa / 2 ^ k % 2 != 0) := by
  rw [shiftRight_succ, ExtendedMantissa.shiftRightOne, mantissa_shiftRight]

@[simp] theorem mantissa_ofMantissaAndAccuracy (m : Nat) (a : Accuracy) :
    (ExtendedMantissa.ofMantissaAndAccuracy m a).mantissa = m := by
  rcases a with _ | (_ | _ | _) <;> rfl

/-! ## Rounding a significand -/

theorem roundedMantissa_bounds (em : ExtendedMantissa) :
    em.mantissa ≤ em.roundedMantissa ∧ em.roundedMantissa ≤ em.mantissa + 1 := by
  rcases em with ⟨m, _ | _, _ | _⟩ <;>
    simp only [ExtendedMantissa.roundedMantissa, ExtendedMantissa.accuracy,
      Accuracy.roundToNearestEven] <;> omega

theorem roundedMantissa_of_roundBit {em : ExtendedMantissa} (h : em.roundBit = false) :
    em.roundedMantissa = em.mantissa := by
  obtain ⟨m, round, sticky⟩ := em
  cases h
  cases sticky <;> rfl

/-- An exact significand, shifted to the right and rounded. -/
def roundShift (m k : Nat) : Nat :=
  (ExtendedMantissa.ofMantissaAndAccuracy m .exact >>> k).roundedMantissa

@[simp] theorem roundShift_zero (m : Nat) : roundShift m 0 = m := rfl

/-- The error of rounding is at most half a place. -/
theorem roundShift_mul_le (m k : Nat) : roundShift m k * 2 ^ (k + 1) ≤ 2 * m + 2 ^ k := by
  cases k with
  | zero =>
    rw [roundShift_zero]
    omega
  | succ k =>
    have hfloor := Nat.div_add_mod (m / 2 ^ k) 2
    have hdiv : m / 2 ^ k / 2 = m / 2 ^ (k + 1) := by
      rw [Nat.div_div_eq_div_mul, Nat.pow_succ]
    rw [hdiv] at hfloor
    have hmul := Nat.div_mul_le_self m (2 ^ k)
    have hbounds := (roundedMantissa_bounds
      (ExtendedMantissa.ofMantissaAndAccuracy m .exact >>> (k + 1))).2
    rw [mantissa_shiftRight, mantissa_ofMantissaAndAccuracy] at hbounds
    have hround : roundShift m (k + 1) ≤ m / 2 ^ (k + 1) + m / 2 ^ k % 2 := by
      cases hbit : (ExtendedMantissa.ofMantissaAndAccuracy m .exact >>> (k + 1)).roundBit with
      | false =>
        rw [roundShift, roundedMantissa_of_roundBit hbit, mantissa_shiftRight,
          mantissa_ofMantissaAndAccuracy]
        exact Nat.le_add_right _ _
      | true =>
        rw [roundBit_shiftRight_succ, mantissa_ofMantissaAndAccuracy, bne_iff_ne] at hbit
        have hodd : m / 2 ^ k % 2 = 1 := by omega
        rw [hodd]
        exact hbounds
    calc
      roundShift m (k + 1) * 2 ^ (k + 1 + 1)
        ≤ (m / 2 ^ (k + 1) + m / 2 ^ k % 2) * 2 ^ (k + 1 + 1) := Nat.mul_le_mul_right _ hround
      _ = 2 * ((2 * (m / 2 ^ (k + 1)) + m / 2 ^ k % 2) * 2 ^ k) + m / 2 ^ k % 2 * 2 ^ (k + 1) := by
        ring
      _ ≤ 2 * m + 2 ^ (k + 1) := by
        rw [hfloor]
        have hbit : m / 2 ^ k % 2 * 2 ^ (k + 1) ≤ 1 * 2 ^ (k + 1) :=
          Nat.mul_le_mul_right _ (by omega)
        omega

/-! ## Rounding to a format -/

/-- How far a significand is shifted so that 53 bits of it are left, or fewer among the least
doubles. -/
def shiftAmount (m : Nat) (e : Int) : Nat := (max (m.log2 + e - 52) (-1074) - e).toNat

@[simp] theorem targetExponent_binary64 (n : Int) :
    Format.binary64.targetExponent n = max (n - 53) (-1074) := rfl

theorem targetExponent_eq (m : Nat) (e : Int) :
    Format.binary64.targetExponent (totalExponent m e) = max (m.log2 + e - 52) (-1074) := by
  rw [targetExponent_binary64, totalExponent]
  omega

theorem shiftToTargetExponent_eq (m : Nat) (e : Int) (a : Accuracy) :
    shiftToTargetExponent .binary64 m e a =
      (ExtendedMantissa.ofMantissaAndAccuracy m a >>> shiftAmount m e, e + shiftAmount m e) := by
  rw [shiftToTargetExponent, targetExponent_eq]
  rfl

theorem le_add_shiftAmount (m : Nat) (e : Int) : -1074 ≤ e + shiftAmount m e := by
  rw [shiftAmount]
  omega

/-- After the shift at most 53 bits are left. -/
theorem div_shiftAmount_lt (m : Nat) (e : Int) : m / 2 ^ shiftAmount m e < 2 ^ 53 := by
  have hlog : m.log2 + 1 ≤ 53 + shiftAmount m e := by
    rw [shiftAmount]
    omega
  rw [Nat.div_lt_iff_lt_mul (Nat.two_pow_pos _), ← Nat.pow_add]
  exact Nat.lt_of_lt_of_le Nat.lt_log2_self (Nat.pow_le_pow_right (by decide) hlog)

theorem shiftAmount_of_lt {m : Nat} {e : Int} (hm : m < 2 ^ 53) (he : -1074 ≤ e) :
    shiftAmount m e = 0 := by
  have hlog : m.log2 ≤ 52 := by
    rcases Nat.eq_zero_or_pos m with rfl | hpos
    · decide
    · exact Nat.lt_succ_iff.1 ((Nat.log2_lt hpos.ne').2 hm)
  rw [shiftAmount]
  omega

theorem shiftAmount_two_pow {e : Int} (he : -1074 ≤ e) : shiftAmount (2 ^ 53) e = 1 := by
  rw [shiftAmount, Nat.log2_two_pow]
  omega

/-- Rounding shifts the significand once, and once more if it was rounded up to a power of two. -/
theorem roundWithAccuracy_cases (s : Sign) (m : Nat) (e : Int) (a : Accuracy) :
    let r := (ExtendedMantissa.ofMantissaAndAccuracy m a >>> shiftAmount m e).roundedMantissa
    (r = 0 ∧ roundWithAccuracy .binary64 s m e a = .zero s) ∨
      (∃ h : 0 < r, r < 2 ^ 53 ∧
        roundWithAccuracy .binary64 s m e a = .finite s r (e + shiftAmount m e) h) ∨
      (r = 2 ^ 53 ∧ roundWithAccuracy .binary64 s m e a =
        .finite s (2 ^ 52) (e + shiftAmount m e + 1) (by decide)) := by
  intro r
  have hbound : r ≤ 2 ^ 53 := by
    have h := (roundedMantissa_bounds
      (ExtendedMantissa.ofMantissaAndAccuracy m a >>> shiftAmount m e)).2
    rw [mantissa_shiftRight, mantissa_ofMantissaAndAccuracy] at h
    have hlt := div_shiftAmount_lt m e
    omega
  have he := le_add_shiftAmount m e
  have hround : roundWithAccuracy .binary64 s m e a =
      if h : r / 2 ^ shiftAmount r (e + shiftAmount m e) = 0 then .zero s
      else .finite s (r / 2 ^ shiftAmount r (e + shiftAmount m e))
        (e + shiftAmount m e + shiftAmount r (e + shiftAmount m e)) (Nat.pos_of_ne_zero h) := by
    simp only [roundWithAccuracy, shiftToTargetExponent_eq, mantissa_shiftRight,
      mantissa_ofMantissaAndAccuracy]
    rfl
  rcases Nat.lt_or_ge r (2 ^ 53) with hlt | hge
  · rw [shiftAmount_of_lt hlt he] at hround
    simp only [Nat.pow_zero, Nat.div_one, Nat.cast_zero, add_zero] at hround
    rcases Nat.eq_zero_or_pos r with hzero | hpos
    · exact .inl ⟨hzero, by rw [hround, dif_pos hzero]⟩
    · exact .inr (.inl ⟨hpos, hlt, by rw [hround, dif_neg hpos.ne']⟩)
  · have hr : r = 2 ^ 53 := Nat.le_antisymm hbound hge
    refine .inr (.inr ⟨hr, ?_⟩)
    simp only [hr, shiftAmount_two_pow he] at hround
    rw [hround]
    rfl

/-! ## Finite results -/

/-- What is rounded is finite if it is below the half of what is too large for a double. -/
theorem isFinite_pack_round {s : Sign} {m : Nat} {e : Int} {a : Accuracy} (he : e ≤ 970)
    (hm : m.log2 + e ≤ 1022) :
    (Float.Model.pack (roundWithAccuracy .binary64 s m e a)).isFinite = true := by
  have hshift : e + shiftAmount m e ≤ 970 := by
    rw [shiftAmount]
    omega
  rcases roundWithAccuracy_cases s m e a with ⟨-, hround⟩ | ⟨h, -, hround⟩ | ⟨-, hround⟩
  · rw [hround]
    exact isFinite_pack_zero s
  · rw [hround]
    exact isFinite_pack_finite h (by omega)
  · rw [hround]
    exact isFinite_pack_finite _ (by omega)

/-- An exact value is rounded to a finite double if it is less than the middle between the greatest
double and the next power of two. -/
theorem isFinite_pack_of_lt {s : Sign} {m : Nat} {e : Int} (he : e ≤ 970)
    (hm : m < (2 ^ 54 - 1) * 2 ^ (970 - e).toNat) :
    (Float.Model.pack (roundWithAccuracy .binary64 s m e .exact)).isFinite = true := by
  rcases Int.lt_or_le 1022 (m.log2 + e) with hlt | hle
  swap
  · exact isFinite_pack_round he hle
  have hpos : m ≠ 0 := by
    rintro rfl
    have hzero : Nat.log2 0 = 0 := by decide
    omega
  have hlog : m.log2 + e ≤ 1023 := by
    have hpow : m < 2 ^ (54 + (970 - e).toNat) := by
      rw [Nat.pow_add]
      exact Nat.lt_of_lt_of_le hm (Nat.mul_le_mul_right _ (by decide))
    have hlog2 := (Nat.log2_lt hpos).2 hpow
    omega
  have hshift : shiftAmount m e = (970 - e).toNat + 1 := by
    rw [shiftAmount]
    omega
  -- the error of half a place does not reach the next power of two
  have hbelow : roundShift m (shiftAmount m e) < 2 ^ 53 := by
    have hround := roundShift_mul_le m (shiftAmount m e)
    rw [hshift] at hround ⊢
    have hlt : roundShift m ((970 - e).toNat + 1) * 2 ^ ((970 - e).toNat + 1 + 1) <
        2 ^ 53 * 2 ^ ((970 - e).toNat + 1 + 1) := by
      rw [Nat.pow_succ 2 ((970 - e).toNat + 1), Nat.pow_succ 2 (970 - e).toNat] at hround ⊢
      omega
    exact Nat.lt_of_mul_lt_mul_right hlt
  rcases roundWithAccuracy_cases s m e .exact with ⟨-, hround⟩ | ⟨h, -, hround⟩ | ⟨hmax, -⟩
  · rw [hround]
    exact isFinite_pack_zero s
  · rw [hround]
    exact isFinite_pack_finite h (by omega)
  · exact absurd hmax hbelow.ne

/-! ## Accuracy -/

/-- A significand with enough bits is rounded to one of 53 bits, and up by at most one part in
`2 ^ 53`. -/
theorem exists_round_eq {s : Sign} {m : Nat} {e : Int} (hm : 52 ≤ m.log2)
    (he : -1022 ≤ m.log2 + e) :
    ∃ (m' k : Nat) (h : 0 < m'), roundWithAccuracy .binary64 s m e .exact = .finite s m' (e + k) h ∧
      m'.log2 = 52 ∧ m.log2 ≤ 52 + k ∧ m' * 2 ^ k * 2 ^ 53 ≤ m * (2 ^ 53 + 1) := by
  have hne : m ≠ 0 := by
    rintro rfl
    exact absurd hm (by decide)
  have hshift : m.log2 = 52 + shiftAmount m e := by
    rw [shiftAmount]
    omega
  have hlow : 2 ^ 52 * 2 ^ shiftAmount m e ≤ m := by
    rw [← Nat.pow_add, ← hshift]
    exact Nat.log2_self_le hne
  have hround := roundShift_mul_le m (shiftAmount m e)
  have herror : roundShift m (shiftAmount m e) * 2 ^ shiftAmount m e * 2 ^ 53 ≤
      m * (2 ^ 53 + 1) := by
    rw [Nat.pow_succ, ← Nat.mul_assoc] at hround
    omega
  have hfloor : 2 ^ 52 ≤ roundShift m (shiftAmount m e) := by
    have hbounds := (roundedMantissa_bounds
      (ExtendedMantissa.ofMantissaAndAccuracy m .exact >>> shiftAmount m e)).1
    rw [mantissa_shiftRight, mantissa_ofMantissaAndAccuracy] at hbounds
    exact Nat.le_trans ((Nat.le_div_iff_mul_le (Nat.two_pow_pos _)).2 hlow) hbounds
  rcases roundWithAccuracy_cases s m e .exact with ⟨hzero, -⟩ | ⟨h, hlt, hr⟩ | ⟨hmax, hr⟩
  · have hzero : roundShift m (shiftAmount m e) = 0 := hzero
    omega
  · exact ⟨_, _, h, hr, (Nat.log2_eq_iff h.ne').2 ⟨hfloor, hlt⟩, hshift.le, herror⟩
  · have hmax : roundShift m (shiftAmount m e) = 2 ^ 53 := hmax
    refine ⟨2 ^ 52, shiftAmount m e + 1, by decide, ?_, Nat.log2_two_pow, by omega, ?_⟩
    · rw [hr]
      congr 1
      omega
    · rw [hmax] at herror
      refine Nat.le_trans (Nat.le_of_eq ?_) herror
      ring

end Intake.Binary64
