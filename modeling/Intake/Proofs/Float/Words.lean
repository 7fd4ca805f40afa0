import Intake.Numeric
import Intake.Proofs.Float.Signed

/-!
# Words as doubles

A word becomes the double nearest to it.  Up to `2 ^ 53` that is the word itself,
`toRat_nearestFloat`, and beyond it is off by at most one part in `2 ^ 53`.
-/

namespace Intake.Numeric

open Binary64 Float.Model.UnpackedFloat

@[simp] theorem nearestFloat_natCast (n : Nat) : nearestFloat n = (UInt64.ofNat n).toFloat := by
  unfold nearestFloat
  simp only
  rw [if_neg (Int.not_lt.2 (Int.natCast_nonneg n)), Int.natAbs_natCast]

theorem nearestFloat_neg {n : Nat} (hn : n ≠ 0) : nearestFloat (-n) = -nearestFloat n := by
  rw [nearestFloat_natCast]
  unfold nearestFloat
  simp only
  rw [if_pos (by omega), Int.natAbs_neg, Int.natAbs_natCast]

theorem isFinite_nearestFloat {v : Int} (h : v.natAbs < 2 ^ 64) :
    (nearestFloat v).isFinite = true := by
  unfold nearestFloat
  simp only
  split
  · exact isFinite_neg (Binary64.isFinite_toFloat h)
  · exact Binary64.isFinite_toFloat h

@[simp] theorem unpack_nearestFloat_zero : (nearestFloat 0).toModel.unpack = .zero .positive := rfl

/-- A property of words as doubles that holds of the natural ones holds of the negative ones, if it
is kept by negation. -/
theorem nearestFloat_induction {P : Int → Prop} (v : Int) (natCast : ∀ n : Nat, n = v.natAbs → P n)
    (neg : ∀ n : Nat, n ≠ 0 → n = v.natAbs → P n → P (-n)) : P v := by
  rcases Int.lt_or_le v 0 with hneg | hnonneg
  · obtain ⟨n, rfl⟩ : ∃ n : Nat, v = -n := ⟨v.natAbs, by omega⟩
    exact neg n (by omega) (by omega) (natCast n (by omega))
  · obtain ⟨n, rfl⟩ := Int.eq_ofNat_of_zero_le hnonneg
    exact natCast n (by omega)

/-- A word is rounded to the nearest double. -/
theorem rounds_nearestFloat {v : Int} (h : v.natAbs < 2 ^ 64) : Rounds v (nearestFloat v) := by
  refine nearestFloat_induction (P := fun v => Rounds v (nearestFloat v)) v (fun n hn => ?_)
    fun n hne hn hround => ?_
  · rcases eq_or_ne n 0 with rfl | hne
    · exact .zero (by simp) unpack_nearestFloat_zero
    · obtain ⟨u, hmodel, hround⟩ := exists_roundedTo_toFloat hne (hn ▸ h)
      rw [nearestFloat_natCast]
      refine .magnitude ?_ ?_ hround hmodel
      · rw [signFactor, one_mul, Int.cast_natCast]
      · exact_mod_cast Nat.pos_of_ne_zero hne
  · rw [nearestFloat_neg hne, Int.cast_neg]
    exact hround.neg (isFinite_nearestFloat (by omega))

/-- A word of at most `2 ^ 53` is a double. -/
theorem toRat_nearestFloat {v : Int} (h : v.natAbs ≤ 2 ^ 53) : toRat (nearestFloat v) = v := by
  refine nearestFloat_induction (P := fun v => toRat (nearestFloat v) = v) v (fun n hn => ?_)
    fun n hne hn hvalue => ?_
  · rcases eq_or_ne n 0 with rfl | hne
    · exact toRat_eq_zero unpack_nearestFloat_zero
    · rw [nearestFloat_natCast, (hasValue_toFloat hne (hn ▸ h)).toRat_eq, Int.cast_natCast]
  · rw [nearestFloat_neg hne, toRat_neg (isFinite_nearestFloat (by omega)), hvalue, Int.cast_neg]

/-- A word is off by at most one part in `2 ^ 53` as a double. -/
theorem abs_toRat_nearestFloat_sub_le {v : Int} (h : v.natAbs < 2 ^ 64) :
    |toRat (nearestFloat v) - v| ≤ roundoff * |(v : ℚ)| := by
  rcases eq_or_ne v 0 with rfl | hv
  · rw [toRat_nearestFloat (by decide), sub_self, abs_zero, Int.cast_zero, abs_zero, mul_zero]
  · have hone : (1 : ℚ) ≤ |(v : ℚ)| := by exact_mod_cast Int.one_le_abs hv
    have hnormal : (2 : ℚ) ^ (-1022 : Int) ≤ |(v : ℚ)| :=
      (zpow_le_one_of_nonpos₀ one_le_two (by omega)).trans hone
    have hround := (rounds_nearestFloat h).abs_sub_le (isFinite_nearestFloat h)
    rwa [max_eq_left hnormal] at hround

/-- A count is a positive double. -/
theorem hasValue_nearestFloat {n : Nat} (hn : n ≠ 0) (h : n < 2 ^ 64) :
    HasValue (nearestFloat n) (toRat (nearestFloat n)) := by
  rw [nearestFloat_natCast]
  exact (hasValue_and_approximates_toFloat hn h).1

end Intake.Numeric
