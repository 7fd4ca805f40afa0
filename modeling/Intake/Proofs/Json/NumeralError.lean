import Intake.Proofs.Float.Error
import Intake.Proofs.Json.ShortNumeral

/-!
# How far a written double is off when it is read

The digits that are written for a double make a word, and the power of ten that they are scaled by
is in the range where each step of reading keeps its error small.  The number that is written is off
by one rounding at most, because it rounds to the double; together with the error of reading this is
eight parts in `2 ^ 53` of the double and twice the least double: `abs_toRat_sub_le`.
-/

namespace Intake

open Json Binary64 Float.Model

/-! ## The interval of a double -/

namespace Binary64

/-- A number that rounds to a double is off by one rounding. -/
theorem InInterval.approximates {m : Nat} {e : Int} {v : ℚ} (h : InInterval m e v)
    (hd : IsDouble m e) : Approximates 1 1 (m * 2 ^ e) v := by
  have hpos := two_zpow_pos e
  have hplace : HasPlace (m * 2 ^ e) e := by
    refine ⟨hd.le_exponent, mul_lt_mul_of_pos_right (by exact_mod_cast hd.lt) hpos, fun hgt => ?_⟩
    have hnormal : (2 : ℚ) ^ 52 ≤ m := by exact_mod_cast hd.normal.resolve_right hgt.ne'
    exact mul_le_mul_of_nonneg_right hnormal hpos.le
  refine approximates_of_le ?_ (by positivity)
  rw [abs_sub_comm]
  exact h.nearest.abs_sub_le.trans hplace.half_place_le

/-- The power of ten that a word is scaled by to write a double. -/
theorem InInterval.places_bounds {m n : Nat} {e places : Int}
    (h : InInterval m e (n * 10 ^ places)) (hd : IsDouble m e) (hn : n < 2 ^ 64) :
    -616 < places ∧ places ≤ 308 := by
  have hlow := h.half_place_le hd
  have hhigh := h.lt hd
  refine ⟨?_, ?_⟩
  · by_contra hsmall
    obtain ⟨k, rfl⟩ : ∃ k : Nat, places = -(k : Int) := ⟨places.natAbs, by omega⟩
    rw [zpow_neg, zpow_natCast, ← div_eq_mul_inv, le_div_iff₀ (by positivity)] at hlow
    have hpower : (2 : ℚ) ^ (3 * k) ≤ 10 ^ k := by
      rw [pow_mul]
      exact pow_le_pow_left₀ (by norm_num) (by norm_num) k
    have hword : (2 : ℚ) ^ (((3 * k : ℕ) : Int) + (e - 1)) < 2 ^ (((64 : ℕ) : Int)) := by
      calc
        (2 : ℚ) ^ (((3 * k : ℕ) : Int) + (e - 1)) = 2 ^ e / 2 * 2 ^ (3 * k) := by
          rw [← pow_mul_zpow, zpow_sub_one₀ two_ne_zero]
          ring
        _ ≤ 2 ^ e / 2 * 10 ^ k := by gcongr
        _ ≤ n := hlow
        _ < 2 ^ (((64 : ℕ) : Int)) := by
          rw [zpow_natCast]
          exact_mod_cast hn
    have hexponent := lt_of_two_zpow_lt hword
    have hleast := hd.le_exponent
    omega
  · by_contra hlarge
    have hone : (1 : ℚ) ≤ n := by exact_mod_cast Nat.pos_of_ne_zero (h.ne_zero hd)
    have hnat : 2 ^ 1024 < 10 ^ 309 := by decide +kernel
    have hless : (n : ℚ) * 10 ^ places < n * 10 ^ places := by
      calc
        (n : ℚ) * 10 ^ places < 2 ^ 53 * 2 ^ e := hhigh
        _ = 2 ^ (((53 : ℕ) : Int) + e) := pow_mul_zpow 53 e
        _ ≤ 2 ^ ((1024 : ℕ) : Int) :=
          zpow_le_zpow_right₀ one_le_two (by have := hd.exponent_le; omega)
        _ ≤ 10 ^ ((309 : ℕ) : Int) := by
          rw [zpow_natCast, zpow_natCast]
          exact_mod_cast hnat.le
        _ ≤ 10 ^ places := zpow_le_zpow_right₀ (by norm_num) (by omega)
        _ ≤ n * 10 ^ places := le_mul_of_one_le_left (by positivity) hone
    exact lt_irrefl _ hless

end Binary64

/-! ## Reading a numeral -/

namespace Json.Numeral

theorem toRat_signed (x : Numeral) {f : Float} (h : f.isFinite = true) :
    Binary64.toRat (if x.negative then -f else f) = signFactor x.sign * Binary64.toRat f := by
  rw [sign]
  split
  · rw [toRat_neg h]
    exact (neg_one_mul _).symm
  · exact (one_mul _).symm

/-- A numeral that writes a number next to a double is read as a double that is not far off, if all
its digits fit a word. -/
theorem exists_toNumber_of_inInterval {x : Numeral} {m : Nat} {e : Int} (h : x.IsMarked)
    (hexponent : x.ExponentFits)
    (hdigits : Decimal.value (x.whole ++ x.fractionDigits) ≤ significandLimit)
    (hfinite : (scaled x.significand.1 (x.significand.2 + x.exponentValue)).isFinite = true)
    (hd : IsDouble m e) (hv : InInterval m e x.toRat) :
    ∃ f finite, x.toNumber = .ok (.float (if x.negative then -f else f) finite) ∧
      f.isFinite = true ∧ Approximates 8 4 (m * 2 ^ e) (Binary64.toRat f) := by
  have hlt : Decimal.value (x.whole ++ x.fractionDigits) < 2 ^ 64 := Nat.lt_succ_of_le hdigits
  have hvalue : x.toRat = Decimal.value (x.whole ++ x.fractionDigits) *
      10 ^ (x.exponentValue - x.fractionDigits.length) := rfl
  rw [hvalue] at hv
  obtain ⟨hlow, hhigh⟩ := hv.places_bounds hd hlt
  have hread : -(exponentLimit : Int) ≤ x.exponentValue := by
    rw [exponentLimit]
    omega
  obtain ⟨finite, hsigned⟩ := exists_signed?_eq x hfinite
  refine ⟨_, finite, toNumber_of_scaled h (natAbs_exponentValue_le hread hexponent) hsigned,
    hfinite, ?_⟩
  rw [significand_of_le hdigits, neg_add_eq_sub] at hfinite ⊢
  have hscaled := approximates_scaled (hv.ne_zero hd) hlt hlow hhigh hfinite
  refine ((hv.approximates hd).trans hscaled (by norm_num)).mono (by positivity) ?_ ?_
  · rw [roundoff]
    norm_num
  · rw [roundoff]
    norm_num

end Json.Numeral

/-! ## Reading a written double -/

namespace Decimal.FloatStyle

/-- **The error of reading.**  A double that is written and read is off by at most eight parts in
`2 ^ 53` of it and twice the least double. -/
theorem abs_toRat_sub_le {x y : Float} {finite : y.isFinite = true} (h : x.isFinite = true)
    (hy : (documentNumeral x).toNumber = .ok (.float y finite)) :
    |toRat y - toRat x| ≤ 2 ^ (-50 : Int) * |toRat x| + 2 ^ (-1073 : Int) := by
  rcases isFinite_cases h with ⟨s, hx⟩ | ⟨s, m, e, hd, hx⟩
  · cases hy.symm.trans (toNumber_documentNumeral_of_zero hx h)
    rw [sub_self, abs_zero]
    positivity
  have hbits := mod_signBit_lt_of_isFinite h
  obtain ⟨f, hsigned, hnumber, hf, happrox⟩ := Numeral.exists_toNumber_of_inInterval
    (isMarked_documentNumeral x) (exponentFits_documentNumeral h)
    (Scientific.value_documentNumeral_le (isWritten_decimal document hbits)
      (length_digits_decimal_le document hbits) _)
    (isFinite_scaled_decimal hbits _) hd (inInterval_documentNumeral h hd hx)
  cases hy.symm.trans hnumber
  have hsign : (documentNumeral x).sign = s := sign_documentNumeral hx
  have hx : toRat x = signFactor s * (m * 2 ^ e) := by
    rw [toRat, hx]
    rfl
  have hvalue : (0 : ℚ) ≤ m * 2 ^ e := by positivity
  have hfactor : |signFactor s| = 1 := by
    cases s
    · exact (abs_neg 1).trans abs_one
    · exact abs_one
  have hy := Numeral.toRat_signed (documentNumeral x) hf
  rw [hsign] at hy
  refine (congrArg (|· - toRat x|) hy).trans_le ?_
  rw [hx, ← mul_sub, abs_mul, abs_mul, hfactor, one_mul, one_mul, abs_of_nonneg hvalue]
  have hroundoff : 8 * roundoff = 2 ^ (-50 : Int) := by
    rw [roundoff]
    norm_num
  have hunderflow : 4 * underflow = 2 ^ (-1073 : Int) := by
    have hsplit : (-1073 : Int) = 2 + -1075 := by omega
    rw [underflow, hsplit, zpow_add₀ two_ne_zero]
    norm_num
  rw [← hroundoff, ← hunderflow]
  exact happrox

end Decimal.FloatStyle

end Intake
