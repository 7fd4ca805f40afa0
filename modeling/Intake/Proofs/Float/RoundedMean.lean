import Intake.Proofs.Float.Signed

/-!
# Means computed in doubles

A mean that is computed in doubles is rounded three times: the sum, the number of summands and the
quotient.  So it may leave the range that the summands are in, and this is about how far.

A rounding is off by one part in `2 ^ 53` at most, and two doubles are apart by one part in `2 ^ 53`
of the larger one at least.  So a sum up to a double times a length is rounded to at most each
larger double times the length, `le_length_mul`, and the quotient is at most each larger double,
because rounding does not step over a double.  If the length is rounded too, this costs one double
more, `length_mul_le_count_mul`.  The lower side is the upper side of the negatives.
-/

namespace Intake.Binary64

variable {x y : Float} {total sum count : ℚ} {n : Nat}

/-! ## Roundings and the distance of doubles -/

theorem roundoff_lt_one : roundoff < 1 := by
  rw [roundoff]
  norm_num

/-- The greatest number that a rounding can lead to grows with the number that is rounded. -/
theorem add_roundoff_mul_abs_mono {q q' : ℚ} (h : q ≤ q') :
    q + roundoff * |q| ≤ q' + roundoff * |q'| := by
  have hdistance : |q| - |q'| ≤ q' - q := by
    rw [← abs_of_nonneg (sub_nonneg.2 h), abs_sub_comm]
    exact abs_sub_abs_le_abs_sub q q'
  have hscaled : roundoff * (|q| - |q'|) ≤ q' - q := by
    nlinarith [roundoff_pos, roundoff_lt_one, sub_nonneg.2 h]
  linarith

section
variable (hx : x.isFinite = true) (hy : y.isFinite = true) (hlt : toRat x < toRat y)
include hx hy hlt

/-- A sum that is at most a double times a length is rounded to at most each larger double times the
length. -/
theorem le_length_mul (htotal : |total - sum| ≤ roundoff * |sum|) (hsum : sum ≤ n * toRat x) :
    total ≤ n * toRat y := by
  have hgap : toRat x + roundoff * |toRat x| ≤ toRat y :=
    (add_le_add_right (mul_le_mul_of_nonneg_left (le_max_left _ _) roundoff_pos.le) _).trans
      (add_roundoff_mul_le_of_lt hx hy hlt)
  calc
    total ≤ sum + roundoff * |sum| := by linarith [(abs_le.1 htotal).2]
    _ ≤ n * toRat x + roundoff * |n * toRat x| := add_roundoff_mul_abs_mono hsum
    _ = n * (toRat x + roundoff * |toRat x|) := by
      rw [abs_mul, Nat.abs_cast]
      ring
    _ ≤ n * toRat y := mul_le_mul_of_nonneg_left hgap (Nat.cast_nonneg n)

/-- A length may be rounded as well, if the double is replaced by a larger one. -/
theorem length_mul_le_count_mul (hcount : |count - n| ≤ roundoff * n) :
    n * toRat x ≤ count * toRat y := by
  have hgap : toRat x + roundoff * |toRat y| ≤ toRat y :=
    (add_le_add_right (mul_le_mul_of_nonneg_left (le_max_right _ _) roundoff_pos.le) _).trans
      (add_roundoff_mul_le_of_lt hx hy hlt)
  have hoff : n * toRat y - count * toRat y ≤ roundoff * n * |toRat y| := by
    calc
      n * toRat y - count * toRat y ≤ |(count - n) * toRat y| := by
        rw [← sub_mul, ← abs_neg, ← neg_mul, neg_sub]
        exact le_abs_self _
      _ ≤ roundoff * n * |toRat y| := by
        rw [abs_mul]
        exact mul_le_mul_of_nonneg_right hcount (abs_nonneg _)
  have hscaled := mul_le_mul_of_nonneg_left hgap (Nat.cast_nonneg (α := ℚ) n)
  linarith

theorem toRat_neg_lt : toRat (-y) < toRat (-x) := by
  rw [toRat_neg hx, toRat_neg hy]
  exact neg_lt_neg hlt

theorem length_mul_le (htotal : |total - sum| ≤ roundoff * |sum|) (hsum : n * toRat y ≤ sum) :
    n * toRat x ≤ total := by
  have hnear : |-total - -sum| ≤ roundoff * |-sum| := by
    rwa [neg_sub_neg, abs_sub_comm, abs_neg]
  have hle : -sum ≤ n * toRat (-y) := by
    rw [toRat_neg hy]
    linarith
  have hneg := le_length_mul (isFinite_neg hy) (isFinite_neg hx) (toRat_neg_lt hx hy hlt) hnear hle
  rw [toRat_neg hx] at hneg
  linarith

theorem count_mul_le_length_mul (hcount : |count - n| ≤ roundoff * n) :
    count * toRat x ≤ n * toRat y := by
  have hneg := length_mul_le_count_mul (isFinite_neg hy) (isFinite_neg hx)
    (toRat_neg_lt hx hy hlt) hcount
  rw [toRat_neg hx, toRat_neg hy] at hneg
  linarith

end

/-! ## Next to a range -/

/-- No double lies strictly between a range and a double outside of it. -/
structure NextTo (low high : ℚ) (mean : Float) : Prop where
  le_of_lt (x : Float) (finite : x.isFinite = true) (above : high < toRat x) :
    toRat mean ≤ toRat x
  ge_of_lt (x : Float) (finite : x.isFinite = true) (below : toRat x < low) :
    toRat x ≤ toRat mean

/-- At most one double lies strictly between a range and a double outside of it: it is not beyond a
second one. -/
structure NearTo (low high : ℚ) (mean : Float) : Prop where
  le_of_lt (x y : Float) (finite : x.isFinite = true) (finite' : y.isFinite = true)
    (above : high < toRat x) (second : toRat x < toRat y) : toRat mean ≤ toRat y
  ge_of_lt (x y : Float) (finite : x.isFinite = true) (finite' : y.isFinite = true)
    (below : toRat x < low) (second : toRat y < toRat x) : toRat y ≤ toRat mean

/-! ## Rounded means -/

/-- A mean that is computed in doubles: the quotient, rounded, of a sum and a length, rounded. -/
structure RoundedMean (sum : ℚ) (n : Nat) (total count : ℚ) (mean : Float) : Prop where
  total_near : |total - sum| ≤ roundoff * |sum|
  count_near : |count - n| ≤ roundoff * n
  count_pos : 0 < count
  isFinite : mean.isFinite = true
  rounds : Rounds (total / count) mean

namespace RoundedMean

variable {mean : Float} (h : RoundedMean sum n total count mean)
include h

/-- The quotient is at most each double that, times the count, the total is at most. -/
theorem le_of_total_le (hx : x.isFinite = true) (hle : total ≤ count * toRat x) :
    toRat mean ≤ toRat x := by
  refine h.rounds.toRat_le h.isFinite hx ?_
  rw [div_le_iff₀ h.count_pos]
  linarith

theorem ge_of_le_total (hx : x.isFinite = true) (hle : count * toRat x ≤ total) :
    toRat x ≤ toRat mean := by
  refine h.rounds.le_toRat h.isFinite hx ?_
  rw [le_div_iff₀ h.count_pos]
  linarith

section
variable (hx : x.isFinite = true) (hy : y.isFinite = true) (hlow : n * toRat x ≤ sum)
  (hhigh : sum ≤ n * toRat y)
include hx hy hlow hhigh

/-- The mean of numbers in a range of doubles is next to the range, if the length is a double. -/
theorem nextTo (hcount : count = n) : NextTo (toRat x) (toRat y) mean where
  le_of_lt _ hz above :=
    h.le_of_total_le hz (hcount ▸ le_length_mul hy hz above h.total_near hhigh)
  ge_of_lt _ hz below :=
    h.ge_of_le_total hz (hcount ▸ length_mul_le hz hx below h.total_near hlow)

/-- If the length is rounded, the mean may be one double further away. -/
theorem nearTo : NearTo (toRat x) (toRat y) mean where
  le_of_lt _ _ hz hz' above second := h.le_of_total_le hz' <|
    (le_length_mul hy hz above h.total_near hhigh).trans
      (length_mul_le_count_mul hz hz' second h.count_near)
  ge_of_lt _ _ hz hz' below second := h.ge_of_le_total hz' <|
    (count_mul_le_length_mul hz' hz second h.count_near).trans
      (length_mul_le hz hx below h.total_near hlow)

end

end RoundedMean

end Intake.Binary64
