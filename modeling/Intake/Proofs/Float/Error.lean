import Intake.Proofs.Float.Operations

/-!
# The error of reading a decimal

A rounding is off by at most one part in `2 ^ 53` of the number, or by half of the least double if
that is more.  `Approximates` counts such errors, and it is kept by products and quotients, so the
error of a computation is found by going through its steps.  Scaling an integer by a power of ten
rounds the integer, each power of ten and each product or quotient: `approximates_scaled`.
-/

namespace Intake.Binary64

open Float.Model Float.Model.UnpackedFloat

/-! ## The value of a double -/

/-- The factor that a sign stands for. -/
def signFactor : Sign → ℚ
  | .negative => -1
  | .positive => 1

/-- The number that an unpacked double is, zero if it is not finite. -/
def valueOf : UnpackedFloat → ℚ
  | .finite s m e _ => signFactor s * (m * 2 ^ e)
  | .notANumber => 0
  | .infinity _ => 0
  | .zero _ => 0

/-- The number that a double is, zero if it is not finite. -/
def toRat (x : Float) : ℚ := valueOf x.toModel.unpack

theorem HasValue.toRat_eq {x : Float} {q : ℚ} (h : HasValue x q) : toRat x = q := by
  obtain ⟨m, e, hd, hx, hvalue⟩ := h
  rw [toRat, hx, ← hvalue]
  exact one_mul _

@[simp] theorem signFactor_neg (s : Sign) : signFactor (-s) = -signFactor s := by
  cases s
  · exact (neg_neg (1 : ℚ)).symm
  · rfl

theorem unpack_neg {x : Float} (h : x.isFinite = true) :
    (-x).toModel.unpack = x.toModel.unpack.neg := by
  have hmodel : (-x).toModel = Float.Model.pack x.toModel.unpack.neg := rfl
  rw [hmodel]
  rcases isFinite_cases h with ⟨s, hx⟩ | ⟨s, m, e, hd, hx⟩
  · rw [hx]
    exact unpack_pack_zero (-s)
  · rw [hx]
    exact unpack_pack hd

theorem toRat_neg {x : Float} (h : x.isFinite = true) : toRat (-x) = -toRat x := by
  rw [toRat, toRat, unpack_neg h]
  rcases isFinite_cases h with ⟨s, hx⟩ | ⟨s, m, e, hd, hx⟩
  · rw [hx]
    exact neg_zero.symm
  · have hneg : (UnpackedFloat.finite s m e hd.pos).neg = .finite (-s) m e hd.pos := rfl
    rw [hx, hneg, valueOf, valueOf, signFactor_neg, neg_mul]

/-! ## One rounding -/

/-- Half a place of a double of 53 bits is at most this part of it. -/
def roundoff : ℚ := 1 / 2 ^ 53

/-- Half of the least double. -/
def underflow : ℚ := 2 ^ (-1075 : Int)

theorem roundoff_pos : 0 < roundoff := by
  rw [roundoff]
  norm_num

theorem underflow_pos : 0 < underflow := two_zpow_pos _

/-- A double that would need a greater exponent than there is becomes infinite. -/
theorem unpack_pack_of_lt {s : Sign} {m : Nat} {e : Int} {h : 0 < m} (he : 971 < e) :
    (Float.Model.pack (.finite s m e h)).unpack = .infinity s := by
  have hpack : UnpackedFloat.pack .binary64 (.finite s m e h) =
      UnpackedFloat.pack .binary64 (.infinity s) := by
    have hoverflow : 2 ^ 11 ≤ (e + ((1023 : Nat) : Int) + ((52 : Nat) : Int)).toNat + 1 := by omega
    rw [UnpackedFloat.pack]
    exact if_pos hoverflow
  show UnpackedFloat.unpack .binary64 (UnpackedFloat.pack .binary64 (.finite s m e h)) = _
  rw [hpack]
  cases s <;> rfl

theorem HasPlace.nearest_le {v : ℚ} {e : Int} {r : Nat} (h : HasPlace v e)
    (hr : IsNearest (v / 2 ^ e) r) : r ≤ 2 ^ 53 := by
  have hlt := h.lt
  rw [← div_lt_iff₀ (two_zpow_pos e)] at hlt
  exact hr.le_of_le (by exact_mod_cast hlt.le)

theorem HasPlace.nearest_ge {v : ℚ} {e : Int} {r : Nat} (h : HasPlace v e)
    (hr : IsNearest (v / 2 ^ e) r) : 2 ^ 52 ≤ r ∨ e = -1074 := by
  refine (lt_or_eq_of_le h.le_exponent).imp (fun hgt => ?_) Eq.symm
  have hlow := h.le hgt
  rw [← le_div_iff₀ (two_zpow_pos e)] at hlow
  exact hr.ge_of_le (by exact_mod_cast hlow)

/-- What a number is rounded to is a double, or it is too large for one. -/
theorem RoundedTo.unpack_cases {x : Float} {u : UnpackedFloat} {s : Sign} {v : ℚ}
    (h : RoundedTo s v u) (hx : x.toModel = Float.Model.pack u) :
    x.toModel.unpack = u ∨ x.toModel.unpack = .infinity s := by
  obtain @⟨e, r, hplace, hnearest⟩ := h
  have hdouble {m : Nat} {e' : Int} (hpos : 0 < m) (hlt : m < 2 ^ 53) (hle : -1074 ≤ e')
      (hnormal : 2 ^ 52 ≤ m ∨ e' = -1074)
      (hx : x.toModel = Float.Model.pack (.finite s m e' hpos)) :
      x.toModel.unpack = .finite s m e' hpos ∨ x.toModel.unpack = .infinity s := by
    rw [hx]
    rcases Int.lt_or_le 971 e' with hlarge | hsmall
    · exact .inr (unpack_pack_of_lt hlarge)
    · exact .inl (unpack_pack ⟨hpos, hlt, hle, hsmall, hnormal⟩)
  have hle := hplace.le_exponent
  rcases Nat.eq_zero_or_pos r with rfl | hpos
  · rw [hx]
    exact .inl (unpack_pack_zero s)
  rw [atPlace, dif_pos hpos] at hx ⊢
  split at hx
  · next hlt =>
    rw [if_pos hlt]
    exact hdouble hpos hlt hle (hplace.nearest_ge hnearest) hx
  · next hge =>
    rw [if_neg hge]
    exact hdouble _ (by decide) (by omega) (.inl le_rfl) hx

theorem valueOf_atPlace {s : Sign} {r : Nat} {e : Int} (h : r ≤ 2 ^ 53) :
    valueOf (atPlace s r e) = signFactor s * (r * 2 ^ e) := by
  rw [atPlace]
  split
  · split
    · rfl
    · next hge =>
      obtain rfl : r = 2 ^ 53 := by omega
      rw [valueOf, two_zpow_succ]
      push_cast
      ring
  · next hzero =>
    obtain rfl : r = 0 := by omega
    rw [valueOf, Nat.cast_zero, zero_mul, mul_zero]

/-- What a number is rounded to, unless it overflows: the nearest multiple of the place of the
number. -/
theorem RoundedTo.exists_multiple {x : Float} {u : UnpackedFloat} {s : Sign} {v : ℚ}
    (h : RoundedTo s v u) (hx : x.toModel = Float.Model.pack u) (hfinite : x.isFinite = true) :
    ∃ e r, HasPlace v e ∧ IsNearest (v / 2 ^ e) r ∧ toRat x = signFactor s * (r * 2 ^ e) ∧
      x.toModel.unpack = atPlace s r e := by
  have hfinite : x.toModel.unpack.isFinite = true := hfinite
  have hunpack := h.unpack_cases hx
  obtain @⟨e, r, hplace, hnearest⟩ := h
  rcases hunpack with hunpack | hunpack
  · refine ⟨e, r, hplace, hnearest, ?_, hunpack⟩
    rw [toRat, hunpack, valueOf_atPlace (hplace.nearest_le hnearest)]
  · rw [hunpack] at hfinite
    exact absurd hfinite Bool.false_ne_true

/-- A positive number is rounded to zero or to a positive double. -/
theorem RoundedTo.eq_zero_or_hasValue {x : Float} {u : UnpackedFloat} {v : ℚ}
    (h : RoundedTo .positive v u) (hx : x.toModel = Float.Model.pack u)
    (hfinite : x.isFinite = true) :
    x.toModel.unpack = .zero .positive ∨ HasValue x (toRat x) := by
  obtain ⟨e, r, -, -, -, hunpack⟩ := h.exists_multiple hx hfinite
  have hvalue {m : Nat} {e' : Int} {hpos : 0 < m}
      (hunpack : x.toModel.unpack = .finite .positive m e' hpos) : HasValue x (toRat x) := by
    refine ⟨m, e', isDouble_of_unpack hunpack, hunpack, ?_⟩
    rw [toRat, hunpack]
    exact (one_mul _).symm
  rw [atPlace] at hunpack
  split at hunpack
  · split at hunpack <;> exact .inr (hvalue hunpack)
  · exact .inl hunpack

theorem underflow_eq : underflow = roundoff * 2 ^ (-1022 : Int) := by
  have hsplit : (-1075 : Int) = -53 + -1022 := by omega
  rw [underflow, roundoff, hsplit, zpow_add₀ two_ne_zero]
  norm_num

/-- Half a place of a number is one part in `2 ^ 53` of it, or half of the least double. -/
theorem HasPlace.half_place_le {v : ℚ} {e : Int} (h : HasPlace v e) :
    2 ^ e / 2 ≤ roundoff * max v (2 ^ (-1022 : Int)) := by
  rcases lt_or_eq_of_le h.le_exponent with hgt | hleast
  · calc
      (2 : ℚ) ^ e / 2 = roundoff * (2 ^ 52 * 2 ^ e) := by
        rw [roundoff]
        ring
      _ ≤ roundoff * max v (2 ^ (-1022 : Int)) :=
        mul_le_mul_of_nonneg_left ((h.le hgt).trans (le_max_left _ _)) roundoff_pos.le
  · have hhalf : (2 : ℚ) ^ e / 2 = roundoff * 2 ^ (-1022 : Int) := by
      have hsplit : (-1074 : Int) = -1075 + 1 := by omega
      rw [← underflow_eq, underflow, ← hleast, hsplit, two_zpow_succ]
      ring
    rw [hhalf]
    exact mul_le_mul_of_nonneg_left (le_max_right _ _) roundoff_pos.le

theorem IsNearest.abs_sub_le {v : ℚ} {e : Int} {r : Nat} (h : IsNearest (v / 2 ^ e) r) :
    |r * 2 ^ e - v| ≤ 2 ^ e / 2 := by
  have hpos := two_zpow_pos e
  have hquotient : |r - v / 2 ^ e| ≤ 1 / 2 :=
    abs_le.2 ⟨by linarith [h.ge], by linarith [h.le]⟩
  calc
    |r * 2 ^ e - v| = |r - v / 2 ^ e| * 2 ^ e := by
      rw [← abs_of_pos hpos, ← abs_mul, abs_of_pos hpos, sub_mul, div_mul_cancel₀ v hpos.ne']
    _ ≤ 1 / 2 * 2 ^ e := mul_le_mul_of_nonneg_right hquotient hpos.le
    _ = 2 ^ e / 2 := by ring

/-- The error of one rounding. -/
theorem RoundedTo.abs_sub_le {x : Float} {u : UnpackedFloat} {v : ℚ}
    (h : RoundedTo .positive v u) (hx : x.toModel = Float.Model.pack u)
    (hfinite : x.isFinite = true) :
    |toRat x - v| ≤ roundoff * max v (2 ^ (-1022 : Int)) := by
  obtain ⟨e, r, hplace, hnearest, hvalue, -⟩ := h.exists_multiple hx hfinite
  have hvalue : toRat x = r * 2 ^ e := hvalue.trans (one_mul _)
  rw [hvalue]
  exact hnearest.abs_sub_le.trans hplace.half_place_le

/-! ## Counted errors -/

/-- A number is off by at most so many parts in `2 ^ 53` of another, and so many halves of the least
double. -/
def Approximates (i j : ℚ) (v q : ℚ) : Prop := |q - v| ≤ i * roundoff * v + j * underflow

variable {i j i' j' v v' q q' r : ℚ}

theorem Approximates.mono (h : Approximates i j v q) (hv : 0 ≤ v) (hi : i ≤ i') (hj : j ≤ j') :
    Approximates i' j' v q := by
  refine h.trans (add_le_add ?_ ?_)
  · exact mul_le_mul_of_nonneg_right (mul_le_mul_of_nonneg_right hi roundoff_pos.le) hv
  · exact mul_le_mul_of_nonneg_right hj underflow_pos.le

theorem approximates_self (v : ℚ) : Approximates 0 0 v v := by
  rw [Approximates, sub_self, abs_zero, zero_mul, zero_mul, zero_mul, add_zero]

theorem Approximates.le (h : Approximates i j v q) :
    q ≤ v + (i * roundoff * v + j * underflow) := by
  linarith [(abs_le.1 h).2]

theorem Approximates.ge (h : Approximates i j v q) :
    v - (i * roundoff * v + j * underflow) ≤ q := by
  linarith [(abs_le.1 h).1]

theorem Approximates.trans (h : Approximates i j v q) (h' : Approximates i' j' q r)
    (hi' : 0 ≤ i') :
    Approximates (i + i' + i' * i * roundoff) (j + j' + i' * j * roundoff) v r := by
  have hq := mul_le_mul_of_nonneg_left h.le (mul_nonneg hi' roundoff_pos.le)
  refine (abs_sub_le r q v).trans ((add_le_add h' h).trans ?_)
  linarith

theorem approximates_of_le (h : |q - v| ≤ roundoff * max v (2 ^ (-1022 : Int))) (hv : 0 ≤ v) :
    Approximates 1 1 v q := by
  refine h.trans ?_
  rw [one_mul, one_mul, underflow_eq, ← mul_add]
  refine mul_le_mul_of_nonneg_left (max_le ?_ ?_) roundoff_pos.le
  · exact le_add_of_nonneg_right (two_zpow_pos _).le
  · exact le_add_of_nonneg_left hv

/-- Rounding adds one part in `2 ^ 53` and half of the least double. -/
theorem RoundedTo.approximates {x : Float} {u : UnpackedFloat} (h : RoundedTo .positive v u)
    (hx : x.toModel = Float.Model.pack u) (hfinite : x.isFinite = true) (hv : 0 ≤ v) :
    Approximates 1 1 v (toRat x) :=
  approximates_of_le (h.abs_sub_le hx hfinite) hv

/-- Rounding a number of at least one adds one part in `2 ^ 53`. -/
theorem RoundedTo.approximates_of_one_le {x : Float} {u : UnpackedFloat}
    (h : RoundedTo .positive v u) (hx : x.toModel = Float.Model.pack u)
    (hfinite : x.isFinite = true) (hv : 1 ≤ v) : Approximates 1 0 v (toRat x) := by
  have hnormal : (2 : ℚ) ^ (-1022 : Int) ≤ v :=
    (zpow_le_one_of_nonpos₀ one_le_two (by omega)).trans hv
  have hbound := h.abs_sub_le hx hfinite
  rw [max_eq_left hnormal] at hbound
  rwa [Approximates, one_mul, zero_mul, add_zero]

theorem approximates_zero_iff : Approximates i 0 v q ↔ |q - v| ≤ i * roundoff * v := by
  rw [Approximates, zero_mul, add_zero]

theorem Approximates.mul (h : Approximates i 0 v q) (h' : Approximates i' 0 v' q') (hv : 0 ≤ v)
    (hi : 0 ≤ i) (hq' : 0 ≤ q') :
    Approximates (i + i' + i * i' * roundoff) 0 (v * v') (q * q') := by
  rw [approximates_zero_iff] at *
  have hle : q' ≤ v' + i' * roundoff * v' := by linarith [(abs_le.1 h').2]
  have hpart : 0 ≤ i * roundoff * v := mul_nonneg (mul_nonneg hi roundoff_pos.le) hv
  calc
    |q * q' - v * v'| = |(q - v) * q' + v * (q' - v')| := by
      congr 1
      ring
    _ ≤ |q - v| * q' + v * |q' - v'| := by
      refine (abs_add_le _ _).trans ?_
      rw [abs_mul, abs_mul, abs_of_nonneg hq', abs_of_nonneg hv]
    _ ≤ i * roundoff * v * q' + v * (i' * roundoff * v') := by gcongr
    _ ≤ i * roundoff * v * (v' + i' * roundoff * v') + v * (i' * roundoff * v') := by gcongr
    _ = (i + i' + i * i' * roundoff) * roundoff * (v * v') := by ring

/-- A quotient by a number that was rounded; it is at least two, so that it does not enlarge what is
off already. -/
theorem Approximates.div (h : Approximates i j v q) (h' : Approximates 1 0 v' q') (hv : 0 ≤ v)
    (hv' : 2 ≤ v') (hi : 0 ≤ i) (hj : 0 ≤ j) :
    Approximates ((i + 1) * (1 + 2 * roundoff)) j (v / v') (q / q') := by
  rw [approximates_zero_iff, one_mul] at h'
  have hδ := roundoff_pos
  have hhalf : roundoff ≤ 1 / 2 := by
    rw [roundoff]
    norm_num
  have hge : v' * (1 - roundoff) ≤ q' := by linarith [(abs_le.1 h').1]
  have hone : 1 ≤ q' := by nlinarith
  have hscale : v' ≤ (1 + 2 * roundoff) * q' := by
    have hgain : 0 ≤ v' * roundoff * (1 - 2 * roundoff) :=
      mul_nonneg (mul_nonneg (by linarith) hδ.le) (by linarith)
    calc
      v' ≤ v' + v' * roundoff * (1 - 2 * roundoff) := le_add_of_nonneg_right hgain
      _ = (1 + 2 * roundoff) * (v' * (1 - roundoff)) := by ring
      _ ≤ (1 + 2 * roundoff) * q' := by gcongr
  have hpos : 0 < q' := one_pos.trans_le hone
  obtain ⟨w, rfl⟩ : ∃ w, v = w * v' := ⟨v / v', (div_mul_cancel₀ v (by linarith)).symm⟩
  have hw : 0 ≤ w := nonneg_of_mul_nonneg_left hv (by linarith)
  rw [mul_div_cancel_right₀ w (by linarith)]
  have hτ : j * underflow ≤ j * underflow * q' :=
    le_mul_of_one_le_right (mul_nonneg hj underflow_pos.le) hone
  have hsplit : q / q' - w = ((q - w * v') - w * (q' - v')) / q' := by
    rw [eq_div_iff hpos.ne', sub_mul, div_mul_cancel₀ q hpos.ne']
    ring
  rw [Approximates, hsplit, abs_div, abs_of_pos hpos, div_le_iff₀ hpos]
  calc
    |(q - w * v') - w * (q' - v')| ≤ |q - w * v'| + w * |q' - v'| := by
      refine (abs_sub _ _).trans ?_
      rw [abs_mul, abs_of_nonneg hw]
    _ ≤ (i * roundoff * (w * v') + j * underflow) + w * (roundoff * v') := by
      gcongr
      exact h
    _ = (i + 1) * roundoff * w * v' + j * underflow := by ring
    _ ≤ (i + 1) * roundoff * w * ((1 + 2 * roundoff) * q') + j * underflow * q' := by gcongr
    _ = ((i + 1) * (1 + 2 * roundoff) * roundoff * w + j * underflow) * q' := by ring

/-! ## The steps of reading -/

/-- A number of at least one is not rounded to zero. -/
theorem RoundedTo.hasValue_of_one_le {x : Float} {u : UnpackedFloat}
    (h : RoundedTo .positive v u) (hx : x.toModel = Float.Model.pack u)
    (hfinite : x.isFinite = true) (hv : 1 ≤ v) : HasValue x (toRat x) := by
  rcases h.eq_zero_or_hasValue hx hfinite with hzero | hvalue
  · have happrox := (h.approximates_of_one_le hx hfinite hv).ge
    have hsmall : roundoff < 1 := by
      rw [roundoff]
      norm_num
    rw [toRat, hzero] at happrox
    have happrox : v - (1 * roundoff * v + 0 * underflow) ≤ 0 := happrox
    nlinarith
  · exact hvalue

theorem hasValue_and_approximates_toFloat {n : Nat} (hn : n ≠ 0) (hlt : n < 2 ^ 64) :
    HasValue (UInt64.ofNat n).toFloat (toRat (UInt64.ofNat n).toFloat) ∧
      Approximates 1 0 n (toRat (UInt64.ofNat n).toFloat) := by
  obtain ⟨u, hmodel, hround⟩ := exists_roundedTo_toFloat hn hlt
  have hone : (1 : ℚ) ≤ n := by exact_mod_cast Nat.pos_of_ne_zero hn
  exact ⟨hround.hasValue_of_one_le hmodel (isFinite_toFloat hlt) hone,
    hround.approximates_of_one_le hmodel (isFinite_toFloat hlt) hone⟩

open Json

theorem hasValue_and_approximates_powerOfTen {k : Nat} (hk : k ≤ 308) :
    HasValue (powerOfTen k) (toRat (powerOfTen k)) ∧
      Approximates 1 0 (10 ^ k) (toRat (powerOfTen k)) := by
  rcases Nat.lt_or_ge 22 k with hlarge | hsmall
  · have hone : (1 : ℚ) ≤ 10 ^ k := one_le_pow₀ (by norm_num)
    have hround := roundedTo_natCast (n := 10 ^ k) (k := 53) (Nat.pow_pos (by decide)).ne'
      (by omega) .positive
    rw [Nat.cast_pow, Nat.cast_ofNat] at hround
    have hmodel := toModel_powerOfTen hlarge hk
    have hfinite := (roundsTo_powerOfTen hk).isFinite
    exact ⟨hround.hasValue_of_one_le hmodel hfinite hone,
      hround.approximates_of_one_le hmodel hfinite hone⟩
  · have hvalue := hasValue_powerOfTen hsmall
    rw [hvalue.toRat_eq]
    exact ⟨hvalue, (approximates_self _).mono (by positivity) zero_le_one le_rfl⟩

theorem one_le_toRat_powerOfTen {k : Nat} (hk : k ≤ 308) : 1 ≤ toRat (powerOfTen k) := by
  rcases Nat.eq_zero_or_pos k with rfl | hpos
  · rw [(hasValue_powerOfTen (Nat.zero_le 22)).toRat_eq, pow_zero]
  · have hge := (hasValue_and_approximates_powerOfTen hk).2.ge
    have hten : (10 : ℚ) ^ 1 ≤ 10 ^ k := pow_le_pow_right₀ (by norm_num) hpos
    rw [roundoff] at hge
    linarith

/-- The double is zero, or positive with its value. -/
def IsNonneg (x : Float) : Prop := x.toModel.unpack = .zero .positive ∨ HasValue x (toRat x)

theorem HasValue.pos {x : Float} {a : ℚ} (h : HasValue x a) : 0 < a := by
  obtain ⟨m, e, hd, -, rfl⟩ := h
  have hm : (0 : ℚ) < m := by exact_mod_cast hd.pos
  exact mul_pos hm (two_zpow_pos e)

/-- A quotient is off by one rounding, also if there is nothing left to divide. -/
theorem isNonneg_and_approximates_div {x y : Float} {b : ℚ} (hx : IsNonneg x) (hy : HasValue y b)
    (hfinite : (x / y).isFinite = true) :
    IsNonneg (x / y) ∧ Approximates 1 1 (toRat x / b) (toRat (x / y)) := by
  rcases hx with hzero | hvalue
  · obtain ⟨m, e, hd, hunpack, -⟩ := hy
    have hmodel : (x / y).toModel = Float.Model.pack (.zero .positive) := by
      show Float.Model.pack (UnpackedFloat.div .binary64 x.toModel.unpack y.toModel.unpack) = _
      rw [hzero, hunpack]
      rfl
    have hquotient : (x / y).toModel.unpack = .zero .positive := by
      rw [hmodel]
      exact unpack_pack_zero .positive
    have hx : toRat x = 0 := by
      rw [toRat, hzero]
      rfl
    have hxy : toRat (x / y) = 0 := by
      rw [toRat, hquotient]
      rfl
    rw [hx, hxy, zero_div]
    exact ⟨.inl hquotient, (approximates_self 0).mono le_rfl zero_le_one zero_le_one⟩
  · obtain ⟨u, hmodel, hround⟩ := hvalue.exists_roundedTo_div hy
    exact ⟨hround.eq_zero_or_hasValue hmodel hfinite,
      hround.approximates hmodel hfinite (div_pos hvalue.pos hy.pos).le⟩

/-- The error of one multiplication by a power of ten. -/
theorem approximates_mul_powerOfTen {x : Float} {k : Nat} (hx : HasValue x (toRat x))
    (h : Approximates 1 0 v (toRat x)) (hv : 0 ≤ v) (hk : k ≤ 308)
    (hfinite : (x * powerOfTen k).isFinite = true) :
    Approximates 4 1 (v * 10 ^ k) (toRat (x * powerOfTen k)) := by
  obtain ⟨hpower, hpowerApprox⟩ := hasValue_and_approximates_powerOfTen hk
  obtain ⟨u, hmodel, hround⟩ := hx.exists_roundedTo_mul hpower (one_le_toRat_powerOfTen hk)
  have hexact := h.mul hpowerApprox hv zero_le_one hpower.pos.le
  have hrounded := hround.approximates hmodel hfinite (mul_pos hx.pos hpower.pos).le
  refine (hexact.trans hrounded zero_le_one).mono (by positivity) ?_ ?_
  · rw [roundoff]
    norm_num
  · norm_num

/-- The error of one division by a power of ten. -/
theorem approximates_div_powerOfTen {x : Float} {k : Nat} (hx : IsNonneg x)
    (h : Approximates i j v (toRat x)) (hv : 0 ≤ v) (hi : 0 ≤ i) (hi4 : i ≤ 4) (hj : 0 ≤ j)
    (hj4 : j ≤ 4) (hk : 1 ≤ k) (hmax : k ≤ 308) (hfinite : (x / powerOfTen k).isFinite = true) :
    IsNonneg (x / powerOfTen k) ∧
      Approximates (i + 9 / 4) (j + 5 / 4) (v / 10 ^ k) (toRat (x / powerOfTen k)) := by
  obtain ⟨hpower, hpowerApprox⟩ := hasValue_and_approximates_powerOfTen hmax
  have htwo : (2 : ℚ) ≤ 10 ^ k := by
    calc
      (2 : ℚ) ≤ 10 ^ 1 := by norm_num
      _ ≤ 10 ^ k := pow_le_pow_right₀ (by norm_num) hk
  obtain ⟨hkind, hrounded⟩ := isNonneg_and_approximates_div hx hpower hfinite
  refine ⟨hkind, ((h.div hpowerApprox hv htwo hi hj).trans hrounded zero_le_one).mono
    (by positivity) ?_ ?_⟩
  · rw [roundoff]
    linarith
  · rw [roundoff]
    linarith

/-- **The error of reading.**  A word times a power of ten is read with at most five roundings. -/
theorem approximates_scaled {n : Nat} {places : Int} (hn : n ≠ 0) (hlt : n < 2 ^ 64)
    (hlow : -616 < places) (hhigh : places ≤ 308) (hfinite : (scaled n places).isFinite = true) :
    Approximates 6 (5 / 2) (n * 10 ^ places) (toRat (scaled n places)) := by
  obtain ⟨hinteger, hintegerApprox⟩ := hasValue_and_approximates_toFloat hn hlt
  have hnonneg : (0 : ℚ) ≤ n := Nat.cast_nonneg n
  rcases le_or_gt 0 places with hsign | hsign
  · obtain ⟨k, rfl⟩ := Int.eq_ofNat_of_zero_le hsign
    rw [scaled_natCast hinteger.beq_zero] at hfinite ⊢
    rw [zpow_natCast]
    exact (approximates_mul_powerOfTen hinteger hintegerApprox hnonneg (by omega) hfinite).mono
      (by positivity) (by norm_num) (by norm_num)
  obtain ⟨k, rfl⟩ : ∃ k : Nat, places = -(k : Int) := ⟨places.natAbs, by omega⟩
  rw [scaled_neg (by omega)] at hfinite ⊢
  rw [zpow_neg, zpow_natCast, ← div_eq_mul_inv]
  rcases Nat.lt_or_ge 308 k with hlarge | hsmall
  · -- the first division is by the greatest power
    have hdivided : divideByTens (k / 308) (UInt64.ofNat n).toFloat k =
        (UInt64.ofNat n).toFloat / powerOfTen 308 / powerOfTen (k - 308) := by
      have hrounds : k / 308 = 0 + 1 := by omega
      have hmore : ¬ (k ≤ 308 ∨ ((UInt64.ofNat n).toFloat == 0) = true) := by
        rw [hinteger.beq_zero]
        rintro (hle | hzero)
        · omega
        · exact Bool.false_ne_true hzero
      rw [hrounds, divideByTens, if_neg hmore]
      rfl
    have hfirst := isFinite_div_powerOfTen (isFinite_toFloat hlt) (k := 308) (by omega) le_rfl
    rw [hdivided] at hfinite ⊢
    obtain ⟨hkind, happrox⟩ := approximates_div_powerOfTen (.inr hinteger) hintegerApprox hnonneg
      zero_le_one (by norm_num) le_rfl (by norm_num) (by omega) le_rfl hfirst
    have hlast := (approximates_div_powerOfTen hkind happrox (by positivity) (by norm_num)
      (by norm_num) (by norm_num) (by norm_num) (by omega) (by omega) hfinite).2
    rw [div_div, ← pow_add, Nat.add_sub_of_le hlarge.le] at hlast
    exact hlast.mono (by positivity) (by norm_num) (by norm_num)
  · rw [divideByTens_of_le hsmall] at hfinite ⊢
    exact (approximates_div_powerOfTen (.inr hinteger) hintegerApprox hnonneg zero_le_one
      (by norm_num) le_rfl (by norm_num) (by omega) hsmall hfinite).2.mono (by positivity)
      (by norm_num) (by norm_num)

end Intake.Binary64
