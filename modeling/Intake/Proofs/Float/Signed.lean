import Intake.Proofs.Float.Error

/-!
# Rounding numbers of either sign

A number that is not zero is rounded by its magnitude and keeps its sign, and zero stays zero:
`Rounds`.  Sums, quotients by a positive double and integers are rounded from the exact result, so
what is said of `Rounds` is said of all three.

A double that a number is rounded to is known from the number, `Rounds.eq`.  Rounding does not step
over a double, `Rounds.toRat_le` and `Rounds.le_toRat`; in particular a number that is a double is
not changed, `Rounds.toRat_eq`.  What is left is the error, `Rounds.abs_sub_le`, and how close two
doubles can be, `add_roundoff_mul_le_of_lt`.  The two meet: a rounding is off by as much as the
doubles can be apart, so from these laws one can tell how many doubles a computation is off.
-/

namespace Intake.Binary64

open Float.Model Float.Model.UnpackedFloat

/-- A double is what a number is rounded to. -/
inductive Rounds (q : ℚ) (x : Float) : Prop
  | zero {s : Sign} (value : q = 0) (unpack : x.toModel.unpack = .zero s)
  | magnitude {s : Sign} {v : ℚ} {u : UnpackedFloat} (value : q = signFactor s * v) (pos : 0 < v)
      (round : RoundedTo s v u) (model : x.toModel = Float.Model.pack u)

/-! ## Signs -/

theorem abs_signFactor_mul (s : Sign) (v : ℚ) : |signFactor s * v| = |v| := by
  cases s <;> simp [signFactor]

theorem signFactor_mul_injective {s s' : Sign} {v v' : ℚ} (hv : 0 < v) (hv' : 0 < v')
    (h : signFactor s * v = signFactor s' * v') : s = s' ∧ v = v' := by
  cases s <;> cases s' <;> simp only [signFactor, one_mul, neg_mul, neg_inj] at h
  · exact ⟨rfl, h⟩
  · linarith
  · linarith
  · exact ⟨rfl, h⟩

theorem toRat_eq_zero {x : Float} {s : Sign} (h : x.toModel.unpack = .zero s) : toRat x = 0 := by
  rw [toRat, h]
  rfl

/-- A finite double is zero, or a sign and a magnitude. -/
theorem toRat_cases {x : Float} (h : x.isFinite = true) :
    toRat x = 0 ∨ ∃ s m e, IsDouble m e ∧ toRat x = signFactor s * (m * 2 ^ e) := by
  rcases isFinite_cases h with ⟨s, hx⟩ | ⟨s, m, e, hd, hx⟩
  · exact .inl (toRat_eq_zero hx)
  · rw [toRat, hx]
    exact .inr ⟨s, m, e, hd, rfl⟩

theorem IsDouble.value_pos {m : Nat} {e : Int} (h : IsDouble m e) : (0 : ℚ) < m * 2 ^ e :=
  mul_pos (by exact_mod_cast h.pos) (two_zpow_pos e)

theorem IsDouble.value_lt {m : Nat} {e : Int} (h : IsDouble m e) :
    (m : ℚ) * 2 ^ e < 2 ^ 53 * 2 ^ e :=
  mul_lt_mul_of_pos_right (by exact_mod_cast h.lt) (two_zpow_pos e)

theorem toRat_ne_zero {x : Float} {s : Sign} {m : Nat} {e : Int} (hd : IsDouble m e)
    (h : x.toModel.unpack = .finite s m e hd.pos) : toRat x ≠ 0 := by
  have hvalue : toRat x = signFactor s * (m * 2 ^ e) := by
    rw [toRat, h]
    rfl
  rw [hvalue, ← abs_pos, abs_signFactor_mul]
  exact abs_pos.2 hd.value_pos.ne'

/-- A double with a place below is less than a number with 53 bits above the place. -/
theorem IsDouble.value_lt_of_lt {m : Nat} {e e' : Int} (h : IsDouble m e') (hlt : e' < e) :
    (m : ℚ) * 2 ^ e' < 2 ^ 52 * 2 ^ e := by
  refine h.value_lt.trans_le ?_
  rw [pow_mul_zpow, pow_mul_zpow]
  exact zpow_le_zpow_right₀ one_le_two (by omega)

/-- A double is a multiple of each place below its own. -/
theorem value_eq_of_le (m : Nat) {e e' : Int} (h : e ≤ e') :
    (m : ℚ) * 2 ^ e' = (m * 2 ^ (e' - e).toNat : ℕ) * 2 ^ e := by
  rw [Nat.cast_mul, Nat.cast_pow, Nat.cast_ofNat, mul_assoc, pow_mul_zpow,
    Int.toNat_of_nonneg (by omega), sub_add_cancel]

/-! ## One double for each number -/

theorem HasPlace.unique {v : ℚ} {e e' : Int} (h : HasPlace v e) (h' : HasPlace v e') : e = e' := by
  suffices hle : ∀ {e e' : Int}, HasPlace v e → HasPlace v e' → e' ≤ e from
    Int.le_antisymm (hle h' h) (hle h h')
  intro e e' h h'
  by_contra hlt
  have hpow := (h'.le (by have := h.le_exponent; omega)).trans_lt h.lt
  rw [pow_mul_zpow, pow_mul_zpow] at hpow
  have := lt_of_two_zpow_lt hpow
  omega

theorem RoundedTo.unique {s : Sign} {v : ℚ} {u u' : UnpackedFloat} (h : RoundedTo s v u)
    (h' : RoundedTo s v u') : u = u' := by
  obtain @⟨e, r, hplace, hnearest⟩ := h
  obtain @⟨e', r', hplace', hnearest'⟩ := h'
  obtain rfl := hplace.unique hplace'
  rw [hnearest.unique hnearest']

variable {q : ℚ} {x y : Float}

/-- A number other than zero is rounded to one double only; zero may be rounded to both zeros. -/
theorem Rounds.eq (h : Rounds q x) (h' : Rounds q y) (hq : q ≠ 0) : x = y := by
  cases h with
  | zero value => exact absurd value hq
  | magnitude value pos round model =>
    cases h' with
    | zero value' => exact absurd value' hq
    | magnitude value' pos' round' model' =>
      obtain ⟨rfl, rfl⟩ := signFactor_mul_injective pos pos' (value.symm.trans value')
      rw [round.unique round', ← model'] at model
      exact congrArg Float.ofModel model

/-- Nothing is rounded to NaN. -/
theorem Rounds.isNaN (h : Rounds q x) : x.isNaN = false := by
  show x.toModel.unpack.isNaN = false
  cases h with
  | zero value unpack =>
    rw [unpack]
    rfl
  | magnitude value pos round model =>
    have hcases := round.unpack_cases model
    obtain @⟨e, r, hplace, hnearest⟩ := round
    rcases hcases with hunpack | hunpack <;> rw [hunpack]
    · rw [atPlace]
      split
      · split <;> rfl
      · rfl
    · rfl

/-- A number as large as the least double is not rounded to zero. -/
theorem Rounds.unpack_ne_zero (h : Rounds q x) (hq : 2 ^ (-1074 : Int) ≤ |q|) (s : Sign) :
    x.toModel.unpack ≠ .zero s := by
  intro hx
  have hleast := two_zpow_pos (-1074)
  cases h with
  | zero value =>
    rw [value, abs_zero] at hq
    linarith
  | @magnitude s' v u value pos round model =>
    rw [value, abs_signFactor_mul, abs_of_pos pos] at hq
    have hfinite : x.isFinite = true := by
      show x.toModel.unpack.isFinite = true
      rw [hx]
      rfl
    obtain ⟨e, r, hplace, hnearest, -, hunpack⟩ := round.exists_multiple model hfinite
    have hr : 0 < r := by
      rcases hplace.nearest_ge hnearest with hnormal | rfl
      · exact Nat.lt_of_lt_of_le (by decide) hnormal
      · refine hnearest.ge_of_le ?_
        rwa [Nat.cast_one, le_div_iff₀ hleast, one_mul]
    rw [hx, atPlace, dif_pos hr] at hunpack
    split at hunpack <;> cases hunpack

/-! ## Order -/

/-- The negative is rounded to the negative. -/
theorem Rounds.neg (h : Rounds q x) (hx : x.isFinite = true) : Rounds (-q) (-x) := by
  cases h with
  | @zero s value unpack =>
    refine .zero (s := -s) (neg_eq_zero.2 value) ?_
    rw [unpack_neg hx, unpack]
    rfl
  | @magnitude s v u value pos round model =>
    obtain ⟨e, r, hplace, hnearest, -, hunpack⟩ := round.exists_multiple model hx
    have hneg : (atPlace s r e).neg = atPlace (-s) r e := by
      rw [atPlace, atPlace]
      split
      · split <;> rfl
      · rfl
    refine .magnitude (s := -s) ?_ pos (.intro hplace hnearest) ?_
    · rw [value, signFactor_neg, neg_mul]
    · rw [← hneg, ← hunpack]
      rfl

section
variable {v : ℚ} {e e' : Int} {r m : Nat}

/-- The nearest multiple is at most each double that the number is at most. -/
theorem HasPlace.mul_le (h : HasPlace v e) (hr : IsNearest (v / 2 ^ e) r) (hd : IsDouble m e')
    (hv : v ≤ m * 2 ^ e') : (r : ℚ) * 2 ^ e ≤ m * 2 ^ e' := by
  rcases Int.lt_or_le e' e with hlt | hle
  · have hlow := h.le (by have := hd.le_exponent; omega)
    exact absurd (hd.value_lt_of_lt hlt) (not_lt.2 (hlow.trans hv))
  · rw [value_eq_of_le m hle, ← div_le_iff₀ (two_zpow_pos e)] at hv
    rw [value_eq_of_le m hle]
    exact mul_le_mul_of_nonneg_right (by exact_mod_cast hr.le_of_le hv) (two_zpow_pos e).le

/-- The nearest multiple is at least each double that the number is at least. -/
theorem HasPlace.le_mul (h : HasPlace v e) (hr : IsNearest (v / 2 ^ e) r) (hd : IsDouble m e')
    (hv : m * 2 ^ e' ≤ v) : (m : ℚ) * 2 ^ e' ≤ r * 2 ^ e := by
  rcases Int.lt_or_le e' e with hlt | hle
  · have hnormal := (h.nearest_ge hr).resolve_right (by have := hd.le_exponent; omega)
    refine (hd.value_lt_of_lt hlt).le.trans ?_
    exact mul_le_mul_of_nonneg_right (by exact_mod_cast hnormal) (two_zpow_pos e).le
  · rw [value_eq_of_le m hle, ← le_div_iff₀ (two_zpow_pos e)] at hv
    rw [value_eq_of_le m hle]
    exact mul_le_mul_of_nonneg_right (by exact_mod_cast hr.ge_of_le hv) (two_zpow_pos e).le

end

/-- A number that is at most a double is rounded to at most the double. -/
theorem Rounds.toRat_le (h : Rounds q x) (hx : x.isFinite = true) (hy : y.isFinite = true)
    (hq : q ≤ toRat y) : toRat x ≤ toRat y := by
  cases h with
  | zero value unpack =>
    rw [toRat_eq_zero unpack]
    exact value.symm.trans_le hq
  | @magnitude s v u value pos round model =>
    obtain ⟨e, r, hplace, hnearest, hvalue, -⟩ := round.exists_multiple model hx
    have hmultiple : (0 : ℚ) ≤ r * 2 ^ e := mul_nonneg (Nat.cast_nonneg r) (two_zpow_pos e).le
    rw [value] at hq
    rw [hvalue]
    rcases toRat_cases hy with hzero | ⟨s', m, e', hd, hvalue'⟩
    · rw [hzero] at hq ⊢
      cases s <;> simp only [signFactor] at hq ⊢ <;> linarith
    · rw [hvalue'] at hq ⊢
      have hdouble := hd.value_pos
      cases s <;> cases s' <;> simp only [signFactor, one_mul, neg_mul, neg_le_neg_iff] at hq ⊢
      · exact hplace.le_mul hnearest hd hq
      · linarith
      · linarith
      · exact hplace.mul_le hnearest hd hq

/-- A number that is at least a double is rounded to at least the double. -/
theorem Rounds.le_toRat (h : Rounds q x) (hx : x.isFinite = true) (hy : y.isFinite = true)
    (hq : toRat y ≤ q) : toRat y ≤ toRat x := by
  have hle := (h.neg hx).toRat_le (isFinite_neg hx) (isFinite_neg hy) <| by
    rw [toRat_neg hy]
    exact neg_le_neg hq
  rw [toRat_neg hx, toRat_neg hy] at hle
  exact neg_le_neg_iff.1 hle

/-- A number that is a double is rounded to the double. -/
theorem Rounds.toRat_eq (h : Rounds q x) (hx : x.isFinite = true) (hy : y.isFinite = true)
    (hq : q = toRat y) : toRat x = toRat y :=
  le_antisymm (h.toRat_le hx hy hq.le) (h.le_toRat hx hy hq.ge)

/-- The error of one rounding. -/
theorem Rounds.abs_sub_le (h : Rounds q x) (hx : x.isFinite = true) :
    |toRat x - q| ≤ roundoff * max |q| (2 ^ (-1022 : Int)) := by
  cases h with
  | zero value unpack =>
    rw [value, toRat_eq_zero unpack, sub_self, abs_zero]
    exact mul_nonneg roundoff_pos.le (le_max_of_le_left le_rfl)
  | @magnitude s v u value pos round model =>
    obtain ⟨e, r, hplace, hnearest, hvalue, -⟩ := round.exists_multiple model hx
    rw [hvalue, value, ← mul_sub, abs_signFactor_mul, abs_signFactor_mul, abs_of_pos pos]
    exact hnearest.abs_sub_le.trans hplace.half_place_le

/-! ## The distance of doubles -/

/-- The doubles below a positive one are below it by a part in `2 ^ 53` at least. -/
theorem IsDouble.value_le_of_lt {m m' : Nat} {e e' : Int} (h : IsDouble m e) (h' : IsDouble m' e')
    (hlt : (m : ℚ) * 2 ^ e < m' * 2 ^ e') :
    m * 2 ^ e + roundoff * (m' * 2 ^ e') ≤ m' * 2 ^ e' := by
  -- both are multiples of the lower place
  suffices hmultiples : ∀ {n n' : Nat} {place : Int}, (m : ℚ) * 2 ^ e = n * 2 ^ place →
      (m' : ℚ) * 2 ^ e' = n' * 2 ^ place → n * 2 ^ 53 + n' ≤ n' * 2 ^ 53 →
      m * 2 ^ e + roundoff * (m' * 2 ^ e') ≤ m' * 2 ^ e' by
    rcases Int.lt_or_le e e' with hplace | hplace
    · have hle := h.le_exponent
      have hnormal := h'.normal.resolve_right (by omega)
      have hpow : 2 ^ 1 ≤ 2 ^ (e' - e).toNat := Nat.pow_le_pow_right two_pos (by omega)
      have hlarge : 2 ^ 52 * 2 ≤ m' * 2 ^ (e' - e).toNat := Nat.mul_le_mul hnormal hpow
      have hsmall := h.lt
      refine hmultiples rfl (value_eq_of_le m' hplace.le) ?_
      omega
    · have hvalue := value_eq_of_le m hplace
      rw [hvalue, mul_lt_mul_iff_left₀ (two_zpow_pos e')] at hlt
      have hlt : m * 2 ^ (e - e').toNat < m' := by exact_mod_cast hlt
      have hbits := h'.lt
      refine hmultiples hvalue rfl ?_
      omega
  intro n n' place hn hn' hle
  rw [hn, hn']
  have hle : (n : ℚ) * 2 ^ 53 + n' ≤ n' * 2 ^ 53 := by exact_mod_cast hle
  have hscaled : (n : ℚ) + roundoff * n' ≤ n' := by
    rw [roundoff]
    linarith
  calc
    (n : ℚ) * 2 ^ place + roundoff * (n' * 2 ^ place) = (n + roundoff * n') * 2 ^ place := by ring
    _ ≤ n' * 2 ^ place := mul_le_mul_of_nonneg_right hscaled (two_zpow_pos place).le

/-- Two doubles are apart by a part in `2 ^ 53` of the larger one at least. -/
theorem add_roundoff_mul_le_of_lt (hx : x.isFinite = true) (hy : y.isFinite = true)
    (h : toRat x < toRat y) :
    toRat x + roundoff * max |toRat x| |toRat y| ≤ toRat y := by
  have hsmall : roundoff < 1 := by
    rw [roundoff]
    norm_num
  have hpos := roundoff_pos
  rcases toRat_cases hx with hzero | ⟨s, m, e, hd, hvalue⟩ <;>
    rcases toRat_cases hy with hzero' | ⟨s', m', e', hd', hvalue'⟩
  · linarith
  · rw [hzero] at h ⊢
    rw [abs_zero, max_eq_right (abs_nonneg _), abs_of_pos h, zero_add]
    nlinarith
  · rw [hzero'] at h ⊢
    rw [abs_zero, max_eq_left (abs_nonneg _), abs_of_neg h]
    nlinarith
  · have hmagnitude := hd.value_pos
    have hmagnitude' := hd'.value_pos
    rw [hvalue, hvalue'] at h ⊢
    rw [abs_signFactor_mul, abs_signFactor_mul, abs_of_pos hmagnitude, abs_of_pos hmagnitude']
    cases s <;> cases s' <;> simp only [signFactor, one_mul, neg_mul, neg_lt_neg_iff] at h ⊢
    · rw [max_eq_left h.le]
      linarith [hd'.value_le_of_lt hd h]
    · have hmax := max_le_add_of_nonneg hmagnitude.le hmagnitude'.le
      nlinarith
    · linarith
    · rw [max_eq_right h.le]
      exact hd.value_le_of_lt hd' h

/-! ## Operations -/

/-- A double is rounded to itself. -/
theorem rounds_toRat (h : x.isFinite = true) : Rounds (toRat x) x := by
  have hpack := toModel_eq_pack x
  rcases isFinite_cases h with ⟨s, hx⟩ | ⟨s, m, e, hd, hx⟩
  · exact .zero (toRat_eq_zero hx) hx
  · have hplace : HasPlace (m * 2 ^ e : ℚ) e := by
      refine ⟨hd.le_exponent, hd.value_lt, fun hgt => ?_⟩
      have hnormal := hd.normal.resolve_right hgt.ne'
      exact mul_le_mul_of_nonneg_right (by exact_mod_cast hnormal) (two_zpow_pos e).le
    have hround := RoundedTo.intro (s := s) hplace (inInterval_self m e).nearest
    rw [atPlace, dif_pos hd.pos, if_pos hd.lt] at hround
    rw [hx] at hpack
    refine .magnitude ?_ hd.value_pos hround hpack
    rw [toRat, hx]
    rfl

/-- The quotient of a double by a positive one is the exact quotient, rounded. -/
theorem rounds_div (hx : x.isFinite = true) {b : ℚ} (hy : HasValue y b) :
    Rounds (toRat x / b) (x / y) := by
  have hmodel : (x / y).toModel = Float.Model.pack
      (UnpackedFloat.div .binary64 x.toModel.unpack y.toModel.unpack) := rfl
  obtain ⟨m', e', hd', huy, rfl⟩ := hy
  rcases isFinite_cases hx with ⟨s, hux⟩ | ⟨s, m, e, hd, hux⟩
  · refine .zero (s := s / .positive) ?_ ?_
    · rw [toRat, hux, valueOf, zero_div]
    · rw [hmodel, hux, huy]
      exact unpack_pack_zero _
  · have hsign : s / .positive = s := by cases s <;> rfl
    have hround := roundedTo_div hux huy
    rw [hsign] at hround
    refine .magnitude ?_ (div_pos hd.value_pos hd'.value_pos) hround hmodel
    rw [toRat, hux, valueOf, mul_div_assoc]

end Intake.Binary64
