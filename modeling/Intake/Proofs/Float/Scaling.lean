import Intake.Json.Numeral
import Intake.Proofs.Float.Rounding

/-!
# Scaling by powers of ten

A number is read by rounding its digits to a double and multiplying or dividing that by doubles for
powers of ten.  Division by ten or more keeps a double finite, so only a multiplication can
overflow.  Both its factors are at most one part in `2 ^ 53` too large, and so the product is finite
if the exact product keeps a distance of some places from the greatest double.
-/

namespace Intake.Binary64

open Float.Model Float.Model.UnpackedFloat

/-! ## Doubles near a number -/

/-- An unpacked double with a significand of 53 bits that lies at most one part in `2 ^ 53` above a
number, and not below the power of two that is below the number. -/
def IsNear (n : Nat) : UnpackedFloat → Prop
  | .finite _ m e _ => m.log2 = 52 ∧ (n.log2 : Int) ≤ e + 52 ∧
      m * 2 ^ (e + 52).toNat * 2 ^ 53 ≤ n * 2 ^ 52 * (2 ^ 53 + 1)
  | _ => False

instance (n : Nat) : DecidablePred (IsNear n)
  | .finite .. => inferInstanceAs (Decidable (_ ∧ _ ∧ _))
  | .notANumber => inferInstanceAs (Decidable False)
  | .infinity _ => inferInstanceAs (Decidable False)
  | .zero _ => inferInstanceAs (Decidable False)

/-- A double that may be what a number is rounded to. -/
def RoundsTo (n : Nat) (x : Float) : Prop := IsNear n x.toModel.unpack

instance (n : Nat) : DecidablePred (RoundsTo n) :=
  fun x => inferInstanceAs (Decidable (IsNear n x.toModel.unpack))

theorem RoundsTo.exists_eq {n : Nat} {x : Float} (h : RoundsTo n x) :
    ∃ (s : Sign) (m : Nat) (e : Int) (hpos : 0 < m), x.toModel.unpack = .finite s m e hpos ∧
      m.log2 = 52 ∧ (n.log2 : Int) ≤ e + 52 ∧
      m * 2 ^ (e + 52).toNat * 2 ^ 53 ≤ n * 2 ^ 52 * (2 ^ 53 + 1) := by
  unfold RoundsTo at h
  cases hx : x.toModel.unpack with
  | finite s m e hpos =>
    rw [hx] at h
    exact ⟨s, m, e, hpos, rfl, h⟩
  | notANumber | infinity | zero =>
    rw [hx] at h
    exact h.elim

theorem RoundsTo.isFinite {n : Nat} {x : Float} (h : RoundsTo n x) : x.isFinite = true := by
  obtain ⟨s, m, e, hpos, hunpack, -⟩ := h.exists_eq
  show x.toModel.unpack.isFinite = true
  rw [hunpack]
  rfl

theorem log2_mul_two_pow {n : Nat} (hn : n ≠ 0) (k : Nat) : (n * 2 ^ k).log2 = n.log2 + k := by
  obtain ⟨hlow, hhigh⟩ := (Nat.log2_eq_iff hn).1 rfl
  refine (Nat.log2_eq_iff (Nat.mul_ne_zero hn (Nat.two_pow_pos k).ne')).2 ⟨?_, ?_⟩
  · rw [Nat.pow_add]
    exact Nat.mul_le_mul_right _ hlow
  · rw [Nat.add_right_comm, Nat.pow_add]
    exact Nat.mul_lt_mul_of_pos_right hhigh (Nat.two_pow_pos k)

/-- What a number with enough zero bits appended is rounded to. -/
theorem roundsTo_of_toModel {n k c : Nat} {s : Sign} {x : Float} (hn : n ≠ 0)
    (hk : 52 ≤ n.log2 + k) (hmax : n * (2 ^ 53 + 1) < 2 ^ c) (hc : c ≤ 1077)
    (hx : x.toModel =
      Float.Model.pack (roundWithAccuracy .binary64 s (n * 2 ^ k) (-k) .exact)) :
    RoundsTo n x := by
  have hlog := log2_mul_two_pow hn k
  obtain ⟨m, j, hpos, hround, hm, hleast, hmost⟩ :=
    exists_round_eq (s := s) (m := n * 2 ^ k) (e := -k) (by omega) (by omega)
  have hlow : 2 ^ 52 ≤ m := ((Nat.log2_eq_iff hpos.ne').1 hm).1
  have hj : j + 105 < c + k := by
    refine (Nat.pow_lt_pow_iff_right (a := 2) (by decide)).1 ?_
    calc
      2 ^ (j + 105) = 2 ^ 52 * 2 ^ j * 2 ^ 53 := by ring
      _ ≤ m * 2 ^ j * 2 ^ 53 := by gcongr
      _ ≤ n * (2 ^ 53 + 1) * 2 ^ k := by linarith
      _ < 2 ^ c * 2 ^ k := Nat.mul_lt_mul_of_pos_right hmax (Nat.two_pow_pos k)
      _ = 2 ^ (c + k) := (Nat.pow_add ..).symm
  have hdouble : IsDouble m (-k + j) := by
    have hhigh := ((Nat.log2_eq_iff hpos.ne').1 hm).2
    refine ⟨hpos, hhigh, ?_, ?_, .inl hlow⟩ <;> omega
  rw [RoundsTo, hx, hround, unpack_pack hdouble]
  refine ⟨hm, by omega, ?_⟩
  refine Nat.le_of_mul_le_mul_right ?_ (Nat.two_pow_pos k)
  calc
    m * 2 ^ (-k + j + 52 : Int).toNat * 2 ^ 53 * 2 ^ k
      = m * 2 ^ ((-k + j + 52 : Int).toNat + k) * 2 ^ 53 := by ring
    _ = m * 2 ^ j * 2 ^ 53 * 2 ^ 52 := by
      rw [show (-k + j + 52 : Int).toNat + k = j + 52 by omega]
      ring
    _ ≤ n * 2 ^ k * (2 ^ 53 + 1) * 2 ^ 52 := Nat.mul_le_mul_right _ hmost
    _ = n * 2 ^ 52 * (2 ^ 53 + 1) * 2 ^ k := by ring

/-! ## Words -/

theorem toModel_toFloat {n : Nat} (hn : n ≠ 0) (hlt : n < 2 ^ 64) :
    (UInt64.ofNat n).toFloat.toModel = Float.Model.pack
      (roundWithAccuracy .binary64 .positive (n * 2 ^ (52 - n.log2)) (-(52 - n.log2 : Nat))
        .exact) := by
  have hnat : (UInt64.ofNat n).toNat = n := UInt64.toNat_ofNat_of_lt' hlt
  have hshift : (-Format.binary64.targetExponent (totalExponent n 0)).toNat = 52 - n.log2 := by
    rw [targetExponent_eq]
    omega
  show Float.Model.pack
    (UnpackedFloat.normalize .binary64 ((UInt64.ofNat n).toNat : Int) 0 .positive) = _
  have hcompare : compare (n : Int) 0 = .gt := Int.compare_eq_gt.2 (by omega)
  rw [hnat, UnpackedFloat.normalize, hcompare]
  simp only [Int.toNat_natCast, UnpackedFloat.round, decreaseExponent, zero_sub, hshift,
    Nat.shiftLeft_eq]

/-- A word is rounded to a double near it. -/
theorem roundsTo_toFloat {n : Nat} (hn : n ≠ 0) (hlt : n < 2 ^ 64) :
    RoundsTo n (UInt64.ofNat n).toFloat :=
  roundsTo_of_toModel (c := 118) hn (by omega) (by omega) (by decide) (toModel_toFloat hn hlt)

/-! ## Powers of ten -/

open Json

theorem toModel_powerOfTen {k : Nat} (hk : 22 < k) (hmax : k ≤ 308) :
    (powerOfTen k).toModel = Float.Model.pack
      (roundWithAccuracy .binary64 .positive (10 ^ k * 2 ^ 53) (-(53 : Nat)) .exact) := by
  have hmin : min k 309 = k := by omega
  have hfloat : powerOfTen k = Float.ofModel (Float.Model.ofScientific 1 (Int.ofNat k)) := by
    rw [powerOfTen, hmin, Float.ofScientific, dif_neg (by omega)]
    rfl
  have hsmall : ¬ (Int.ofNat k > 2 ^ 11) := by
    show ¬ ((k : Int) > 2 ^ 11)
    omega
  have hlarge : ¬ (Int.ofNat k < -((2 ^ 11 : Int) + Nat.log2 1)) := by
    show ¬ ((k : Int) < -((2 ^ 11 : Int) + Nat.log2 1))
    omega
  rw [hfloat]
  show Float.Model.pack (UnpackedFloat.ofScientific .binary64 1 (Int.ofNat k)) = _
  rw [UnpackedFloat.ofScientific, dif_neg Nat.one_ne_zero, if_neg hsmall, if_neg hlarge,
    if_pos (show 0 ≤ Int.ofNat k from Int.natCast_nonneg k), UnpackedFloat.mul]
  show Float.Model.pack (roundWithAccuracy .binary64 .positive ((1 <<< 53) * 10 ^ k)
    (-(53 : Nat) + 0) .exact) = _
  rw [Nat.shiftLeft_eq, Nat.one_mul, Nat.mul_comm, Int.add_zero]

theorem roundsTo_powerOfTen {k : Nat} (hmax : k ≤ 308) : RoundsTo (10 ^ k) (powerOfTen k) := by
  rcases Nat.lt_or_ge 22 k with hk | hk
  · have hne : 10 ^ k ≠ 0 := (Nat.pow_pos (by decide)).ne'
    refine roundsTo_of_toModel (c := 1077) hne (by omega) ?_ le_rfl (toModel_powerOfTen hk hmax)
    refine Nat.lt_of_le_of_lt (Nat.mul_le_mul_right _ (Nat.pow_le_pow_right (by decide) hmax)) ?_
    decide +kernel
  · have hsmall : ∀ k < 23, RoundsTo (10 ^ k) (powerOfTen k) := by decide +kernel
    exact hsmall k (by omega)

/-! ## Products -/

/-- The middle between the greatest double and the power of two above it, in units of `2 ^ (-k)`.
From there on numbers are rounded to infinity. -/
def overflowAt (k : Nat) : Nat := (2 ^ 54 - 1) * 2 ^ (970 + k)

theorem overflowAt_lt (k : Nat) : overflowAt k < 2 ^ (1024 + k) := by
  rw [overflowAt, show 1024 + k = 54 + (970 + k) by omega, Nat.pow_add 2 54]
  exact Nat.mul_lt_mul_of_pos_right (by decide) (Nat.two_pow_pos _)

theorem mul_two_pow_eq_overflowAt {i j k : Nat} (h : i + j = 970 + k) :
    (2 ^ 54 - 1) * 2 ^ i * 2 ^ j = overflowAt k := by
  rw [overflowAt, Nat.mul_assoc, ← Nat.pow_add, h]

/-- The numbers up to which a product is safe from overflow, whatever its factors were rounded to:
three and a half places below the power of two above the greatest double. -/
def safeLimit : Nat := (2 ^ 55 - 14) * 2 ^ 969

theorem safeLimit_lt : safeLimit * (2 ^ 104 * (2 ^ 53 + 1) ^ 2) < overflowAt 104 * 2 ^ 106 := by
  decide +kernel

/-- The product of two doubles is finite if the product of the numbers that they are near to is
safe. -/
theorem isFinite_mul {a b : Nat} {x y : Float} (hx : RoundsTo a x) (hy : RoundsTo b y)
    (h : a * b ≤ safeLimit) : (x * y).isFinite = true := by
  obtain ⟨s, m, e, hpos, hunpack, hm, hleast, hmost⟩ := hx.exists_eq
  obtain ⟨s', m', e', hpos', hunpack', hm', hleast', hmost'⟩ := hy.exists_eq
  have hproduct : m * m' * 2 ^ (e + e' + 104).toNat < overflowAt 104 := by
    refine Nat.lt_of_mul_lt_mul_right (a := 2 ^ 106) (Nat.lt_of_le_of_lt ?_ safeLimit_lt)
    calc
      m * m' * 2 ^ (e + e' + 104).toNat * 2 ^ 106
        = m * 2 ^ (e + 52).toNat * 2 ^ 53 * (m' * 2 ^ (e' + 52).toNat * 2 ^ 53) := by
        rw [show (e + e' + 104).toNat = (e + 52).toNat + (e' + 52).toNat by omega]
        ring
      _ ≤ a * 2 ^ 52 * (2 ^ 53 + 1) * (b * 2 ^ 52 * (2 ^ 53 + 1)) := Nat.mul_le_mul hmost hmost'
      _ = a * b * (2 ^ 104 * (2 ^ 53 + 1) ^ 2) := by ring
      _ ≤ safeLimit * (2 ^ 104 * (2 ^ 53 + 1) ^ 2) := Nat.mul_le_mul_right _ h
  have hexponent : e + e' ≤ 970 := by
    have hlow : 2 ^ 52 * 2 ^ 52 ≤ m * m' := Nat.mul_le_mul
      ((Nat.log2_eq_iff hpos.ne').1 hm).1 ((Nat.log2_eq_iff hpos'.ne').1 hm').1
    have hpow : 2 ^ (104 + (e + e' + 104).toNat) < 2 ^ (1024 + 104) := by
      rw [Nat.pow_add]
      exact Nat.lt_of_le_of_lt (Nat.mul_le_mul_right _ hlow)
        (Nat.lt_trans hproduct (overflowAt_lt 104))
    have hlt := (Nat.pow_lt_pow_iff_right (by decide)).1 hpow
    omega
  show (Float.Model.pack (UnpackedFloat.mul .binary64 x.toModel.unpack
    y.toModel.unpack)).isFinite = true
  rw [hunpack, hunpack', UnpackedFloat.mul]
  refine isFinite_pack_of_lt hexponent ?_
  refine Nat.lt_of_mul_lt_mul_right (a := 2 ^ (e + e' + 104).toNat) ?_
  rw [mul_two_pow_eq_overflowAt (k := 104) (by omega)]
  exact hproduct

/-! ## Quotients -/

theorem isFinite_cases {x : Float} (h : x.isFinite = true) :
    (∃ s, x.toModel.unpack = .zero s) ∨
      ∃ s m e, ∃ h : IsDouble m e, x.toModel.unpack = .finite s m e h.pos := by
  have h : x.toModel.unpack.isFinite = true := h
  cases hx : x.toModel.unpack with
  | notANumber | infinity =>
    rw [hx] at h
    exact absurd h Bool.false_ne_true
  | zero s => exact .inl ⟨s, rfl⟩
  | finite s m e hpos => exact .inr ⟨s, m, e, isDouble_of_unpack hx, rfl⟩

/-- The negative of a finite double is finite. -/
theorem isFinite_neg {x : Float} (h : x.isFinite = true) : (-x).isFinite = true := by
  show (Float.Model.pack x.toModel.unpack.neg).isFinite = true
  rcases isFinite_cases h with ⟨s, hunpack⟩ | ⟨s, m, e, hdouble, hunpack⟩
  · rw [hunpack]
    exact isFinite_pack_zero (-s)
  · rw [hunpack]
    exact isFinite_pack_finite hdouble.pos hdouble.exponent_le

theorem log2_div_le (n : Nat) {m k : Nat} (hm : 2 ^ k ≤ m) : (n / m).log2 ≤ n.log2 - k := by
  rcases Nat.eq_zero_or_pos (n / m) with hzero | hpos
  · rw [hzero]
    exact Nat.zero_le _
  refine Nat.lt_succ_iff.1 ((Nat.log2_lt hpos.ne').2 (Nat.div_lt_of_lt_mul ?_))
  calc
    n < 2 ^ (n.log2 + 1) := Nat.lt_log2_self
    _ ≤ 2 ^ (k + (n.log2 - k + 1)) := Nat.pow_le_pow_right (by decide) (by omega)
    _ = 2 ^ k * 2 ^ (n.log2 - k + 1) := Nat.pow_add ..
    _ ≤ m * 2 ^ (n.log2 - k + 1) := Nat.mul_le_mul_right _ hm

/-- A double stays finite if it is divided by one that is near a number of two or more. -/
theorem isFinite_div {n : Nat} {x y : Float} (hx : x.isFinite = true) (hy : RoundsTo n y)
    (hn : 2 ≤ n) : (x / y).isFinite = true := by
  obtain ⟨s', m', e', hpos', hunpack', hm', hleast', -⟩ := hy.exists_eq
  have hn : 1 ≤ n.log2 := (Nat.le_log2 (by omega)).2 hn
  show (Float.Model.pack (UnpackedFloat.div .binary64 x.toModel.unpack
    y.toModel.unpack)).isFinite = true
  rcases isFinite_cases hx with ⟨s, hunpack⟩ | ⟨s, m, e, hdouble, hunpack⟩
  · rw [hunpack, hunpack', UnpackedFloat.div]
    exact isFinite_pack_zero _
  have hpos := hdouble.pos
  have hm := hdouble.lt
  have he := hdouble.exponent_le
  have hlow : 2 ^ 52 ≤ m' := ((Nat.log2_eq_iff hpos'.ne').1 hm').1
  have hlog : m.log2 ≤ 52 := Nat.lt_succ_iff.1 ((Nat.log2_lt hpos.ne').2 hm)
  rw [hunpack, hunpack', UnpackedFloat.div, divCore]
  simp only [targetExponent_binary64, totalExponent]
  refine isFinite_pack_round (by omega) ?_
  have hquotient := log2_div_le (m <<< (e - e' - min (e - e') (max
    ((m.log2 : Int) + 1 + e - ((m'.log2 : Int) + 1 + e') - 53) (-1074))).toNat) hlow
  rw [Nat.shiftLeft_eq, log2_mul_two_pow hpos.ne'] at hquotient
  rw [Nat.shiftLeft_eq]
  omega

/-- What is near one is one. -/
theorem RoundsTo.unpack_eq_one {x : Float} (h : RoundsTo 1 x) :
    ∃ s hpos, x.toModel.unpack = .finite s (2 ^ 52) (-52) hpos := by
  obtain ⟨s, m, e, hpos, hunpack, hm, hleast, hmost⟩ := h.exists_eq
  have hlow : 2 ^ 52 ≤ m := ((Nat.log2_eq_iff hpos.ne').1 hm).1
  rw [show Nat.log2 1 = 0 by decide] at hleast
  obtain ⟨k, hk⟩ : ∃ k : Nat, e + 52 = k := ⟨(e + 52).toNat, by omega⟩
  rw [hk, Int.toNat_natCast] at hmost
  have hzero : k = 0 := by
    rcases k with _ | k
    · rfl
    · have hpow := Nat.mul_le_mul hlow (Nat.two_pow_pos k)
      rw [Nat.pow_succ, ← Nat.mul_assoc] at hmost
      omega
  rw [hzero] at hmost
  obtain rfl : m = 2 ^ 52 := by omega
  obtain rfl : e = -52 := by omega
  exact ⟨s, hpos, hunpack⟩

/-- Division by one is exact, so a double stays finite. -/
theorem isFinite_div_one {x y : Float} (hx : x.isFinite = true) (hy : RoundsTo 1 y) :
    (x / y).isFinite = true := by
  obtain ⟨s', hpos', hunpack'⟩ := hy.unpack_eq_one
  show (Float.Model.pack (UnpackedFloat.div .binary64 x.toModel.unpack
    y.toModel.unpack)).isFinite = true
  rcases isFinite_cases hx with ⟨s, hunpack⟩ | ⟨s, m, e, hdouble, hunpack⟩
  · rw [hunpack, hunpack', UnpackedFloat.div]
    exact isFinite_pack_zero _
  obtain ⟨hpos, hm, hlow, hhigh, -⟩ := id hdouble
  have hlog : m.log2 ≤ 52 := Nat.lt_succ_iff.1 ((Nat.log2_lt hpos.ne').2 hm)
  rw [hunpack, hunpack', UnpackedFloat.div, divCore]
  simp only [targetExponent_binary64, totalExponent, Nat.log2_two_pow]
  -- the significand gets at least the 52 zero bits that the division takes from it
  obtain ⟨k, hk⟩ : ∃ k : Nat, e - -52 - min (e - -52) (max
      ((m.log2 : Int) + 1 + e - (((52 : Nat) : Int) + 1 + -52) - 53) (-1074)) = (52 + k : Nat) := by
    refine ⟨(e - max ((m.log2 : Int) + e - 53) (-1074)).toNat, ?_⟩
    omega
  have hexponent : min (e - -52) (max
      ((m.log2 : Int) + 1 + e - (((52 : Nat) : Int) + 1 + -52) - 53) (-1074)) = e - k := by
    omega
  have hmod : m * 2 ^ (52 + k) % 2 ^ 52 = 0 := by
    rw [Nat.pow_add, Nat.mul_left_comm]
    exact Nat.mul_mod_right _ _
  have hdiv : m * 2 ^ (52 + k) / 2 ^ 52 = m * 2 ^ k := by
    rw [Nat.pow_add, Nat.mul_left_comm]
    exact Nat.mul_div_cancel_left _ (by decide)
  rw [hk, Int.toNat_natCast, Nat.shiftLeft_eq, hmod, hdiv, hexponent, accuracyOfFraction,
    if_pos rfl]
  refine isFinite_pack_of_lt (by omega) ?_
  refine Nat.lt_of_mul_lt_mul_right (a := 2) ?_
  calc
    m * 2 ^ k * 2 = m * 2 * 2 ^ k := by ring
    _ < (2 ^ 54 - 1) * 2 ^ k := Nat.mul_lt_mul_of_pos_right (by omega) (Nat.two_pow_pos k)
    _ ≤ (2 ^ 54 - 1) * 2 ^ ((970 - (e - k)).toNat + 1) :=
      Nat.mul_le_mul_left _ (Nat.pow_le_pow_right (by decide) (by omega))
    _ = (2 ^ 54 - 1) * 2 ^ (970 - (e - k)).toNat * 2 := by ring

/-- A finite double divided by a count is finite. -/
theorem isFinite_div_count {x : Float} (hx : x.isFinite = true) {n : Nat} (hn : n ≠ 0)
    (hlt : n < 2 ^ 64) : (x / (UInt64.ofNat n).toFloat).isFinite = true := by
  have hy := roundsTo_toFloat hn hlt
  rcases Nat.lt_or_ge n 2 with hone | htwo
  · obtain rfl : n = 1 := by omega
    exact isFinite_div_one hx hy
  · exact isFinite_div hx hy htwo

/-! ## Scaling -/

theorem isFinite_div_powerOfTen {x : Float} (hx : x.isFinite = true) {k : Nat} (hk : 1 ≤ k)
    (hmax : k ≤ 308) : (x / powerOfTen k).isFinite = true := by
  refine isFinite_div hx (roundsTo_powerOfTen hmax) ?_
  calc
    2 ≤ 10 ^ 1 := by decide
    _ ≤ 10 ^ k := Nat.pow_le_pow_right (by decide) hk

/-- A double stays finite under division by a power of ten, in as many rounds as it takes. -/
theorem isFinite_divideByTens {rounds k : Nat} {x : Float} (hx : x.isFinite = true) (hk : 1 ≤ k)
    (hmax : k ≤ 308 * (rounds + 1)) : (divideByTens rounds x k).isFinite = true := by
  induction rounds generalizing x k with
  | zero => exact isFinite_div_powerOfTen hx hk (by omega)
  | succ rounds ih =>
    rw [divideByTens]
    split
    · exact isFinite_div_powerOfTen hx (by omega) (by omega)
    · next hmore =>
      have hmore : ¬ k ≤ 308 := fun hle => hmore (.inl hle)
      exact ih (isFinite_div_powerOfTen hx (by decide) (by decide)) (by omega) (by omega)

theorem isFinite_toFloat {n : Nat} (h : n < 2 ^ 64) : (UInt64.ofNat n).toFloat.isFinite = true := by
  rcases Nat.eq_zero_or_pos n with rfl | hpos
  · decide +kernel
  · exact (roundsTo_toFloat hpos.ne' h).isFinite

theorem safeLimit_lt_pow : safeLimit < 10 ^ 309 := by decide +kernel

theorem lt_of_pow_le_safeLimit {k c : Nat} (hc : safeLimit < 10 ^ c) (h : 10 ^ k ≤ safeLimit) :
    k < c :=
  (Nat.pow_lt_pow_iff_right (by decide)).1 (Nat.lt_of_le_of_lt h hc)

/-- A word times a power of ten is finite if the power is negative or the exact product is safe. -/
theorem isFinite_scaled {n : Nat} {e : Int} (hn : n < 2 ^ 64)
    (h : 0 ≤ e → n * 10 ^ e.toNat ≤ safeLimit) : (scaled n e).isFinite = true := by
  unfold scaled
  simp only
  split
  · next hnonneg =>
    split
    · exact isFinite_toFloat hn
    · next hne =>
      have hpos : n ≠ 0 := by
        rintro rfl
        exact hne (by decide +kernel)
      have hpow : 10 ^ e.toNat ≤ safeLimit :=
        Nat.le_trans (Nat.le_mul_of_pos_left _ (Nat.pos_of_ne_zero hpos)) (h hnonneg)
      have hmax := lt_of_pow_le_safeLimit safeLimit_lt_pow hpow
      exact isFinite_mul (roundsTo_toFloat hpos hn) (roundsTo_powerOfTen (by omega)) (h hnonneg)
  · next hneg => exact isFinite_divideByTens (isFinite_toFloat hn) (by omega) (by omega)

end Intake.Binary64
