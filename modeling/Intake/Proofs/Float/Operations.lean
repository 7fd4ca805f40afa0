import Intake.Proofs.Float.Nearest
import Intake.Proofs.Float.Scaling

/-!
# Products and quotients of doubles

The product and the quotient of two doubles are the exact ones, rounded to the nearest double.  So
reading a decimal rounds once and no more if its digits make an integer that is a double, and the
power of ten is a double too: then the integer and the power are exact, and only their product or
quotient is rounded.  Integers up to `2 ^ 53` and powers of ten up to `10 ^ 22` are doubles, and
`toModel_scaled` is what follows for them.
-/

namespace Intake.Binary64

open Float.Model Float.Model.UnpackedFloat

/-! ## Exact values -/

/-- The double is finite and positive, and the number is its value. -/
def HasValue (x : Float) (q : ℚ) : Prop :=
  ∃ m e, ∃ h : IsDouble m e, x.toModel.unpack = .finite .positive m e h.pos ∧ (m : ℚ) * 2 ^ e = q

/-- A double lies in its own interval. -/
theorem inInterval_self (m : Nat) (e : Int) : InInterval m e (m * 2 ^ e) := by
  have hpos := two_zpow_pos e
  refine ⟨?_, ?_⟩
  · rw [mul_div_cancel_right₀ _ hpos.ne']
    refine ⟨by linarith, by linarith, ?_⟩
    rintro (heven | heven) <;> linarith
  · rintro rfl -
    exact mul_le_mul_of_nonneg_right (by norm_num) hpos.le

/-- What is rounded to a double is packed as the double. -/
theorem eq_pack_of_roundedTo {x : Float.Model} {u : UnpackedFloat} {s : Sign} {v : ℚ} {m : Nat}
    {e : Int} (hx : x = Float.Model.pack u) (h : RoundedTo s v u) (hd : IsDouble m e)
    (hv : InInterval m e v) : x = Float.Model.pack (.finite s m e hd.pos) := by
  rw [hx, h.eq_finite hd hv]

theorem hasValue_of_roundedTo {x : Float} {u : UnpackedFloat} {m : Nat} {e : Int}
    (hx : x.toModel = Float.Model.pack u) (h : RoundedTo .positive (m * 2 ^ e) u)
    (hd : IsDouble m e) : HasValue x (m * 2 ^ e) := by
  refine ⟨m, e, hd, ?_, rfl⟩
  rw [eq_pack_of_roundedTo hx h hd (inInterval_self m e), unpack_pack hd]

/-! ## Integers -/

/-- An integer of at most 53 bits, or the one after them, is a double. -/
theorem exists_isDouble {n : Nat} (hn : n ≠ 0) (h : n ≤ 2 ^ 53) :
    ∃ m e, IsDouble m e ∧ (m : ℚ) * 2 ^ e = n := by
  rcases h.lt_or_eq with hlt | rfl
  · have hlog : n.log2 ≤ 52 := Nat.lt_succ_iff.1 ((Nat.log2_lt hn).2 hlt)
    have hbits : (n * 2 ^ (52 - n.log2)).log2 = 52 := by
      rw [log2_mul_two_pow hn]
      omega
    have hne : n * 2 ^ (52 - n.log2) ≠ 0 := Nat.mul_ne_zero hn (Nat.two_pow_pos _).ne'
    obtain ⟨hlow, hhigh⟩ := (Nat.log2_eq_iff hne).1 hbits
    refine ⟨n * 2 ^ (52 - n.log2), -(52 - n.log2 : Nat), ?_, ?_⟩
    · refine ⟨Nat.pos_of_ne_zero hne, hhigh, ?_, ?_, .inl hlow⟩ <;> omega
    · rw [Nat.cast_mul, Nat.cast_pow, Nat.cast_ofNat, mul_assoc, pow_mul_zpow, add_neg_cancel,
        zpow_zero, mul_one]
  · refine ⟨2 ^ 52, 1, ⟨by decide, by decide, by decide, by decide, .inl le_rfl⟩, ?_⟩
    norm_num

/-- An integer is rounded to the nearest double, once enough zero bits are appended. -/
theorem roundedTo_natCast {n k : Nat} (hn : n ≠ 0) (hk : 52 ≤ n.log2 + k) (s : Sign) :
    RoundedTo s n (roundWithAccuracy .binary64 s (n * 2 ^ k) (-(k : Nat)) .exact) := by
  have hexact : (n : ℚ) / 2 ^ (-(k : Nat) : Int) = (n * 2 ^ k : Nat) := by
    rw [zpow_neg, zpow_natCast, div_inv_eq_mul]
    push_cast
    rfl
  refine roundedTo_roundWithAccuracy ?_ (.inl ?_) s
  · rw [hexact]
    exact represents_exact _
  · rwa [log2_mul_two_pow hn]

/-- A word becomes the nearest double. -/
theorem exists_roundedTo_toFloat {n : Nat} (hn : n ≠ 0) (hlt : n < 2 ^ 64) :
    ∃ u, (UInt64.ofNat n).toFloat.toModel = Float.Model.pack u ∧ RoundedTo .positive n u :=
  ⟨_, toModel_toFloat hn hlt, roundedTo_natCast hn (by omega) _⟩

/-- An integer that is a double becomes that double. -/
theorem hasValue_toFloat {n : Nat} (hn : n ≠ 0) (h : n ≤ 2 ^ 53) :
    HasValue (UInt64.ofNat n).toFloat n := by
  obtain ⟨m, e, hd, hvalue⟩ := exists_isDouble hn h
  obtain ⟨u, hmodel, hround⟩ := exists_roundedTo_toFloat hn (Nat.lt_of_le_of_lt h (by decide))
  rw [← hvalue] at hround ⊢
  exact hasValue_of_roundedTo hmodel hround hd

/-! ## Powers of ten -/

open Json

/-- An unpacked double of 53 bits whose value is the given natural number. -/
def IsExactly (n : Nat) : UnpackedFloat → Prop
  | .finite s m e _ => signValue s = 0 ∧ 2 ^ 52 ≤ m ∧ m < 2 ^ 53 ∧ -52 ≤ e ∧ e ≤ 971 ∧
      m * 2 ^ (e + 52).toNat = n * 2 ^ 52
  | .notANumber => False
  | .infinity _ => False
  | .zero _ => False

instance (n : Nat) : DecidablePred (IsExactly n)
  | .finite .. => inferInstanceAs (Decidable (_ ∧ _))
  | .notANumber => inferInstanceAs (Decidable False)
  | .infinity _ => inferInstanceAs (Decidable False)
  | .zero _ => inferInstanceAs (Decidable False)

theorem hasValue_of_isExactly {n : Nat} {x : Float} (h : IsExactly n x.toModel.unpack) :
    HasValue x n := by
  cases hx : x.toModel.unpack with
  | finite s m e hpos =>
    rw [hx] at h
    obtain ⟨hsign, hlow, hhigh, hleast, hmost, hvalue⟩ := h
    obtain rfl : s = .positive := signValue_injective hsign
    refine ⟨m, e, ⟨hpos, hhigh, by omega, hmost, .inl hlow⟩, hx, ?_⟩
    have hscaled : (m : ℚ) * 2 ^ (e + 52).toNat = n * 2 ^ 52 := by exact_mod_cast hvalue
    have hsplit : (2 : ℚ) ^ (e + 52).toNat = 2 ^ e * 2 ^ 52 := by
      rw [← zpow_natCast, Int.toNat_of_nonneg (by omega), zpow_add₀ two_ne_zero]
      norm_cast
    rw [hsplit, ← mul_assoc] at hscaled
    exact mul_right_cancel₀ (by norm_num) hscaled
  | notANumber | infinity | zero =>
    rw [hx] at h
    exact h.elim

/-- Powers of ten are exact as long as the power of five in them has at most 53 bits. -/
theorem hasValue_powerOfTen {k : Nat} (hk : k ≤ 22) : HasValue (powerOfTen k) (10 ^ k) := by
  have hpowers : ∀ k < 23, IsExactly (10 ^ k) (powerOfTen k).toModel.unpack := by decide +kernel
  have hvalue := hasValue_of_isExactly (hpowers k (by omega))
  rwa [Nat.cast_pow, Nat.cast_ofNat] at hvalue

/-! ## Products -/

/-- The exact product of two doubles is rounded to the nearest double, if one of them has 53
bits. -/
theorem roundedTo_mul {x y : UnpackedFloat} {s s' : Sign} {m m' : Nat} {e e' : Int} {h : 0 < m}
    {h' : 0 < m'} (hx : x = .finite s m e h) (hy : y = .finite s' m' e' h')
    (hbits : 2 ^ 52 ≤ m') :
    RoundedTo (s * s') (m * 2 ^ e * (m' * 2 ^ e')) (UnpackedFloat.mul .binary64 x y) := by
  have hlog : 52 ≤ (m * m').log2 :=
    (Nat.le_log2 (Nat.mul_pos h h').ne').2 (Nat.le_trans hbits (Nat.le_mul_of_pos_left m' h))
  have hexact : (m : ℚ) * 2 ^ e * (m' * 2 ^ e') / 2 ^ (e + e') = (m * m' : Nat) := by
    rw [zpow_add₀ two_ne_zero, div_eq_iff (by positivity)]
    push_cast
    ring
  rw [hx, hy, UnpackedFloat.mul]
  refine roundedTo_roundWithAccuracy ?_ (.inl hlog) _
  rw [hexact]
  exact represents_exact _

/-! ## Quotients -/

/-- The exact quotient of two doubles is rounded to the nearest double. -/
theorem roundedTo_div {x y : UnpackedFloat} {s s' : Sign} {m m' : Nat} {e e' : Int} {h : 0 < m}
    {h' : 0 < m'} (hx : x = .finite s m e h) (hy : y = .finite s' m' e' h') :
    RoundedTo (s / s') (m * 2 ^ e / (m' * 2 ^ e')) (UnpackedFloat.div .binary64 x y) := by
  rw [hx, hy, UnpackedFloat.div, divCore]
  simp only [targetExponent_binary64, totalExponent, Nat.shiftLeft_eq]
  generalize htarget : min (e - e')
    (max ((m.log2 : Int) + 1 + e - ((m'.log2 : Int) + 1 + e') - 53) (-1074)) = target
  obtain ⟨k, hk⟩ : ∃ k : Nat, e - e' - target = k := ⟨(e - e' - target).toNat, by omega⟩
  rw [hk, Int.toNat_natCast]
  have hm' : (m' : ℚ) ≠ 0 := by exact_mod_cast h'.ne'
  refine roundedTo_roundWithAccuracy ?_ ?_ _
  · -- the quotient of the significands, with the zeros that were appended
    have hquotient : (m : ℚ) * 2 ^ e / (m' * 2 ^ e') / 2 ^ target = (m * 2 ^ k : Nat) / m' := by
      have hexponent : e = target + e' + (k : Int) := by omega
      rw [hexponent, zpow_add₀ two_ne_zero, zpow_add₀ two_ne_zero, zpow_natCast]
      push_cast
      field_simp
    have hdivision : ((m * 2 ^ k : Nat) : ℚ) / m' =
        (m * 2 ^ k / m' : Nat) + (m * 2 ^ k % m' : Nat) / m' := by
      rw [div_eq_iff hm', add_mul, div_mul_cancel₀ _ hm']
      exact_mod_cast (Nat.div_add_mod' (m * 2 ^ k) m').symm
    rw [hquotient, hdivision]
    exact represents_accuracyOfFraction _ (Nat.mod_lt _ h')
  · by_cases hleast : target ≤ -1074
    · exact .inr hleast
    · -- enough zeros were appended for 53 bits of the quotient
      have hshift : 52 + (m'.log2 + 1) ≤ m.log2 + k := by omega
      have hlarge : 2 ^ 52 ≤ m * 2 ^ k / m' := by
        rw [Nat.le_div_iff_mul_le h']
        calc
          2 ^ 52 * m' ≤ 2 ^ 52 * 2 ^ (m'.log2 + 1) :=
            Nat.mul_le_mul_left _ Nat.lt_log2_self.le
          _ = 2 ^ (52 + (m'.log2 + 1)) := (Nat.pow_add 2 52 _).symm
          _ ≤ 2 ^ (m.log2 + k) := Nat.pow_le_pow_right two_pos hshift
          _ = 2 ^ m.log2 * 2 ^ k := Nat.pow_add 2 _ k
          _ ≤ m * 2 ^ k := Nat.mul_le_mul_right _ (Nat.log2_self_le h.ne')
      exact .inl ((Nat.le_log2 (Nat.zero_lt_of_lt hlarge).ne').2 hlarge)

/-! ## Products and quotients of positive doubles -/

/-- A double of at least one has 53 bits. -/
theorem two_pow_le_of_one_le {m : Nat} {e : Int} (hd : IsDouble m e) (h : (1 : ℚ) ≤ m * 2 ^ e) :
    2 ^ 52 ≤ m := by
  refine hd.normal.resolve_right fun hleast => ?_
  have hm : (m : ℚ) ≤ 2 ^ 53 := by exact_mod_cast hd.lt.le
  have hsmall : (m : ℚ) * 2 ^ e ≤ 2 ^ (((53 : ℕ) : Int) + e) := by
    rw [← pow_mul_zpow]
    exact mul_le_mul_of_nonneg_right hm (two_zpow_pos e).le
  have hlarge := h.trans hsmall
  rw [hleast, ← zpow_zero (2 : ℚ), zpow_le_zpow_iff_right₀ one_lt_two] at hlarge
  omega

/-- A positive double times one of at least one is the exact product, rounded. -/
theorem HasValue.exists_roundedTo_mul {x y : Float} {a b : ℚ} (hx : HasValue x a)
    (hy : HasValue y b) (hb : 1 ≤ b) :
    ∃ u, (x * y).toModel = Float.Model.pack u ∧ RoundedTo .positive (a * b) u := by
  obtain ⟨m, e, hd, hunpack, rfl⟩ := hx
  obtain ⟨m', e', hd', hunpack', rfl⟩ := hy
  exact ⟨_, rfl, roundedTo_mul hunpack hunpack' (two_pow_le_of_one_le hd' hb)⟩

/-- A positive double divided by another is the exact quotient, rounded. -/
theorem HasValue.exists_roundedTo_div {x y : Float} {a b : ℚ} (hx : HasValue x a)
    (hy : HasValue y b) :
    ∃ u, (x / y).toModel = Float.Model.pack u ∧ RoundedTo .positive (a / b) u := by
  obtain ⟨m, e, hd, hunpack, rfl⟩ := hx
  obtain ⟨m', e', hd', hunpack', rfl⟩ := hy
  exact ⟨_, rfl, roundedTo_div hunpack hunpack'⟩

/-! ## Reading a decimal -/

/-- A positive double is not zero. -/
theorem HasValue.beq_zero {x : Float} {q : ℚ} (h : HasValue x q) : (x == 0) = false := by
  obtain ⟨m, e, hd, hx, -⟩ := h
  have hzero : (0 : Float).toModel.unpack = .zero .positive := rfl
  show UnpackedFloat.beq x.toModel.unpack (0 : Float).toModel.unpack = false
  rw [hx, hzero]
  rfl

/-- Up to `10 ^ 308` there is one division. -/
theorem divideByTens_of_le {rounds k : Nat} {f : Float} (hk : k ≤ 308) :
    divideByTens rounds f k = f / powerOfTen k := by
  cases rounds with
  | zero => rfl
  | succ rounds => rw [divideByTens, if_pos (.inl hk), Nat.min_eq_left hk]

theorem scaled_natCast {n k : Nat} (h : ((UInt64.ofNat n).toFloat == 0) = false) :
    scaled n k = (UInt64.ofNat n).toFloat * powerOfTen k := by
  rw [scaled, if_pos (Int.natCast_nonneg k), h, if_neg Bool.false_ne_true, Int.toNat_natCast]

theorem scaled_neg {n k : Nat} (hk : 0 < k) :
    scaled n (-(k : Int)) = divideByTens (k / 308) (UInt64.ofNat n).toFloat k := by
  rw [scaled, if_neg (by omega), Int.natAbs_neg, Int.natAbs_natCast]

/-- **Reading a decimal.**  A number is read as the double it lies next to, if the integer and the
power of ten that it is scaled from are doubles. -/
theorem toModel_scaled {n : Nat} {places : Int} {m : Nat} {e : Int} (hn : n ≠ 0)
    (hmax : n ≤ 2 ^ 53) (hplaces : places.natAbs ≤ 22) (hd : IsDouble m e)
    (hv : InInterval m e (n * 10 ^ places)) :
    (scaled n places).toModel = Float.Model.pack (.finite .positive m e hd.pos) := by
  have hinteger := hasValue_toFloat hn hmax
  rcases le_or_gt 0 places with hsign | hsign
  · obtain ⟨k, rfl⟩ := Int.eq_ofNat_of_zero_le hsign
    have hpower := hasValue_powerOfTen (k := k) (by omega)
    obtain ⟨u, hmodel, hround⟩ := hinteger.exists_roundedTo_mul hpower (one_le_pow₀ (by norm_num))
    rw [scaled_natCast hinteger.beq_zero]
    rw [zpow_natCast] at hv
    exact eq_pack_of_roundedTo hmodel hround hd hv
  · obtain ⟨k, rfl⟩ : ∃ k : Nat, places = -(k : Int) := ⟨places.natAbs, by omega⟩
    have hpower := hasValue_powerOfTen (k := k) (by omega)
    obtain ⟨u, hmodel, hround⟩ := hinteger.exists_roundedTo_div hpower
    rw [scaled_neg (by omega), divideByTens_of_le (by omega)]
    rw [zpow_neg, zpow_natCast, ← div_eq_mul_inv] at hv
    exact eq_pack_of_roundedTo hmodel hround hd hv

end Intake.Binary64
