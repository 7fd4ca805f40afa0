import Intake.Proofs.Float.Rounding

/-!
# Rounding to the nearest double

An operation on doubles computes a significand and two residual bits that together say where the
exact result lies, `Represents`, and rounds it to a multiple of the place that its size calls for.
The multiple is the nearest one, the even one in the middle, `IsNearest`, and the place is the one
that leaves 53 bits, `HasPlace`.  `RoundedTo` is what comes of it: the multiple itself, zero, or the
next power of two.

Which doubles a number is rounded to can be asked the other way round.  A double is what every
number in its interval is rounded to, `RoundedTo.eq_finite`.  The interval of a power of two reaches
only half as far down as up, since below it the doubles lie twice as close.
-/

namespace Intake.Binary64

open Float.Model Float.Model.UnpackedFloat

/-! ## Residual bits -/

/-- A significand with its round bit, which counts for a half. -/
def halves (em : ExtendedMantissa) : ℚ := em.mantissa + if em.roundBit then 1 / 2 else 0

/-- A number lies where a significand and its residual bits say: it has reached the half that the
round bit tells and not the next one, and the sticky bit tells whether it lies beyond. -/
structure Represents (em : ExtendedMantissa) (v : ℚ) : Prop where
  le : halves em ≤ v
  lt : v < halves em + 1 / 2
  sticky : em.stickyBit = false ↔ v = halves em

variable {em : ExtendedMantissa} {v : ℚ}

theorem le_halves (em : ExtendedMantissa) : (em.mantissa : ℚ) ≤ halves em := by
  unfold halves
  split <;> norm_num

theorem halves_le (em : ExtendedMantissa) : halves em ≤ em.mantissa + 1 / 2 := by
  unfold halves
  split <;> norm_num

theorem halves_eq_mantissa_iff (em : ExtendedMantissa) :
    halves em = em.mantissa ↔ em.roundBit = false := by
  unfold halves
  split
  · next h => simp [h]
  · next h => simp [h]

theorem halves_shiftRightOne (em : ExtendedMantissa) :
    halves em.shiftRightOne = em.mantissa / 2 := by
  have hmod : (em.mantissa : ℚ) = 2 * (em.mantissa / 2 : ℕ) + (em.mantissa % 2 : ℕ) := by
    exact_mod_cast (Nat.div_add_mod em.mantissa 2).symm
  have hbit : em.shiftRightOne.roundBit = (em.mantissa % 2 != 0) := rfl
  have hmantissa : em.shiftRightOne.mantissa = em.mantissa / 2 := rfl
  rw [halves, hbit, hmantissa, hmod]
  rcases Nat.mod_two_eq_zero_or_one em.mantissa with h | h
  · rw [h, if_neg (by decide)]
    norm_num
  · rw [h, if_pos (by decide)]
    ring

/-- Shifting halves the number, and no information on it is lost. -/
theorem Represents.shiftRightOne (h : Represents em v) : Represents em.shiftRightOne (v / 2) := by
  have hlow := le_halves em
  have hhigh := halves_le em
  have hle := h.le
  have hlt := h.lt
  have hexact : v = em.mantissa ↔ em.roundBit = false ∧ em.stickyBit = false := by
    rw [h.sticky, ← halves_eq_mantissa_iff]
    constructor
    · intro hv
      exact ⟨by linarith, by linarith⟩
    · rintro ⟨hm, hv⟩
      rw [hv, hm]
  refine ⟨?_, ?_, ?_⟩
  · rw [halves_shiftRightOne]
    linarith
  · rw [halves_shiftRightOne]
    linarith
  · rw [halves_shiftRightOne, div_left_inj' two_ne_zero, hexact]
    exact Bool.or_eq_false_iff

theorem Represents.shiftRight (h : Represents em v) (k : Nat) :
    Represents (em >>> k) (v / 2 ^ k) := by
  induction k with
  | zero => rwa [shiftRight_zero, pow_zero, div_one]
  | succ k ih =>
    rw [shiftRight_succ, pow_succ, ← div_div]
    exact ih.shiftRightOne

/-- An exact significand represents itself. -/
theorem represents_exact (m : Nat) :
    Represents (ExtendedMantissa.ofMantissaAndAccuracy m .exact) m := by
  have hhalves : halves (ExtendedMantissa.ofMantissaAndAccuracy m .exact) = m := add_zero _
  refine ⟨hhalves.le, ?_, iff_of_true rfl hhalves.symm⟩
  rw [hhalves]
  norm_num

/-- The accuracy of a quotient tells where the quotient lies. -/
theorem represents_accuracyOfFraction (m : Nat) {num den : Nat} (h : num < den) :
    Represents (ExtendedMantissa.ofMantissaAndAccuracy m (accuracyOfFraction num den))
      (m + num / den) := by
  have hden : (0 : ℚ) < den := by exact_mod_cast Nat.zero_lt_of_lt h
  rw [accuracyOfFraction]
  split
  · next hzero =>
    rw [hzero, Nat.cast_zero, zero_div, add_zero]
    exact represents_exact m
  next hpos =>
  have hnum : (0 : ℚ) < num := by exact_mod_cast Nat.pos_of_ne_zero hpos
  have hlt : (num : ℚ) / den < 1 := (div_lt_one hden).2 (by exact_mod_cast h)
  have hgt : (0 : ℚ) < num / den := div_pos hnum hden
  rcases Nat.lt_trichotomy (2 * num) den with hless | hhalf | hmore
  · have hbelow : (num : ℚ) / den < 1 / 2 := by
      rw [div_lt_div_iff₀ hden two_pos, one_mul, mul_comm]
      exact_mod_cast hless
    have hhalves : halves ⟨m, false, true⟩ = m := add_zero _
    rw [Nat.compare_eq_lt.2 hless]
    refine ⟨hhalves.trans_le (by linarith), hhalves.symm ▸ by linarith,
      iff_of_false Bool.false_ne_true.symm fun hv => ?_⟩
    have hv := hv.trans hhalves
    linarith
  · have hmiddle : (num : ℚ) / den = 1 / 2 := by
      rw [div_eq_div_iff hden.ne' two_ne_zero, one_mul, mul_comm]
      exact_mod_cast hhalf
    rw [Nat.compare_eq_eq.2 hhalf, hmiddle]
    refine ⟨le_rfl, ?_, iff_of_true rfl rfl⟩
    show (m : ℚ) + 1 / 2 < m + 1 / 2 + 1 / 2
    linarith
  · have habove : 1 / 2 < (num : ℚ) / den := by
      rw [div_lt_div_iff₀ two_pos hden, one_mul, mul_comm]
      exact_mod_cast hmore
    have hhalves : halves ⟨m, true, true⟩ = m + 1 / 2 := rfl
    rw [Nat.compare_eq_gt.2 hmore]
    refine ⟨hhalves.trans_le (by linarith), hhalves.symm ▸ by linarith,
      iff_of_false Bool.false_ne_true.symm fun hv => ?_⟩
    have hv := hv.trans hhalves
    linarith

/-! ## The nearest integer -/

/-- The integer is the nearest one, and the even one if the number lies in the middle. -/
structure IsNearest (v : ℚ) (r : Nat) : Prop where
  le : (r : ℚ) ≤ v + 1 / 2
  ge : v - 1 / 2 ≤ r
  even : (r : ℚ) = v + 1 / 2 ∨ (r : ℚ) = v - 1 / 2 → r % 2 = 0

theorem IsNearest.unique {r r' : Nat} (h : IsNearest v r) (h' : IsNearest v r') : r = r' := by
  -- of two nearest integers the number is the middle, and then both are even
  suffices hle : ∀ {a b : Nat}, IsNearest v a → IsNearest v b → a ≤ b from
    Nat.le_antisymm (hle h h') (hle h' h)
  intro a b ha hb
  by_contra hlt
  have hnext : (b : ℚ) + 1 ≤ a := by exact_mod_cast Nat.not_le.1 hlt
  have hale := ha.le
  have hbge := hb.ge
  have haeven := ha.even (.inl (by linarith))
  have hbeven := hb.even (.inr (by linarith))
  have hsucc : a = b + 1 := by
    have : (a : ℚ) = b + 1 := by linarith
    exact_mod_cast this
  omega

theorem IsNearest.le_of_le {r k : Nat} (h : IsNearest v r) (hv : v ≤ k) : r ≤ k := by
  have hlt : (r : ℚ) < (k + 1 : ℕ) := by
    push_cast
    linarith [h.le]
  exact Nat.lt_succ_iff.1 (Nat.cast_lt.1 hlt)

theorem IsNearest.ge_of_le {r k : Nat} (h : IsNearest v r) (hv : k ≤ v) : k ≤ r := by
  have hlt : (k : ℚ) < (r + 1 : ℕ) := by
    push_cast
    linarith [h.ge]
  exact Nat.lt_succ_iff.1 (Nat.cast_lt.1 hlt)

/-- Rounding a significand gives the nearest integer. -/
theorem isNearest_roundedMantissa (h : Represents em v) : IsNearest v em.roundedMantissa := by
  obtain ⟨m, round, sticky⟩ := em
  obtain ⟨hle, hlt, hexact⟩ := h
  cases round with
  | false =>
    have hrounded : ExtendedMantissa.roundedMantissa ⟨m, false, sticky⟩ = m := by
      cases sticky <;> rfl
    have hhalves : halves ⟨m, false, sticky⟩ = m := add_zero _
    rw [hhalves] at hle hlt
    rw [hrounded]
    refine ⟨by linarith, by linarith, ?_⟩
    rintro (heven | heven) <;> linarith
  | true =>
    have hhalves : halves ⟨m, true, sticky⟩ = m + 1 / 2 := rfl
    rw [hhalves] at hle hlt hexact
    cases sticky with
    | false =>
      have hv := hexact.1 rfl
      have hrounded : ExtendedMantissa.roundedMantissa ⟨m, true, false⟩ = m + m % 2 := rfl
      rw [hrounded, hv]
      refine ⟨?_, ?_, fun _ => by omega⟩ <;>
        rcases Nat.mod_two_eq_zero_or_one m with hmod | hmod <;> rw [hmod] <;> push_cast <;>
          linarith
    | true =>
      have hne : v ≠ m + 1 / 2 := fun hv => Bool.false_ne_true.symm (hexact.2 hv)
      have hgt : m + 1 / 2 < v := lt_of_le_of_ne hle hne.symm
      have hrounded : ExtendedMantissa.roundedMantissa ⟨m, true, true⟩ = m + 1 := rfl
      rw [hrounded]
      refine ⟨?_, ?_, ?_⟩
      · push_cast
        linarith
      · push_cast
        linarith
      · rintro (heven | heven) <;> push_cast at heven <;> linarith

/-! ## The place of a number -/

/-- The least place of a double for a number of the given size: 53 bits reach from the place to the
number, unless that is the place of the least doubles. -/
structure HasPlace (v : ℚ) (e : Int) : Prop where
  le_exponent : -1074 ≤ e
  lt : v < 2 ^ 53 * 2 ^ e
  le : -1074 < e → 2 ^ 52 * 2 ^ e ≤ v

theorem two_zpow_pos (e : Int) : (0 : ℚ) < 2 ^ e := zpow_pos two_pos e

theorem two_zpow_succ (e : Int) : (2 : ℚ) ^ (e + 1) = 2 * 2 ^ e := by
  rw [zpow_add_one₀ two_ne_zero, mul_comm]

theorem lt_of_two_zpow_lt {i j : Int} (h : (2 : ℚ) ^ i < 2 ^ j) : i < j :=
  (zpow_lt_zpow_iff_right₀ one_lt_two).1 h

theorem pow_mul_zpow (k : Nat) (e : Int) : (2 : ℚ) ^ k * 2 ^ e = 2 ^ (k + e) := by
  rw [zpow_add₀ two_ne_zero, zpow_natCast]

/-- The significand that a number is shifted to has the place that its size calls for, if there
were enough bits before. -/
theorem hasPlace_shiftAmount {m : Nat} {e : Int} {a : Accuracy}
    (h : Represents (ExtendedMantissa.ofMantissaAndAccuracy m a) (v / 2 ^ e))
    (hbits : 52 ≤ m.log2 ∨ e ≤ -1074) : HasPlace v (e + shiftAmount m e) := by
  have hplace : e + shiftAmount m e = max (m.log2 + e - 52) (-1074) := by
    rw [shiftAmount]
    omega
  have hlow := (le_halves _).trans h.le
  have hhigh := h.lt.trans_le (add_le_add_left (halves_le _) (1 / 2))
  rw [mantissa_ofMantissaAndAccuracy, le_div_iff₀ (two_zpow_pos e)] at hlow
  rw [mantissa_ofMantissaAndAccuracy, div_lt_iff₀ (two_zpow_pos e)] at hhigh
  refine ⟨le_add_shiftAmount m e, ?_, fun hgt => ?_⟩
  · have hpow : (m : ℚ) + 1 / 2 + 1 / 2 ≤ 2 ^ (m.log2 + 1) := by
      have hsucc : ((m + 1 : ℕ) : ℚ) ≤ (2 ^ (m.log2 + 1) : ℕ) := by
        exact_mod_cast Nat.succ_le_of_lt (Nat.lt_log2_self (n := m))
      push_cast at hsucc
      linarith
    calc
      v < (m + 1 / 2 + 1 / 2) * 2 ^ e := hhigh
      _ ≤ 2 ^ (m.log2 + 1) * 2 ^ e := mul_le_mul_of_nonneg_right hpow (two_zpow_pos e).le
      _ = 2 ^ (((m.log2 + 1 : ℕ) : Int) + e) := pow_mul_zpow _ _
      _ ≤ 2 ^ (((53 : ℕ) : Int) + (e + shiftAmount m e)) :=
        zpow_le_zpow_right₀ one_le_two (by omega)
      _ = 2 ^ 53 * 2 ^ (e + shiftAmount m e) := (pow_mul_zpow _ _).symm
  · have hne : m ≠ 0 := by
      rintro rfl
      have hlog : Nat.log2 0 = 0 := by decide
      omega
    have hpow : (2 : ℚ) ^ m.log2 ≤ m := by exact_mod_cast Nat.log2_self_le hne
    calc
      (2 : ℚ) ^ 52 * 2 ^ (e + shiftAmount m e)
        = 2 ^ m.log2 * 2 ^ e := by
        rw [pow_mul_zpow, pow_mul_zpow]
        congr 1
        omega
      _ ≤ m * 2 ^ e := mul_le_mul_of_nonneg_right hpow (two_zpow_pos e).le
      _ ≤ v := hlow

/-! ## Rounding -/

/-- A multiple of a place as an unpacked double: a multiple of 53 bits or fewer, the power of two
after them, or zero. -/
def atPlace (s : Sign) (r : Nat) (e : Int) : UnpackedFloat :=
  if h : 0 < r then
    if r < 2 ^ 53 then .finite s r e h else .finite s (2 ^ 52) (e + 1) (by decide)
  else .zero s

/-- An unpacked double that a positive number is rounded to. -/
inductive RoundedTo (s : Sign) (v : ℚ) : UnpackedFloat → Prop
  | intro {e : Int} {r : Nat} (place : HasPlace v e) (nearest : IsNearest (v / 2 ^ e) r) :
      RoundedTo s v (atPlace s r e)

/-- A significand that represents a number is rounded to the nearest double. -/
theorem roundedTo_roundWithAccuracy {m : Nat} {e : Int} {a : Accuracy}
    (h : Represents (ExtendedMantissa.ofMantissaAndAccuracy m a) (v / 2 ^ e))
    (hbits : 52 ≤ m.log2 ∨ e ≤ -1074) (s : Sign) :
    RoundedTo s v (roundWithAccuracy .binary64 s m e a) := by
  have hnearest := isNearest_roundedMantissa (h.shiftRight (shiftAmount m e))
  rw [div_div, mul_comm, pow_mul_zpow, add_comm] at hnearest
  have hplace := RoundedTo.intro (s := s) (hasPlace_shiftAmount h hbits) hnearest
  rcases roundWithAccuracy_cases s m e a with ⟨hr, hround⟩ | ⟨hpos, hlt, hround⟩ | ⟨hr, hround⟩
  · rwa [hr, atPlace, dif_neg (Nat.lt_irrefl 0), ← hround] at hplace
  · rwa [atPlace, dif_pos hpos, if_pos hlt, ← hround] at hplace
  · rwa [hr, atPlace, dif_pos (by decide), if_neg (by decide), ← hround] at hplace

/-- The numbers that are rounded to a double: it is a nearest multiple of its place, and if it is a
power of two the numbers below are nearer to it than to the next double, which lies half a place
away. -/
structure InInterval (m : Nat) (e : Int) (v : ℚ) : Prop where
  nearest : IsNearest (v / 2 ^ e) m
  close_below : m = 2 ^ 52 → -1074 < e → (2 ^ 52 - 1 / 4) * 2 ^ e ≤ v

theorem InInterval.half_place_le {m : Nat} {e : Int} (hv : InInterval m e v) (hd : IsDouble m e) :
    2 ^ e / 2 ≤ v := by
  have hm : (1 : ℚ) ≤ m := by exact_mod_cast hd.pos
  have hquotient : 1 / 2 ≤ v / 2 ^ e := by linarith [hv.nearest.le]
  rw [le_div_iff₀ (two_zpow_pos e)] at hquotient
  linarith

theorem InInterval.lt {m : Nat} {e : Int} (hv : InInterval m e v) (hd : IsDouble m e) :
    v < 2 ^ 53 * 2 ^ e := by
  have hm : (m : ℚ) + 1 ≤ 2 ^ 53 := by exact_mod_cast hd.lt
  rw [← div_lt_iff₀ (two_zpow_pos e)]
  linarith [hv.nearest.ge]

/-- A decimal in the interval of a double has a digit that is not zero. -/
theorem InInterval.ne_zero {m n : Nat} {e places : Int} (hv : InInterval m e (n * 10 ^ places))
    (hd : IsDouble m e) : n ≠ 0 := by
  rintro rfl
  have hpos := (half_pos (two_zpow_pos e)).trans_le (hv.half_place_le hd)
  rw [Nat.cast_zero, zero_mul] at hpos
  exact lt_irrefl _ hpos

/-- The place of a number in the interval of a double is that of the double, or the one below it if
the double is a power of two. -/
theorem InInterval.place_cases {m : Nat} {e e' : Int} (hv : InInterval m e v) (hd : IsDouble m e)
    (hplace : HasPlace v e') : e' = e ∨ e' = e - 1 ∧ m = 2 ^ 52 ∧ -1074 < e := by
  have hle := hv.nearest.le
  have hge := hv.nearest.ge
  have hpos := two_zpow_pos e
  have hlow := hd.le_exponent
  have hlow' := hplace.le_exponent
  have hupper := hv.lt hd
  have hmost : e' ≤ e := by
    by_contra hlt
    have hpow := (hplace.le (by omega)).trans_lt hupper
    rw [pow_mul_zpow, pow_mul_zpow] at hpow
    have := lt_of_two_zpow_lt hpow
    omega
  rcases hd.normal with hnormal | hleast
  swap
  · exact .inl (by omega)
  rcases hmost.lt_or_eq with hlt | heq
  swap
  · exact .inl heq
  -- below the power of two, so the double is that power
  have hbelow : v < 2 ^ 52 * 2 ^ e := by
    refine hplace.lt.trans_le ?_
    rw [pow_mul_zpow, pow_mul_zpow]
    exact zpow_le_zpow_right₀ one_le_two (by omega)
  have hquotient : v / 2 ^ e < 2 ^ 52 := (div_lt_iff₀ hpos).2 hbelow
  have hpower : m = 2 ^ 52 :=
    Nat.le_antisymm (hv.nearest.le_of_le (by exact_mod_cast hquotient.le)) hnormal
  refine .inr ⟨?_, hpower, by omega⟩
  have hclose := hv.close_below hpower (by omega)
  have hpow : (2 : ℚ) ^ 51 * 2 ^ e < 2 ^ 53 * 2 ^ e' := by
    refine lt_of_lt_of_le' hplace.lt (le_trans ?_ hclose)
    exact mul_le_mul_of_nonneg_right (by norm_num) hpos.le
  rw [pow_mul_zpow, pow_mul_zpow] at hpow
  have := lt_of_two_zpow_lt hpow
  omega

/-- **Rounding.**  A number in the interval of a double is rounded to the double. -/
theorem RoundedTo.eq_finite {s : Sign} {u : UnpackedFloat} {m : Nat} {e : Int}
    (h : RoundedTo s v u) (hd : IsDouble m e) (hv : InInterval m e v) :
    u = .finite s m e hd.pos := by
  obtain @⟨e', r, hplace, hnearest⟩ := h
  rcases hv.place_cases hd hplace with rfl | ⟨rfl, rfl, hgt⟩
  · obtain rfl := hnearest.unique hv.nearest
    rw [atPlace, dif_pos hd.pos, if_pos hd.lt]
  · -- the nearest multiple of the place below is the power of two
    have hscale : v / 2 ^ (e - 1) = 2 * (v / 2 ^ e) := by
      rw [zpow_sub_one₀ two_ne_zero]
      field_simp
    have hclose := hv.close_below rfl hgt
    rw [← le_div_iff₀ (two_zpow_pos e)] at hclose
    have hlt := hplace.lt
    rw [← div_lt_iff₀ (two_zpow_pos _)] at hlt
    rw [hscale] at hnearest hlt
    have hr : r = 2 ^ 53 := by
      have hge := hnearest.ge
      have hmost : r ≤ 2 ^ 53 := hnearest.le_of_le (by exact_mod_cast hlt.le)
      have hleast : (2 : ℚ) ^ 53 - 1 ≤ r := by linarith
      have hleast : 2 ^ 53 ≤ r + 1 := by exact_mod_cast sub_le_iff_le_add.1 hleast
      have hodd : r ≠ 2 ^ 53 - 1 := by
        rintro rfl
        have heven := hnearest.even (.inr ?_)
        · exact absurd heven (by decide)
        · rw [Nat.cast_sub (by decide)] at hge ⊢
          push_cast at hge ⊢
          linarith
      omega
    rw [hr, atPlace, dif_pos (by decide), if_neg (by decide)]
    congr 1
    omega

end Intake.Binary64
