import Intake.Decimal.Shortest
import Mathlib.Algebra.Order.Field.Power
import Mathlib.Data.List.TakeWhile
import Mathlib.Data.Rat.Cast.Order
import Mathlib.Tactic.FieldSimp
import Mathlib.Tactic.Linarith
import Mathlib.Tactic.Ring

/-!
# What the shortest decimal of a double is

The shortest decimal is found on a grid, and it is a number that rounds to the double, `Contains`.
A point that the search stops at was compared with the ends of the interval of the double, and an
end counts if the significand is even.  The search need not stop before the last grid, and the point
that is taken there is not compared with anything; but that grid is finer than a quarter of a binary
place, because the double lies at or above the power of ten from which the search began, so the
point just below the double is in its interval as well.

`shortest_spec` is the result: the digits are those of a positive number, without a zero in front,
and the decimal is in the interval of the double.
-/

namespace Intake.Decimal

/-! ## Values of digits -/

theorem valueFrom_eq (n : Nat) (ds : List Nat) :
    valueFrom n ds = n * 10 ^ ds.length + value ds := by
  induction ds generalizing n with
  | nil => simp [value]
  | cons d ds ih =>
    rw [value, valueFrom_cons, valueFrom_cons, ih (10 * n + d), ih (10 * 0 + d), List.length_cons]
    ring

theorem value_cons (d : Nat) (ds : List Nat) : value (d :: ds) = d * 10 ^ ds.length + value ds := by
  rw [value, valueFrom_cons, valueFrom_eq, Nat.mul_zero, Nat.zero_add]

theorem value_append (ds es : List Nat) :
    value (ds ++ es) = value ds * 10 ^ es.length + value es := by
  rw [value, valueFrom, List.foldl_append]
  exact valueFrom_eq (value ds) es

@[simp] theorem value_replicate_zero (k : Nat) : value (List.replicate k 0) = 0 := by
  induction k with
  | zero => rfl
  | succ k ih => rw [List.replicate_succ, value_cons, ih, Nat.zero_mul]

@[simp] theorem value_zeros_append (k : Nat) (ds : List Nat) :
    value (List.replicate k 0 ++ ds) = value ds := by
  rw [value_append, value_replicate_zero, Nat.zero_mul, Nat.zero_add]

@[simp] theorem value_append_zeros (ds : List Nat) (k : Nat) :
    value (ds ++ List.replicate k 0) = value ds * 10 ^ k := by
  rw [value_append, value_replicate_zero, List.length_replicate, Nat.add_zero]

theorem value_lt {ds : List Nat} (h : ∀ d ∈ ds, d < 10) : value ds < 10 ^ ds.length := by
  induction ds with
  | nil => decide
  | cons d ds ih =>
    obtain ⟨hd, hds⟩ := List.forall_mem_cons.1 h
    have ih := ih hds
    rw [value_cons, List.length_cons, Nat.pow_succ]
    nlinarith

theorem pow_le_value {ds : List Nat} (hne : ds ≠ []) (hhead : ds.head? ≠ some 0) :
    10 ^ (ds.length - 1) ≤ value ds := by
  obtain ⟨d, ds, rfl⟩ := List.exists_cons_of_ne_nil hne
  have hd : 1 ≤ d := Nat.one_le_iff_ne_zero.2 fun hd => hhead (by rw [hd, List.head?_cons])
  rw [value_cons, List.length_cons, Nat.add_sub_cancel]
  exact Nat.le_trans (Nat.le_mul_of_pos_left _ hd) (Nat.le_add_right _ _)

theorem lt_pow_length_digits (n : Nat) : n < 10 ^ (digits n).length := by
  have h : value (digits n) < _ := value_lt fun d hd => lt_ten_of_mem_digits hd
  rwa [value_digits] at h

theorem pow_length_digits_le {n : Nat} (hn : n ≠ 0) : 10 ^ ((digits n).length - 1) ≤ n := by
  have h := pow_le_value (digits_ne_nil n) (head?_digits_ne hn)
  rwa [value_digits] at h

theorem length_digits {n k : Nat} (hlow : 10 ^ k ≤ n) (hhigh : n < 10 ^ (k + 1)) :
    (digits n).length = k + 1 := by
  have hne : n ≠ 0 := (Nat.lt_of_lt_of_le (Nat.pow_pos (by decide)) hlow).ne'
  have hmost := Nat.lt_of_le_of_lt hlow (lt_pow_length_digits n)
  have hleast := Nat.lt_of_le_of_lt (pow_length_digits_le hne) hhigh
  rw [Nat.pow_lt_pow_iff_right (by decide)] at hmost hleast
  omega

/-! ## Decimals -/

namespace Scientific

/-- The number that a decimal is. -/
def toRat (x : Scientific) : ℚ := value x.digits * 10 ^ (x.exponent + 1 - x.digits.length)

/-- There is a digit, and no zero stands in front. -/
structure IsProper (x : Scientific) : Prop where
  ne_nil : x.digits ≠ []
  lt_ten : ∀ d ∈ x.digits, d < 10
  head_ne : x.digits.head? ≠ some 0

end Scientific

namespace Dyadic

/-- Only zeros are removed. -/
theorem exists_eq_dropFinalZeros (ds : List Nat) :
    ∃ k, ds = dropFinalZeros ds ++ List.replicate k 0 := by
  have hzeros : ds.reverse.takeWhile (· == 0) =
      List.replicate (ds.reverse.takeWhile (· == 0)).length 0 := by
    refine List.eq_replicate_length.2 fun d hd => ?_
    simpa using List.mem_takeWhile_imp hd
  refine ⟨(ds.reverse.takeWhile (· == 0)).length, ?_⟩
  have hsplit := congrArg List.reverse (List.takeWhile_append_dropWhile (p := (· == 0))
    (l := ds.reverse))
  rw [List.reverse_append, List.reverse_reverse, hzeros, List.reverse_replicate] at hsplit
  exact hsplit.symm

@[simp] theorem toRat_scientific (n : Nat) (p : Int) : (scientific n p).toRat = n * 10 ^ p := by
  obtain ⟨k, hk⟩ := exists_eq_dropFinalZeros (digits n)
  have hlength : ((digits n).length : Int) = (dropFinalZeros (digits n)).length + k := by
    have h := congrArg List.length hk
    rw [List.length_append, List.length_replicate] at h
    omega
  have hvalue : (n : ℚ) = value (dropFinalZeros (digits n)) * 10 ^ k := by
    have h := congrArg value hk
    rw [value_digits, value_append_zeros] at h
    exact_mod_cast h
  rw [Scientific.toRat, scientific, hvalue, hlength, mul_assoc, ← zpow_natCast (10 : ℚ) k,
    ← zpow_add₀ (by norm_num)]
  congr 2
  ring

theorem isProper_scientific {n : Nat} (hn : n ≠ 0) (p : Int) : (scientific n p).IsProper := by
  obtain ⟨k, hk⟩ := exists_eq_dropFinalZeros (digits n)
  have hne : dropFinalZeros (digits n) ≠ [] := by
    intro hnil
    rw [hnil, List.nil_append] at hk
    have hvalue := congrArg value hk
    rw [value_digits, value_replicate_zero] at hvalue
    exact hn hvalue
  refine ⟨hne, fun d hd => ?_, ?_⟩
  · refine lt_ten_of_mem_digits (n := n) ?_
    rw [hk]
    exact List.mem_append_left _ hd
  · have hhead := head?_digits_ne hn
    rwa [hk, List.head?_append_of_ne_nil _ hne] at hhead

/-! ## Intervals -/

/-- The lower end of the reals that round to a double. -/
def lowerEnd (x : Dyadic) : ℚ :=
  (4 * x.significand - if x.closeBelow then 1 else 2) * 2 ^ (x.exponent - 2)

/-- The upper end of the reals that round to a double. -/
def upperEnd (x : Dyadic) : ℚ := (4 * x.significand + 2) * 2 ^ (x.exponent - 2)

/-- The number is one of the reals that round to a double; the ends are if the significand is
even. -/
structure Contains (x : Dyadic) (v : ℚ) : Prop where
  ge : x.lowerEnd ≤ v
  le : v ≤ x.upperEnd
  even : v = x.lowerEnd ∨ v = x.upperEnd → x.significand % 2 = 0

variable {tie : Tie} {x : Dyadic} {p : Int}

theorem lowerEnd_pos (hx : 0 < x.significand) : 0 < x.lowerEnd := by
  have hone : (1 : ℚ) ≤ x.significand := by exact_mod_cast hx
  refine mul_pos ?_ (zpow_pos two_pos _)
  split <;> linarith

/-! ## Grids -/

theorem gridScale_pos (x : Dyadic) (p : Int) : 0 < x.gridScale p :=
  Nat.mul_pos (Nat.pow_pos (by decide)) (Nat.pow_pos (by decide))

theorem gridUnit_pos (x : Dyadic) (p : Int) : 0 < x.gridUnit p :=
  Nat.mul_pos (Nat.pow_pos (by decide)) (Nat.pow_pos (by decide))

theorem zpow_mul_pow_toNat_neg {a : ℚ} (ha : a ≠ 0) (z : Int) :
    a ^ z * a ^ (-z).toNat = a ^ z.toNat := by
  rw [← zpow_natCast, ← zpow_natCast, ← zpow_add₀ ha]
  congr 1
  omega

/-- The common scale of a grid: a power of ten and a quarter of a binary place, both enlarged by the
same factor. -/
theorem exists_gridFactor (x : Dyadic) (p : Int) :
    ∃ c : ℚ, 0 < c ∧ (x.gridUnit p : ℚ) = 10 ^ p * c ∧
      (x.gridScale p : ℚ) = 2 ^ (x.exponent - 2) * c := by
  have hneg : (2 - x.exponent).toNat = (-(x.exponent - 2)).toNat := by omega
  have hunit : (x.gridUnit p : ℚ) = 2 ^ (-(x.exponent - 2)).toNat * 10 ^ p.toNat := by
    rw [← hneg]
    exact_mod_cast rfl
  have hscale : (x.gridScale p : ℚ) = 2 ^ (x.exponent - 2).toNat * 10 ^ (-p).toNat := by
    exact_mod_cast rfl
  refine ⟨2 ^ (-(x.exponent - 2)).toNat * 10 ^ (-p).toNat, by positivity, ?_, ?_⟩
  · rw [hunit, ← zpow_mul_pow_toNat_neg (by norm_num) p]
    ring
  · rw [hscale, ← zpow_mul_pow_toNat_neg two_ne_zero (x.exponent - 2)]
    ring

/-- A point of a grid is in the interval if it is on the common scale. -/
theorem contains_of_grid {n : Nat} (hx : 0 < x.significand)
    (hlow : (4 * x.significand - if x.closeBelow then 1 else 2) * x.gridScale p ≤
      n * x.gridUnit p)
    (hhigh : n * x.gridUnit p ≤ (4 * x.significand + 2) * x.gridScale p)
    (heven : (4 * x.significand - if x.closeBelow then 1 else 2) * x.gridScale p =
        n * x.gridUnit p ∨
      n * x.gridUnit p = (4 * x.significand + 2) * x.gridScale p → x.significand % 2 = 0) :
    x.Contains (n * 10 ^ p) := by
  obtain ⟨c, hc, hunit, hscale⟩ := x.exists_gridFactor p
  have hpoint : ((n * x.gridUnit p : ℕ) : ℚ) = n * 10 ^ p * c := by
    rw [Nat.cast_mul, hunit, mul_assoc]
  have hlowest : (((4 * x.significand - if x.closeBelow then 1 else 2) * x.gridScale p : ℕ) : ℚ) =
      x.lowerEnd * c := by
    have hle : (if x.closeBelow then 1 else 2) ≤ 4 * x.significand := by
      split <;> omega
    rw [Nat.cast_mul, hscale, Nat.cast_sub hle, lowerEnd]
    push_cast
    ring
  have hhighest : (((4 * x.significand + 2) * x.gridScale p : ℕ) : ℚ) = x.upperEnd * c := by
    rw [Nat.cast_mul, hscale, upperEnd]
    push_cast
    ring
  refine ⟨?_, ?_, fun hend => heven ?_⟩
  · refine le_of_mul_le_mul_right ?_ hc
    rw [← hlowest, ← hpoint]
    exact_mod_cast hlow
  · refine le_of_mul_le_mul_right ?_ hc
    rw [← hhighest, ← hpoint]
    exact_mod_cast hhigh
  · rw [← Nat.cast_inj (R := ℚ), ← Nat.cast_inj (R := ℚ), hlowest, hpoint, hhighest,
      mul_left_inj' hc.ne', mul_left_inj' hc.ne', eq_comm]
    exact hend

/-- The point that is taken is a neighbour of the double, on one side of it or the other, and was
compared with the end on that side. -/
theorem onGrid_cases {n : Nat} (h : x.onGrid tie p = some n) :
    (n = 4 * x.significand * x.gridScale p / x.gridUnit p ∧
      ((4 * x.significand - if x.closeBelow then 1 else 2) * x.gridScale p < n * x.gridUnit p ∨
        x.significand % 2 = 0 ∧
          (4 * x.significand - if x.closeBelow then 1 else 2) * x.gridScale p =
            n * x.gridUnit p)) ∨
    (n = 4 * x.significand * x.gridScale p / x.gridUnit p + 1 ∧
      (n * x.gridUnit p < (4 * x.significand + 2) * x.gridScale p ∨
        x.significand % 2 = 0 ∧ n * x.gridUnit p = (4 * x.significand + 2) * x.gridScale p)) := by
  unfold onGrid at h
  simp only at h
  generalize 4 * x.significand * x.gridScale p / x.gridUnit p = below at h ⊢
  generalize (4 * x.significand - if x.closeBelow then 1 else 2) * x.gridScale p = lowest at h ⊢
  generalize (4 * x.significand + 2) * x.gridScale p = highest at h ⊢
  split at h
  · next hboth =>
    split at h
    · exact .inl (Option.some.inj h ▸ ⟨rfl, hboth.1⟩)
    split at h
    · exact .inr (Option.some.inj h ▸ ⟨rfl, hboth.2⟩)
    cases tie with
    | up => exact .inr (Option.some.inj h ▸ ⟨rfl, hboth.2⟩)
    | even =>
      simp only at h
      split at h
      · exact .inl (Option.some.inj h ▸ ⟨rfl, hboth.1⟩)
      · exact .inr (Option.some.inj h ▸ ⟨rfl, hboth.2⟩)
  split at h
  · next hlow => exact .inl (Option.some.inj h ▸ ⟨rfl, hlow⟩)
  split at h
  · next hhigh => exact .inr (Option.some.inj h ▸ ⟨rfl, hhigh⟩)
  · cases h

/-- A point that is taken is in the interval of the double. -/
theorem contains_of_onGrid {n : Nat} (hx : 0 < x.significand) (h : x.onGrid tie p = some n) :
    x.Contains (n * 10 ^ p) := by
  have hscale := x.gridScale_pos p
  have hlowest : (4 * x.significand - if x.closeBelow then 1 else 2) * x.gridScale p <
      4 * x.significand * x.gridScale p :=
    Nat.mul_lt_mul_of_pos_right (by split <;> omega) hscale
  have hhighest : 4 * x.significand * x.gridScale p < (4 * x.significand + 2) * x.gridScale p :=
    Nat.mul_lt_mul_of_pos_right (by omega) hscale
  have hbelow := Nat.div_mul_le_self (4 * x.significand * x.gridScale p) (x.gridUnit p)
  have habove := Nat.lt_mul_div_succ (4 * x.significand * x.gridScale p) (x.gridUnit_pos p)
  rw [Nat.mul_comm (x.gridUnit p)] at habove
  refine contains_of_grid hx ?_ ?_ ?_ <;>
    rcases onGrid_cases h with ⟨rfl, hend⟩ | ⟨rfl, hend⟩ <;> omega

/-- The point below the double is in the interval, on a grid that is finer than a quarter of a
binary place. -/
theorem contains_of_gridUnit_le (hx : 0 < x.significand) (hp : x.gridUnit p ≤ x.gridScale p) :
    x.Contains ((4 * x.significand * x.gridScale p / x.gridUnit p : ℕ) * 10 ^ p) := by
  have hlowest : (4 * x.significand - if x.closeBelow then 1 else 2) * x.gridScale p +
      x.gridScale p ≤ 4 * x.significand * x.gridScale p := by
    rw [← Nat.succ_mul]
    exact Nat.mul_le_mul_right _ (by split <;> omega)
  have hhighest : 4 * x.significand * x.gridScale p < (4 * x.significand + 2) * x.gridScale p :=
    Nat.mul_lt_mul_of_pos_right (by omega) (x.gridScale_pos p)
  have hbelow := Nat.div_mul_le_self (4 * x.significand * x.gridScale p) (x.gridUnit p)
  have hclose := Nat.lt_div_mul_add (a := 4 * x.significand * x.gridScale p) (x.gridUnit_pos p)
  exact contains_of_grid hx (by omega) (by omega) (by omega)

/-- The search ends in the interval of the double and not after the last grid, if that is finer than
a quarter of a binary place. -/
theorem exists_searchFrom_eq (tie : Tie) (hx : 0 < x.significand) (grids : Nat)
    (hp : x.gridUnit (p - grids) ≤ x.gridScale (p - grids)) :
    ∃ n q, x.searchFrom tie grids p = scientific n q ∧ x.Contains (n * 10 ^ q) ∧ p - grids ≤ q := by
  induction grids generalizing p with
  | zero =>
    rw [Nat.cast_zero, sub_zero] at hp
    exact ⟨_, p, rfl, contains_of_gridUnit_le hx hp, by omega⟩
  | succ grids ih =>
    rw [searchFrom]
    cases hgrid : x.onGrid tie p with
    | none =>
      rw [Nat.cast_succ, sub_add_eq_sub_sub_swap] at hp ⊢
      exact ih hp
    | some n => exact ⟨n, p, rfl, contains_of_onGrid hx hgrid, by omega⟩

/-! ## Magnitude -/

/-- The bounds of `zpow_magnitude_le` and `lt_zpow_magnitude`, without denominators. -/
theorem magnitude_bounds (hx : 0 < x.significand) :
    2 ^ (-x.exponent).toNat * 10 ^ x.magnitude.toNat ≤
        x.significand * 2 ^ x.exponent.toNat * 10 ^ (-x.magnitude).toNat ∧
      x.significand * 2 ^ x.exponent.toNat * 10 ^ (-(x.magnitude + 1)).toNat <
        2 ^ (-x.exponent).toNat * 10 ^ (x.magnitude + 1).toNat := by
  have hden : 0 < Nat.pow 2 (-x.exponent).toNat := Nat.pow_pos (by decide)
  have hnum : 0 < x.significand * Nat.pow 2 x.exponent.toNat :=
    Nat.mul_pos hx (Nat.pow_pos (by decide))
  show Nat.pow 2 (-x.exponent).toNat * _ ≤ x.significand * Nat.pow 2 x.exponent.toNat * _ ∧
    x.significand * Nat.pow 2 x.exponent.toNat * _ < Nat.pow 2 (-x.exponent).toNat * _
  unfold magnitude
  simp only
  generalize Nat.pow 2 (-x.exponent).toNat = den at hden ⊢
  generalize x.significand * Nat.pow 2 x.exponent.toNat = num at hnum ⊢
  split
  · next hle =>
    have hlow := pow_length_digits_le (Nat.div_pos hle hden).ne'
    have hhigh := lt_pow_length_digits (num / den)
    rw [Nat.div_lt_iff_lt_mul hden] at hhigh
    have hne := List.length_pos_of_ne_nil (digits_ne_nil (num / den))
    generalize (digits (num / den)).length = count at hlow hhigh hne ⊢
    obtain ⟨k, rfl⟩ := Nat.exists_eq_succ_of_ne_zero hne.ne'
    have hexponent : (((k.succ : Nat) : Int) - 1).toNat = k := by omega
    have hzero : (-(((k.succ : Nat) : Int) - 1)).toNat = 0 := by omega
    have hexponent' : (((k.succ : Nat) : Int) - 1 + 1).toNat = k + 1 := by omega
    have hzero' : (-(((k.succ : Nat) : Int) - 1 + 1)).toNat = 0 := by omega
    rw [hexponent, hzero, hexponent', hzero', Nat.pow_zero, Nat.mul_one, Nat.mul_comm den,
      Nat.mul_comm den]
    exact ⟨(Nat.le_div_iff_mul_le hden).1 hlow, hhigh⟩
  · next hless =>
    have hquotient : 0 < (den - 1) / num := Nat.div_pos (by omega) hnum
    have hlow := pow_length_digits_le hquotient.ne'
    have hhigh := lt_pow_length_digits ((den - 1) / num)
    rw [Nat.div_lt_iff_lt_mul hnum] at hhigh
    rw [Nat.le_div_iff_mul_le hnum] at hlow
    have hne := List.length_pos_of_ne_nil (digits_ne_nil ((den - 1) / num))
    generalize (digits ((den - 1) / num)).length = count at hlow hhigh hne ⊢
    obtain ⟨k, rfl⟩ := Nat.exists_eq_succ_of_ne_zero hne.ne'
    have hexponent : (-((k.succ : Nat) : Int)).toNat = 0 := by omega
    have hzero : (-(-((k.succ : Nat) : Int))).toNat = k + 1 := by omega
    have hexponent' : (-((k.succ : Nat) : Int) + 1).toNat = 0 := by omega
    have hzero' : (-(-((k.succ : Nat) : Int) + 1)).toNat = k := by omega
    have hlow : 10 ^ k * num ≤ den - 1 := hlow
    have hhigh : den - 1 < 10 ^ (k + 1) * num := hhigh
    rw [hexponent, hzero, hexponent', hzero', Nat.pow_zero, Nat.mul_one, Nat.mul_comm num,
      Nat.mul_comm num]
    omega

/-- The magnitude of a whole double is one less than the number of its digits. -/
theorem magnitude_eq {k : Nat} (hx : 0 ≤ x.exponent)
    (hlow : 10 ^ k ≤ x.significand * 2 ^ x.exponent.toNat)
    (hhigh : x.significand * 2 ^ x.exponent.toNat < 10 ^ (k + 1)) : x.magnitude = k := by
  have hden : Nat.pow 2 (-x.exponent).toNat = 1 := by
    rw [show (-x.exponent).toNat = 0 by omega, Nat.pow_eq, Nat.pow_zero]
  have hpos := Nat.le_trans (Nat.pow_pos (by decide)) hlow
  unfold magnitude
  simp only
  rw [hden, Nat.pow_eq, if_pos hpos, Nat.div_one, length_digits hlow hhigh]
  omega

/-- The double lies at or above the power of ten of its magnitude. -/
theorem zpow_magnitude_le (hx : 0 < x.significand) :
    (10 : ℚ) ^ x.magnitude ≤ x.significand * 2 ^ x.exponent := by
  have hpow : (2 : ℚ) ^ (-x.exponent).toNat * 10 ^ x.magnitude.toNat ≤
      x.significand * 2 ^ x.exponent.toNat * 10 ^ (-x.magnitude).toNat := by
    exact_mod_cast (magnitude_bounds hx).1
  rw [← zpow_mul_pow_toNat_neg (by norm_num) x.magnitude,
    ← zpow_mul_pow_toNat_neg two_ne_zero x.exponent] at hpow
  refine le_of_mul_le_mul_right ?_
    (show (0 : ℚ) < 2 ^ (-x.exponent).toNat * 10 ^ (-x.magnitude).toNat by positivity)
  linarith

/-- The double lies below the next power of ten. -/
theorem lt_zpow_magnitude (hx : 0 < x.significand) :
    x.significand * 2 ^ x.exponent < (10 : ℚ) ^ (x.magnitude + 1) := by
  have hpow : (x.significand : ℚ) * 2 ^ x.exponent.toNat * 10 ^ (-(x.magnitude + 1)).toNat <
      2 ^ (-x.exponent).toNat * 10 ^ (x.magnitude + 1).toNat := by
    exact_mod_cast (magnitude_bounds hx).2
  rw [← zpow_mul_pow_toNat_neg (by norm_num) (x.magnitude + 1),
    ← zpow_mul_pow_toNat_neg two_ne_zero x.exponent] at hpow
  refine lt_of_mul_lt_mul_right ?_
    (show (0 : ℚ) ≤ 2 ^ (-x.exponent).toNat * 10 ^ (-(x.magnitude + 1)).toNat by positivity)
  linarith

/-- The last grid of the search is finer than a quarter of a binary place. -/
theorem gridUnit_le_gridScale (hx : 0 < x.significand) (hlt : x.significand < 2 ^ 53) :
    x.gridUnit (x.magnitude - 17) ≤ x.gridScale (x.magnitude - 17) := by
  obtain ⟨c, hc, hunit, hscale⟩ := x.exists_gridFactor (x.magnitude - 17)
  have hsignificand : (x.significand : ℚ) ≤ 2 ^ 53 := by exact_mod_cast hlt.le
  have hfine : (10 : ℚ) ^ (x.magnitude - 17) ≤ 2 ^ (x.exponent - 2) := by
    calc
      (10 : ℚ) ^ (x.magnitude - 17)
        = 10 ^ x.magnitude / 10 ^ 17 := by
        rw [zpow_sub₀ (by norm_num)]
        norm_cast
      _ ≤ 2 ^ 53 * 2 ^ x.exponent / 10 ^ 17 := by
        gcongr
        exact (zpow_magnitude_le hx).trans (by gcongr)
      _ ≤ 2 ^ x.exponent / 2 ^ 2 := by
        have hpos : (0 : ℚ) < 2 ^ x.exponent := by positivity
        linarith
      _ = 2 ^ (x.exponent - 2) := by
        rw [zpow_sub₀ two_ne_zero]
        norm_cast
  rw [← Nat.cast_le (α := ℚ), hunit, hscale]
  exact mul_le_mul_of_nonneg_right hfine hc.le

/-! ## The shortest decimal -/

theorem exists_shortest_eq (tie : Tie) (hx : 0 < x.significand) (hlt : x.significand < 2 ^ 53) :
    ∃ n q, x.shortest tie = scientific n q ∧ x.Contains (n * 10 ^ q) ∧ x.magnitude - 17 ≤ q :=
  exists_searchFrom_eq tie hx 17 (gridUnit_le_gridScale hx hlt)

/-- **The shortest decimal.**  It has the digits of a positive number, without a zero in front, and
is one of the reals that round to the double. -/
theorem shortest_spec (tie : Tie) (hx : 0 < x.significand) (hlt : x.significand < 2 ^ 53) :
    (x.shortest tie).IsProper ∧ x.Contains (x.shortest tie).toRat := by
  obtain ⟨n, q, hsearch, hcontains, -⟩ := exists_shortest_eq tie hx hlt
  have hn : n ≠ 0 := by
    rintro rfl
    have hpos := (lowerEnd_pos hx).trans_le hcontains.ge
    rw [Nat.cast_zero, zero_mul] at hpos
    exact lt_irrefl _ hpos
  rw [hsearch, toRat_scientific]
  exact ⟨isProper_scientific hn q, hcontains⟩

theorem upperEnd_lt (hx : 0 < x.significand) : x.upperEnd < 10 ^ (x.magnitude + 2) := by
  have hone : (1 : ℚ) ≤ x.significand := by exact_mod_cast hx
  have hquarter : (2 : ℚ) ^ (x.exponent - 2) = 2 ^ x.exponent / 4 := by
    rw [zpow_sub₀ two_ne_zero]
    norm_num
  have hpos : (0 : ℚ) < 2 ^ x.exponent := zpow_pos two_pos _
  calc
    x.upperEnd ≤ 2 * (x.significand * 2 ^ x.exponent) := by
      rw [upperEnd, hquarter]
      nlinarith
    _ < 10 * 10 ^ (x.magnitude + 1) := by
      have hlt := lt_zpow_magnitude hx
      have hten : (0 : ℚ) < 10 ^ (x.magnitude + 1) := by positivity
      linarith
    _ = 10 ^ (x.magnitude + 2) := by
      rw [← zpow_one_add₀ (by norm_num)]
      congr 1
      omega

/-- The shortest decimal of a double has at most nineteen digits. -/
theorem length_digits_shortest_le (tie : Tie) (hx : 0 < x.significand)
    (hlt : x.significand < 2 ^ 53) : (x.shortest tie).digits.length ≤ 19 := by
  obtain ⟨n, q, hsearch, hcontains, hq⟩ := exists_shortest_eq tie hx hlt
  have hpos : (0 : ℚ) < 10 ^ q := by positivity
  have hn : n < 10 ^ 19 := by
    have hbound : (n : ℚ) * 10 ^ q < 10 ^ (19 : Int) * 10 ^ q := by
      rw [← zpow_add₀ (by norm_num)]
      refine (hcontains.le.trans_lt (upperEnd_lt hx)).trans_le ?_
      exact zpow_le_zpow_right₀ (by norm_num) (by omega)
    exact_mod_cast lt_of_mul_lt_mul_right hbound hpos.le
  have hdigits : (digits n).length ≤ 19 := by
    rcases Nat.eq_zero_or_pos n with rfl | hne
    · decide
    · have hpow := (pow_length_digits_le hne.ne').trans_lt hn
      rw [Nat.pow_lt_pow_iff_right (by decide)] at hpow
      omega
  obtain ⟨k, hk⟩ := exists_eq_dropFinalZeros (digits n)
  rw [hk, List.length_append] at hdigits
  rw [hsearch]
  exact (Nat.le_add_right _ _).trans hdigits

end Dyadic

end Intake.Decimal
