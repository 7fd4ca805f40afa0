import Intake.Proofs.Decimal.Shortest
import Intake.Proofs.Float.Scaling
import Intake.Proofs.Json.IntegerLiteral

/-!
# Double literals

A numeral with a fraction or an exponent is read as a double, whatever its value is: a whole value
does not make it an integer.  It is refused only if the double is not finite.

The digits of a numeral become the significand of a word, and a power of ten.  As long as the whole
digits fit the word this only drops digits of the fraction, so it does not make the value larger,
and a bound on the exact value, `Numeral.toRat`, is a bound on what is scaled:
`isFinite_scaled_significand`.  Whole digits that do not fit the word become zeros, so for an
integer literal the bound on the value is one on what is scaled at any length:
`exists_toNumber_of_isInteger`.
-/

namespace Intake.Json

open Decimal Binary64

/-! ## Digits within a limit -/

theorem absorb_bounds {limit n : Nat} (ds : List Nat) (hn : n ≤ limit) :
    (absorb limit n ds).1 ≤ limit ∧ (absorb limit n ds).2 ≤ ds.length ∧
      (absorb limit n ds).1 * 10 ^ (absorb limit n ds).2 ≤ valueFrom n ds := by
  induction ds generalizing n with
  | nil => exact ⟨hn, Nat.le_refl _, Nat.le_of_eq (Nat.mul_one n)⟩
  | cons d ds ih =>
    rw [absorb]
    split
    · next hle =>
      obtain ⟨hlimit, hleft, hvalue⟩ := ih hle
      exact ⟨hlimit, Nat.le_succ_of_le hleft, hvalue⟩
    · refine ⟨hn, Nat.le_refl _, ?_⟩
      rw [valueFrom_eq]
      exact Nat.le_add_right _ _

/-- If no digit is left the digits are all there. -/
theorem absorb_of_snd_eq_zero {limit n : Nat} {ds : List Nat} (h : (absorb limit n ds).2 = 0) :
    (absorb limit n ds).1 = valueFrom n ds := by
  induction ds generalizing n with
  | nil => rfl
  | cons d ds ih =>
    rw [absorb] at h ⊢
    split at h
    · next hle =>
      rw [if_pos hle]
      exact ih h
    · exact absurd h (Nat.succ_ne_zero _)

namespace Numeral

/-! ## Values -/

/-- The digits after the point. -/
def fractionDigits (x : Numeral) : List Nat := x.fraction.getD []

/-- The exponent, zero if none is written. -/
def exponentValue (x : Numeral) : Int :=
  match x.exponent with
  | none => 0
  | some (negative, ds) => if negative then -(Decimal.value ds : Int) else Decimal.value ds

/-- The number that a numeral writes, without its sign. -/
def toRat (x : Numeral) : ℚ :=
  Decimal.value (x.whole ++ x.fractionDigits) *
    10 ^ (x.exponentValue - x.fractionDigits.length)

/-- A fraction or an exponent is written. -/
def IsMarked (x : Numeral) : Prop := x.fraction.isSome ∨ x.exponent.isSome

theorem integer?_of_isMarked {x : Numeral} (h : x.IsMarked) : x.integer? = none := by
  unfold integer?
  rw [if_pos]
  rcases h with h | h
  · exact .inl h
  · exact .inr (.inl h)

/-- The significand is a word, and with its power of ten it is at most what the digits write. -/
theorem significand_bounds {x : Numeral} (hw : Decimal.value x.whole ≤ significandLimit) :
    x.significand.1 ≤ significandLimit ∧
      (x.significand.1 : ℚ) * 10 ^ x.significand.2 ≤
        Decimal.value (x.whole ++ x.fractionDigits) * 10 ^ (-(x.fractionDigits.length : Int)) := by
  have hwhole : absorb significandLimit 0 x.whole = (Decimal.value x.whole, 0) := absorb_of_le hw
  unfold significand fractionDigits
  rw [hwhole]
  cases x.fraction with
  | none => simpa using hw
  | some ds =>
    obtain ⟨hlimit, hleft, hvalue⟩ := absorb_bounds ds hw
    refine ⟨hlimit, ?_⟩
    simp only [Option.getD_some]
    generalize absorb significandLimit (Decimal.value x.whole) ds = answer at hleft hvalue ⊢
    have hvalue : (answer.1 : ℚ) * 10 ^ answer.2 ≤ Decimal.value (x.whole ++ ds) := by
      rw [value_append, ← valueFrom_eq]
      exact_mod_cast hvalue
    have hpower : (10 : ℚ) ^ (((0 : Nat) : Int) - (ds.length - answer.2 : Nat)) =
        10 ^ answer.2 * 10 ^ (-(ds.length : Int)) := by
      rw [← zpow_natCast, ← zpow_add₀ (by norm_num)]
      congr 1
      omega
    rw [hpower, ← mul_assoc]
    exact mul_le_mul_of_nonneg_right hvalue (by positivity)

theorem value_whole_le (x : Numeral) :
    Decimal.value x.whole ≤ Decimal.value (x.whole ++ x.fractionDigits) := by
  rw [value_append]
  exact Nat.le_trans (Nat.le_mul_of_pos_right _ (Nat.pow_pos (by decide))) (Nat.le_add_right _ _)

/-- The significand of an integer literal is a word, and with a place for each digit that it does
not take it is at most what the literal writes. -/
theorem significand_of_isInteger {x : Numeral} (h : x.IsInteger) :
    ∃ s places : Nat, x.significand = (s, (places : Int)) ∧ s ≤ significandLimit ∧
      s * 10 ^ places ≤ Decimal.value x.whole := by
  obtain ⟨hlimit, -, hvalue⟩ := absorb_bounds x.whole (Nat.zero_le significandLimit)
  refine ⟨_, _, ?_, hlimit, hvalue⟩
  rw [significand, h.fraction]

/-- If all digits fit a word, the significand has them all. -/
theorem significand_of_le {x : Numeral}
    (h : Decimal.value (x.whole ++ x.fractionDigits) ≤ significandLimit) :
    x.significand =
      (Decimal.value (x.whole ++ x.fractionDigits), -(x.fractionDigits.length : Int)) := by
  have hw := (value_whole_le x).trans h
  have hwhole : absorb significandLimit 0 x.whole = (Decimal.value x.whole, 0) := absorb_of_le hw
  unfold significand fractionDigits at *
  rw [hwhole]
  cases hfraction : x.fraction with
  | none => simp
  | some ds =>
    rw [hfraction, Option.getD_some, value_append, ← valueFrom_eq] at h
    rw [Option.getD_some, value_append, ← valueFrom_eq]
    simp [absorb_of_le h]

/-! ## Reading -/

theorem exists_signed?_eq (x : Numeral) {f : Float} (h : f.isFinite = true) :
    ∃ finite, x.signed? f = some (.float (if x.negative then -f else f) finite) := by
  have hsigned : (if x.negative then -f else f).isFinite = true := by
    split
    · exact isFinite_neg h
    · exact h
  exact ⟨hsigned, dif_pos hsigned⟩

/-- The exponent is not too large to be read.  One that is too far below zero is never in the way,
because it makes the number zero. -/
def ExponentFits (x : Numeral) : Prop :=
  ∀ ds, x.exponent = some (false, ds) → Decimal.value ds ≤ exponentLimit

theorem natAbs_exponentValue {x : Numeral} {negative : Bool} {ds : List Nat}
    (h : x.exponent = some (negative, ds)) : x.exponentValue.natAbs = Decimal.value ds := by
  rw [exponentValue, h]
  cases negative
  · exact Int.natAbs_natCast _
  · exact (Int.natAbs_neg _).trans (Int.natAbs_natCast _)

/-- A marked numeral is its significand scaled by its exponent, if the exponent is read. -/
theorem toNumber_of_scaled {x : Numeral} {n : Number} (h : x.IsMarked)
    (hexponent : x.exponentValue.natAbs ≤ exponentLimit)
    (hn : x.signed? (scaled x.significand.1 (x.significand.2 + x.exponentValue)) = some n) :
    x.toNumber = .ok n := by
  rw [toNumber, integer?_of_isMarked h]
  unfold toFloat
  simp only
  cases hcase : x.exponent with
  | none =>
    have hvalue : x.exponentValue = 0 := by rw [exponentValue, hcase]
    rw [hvalue, Int.add_zero] at hn
    simp only [hn]
  | some written =>
    obtain ⟨negative, ds⟩ := written
    rw [natAbs_exponentValue hcase] at hexponent
    have hread : absorb exponentLimit 0 ds = (Decimal.value ds, 0) := absorb_of_le hexponent
    have hplaces : (if negative then x.significand.2 - (Decimal.value ds : Int)
        else x.significand.2 + Decimal.value ds) = x.significand.2 + x.exponentValue := by
      rw [exponentValue, hcase]
      simp only
      split <;> omega
    simp only [hread, hplaces, hn]

/-- A marked numeral is zero if its exponent is not read because it is too far below zero. -/
theorem toNumber_of_underflow {x : Numeral} {n : Number} (h : x.IsMarked) {ds : List Nat}
    (hcase : x.exponent = some (true, ds)) (hexponent : exponentLimit < Decimal.value ds)
    (hn : x.signed? 0 = some n) : x.toNumber = .ok n := by
  have hleft : (absorb exponentLimit 0 ds).2 ≠ 0 := by
    intro hzero
    have hall := absorb_of_snd_eq_zero hzero
    have hmost := (absorb_bounds ds (Nat.zero_le exponentLimit)).1
    rw [hall] at hmost
    exact Nat.not_le.2 hexponent hmost
  rw [toNumber, integer?_of_isMarked h]
  unfold toFloat
  simp only [hcase]
  generalize absorb exponentLimit 0 ds = answer at hleft ⊢
  obtain ⟨e, left⟩ := answer
  cases left with
  | zero => exact absurd rfl hleft
  | succ left => simp only [or_true, if_true, hn]

/-- A marked numeral is read as a double, if scaling its significand stays finite. -/
theorem toNumber_of_isMarked {x : Numeral} (h : x.IsMarked) (hexponent : x.ExponentFits)
    (hfinite : (scaled x.significand.1 (x.significand.2 + x.exponentValue)).isFinite = true) :
    ∃ g finite, x.toNumber = .ok (.float g finite) := by
  by_cases hread : x.exponentValue.natAbs ≤ exponentLimit
  · obtain ⟨finite, hg⟩ := exists_signed?_eq x hfinite
    exact ⟨_, finite, toNumber_of_scaled h hread hg⟩
  · obtain ⟨finite, hg⟩ := exists_signed?_eq x (f := 0) (by decide +kernel)
    refine ⟨_, finite, ?_⟩
    cases hcase : x.exponent with
    | none =>
      rw [exponentValue, hcase] at hread
      exact absurd (Nat.zero_le _) hread
    | some written =>
      obtain ⟨negative, ds⟩ := written
      rw [natAbs_exponentValue hcase] at hread
      cases negative with
      | false => exact absurd (hexponent ds hcase) hread
      | true => exact toNumber_of_underflow h hcase (Nat.not_le.1 hread) hg

/-- Scaling the significand stays finite, if what the numeral writes is safe from overflow. -/
theorem isFinite_scaled_significand {x : Numeral} (hw : Decimal.value x.whole ≤ significandLimit)
    (hle : x.toRat ≤ safeLimit) :
    (scaled x.significand.1 (x.significand.2 + x.exponentValue)).isFinite = true := by
  obtain ⟨hlimit, hvalue⟩ := significand_bounds hw
  refine isFinite_scaled (Nat.lt_succ_of_le hlimit) ?_
  intro hnonneg
  have hscaled : (x.significand.1 : ℚ) * 10 ^ (x.significand.2 + x.exponentValue) ≤ x.toRat := by
    rw [toRat, zpow_add₀ (by norm_num), sub_eq_neg_add, zpow_add₀ (by norm_num), ← mul_assoc,
      ← mul_assoc]
    exact mul_le_mul_of_nonneg_right hvalue (by positivity)
  have hscaled := hscaled.trans hle
  rw [← Int.toNat_of_nonneg hnonneg, zpow_natCast] at hscaled
  exact_mod_cast hscaled

/-- An integer literal is read as a number, if what it writes is safe from overflow. -/
theorem exists_toNumber_of_isInteger {x : Numeral} (h : x.IsInteger)
    (hle : Decimal.value x.whole ≤ safeLimit) : ∃ n, x.toNumber = .ok n := by
  cases hinteger : x.integer? with
  | some n => exact ⟨n, by rw [toNumber, hinteger]⟩
  | none =>
    obtain ⟨s, places, hs, hlimit, hvalue⟩ := significand_of_isInteger h
    have hfinite : (scaled s places).isFinite = true :=
      isFinite_scaled (Nat.lt_succ_of_le hlimit) fun _ => hvalue.trans hle
    obtain ⟨finite, hsigned⟩ := exists_signed?_eq x hfinite
    refine ⟨.float _ finite, ?_⟩
    rw [toNumber, hinteger, toFloat, hs, h.exponent]
    simp only [hsigned]

end Numeral

end Intake.Json
