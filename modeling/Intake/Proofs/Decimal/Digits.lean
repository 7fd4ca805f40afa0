import Intake.Decimal.Digits

/-!
# The digits of a number

The digits of a number are those that the library writes for it, `natText_eq_toDigits`.  So they can
be read back, and different numbers have different texts.
-/

namespace Intake.Decimal

theorem digitChar_eq {d : Nat} (h : d < 10) : digitChar d = d.digitChar := by
  revert d
  decide

theorem map_digitChar_digitsWithin {count n : Nat} (h : n.log2 ≤ count) :
    (digitsWithin count n).map digitChar = Nat.toDigits 10 n := by
  have hsmall {n : Nat} (hlt : n < 10) : [n].map digitChar = Nat.toDigits 10 n := by
    rw [Nat.toDigits_of_lt_base hlt, List.map_singleton, digitChar_eq hlt]
  induction count generalizing n with
  | zero =>
    have hlt : n < 2 ^ (0 + 1) := Nat.lt_of_lt_of_le Nat.lt_log2_self
      (Nat.pow_le_pow_right (by decide) (Nat.succ_le_succ h))
    exact hsmall (by omega)
  | succ count ih =>
    rw [digitsWithin]
    split
    · next hlt => exact hsmall hlt
    · next hge =>
      have hbase : 10 ≤ n := Nat.le_of_not_lt hge
      rw [List.map_append, ih (log2_div_ten_le h hbase), List.map_singleton,
        digitChar_eq (Nat.mod_lt n (by decide)), ← Nat.toDigits_of_base_le (by decide) hbase]

/-- The digits of a number are the usual ones. -/
theorem natText_eq_toDigits (n : Nat) : natText n = Nat.toDigits 10 n :=
  map_digitChar_digitsWithin (Nat.le_refl _)

theorem natText_injective {m n : Nat} (h : natText m = natText n) : m = n := by
  rw [natText_eq_toDigits, natText_eq_toDigits] at h
  calc
    m = Nat.ofDigitChars 10 (Nat.toDigits 10 m) 0 := Nat.ofDigitChars_ten_toDigits.symm
    _ = Nat.ofDigitChars 10 (Nat.toDigits 10 n) 0 := by rw [h]
    _ = n := Nat.ofDigitChars_ten_toDigits

end Intake.Decimal
