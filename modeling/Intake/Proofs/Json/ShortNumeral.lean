import Intake.Proofs.Decimal.Interval
import Intake.Proofs.Float.Operations
import Intake.Proofs.Json.FloatText

/-!
# Short numerals

A numeral is short if its digits make a double, and the power of ten that they are scaled by is a
double too.  Then reading it rounds once, to the double next to the number that is written.  The
text of a double writes a number that rounds to it, so a double that is written shortly is read back
as the same double: `toNumber_documentNumeral`.  Nothing of the kind holds of longer numerals, whose
digits are rounded before they are scaled.
-/

namespace Intake

open Json Binary64 Float.Model

/-! ## Reading a short numeral -/

namespace Json.Numeral

/-- The digits are an integer that is a double, and so is the power of ten that they are scaled
by. -/
def IsShort (x : Numeral) : Prop :=
  Decimal.value (x.whole ++ x.fractionDigits) ≤ 2 ^ 53 ∧
    (x.exponentValue - x.fractionDigits.length).natAbs ≤ 22

instance : DecidablePred IsShort := fun _ => inferInstanceAs (Decidable (_ ∧ _))

/-- The sign of a numeral. -/
def sign (x : Numeral) : UnpackedFloat.Sign := if x.negative then .negative else .positive

/-- An exponent is read if it is not too far from zero on either side. -/
theorem natAbs_exponentValue_le {x : Numeral} (h : -(exponentLimit : Int) ≤ x.exponentValue)
    (hexponent : x.ExponentFits) : x.exponentValue.natAbs ≤ exponentLimit := by
  cases hcase : x.exponent with
  | none =>
    rw [exponentValue, hcase]
    exact Nat.zero_le _
  | some written =>
    obtain ⟨negative, ds⟩ := written
    cases negative with
    | false =>
      rw [natAbs_exponentValue hcase]
      exact hexponent ds hcase
    | true =>
      have hnegative : x.exponentValue = -(Decimal.value ds : Int) := by
        rw [exponentValue, hcase]
        rfl
      omega

/-- A short numeral is read as the double that the number it writes lies next to. -/
theorem exists_toNumber_of_isShort {x : Numeral} {m : Nat} {e : Int} (h : x.IsMarked)
    (hexponent : x.ExponentFits) (hshort : x.IsShort) (hd : IsDouble m e)
    (hv : InInterval m e x.toRat) :
    ∃ g finite, x.toNumber = .ok (.float g finite) ∧
      g.toModel.unpack = .finite x.sign m e hd.pos := by
  have hvalue : x.toRat = Decimal.value (x.whole ++ x.fractionDigits) *
      10 ^ (x.exponentValue - x.fractionDigits.length) := rfl
  rw [hvalue] at hv
  have hscaled := toModel_scaled (hv.ne_zero hd) hshort.1 hshort.2 hd hv
  have hsignificand := significand_of_le (Nat.le_trans hshort.1 (by decide))
  generalize hf : scaled _ _ = f at hscaled
  have hunpack : (if x.negative then -f else f).toModel.unpack = .finite x.sign m e hd.pos := by
    rw [sign]
    split
    · show (Float.Model.pack f.toModel.unpack.neg).unpack = _
      rw [hscaled, unpack_pack hd]
      exact unpack_pack hd
    · rw [hscaled]
      exact unpack_pack hd
  have hread : -(exponentLimit : Int) ≤ x.exponentValue := by
    have := hshort.2
    rw [exponentLimit]
    omega
  have hfinite : f.isFinite = true := by
    show f.toModel.isFinite = true
    rw [hscaled]
    exact isFinite_pack_finite hd.pos hd.exponent_le
  obtain ⟨finite, hsigned⟩ := exists_signed?_eq x hfinite
  refine ⟨_, finite, toNumber_of_scaled h (natAbs_exponentValue_le hread hexponent) ?_, hunpack⟩
  rw [hsignificand, neg_add_eq_sub, hf]
  exact hsigned

end Json.Numeral

/-! ## Doubles that are written shortly -/

namespace Decimal.FloatStyle

/-- A zero is written with its sign, and read with it. -/
theorem toNumber_documentNumeral_of_zero {x : Float} {s : UnpackedFloat.Sign}
    (hx : x.toModel.unpack = .zero s) (h : x.isFinite = true) :
    (documentNumeral x).toNumber = .ok (.float x h) := by
  have hbits : x.toBits = UInt64.ofNat (signValue s) := by
    rw [← bits_of_unpack_zero hx]
    exact (UInt64.ofNat_toNat).symm
  obtain rfl : x = Float.ofBits (UInt64.ofNat (signValue s)) := by
    refine eq_of_toBits ?_
    rw [hbits]
    cases s <;> rfl
  cases s <;> rfl

theorem sign_documentNumeral {x : Float} {s : UnpackedFloat.Sign} {m : Nat} {e : Int} {h : 0 < m}
    (hx : x.toModel.unpack = .finite s m e h) : (documentNumeral x).sign = s := by
  have hnegative : (documentNumeral x).negative = decide ¬ x.toBits.toNat < signBit := by
    unfold documentNumeral Scientific.documentNumeral
    split <;> rfl
  have hbits : signValue s = x.toBits.toNat / 2 ^ 63 * 2 ^ 63 := (bits_of_unpack hx).1
  have hbound := x.toBits.toNat_lt
  apply signValue_injective
  rw [Numeral.sign, hnegative, hbits, signBit]
  split
  · next hlarge =>
    have hlarge := of_decide_eq_true hlarge
    show 2 ^ 63 = _
    omega
  · next hsmall =>
    have hsmall := of_decide_eq_false (Bool.not_eq_true _ ▸ hsmall)
    show 0 = _
    omega

/-- The numeral of a double writes a number that rounds to the double. -/
theorem inInterval_documentNumeral {x : Float} (h : x.isFinite = true) {s : UnpackedFloat.Sign}
    {m : Nat} {e : Int} (hd : IsDouble m e) (hx : x.toModel.unpack = .finite s m e hd.pos) :
    InInterval m e (documentNumeral x).toRat := by
  have hwritten := isWritten_decimal document (mod_signBit_lt_of_isFinite h)
  rw [documentNumeral, Scientific.toRat_documentNumeral hwritten.ne_nil]
  exact inInterval_decimal document hd hx

/-- **Exact reading.**  A double that is written shortly is read back. -/
theorem toNumber_documentNumeral {x : Float} (h : x.isFinite = true)
    (hshort : (documentNumeral x).IsShort) :
    (documentNumeral x).toNumber = .ok (.float x h) := by
  rcases isFinite_cases h with ⟨s, hx⟩ | ⟨s, m, e, hd, hx⟩
  · exact toNumber_documentNumeral_of_zero hx h
  obtain ⟨g, finite, hnumber, hg⟩ := Numeral.exists_toNumber_of_isShort
    (isMarked_documentNumeral x) (exponentFits_documentNumeral h) hshort hd
    (inInterval_documentNumeral h hd hx)
  have hsign : (documentNumeral x).sign = s := sign_documentNumeral hx
  obtain rfl : g = x := eq_of_unpack (hsign ▸ hg) hx
  exact hnumber

end Decimal.FloatStyle

end Intake
