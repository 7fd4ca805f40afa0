import Intake.Proofs.Decimal.Shortest
import Intake.Proofs.Json.DoubleLiteral

/-!
# The numeral of a decimal

A decimal is written in one of two forms, and both of them are numerals of the grammar.  The
positional form fills up with zeros where the digits do not reach the point, and the other form has
an exponent.  Either way a fraction or an exponent stands in the text, and the numeral writes the
number that the decimal is: `numeralText_document` and `toRat_documentNumeral`.
-/

namespace Intake.Decimal

open Json Json.Grammar

namespace Scientific

/-! ## Forms of a decimal -/

/-- What is written of a decimal: there is a digit, and only zero has a zero in front. -/
structure IsWritten (x : Scientific) : Prop where
  ne_nil : x.digits ≠ []
  lt_ten : ∀ d ∈ x.digits, d < 10
  zero : x.digits.head? = some 0 → x = ⟨[0], 0⟩

theorem isWritten_of_isProper {x : Scientific} (h : x.IsProper) : x.IsWritten where
  ne_nil := h.ne_nil
  lt_ten := h.lt_ten
  zero hzero := absurd hzero h.head_ne

theorem isWritten_zero : IsWritten ⟨[0], 0⟩ := ⟨by decide, by decide, fun _ => rfl⟩

/-- The number of whole digits. -/
def wholeCount (x : Scientific) : Nat := (x.exponent + 1).toNat

/-- The whole digits in positional form. -/
def wholeDigits (x : Scientific) : List Nat :=
  if x.wholeCount = 0 then [0]
  else x.digits.take x.wholeCount ++ List.replicate (x.wholeCount - x.digits.length) 0

/-- The digits after the point in positional form. -/
def fractionDigits (x : Scientific) : List Nat :=
  if x.digits.length ≤ x.wholeCount then [0]
  else List.replicate (-x.exponent - 1).toNat 0 ++ x.digits.drop x.wholeCount

/-- The numeral of a decimal in positional form. -/
def positionalNumeral (x : Scientific) (negative : Bool) : Numeral :=
  ⟨negative, x.wholeDigits, some x.fractionDigits, none⟩

/-- The numeral of a decimal with an exponent. -/
def exponentialNumeral (x : Scientific) (negative : Bool) : Numeral :=
  ⟨negative, x.digits.take 1, if x.digits.length = 1 then none else some (x.digits.drop 1),
    some (decide (x.exponent < 0), Decimal.digits x.exponent.natAbs)⟩

theorem isWhole_wholeDigits {x : Scientific} (h : x.IsWritten) : IsWhole x.wholeDigits := by
  unfold wholeDigits
  split
  · exact ⟨⟨by decide, by decide⟩, fun _ => rfl⟩
  · next hcount =>
    obtain ⟨d, ds, hds⟩ := List.exists_cons_of_ne_nil h.ne_nil
    obtain ⟨count, hcount⟩ := Nat.exists_eq_succ_of_ne_zero hcount
    refine ⟨⟨?_, ?_⟩, ?_⟩
    · rw [hds, hcount, List.take_succ_cons]
      exact List.cons_ne_nil _ _
    · intro e he
      rcases List.mem_append.1 he with he | he
      · exact h.lt_ten e (List.mem_of_mem_take he)
      · rw [List.eq_of_mem_replicate he]
        decide
    · intro hhead
      have hzero : x.digits.head? = some 0 := by
        rw [hds, hcount, List.take_succ_cons] at hhead
        rw [hds]
        exact hhead
      rw [h.zero hzero]
      rfl

theorem isDigits_fractionDigits {x : Scientific} (h : x.IsWritten) :
    IsDigits x.fractionDigits := by
  unfold fractionDigits
  split
  · exact ⟨by decide, by decide⟩
  · next hcount =>
    refine ⟨?_, ?_⟩
    · intro hnil
      have hdrop := (List.append_eq_nil_iff.1 hnil).2
      rw [List.drop_eq_nil_iff] at hdrop
      exact hcount hdrop
    · intro e he
      rcases List.mem_append.1 he with he | he
      · rw [List.eq_of_mem_replicate he]
        decide
      · exact h.lt_ten e (List.mem_of_mem_drop he)

theorem positional_eq (x : Scientific) :
    x.positional true = digitsText x.wholeDigits ++ '.' :: digitsText x.fractionDigits := by
  unfold positional wholeDigits fractionDigits
  simp only [List.length_map, if_true]
  have hwhole : (if (x.exponent + 1).toNat = 0 then ['0'] else
      (x.digits.map digitChar).take (x.exponent + 1).toNat ++
        List.replicate ((x.exponent + 1).toNat - x.digits.length) '0') =
      digitsText (if x.wholeCount = 0 then [0] else
        x.digits.take x.wholeCount ++ List.replicate (x.wholeCount - x.digits.length) 0) := by
    show (if x.wholeCount = 0 then _ else _) = _
    split
    · rfl
    · rw [digitsText_append, digitsText_replicate_zero, digitsText, List.map_take]
      rfl
  rw [hwhole]
  show (if x.digits.length ≤ x.wholeCount then _ else _) = _
  split
  · rfl
  · rw [digitsText_append, digitsText_replicate_zero, digitsText, digitsText, List.map_drop]
    rfl

theorem numeralText_positional {x : Scientific} (h : x.IsWritten) (negative : Bool) :
    NumeralText (minusText negative ++ x.positional true) (x.positionalNumeral negative) := by
  have htext := @NumeralText.intro negative _ _ _ _ _ (isWhole_wholeDigits h)
    (.present (isDigits_fractionDigits h)) .absent
  rwa [List.append_nil, List.append_assoc, ← positional_eq] at htext

theorem numeralText_exponential {x : Scientific} (h : x.IsWritten) (negative : Bool) :
    NumeralText (minusText negative ++ x.exponential) (x.exponentialNumeral negative) := by
  obtain ⟨d, ds, hds⟩ := List.exists_cons_of_ne_nil h.ne_nil
  have hwhole : IsWhole [d] := by
    refine ⟨⟨List.cons_ne_nil _ _, fun e he => ?_⟩, fun hzero => ?_⟩
    · rw [List.mem_singleton.1 he]
      exact h.lt_ten d (by rw [hds]; exact List.mem_cons_self)
    · rw [List.head?_cons, Option.some.injEq] at hzero
      rw [hzero]
  have hexponent : ExponentText
      ('e' :: (if x.exponent < 0 then '-' else '+') :: natText x.exponent.natAbs)
      (some (decide (x.exponent < 0), Decimal.digits x.exponent.natAbs)) := by
    by_cases hneg : x.exponent < 0
    · rw [if_pos hneg, decide_eq_true hneg]
      exact .present (.inl rfl) .minus (isDigits_digits _)
    · rw [if_neg hneg, decide_eq_false hneg]
      exact .present (.inl rfl) .plus (isDigits_digits _)
  have hfraction : FractionText (if ds = [] then [] else '.' :: digitsText ds)
      (if x.digits.length = 1 then none else some (x.digits.drop 1)) := by
    rw [hds]
    cases ds with
    | nil => exact .absent
    | cons e es =>
      refine .present ⟨List.cons_ne_nil _ _, fun e' he => h.lt_ten e' ?_⟩
      rw [hds]
      exact List.mem_cons_of_mem d he
  have htext := @NumeralText.intro negative _ _ _ _ _ hwhole hfraction hexponent
  have hform : x.exponential = digitsText [d] ++ (if ds = [] then [] else '.' :: digitsText ds) ++
      'e' :: (if x.exponent < 0 then '-' else '+') :: natText x.exponent.natAbs := by
    unfold exponential
    rw [hds]
    cases ds <;> rfl
  have htake : x.digits.take 1 = [d] := by rw [hds]; rfl
  rw [exponentialNumeral, htake, hform]
  simpa only [List.append_assoc] using htext

/-! ## Values of the forms -/

/-- The positional form has the digits of the decimal and zeros on either side, of which those at
the end count as places: they fill the whole digits, and one of them stands after the point. -/
theorem exists_positional_digits {x : Scientific} (h : x.digits ≠ []) :
    ∃ zeros : Nat, value (x.wholeDigits ++ x.fractionDigits) = value x.digits * 10 ^ zeros ∧
      (x.fractionDigits.length : Int) = x.digits.length - (x.exponent + 1) + zeros ∧
      x.digits.length + zeros ≤ max x.digits.length (x.wholeCount + 1) := by
  have hlength := List.length_pos_of_ne_nil h
  have hcount : x.wholeCount = (x.exponent + 1).toNat := rfl
  by_cases hlong : x.digits.length ≤ x.wholeCount
  · refine ⟨x.wholeCount - x.digits.length + 1, ?_, ?_, by omega⟩
    · rw [wholeDigits, if_neg (by omega), fractionDigits, if_pos hlong,
        List.take_of_length_le hlong, List.append_assoc, ← value_append_zeros,
        List.replicate_succ']
    · rw [fractionDigits, if_pos hlong, List.length_singleton]
      omega
  refine ⟨0, ?_, ?_, by omega⟩
  · rw [Nat.pow_zero, Nat.mul_one, fractionDigits, if_neg hlong]
    by_cases hnone : x.wholeCount = 0
    · rw [wholeDigits, if_pos hnone, hnone, List.drop_zero, ← List.append_assoc]
      exact value_zeros_append (_ + 1) x.digits
    · have hfront : (-x.exponent - 1).toNat = 0 := by omega
      have hback : x.wholeCount - x.digits.length = 0 := by omega
      rw [wholeDigits, if_neg hnone, hfront, hback, List.replicate_zero, List.append_nil,
        List.nil_append, List.take_append_drop]
  · rw [fractionDigits, if_neg hlong, List.length_append, List.length_replicate, List.length_drop]
    omega

/-- The positional form writes the number that the decimal is. -/
theorem toRat_positionalNumeral {x : Scientific} (h : x.digits ≠ []) (negative : Bool) :
    (x.positionalNumeral negative).toRat = x.toRat := by
  obtain ⟨zeros, hvalue, hlength, -⟩ := exists_positional_digits h
  show (value (x.wholeDigits ++ x.fractionDigits) : ℚ) *
    10 ^ (0 - (x.fractionDigits.length : Int)) = value x.digits * 10 ^ _
  rw [hvalue, hlength, Nat.cast_mul, Nat.cast_pow, Nat.cast_ofNat, mul_assoc,
    ← zpow_natCast (10 : ℚ) zeros, ← zpow_add₀ (by norm_num)]
  congr 2
  omega

@[simp] theorem exponentValue_exponentialNumeral (x : Scientific) (negative : Bool) :
    (x.exponentialNumeral negative).exponentValue = x.exponent := by
  show (if decide (x.exponent < 0) then -(value (Decimal.digits x.exponent.natAbs) : Int)
    else value (Decimal.digits x.exponent.natAbs)) = x.exponent
  rw [value_digits]
  split
  · next hneg =>
    have := of_decide_eq_true hneg
    omega
  · next hneg =>
    have := of_decide_eq_false (Bool.not_eq_true _ ▸ hneg)
    omega

theorem fractionDigits_exponentialNumeral {x : Scientific} (h : x.digits ≠ []) (negative : Bool) :
    (x.exponentialNumeral negative).fractionDigits = x.digits.drop 1 := by
  obtain ⟨d, ds, hds⟩ := List.exists_cons_of_ne_nil h
  rw [Numeral.fractionDigits, exponentialNumeral, hds]
  cases ds <;> rfl

/-- The form with an exponent writes the number that the decimal is. -/
theorem toRat_exponentialNumeral {x : Scientific} (h : x.digits ≠ []) (negative : Bool) :
    (x.exponentialNumeral negative).toRat = x.toRat := by
  have hlength := List.length_pos_of_ne_nil h
  rw [Numeral.toRat, fractionDigits_exponentialNumeral h, exponentValue_exponentialNumeral, toRat]
  show (value (x.digits.take 1 ++ x.digits.drop 1) : ℚ) * _ = _
  rw [List.take_append_drop, List.length_drop]
  congr 2
  omega

/-! ## The form in documents -/

theorem pow_exponent_le {x : Scientific} (h : x.IsProper) : (10 : ℚ) ^ x.exponent ≤ x.toRat := by
  have hlength := List.length_pos_of_ne_nil h.ne_nil
  have hvalue : (10 : ℚ) ^ (x.digits.length - 1) ≤ value x.digits := by
    exact_mod_cast pow_le_value h.ne_nil h.head_ne
  calc
    (10 : ℚ) ^ x.exponent
      = 10 ^ (x.digits.length - 1) * 10 ^ (x.exponent + 1 - x.digits.length) := by
      rw [← zpow_natCast, ← zpow_add₀ (by norm_num)]
      congr 1
      omega
    _ ≤ x.toRat := mul_le_mul_of_nonneg_right hvalue (by positivity)

/-- The numeral of a decimal in a document. -/
def documentNumeral (x : Scientific) (negative : Bool) : Numeral :=
  if FloatStyle.document.isPositional x.exponent then x.positionalNumeral negative
  else x.exponentialNumeral negative

variable {x : Scientific}

theorem numeralText_document (h : x.IsWritten) (negative : Bool) :
    NumeralText (minusText negative ++ FloatStyle.document.scientificText x)
      (x.documentNumeral negative) := by
  rw [documentNumeral, FloatStyle.scientificText]
  split
  · exact numeralText_positional h negative
  · exact numeralText_exponential h negative

theorem toRat_documentNumeral (h : x.digits ≠ []) (negative : Bool) :
    (x.documentNumeral negative).toRat = x.toRat := by
  rw [documentNumeral]
  split
  · exact toRat_positionalNumeral h negative
  · exact toRat_exponentialNumeral h negative

theorem isMarked_documentNumeral (x : Scientific) (negative : Bool) :
    (x.documentNumeral negative).IsMarked := by
  rw [documentNumeral]
  split
  · exact .inl rfl
  · exact .inr rfl

/-- Nineteen digits fit a word, and the zeros of the positional form make no more than that. -/
theorem value_documentNumeral_le (h : x.IsWritten) (hlength : x.digits.length ≤ 19)
    (negative : Bool) :
    value ((x.documentNumeral negative).whole ++ (x.documentNumeral negative).fractionDigits) ≤
      Numeral.significandLimit := by
  have hlt := value_lt h.lt_ten
  rw [documentNumeral]
  split
  · next hpositional =>
    obtain ⟨zeros, hvalue, -, hzeros⟩ := exists_positional_digits h.ne_nil
    have hcount : x.wholeCount = (x.exponent + 1).toNat := rfl
    have hexponent : x.exponent ≤ 15 := by
      simp only [FloatStyle.document, Bool.and_eq_true, decide_eq_true_eq] at hpositional
      exact hpositional.2
    show value (x.wholeDigits ++ x.fractionDigits) ≤ _
    calc
      value (x.wholeDigits ++ x.fractionDigits) = value x.digits * 10 ^ zeros := hvalue
      _ ≤ 10 ^ x.digits.length * 10 ^ zeros := Nat.mul_le_mul_right _ hlt.le
      _ = 10 ^ (x.digits.length + zeros) := (Nat.pow_add ..).symm
      _ ≤ 10 ^ 19 := Nat.pow_le_pow_right (by decide) (by omega)
      _ ≤ Numeral.significandLimit := by decide
  · rw [fractionDigits_exponentialNumeral h.ne_nil]
    show value (x.digits.take 1 ++ x.digits.drop 1) ≤ _
    rw [List.take_append_drop]
    refine hlt.le.trans ((Nat.pow_le_pow_right (by decide) hlength).trans ?_)
    decide

theorem exponentFits_documentNumeral (h : x.exponent ≤ Numeral.exponentLimit) (negative : Bool) :
    (x.documentNumeral negative).ExponentFits := by
  intro ds hds
  rw [documentNumeral] at hds
  split at hds
  · cases hds
  · have hpair : (decide (x.exponent < 0), Decimal.digits x.exponent.natAbs) = (false, ds) :=
      Option.some.inj hds
    obtain ⟨hsign, rfl⟩ := Prod.mk.inj hpair
    have hnonneg := of_decide_eq_false hsign
    rw [value_digits]
    omega

end Scientific

end Intake.Decimal
