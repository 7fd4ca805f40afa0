import Intake.Proofs.Json.Grammar

/-!
# Integer literals

An integer literal is a numeral with a sign and digits and nothing else, of any length.  It writes
an integer, `Numeral.intValue`.  `Numeral.IsExact` says when it is read as that integer: the integer
is a 64-bit word, and the literal is not a zero after a minus sign.  Every other integer literal is
scaled to a double, and it is read as this double if it is finite.

An integer is written as an exact literal if it is a word, since zero is written without a sign.
-/

namespace Intake.Json

open Decimal Grammar

namespace Numeral

/-! ## Values of literals -/

/-- The integer that the sign and the whole digits of a numeral write. -/
def intValue (x : Numeral) : Int :=
  if x.negative then -(Decimal.value x.whole : Int) else Decimal.value x.whole

/-- The numeral is an integer literal: a sign and digits, and nothing else. -/
structure IsInteger (x : Numeral) : Prop where
  fraction : x.fraction = none
  exponent : x.exponent = none

/-- The numeral is a zero after a minus sign. -/
def IsMinusZero (x : Numeral) : Prop := x.negative = true ∧ Decimal.value x.whole = 0

/-- The integer that the numeral writes is a word, and it is not a zero after a minus sign. -/
structure IsExact (x : Numeral) : Prop where
  isWord : IsWord x.intValue
  not_isMinusZero : ¬ x.IsMinusZero

theorem integer?_of_isInteger {x : Numeral} (h : x.IsInteger) :
    x.integer? =
      if x.negative ∧ Decimal.value x.whole = 0 then none else Number.ofInt? x.intValue := by
  have hplain : (x.fraction.isSome ∨ x.exponent.isSome ∨
      (x.negative ∧ Decimal.value x.whole = 0)) ↔ (x.negative ∧ Decimal.value x.whole = 0) := by
    rw [h.fraction, h.exponent]
    simp
  simp only [integer?, hplain]
  rfl

/-- An exact literal is read as the integer that it writes. -/
theorem toNumber_of_isExact {x : Numeral} (h : x.IsInteger) (hx : x.IsExact) :
    x.toNumber = .ok (.integer x.intValue hx.isWord) := by
  have hz : ¬ (x.negative = true ∧ Decimal.value x.whole = 0) := hx.not_isMinusZero
  have hinteger : x.integer? = some (.integer x.intValue hx.isWord) := by
    rw [integer?_of_isInteger h, if_neg hz]
    exact dif_pos hx.isWord
  rw [toNumber, hinteger]

theorem eq_float_of_ofFloat? {f : Float} {n : Number} (h : Number.ofFloat? f = some n) :
    ∃ finite, n = .float f finite := by
  unfold Number.ofFloat? at h
  split at h
  · next finite => exact ⟨finite, (Option.some.inj h).symm⟩
  · exact absurd h (by simp)

/-- What is not read as an integer is read as a double. -/
theorem eq_float_of_toFloat {x : Numeral} {n : Number} (h : x.toFloat = .ok n) :
    ∃ g finite, n = .float g finite := by
  have hsigned : ∀ {f : Float} {m : Number}, x.signed? f = some m →
      (Except.ok m : Except Nat Number) = .ok n → ∃ g finite, n = .float g finite := by
    intro f m hm hn
    rw [← Except.ok.inj hn]
    exact ⟨_, eq_float_of_ofFloat? hm⟩
  unfold toFloat at h
  simp only at h
  -- the three ways to a double, each of which may leave the range
  split at h
  · split at h
    · next hm => exact hsigned hm h
    · exact absurd h (by simp)
  · split at h
    · split at h
      · next hm => exact hsigned hm h
      · exact absurd h (by simp)
    · split at h
      · split at h
        · next hm => exact hsigned hm h
        · exact absurd h (by simp)
      · exact absurd h (by simp)

/-- An integer literal that is not exact is read as a double. -/
theorem eq_float_of_not_isExact {x : Numeral} (h : x.IsInteger) (hx : ¬ x.IsExact) {n : Number}
    (hn : x.toNumber = .ok n) : ∃ g finite, n = .float g finite := by
  have hinteger : x.integer? = none := by
    rw [integer?_of_isInteger h]
    split
    · rfl
    · next hz => exact dif_neg fun hw => hx ⟨hw, hz⟩
  rw [toNumber, hinteger] at hn
  exact eq_float_of_toFloat hn

end Numeral

/-! ## Written literals -/

theorem isDigits_digits (n : Nat) : IsDigits (digits n) where
  ne_nil := digits_ne_nil n
  lt_ten _ hd := lt_ten_of_mem_digits hd

theorem isWhole_digits (n : Nat) : IsWhole (digits n) where
  toIsDigits := isDigits_digits n
  no_leading_zero h := by
    by_cases hn : n = 0
    · subst hn
      decide
    · exact absurd h (head?_digits_ne hn)

/-- The form in which an integer is written. -/
def writtenNumeral (v : Int) : Numeral := ⟨decide (v < 0), digits v.natAbs, none, none⟩

theorem numeralText_intText (v : Int) : NumeralText (intText v) (writtenNumeral v) := by
  have htext : intText v =
      minusText (decide (v < 0)) ++ digitsText (digits v.natAbs) ++ [] ++ [] := by
    rw [List.append_nil, List.append_nil]
    unfold intText minusText
    by_cases hv : v < 0
    · rw [if_pos hv, if_pos (decide_eq_true hv)]
      rfl
    · rw [if_neg hv, if_neg (by simpa using hv)]
      rfl
  rw [htext]
  exact .intro (isWhole_digits v.natAbs) .absent .absent

theorem isInteger_writtenNumeral (v : Int) : (writtenNumeral v).IsInteger := ⟨rfl, rfl⟩

@[simp] theorem intValue_writtenNumeral (v : Int) : (writtenNumeral v).intValue = v := by
  unfold writtenNumeral Numeral.intValue
  simp only [value_digits, decide_eq_true_eq]
  split <;> omega

theorem map_intValue_writtenNumeral (vs : List Int) :
    (vs.map writtenNumeral).map Numeral.intValue = vs := by
  rw [List.map_map]
  refine (List.map_congr_left fun v _ => ?_).trans (List.map_id vs)
  exact intValue_writtenNumeral v

/-- A word is written as an exact literal. -/
theorem isExact_writtenNumeral {v : Int} (h : IsWord v) : (writtenNumeral v).IsExact where
  isWord := by
    rw [intValue_writtenNumeral]
    exact h
  not_isMinusZero := by
    rintro ⟨hneg, hzero⟩
    have hneg : v < 0 := of_decide_eq_true hneg
    have hzero : v.natAbs = 0 := (value_digits v.natAbs).symm.trans hzero
    omega

end Intake.Json
