import Intake.Proofs.Json.IntegerArray
import Intake.Proofs.Metrics.ExactTotal

/-!
# Datasets written as integer literals

A dataset may come as the text of an array, and here every element of it is an integer literal.
`IntegerArray t xs` says that `t` is such a text and that `xs` are its literals.

If all literals are exact the answer is exact: the dataset that is read has the integers that the
literals write.  One literal that is not exact changes the answer for the whole dataset.  It is read
as a double, and then so are the total and the mean, or the reader does not convert it, and then the
text is refused.  `integerArray_answer` says so, and which of the three it is.
-/

namespace Intake

open Json Json.Grammar

namespace Metrics

/-! ## Datasets of values -/

/-- Values that are all numbers make a dataset. -/
theorem numericsFrom_of_isSome {values : List Value}
    (h : ∀ v ∈ values, (Numeric.ofValue? v).isSome) (i : Nat) :
    numericsFrom i values = .ok (values.filterMap Numeric.ofValue?) := by
  induction values generalizing i with
  | nil => rfl
  | cons v values ih =>
    have ih := ih (fun w hw => h w (List.mem_cons_of_mem v hw)) (i + 1)
    obtain ⟨n, hn⟩ := Option.isSome_iff_exists.1 (h v List.mem_cons_self)
    rw [numericsFrom, hn, List.filterMap_cons_some hn]
    simp only [ih]
    rfl

/-- The metrics of values that are all numbers are those of the dataset that they make. -/
theorem ofValues_of_isSome {values : List Value}
    (h : ∀ v ∈ values, (Numeric.ofValue? v).isSome) :
    ofValues values = ofData (values.filterMap Numeric.ofValue?) := by
  rw [ofValues, numericsFrom_of_isSome h]

end Metrics

namespace Numeric

theorem ofNumber_integer {v : Int} (h : IsWord v) :
    (ofNumber (.integer v h)).isInteger = true ∧ (ofNumber (.integer v h)).intValue = v := by
  rw [ofNumber]
  split
  · next hlt => exact ⟨rfl, Int64.toInt_ofInt_of_le h.1 hlt⟩
  · next hge =>
    have hsize : v.toNat < UInt64.size := by
      have := h.2
      show v.toNat < 18446744073709551616
      omega
    refine ⟨rfl, ?_⟩
    show ((UInt64.ofNat v.toNat).toNat : Int) = v
    rw [UInt64.toNat_ofNat_of_lt' hsize]
    omega

end Numeric

namespace Metrics

/-! ## Datasets of literals -/

/-- The dataset that literals are read as. -/
def literalData (xs : List Numeral) : List Numeric :=
  (xs.map Numeral.toValue).filterMap Numeric.ofValue?

theorem isSome_ofValue?_toValue {x : Numeral} (h : x.HasNumber) :
    (Numeric.ofValue? x.toValue).isSome := by
  obtain ⟨n, hn⟩ := Numeral.hasNumber_iff.1 h
  rw [hn, Numeric.ofValue?_number]
  rfl

theorem literalData_cons {x : Numeral} {n : Number} (h : x.toNumber = .ok n) (xs : List Numeral) :
    literalData (x :: xs) = Numeric.ofNumber n :: literalData xs := by
  have hx : Numeric.ofValue? x.toValue = some (Numeric.ofNumber n) := by
    rw [Numeral.toValue_eq h, Numeric.ofValue?_number]
  rw [literalData, List.map_cons, List.filterMap_cons_some hx]
  rfl

theorem ofValues_toValue {xs : List Numeral} (h : ∀ x ∈ xs, x.HasNumber) :
    ofValues (xs.map Numeral.toValue) = ofData (literalData xs) := by
  refine ofValues_of_isSome fun v hv => ?_
  obtain ⟨x, hx, rfl⟩ := List.mem_map.1 hv
  exact isSome_ofValue?_toValue (h x hx)

/-- Exact literals make a dataset of the integers that they write. -/
theorem literalData_of_isExact {xs : List Numeral} (hi : ∀ x ∈ xs, x.IsInteger)
    (hx : ∀ x ∈ xs, x.IsExact) :
    (∀ n ∈ literalData xs, n.isInteger = true) ∧
      (literalData xs).map Numeric.intValue = xs.map Numeral.intValue := by
  induction xs with
  | nil => exact ⟨fun n hn => absurd hn List.not_mem_nil, rfl⟩
  | cons x xs ih =>
    obtain ⟨hinteger, hi⟩ := List.forall_mem_cons.1 hi
    obtain ⟨hexact, hx⟩ := List.forall_mem_cons.1 hx
    obtain ⟨hints, hvalues⟩ := ih hi hx
    have hnumber := Numeral.toNumber_of_isExact hinteger hexact
    obtain ⟨hint, hvalue⟩ := Numeric.ofNumber_integer hexact.isWord
    rw [literalData_cons hnumber]
    constructor
    · rw [List.forall_mem_cons]
      exact ⟨hint, hints⟩
    · rw [List.map_cons, List.map_cons, hvalue, hvalues]

/-- A literal that is not exact makes a double. -/
theorem exists_float_of_not_isExact {xs : List Numeral} (hi : ∀ x ∈ xs, x.IsInteger)
    (hn : ∀ x ∈ xs, x.HasNumber) (hx : ¬ ∀ x ∈ xs, x.IsExact) :
    ∃ n ∈ literalData xs, n.isInteger = false := by
  induction xs with
  | nil => exact absurd (fun x hx => absurd hx List.not_mem_nil) hx
  | cons x xs ih =>
    obtain ⟨hinteger, hi⟩ := List.forall_mem_cons.1 hi
    obtain ⟨⟨n, hnumber⟩, hn⟩ := List.forall_mem_cons.1 hn
    rw [literalData_cons hnumber]
    by_cases hexact : x.IsExact
    · have htail : ¬ ∀ y ∈ xs, y.IsExact := fun hall =>
        hx (List.forall_mem_cons.2 ⟨hexact, hall⟩)
      obtain ⟨m, hm, hfloat⟩ := ih hi hn htail
      exact ⟨m, List.mem_cons_of_mem _ hm, hfloat⟩
    · obtain ⟨f, finite, rfl⟩ := Numeral.eq_float_of_not_isExact hinteger hexact hnumber
      exact ⟨_, List.mem_cons_self, rfl⟩

/-! ## Answers -/

/-- The text of a dataset is decoded, and the answer is an integer total equal to the given sum or
the error that carries this sum. -/
def AnsweredExactly (t : List Char) (sum : Int) : Prop :=
  ∃ values, Decoder.list.fromText t = .ok values ∧
    ((∃ m, (ofValues values).result = .ok m ∧ m.total.toInt? = some sum) ∨
      (ofValues values).result = .error (.totalOutOfRange sum))

theorem ExactAnswer.total_or_error {sum : Int} {answer : Except Error Metrics}
    (h : ExactAnswer sum answer) :
    (∃ m, answer = .ok m ∧ m.total.toInt? = some sum) ∨
      answer = .error (.totalOutOfRange sum) := by
  cases h with
  | signed h => exact Or.inl ⟨_, rfl, congrArg some h⟩
  | unsigned h _ => exact Or.inl ⟨_, rfl, congrArg some h⟩
  | outOfRange _ => exact Or.inr rfl

theorem hasNumber_of_isExact {t : List Char} {xs : List Numeral} (h : IntegerArray t xs)
    (hx : ∀ x ∈ xs, x.IsExact) : ∀ x ∈ xs, x.HasNumber :=
  fun x hmem => (hx x hmem).hasNumber (isInteger_of_integerArray h x hmem)

/-- Exact literals have an exact answer. -/
theorem answeredExactly_of_isExact {t : List Char} {xs : List Numeral} (h : IntegerArray t xs)
    (hx : ∀ x ∈ xs, x.IsExact) : AnsweredExactly t (literalSum xs) := by
  have hn := hasNumber_of_isExact h hx
  obtain ⟨hints, hvalues⟩ := literalData_of_isExact (isInteger_of_integerArray h) hx
  have hsum : exactSum (literalData xs) = literalSum xs := by
    rw [exactSum_eq, hvalues, literalSum, foldl_add_eq, Int.zero_add]
  refine ⟨xs.map Numeral.toValue, (list_fromText_integerArray h).1 hn, ?_⟩
  rw [ofValues_toValue hn, ← hsum]
  exact (exactAnswer_of_isInteger hints).total_or_error

/-- If a literal is not exact, the total and the mean are doubles. -/
theorem float_of_not_isExact {t : List Char} {xs : List Numeral} (h : IntegerArray t xs)
    (hn : ∀ x ∈ xs, x.HasNumber) (hx : ¬ ∀ x ∈ xs, x.IsExact) :
    ∃ values total average, Decoder.list.fromText t = .ok values ∧
      (ofValues values).result = .ok ⟨.float total, .float average⟩ := by
  have hfloat := exists_float_of_not_isExact (isInteger_of_integerArray h) hn hx
  obtain ⟨total, average, hresult⟩ := result_of_float hfloat
  refine ⟨xs.map Numeral.toValue, total, average, (list_fromText_integerArray h).1 hn, ?_⟩
  rw [ofValues_toValue hn, hresult]

/-- A double as the total is no exact answer. -/
theorem not_answeredExactly_of_float {t : List Char} {values : List Value} {total average : Float}
    (h : Decoder.list.fromText t = .ok values)
    (hr : (ofValues values).result = .ok ⟨.float total, .float average⟩) (sum : Int) :
    ¬ AnsweredExactly t sum := by
  rintro ⟨values', h', hanswer⟩
  obtain rfl : values = values' := Except.ok.inj (h.symm.trans h')
  rw [hr] at hanswer
  rcases hanswer with ⟨m, hm, htotal⟩ | herror
  · rw [← Except.ok.inj hm] at htotal
    exact absurd htotal (by simp [Numeric.toInt?])
  · exact absurd herror (by simp)

theorem not_answeredExactly_of_not_isExact {t : List Char} {xs : List Numeral}
    (h : IntegerArray t xs) (hx : ¬ ∀ x ∈ xs, x.IsExact) (sum : Int) :
    ¬ AnsweredExactly t sum := by
  by_cases hn : ∀ x ∈ xs, x.HasNumber
  · obtain ⟨values, total, average, hread, hresult⟩ := float_of_not_isExact h hn hx
    exact not_answeredExactly_of_float hread hresult sum
  · rintro ⟨values, hread, -⟩
    obtain ⟨e, he, -⟩ := (list_fromText_integerArray h).2 hn
    rw [hread] at he
    exact absurd he (by simp)

/-- The zero after a minus sign. -/
def minusZero : Numeral := ⟨true, [0], none, none⟩

theorem integerArray_minusZero : IntegerArray ['[', '-', '0', ']'] [minusZero] := by
  have hwhole : IsWhole [0] := ⟨⟨by decide, by decide⟩, by decide⟩
  have htext : NumeralText (minusText true ++ digitsText [0] ++ [] ++ []) minusZero :=
    .intro hwhole .absent .absent
  have hpieces : ∀ p ∈ [(⟨[], ['-', '0'], [], minusZero, 0⟩ : Piece Numeral)],
      p.Framed ∧ NumeralText p.core p.value ∧ p.value.IsInteger := by
    intro p hp
    rw [List.mem_singleton.1 hp]
    exact ⟨⟨blank_nil, blank_nil⟩, htext, rfl, rfl⟩
  exact .intro blank_nil blank_nil blank_nil (fun p hp => (hpieces p hp).1)
    (fun p hp => (hpieces p hp).2)

/-- An integer beyond the words is rounded, and a zero after a minus sign is a double too. -/
theorem not_answeredExactly_of_literals :
    (IntegerArray "[18446744073709551617]".toList [writtenNumeral 18446744073709551617] ∧
      ¬ AnsweredExactly "[18446744073709551617]".toList
        (literalSum [writtenNumeral 18446744073709551617])) ∧
    (IntegerArray "[-0]".toList [minusZero] ∧
      ¬ AnsweredExactly "[-0]".toList (literalSum [minusZero])) := by
  have hlarge : IntegerArray "[18446744073709551617]".toList
      [writtenNumeral 18446744073709551617] := by
    have htext : "[18446744073709551617]".toList =
        bracketed ([18446744073709551617].map Decimal.intText) := by decide +kernel
    rw [htext]
    exact integerArray_written [18446744073709551617]
  have hzero : IntegerArray "[-0]".toList [minusZero] := integerArray_minusZero
  refine ⟨⟨hlarge, not_answeredExactly_of_not_isExact hlarge (fun hall => ?_) _⟩,
    ⟨hzero, not_answeredExactly_of_not_isExact hzero (fun hall => ?_) _⟩⟩
  · have hword := (hall _ List.mem_cons_self).isWord
    rw [intValue_writtenNumeral] at hword
    exact absurd hword (by decide)
  · exact (hall _ List.mem_cons_self).not_isMinusZero ⟨rfl, rfl⟩

/-- **A dataset written as integer literals.**  The answer is exact exactly if all literals are.
Otherwise the total and the mean are doubles, or the reader does not convert some literal and the
text is refused. -/
theorem integerArray_answer {t : List Char} {xs : List Numeral} (h : IntegerArray t xs) :
    (AnsweredExactly t (literalSum xs) ↔ ∀ x ∈ xs, x.IsExact) ∧
      ((∀ x ∈ xs, x.HasNumber) → ¬ (∀ x ∈ xs, x.IsExact) →
        ∃ values total average, Decoder.list.fromText t = .ok values ∧
          (ofValues values).result = .ok ⟨.float total, .float average⟩) ∧
      (¬ (∀ x ∈ xs, x.HasNumber) →
        ∃ e, Decoder.list.fromText t = .error e ∧ e.cause = .numberOutOfRange) := by
  refine ⟨⟨fun hexact => ?_, answeredExactly_of_isExact h⟩, float_of_not_isExact h,
    (list_fromText_integerArray h).2⟩
  by_cases hx : ∀ x ∈ xs, x.IsExact
  · exact hx
  · exact absurd hexact (not_answeredExactly_of_not_isExact h hx (literalSum xs))

/-- The greatest and the least word make a total between them. -/
theorem integerArray_answer_of_words :
    IntegerArray "[18446744073709551615,-9223372036854775808]".toList
        ([18446744073709551615, -9223372036854775808].map writtenNumeral) ∧
      AnsweredExactly "[18446744073709551615,-9223372036854775808]".toList 9223372036854775807 := by
  have htext : "[18446744073709551615,-9223372036854775808]".toList =
      bracketed ([18446744073709551615, -9223372036854775808].map Decimal.intText) := by
    decide +kernel
  have harray : IntegerArray "[18446744073709551615,-9223372036854775808]".toList
      ([18446744073709551615, -9223372036854775808].map writtenNumeral) := by
    rw [htext]
    exact integerArray_written [18446744073709551615, -9223372036854775808]
  have hsum : literalSum ([18446744073709551615, -9223372036854775808].map writtenNumeral) =
      9223372036854775807 := by decide +kernel
  refine ⟨harray, ?_⟩
  rw [← hsum]
  refine (integerArray_answer harray).1.2 fun x hx => ?_
  obtain ⟨v, hv, rfl⟩ := List.mem_map.1 hx
  refine isExact_writtenNumeral ?_
  rcases List.mem_cons.1 hv with rfl | hv
  · decide
  · rw [List.mem_singleton.1 hv]
    decide

end Metrics

end Intake
