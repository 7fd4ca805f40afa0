import Intake.Proofs.Metrics.IntegerText

/-!
# Integers over the wire

A dataset of integers may be written as a document and read again as a list of values.  On the way
an element can change its word: an unsigned word that a signed one could hold comes back signed.
Its integer stays the same, and `ofData_congr` says that nothing else about integers matters, so
`ofValues_written` follows from the reading of integer literals.
-/

namespace Intake

open Json

namespace Numeric

/-- An integer is written by its digits, whichever word it is. -/
theorem write_of_isInteger {n : Numeric} (h : n.isInteger = true) :
    Write.write n = Decimal.intText n.intValue := by
  cases n with
  | int v => rfl
  | uint v => exact (Decimal.intText_natCast v.toNat).symm
  | float x => exact absurd h Bool.false_ne_true

end Numeric

namespace Metrics

/-- The metrics of integers depend on their number and their sum alone, and so does what is
reported. -/
theorem ofData_eq_of_exactSum {data data' : List Numeric} (h : ∀ n ∈ data, n.isInteger = true)
    (h' : ∀ n ∈ data', n.isInteger = true) (hlength : data.length = data'.length)
    (hsum : exactSum data = exactSum data') : ofData data = ofData data' := by
  cases data with
  | nil =>
    obtain rfl : data' = [] := List.length_eq_zero_iff.1 hlength.symm
    rfl
  | cons n data =>
    have hne : data' ≠ [] := by
      rintro rfl
      exact absurd hlength (by simp)
    obtain ⟨m, data', rfl⟩ := List.exists_cons_of_ne_nil hne
    have hcompute : compute (n :: data) = compute (m :: data') := by
      rw [compute_of_isInteger h (List.cons_ne_nil n data), compute_of_isInteger h' hne, hsum,
        hlength]
    have hevent : event (n :: data) = event (m :: data') := by
      funext answer
      rw [event, event, hlength]
      rfl
    rw [ofData, ofData, hcompute, hevent]

/-- Which words hold the integers makes no difference. -/
theorem ofData_congr {data data' : List Numeric} (h : ∀ n ∈ data, n.isInteger = true)
    (h' : ∀ n ∈ data', n.isInteger = true)
    (hvalues : data.map Numeric.intValue = data'.map Numeric.intValue) :
    ofData data = ofData data' := by
  refine ofData_eq_of_exactSum h h' ?_ ?_
  · have hlength := congrArg List.length hvalues
    rwa [List.length_map, List.length_map] at hlength
  · rw [exactSum_eq, exactSum_eq, hvalues]

/-- **Integers over the wire.**  The text of a dataset of integers is decoded, and the values that
are read have the same metrics as the dataset, or the same error. -/
theorem ofValues_written {data : List Numeric} (h : ∀ n ∈ data, n.isInteger = true) :
    ∃ values, Decoder.list.fromText (Json.text data).toList = .ok values ∧
      ofValues values = ofData data := by
  have htext : (Json.text data).toList =
      bracketed ((data.map Numeric.intValue).map Decimal.intText) := by
    rw [toList_text, write_list, List.map_map]
    congr 1
    exact List.map_congr_left fun n hn => Numeric.write_of_isInteger (h n hn)
  have harray := integerArray_written (data.map Numeric.intValue)
  rw [← htext] at harray
  have hexact : ∀ x ∈ (data.map Numeric.intValue).map writtenNumeral, x.IsExact := by
    intro x hx
    obtain ⟨v, hv, rfl⟩ := List.mem_map.1 hx
    obtain ⟨n, -, rfl⟩ := List.mem_map.1 hv
    exact isExact_writtenNumeral n.isWord_intValue
  have hn := hasNumber_of_isExact harray hexact
  obtain ⟨hints, hvalues⟩ := literalData_of_isExact (isInteger_of_integerArray harray) hexact
  rw [map_intValue_writtenNumeral] at hvalues
  refine ⟨_, (list_fromText_integerArray harray).1 hn, ?_⟩
  rw [ofValues_toValue hn]
  exact ofData_congr hints h hvalues

/-- A small unsigned word comes back signed, and a sum that is too large is the same error. -/
theorem ofValues_written_of_words :
    (∀ n ∈ [Numeric.uint 7, .int Int64.minValue, .uint 0xFFFFFFFFFFFFFFFF],
        n.isInteger = true) ∧
      ∃ values,
        Decoder.list.fromText (Json.text
          [Numeric.uint 7, .int Int64.minValue, .uint 0xFFFFFFFFFFFFFFFF]).toList = .ok values ∧
        ofValues values =
          ofData [Numeric.uint 7, .int Int64.minValue, .uint 0xFFFFFFFFFFFFFFFF] := by
  have hints : ∀ n ∈ [Numeric.uint 7, .int Int64.minValue, .uint 0xFFFFFFFFFFFFFFFF],
      n.isInteger = true := by
    simp [Numeric.isInteger]
  exact ⟨hints, ofValues_written hints⟩

end Metrics

end Intake
