import Intake.Proofs.Metrics.ReadBack

/-!
# Reading an exact total back

The total of integers is a word, and a word is written by its digits.  The text does not say which
of the two kinds of words it is, but the total is canonical and so is what is read, so it comes back
as the same value.  The mean comes back as a double, whatever its digits are, because a double is
never written as an integer; only the mean of nothing is an integer, and stays the integer zero.
-/

namespace Intake.Metrics

open Numeric (SameKind IsFinite)

/-- The metrics of integers are two zeros or an integer and a double. -/
theorem parts_of_isInteger {data : List Numeric} (h : ∀ n ∈ data, n.isInteger = true) {m : Metrics}
    (hm : compute data = .ok m) :
    m.total.isInteger = true ∧ (data ≠ [] → ∃ x, m.average = .float x) ∧
      (data = [] → m.average = .int 0) := by
  by_cases hne : data = []
  · subst hne
    cases hm
    exact ⟨rfl, fun h => absurd rfl h, fun _ => rfl⟩
  · rw [compute_of_isInteger h hne] at hm
    split at hm
    · next total htotal =>
      cases hm
      refine ⟨?_, fun _ => ⟨_, rfl⟩, fun h => absurd h hne⟩
      rw [Numeric.ofInt?] at htotal
      split at htotal
      · cases htotal
        rfl
      split at htotal
      · cases htotal
        rfl
      · cases htotal
    · cases hm

/-- **Reading an exact total back.**  The text of the metrics of integers, whatever type they are
converted from, is decoded with the same total, which is their exact sum, and with a double as the
mean; for no integers the mean is the integer zero.  The number of elements is a word. -/
theorem fromText_text_of_integers {α : Type} (numeric : α → Numeric) {data : List α}
    (h : ∀ a ∈ data, (numeric a).isInteger = true) (hlength : data.length < 2 ^ 64) {m : Metrics}
    (hm : (ofData (data.map numeric)).result = .ok m) :
    ∃ m', decoder.fromText (Json.text m).toList = .ok m' ∧ m'.total = m.total ∧
      m'.total.toInt? = some (exactSum (data.map numeric)) ∧
      (data ≠ [] → (∃ x, m.average = .float x) ∧ ∃ x, m'.average = .float x) ∧
      (data = [] → m'.average = .int 0) := by
  have hints : ∀ n ∈ data.map numeric, n.isInteger = true := by
    intro n hn
    obtain ⟨a, ha, rfl⟩ := List.mem_map.1 hn
    exact h a ha
  have hanswer := exactAnswer_of_isInteger hints
  rw [hm] at hanswer
  rw [result_ofData] at hm
  obtain ⟨ht, ha, hmean⟩ := parts_of_compute hm
  obtain ⟨hinteger, hfloat, hzero⟩ := parts_of_isInteger hints hm
  have hfinite := Numeric.isFinite_of_isInteger hinteger
  obtain ⟨m', hm', ⟨-, htotal⟩, hclose, haverage⟩ :=
    fromText_text_of_parts ht ha hfinite (hmean (by rwa [List.length_map]) hfinite)
  have htotal := htotal (Numeric.isShort_of_isInteger hinteger)
  refine ⟨m', hm', htotal, ?_, fun hne => ?_, fun hnil => ?_⟩
  · rw [htotal]
    cases hanswer with
    | signed hv => exact congrArg some hv
    | unsigned hv _ => exact congrArg some hv
  · obtain ⟨x, hx⟩ := hfloat fun hmap => hne (List.map_eq_nil_iff.1 hmap)
    refine ⟨⟨x, hx⟩, ?_⟩
    rw [hx] at hclose
    cases hread : m'.average with
    | float y => exact ⟨y, rfl⟩
    | int v | uint v =>
      rw [hread] at hclose
      exact hclose.elim
  · have hint := hzero (by rw [hnil, List.map_nil])
    rw [haverage (by rw [hint]; trivial), hint]

/-- The least signed word and the greatest unsigned word come back. -/
theorem fromText_text_of_integers_of_extremes :
    (∃ m, (ofData ([Int64.minValue].map Numeric.ofInt64)).result = .ok m ∧
      ∃ m', decoder.fromText (Json.text m).toList = .ok m' ∧ m'.total = .int Int64.minValue ∧
        ∃ x, m'.average = .float x) ∧
    ∃ m, (ofData [.uint 0xFFFFFFFFFFFFFFFF]).result = .ok m ∧
      ∃ m', decoder.fromText (Json.text m).toList = .ok m' ∧
        m'.total = .uint 0xFFFFFFFFFFFFFFFF ∧ ∃ x, m'.average = .float x := by
  refine ⟨⟨⟨.int Int64.minValue, averageOf (.int Int64.minValue) 1⟩, rfl, ?_⟩,
    ⟨.uint 0xFFFFFFFFFFFFFFFF, averageOf (.uint 0xFFFFFFFFFFFFFFFF) 1⟩, rfl, ?_⟩
  · have hints : ∀ v ∈ [Int64.minValue], (Numeric.ofInt64 v).isInteger = true := fun _ _ => rfl
    obtain ⟨m', hm', htotal, -, haverage, -⟩ :=
      fromText_text_of_integers Numeric.ofInt64 hints (by decide) rfl
    exact ⟨m', hm', htotal, (haverage (List.cons_ne_nil _ _)).2⟩
  · have hints : ∀ n ∈ [Numeric.uint 0xFFFFFFFFFFFFFFFF], (id n).isInteger = true := by
      simp [Numeric.isInteger]
    obtain ⟨m', hm', htotal, -, haverage, -⟩ :=
      fromText_text_of_integers id hints (by decide) rfl
    exact ⟨m', hm', htotal, (haverage (List.cons_ne_nil _ _)).2⟩

end Intake.Metrics
