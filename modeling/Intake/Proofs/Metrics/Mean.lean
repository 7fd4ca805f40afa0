import Intake.Proofs.Float.RoundedMean
import Intake.Proofs.Metrics.ReadBack

/-!
# Means and extremes

The mean of integers lies between the least and the greatest of them, but the mean of a dataset is
computed in doubles.  Rounding may carry the total beyond what the least or the greatest integer
amounts to, and then the mean may be beyond the integer: nine times `2 ^ 53 - 1` has a mean of
`2 ^ 53 - 2`, `exists_average_lt_least`.

It never is further away than the next double, as long as the number of integers is a double itself,
which it is up to `2 ^ 53`: `average_between`.  So the mean is in the range whenever rounding leaves
the total as it is.  The count is a word, so a dataset is to be shorter than `2 ^ 64`, as every list
in a memory is.
-/

namespace Intake

open Binary64

namespace Metrics

variable {data : List Numeric} {m : Metrics} {low high : Int}

/-! ## Sums between extremes -/

/-- The least and the greatest integer of a dataset. -/
structure Extremes (data : List Numeric) (low high : Int) : Prop where
  low_mem : ∃ n ∈ data, n.intValue = low
  high_mem : ∃ n ∈ data, n.intValue = high
  low_le : ∀ n ∈ data, low ≤ n.intValue
  le_high : ∀ n ∈ data, n.intValue ≤ high

/-- Copies of one integer have it at both ends. -/
theorem extremes_replicate (count : Nat) (n : Numeric) :
    Extremes (List.replicate (count + 1) n) n.intValue n.intValue := by
  have hmem : n ∈ List.replicate (count + 1) n := List.mem_replicate.2 ⟨by omega, rfl⟩
  exact ⟨⟨n, hmem, rfl⟩, ⟨n, hmem, rfl⟩,
    fun n' hn' => (congrArg Numeric.intValue (List.eq_of_mem_replicate hn')).ge,
    fun n' hn' => (congrArg Numeric.intValue (List.eq_of_mem_replicate hn')).le⟩

theorem Extremes.exactSum_bounds (h : Extremes data low high) :
    (data.length * low : ℚ) ≤ exactSum data ∧ (exactSum data : ℚ) ≤ data.length * high := by
  obtain ⟨hlow, hhigh⟩ := Metrics.exactSum_bounds fun n hn => ⟨h.low_le n hn, h.le_high n hn⟩
  exact ⟨by exact_mod_cast hlow, by exact_mod_cast hhigh⟩

/-- One of integers up to `2 ^ 53` is a double. -/
theorem double_of_mem (hdata : ∀ n ∈ data, n.intValue.natAbs ≤ 2 ^ 53) {v : Int}
    (hv : ∃ n ∈ data, n.intValue = v) :
    (Numeric.nearestFloat v).isFinite = true ∧ toRat (Numeric.nearestFloat v) = v := by
  obtain ⟨n, hn, rfl⟩ := hv
  have hle := hdata n hn
  exact ⟨Numeric.isFinite_nearestFloat (by omega), Numeric.toRat_nearestFloat hle⟩

/-! ## Results -/

/-- The total of integers is their sum as a double, when it is divided. -/
theorem toFloat_total (hints : ∀ n ∈ data, n.isInteger = true) (h : (ofData data).result = .ok m) :
    m.total.toFloat = Numeric.nearestFloat (exactSum data) ∧ (exactSum data).natAbs < 2 ^ 64 := by
  obtain ⟨hinteger, hvalue⟩ := intValue_total hints h
  have hword := m.total.isWord_intValue
  unfold Json.IsWord at hword
  rw [Numeric.toFloat_of_isInteger hinteger, ← hvalue]
  exact ⟨rfl, by omega⟩

/-- A total that is a double is not changed when it is divided. -/
theorem toRat_total_of_double (hints : ∀ n ∈ data, n.isInteger = true)
    (h : (ofData data).result = .ok m)
    (hdouble : ∃ x, x.isFinite = true ∧ toRat x = exactSum data) :
    toRat m.total.toFloat = exactSum data := by
  obtain ⟨htotal, hword⟩ := toFloat_total hints h
  obtain ⟨x, hx, hvalue⟩ := hdouble
  rw [htotal, ← hvalue]
  exact (Numeric.rounds_nearestFloat hword).toRat_eq (Numeric.isFinite_nearestFloat hword) hx
    hvalue.symm

/-- The mean of integers is their sum and their number, rounded, and the quotient, rounded. -/
theorem exists_roundedMean (hints : ∀ n ∈ data, n.isInteger = true) (hne : data ≠ [])
    (hlength : data.length < 2 ^ 64) (h : (ofData data).result = .ok m) :
    ∃ average, m.average = .float average ∧ RoundedMean (exactSum data) data.length
      (toRat m.total.toFloat) (toRat (Numeric.nearestFloat data.length)) average := by
  have hfinite := Numeric.isFinite_of_isInteger (intValue_total hints h).1
  obtain ⟨htotal, hword⟩ := toFloat_total hints h
  have hcount : data.length ≠ 0 := fun hzero => hne (List.length_eq_zero_iff.1 hzero)
  have hdivisor := Numeric.hasValue_nearestFloat hcount hlength
  have hnear := Numeric.abs_toRat_nearestFloat_sub_le (v := data.length) (by omega)
  rw [Int.cast_natCast, Nat.abs_cast] at hnear
  rw [result_ofData] at h
  refine ⟨_, (total_and_average_of_compute h hne).2, ?_, hnear, hdivisor.pos, ?_, ?_⟩
  · rw [htotal]
    exact Numeric.abs_toRat_nearestFloat_sub_le hword
  · exact isFinite_averageOf hfinite hcount hlength
  · exact rounds_div (Numeric.isFinite_toFloat hfinite) hdivisor

/-- **Means and extremes.**  The mean of integers that are doubles is in their range, unless
rounding carries the total beyond what an end of the range amounts to.  In any case it is next to
the range, or near to it if there are more than `2 ^ 53` integers. -/
theorem average_between (hints : ∀ n ∈ data, n.isInteger = true ∧ n.intValue.natAbs ≤ 2 ^ 53)
    (hextremes : Extremes data low high) (hlength : data.length < 2 ^ 64)
    (h : (ofData data).result = .ok m) :
    ∃ average, m.average = .float average ∧ average.isFinite = true ∧
      (toRat (Numeric.nearestFloat data.length) * low ≤ toRat m.total.toFloat →
        low ≤ toRat average) ∧
      (toRat m.total.toFloat ≤ toRat (Numeric.nearestFloat data.length) * high →
        toRat average ≤ high) ∧
      (data.length ≤ 2 ^ 53 → NextTo low high average ∧
        ((∃ x, x.isFinite = true ∧ toRat x = exactSum data) →
          low ≤ toRat average ∧ toRat average ≤ high)) ∧
      NearTo low high average := by
  have hinteger : ∀ n ∈ data, n.isInteger = true := fun n hn => (hints n hn).1
  have hbound : ∀ n ∈ data, n.intValue.natAbs ≤ 2 ^ 53 := fun n hn => (hints n hn).2
  have hne : data ≠ [] := by
    obtain ⟨n, hn, -⟩ := hextremes.low_mem
    exact List.ne_nil_of_mem hn
  obtain ⟨average, haverage, hmean⟩ := exists_roundedMean hinteger hne hlength h
  obtain ⟨hfiniteLow, hlow⟩ := double_of_mem hbound hextremes.low_mem
  obtain ⟨hfiniteHigh, hhigh⟩ := double_of_mem hbound hextremes.high_mem
  obtain ⟨hsumLow, hsumHigh⟩ := hextremes.exactSum_bounds
  rw [← hlow] at hsumLow
  rw [← hhigh] at hsumHigh
  have hge := hmean.ge_of_le_total hfiniteLow
  have hle := hmean.le_of_total_le hfiniteHigh
  have hnear := hmean.nearTo hfiniteLow hfiniteHigh hsumLow hsumHigh
  have hnext := hmean.nextTo hfiniteLow hfiniteHigh hsumLow hsumHigh
  rw [hlow] at hge hnear hnext hsumLow
  rw [hhigh] at hle hnear hnext hsumHigh
  refine ⟨average, haverage, hmean.isFinite, hge, hle, fun hexact => ?_, hnear⟩
  have hcount : toRat (Numeric.nearestFloat data.length) = data.length := by
    rw [Numeric.toRat_nearestFloat (by omega), Int.cast_natCast]
  refine ⟨hnext hcount, fun hdouble => ?_⟩
  have htotal := toRat_total_of_double hinteger h hdouble
  rw [hcount, htotal] at hge hle
  exact ⟨hge hsumLow, hle hsumHigh⟩

/-- The metrics of nine times `2 ^ 53 - 1`. -/
theorem result_replicate : (ofData (List.replicate 9 (.int 9007199254740991))).result =
    .ok ⟨.int 81064793292668919, averageOf (.int 81064793292668919) 9⟩ := rfl

theorem natAbs_le_of_mem_replicate : ∀ n ∈ List.replicate 9 (Numeric.int 9007199254740991),
    n.isInteger = true ∧ n.intValue.natAbs ≤ 2 ^ 53 := by
  intro n hn
  rw [List.eq_of_mem_replicate hn]
  decide

/-- The mean of nine times `2 ^ 53 - 1` is next to them. -/
theorem average_between_of_replicate : ∃ m average,
    (ofData (List.replicate 9 (.int 9007199254740991))).result = .ok m ∧
      m.average = .float average ∧
      NextTo (9007199254740991 : Int) (9007199254740991 : Int) average := by
  obtain ⟨average, haverage, -, -, -, hnext, -⟩ := average_between natAbs_le_of_mem_replicate
    (extremes_replicate 8 _) (by decide) result_replicate
  exact ⟨_, average, result_replicate, haverage, (hnext (by decide)).1⟩

/-- Nine times `2 ^ 53 - 1` has a mean that is less than each of them. -/
theorem exists_average_lt_least :
    (∀ n ∈ List.replicate 9 (Numeric.int 9007199254740991),
      n.isInteger = true ∧ n.intValue.natAbs ≤ 2 ^ 53) ∧
    Extremes (List.replicate 9 (.int 9007199254740991)) 9007199254740991 9007199254740991 ∧
    ∃ m average, (ofData (List.replicate 9 (.int 9007199254740991))).result = .ok m ∧
      m.average = .float average ∧ average.isFinite = true ∧ toRat average < 9007199254740991 := by
  have haverage : Numeric.nearestFloat 81064793292668919 / Numeric.nearestFloat 9 =
      Numeric.nearestFloat 9007199254740990 := by decide +kernel
  refine ⟨natAbs_le_of_mem_replicate, extremes_replicate 8 _, _, _, result_replicate,
    congrArg Numeric.float haverage, Numeric.isFinite_nearestFloat (by decide), ?_⟩
  rw [Numeric.toRat_nearestFloat (by decide)]
  norm_num

end Metrics

end Intake
