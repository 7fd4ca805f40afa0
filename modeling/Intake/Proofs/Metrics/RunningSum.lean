import Intake.Proofs.Float.Sums
import Intake.Proofs.Metrics.ReadBack

/-!
# The running sum of doubles

Every number of a document is finite, but a sum of them need not be.  What keeps such a sum from
becoming NaN is that only opposite infinities have no sum: the running sum may become infinite, but
the elements that follow are finite, so it stays the infinity that it is,
`floatTotal_eq_of_not_isFinite`.  What keeps it from becoming a negative zero is that it starts at a
positive zero.

Both are kept by each addition, `IsProper.add`, and so by all of them.  The mean is a total that is
not NaN, divided by a positive count, and so it is not NaN either.  The count is a word, so for the
mean a list of values is to be shorter than `2 ^ 64`, as every list in a memory is.
-/

namespace Intake

open Json Binary64 Float.Model.UnpackedFloat

namespace Numeric

/-! ## Numbers of a document -/

/-- A number of a document is finite. -/
theorem isFinite_of_ofValue? {v : Value} {n : Numeric} (h : ofValue? v = some n) : n.IsFinite := by
  obtain ⟨x, -, rfl⟩ := ofValue?_eq_some_iff.1 h
  cases x with
  | integer v hword =>
    rw [ofNumber]
    split <;> trivial
  | float x finite => exact finite

end Numeric

namespace Metrics

open Numeric (IsFinite)

variable {data : List Numeric} {values : List Value} {m : Metrics}

/-! ## Adding the elements -/

/-- What each addition keeps is kept by all of them. -/
theorem isProper_foldl {sum : Float} (h : IsProper sum) (hdata : ∀ n ∈ data, n.IsFinite) :
    IsProper (data.foldl (fun sum n => sum + n.toFloat) sum) := by
  induction data generalizing sum with
  | nil => exact h
  | cons n data ih =>
    obtain ⟨hn, hdata⟩ := List.forall_mem_cons.1 hdata
    exact ih (h.add (Numeric.isFinite_toFloat hn)) hdata

theorem isProper_floatTotal (hdata : ∀ n ∈ data, n.IsFinite) : IsProper (floatTotal data) :=
  isProper_foldl isProper_zero hdata

/-- An infinite sum is not changed by the elements that follow. -/
theorem foldl_eq_of_infinity {sum : Float} {s : Sign}
    (h : sum.toModel.unpack = .infinity s) (hdata : ∀ n ∈ data, n.IsFinite) :
    data.foldl (fun sum n => sum + n.toFloat) sum = sum := by
  induction data with
  | nil => rfl
  | cons n data ih =>
    obtain ⟨hn, hdata⟩ := List.forall_mem_cons.1 hdata
    rw [List.foldl_cons, infinity_add h (Numeric.isFinite_toFloat hn), ih hdata]

/-- The running sum stops where it is not finite any more. -/
theorem floatTotal_eq_of_not_isFinite (hdata : ∀ n ∈ data, n.IsFinite) {count : Nat}
    (h : (floatTotal (data.take count)).isFinite = false) :
    floatTotal data = floatTotal (data.take count) := by
  have htake : ∀ n ∈ data.take count, n.IsFinite := fun n hn => hdata n (List.mem_of_mem_take hn)
  have hdrop : ∀ n ∈ data.drop count, n.IsFinite := fun n hn => hdata n (List.mem_of_mem_drop hn)
  obtain ⟨s, hs⟩ := exists_infinity_of_not_isFinite (isProper_floatTotal htake).isNaN h
  have hsplit : floatTotal data =
      (data.drop count).foldl (fun sum n => sum + n.toFloat) (floatTotal (data.take count)) := by
    rw [floatTotal, floatTotal, ← List.foldl_append, List.take_append_drop]
  rw [hsplit, foldl_eq_of_infinity hs hdrop]

/-! ## Results -/

/-- A total that is a double is the running sum. -/
theorem total_eq_float {x : Float} (h : compute data = .ok m) (hx : m.total = .float x) :
    (∃ n ∈ data, n.isInteger = false) ∧ x = floatTotal data := by
  by_cases hfloat : ∃ n ∈ data, n.isInteger = false
  · rw [compute_of_float hfloat] at h
    cases h
    cases hx
    exact ⟨hfloat, rfl⟩
  · have hint : ∀ n ∈ data, n.isInteger = true := by simpa using hfloat
    have hanswer := exactAnswer_of_isInteger hint
    rw [result_ofData, h] at hanswer
    cases hanswer <;> cases hx

/-- A total is not NaN, and a double that is a total is not a negative zero. -/
theorem isProper_total (hdata : ∀ n ∈ data, n.IsFinite) (h : compute data = .ok m) {x : Float}
    (hx : m.total = .float x) : IsProper x := by
  obtain ⟨-, rfl⟩ := total_eq_float h hx
  exact isProper_floatTotal hdata

theorem isNaN_toFloat_total (hdata : ∀ n ∈ data, n.IsFinite) (h : compute data = .ok m) :
    m.total.toFloat.isNaN = false := by
  cases htotal : m.total with
  | int v => exact (rounds_toRat (Numeric.isFinite_toFloat (n := .int v) trivial)).isNaN
  | uint v => exact (rounds_toRat (Numeric.isFinite_toFloat (n := .uint v) trivial)).isNaN
  | float x => exact (isProper_total hdata h htotal).isNaN

/-- A mean is not NaN. -/
theorem isNaN_average (hdata : ∀ n ∈ data, n.IsFinite) (hlength : data.length < 2 ^ 64)
    (h : compute data = .ok m) {x : Float} (hx : m.average = .float x) : x.isNaN = false := by
  rcases eq_or_ne data [] with rfl | hne
  · cases h
    cases hx
  · have hcount : data.length ≠ 0 := fun hzero => hne (List.length_eq_zero_iff.1 hzero)
    rw [(total_and_average_of_compute h hne).2] at hx
    cases hx
    exact isNaN_div (isNaN_toFloat_total hdata h) (Numeric.hasValue_nearestFloat hcount hlength)

/-- The numbers that values are, are finite. -/
theorem isFinite_of_forall₂
    (h : List.Forall₂ (fun v n => Numeric.ofValue? v = some n) values data) :
    ∀ n ∈ data, n.IsFinite := by
  induction h with
  | nil => exact fun n hn => absurd hn List.not_mem_nil
  | cons hn _ ih => exact List.forall_mem_cons.2 ⟨Numeric.isFinite_of_ofValue? hn, ih⟩

/-- The first of the values are the first of the numbers. -/
theorem eq_take_of_forall₂ {count : Nat} {first : List Numeric}
    (h : List.Forall₂ (fun v n => Numeric.ofValue? v = some n) values data)
    (hfirst : List.Forall₂ (fun v n => Numeric.ofValue? v = some n) (values.take count) first) :
    first = data.take count := by
  have hunique : Relator.RightUnique fun v n => Numeric.ofValue? v = some n :=
    fun v n n' hn hn' => Option.some.inj (hn.symm.trans hn')
  exact hunique.forall₂ hfirst (List.forall₂_take count h)

/-- **No NaN and no negative zero.**  The total of values is not NaN and, if it is a double, not a
negative zero; the mean is not NaN.  A running sum that is not finite any more is the total,
whatever elements follow. -/
theorem ofValues_isNaN (h : (ofValues values).result = .ok m) :
    (∀ x, m.total = .float x → x.isNaN = false ∧ x ≠ -0.0) ∧
    (values.length < 2 ^ 64 → ∀ x, m.average = .float x → x.isNaN = false) ∧
    (∀ count first x, (ofValues (values.take count)).result = .ok first → first.total = .float x →
      x.isFinite = false → m.total = .float x) := by
  obtain ⟨data, hvalues, hcompute⟩ := exists_compute_of_ofValues h
  have hdata := isFinite_of_forall₂ hvalues
  refine ⟨fun x hx => ?_, fun hlength x hx => ?_, fun count first x hfirst hx hinfinite => ?_⟩
  · have hproper := isProper_total hdata hcompute hx
    exact ⟨hproper.isNaN, hproper.ne_negative_zero⟩
  · exact isNaN_average hdata (hvalues.length_eq ▸ hlength) hcompute hx
  · obtain ⟨data', hvalues', hcompute'⟩ := exists_compute_of_ofValues hfirst
    obtain rfl := eq_take_of_forall₂ hvalues hvalues'
    obtain ⟨⟨n, hn, hfloat⟩, rfl⟩ := total_eq_float hcompute' hx
    rw [compute_of_float ⟨n, List.mem_of_mem_take hn, hfloat⟩] at hcompute
    cases hcompute
    rw [floatTotal_eq_of_not_isFinite hdata hinfinite]

theorem isFinite_large : (1e308 : Float).isFinite = true := by decide +kernel

theorem isFinite_negative_zero : (-0.0 : Float).isFinite = true := by decide +kernel

/-- A sum that becomes infinite and meets its negative stays infinite, and negative zeros add up to
a positive zero. -/
theorem ofValues_isNaN_of_large_and_zeros :
    (∃ x y, (ofValues [.number (.float 1e308 isFinite_large), .number (.float 1e308 isFinite_large),
        .number (.float (-1e308) (isFinite_neg isFinite_large))]).result =
          .ok ⟨.float x, .float y⟩ ∧ x.isFinite = false ∧ x.isNaN = false ∧ y.isNaN = false) ∧
    (∃ x y, (ofValues [.number (.float (-0.0) isFinite_negative_zero),
        .number (.float (-0.0) isFinite_negative_zero)]).result = .ok ⟨.float x, .float y⟩ ∧
          x ≠ -0.0) := by
  have hlarge : (ofValues [.number (.float 1e308 isFinite_large),
      .number (.float 1e308 isFinite_large),
      .number (.float (-1e308) (isFinite_neg isFinite_large))]).result =
      .ok ⟨.float (floatTotal [.float 1e308, .float 1e308, .float (-1e308)]),
        averageOf (.float (floatTotal [.float 1e308, .float 1e308, .float (-1e308)])) 3⟩ := rfl
  have hzeros : (ofValues [.number (.float (-0.0) isFinite_negative_zero),
      .number (.float (-0.0) isFinite_negative_zero)]).result =
      .ok ⟨.float (floatTotal [.float (-0.0), .float (-0.0)]),
        averageOf (.float (floatTotal [.float (-0.0), .float (-0.0)])) 2⟩ := rfl
  have hinfinite : (floatTotal [.float 1e308, .float 1e308, .float (-1e308)]).isFinite = false := by
    decide +kernel
  obtain ⟨htotal, haverage, -⟩ := ofValues_isNaN hlarge
  exact ⟨⟨_, _, hlarge, hinfinite, (htotal _ rfl).1, haverage (by decide) _ rfl⟩,
    ⟨_, _, hzeros, ((ofValues_isNaN hzeros).1 _ rfl).2⟩⟩

end Metrics

end Intake
