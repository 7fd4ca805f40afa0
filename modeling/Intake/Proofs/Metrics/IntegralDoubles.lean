import Intake.Proofs.Float.Sums
import Intake.Proofs.Float.Words
import Intake.Proofs.Metrics.ReadBack

/-!
# Doubles that are integers

A dataset with a double is added up in doubles, and one without is added up exactly.  Where all
doubles are integers and the magnitudes add up to at most `2 ^ 53`, the two agree: every running sum
is an integer of at most `2 ^ 53` and so a double, and adding doubles gives that double,
`nearestFloat_add`.  The induction carries the running sum as an integer together with what is left
of the bound.

A running sum that is zero is a positive zero, whatever zeros and opposite numbers it is a sum of,
so the doubles are the same and not just equal in value, and so are their quotients by the count.
-/

namespace Intake

open Binary64

namespace Numeric

/-! ## Values -/

/-- The number that a value is, zero for a double that is not finite. -/
def value : Numeric → ℚ
  | int v => v.toInt
  | uint v => v.toNat
  | float x => toRat x

/-- The value is an integer, be it a word or a double. -/
def IsIntegral : Numeric → Prop
  | float x => x.isFinite = true ∧ ∃ v : Int, toRat x = v
  | _ => True

/-- The value with a double replaced by the signed word for it. -/
def toExact : Numeric → Numeric
  | float x => int (Int64.ofInt ⌊toRat x⌋)
  | n => n

@[simp] theorem isInteger_toExact (n : Numeric) : n.toExact.isInteger = true := by
  cases n <;> rfl

theorem value_eq_intValue {n : Numeric} (h : n.isInteger = true) : n.value = n.intValue := by
  cases n with
  | int v => rfl
  | uint v => exact (Int.cast_natCast v.toNat).symm
  | float x => exact absurd h Bool.false_ne_true

/-- An integer of at most `2 ^ 53` is the word that replaces it. -/
theorem intValue_toExact {n : Numeric} (h : n.IsIntegral) (hle : |n.value| ≤ 2 ^ 53) :
    (n.toExact.intValue : ℚ) = n.value := by
  cases n with
  | int v | uint v => exact (value_eq_intValue rfl).symm
  | float x =>
    obtain ⟨-, v, hv⟩ := h
    have hle : |(v : ℚ)| ≤ 2 ^ 53 := hv ▸ hle
    have hword : |v| ≤ 2 ^ 53 := by exact_mod_cast hle
    obtain ⟨hlow, hhigh⟩ := abs_le.1 hword
    show ((Int64.ofInt ⌊toRat x⌋).toInt : ℚ) = toRat x
    rw [hv, Int.floor_intCast, Int64.toInt_ofInt_of_le (by omega) (by omega)]

/-- An integer of at most `2 ^ 53` is a double. -/
theorem toRat_toFloat {n : Numeric} (hle : |n.value| ≤ 2 ^ 53) : toRat n.toFloat = n.value := by
  have hword {v : Int} (h : |(v : ℚ)| ≤ 2 ^ 53) : toRat (nearestFloat v) = v := by
    have h : |v| ≤ 2 ^ 53 := by exact_mod_cast h
    rw [Int.abs_eq_natAbs] at h
    exact toRat_nearestFloat (by omega)
  cases n with
  | int v => exact hword hle
  | uint v => exact (hword (v := v.toNat) hle).trans (Int.cast_natCast v.toNat)
  | float x => rfl

theorem isFinite_of_isIntegral {n : Numeric} (h : n.IsIntegral) : n.IsFinite := by
  cases n with
  | int v | uint v => trivial
  | float x => exact h.1

/-! ## Adding one element -/

/-- A double that is zero and no negative zero is zero as a word. -/
theorem eq_nearestFloat_zero {x : Float} (h : Rounds 0 x) (hx : IsProper x) :
    x = nearestFloat 0 := by
  cases h with
  | @zero s value unpack =>
    cases s with
    | positive => exact eq_of_unpack unpack unpack_nearestFloat_zero
    | negative => exact absurd (eq_of_unpack unpack unpack_negative_zero) hx.ne_negative_zero
  | @magnitude s v u value pos round model =>
    have habs := abs_signFactor_mul s v
    rw [← value, abs_zero, abs_of_pos pos] at habs
    exact absurd habs pos.ne

/-- A word is no negative zero as a double. -/
theorem isProper_nearestFloat {v : Int} (h : v.natAbs ≤ 2 ^ 53) : IsProper (nearestFloat v) := by
  refine ⟨(rounds_nearestFloat (by omega)).isNaN, fun hzero => ?_⟩
  have hv := toRat_nearestFloat h
  have hunpack := unpack_negative_zero
  rw [← hzero] at hunpack
  rw [toRat_eq_zero hunpack] at hv
  obtain rfl : v = 0 := by exact_mod_cast hv.symm
  rw [unpack_nearestFloat_zero] at hunpack
  cases hunpack

/-- Adding integers as doubles gives the sum as a double, if the magnitudes are at most `2 ^ 53`
together. -/
theorem nearestFloat_add {v w : Int} {x : Float} (hx : x.isFinite = true) (hw : toRat x = w)
    (h : v.natAbs + w.natAbs ≤ 2 ^ 53) : nearestFloat v + x = nearestFloat (v + w) := by
  have hv : toRat (nearestFloat v) = v := toRat_nearestFloat (by omega)
  have hfinite : (nearestFloat v).isFinite = true := isFinite_nearestFloat (by omega)
  have hrounds := rounds_add hfinite hx
  rw [hv, hw, ← Int.cast_add] at hrounds
  rcases eq_or_ne (v + w) 0 with hzero | hne
  · rw [hzero, Int.cast_zero] at hrounds
    rw [hzero]
    exact eq_nearestFloat_zero hrounds ((isProper_nearestFloat (by omega)).add hx)
  · exact hrounds.eq (rounds_nearestFloat (by omega)) (by exact_mod_cast hne)

end Numeric

namespace Metrics

variable {data : List Numeric}

/-! ## Adding all elements -/

/-- The magnitude of a sum is at most the sum of the magnitudes. -/
theorem natAbs_exactSum_le (data : List Numeric) :
    (exactSum data).natAbs ≤ (data.map fun n => n.intValue.natAbs).sum := by
  induction data with
  | nil => exact le_rfl
  | cons n data ih =>
    rw [exactSum_cons, List.map_cons, List.sum_cons]
    exact (Int.natAbs_add_le _ _).trans (Nat.add_le_add_left ih _)

/-- Adding doubles that are integers gives their sum, starting from an integer. -/
theorem foldl_eq_nearestFloat {v : Int}
    (hdata : ∀ n ∈ data, n.toFloat.isFinite = true ∧ toRat n.toFloat = n.toExact.intValue)
    (hbound : v.natAbs + ((data.map Numeric.toExact).map fun n => n.intValue.natAbs).sum ≤ 2 ^ 53) :
    data.foldl (fun sum n => sum + n.toFloat) (Numeric.nearestFloat v) =
      Numeric.nearestFloat (v + exactSum (data.map Numeric.toExact)) := by
  induction data generalizing v with
  | nil => exact congrArg Numeric.nearestFloat (Int.add_zero v).symm
  | cons n data ih =>
    obtain ⟨⟨hfinite, hn⟩, hdata⟩ := List.forall_mem_cons.1 hdata
    rw [List.map_cons, List.map_cons, List.sum_cons] at hbound
    have hstep := Numeric.nearestFloat_add (v := v) hfinite hn (by omega)
    rw [List.foldl_cons, hstep, ih hdata (by omega), List.map_cons, exactSum_cons, Int.add_assoc]

/-- Each magnitude is at most all of them together. -/
theorem abs_value_le (hbound : (data.map fun n => |n.value|).sum ≤ 2 ^ 53) :
    ∀ n ∈ data, |n.value| ≤ 2 ^ 53 := by
  intro n hn
  refine (List.single_le_sum ?_ _ (List.mem_map_of_mem hn)).trans hbound
  intro q hq
  obtain ⟨n, -, rfl⟩ := List.mem_map.1 hq
  exact abs_nonneg n.value

section
variable (hintegral : ∀ n ∈ data, n.IsIntegral)
  (hbound : (data.map fun n => |n.value|).sum ≤ 2 ^ 53)
include hintegral hbound

theorem sum_natAbs_toExact_le :
    ((data.map Numeric.toExact).map fun n => n.intValue.natAbs).sum ≤ 2 ^ 53 := by
  have hsum : ((((data.map Numeric.toExact).map fun n => n.intValue.natAbs).sum : ℕ) : ℚ) =
      (data.map fun n => |n.value|).sum := by
    rw [Nat.cast_list_sum, List.map_map, List.map_map]
    refine congrArg List.sum (List.map_congr_left fun n hn => ?_)
    show ((n.toExact.intValue.natAbs : ℕ) : ℚ) = |n.value|
    rw [Nat.cast_natAbs, Int.cast_abs,
      Numeric.intValue_toExact (hintegral n hn) (abs_value_le hbound n hn)]
  rw [← hsum] at hbound
  exact_mod_cast hbound

/-- The sum of the words that replace doubles is the sum of the doubles. -/
theorem exactSum_map_toExact :
    (exactSum (data.map Numeric.toExact) : ℚ) = (data.map Numeric.value).sum := by
  have hle := abs_value_le hbound
  clear hbound
  induction data with
  | nil => rfl
  | cons n data ih =>
    obtain ⟨hn, hintegral⟩ := List.forall_mem_cons.1 hintegral
    obtain ⟨hlen, hle⟩ := List.forall_mem_cons.1 hle
    rw [List.map_cons, exactSum_cons, Int.cast_add, Numeric.intValue_toExact hn hlen,
      ih hintegral hle, List.map_cons, List.sum_cons]

/-- The running sum is the exact sum as a double. -/
theorem floatTotal_eq_nearestFloat :
    floatTotal data = Numeric.nearestFloat (exactSum (data.map Numeric.toExact)) := by
  have hdata : ∀ n ∈ data,
      n.toFloat.isFinite = true ∧ toRat n.toFloat = n.toExact.intValue := by
    intro n hn
    have hle := abs_value_le hbound n hn
    refine ⟨Numeric.isFinite_toFloat (Numeric.isFinite_of_isIntegral (hintegral n hn)), ?_⟩
    rw [Numeric.toRat_toFloat hle, Numeric.intValue_toExact (hintegral n hn) hle]
  have hsum := sum_natAbs_toExact_le hintegral hbound
  have hfold := foldl_eq_nearestFloat (v := 0) hdata (by omega)
  rwa [Int.zero_add] at hfold

end

/-- **Doubles that are integers.**  A dataset with a double, in which all doubles are integers and
the magnitudes add up to at most `2 ^ 53`, has its exact sum as the total, in a double, and the mean
that it has with each double replaced by the signed word for it. -/
theorem ofData_eq_of_integral (hfloat : ∃ n ∈ data, n.isInteger = false)
    (hintegral : ∀ n ∈ data, n.IsIntegral)
    (hbound : (data.map fun n => |n.value|).sum ≤ 2 ^ 53) :
    ∃ total average w, (ofData data).result = .ok ⟨.float total, average⟩ ∧
      total.isFinite = true ∧ toRat total = (data.map Numeric.value).sum ∧
      (ofData (data.map Numeric.toExact)).result = .ok ⟨.int w, average⟩ ∧
      (w.toInt : ℚ) = (data.map Numeric.value).sum := by
  have hsum := exactSum_map_toExact hintegral hbound
  have htotal := floatTotal_eq_nearestFloat hintegral hbound
  have hle := (natAbs_exactSum_le _).trans (sum_natAbs_toExact_le hintegral hbound)
  obtain ⟨w, hw, hvalue⟩ := Numeric.ofInt?_of_signed
    (v := exactSum (data.map Numeric.toExact)) (by omega) (by omega)
  have hints : ∀ n ∈ data.map Numeric.toExact, n.isInteger = true := by
    intro n hn
    obtain ⟨n, -, rfl⟩ := List.mem_map.1 hn
    exact n.isInteger_toExact
  have hne : data.map Numeric.toExact ≠ [] := by
    obtain ⟨n, hn, -⟩ := hfloat
    exact List.ne_nil_of_mem (List.mem_map_of_mem hn)
  have hmean : averageOf (.float (floatTotal data)) data.length =
      averageOf (.int w) (data.map Numeric.toExact).length := by
    rw [htotal, ← hvalue, List.length_map]
    rfl
  refine ⟨floatTotal data, averageOf (.float (floatTotal data)) data.length, w, ?_, ?_, ?_, ?_, ?_⟩
  · rw [result_ofData, compute_of_float hfloat]
  · rw [htotal]
    exact Numeric.isFinite_nearestFloat (by omega)
  · rw [htotal, Numeric.toRat_nearestFloat hle, hsum]
  · rw [result_ofData, compute_of_isInteger hints hne, hw, hmean]
  · rw [hvalue, hsum]

/-- Words and doubles of both signs, a negative zero among them. -/
theorem ofData_eq_of_integral_of_mixed :
    ∃ total average w, (ofData [.float 3, .int (-5), .float (-0.0), .uint 2]).result =
        .ok ⟨.float total, average⟩ ∧
      toRat total = 0 ∧
      (ofData [.int 3, .int (-5), .int 0, .uint 2]).result = .ok ⟨.int w, average⟩ := by
  have hthree : toRat 3 = 3 := by
    have hword : (3 : Float) = Numeric.nearestFloat 3 := by decide +kernel
    rw [hword, Numeric.toRat_nearestFloat (by decide)]
    rfl
  have hzero : toRat (-0.0) = 0 := toRat_eq_zero unpack_negative_zero
  have hvalues : ([Numeric.float 3, .int (-5), .float (-0.0), .uint 2].map Numeric.value) =
      [3, -5, 0, 2] := by
    simp only [List.map_cons, List.map_nil, Numeric.value, hthree, hzero]
    rfl
  have hwords : [Numeric.float 3, .int (-5), .float (-0.0), .uint 2].map Numeric.toExact =
      [.int 3, .int (-5), .int 0, .uint 2] := by
    simp only [List.map_cons, List.map_nil, Numeric.toExact, hthree, hzero, Int.floor_ofNat,
      Int.floor_zero]
    rfl
  have hintegral : ∀ n ∈ [Numeric.float 3, .int (-5), .float (-0.0), .uint 2], n.IsIntegral := by
    intro n hn
    simp only [List.mem_cons, List.not_mem_nil, or_false] at hn
    rcases hn with rfl | rfl | rfl | rfl
    · exact ⟨by decide +kernel, 3, hthree⟩
    · trivial
    · exact ⟨by decide +kernel, 0, hzero⟩
    · trivial
  have hbound : ([Numeric.float 3, .int (-5), .float (-0.0), .uint 2].map fun n => |n.value|).sum ≤
      2 ^ 53 := by
    show (([Numeric.float 3, .int (-5), .float (-0.0), .uint 2].map Numeric.value).map
      fun q => |q|).sum ≤ 2 ^ 53
    rw [hvalues]
    norm_num
  obtain ⟨total, average, w, hresult, -, htotal, hexact, -⟩ :=
    ofData_eq_of_integral ⟨.float 3, List.mem_cons_self, rfl⟩ hintegral hbound
  refine ⟨total, average, w, hresult, ?_, hwords ▸ hexact⟩
  rw [htotal, hvalues]
  norm_num

end Metrics

end Intake
