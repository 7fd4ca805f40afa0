import Intake.Metrics

/-!
# The total of integers

A dataset of integers has the total that its elements have when they are added one after the other
without bounds, `exactSum`.  Where the partial sums lead does not matter: only the sum itself has to
be a 64-bit word, and a signed one is preferred.  An accumulator of 128 bits is enough for every
dataset that fits into a memory.  A dataset with a double always has a total.

Everything follows from two equations for `compute`, one for each kind of dataset, and from the
three cases of `Numeric.ofInt?`.
-/

namespace Intake

open Json (IsWord)

namespace Numeric

/-! ## Integers as words -/

/-- The exact integer of a value; a double has none and counts as zero. -/
def intValue : Numeric → Int
  | int v => v.toInt
  | uint v => v.toNat
  | float _ => 0

theorem isWord_intValue (n : Numeric) : IsWord n.intValue := by
  cases n with
  | int v => exact Json.Number.isWord_of_int64 v
  | uint v => exact Json.Number.isWord_of_uint64 v
  | float x =>
    show IsWord 0
    decide

theorem toInt?_of_isInteger {n : Numeric} (h : n.isInteger = true) :
    n.toInt? = some n.intValue := by
  cases n with
  | int v => rfl
  | uint v => rfl
  | float x => exact absurd h Bool.false_ne_true

theorem ofInt?_of_signed {v : Int} (h : -0x8000000000000000 ≤ v) (h' : v ≤ 0x7FFFFFFFFFFFFFFF) :
    ∃ w : Int64, ofInt? v = some (int w) ∧ w.toInt = v := by
  refine ⟨Int64.ofInt v, ?_, Int64.toInt_ofInt_of_le (by omega) (by omega)⟩
  rw [ofInt?, if_pos ⟨h, by omega⟩]

theorem ofInt?_of_unsigned {v : Int} (h : 0x7FFFFFFFFFFFFFFF < v) (h' : v ≤ 0xFFFFFFFFFFFFFFFF) :
    ∃ w : UInt64, ofInt? v = some (uint w) ∧ (w.toNat : Int) = v := by
  have hsize : v.toNat < UInt64.size := by
    show v.toNat < 18446744073709551616
    omega
  refine ⟨UInt64.ofNat v.toNat, ?_, ?_⟩
  · rw [ofInt?, if_neg (by omega), if_pos (by omega)]
  · rw [UInt64.toNat_ofNat_of_lt' hsize]
    omega

theorem ofInt?_eq_none {v : Int} (h : ¬ IsWord v) : ofInt? v = none := by
  unfold IsWord at h
  rw [ofInt?, if_neg (by omega), if_neg (by omega)]

end Numeric

namespace Metrics

/-! ## Sums -/

/-- The sum of the integers of a dataset, added one after the other without bounds. -/
def exactSum (data : List Numeric) : Int := data.foldl (fun sum n => sum + n.intValue) 0

/-- Adding one after the other gives the sum of the list. -/
theorem foldl_add_eq {α : Type} (f : α → Int) (as : List α) (start : Int) :
    as.foldl (fun sum a => sum + f a) start = start + exactTotal (as.map f) := by
  induction as generalizing start with
  | nil => exact (Int.add_zero start).symm
  | cons a as ih =>
    rw [List.foldl_cons, ih, List.map_cons, exactTotal]
    omega

theorem exactSum_eq (data : List Numeric) :
    exactSum data = exactTotal (data.map Numeric.intValue) := by
  rw [exactSum, foldl_add_eq, Int.zero_add]

@[simp] theorem exactSum_cons (n : Numeric) (data : List Numeric) :
    exactSum (n :: data) = n.intValue + exactSum data := by
  rw [exactSum_eq, exactSum_eq, List.map_cons, exactTotal]

/-- The sum is between what the ends of a range amount to. -/
theorem exactSum_bounds {data : List Numeric} {low high : Int}
    (h : ∀ n ∈ data, low ≤ n.intValue ∧ n.intValue ≤ high) :
    data.length * low ≤ exactSum data ∧ exactSum data ≤ data.length * high := by
  induction data with
  | nil => exact ⟨Int.le_of_eq (Int.zero_mul low), Int.le_of_eq (Int.zero_mul high).symm⟩
  | cons n data ih =>
    obtain ⟨⟨hlow, hhigh⟩, hdata⟩ := List.forall_mem_cons.1 h
    obtain ⟨hsumLow, hsumHigh⟩ := ih hdata
    rw [exactSum_cons, List.length_cons, Int.natCast_add, Int.cast_ofNat_Int, Int.add_mul,
      Int.add_mul, Int.one_mul, Int.one_mul]
    omega

/-- The sum of copies of one element. -/
@[simp] theorem exactSum_replicate (count : Nat) (n : Numeric) :
    exactSum (List.replicate count n) = count * n.intValue := by
  have hends : ∀ m ∈ List.replicate count n, n.intValue ≤ m.intValue ∧ m.intValue ≤ n.intValue := by
    intro m hm
    rw [List.eq_of_mem_replicate hm]
    exact ⟨Int.le_refl _, Int.le_refl _⟩
  obtain ⟨hlow, hhigh⟩ := exactSum_bounds hends
  rw [List.length_replicate] at hlow hhigh
  exact Int.le_antisymm hhigh hlow

/-- The sum of at most `2^63` integers has 128 bits. -/
theorem exactSum_wide {data : List Numeric} (h : data.length ≤ 0x8000000000000000) :
    -0x80000000000000000000000000000000 < exactSum data ∧
      exactSum data < 0x80000000000000000000000000000000 := by
  have hwords : ∀ n ∈ data, -0x8000000000000000 ≤ n.intValue ∧ n.intValue ≤ 0xFFFFFFFFFFFFFFFF :=
    fun n _ => ⟨n.isWord_intValue.1, Int.le_of_lt_add_one n.isWord_intValue.2⟩
  have hbounds := exactSum_bounds hwords
  omega

/-- The partial sums of fewer than `2^63` integers have 128 bits, so an accumulator of that width
holds them. -/
theorem exactSum_take_bounds {data : List Numeric} (h : data.length < 0x8000000000000000)
    (count : Nat) :
    -0x80000000000000000000000000000000 ≤ exactSum (data.take count) ∧
      exactSum (data.take count) < 0x80000000000000000000000000000000 := by
  have hlength : (data.take count).length ≤ data.length := List.length_take_le' count data
  obtain ⟨hlow, hhigh⟩ := exactSum_wide (Nat.le_trans hlength (Nat.le_of_lt h))
  exact ⟨Int.le_of_lt hlow, hhigh⟩

theorem integers?_of_isInteger {data : List Numeric} (h : ∀ n ∈ data, n.isInteger = true) :
    integers? data = some (data.map Numeric.intValue) := by
  induction data with
  | nil => rfl
  | cons n data ih =>
    have hn := Numeric.toInt?_of_isInteger (h n List.mem_cons_self)
    have hdata := ih fun m hm => h m (List.mem_cons_of_mem n hm)
    unfold integers? at hdata ⊢
    rw [List.mapM_cons, hn, hdata]
    rfl

theorem integers?_eq_none {data : List Numeric} (h : ∃ n ∈ data, n.isInteger = false) :
    integers? data = none := by
  induction data with
  | nil =>
    obtain ⟨n, hn, -⟩ := h
    exact absurd hn List.not_mem_nil
  | cons m data ih =>
    unfold integers? at ih ⊢
    rw [List.mapM_cons]
    cases hm : m.toInt? with
    | none => rfl
    | some v =>
      have hdata : data.mapM Numeric.toInt? = none := by
        obtain ⟨n, hn, hfloat⟩ := h
        rcases List.mem_cons.1 hn with rfl | hn
        · rw [Numeric.toInt?_eq_none_iff.2 hfloat] at hm
          exact absurd hm (by simp)
        · exact ih ⟨n, hn, hfloat⟩
      rw [hdata]
      rfl

/-! ## Answers -/

/-- The total of integers with a given sum, or the error that carries the sum. -/
def narrowed (sum : Int) : Except Error Numeric :=
  match Numeric.ofInt? sum with
  | some total => .ok total
  | none => .error (.totalOutOfRange sum)

/-- The metrics of integers are those of their sum, and an error if that is not a word. -/
theorem compute_of_isInteger {data : List Numeric} (h : ∀ n ∈ data, n.isInteger = true)
    (hne : data ≠ []) :
    compute data = match Numeric.ofInt? (exactSum data) with
      | some total => .ok ⟨total, averageOf total data.length⟩
      | none => .error (.totalOutOfRange (exactSum data)) := by
  have hempty : data.isEmpty = false := by
    rw [← Bool.not_eq_true, List.isEmpty_iff]
    exact hne
  rw [compute, hempty, totalOf, integers?_of_isInteger h]
  simp only [← exactSum_eq]
  cases Numeric.ofInt? (exactSum data) <;> rfl

/-- A double in a dataset makes its total and its mean doubles. -/
theorem compute_of_float {data : List Numeric} (h : ∃ n ∈ data, n.isInteger = false) :
    compute data =
      .ok ⟨.float (floatTotal data), averageOf (.float (floatTotal data)) data.length⟩ := by
  have hempty : data.isEmpty = false := by
    rw [← Bool.not_eq_true, List.isEmpty_iff]
    rintro rfl
    obtain ⟨n, hn, -⟩ := h
    exact absurd hn List.not_mem_nil
  rw [compute, hempty, totalOf, integers?_eq_none h]
  rfl

theorem result_of_float {data : List Numeric} (h : ∃ n ∈ data, n.isInteger = false) :
    ∃ total average, (ofData data).result = .ok ⟨.float total, .float average⟩ := by
  rw [result_ofData, compute_of_float h]
  exact ⟨_, _, rfl⟩

/-- The answer is exact for a sum: a total that is the sum as a word, a signed one if possible, or
the error that carries the sum if that is not a word. -/
inductive ExactAnswer (sum : Int) : Except Error Metrics → Prop
  | signed {v : Int64} {average : Numeric} (h : v.toInt = sum) :
      ExactAnswer sum (.ok ⟨.int v, average⟩)
  | unsigned {v : UInt64} {average : Numeric} (h : (v.toNat : Int) = sum)
      (large : 0x7FFFFFFFFFFFFFFF < sum) : ExactAnswer sum (.ok ⟨.uint v, average⟩)
  | outOfRange (h : ¬ IsWord sum) : ExactAnswer sum (.error (.totalOutOfRange sum))

theorem ExactAnswer.isWord_of_ok {sum : Int} {m : Metrics} (h : ExactAnswer sum (.ok m)) :
    IsWord sum := by
  cases h with
  | signed h =>
    rw [← h]
    exact Json.Number.isWord_of_int64 _
  | unsigned h large =>
    rw [← h]
    exact Json.Number.isWord_of_uint64 _

/-- An exact answer is an error exactly if the sum is not a word. -/
theorem ExactAnswer.eq_error_iff {sum : Int} {answer : Except Error Metrics} {e : Error}
    (h : ExactAnswer sum answer) :
    answer = .error e ↔ ¬ IsWord sum ∧ e = .totalOutOfRange sum := by
  cases answer with
  | ok m => exact ⟨nofun, fun herror => absurd h.isWord_of_ok herror.1⟩
  | error e' =>
    cases h with
    | outOfRange hrange =>
      constructor
      · rintro ⟨⟩
        exact ⟨hrange, rfl⟩
      · rintro ⟨-, rfl⟩
        rfl

theorem exactAnswer_of_isInteger {data : List Numeric} (h : ∀ n ∈ data, n.isInteger = true) :
    ExactAnswer (exactSum data) (ofData data).result := by
  rw [result_ofData]
  by_cases hne : data = []
  · subst hne
    exact .signed rfl
  · rw [compute_of_isInteger h hne]
    by_cases hword : IsWord (exactSum data)
    · rcases Int.lt_or_le 0x7FFFFFFFFFFFFFFF (exactSum data) with hlarge | hsmall
      · obtain ⟨w, hw, hv⟩ := Numeric.ofInt?_of_unsigned hlarge (Int.le_of_lt_add_one hword.2)
        rw [hw]
        exact .unsigned hv hlarge
      · obtain ⟨w, hw, hv⟩ := Numeric.ofInt?_of_signed hword.1 hsmall
        rw [hw]
        exact .signed hv
    · rw [Numeric.ofInt?_eq_none hword]
      exact .outOfRange hword

/-- The total of integers is an integer, and it is their sum. -/
theorem intValue_total {data : List Numeric} (h : ∀ n ∈ data, n.isInteger = true) {m : Metrics}
    (hm : (ofData data).result = .ok m) :
    m.total.isInteger = true ∧ m.total.intValue = exactSum data := by
  have hanswer := exactAnswer_of_isInteger h
  rw [hm] at hanswer
  cases hanswer with
  | signed hv => exact ⟨rfl, hv⟩
  | unsigned hv _ => exact ⟨rfl, hv⟩

/-- **The total of a dataset.**  Integers have their exact sum as the total if it is a 64-bit word,
a signed one if possible, and otherwise the error carries the sum.  Fewer than `2^63` of them can be
added in 128 bits, wherever the partial sums lead.  A dataset with a double always has a total and a
mean, which are doubles. -/
theorem ofData_result (data : List Numeric) :
    ((∀ n ∈ data, n.isInteger = true) →
      ((∃ m, (ofData data).result = .ok m) ↔
        -0x8000000000000000 ≤ exactSum data ∧ exactSum data ≤ 0xFFFFFFFFFFFFFFFF) ∧
      (∀ m, (ofData data).result = .ok m →
        (exactSum data ≤ 0x7FFFFFFFFFFFFFFF →
          ∃ v : Int64, m.total = .int v ∧ v.toInt = exactSum data) ∧
        (0x7FFFFFFFFFFFFFFF < exactSum data →
          ∃ v : UInt64, m.total = .uint v ∧ (v.toNat : Int) = exactSum data)) ∧
      (∀ e, (ofData data).result = .error e → e = .totalOutOfRange (exactSum data)) ∧
      (data.length < 0x8000000000000000 → ∀ count,
        -0x80000000000000000000000000000000 ≤ exactSum (data.take count) ∧
          exactSum (data.take count) < 0x80000000000000000000000000000000)) ∧
    (ofData []).result = .ok ⟨.int 0, .int 0⟩ ∧
    ((∃ n ∈ data, n.isInteger = false) →
      ∃ total average, (ofData data).result = .ok ⟨.float total, .float average⟩) := by
  refine ⟨fun h => ?_, rfl, result_of_float⟩
  have hanswer := exactAnswer_of_isInteger h
  generalize (ofData data).result = answer at hanswer
  refine ⟨⟨?_, ?_⟩, ?_, ?_, exactSum_take_bounds⟩
  · rintro ⟨m, rfl⟩
    have hword := hanswer.isWord_of_ok
    exact ⟨hword.1, Int.le_of_lt_add_one hword.2⟩
  · intro hword
    cases hanswer with
    | signed _ => exact ⟨_, rfl⟩
    | unsigned _ _ => exact ⟨_, rfl⟩
    | outOfRange hn => exact absurd ⟨hword.1, Int.lt_add_one_of_le hword.2⟩ hn
  · rintro m rfl
    cases hanswer with
    | @signed v average hv =>
      have hlt := v.toInt_lt
      refine ⟨fun _ => ⟨v, rfl, hv⟩, fun hlarge => absurd hlarge ?_⟩
      omega
    | @unsigned v average hv hlarge =>
      exact ⟨fun hsmall => absurd hlarge (Int.not_lt.2 hsmall), fun _ => ⟨v, rfl, hv⟩⟩
  · rintro e rfl
    cases hanswer with
    | outOfRange _ => rfl

/-- The partial sums may pass the greatest word and come back. -/
theorem ofData_result_of_detour :
    (∀ n ∈ [Numeric.uint 0xFFFFFFFFFFFFFFFF, .uint 0xFFFFFFFFFFFFFFFF, .int Int64.minValue,
        .int Int64.minValue, .int Int64.minValue], n.isInteger = true) ∧
      ∃ m, (ofData [Numeric.uint 0xFFFFFFFFFFFFFFFF, .uint 0xFFFFFFFFFFFFFFFF,
          .int Int64.minValue, .int Int64.minValue, .int Int64.minValue]).result = .ok m ∧
        ∃ v : Int64, m.total = .int v ∧ v.toInt = 0x7FFFFFFFFFFFFFFE := by
  have hints : ∀ n ∈ [Numeric.uint 0xFFFFFFFFFFFFFFFF, .uint 0xFFFFFFFFFFFFFFFF,
      .int Int64.minValue, .int Int64.minValue, .int Int64.minValue], n.isInteger = true := by
    simp [Numeric.isInteger]
  have hsum : exactSum [Numeric.uint 0xFFFFFFFFFFFFFFFF, .uint 0xFFFFFFFFFFFFFFFF,
      .int Int64.minValue, .int Int64.minValue, .int Int64.minValue] = 0x7FFFFFFFFFFFFFFE := by
    decide
  obtain ⟨hiff, htotal, -⟩ := (ofData_result _).1 hints
  rw [hsum] at hiff htotal
  obtain ⟨m, hm⟩ := hiff.2 (by decide)
  exact ⟨hints, m, hm, (htotal m hm).1 (by decide)⟩

end Metrics

end Intake
