import Intake.Proofs.Metrics.ExactTotal

/-!
# The accumulator of a total

The exact sum has no bounds, but a machine adds words.  Here integers are added as words of 128 bits
in two's complement, `wideSum`.  An addition whose sum is not such a word stops the program or drops
the carry, depending on how the program was built, `Overflow`; and `wideCompute` is what becomes of
the metrics of a dataset then.

Neither happens to a dataset of fewer than `2^63` integers.  Each element is a 64-bit word, so the
sum of what has been added so far is a word of 128 bits, `exactSum_wide`.  Where that is so each
addition is exact, `exists_foldlM_add`, so the accumulator holds the exact sum after every element
and the metrics are the same, `wideCompute_of_isInteger`.

Longer datasets tell the two apart: one accumulator stops as soon as a partial sum is too large,
`wideSum_stops_eq_none_iff`, and the other one keeps the last 128 bits of the sum, `wideSum_wraps`.
Neither is sure to have the exact sum of more than `2^63` integers, `forall_addsExactly_iff`.
-/

namespace Intake

open Json (IsWord)

/-- A wide word holds the integer. -/
abbrev IsWide (v : Int) : Prop :=
  -0x80000000000000000000000000000000 ≤ v ∧ v < 0x80000000000000000000000000000000

theorem isWide_toInt (w : BitVec 128) : IsWide w.toInt := ⟨w.le_toInt, w.toInt_lt⟩

/-! ## Adding two words -/

/-- What an addition does if no wide word is the sum. -/
inductive Overflow where
  /-- The program stops. -/
  | stops
  /-- The carry is dropped, and the sum wraps around. -/
  | wraps

namespace Overflow

variable {a b : BitVec 128}

/-- The sum of two wide words, unless the program stops. -/
def add : Overflow → BitVec 128 → BitVec 128 → Option (BitVec 128)
  | stops, a, b => if a.saddOverflow b then none else some (a + b)
  | wraps, a, b => some (a + b)

theorem saddOverflow_iff : a.saddOverflow b = true ↔ ¬ IsWide (a.toInt + b.toInt) := by
  simp only [BitVec.saddOverflow, Bool.or_eq_true, decide_eq_true_eq]
  omega

/-- An addition is exact if a wide word is the sum. -/
theorem add_of_isWide (overflow : Overflow) (h : IsWide (a.toInt + b.toInt)) :
    ∃ sum, overflow.add a b = some sum ∧ sum.toInt = a.toInt + b.toInt := by
  have hfits : ¬ a.saddOverflow b = true := fun hover => saddOverflow_iff.1 hover h
  refine ⟨a + b, ?_, BitVec.toInt_add_of_not_saddOverflow hfits⟩
  cases overflow with
  | stops => exact if_neg hfits
  | wraps => rfl

theorem add_stops_of_not_isWide (h : ¬ IsWide (a.toInt + b.toInt)) : stops.add a b = none :=
  if_pos (saddOverflow_iff.2 h)

end Overflow

namespace Numeric

/-- The exact integer as a wide word. -/
def toWide? : Numeric → Option (BitVec 128)
  | int v => some (v.toBitVec.signExtend 128)
  | uint v => some (v.toBitVec.setWidth 128)
  | float _ => none

/-- Widening keeps the integer. -/
theorem toInt?_eq_toWide? (n : Numeric) : n.toInt? = n.toWide?.map BitVec.toInt := by
  cases n with
  | int v => exact congrArg some (BitVec.toInt_signExtend_of_le (by decide)).symm
  | uint v =>
    have hnat : (v.toBitVec.setWidth 128).toNat = v.toNat := BitVec.toNat_setWidth_of_le (by decide)
    have hlt := v.toNat_lt
    refine congrArg some ?_
    rw [BitVec.toInt_eq_toNat_of_lt (by omega), hnat]
  | float x => rfl

end Numeric

namespace Metrics

variable (overflow : Overflow) {data : List Numeric} {words : List (BitVec 128)}

/-! ## Adding all words -/

/-- The sum of wide words, added one after the other, unless the program stops. -/
def wideSum (overflow : Overflow) (words : List (BitVec 128)) : Option (BitVec 128) :=
  words.foldlM overflow.add 0#128

/-- Adding is exact if all partial sums are wide words. -/
theorem exists_foldlM_add {start : BitVec 128}
    (h : ∀ count, IsWide (start.toInt + exactTotal ((words.map BitVec.toInt).take count))) :
    ∃ sum, words.foldlM overflow.add start = some sum ∧
      sum.toInt = start.toInt + exactTotal (words.map BitVec.toInt) := by
  induction words generalizing start with
  | nil => exact ⟨start, rfl, (Int.add_zero _).symm⟩
  | cons w words ih =>
    have hfirst : IsWide (start.toInt + w.toInt) := by simpa [exactTotal] using h 1
    obtain ⟨next, hnext, hvalue⟩ := overflow.add_of_isWide hfirst
    have hrest (count : Nat) :
        IsWide (next.toInt + exactTotal ((words.map BitVec.toInt).take count)) := by
      have hlater := h (count + 1)
      rwa [List.map_cons, List.take_succ_cons, exactTotal, ← Int.add_assoc, ← hvalue] at hlater
    obtain ⟨sum, hsum, htotal⟩ := ih hrest
    refine ⟨sum, ?_, ?_⟩
    · rw [List.foldlM_cons, hnext]
      exact hsum
    · rw [htotal, hvalue, List.map_cons, exactTotal, Int.add_assoc]

theorem exists_wideSum
    (h : ∀ count, IsWide (exactTotal ((words.map BitVec.toInt).take count))) :
    ∃ sum, wideSum overflow words = some sum ∧ sum.toInt = exactTotal (words.map BitVec.toInt) := by
  have hpartial (count : Nat) :
      IsWide ((0#128).toInt + exactTotal ((words.map BitVec.toInt).take count)) := by
    rw [BitVec.toInt_zero, Int.zero_add]
    exact h count
  have hfold := exists_foldlM_add overflow hpartial
  rwa [BitVec.toInt_zero, Int.zero_add] at hfold

/-- A partial sum that is not a wide word stops the program. -/
theorem foldlM_add_stops {start : BitVec 128} {count : Nat}
    (h : ¬ IsWide (start.toInt + exactTotal ((words.map BitVec.toInt).take count))) :
    words.foldlM Overflow.stops.add start = none := by
  induction words generalizing start count with
  | nil =>
    rw [List.map_nil, List.take_nil, exactTotal, Int.add_zero] at h
    exact absurd (isWide_toInt start) h
  | cons w words ih =>
    cases count with
    | zero =>
      rw [List.take_zero, exactTotal, Int.add_zero] at h
      exact absurd (isWide_toInt start) h
    | succ count =>
      rw [List.foldlM_cons]
      by_cases hfirst : IsWide (start.toInt + w.toInt)
      · obtain ⟨next, hnext, hvalue⟩ := Overflow.stops.add_of_isWide hfirst
        rw [List.map_cons, List.take_succ_cons, exactTotal, ← Int.add_assoc, ← hvalue] at h
        rw [hnext]
        exact ih h
      · rw [Overflow.add_stops_of_not_isWide hfirst]
        rfl

/-- An accumulator that stops does so exactly if a partial sum is not a wide word. -/
theorem wideSum_stops_eq_none_iff :
    wideSum .stops words = none ↔
      ∃ count, ¬ IsWide (exactTotal ((words.map BitVec.toInt).take count)) := by
  constructor
  · intro hnone
    refine Classical.not_forall.1 fun hfits => ?_
    obtain ⟨sum, hsum, -⟩ := exists_wideSum .stops hfits
    rw [hnone] at hsum
    cases hsum
  · rintro ⟨count, hcount⟩
    have hpartial :
        ¬ IsWide ((0#128).toInt + exactTotal ((words.map BitVec.toInt).take count)) := by
      rwa [BitVec.toInt_zero, Int.zero_add]
    exact foldlM_add_stops hpartial

theorem foldlM_add_wraps (start : BitVec 128) (words : List (BitVec 128)) :
    words.foldlM Overflow.wraps.add start =
      some (start + BitVec.ofInt 128 (exactTotal (words.map BitVec.toInt))) := by
  induction words generalizing start with
  | nil => exact congrArg some (BitVec.add_zero start).symm
  | cons w words ih =>
    have hrest : (w :: words).foldlM Overflow.wraps.add start =
        words.foldlM Overflow.wraps.add (start + w) := rfl
    rw [hrest, ih, List.map_cons, exactTotal, BitVec.ofInt_add, BitVec.ofInt_toInt,
      BitVec.add_assoc]

/-- An accumulator that wraps around keeps the last 128 bits of the sum. -/
theorem wideSum_wraps (words : List (BitVec 128)) :
    wideSum .wraps words = some (BitVec.ofInt 128 (exactTotal (words.map BitVec.toInt))) := by
  rw [wideSum, foldlM_add_wraps, BitVec.zero_add]

/-! ## Adding a dataset -/

/-- The elements as wide words, if all of them are integers. -/
def wides? (data : List Numeric) : Option (List (BitVec 128)) := data.mapM Numeric.toWide?

/-- The exact integers are those of the wide words. -/
theorem integers?_eq_wides? (data : List Numeric) :
    integers? data = (wides? data).map (List.map BitVec.toInt) := by
  induction data with
  | nil => rfl
  | cons n data ih =>
    unfold integers? wides? at ih ⊢
    rw [List.mapM_cons, List.mapM_cons, n.toInt?_eq_toWide?, ih]
    cases n.toWide? with
    | none => rfl
    | some w => cases data.mapM Numeric.toWide? <;> rfl

theorem exists_wides? (h : ∀ n ∈ data, n.isInteger = true) :
    ∃ words, wides? data = some words ∧ words.map BitVec.toInt = data.map Numeric.intValue := by
  have hints := integers?_of_isInteger h
  rwa [integers?_eq_wides?, Option.map_eq_some_iff] at hints

/-- The integers of a dataset are added without loss: a wide word is their exact sum. -/
def AddsExactly (overflow : Overflow) (data : List Numeric) : Prop :=
  ∃ words sum, wides? data = some words ∧ wideSum overflow words = some sum ∧
    sum.toInt = exactSum data

theorem addsExactly_of_length_le (h : ∀ n ∈ data, n.isInteger = true)
    (hlength : data.length ≤ 0x8000000000000000) : AddsExactly overflow data := by
  obtain ⟨words, hwords, hvalues⟩ := exists_wides? h
  have hpartial (count : Nat) : IsWide (exactTotal ((words.map BitVec.toInt).take count)) := by
    have hle : (data.take count).length ≤ data.length := List.length_take_le' count data
    obtain ⟨hlow, hhigh⟩ := exactSum_wide (Nat.le_trans hle hlength)
    rw [exactSum_eq, List.map_take] at hlow hhigh
    rw [hvalues]
    exact ⟨Int.le_of_lt hlow, hhigh⟩
  obtain ⟨sum, hsum, hvalue⟩ := exists_wideSum overflow hpartial
  refine ⟨words, sum, hwords, hsum, ?_⟩
  rw [hvalue, hvalues, exactSum_eq]

/-- Up to `2^63` integers are added without loss, and no more. -/
theorem forall_addsExactly_iff {limit : Nat} :
    (∀ data : List Numeric, (∀ n ∈ data, n.isInteger = true) → data.length ≤ limit →
      AddsExactly overflow data) ↔ limit ≤ 0x8000000000000000 := by
  constructor
  · intro hexact
    obtain ⟨words, sum, -, -, hvalue⟩ := hexact (List.replicate limit (.uint 0xFFFFFFFFFFFFFFFF))
      (fun n hn => (List.eq_of_mem_replicate hn) ▸ rfl) (Nat.le_of_eq List.length_replicate)
    -- the greatest words have a sum that is too large for any wide word
    have hgreatest : (Numeric.uint 0xFFFFFFFFFFFFFFFF).intValue = 0xFFFFFFFFFFFFFFFF := by decide
    have hwide := isWide_toInt sum
    rw [hvalue, exactSum_replicate, hgreatest] at hwide
    omega
  · intro hlimit data hints hlength
    exact addsExactly_of_length_le overflow hints (Nat.le_trans hlength hlimit)

/-! ## Metrics -/

/-- The total of a dataset whose integers are added as wide words. -/
def wideTotal (overflow : Overflow) (data : List Numeric) : Option (Except Error Numeric) :=
  match wides? data with
  | some words => (wideSum overflow words).map fun sum => narrowed sum.toInt
  | none => some (.ok (.float (floatTotal data)))

/-- The metrics of a dataset whose integers are added as wide words, unless the program stops. -/
def wideCompute (overflow : Overflow) (data : List Numeric) : Option (Except Error Metrics) :=
  if data.isEmpty then some (.ok ⟨.zero, .zero⟩)
  else (wideTotal overflow data).map fun total => do
    let total ← total
    return ⟨total, averageOf total data.length⟩

theorem wideTotal_eq (hlength : data.length ≤ 0x8000000000000000) :
    wideTotal overflow data = some (totalOf data) := by
  by_cases hints : ∀ n ∈ data, n.isInteger = true
  · obtain ⟨words, sum, hwords, hsum, hvalue⟩ :=
      addsExactly_of_length_le overflow hints hlength
    have htotal : totalOf data = narrowed (exactSum data) := by
      rw [totalOf, integers?_of_isInteger hints, exactSum_eq]
      rfl
    rw [wideTotal, hwords, htotal, ← hvalue]
    show (wideSum overflow words).map _ = _
    rw [hsum]
    rfl
  · have hfloat : ∃ n ∈ data, n.isInteger = false := by simpa using hints
    have hnone := integers?_eq_none hfloat
    rw [wideTotal, totalOf, hnone]
    rw [integers?_eq_wides?, Option.map_eq_none_iff] at hnone
    rw [hnone]

/-- The width of the accumulator makes no difference to a dataset that is not too long. -/
theorem wideCompute_eq (hlength : data.length ≤ 0x8000000000000000) :
    wideCompute overflow data = some (compute data) := by
  rw [wideCompute, compute, wideTotal_eq overflow hlength]
  split <;> rfl

/-- **The accumulator.**  While fewer than `2^63` integers are added in 128 bits, the sum of those
that have been added is between the ends of that range, and the accumulator is that sum: it neither
stops nor wraps around.  So the metrics are those of the exact sum, and the error of a total out of
range carries the exact sum. -/
theorem wideCompute_of_isInteger (hints : ∀ n ∈ data, n.isInteger = true)
    (hlength : data.length < 0x8000000000000000) (overflow : Overflow) :
    (∀ count, -0x80000000000000000000000000000000 < exactSum (data.take count) ∧
      exactSum (data.take count) < 0x80000000000000000000000000000000 ∧
      AddsExactly overflow (data.take count)) ∧
    wideCompute overflow data = some (ofData data).result ∧
    ∀ e, wideCompute overflow data = some (.error e) ↔
      ¬ IsWord (exactSum data) ∧ e = .totalOutOfRange (exactSum data) := by
  have hresult : wideCompute overflow data = some (ofData data).result := by
    rw [result_ofData, wideCompute_eq overflow (Nat.le_of_lt hlength)]
  refine ⟨fun count => ?_, hresult, fun e => ?_⟩
  · have hle : (data.take count).length ≤ 0x8000000000000000 :=
      Nat.le_trans (List.length_take_le' count data) (Nat.le_of_lt hlength)
    obtain ⟨hlow, hhigh⟩ := exactSum_wide hle
    exact ⟨hlow, hhigh,
      addsExactly_of_length_le overflow (fun n hn => hints n (List.mem_of_mem_take hn)) hle⟩
  · rw [hresult, Option.some_inj, (exactAnswer_of_isInteger hints).eq_error_iff]

/-- The greatest sum is that of `2^63 - 1` times the greatest word, `2^127 - 2^64 - 2^63 + 1`.  The
error carries it, whatever an overflow would do. -/
theorem wideCompute_of_isInteger_of_greatest :
    (∀ n ∈ List.replicate 0x7FFFFFFFFFFFFFFF (Numeric.uint 0xFFFFFFFFFFFFFFFF),
      n.isInteger = true) ∧
    (List.replicate 0x7FFFFFFFFFFFFFFF (Numeric.uint 0xFFFFFFFFFFFFFFFF)).length <
      0x8000000000000000 ∧
    ∀ overflow, wideCompute overflow
        (List.replicate 0x7FFFFFFFFFFFFFFF (.uint 0xFFFFFFFFFFFFFFFF)) =
      some (.error (.totalOutOfRange 0x7FFFFFFFFFFFFFFE8000000000000001)) := by
  have hints : ∀ n ∈ List.replicate 0x7FFFFFFFFFFFFFFF (Numeric.uint 0xFFFFFFFFFFFFFFFF),
      n.isInteger = true := by
    intro n hn
    rw [List.eq_of_mem_replicate hn]
    rfl
  have hlength : (List.replicate 0x7FFFFFFFFFFFFFFF
      (Numeric.uint 0xFFFFFFFFFFFFFFFF)).length < 0x8000000000000000 := by
    rw [List.length_replicate]
    decide
  have hgreatest : (Numeric.uint 0xFFFFFFFFFFFFFFFF).intValue = 0xFFFFFFFFFFFFFFFF := by decide
  refine ⟨hints, hlength, fun overflow => ?_⟩
  rw [(wideCompute_of_isInteger hints hlength overflow).2.2, exactSum_replicate, hgreatest]
  exact ⟨by decide, congrArg Error.totalOutOfRange (by decide)⟩

end Metrics

end Intake
