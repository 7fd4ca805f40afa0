import Intake.Proofs.Float.Words
import Intake.Proofs.Json.NumeralError
import Intake.Proofs.Json.WrittenRecord
import Intake.Proofs.Metrics.Wire

/-!
# Reading a result back

A result is written as a record of two numbers.  An exact total is written by its digits and read
back as the same word.  A double is read back as a double, because it is always written with a
fraction or an exponent; it is one close by, and the same double if it is written shortly.  But a
sum of doubles that leaves their range is infinite, and no error; it is written as null, and null is
no number.  So a result can be read back exactly if its total is finite, `fromText_text_iff`.

The mean does not come into it, because a finite total stays finite when it is divided by a count.
The count is a word, so a list of values is to be shorter than `2^64`, as every list in a memory is.
-/

namespace Intake

open Json Json.Grammar Binary64

namespace Numeric

/-! ## Kinds -/

/-- The values are of the same kind: signed words, unsigned words or doubles. -/
def SameKind : Numeric → Numeric → Prop
  | int _, int _ => True
  | uint _, uint _ => True
  | float _, float _ => True
  | _, _ => False

/-- The value is not an infinite double, and not NaN. -/
def IsFinite : Numeric → Prop
  | float x => x.isFinite = true
  | _ => True

/-- The values are the same integer, or doubles apart by at most eight parts in `2 ^ 53` of the
first and twice the least double. -/
def CloseTo : Numeric → Numeric → Prop
  | int v, int w => v = w
  | uint v, uint w => v = w
  | float x, float y => |toRat y - toRat x| ≤ 2 ^ (-50 : Int) * |toRat x| + 2 ^ (-1073 : Int)
  | _, _ => False

theorem CloseTo.sameKind {a b : Numeric} (h : a.CloseTo b) : a.SameKind b := by
  cases a <;> cases b <;> trivial

/-- The text of the value is sure to be read as the same value: it is an integer, or a double that
is written shortly. -/
def IsShort : Numeric → Prop
  | float x => (Decimal.FloatStyle.documentNumeral x).IsShort
  | _ => True

theorem isShort_of_isInteger {n : Numeric} (h : n.isInteger = true) : n.IsShort := by
  cases n with
  | int v | uint v => trivial
  | float x => exact absurd h Bool.false_ne_true

theorem closeTo_self {n : Numeric} (h : n.isInteger = true) : n.CloseTo n := by
  cases n with
  | int v | uint v => rfl
  | float x => exact absurd h Bool.false_ne_true

theorem isFinite_of_isInteger {n : Numeric} (h : n.isInteger = true) : n.IsFinite := by
  cases n with
  | int v | uint v => trivial
  | float x => exact absurd h Bool.false_ne_true

theorem canonical_of_ofInt? {v : Int} {n : Numeric} (h : ofInt? v = some n) : n.Canonical := by
  rw [ofInt?] at h
  split at h
  · cases h
    trivial
  split at h
  · next hsigned hunsigned =>
    cases h
    show 0x8000000000000000 ≤ (UInt64.ofNat v.toNat).toNat
    have hsize : v.toNat < UInt64.size := by
      show v.toNat < 18446744073709551616
      omega
    rw [UInt64.toNat_ofNat_of_lt' hsize]
    omega
  · cases h

/-! ## Reading a number back -/

/-- A canonical integer is the one that a number with its value is read as. -/
theorem ofNumber_intValue {n : Numeric} (hint : n.isInteger = true) (hn : n.Canonical) :
    ofNumber (.integer n.intValue n.isWord_intValue) = n := by
  cases n with
  | int v =>
    have hlt := v.toInt_lt
    show ofNumber (.ofInt64 v) = int v
    rw [Number.ofInt64, ofNumber, if_pos (by omega), Int64.ofInt_toInt]
  | uint v =>
    rw [Canonical] at hn
    show ofNumber (.ofUInt64 v) = uint v
    rw [Number.ofUInt64, ofNumber, if_neg (by omega), Int.toNat_natCast, UInt64.ofNat_toNat]
  | float x => exact absurd hint Bool.false_ne_true

/-- A finite value is written as a number that is close to it, and the same if it is written
shortly. -/
theorem exists_denotes_write {n : Numeric} (hn : n.Canonical) (h : n.IsFinite) :
    ∃ x, Denotes (Write.write n) (.number x) 0 ∧ n.CloseTo (ofNumber x) ∧
      (n.IsShort → ofNumber x = n) := by
  by_cases hint : n.isInteger = true
  · refine ⟨.integer n.intValue n.isWord_intValue, ?_, ?_⟩
    · rw [write_of_isInteger hint]
      exact denotes_intText n.isWord_intValue
    · rw [ofNumber_intValue hint hn]
      exact ⟨closeTo_self hint, fun _ => rfl⟩
  · cases n with
    | int v => exact absurd rfl hint
    | uint v => exact absurd rfl hint
    | float x =>
      have h : x.isFinite = true := h
      obtain ⟨f, finite, hnumber⟩ := Decimal.FloatStyle.exists_toNumber_documentNumeral h
      refine ⟨.float f finite, ?_, Decimal.FloatStyle.abs_toRat_sub_le h hnumber, fun hshort => ?_⟩
      · rw [write_float, write_float_of_isFinite h]
        exact .number (Decimal.FloatStyle.numeralText_documentNumeral h) hnumber
      · cases hnumber.symm.trans (Decimal.FloatStyle.toNumber_documentNumeral h hshort)
        rfl

/-- A value that is not finite is written as null. -/
theorem denotes_write_null {n : Numeric} (h : ¬ n.IsFinite) : Denotes (Write.write n) .null 0 := by
  cases n with
  | int v => exact absurd trivial h
  | uint v => exact absurd trivial h
  | float x =>
    have h : ¬ x.isFinite = true := h
    rw [write_float, write_float_of_not_isFinite h]
    exact .null

/-- A written value is taken if it is finite, and refused otherwise. -/
theorem judges_write {n : Numeric} (hn : n.Canonical) :
    (n.IsFinite → ∃ n', (∀ budget, decoder.Judges budget (Write.write n) (.ok n')) ∧
      n.CloseTo n' ∧ (n.IsShort → n' = n)) ∧
    (¬ n.IsFinite → ∀ budget, decoder.Judges budget (Write.write n)
      (.error (.noAlternative "Numeric"))) := by
  refine ⟨fun h => ?_, fun h budget =>
    Decoder.judges_ofWhole _ (denotes_write_null h) (Nat.zero_le budget)⟩
  obtain ⟨x, hdenotes, hclose, hexact⟩ := exists_denotes_write hn h
  refine ⟨ofNumber x, fun budget => ?_, hclose, hexact⟩
  rw [← decoder_ofValue_number]
  exact Decoder.judges_ofWhole _ hdenotes (Nat.zero_le budget)

/-! ## Means -/

theorem toFloat_of_isInteger {n : Numeric} (h : n.isInteger = true) :
    n.toFloat = nearestFloat n.intValue := by
  cases n with
  | int v | uint v => rfl
  | float x => exact absurd h Bool.false_ne_true

theorem isFinite_toFloat {n : Numeric} (h : n.IsFinite) : n.toFloat.isFinite = true := by
  cases n with
  | int v =>
    have hlow := v.le_toInt
    have hhigh := v.toInt_lt
    exact isFinite_nearestFloat (by omega)
  | uint v => exact isFinite_nearestFloat (by rw [Int.natAbs_natCast]; exact v.toNat_lt)
  | float x => exact h

end Numeric

namespace Metrics

open Numeric (SameKind IsFinite)

/-! ## Results -/

/-- The mean of a finite total is finite. -/
theorem isFinite_averageOf {total : Numeric} (h : total.IsFinite) {count : Nat} (hne : count ≠ 0)
    (hlt : count < 2 ^ 64) : (averageOf total count).IsFinite := by
  show (total.toFloat / Numeric.nearestFloat count).isFinite = true
  rw [Numeric.nearestFloat_natCast]
  exact isFinite_div_count (Numeric.isFinite_toFloat h) hne hlt

/-- The total of a dataset keeps to the signed words where it can. -/
theorem canonical_of_totalOf {data : List Numeric} {total : Numeric}
    (h : totalOf data = .ok total) : total.Canonical := by
  rw [totalOf] at h
  cases hints : integers? data with
  | some integers =>
    rw [hints] at h
    simp only at h
    cases hsum : Numeric.ofInt? (exactTotal integers) with
    | some n =>
      rw [hsum] at h
      cases h
      exact Numeric.canonical_of_ofInt? hsum
    | none =>
      rw [hsum] at h
      cases h
  | none =>
    rw [hints] at h
    cases h
    trivial

/-- The result for a dataset that is not empty. -/
theorem total_and_average_of_compute {data : List Numeric} {m : Metrics}
    (h : compute data = .ok m) (hne : data ≠ []) :
    totalOf data = .ok m.total ∧ m.average = averageOf m.total data.length := by
  have hempty : ¬ data.isEmpty = true := fun h => hne (List.isEmpty_iff.1 h)
  rw [compute, if_neg hempty] at h
  cases htotal : totalOf data with
  | error e =>
    rw [htotal] at h
    cases h
  | ok total =>
    rw [htotal] at h
    cases h
    exact ⟨rfl, rfl⟩

/-- A result has two canonical parts, and the mean is finite if the total is. -/
theorem parts_of_compute {data : List Numeric} {m : Metrics} (h : compute data = .ok m) :
    m.total.Canonical ∧ m.average.Canonical ∧
      (data.length < 2 ^ 64 → m.total.IsFinite → m.average.IsFinite) := by
  rcases eq_or_ne data [] with rfl | hne
  · cases h
    exact ⟨trivial, trivial, fun _ _ => trivial⟩
  · obtain ⟨htotal, haverage⟩ := total_and_average_of_compute h hne
    rw [haverage]
    refine ⟨canonical_of_totalOf htotal, trivial, fun hlt h => isFinite_averageOf h ?_ hlt⟩
    exact fun hlength => hne (List.length_eq_zero_iff.1 hlength)

/-- The numbers among values are the values one by one. -/
theorem forall₂_of_numericsFrom {i : Nat} {values : List Value} {data : List Numeric}
    (h : numericsFrom i values = .ok data) :
    List.Forall₂ (fun v n => Numeric.ofValue? v = some n) values data := by
  induction values generalizing i data with
  | nil =>
    cases h
    exact .nil
  | cons v values ih =>
    rw [numericsFrom] at h
    split at h
    · next n hn =>
      cases hrest : numericsFrom (i + 1) values with
      | error e =>
        rw [hrest] at h
        cases h
      | ok rest =>
        rw [hrest] at h
        cases h
        exact .cons hn (ih hrest)
    · cases h

/-- The metrics of values are those of the numbers that they are. -/
theorem exists_compute_of_ofValues {values : List Value} {m : Metrics}
    (h : (ofValues values).result = .ok m) :
    ∃ data, List.Forall₂ (fun v n => Numeric.ofValue? v = some n) values data ∧
      compute data = .ok m := by
  rw [ofValues] at h
  split at h
  · next data hdata =>
    rw [result_ofData] at h
    exact ⟨data, forall₂_of_numericsFrom hdata, h⟩
  · cases h

/-! ## Reading back -/

theorem text_eq_recordText (m : Metrics) : (Json.text m).toList =
    fields.recordText (Write.write m.total) (Write.write m.average) := toList_text m

/-- A written result is read back if both of its parts are finite: each part is close to what it
was, and the same if it is written shortly. -/
theorem fromText_text_of_parts {m : Metrics} (ht : m.total.Canonical) (ha : m.average.Canonical)
    (htotal : m.total.IsFinite) (haverage : m.average.IsFinite) :
    ∃ m', decoder.fromText (Json.text m).toList = .ok m' ∧
      (m.total.CloseTo m'.total ∧ (m.total.IsShort → m'.total = m.total)) ∧
      (m.average.CloseTo m'.average ∧ (m.average.IsShort → m'.average = m.average)) := by
  obtain ⟨total, hjudged, hread⟩ := (Numeric.judges_write ht).1 htotal
  obtain ⟨average, hjudged', hread'⟩ := (Numeric.judges_write ha).1 haverage
  have hdecoded := (Fields.fromText_written (f := fields) (by decide) hjudged hjudged').1 _ rfl
  refine ⟨⟨total, average⟩, ?_, hread, hread'⟩
  rw [decoder, fromText_map, text_eq_recordText, hdecoded]
  rfl

/-- A written result is read back if both of its parts are finite, in the same kinds and with the
same total if that is an integer. -/
theorem fromText_text_of_isFinite {m : Metrics} (ht : m.total.Canonical)
    (ha : m.average.Canonical) (htotal : m.total.IsFinite) (haverage : m.average.IsFinite) :
    ∃ m', decoder.fromText (Json.text m).toList = .ok m' ∧
      m.total.SameKind m'.total ∧ m.average.SameKind m'.average ∧
      (m.total.isInteger = true → m'.total = m.total) := by
  obtain ⟨m', hm', ⟨hclose, hexact⟩, hclose', -⟩ := fromText_text_of_parts ht ha htotal haverage
  exact ⟨m', hm', hclose.sameKind, hclose'.sameKind,
    fun hint => hexact (Numeric.isShort_of_isInteger hint)⟩

/-- A written result is refused if its total is not finite. -/
theorem fromText_text_of_not_isFinite {m : Metrics} (ht : m.total.Canonical)
    (ha : m.average.Canonical) (htotal : ¬ m.total.IsFinite) :
    ∃ e, decoder.fromText (Json.text m).toList = .error e ∧
      e.cause = .noAlternative "Numeric" := by
  have hjudged := (Numeric.judges_write ht).2 htotal
  obtain ⟨r, hjudged'⟩ : ∃ r, ∀ budget,
      Numeric.decoder.Judges budget (Write.write m.average) r := by
    by_cases haverage : m.average.IsFinite
    · obtain ⟨average, hjudged', -⟩ := (Numeric.judges_write ha).1 haverage
      exact ⟨_, hjudged'⟩
    · exact ⟨_, (Numeric.judges_write ha).2 haverage⟩
  obtain ⟨e, hread, hcause⟩ :=
    (Fields.fromText_written (f := fields) (by decide) hjudged hjudged').2 _ rfl
  refine ⟨e, ?_, hcause⟩
  rw [decoder, fromText_map, text_eq_recordText, hread]
  rfl

/-- **Reading a result back.**  The text of a result is decoded exactly if the total is finite: into
parts of the same kinds, and into the same total if it is exact.  A total that is not finite is
written as null and refused. -/
theorem fromText_text_iff {values : List Value} (hlength : values.length < 2 ^ 64) {m : Metrics}
    (h : (ofValues values).result = .ok m) :
    ((∃ m', decoder.fromText (Json.text m).toList = .ok m') ↔ m.total.IsFinite) ∧
    (∀ m', decoder.fromText (Json.text m).toList = .ok m' →
      m.total.SameKind m'.total ∧ m.average.SameKind m'.average ∧
        (m.total.isInteger = true → m'.total = m.total)) ∧
    (¬ m.total.IsFinite → ∃ e, decoder.fromText (Json.text m).toList = .error e ∧
      e.cause = .noAlternative "Numeric") := by
  obtain ⟨data, hdata, hcompute⟩ := exists_compute_of_ofValues h
  obtain ⟨ht, ha, hmean⟩ := parts_of_compute hcompute
  have hfinite (htotal : m.total.IsFinite) := fromText_text_of_isFinite ht ha htotal
    (hmean (hdata.length_eq ▸ hlength) htotal)
  have hrefused := fromText_text_of_not_isFinite ht ha
  have htaken {m' : Metrics} (hm' : decoder.fromText (Json.text m).toList = .ok m') :
      m.total.IsFinite := by
    by_contra htotal
    obtain ⟨e, he, -⟩ := hrefused htotal
    rw [hm'] at he
    cases he
  refine ⟨⟨fun ⟨m', hm'⟩ => htaken hm', fun htotal => ?_⟩, fun m' hm' => ?_, hrefused⟩
  · obtain ⟨m', hm', -⟩ := hfinite htotal
    exact ⟨m', hm'⟩
  · obtain ⟨m'', hm'', hparts⟩ := hfinite (htaken hm')
    obtain rfl : m' = m'' := Except.ok.inj (hm'.symm.trans hm'')
    exact hparts

theorem isFinite_half : (0.5 : Float).isFinite = true := by decide +kernel

/-- An integer and a double have a double as their total, which is read back. -/
theorem fromText_text_iff_of_half :
    [Value.number (.ofInt64 1), .number (.float 0.5 isFinite_half)].length < 2 ^ 64 ∧
      ∃ m, (ofValues [.number (.ofInt64 1), .number (.float 0.5 isFinite_half)]).result = .ok m ∧
        ∃ m', decoder.fromText (Json.text m).toList = .ok m' ∧
          m.total.SameKind m'.total ∧ m.average.SameKind m'.average := by
  have hlength : [Value.number (.ofInt64 1), .number (.float 0.5 isFinite_half)].length < 2 ^ 64 :=
    by decide
  have hresult :
      (ofValues [.number (.ofInt64 1), .number (.float 0.5 isFinite_half)]).result = .ok
        ⟨.float (floatTotal [.int 1, .float 0.5]),
          averageOf (.float (floatTotal [.int 1, .float 0.5])) 2⟩ := rfl
  have hfinite : (floatTotal [.int 1, .float 0.5]).isFinite = true := by decide +kernel
  obtain ⟨hiff, hkinds, -⟩ := fromText_text_iff hlength hresult
  obtain ⟨m', hm'⟩ := hiff.2 hfinite
  obtain ⟨htotal, haverage, -⟩ := hkinds m' hm'
  exact ⟨hlength, _, hresult, m', hm', htotal, haverage⟩

/-- Two doubles whose sum is infinite have a result that is written with nulls and refused. -/
theorem exists_fromText_text_eq_error :
    ∃ values m, Decoder.list.fromText "[1e308,1e308]".toList = .ok values ∧
      (ofValues values).result = .ok m ∧
      Json.text m = "\x7b\"total\":null,\"average\":null\x7d" ∧
      ∃ e, decoder.fromText (Json.text m).toList = .error e := by
  have hrun : (match Decoder.list.fromText "[1e308,1e308]".toList with
      | .error _ => false
      | .ok values => match (ofValues values).result with
        | .error _ => false
        | .ok m => Json.text m = "\x7b\"total\":null,\"average\":null\x7d" &&
          match decoder.fromText (Json.text m).toList with
          | .error _ => true
          | .ok _ => false) = true := by
    decide +kernel
  split at hrun
  · cases hrun
  next values hvalues =>
  split at hrun
  · cases hrun
  next m hm =>
  obtain ⟨htext, hrefused⟩ := Bool.and_eq_true_iff.1 hrun
  refine ⟨values, m, hvalues, hm, of_decide_eq_true htext, ?_⟩
  split at hrefused
  · next e he => exact ⟨e, he⟩
  · cases hrefused

end Metrics

end Intake
