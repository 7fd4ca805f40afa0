import Intake.Proofs.Metrics.ReadBack

/-!
# Reading a result of doubles back

The metrics of doubles are doubles again, and as long as they are finite their text is decoded.  But
the digits of a double need not be those of an integer that is a double, and then they are rounded
before they are scaled, which can end next to the double that was written.  So a result is read back
with parts that are close to what they were, and exactly if its parts are written shortly:
`fromText_text_of_floats`.  In general it is not read back exactly: `exists_fromText_text_ne`.
-/

namespace Intake.Metrics

open Numeric (IsFinite IsShort CloseTo)

/-- **Reading a result of doubles back.**  The text of finite metrics of doubles is decoded.  Each
part is close to what it was, and it is the same if it is written shortly. -/
theorem fromText_text_of_floats {data : List Float} {m : Metrics}
    (hm : (ofData (data.map Numeric.ofFloat)).result = .ok m) (htotal : m.total.IsFinite)
    (haverage : m.average.IsFinite) :
    ∃ m', decoder.fromText (Json.text m).toList = .ok m' ∧
      m.total.CloseTo m'.total ∧ m.average.CloseTo m'.average ∧
      (m.total.IsShort → m'.total = m.total) ∧ (m.average.IsShort → m'.average = m.average) := by
  rw [result_ofData] at hm
  obtain ⟨ht, ha, -⟩ := parts_of_compute hm
  obtain ⟨m', hm', ⟨hclose, hexact⟩, hclose', hexact'⟩ :=
    fromText_text_of_parts ht ha htotal haverage
  exact ⟨m', hm', hclose, hclose', hexact, hexact'⟩

/-- A dataset of one short double has itself as its total and its mean, and both are read back. -/
theorem fromText_text_of_floats_of_one :
    ∃ m, (ofData ([2.5].map Numeric.ofFloat)).result = .ok m ∧ m.total.IsFinite ∧
      m.average.IsFinite ∧ m.total.IsShort ∧ m.average.IsShort ∧
      decoder.fromText (Json.text m).toList = .ok m := by
  have hfinite : (floatTotal [.float 2.5]).isFinite = true := by decide +kernel
  have hfinite' : (floatTotal [.float 2.5] / Numeric.nearestFloat 1).isFinite = true := by
    decide +kernel
  have hshort : (Decimal.FloatStyle.documentNumeral (floatTotal [.float 2.5])).IsShort := by
    decide +kernel
  have hshort' : (Decimal.FloatStyle.documentNumeral
      (floatTotal [.float 2.5] / Numeric.nearestFloat 1)).IsShort := by
    decide +kernel
  obtain ⟨⟨total, average⟩, hread, -, -, htotal, haverage⟩ :=
    @fromText_text_of_floats [2.5] _ rfl hfinite hfinite'
  obtain rfl : total = _ := htotal hshort
  obtain rfl : average = _ := haverage hshort'
  exact ⟨_, rfl, hfinite, hfinite', hshort, hshort', hread⟩

/-- The metrics of a double of sixteen digits are finite, and their text is decoded as metrics of
the double below it. -/
theorem exists_fromText_text_ne :
    ∃ m m' : Metrics, (ofData ([8000000000000007.0].map Numeric.ofFloat)).result = .ok m ∧
      m.total.IsFinite ∧ m.average.IsFinite ∧
      Json.text m = "\x7b\"total\":8000000000000007.0,\"average\":8000000000000007.0\x7d" ∧
      decoder.fromText (Json.text m).toList = .ok m' ∧
      m'.total.display = "8000000000000006" ∧ m'.average.display = "8000000000000006" ∧
      m' ≠ m := by
  have hm : (ofData ([8000000000000007.0].map Numeric.ofFloat)).result = .ok
      ⟨.float (floatTotal [.float 8000000000000007.0]),
        averageOf (.float (floatTotal [.float 8000000000000007.0])) 1⟩ := rfl
  generalize hresult : Metrics.mk _ _ = m at hm
  have hfinite : m.total.toFloat.isFinite && m.average.toFloat.isFinite := by
    rw [← hresult]
    decide +kernel
  have hrun : (match decoder.fromText (Json.text m).toList with
      | .error _ => false
      | .ok m' => Json.text m =
            "\x7b\"total\":8000000000000007.0,\"average\":8000000000000007.0\x7d" &&
          m.total.display ≠ "8000000000000006" && m'.total.display = "8000000000000006" &&
          m'.average.display = "8000000000000006") = true := by
    rw [← hresult]
    decide +kernel
  obtain ⟨htotal, haverage⟩ : m.total.IsFinite ∧ m.average.IsFinite := by
    rw [← hresult] at hfinite ⊢
    exact Bool.and_eq_true_iff.1 hfinite
  split at hrun
  · cases hrun
  next m' hm' =>
  simp only [Bool.and_eq_true, decide_eq_true_eq] at hrun
  obtain ⟨⟨⟨htext, hne⟩, htotal'⟩, haverage'⟩ := hrun
  refine ⟨m, m', hm, htotal, haverage, htext, hm', htotal', haverage', ?_⟩
  rintro rfl
  exact hne htotal'

end Intake.Metrics
