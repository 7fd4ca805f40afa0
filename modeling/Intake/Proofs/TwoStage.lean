import Intake.Analyzer
import Intake.Metrics
import Intake.Normalization
import Intake.Proofs.Json.RecordByValue

/-!
# Decoding at once and in two stages

A caller who has a text can decode it at once, or first read it as a document and decode the value
later.  `fromText_iff_ofValue` goes through all types that are decoded and says that the two come to
the same.  There is one exception, which is the same for the three types that are records of two
fields: a text that repeats one of the fields is refused at once, and in two stages the last of the
repeated fields is taken.

Maps of arbitrary entries have no fields to be repeated, and for them a later entry wins either way.
-/

namespace Intake

open Json

/-! ## The decoders of the types -/

theorem Numeric.consistent_decoder : Numeric.decoder.Consistent := Decoder.consistent_ofWhole _

theorem Record.consistent_decoder : Record.decoder.Consistent := Decoder.consistent_dict.map _

theorem Config.consistent_decoder : Config.decoder.Consistent := Decoder.consistent_dict.map _

section Records

variable {text : List Char} {v : Value}

theorem Metrics.decoder_fromText_iff (hv : document text = .ok v) (m : Metrics) :
    Metrics.decoder.fromText text = .ok m ↔
      Metrics.decoder.ofValue v = .ok m ∧ Metrics.fields.FieldsOnce text :=
  Fields.map_decoder_fromText_eq_ok_iff (by decide) Numeric.consistent_decoder
    Numeric.consistent_decoder hv _

theorem Analysis.decoder_fromText_iff (hv : document text = .ok v) (a : Analysis) :
    Analysis.decoder.fromText text = .ok a ↔
      Analysis.decoder.ofValue v = .ok a ∧ Analysis.fields.FieldsOnce text :=
  Fields.map_decoder_fromText_eq_ok_iff (by decide) Decoder.consistent_bool
    Decoder.consistent_count hv _

theorem Normalized.decoder_fromText_iff {ι : Type} {idType : Decoder ι} (hid : idType.Consistent)
    (hv : document text = .ok v) (n : Normalized ι) :
    (Normalized.decoder idType).fromText text = .ok n ↔
      (Normalized.decoder idType).ofValue v = .ok n ∧
        (Normalized.fields idType).FieldsOnce text :=
  have hne : (Normalized.fields idType).second ≠ (Normalized.fields idType).first :=
    show "normalized" ≠ "id" by decide
  Fields.map_decoder_fromText_eq_ok_iff hne hid Decoder.consistent_string hv _

end Records

/-! ## All types -/

/-- **Decoding at once and in two stages.**  If a text is read as a value, then whatever is decoded
from the text is decoded from the value too, and whatever is decoded from the value is decoded from
the text, unless the type is a record and the text repeats one of its fields. -/
theorem fromText_iff_ofValue {text : List Char} {v : Value} (hv : document text = .ok v) :
    (∀ n, Numeric.decoder.fromText text = .ok n ↔ Numeric.decoder.ofValue v = .ok n) ∧
    (∀ m, Metrics.decoder.fromText text = .ok m ↔
      Metrics.decoder.ofValue v = .ok m ∧ Metrics.fields.FieldsOnce text) ∧
    (∀ a, Analysis.decoder.fromText text = .ok a ↔
      Analysis.decoder.ofValue v = .ok a ∧ Analysis.fields.FieldsOnce text) ∧
    (∀ n, (Normalized.decoder Decoder.string).fromText text = .ok n ↔
      (Normalized.decoder Decoder.string).ofValue v = .ok n ∧
        (Normalized.fields Decoder.string).FieldsOnce text) ∧
    (∀ n, (Normalized.decoder Decoder.int64).fromText text = .ok n ↔
      (Normalized.decoder Decoder.int64).ofValue v = .ok n ∧
        (Normalized.fields Decoder.int64).FieldsOnce text) ∧
    (∀ n, (Normalized.decoder Decoder.uint64).fromText text = .ok n ↔
      (Normalized.decoder Decoder.uint64).ofValue v = .ok n ∧
        (Normalized.fields Decoder.uint64).FieldsOnce text) ∧
    (∀ r, Record.decoder.fromText text = .ok r ↔ Record.decoder.ofValue v = .ok r) ∧
    (∀ c, Config.decoder.fromText text = .ok c ↔ Config.decoder.ofValue v = .ok c) := by
  refine ⟨fun n => ?_, fun m => ?_, fun a => ?_, fun n => ?_, fun n => ?_, fun n => ?_,
    fun r => ?_, fun c => ?_⟩
  · exact Numeric.consistent_decoder.fromText_eq_ok_iff hv
  · exact Metrics.decoder_fromText_iff hv m
  · exact Analysis.decoder_fromText_iff hv a
  · exact Normalized.decoder_fromText_iff Decoder.consistent_string hv n
  · exact Normalized.decoder_fromText_iff Decoder.consistent_int64 hv n
  · exact Normalized.decoder_fromText_iff Decoder.consistent_uint64 hv n
  · exact Record.consistent_decoder.fromText_eq_ok_iff hv
  · exact Config.consistent_decoder.fromText_eq_ok_iff hv

/-- A result with an unknown member in front, in which a pair of surrogates stands. -/
def unknownMemberText : List Char :=
  "\x7b\"x\":[\"\\ud83d\\ude00\",1e5],\"data_count\":3,\"analyzed\":true\x7d".toList

/-- A result with two counts. -/
def repeatedCountText : List Char :=
  "\x7b\"data_count\":3,\"analyzed\":true,\"data_count\":4\x7d".toList

/-- An unknown member does no harm either way, and of two counts the second one is taken, but only
in two stages. -/
theorem fromText_iff_ofValue_of_counts :
    (∃ v, document unknownMemberText = .ok v ∧
      Analysis.decoder.fromText unknownMemberText = .ok ⟨true, 3⟩ ∧
      Analysis.decoder.ofValue v = .ok ⟨true, 3⟩) ∧
    ∃ v, document repeatedCountText = .ok v ∧ Analysis.decoder.ofValue v = .ok ⟨true, 4⟩ ∧
      ¬ Analysis.fields.FieldsOnce repeatedCountText := by
  have hunknown : (document unknownMemberText).toOption.isSome = true := by decide +kernel
  have hread : (Analysis.decoder.fromText unknownMemberText).toOption = some ⟨true, 3⟩ := by
    decide +kernel
  have hrepeated : ((document repeatedCountText).toOption.bind fun v =>
      (Analysis.decoder.ofValue v).toOption) = some ⟨true, 4⟩ := by
    decide +kernel
  have hrefused : (Analysis.decoder.fromText repeatedCountText).toOption = none := by
    decide +kernel
  constructor
  · obtain ⟨v, hv⟩ := Option.isSome_iff_exists.1 hunknown
    rw [toOption_eq_some_iff] at hv hread
    exact ⟨v, hv, hread, (((fromText_iff_ofValue hv).2.2.1 ⟨true, 3⟩).1 hread).1⟩
  · obtain ⟨v, hv, hvalue⟩ := Option.bind_eq_some_iff.1 hrepeated
    rw [toOption_eq_some_iff] at hv hvalue
    refine ⟨v, hv, hvalue, fun honce => ?_⟩
    have htaken := ((fromText_iff_ofValue hv).2.2.1 ⟨true, 4⟩).2 ⟨hvalue, honce⟩
    rw [htaken] at hrefused
    exact absurd hrefused (by simp [Except.toOption])

end Intake
