import Intake.Proofs.Json.ByValue
import Intake.Proofs.Metrics.IntegerText

/-!
# Where a dataset comes from

The metrics of the same numbers are the same, whether they are given as words or doubles, as values
of a document or as texts.  Each element is classified on its own, so two sources that agree on
each element agree on the dataset, `ofValues_of_forall₂`; the error for values that are not numbers
is that of the first of them, `numericsFrom_of_foreign`.

What the sources are is decided in different places.  Words and doubles are classified by their
type, values by trying the kinds of words on a number, and texts by trying the decoders of the
kinds.
-/

namespace Intake

open Json Json.Grammar

/-! ## Words and doubles -/

namespace Numeric

@[simp] theorem ofValue?_ofInt64 (v : Int64) : ofValue? (.ofInt64 v) = some (ofInt64 v) := by
  have hlt : v.toInt < 0x8000000000000000 := v.toInt_lt
  rw [Value.ofInt64, ofValue?_number, Number.ofInt64, ofNumber, if_pos hlt, Int64.ofInt_toInt,
    ofInt64]

@[simp] theorem ofValue?_ofUInt64 (v : UInt64) : ofValue? (.ofUInt64 v) = some (ofUInt64 v) := by
  rw [Value.ofUInt64, ofValue?_number, Number.ofUInt64, ofNumber, ofUInt64, Int.toNat_natCast,
    UInt64.ofNat_toNat]
  by_cases h : v.toNat < 0x8000000000000000
  · have hint : (v.toNat : Int) < 0x8000000000000000 := Int.ofNat_lt.2 h
    rw [if_pos h, if_pos hint]
  · have hint : ¬ (v.toNat : Int) < 0x8000000000000000 := mt Int.ofNat_lt.1 h
    rw [if_neg h, if_neg hint]

@[simp] theorem ofValue?_ofInt32 (v : Int32) : ofValue? (.ofInt32 v) = some (ofInt32 v) := by
  rw [Value.ofInt32, ofValue?_ofInt64, ofInt64, ofInt32, ← Int32.toInt_toInt64,
    Int64.ofInt_toInt]

/-- An unsigned half word is small enough for a signed word. -/
@[simp] theorem ofValue?_ofUInt32 (v : UInt32) : ofValue? (.ofUInt32 v) = some (ofUInt32 v) := by
  have hlt : v.toUInt64.toNat < 0x8000000000000000 := by
    have := v.toNat_lt
    rw [UInt32.toNat_toUInt64]
    omega
  rw [Value.ofUInt32, ofValue?_ofUInt64, ofUInt64, if_pos hlt, UInt32.toNat_toUInt64, ofUInt32]

theorem value_ofFloat_of_isFinite {x : Float} (h : x.isFinite = true) :
    Value.ofFloat x = .number (.float x h) := by
  simp only [Value.ofFloat, Number.ofFloat?, dif_pos h]

theorem value_ofFloat_of_not_isFinite {x : Float} (h : x.isFinite = false) :
    Value.ofFloat x = .null := by
  simp [Value.ofFloat, Number.ofFloat?, h]

theorem ofValue?_ofFloat {x : Float} (h : x.isFinite = true) :
    ofValue? (.ofFloat x) = some (ofFloat x) := by
  rw [value_ofFloat_of_isFinite h, ofValue?_number]
  rfl

end Numeric

namespace Metrics

/-! ## Datasets element by element -/

/-- Values that are a dataset element by element have its metrics. -/
theorem ofValues_of_forall₂ {values : List Value} {data : List Numeric}
    (h : List.Forall₂ (fun v n => Numeric.ofValue? v = some n) values data) :
    ofValues values = ofData data := by
  have hvalues : (∀ v ∈ values, (Numeric.ofValue? v).isSome) ∧
      values.filterMap Numeric.ofValue? = data := by
    induction h with
    | nil => exact ⟨fun v hv => absurd hv List.not_mem_nil, rfl⟩
    | cons hvn _ ih =>
      obtain ⟨hsome, hdata⟩ := ih
      refine ⟨List.forall_mem_cons.2 ⟨by rw [hvn]; rfl, hsome⟩, ?_⟩
      rw [List.filterMap_cons_some hvn, hdata]
  rw [ofValues_of_isSome hvalues.1, hvalues.2]

/-- Elements that are converted the same way in two steps and in one have the same metrics. -/
theorem ofValues_map {α : Type} {xs : List α} {value : α → Value} {numeric : α → Numeric}
    (h : ∀ x ∈ xs, Numeric.ofValue? (value x) = some (numeric x)) :
    ofValues (xs.map value) = ofData (xs.map numeric) := by
  refine ofValues_of_forall₂ ?_
  rw [List.forall₂_map_left_iff, List.forall₂_map_right_iff, List.forall₂_same]
  exact h

/-- Whether a value is none of the numbers. -/
def isForeign (v : Value) : Bool := (Numeric.ofValue? v).isNone

/-- The first value that is no number is the error, and what follows it is not looked at. -/
theorem numericsFrom_of_foreign {values : List Value} (h : ∃ v ∈ values, isForeign v = true)
    (i : Nat) : ∃ v, values[values.findIdx isForeign]? = some v ∧ isForeign v = true ∧
      numericsFrom i values =
        .error (.mismatch (indexName (i + values.findIdx isForeign)) Json.Kind.number.name v) := by
  induction values generalizing i with
  | nil => exact absurd h (by simp)
  | cons v values ih =>
    rw [List.findIdx_cons, numericsFrom]
    cases hv : Numeric.ofValue? v with
    | none =>
      have hforeign : isForeign v = true := by rw [isForeign, hv]; rfl
      simp only [hforeign, cond_true]
      exact ⟨v, rfl, hforeign, rfl⟩
    | some n =>
      have hnumber : isForeign v = false := by rw [isForeign, hv]; rfl
      have htail : ∃ w ∈ values, isForeign w = true := by
        obtain ⟨w, hw, hforeign⟩ := h
        rcases List.mem_cons.1 hw with rfl | hw
        · rw [hnumber] at hforeign
          exact absurd hforeign Bool.false_ne_true
        · exact ⟨w, hw, hforeign⟩
      obtain ⟨w, hget, hforeign, herror⟩ := ih htail (i + 1)
      simp only [hnumber, cond_false, herror]
      refine ⟨w, hget, hforeign, ?_⟩
      rw [Nat.add_right_comm, Nat.add_assoc]
      rfl

/-! ## Typed datasets -/

@[simp] theorem isForeign_ofFloat (x : Float) : isForeign (.ofFloat x) = !x.isFinite := by
  cases h : x.isFinite with
  | false => rw [isForeign, Numeric.value_ofFloat_of_not_isFinite h]; rfl
  | true => rw [isForeign, Numeric.ofValue?_ofFloat h]; rfl

/-- A double that is not finite is null in a document, and the first of them is the error. -/
theorem result_ofValues_of_not_isFinite {xs : List Float} (h : ∃ x ∈ xs, x.isFinite = false) :
    (ofValues (xs.map Value.ofFloat)).result =
      .error (.typeMismatch (indexName (xs.findIdx fun x => !x.isFinite)) "number" .null) := by
  have hforeign : ∃ v ∈ xs.map Value.ofFloat, isForeign v = true := by
    obtain ⟨x, hx, hfinite⟩ := h
    exact ⟨_, List.mem_map_of_mem hx, by rw [isForeign_ofFloat, hfinite]; rfl⟩
  have hindex : (xs.map Value.ofFloat).findIdx isForeign = xs.findIdx fun x => !x.isFinite := by
    rw [List.findIdx_map]
    exact congrArg (fun p => xs.findIdx p) (funext isForeign_ofFloat)
  obtain ⟨v, hget, hv, herror⟩ := numericsFrom_of_foreign hforeign 0
  obtain ⟨x, -, rfl⟩ := List.mem_map.1 (List.mem_of_getElem? hget)
  rw [isForeign_ofFloat, Bool.not_eq_true'] at hv
  rw [ofValues, herror, hindex, Nat.zero_add, Numeric.value_ofFloat_of_not_isFinite hv]
  rfl

/-- **Typed datasets.**  Words and finite doubles have the same metrics as the same numbers in a
document.  A double that is not finite is none of the numbers of a document: it becomes null, which
is an error at its index, while the metrics of the doubles themselves exist. -/
theorem ofValues_map_eq_ofData :
    (∀ xs : List Int32, ofValues (xs.map Value.ofInt32) = ofData (xs.map Numeric.ofInt32)) ∧
    (∀ xs : List Int64, ofValues (xs.map Value.ofInt64) = ofData (xs.map Numeric.ofInt64)) ∧
    (∀ xs : List UInt32, ofValues (xs.map Value.ofUInt32) = ofData (xs.map Numeric.ofUInt32)) ∧
    (∀ xs : List UInt64, ofValues (xs.map Value.ofUInt64) = ofData (xs.map Numeric.ofUInt64)) ∧
    (∀ xs : List Float, (∀ x ∈ xs, x.isFinite = true) →
      ofValues (xs.map Value.ofFloat) = ofData (xs.map Numeric.ofFloat)) ∧
    (∀ xs : List Float, (∃ x ∈ xs, x.isFinite = false) →
      (ofValues (xs.map Value.ofFloat)).result =
        .error (.typeMismatch (indexName (xs.findIdx fun x => !x.isFinite)) "number" .null) ∧
      ∃ m, (ofData (xs.map Numeric.ofFloat)).result = .ok m) := by
  refine ⟨fun xs => ?_, fun xs => ?_, fun xs => ?_, fun xs => ?_, fun xs h => ?_, fun xs h => ?_⟩
  · exact ofValues_map fun v _ => Numeric.ofValue?_ofInt32 v
  · exact ofValues_map fun v _ => Numeric.ofValue?_ofInt64 v
  · exact ofValues_map fun v _ => Numeric.ofValue?_ofUInt32 v
  · exact ofValues_map fun v _ => Numeric.ofValue?_ofUInt64 v
  · exact ofValues_map fun x hx => Numeric.ofValue?_ofFloat (h x hx)
  · obtain ⟨x, hx, hfinite⟩ := h
    have hfloat : ∃ n ∈ xs.map Numeric.ofFloat, n.isInteger = false :=
      ⟨Numeric.ofFloat x, List.mem_map_of_mem hx, rfl⟩
    obtain ⟨total, average, hresult⟩ := result_of_float hfloat
    exact ⟨result_ofValues_of_not_isFinite ⟨x, hx, hfinite⟩, _, hresult⟩

/-- Of three doubles the second one is infinite, and the third one is not even looked at. -/
theorem ofValues_map_eq_ofData_of_floats :
    ((∀ x ∈ [1.5, -0.0], Float.isFinite x = true) ∧
      ofValues ([1.5, -0.0].map Value.ofFloat) = ofData ([1.5, -0.0].map Numeric.ofFloat)) ∧
    (∃ x ∈ [1.5, 1.0 / 0.0, 0.0 / 0.0], Float.isFinite x = false) ∧
      (ofValues ([1.5, 1.0 / 0.0, 0.0 / 0.0].map Value.ofFloat)).result =
        .error (.typeMismatch "[1]" "number" .null) ∧
      ∃ m, (ofData ([1.5, 1.0 / 0.0, 0.0 / 0.0].map Numeric.ofFloat)).result = .ok m := by
  have hfinite : ∀ x ∈ [1.5, -0.0], Float.isFinite x = true := by decide +kernel
  have hinfinite : ∃ x ∈ [1.5, 1.0 / 0.0, 0.0 / 0.0], Float.isFinite x = false := by
    decide +kernel
  have hindex : indexName ([1.5, 1.0 / 0.0, 0.0 / 0.0].findIdx fun x => !Float.isFinite x) =
      "[1]" := by
    decide +kernel
  obtain ⟨-, -, -, -, hfloats, hforeign⟩ := ofValues_map_eq_ofData
  obtain ⟨herror, hresult⟩ := hforeign _ hinfinite
  rw [hindex] at herror
  exact ⟨⟨hfinite, hfloats _ hfinite⟩, hinfinite, herror, hresult⟩

end Metrics

/-! ## Texts -/

namespace Numeric

/-- The decoder takes from a value what it is as a numeric value. -/
theorem decoder_ofValue_eq_ok_iff {v : Value} {n : Numeric} :
    decoder.ofValue v = .ok n ↔ ofValue? v = some n := by
  rw [decoder_ofValue]
  cases ofValue? v <;> simp

theorem ofValue?_eq_none_of_kind {v : Value} (h : v.kind ≠ .number) : ofValue? v = none := by
  cases v with
  | number n => exact absurd rfl h
  | null | bool b | string s | array items | object entries => rfl

/-- A text is decoded as a numeric value exactly if it is a document that is one. -/
theorem decoder_fromText_eq_ok_iff {text : List Char} {n : Numeric} :
    decoder.fromText text = .ok n ↔ ∃ v, document text = .ok v ∧ ofValue? v = some n := by
  simp only [← decoder_ofValue_eq_ok_iff]
  exact Decoder.ofWhole_fromText_eq_ok_iff

end Numeric

namespace Metrics

/-- Texts that are decoded as a dataset are documents that are this dataset. -/
theorem exists_forall₂_document {texts : List (List Char)} {data : List Numeric}
    (h : List.Forall₂ (fun t n => Numeric.decoder.fromText t = .ok n) texts data) :
    ∃ values, List.Forall₂ (fun t v => document t = .ok v) texts values ∧
      List.Forall₂ (fun v n => Numeric.ofValue? v = some n) values data := by
  induction h with
  | nil => exact ⟨[], .nil, .nil⟩
  | cons hn _ ih =>
    obtain ⟨values, hdocuments, hnumbers⟩ := ih
    obtain ⟨v, hv, hnumber⟩ := Numeric.decoder_fromText_eq_ok_iff.1 hn
    exact ⟨v :: values, .cons hv hdocuments, .cons hnumber hnumbers⟩

/-- **Texts.**  A text is decoded as a numeric value exactly if it is a document that is this value
among numbers, and a document that is no number is refused for being neither of the kinds.  So the
texts of a dataset have the same metrics in both ways to read them. -/
theorem decoded_iff_ofValue :
    (∀ (text : List Char) (n : Numeric),
      Numeric.decoder.fromText text = .ok n ↔
        ∃ v, document text = .ok v ∧ Numeric.ofValue? v = some n) ∧
    (∀ (text : List Char) (v : Value), document text = .ok v → v.kind ≠ .number →
      Numeric.ofValue? v = none ∧
        Numeric.decoder.fromText text = .error ⟨.noAlternative "Numeric", none⟩) ∧
    (∀ (texts : List (List Char)) (data : List Numeric),
      List.Forall₂ (fun t n => Numeric.decoder.fromText t = .ok n) texts data →
        ∃ values, List.Forall₂ (fun t v => document t = .ok v) texts values ∧
          ofValues values = ofData data) := by
  refine ⟨fun text n => Numeric.decoder_fromText_eq_ok_iff, fun text v hv hkind => ?_,
    fun texts data h => ?_⟩
  · have hnone := Numeric.ofValue?_eq_none_of_kind hkind
    refine ⟨hnone, Decoder.ofWhole_fromText_of_error hv ?_⟩
    have hrefused := Numeric.decoder_ofValue v
    rw [hnone] at hrefused
    exact hrefused
  · obtain ⟨values, hdocuments, hnumbers⟩ := exists_forall₂_document h
    exact ⟨values, hdocuments, ofValues_of_forall₂ hnumbers⟩

/-- What a numeric value shows of itself: whether it is exact, and its digits. -/
def shown (n : Numeric) : Bool × String := (n.isInteger, n.display)

/-- A zero after a minus sign and an integer beyond the words are doubles, an integer beyond the
signed words is exact, and null is no number. -/
theorem decoded_iff_ofValue_of_literals :
    (∃ data, data.map shown = [(false, "-0"), (true, "9223372036854775808"),
        (false, "18446744073709552000")] ∧
      List.Forall₂ (fun t n => Numeric.decoder.fromText t = .ok n)
        ["-0".toList, "9223372036854775808".toList, "18446744073709551616".toList] data ∧
      ∃ values, List.Forall₂ (fun t v => document t = .ok v)
        ["-0".toList, "9223372036854775808".toList, "18446744073709551616".toList] values ∧
        ofValues values = ofData data) ∧
    (document nullText = .ok .null ∧ Value.null.kind ≠ .number ∧
      Numeric.decoder.fromText nullText = .error ⟨.noAlternative "Numeric", none⟩) := by
  obtain ⟨-, hrefused, htexts⟩ := decoded_iff_ofValue
  have hread {text : List Char} {s : Bool × String}
      (h : (Numeric.decoder.fromText text).toOption.map shown = some s) :
      ∃ n, Numeric.decoder.fromText text = .ok n ∧ shown n = s := by
    obtain ⟨n, hn, hs⟩ := Option.map_eq_some_iff.1 h
    exact ⟨n, toOption_eq_some_iff.1 hn, hs⟩
  constructor
  · have hzero : (Numeric.decoder.fromText "-0".toList).toOption.map shown =
        some (false, "-0") := by
      decide +kernel
    have hexact : (Numeric.decoder.fromText "9223372036854775808".toList).toOption.map shown =
        some (true, "9223372036854775808") := by
      decide +kernel
    have hlong : (Numeric.decoder.fromText "18446744073709551616".toList).toOption.map shown =
        some (false, "18446744073709552000") := by
      decide +kernel
    obtain ⟨a, ha, hshowna⟩ := hread hzero
    obtain ⟨b, hb, hshownb⟩ := hread hexact
    obtain ⟨c, hc, hshownc⟩ := hread hlong
    have hdata : List.Forall₂ (fun t n => Numeric.decoder.fromText t = .ok n)
        ["-0".toList, "9223372036854775808".toList, "18446744073709551616".toList] [a, b, c] :=
      .cons ha (.cons hb (.cons hc .nil))
    refine ⟨[a, b, c], ?_, hdata, htexts _ _ hdata⟩
    rw [List.map_cons, List.map_cons, List.map_cons, hshowna, hshownb, hshownc]
    rfl
  · have hnull : document nullText = .ok .null :=
      document_eq_ok_iff.2 ⟨[], nullText, [], 0, rfl, blank_nil, blank_nil, .null, by decide⟩
    have hkind : Value.null.kind ≠ .number := by decide
    exact ⟨hnull, hkind, (hrefused nullText .null hnull hkind).2⟩

end Metrics

end Intake
