import Intake.Proofs.Json.Yields
import Intake.Proofs.Metrics.ReadBack
import Mathlib.Data.List.TFAE

/-!
# Canonical values

A signed and an unsigned word can hold the same integer, and then they are different values.  That
does not happen among canonical values, where an unsigned word is only used for what no signed word
holds.  The elements of a dataset may be any values, but whatever is made of them is canonical, as
is everything that is converted or decoded: `Numeric.canonical_of_made`.

So two integers that were made are equal exactly if they are the same integer, and that can also be
seen from their texts.  The texts tell integers apart because a text of digits is read as one
integer only.
-/

namespace Intake

open Json Json.Grammar

/-! ## Texts of integers -/

/-- Different integers have different texts. -/
theorem Decimal.intText_injective : Function.Injective intText := by
  intro v w h
  have hread (u : Int) : numeral .unfinishedValue (intText u) = .ok (writtenNumeral u, []) := by
    have happend := numeral_append .unfinishedValue (numeralText_intText u) ends_nil
    rwa [List.append_nil] at happend
  have hv := hread v
  rw [h, hread w] at hv
  have hnumeral : writtenNumeral w = writtenNumeral v := (Prod.mk.inj (Except.ok.inj hv)).1
  rw [← intValue_writtenNumeral v, ← intValue_writtenNumeral w, hnumeral]

namespace Numeric

/-- An integer is shown by its digits, whichever word it is. -/
theorem plainText_of_isInteger {n : Numeric} (h : n.isInteger = true) :
    n.plainText = Decimal.intText n.intValue := by
  rw [← write_of_isInteger h]
  cases n with
  | int v => rfl
  | uint v => rfl
  | float x => exact absurd h Bool.false_ne_true

/-! ## Canonical integers -/

/-- Canonical values are the same if they are the same integer. -/
theorem eq_of_intValue {a b : Numeric} (ha : a.Canonical) (hb : b.Canonical)
    (hai : a.isInteger = true) (hbi : b.isInteger = true) (h : a.intValue = b.intValue) :
    a = b := by
  rw [← ofNumber_intValue hai ha, ← ofNumber_intValue hbi hb]
  congr 2

/-- An integer equals itself; of a double that could not be said. -/
theorem beq_self_of_isInteger {n : Numeric} (h : n.isInteger = true) : (n == n) = true := by
  cases n with
  | int v => exact beq_self_eq_true v
  | uint v => exact beq_self_eq_true v
  | float x => exact absurd h Bool.false_ne_true

/-- Equal integers are the same integer, canonical or not. -/
theorem intValue_eq_of_beq {a b : Numeric} (h : (a == b) = true) (hai : a.isInteger = true) :
    a.intValue = b.intValue := by
  cases a with
  | int v =>
    cases b with
    | int w => rw [eq_of_beq (show (v == w) = true from h)]
    | uint w => cases h
    | float y => cases h
  | uint v =>
    cases b with
    | int w => cases h
    | uint w => rw [eq_of_beq (show (v == w) = true from h)]
    | float y => cases h
  | float x => exact absurd hai Bool.false_ne_true

/-- For canonical integers it is one and the same thing to be equal values, the same integer, and
to have the same text. -/
theorem beq_tfae {a b : Numeric} (ha : a.Canonical) (hb : b.Canonical)
    (hai : a.isInteger = true) (hbi : b.isInteger = true) :
    [(a == b) = true, a.toInt? = b.toInt?, a.display = b.display, Json.text a = Json.text b].TFAE
    := by
  have hsame (h : a.intValue = b.intValue) : (a == b) = true := by
    rw [eq_of_intValue ha hb hai hbi h]
    exact beq_self_of_isInteger hbi
  tfae_have 1 → 2 := fun h => by
    rw [toInt?_of_isInteger hai, toInt?_of_isInteger hbi, intValue_eq_of_beq h hai]
  tfae_have 2 → 3 := fun h => by
    rw [toInt?_of_isInteger hai, toInt?_of_isInteger hbi] at h
    rw [display, display, plainText_of_isInteger hai, plainText_of_isInteger hbi, Option.some.inj h]
  tfae_have 3 → 4 := fun h => by
    rw [display, display, plainText_of_isInteger hai, plainText_of_isInteger hbi] at h
    rwa [Json.text, Json.text, write_of_isInteger hai, write_of_isInteger hbi]
  tfae_have 4 → 1 := fun h => by
    rw [Json.text, Json.text, write_of_isInteger hai, write_of_isInteger hbi] at h
    exact hsame (Decimal.intText_injective (String.ofList_injective h))
  tfae_finish

/-- A canonical integer is decoded from its text. -/
theorem fromText_text_of_isInteger {n : Numeric} (hn : n.Canonical) (hint : n.isInteger = true) :
    decoder.fromText (Json.text n).toList = .ok n := by
  obtain ⟨n', hjudged, -, hexact⟩ := (judges_write hn).1 (isFinite_of_isInteger hint)
  obtain rfl := hexact (isShort_of_isInteger hint)
  have hread := hjudged nestingLimit [] ends_nil
  rw [List.append_nil] at hread
  rw [toList_text]
  exact fromText_eq_ok_iff.2 ⟨[], hread, blank_nil⟩

/-! ## Conversions and decoding -/

theorem canonical_ofUInt64 (v : UInt64) : (ofUInt64 v).Canonical := by
  rw [ofUInt64]
  split
  · trivial
  · next h => exact Nat.le_of_not_lt h

theorem canonical_ofNumber (n : Number) : (ofNumber n).Canonical := by
  cases n with
  | integer v h =>
    rw [ofNumber]
    split
    · trivial
    · next hlarge =>
      have hsize : v.toNat < UInt64.size := by
        show v.toNat < 18446744073709551616
        omega
      show 0x8000000000000000 ≤ (UInt64.ofNat v.toNat).toNat
      rw [UInt64.toNat_ofNat_of_lt' hsize]
      omega
  | float x _ => trivial

theorem decoder_yields : decoder.Yields Canonical := by
  refine Decoder.yields_ofWhole fun v => ?_
  show (decoder.ofValue v).Meets Canonical
  cases v with
  | number n =>
    rw [decoder_ofValue_number]
    exact .ok (canonical_ofNumber n)
  | null | bool b | string s | array items | object entries => exact .error _

end Numeric

namespace Metrics

open Numeric (Canonical)

/-- Both parts are canonical. -/
def IsCanonical (m : Metrics) : Prop := m.total.Canonical ∧ m.average.Canonical

theorem decoder_yields : decoder.Yields IsCanonical :=
  (Fields.yields_decoder Numeric.decoder_yields Numeric.decoder_yields).map fun _ h => h

/-- The results that are made: decoded from any text or value, or computed, whatever is in the
dataset. -/
inductive Made : Metrics → Prop
  | default : Made ⟨default, default⟩
  | decoded {text : List Char} {m : Metrics} (h : decoder.fromText text = .ok m) : Made m
  | taken {v : Value} {m : Metrics} (h : decoder.ofValue v = .ok m) : Made m
  | ofData {data : List Numeric} {m : Metrics} (h : (ofData data).result = .ok m) : Made m
  | ofValues {values : List Value} {m : Metrics} (h : (ofValues values).result = .ok m) : Made m

theorem isCanonical_of_made {m : Metrics} (h : Made m) : m.IsCanonical := by
  cases h with
  | default => exact ⟨trivial, trivial⟩
  | decoded h => exact decoder_yields.fromText h
  | taken h => exact decoder_yields.ofValue _ h
  | ofData h =>
    rw [result_ofData] at h
    obtain ⟨htotal, haverage, -⟩ := parts_of_compute h
    exact ⟨htotal, haverage⟩
  | ofValues h =>
    obtain ⟨data, -, hcompute⟩ := exists_compute_of_ofValues h
    obtain ⟨htotal, haverage, -⟩ := parts_of_compute hcompute
    exact ⟨htotal, haverage⟩

end Metrics

namespace Numeric

/-! ## Made values -/

/-- The values that are made: converted from a word or a double, narrowed from an integer, decoded
from any text or value, or found in a result. -/
inductive Made : Numeric → Prop
  | default : Made default
  | zero : Made zero
  | int32 (v : Int32) : Made (ofInt32 v)
  | int64 (v : Int64) : Made (ofInt64 v)
  | uint32 (v : UInt32) : Made (ofUInt32 v)
  | uint64 (v : UInt64) : Made (ofUInt64 v)
  | float (x : Float) : Made (ofFloat x)
  | narrowed {v : Int} {n : Numeric} (h : ofInt? v = some n) : Made n
  | decoded {text : List Char} {n : Numeric} (h : decoder.fromText text = .ok n) : Made n
  | taken {v : Value} {n : Numeric} (h : decoder.ofValue v = .ok n) : Made n
  | total {m : Metrics} (h : m.Made) : Made m.total
  | average {m : Metrics} (h : m.Made) : Made m.average

/-- **Canonical values.**  Every value that is made is canonical, even from a dataset with elements
that are not, and for two integers among such values being equal, being the same integer, being
shown as the same text and being written as the same text all come to the same. -/
theorem canonical_of_made :
    (∀ n, Made n → n.Canonical) ∧
    ∀ a b, Made a → Made b → a.isInteger = true → b.isInteger = true →
      [(a == b) = true, a.toInt? = b.toInt?, a.display = b.display,
        Json.text a = Json.text b].TFAE := by
  have hcanonical : ∀ n, Made n → n.Canonical := by
    intro n h
    cases h with
    | default | zero | int32 v | int64 v | uint32 v | float x => trivial
    | uint64 v => exact canonical_ofUInt64 v
    | narrowed h => exact canonical_of_ofInt? h
    | decoded h => exact decoder_yields.fromText h
    | taken h => exact decoder_yields.ofValue _ h
    | total h => exact (Metrics.isCanonical_of_made h).1
    | average h => exact (Metrics.isCanonical_of_made h).2
  exact ⟨hcanonical, fun a b ha hb hai hbi =>
    beq_tfae (hcanonical a ha) (hcanonical b hb) hai hbi⟩

/-- The total of a dataset with an element that is not canonical equals the integer that is read
from its text. -/
theorem canonical_of_made_of_seven :
    ¬ (uint 7).Canonical ∧
      ∃ m n, (Metrics.ofData [uint 7]).result = .ok m ∧
        decoder.fromText (Json.text (int 7)).toList = .ok n ∧
        Made m.total ∧ Made n ∧ m.total.isInteger = true ∧ n.isInteger = true ∧
        m.total.Canonical ∧ (m.total == n) = true ∧ m.total.display = n.display ∧
        Json.text m.total = Json.text n := by
  have hseven : ¬ (uint 7).Canonical := by
    show ¬ 0x8000000000000000 ≤ (7 : UInt64).toNat
    decide
  have hresult : (Metrics.ofData [uint 7]).result =
      .ok ⟨int 7, Metrics.averageOf (int 7) 1⟩ := rfl
  have hread : decoder.fromText (Json.text (int 7)).toList = .ok (int 7) :=
    fromText_text_of_isInteger trivial rfl
  have htotal : Made (int 7) := .total (.ofData hresult)
  have hdecoded : Made (int 7) := .decoded hread
  have htfae := canonical_of_made.2 _ _ htotal hdecoded rfl rfl
  have hequal := (htfae.out 1 0).1 rfl
  refine ⟨hseven, _, _, hresult, hread, htotal, hdecoded, rfl, rfl, ?_, hequal, ?_, ?_⟩
  · exact canonical_of_made.1 _ htotal
  · exact (htfae.out 0 2).1 hequal
  · exact (htfae.out 0 3).1 hequal

/-- Without the canonical form equal integers could be different values. -/
example : (int 7 == uint 7) = false ∧ (int 7).toInt? = (uint 7).toInt? := by decide

end Numeric

end Intake
