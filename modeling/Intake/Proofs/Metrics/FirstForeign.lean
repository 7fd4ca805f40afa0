import Intake.Proofs.Decimal.Digits
import Intake.Proofs.Metrics.Sources
import Mathlib.Data.List.Basic

/-!
# The first value that is no number

A dataset of values can be refused for two reasons: a value is no number, or the numbers have a
total that is not a word.  The values are looked at one after the other before anything is added, so
the first reason comes before the second one, and of several values that are no numbers the first
one decides the error, `ofValues_of_firstForeign`.  Its message shows the index, and the bracket
after the index keeps the messages for different indices apart.
-/

namespace Intake

open Json (Value Kind)

namespace Metrics

/-! ## Indices in messages -/

@[simp] theorem toList_indexName (i : Nat) :
    (indexName i).toList = '[' :: (Nat.toDigits 10 i ++ [']']) := by
  rw [indexName, Decimal.natText_eq_toDigits, String.toList_ofList, List.cons_append]

theorem indexName_eq (i : Nat) : indexName i = s!"[{i}]" := by
  have hparts : s!"[{i}]" = "[" ++ toString i ++ "]" := rfl
  apply String.toList_inj.1
  rw [toList_indexName, hparts]
  simp

/-- What follows the index in a message. -/
def messageRest (found : Kind) : List Char := ("': expected number, found " ++ found.name).toList

theorem toList_message (i : Nat) (found : Kind) :
    (Error.typeMismatch (indexName i) "number" found).message.toList =
      "type mismatch for '[".toList ++ (Nat.toDigits 10 i ++ ']' :: messageRest found) := by
  have hmessage : (Error.typeMismatch (indexName i) "number" found).message =
      "type mismatch for '" ++ indexName i ++ "': expected " ++ "number" ++ ", found " ++
        found.name := rfl
  rw [hmessage]
  simp [messageRest]

/-- The message tells at which index the value stands. -/
theorem message_ne_of_index_ne {i j : Nat} (h : i ≠ j) (found found' : Kind) :
    (Error.typeMismatch (indexName i) "number" found).message ≠
      (Error.typeMismatch (indexName j) "number" found').message := by
  intro hmessage
  have hlists := congrArg String.toList hmessage
  rw [toList_message, toList_message] at hlists
  have hdigits : ']' ∉ Nat.toDigits 10 i := fun hmem =>
    absurd (Nat.isDigit_of_mem_toDigits (by decide) (by decide) hmem) (by decide)
  have hrest : ']' ∉ messageRest found := by
    cases found <;> decide
  -- the first closing bracket of a message is the one after the index
  have hsame := ((List.append_cons_inj_of_notMem hdigits hrest).1
    (List.append_cancel_left hlists)).1
  refine h (Decimal.natText_injective ?_)
  rw [Decimal.natText_eq_toDigits, Decimal.natText_eq_toDigits, hsame]

/-! ## The first one -/

/-- The value stands at the index and is no number, and all before it are numbers. -/
structure FirstForeign (values : List Value) (i : Nat) (v : Value) : Prop where
  get_eq : values[i]? = some v
  kind_ne : v.kind ≠ .number
  before : ∀ j w, j < i → values[j]? = some w → w.kind = .number

@[simp] theorem isForeign_iff {v : Value} : isForeign v = true ↔ v.kind ≠ .number := by
  constructor
  · rintro h hkind
    cases v with
    | number n =>
      rw [isForeign, Numeric.ofValue?_number] at h
      exact absurd h Bool.false_ne_true
    | null | bool b | string s | array items | object entries => cases hkind
  · intro h
    rw [isForeign, Numeric.ofValue?_eq_none_of_kind h]
    rfl

@[simp] theorem isForeign_eq_false_iff {v : Value} : isForeign v = false ↔ v.kind = .number := by
  rw [← Bool.not_eq_true, isForeign_iff, not_not]

theorem FirstForeign.findIdx_eq {values : List Value} {i : Nat} {v : Value}
    (h : FirstForeign values i v) : values.findIdx isForeign = i := by
  obtain ⟨hlt, hget⟩ := List.getElem?_eq_some_iff.1 h.get_eq
  refine (List.findIdx_eq hlt).2 ⟨?_, fun j hj => ?_⟩
  · rw [hget]
    exact isForeign_iff.2 h.kind_ne
  · exact isForeign_eq_false_iff.2 (h.before j _ hj (List.getElem?_eq_getElem _))

theorem exists_firstForeign {values : List Value} (h : ∃ v ∈ values, v.kind ≠ .number) :
    ∃ i v, FirstForeign values i v := by
  obtain ⟨v, hv, hkind⟩ := h
  have hlt := List.findIdx_lt_length_of_exists ⟨v, hv, isForeign_iff.2 hkind⟩
  refine ⟨_, _, List.getElem?_eq_getElem hlt, isForeign_iff.1 List.findIdx_getElem, ?_⟩
  intro j w hj hw
  obtain ⟨_, rfl⟩ := List.getElem?_eq_some_iff.1 hw
  exact isForeign_eq_false_iff.1 (List.not_of_lt_findIdx hj)

/-- The first value that is no number is the error, and nothing is reported. -/
theorem ofValues_of_firstForeign {values : List Value} {i : Nat} {v : Value}
    (h : FirstForeign values i v) :
    ofValues values = ⟨.error (.typeMismatch (indexName i) "number" v.kind), []⟩ := by
  have hmem : v ∈ values := List.mem_of_getElem? h.get_eq
  obtain ⟨w, hget, -, herror⟩ :=
    numericsFrom_of_foreign ⟨v, hmem, isForeign_iff.2 h.kind_ne⟩ 0
  rw [h.findIdx_eq, h.get_eq] at hget
  cases hget
  rw [ofValues, herror, h.findIdx_eq, Nat.zero_add]
  rfl

/-! ## Errors of numbers -/

/-- A dataset is refused only for its total. -/
theorem error_of_ofData {data : List Numeric} {e : Error} (h : (ofData data).result = .error e) :
    ∃ total, e = .totalOutOfRange total := by
  by_cases hints : ∀ n ∈ data, n.isInteger = true
  · have hanswer := exactAnswer_of_isInteger hints
    rw [h] at hanswer
    cases hanswer with
    | outOfRange _ => exact ⟨_, rfl⟩
  · have hfloat : ∃ n ∈ data, n.isInteger = false := by simpa using hints
    obtain ⟨total, average, hresult⟩ := result_of_float hfloat
    rw [h] at hresult
    cases hresult

theorem error_of_numbers {values : List Value} (h : ∀ v ∈ values, v.kind = .number) {e : Error}
    (he : (ofValues values).result = .error e) : ∃ total, e = .totalOutOfRange total := by
  have hsome : ∀ v ∈ values, (Numeric.ofValue? v).isSome := by
    intro v hv
    have hnumber := isForeign_eq_false_iff.2 (h v hv)
    rwa [isForeign, Option.isNone_eq_false_iff] at hnumber
  rw [ofValues_of_isSome hsome] at he
  exact error_of_ofData he

/-- **The first value that is no number.**  A dataset of values is refused for the kind of a value
exactly if one of them is no number.  Then the first of these decides, whatever follows it and
whatever the numbers before it add up to: the error names its index and its kind, and nothing is
reported.  So a total out of range is an error of numbers alone.  The messages for different indices
are different. -/
theorem ofValues_typeMismatch_iff (values : List Value) :
    ((∃ field expected found,
        (ofValues values).result = .error (.typeMismatch field expected found)) ↔
      ∃ v ∈ values, v.kind ≠ .number) ∧
    (∀ i v, FirstForeign values i v →
      ofValues values = ⟨.error (.typeMismatch s!"[{i}]" "number" v.kind), []⟩) ∧
    (∀ total, (ofValues values).result = .error (.totalOutOfRange total) →
      ∀ v ∈ values, v.kind = .number) ∧
    (∀ i v, FirstForeign values i v → ∀ values' j w, FirstForeign values' j w → i ≠ j →
      ∃ e e', (ofValues values).result = .error e ∧ (ofValues values').result = .error e' ∧
        e.message ≠ e'.message) := by
  refine ⟨⟨?_, ?_⟩, ?_, ?_, ?_⟩
  · rintro ⟨field, expected, found, hresult⟩
    by_contra hnumbers
    obtain ⟨total, htotal⟩ := error_of_numbers (by simpa using hnumbers) hresult
    cases htotal
  · intro hforeign
    obtain ⟨i, v, hfirst⟩ := exists_firstForeign hforeign
    rw [ofValues_of_firstForeign hfirst]
    exact ⟨_, _, _, rfl⟩
  · intro i v hfirst
    rw [ofValues_of_firstForeign hfirst, indexName_eq]
  · intro total hresult
    by_contra hforeign
    obtain ⟨i, v, hfirst⟩ := exists_firstForeign (by simpa using hforeign)
    rw [ofValues_of_firstForeign hfirst] at hresult
    cases hresult
  · intro i v hfirst values' j w hfirst' hne
    rw [ofValues_of_firstForeign hfirst, ofValues_of_firstForeign hfirst']
    exact ⟨_, _, rfl, rfl, message_ne_of_index_ne hne _ _⟩

/-- The two words before the first of two other values have a sum that is no word. -/
theorem ofValues_typeMismatch_iff_of_words :
    (FirstForeign [.ofUInt64 0xFFFFFFFFFFFFFFFF, .ofUInt64 0xFFFFFFFFFFFFFFFF, .null,
        .string "2"] 2 .null ∧
      ofValues [.ofUInt64 0xFFFFFFFFFFFFFFFF, .ofUInt64 0xFFFFFFFFFFFFFFFF, .null, .string "2"] =
        ⟨.error (.typeMismatch "[2]" "number" .null), []⟩) ∧
    ((ofValues [.ofUInt64 0xFFFFFFFFFFFFFFFF, .ofUInt64 0xFFFFFFFFFFFFFFFF]).result =
        .error (.totalOutOfRange 0x1FFFFFFFFFFFFFFFE) ∧
      ∀ v ∈ [Value.ofUInt64 0xFFFFFFFFFFFFFFFF, .ofUInt64 0xFFFFFFFFFFFFFFFF],
        v.kind = .number) ∧
    (FirstForeign [.string "2"] 0 (.string "2") ∧
      ∃ e e', (ofValues [.ofUInt64 0xFFFFFFFFFFFFFFFF, .ofUInt64 0xFFFFFFFFFFFFFFFF, .null,
          .string "2"]).result = .error e ∧
        (ofValues [.string "2"]).result = .error e' ∧ e.message ≠ e'.message) := by
  have hnull : FirstForeign [.ofUInt64 0xFFFFFFFFFFFFFFFF, .ofUInt64 0xFFFFFFFFFFFFFFFF, .null,
      .string "2"] 2 .null := by
    refine ⟨rfl, by decide, fun j w hj hw => ?_⟩
    match j, hj with
    | 0, _ | 1, _ =>
      cases hw
      rfl
  have hstring : FirstForeign [.string "2"] 0 (.string "2") :=
    ⟨rfl, by decide, fun j w hj => absurd hj (Nat.not_lt_zero j)⟩
  have htotal : (ofValues [.ofUInt64 0xFFFFFFFFFFFFFFFF, .ofUInt64 0xFFFFFFFFFFFFFFFF]).result =
      .error (.totalOutOfRange 0x1FFFFFFFFFFFFFFFE) := rfl
  exact ⟨⟨hnull, (ofValues_typeMismatch_iff _).2.1 2 .null hnull⟩,
    ⟨htotal, (ofValues_typeMismatch_iff _).2.2.1 _ htotal⟩,
    hstring, (ofValues_typeMismatch_iff _).2.2.2 2 .null hnull _ 0 _ hstring (by decide)⟩

end Metrics

end Intake
