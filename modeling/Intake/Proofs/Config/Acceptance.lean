import Intake.Analyzer
import Intake.Record
import Intake.Proofs.Json.Acceptance

/-!
# Which texts are configurations

A configuration is read by the decoder of dictionaries, which never sees the document that the text
is.  Still it accepts exactly the documents that are objects.  `ofText_eq_ok_iff` puts this in terms
of the grammar: a text is a configuration if it is one object between blanks.
`ofText_agrees` puts it in terms of the document, and shows that the configuration, a
record of the same text and an analyzer that counts the document agree on the entries, in which of
several members with one key the last one wins.
-/

namespace Intake.Config

open Json Json.Grammar

/-! ## Configurations and documents -/

theorem ofText_eq_ok_iff_decoder {text : String} {c : Config} :
    ofText text = .ok c ↔ decoder.fromText text.toList = .ok c := by
  unfold ofText
  cases decoder.fromText text.toList <;> simp

/-- A configuration is read exactly if the document is the object of its entries. -/
theorem ofText_eq_ok_iff_document {text : String} {c : Config} :
    ofText text = .ok c ↔ document text.toList = .ok (.object c.settings) := by
  rw [ofText_eq_ok_iff_decoder, decoder, dict_map_fromText_eq_ok_iff]
  constructor
  · rintro ⟨entries, hread, rfl⟩
    exact hread
  · exact fun hread => ⟨c.settings, hread, rfl⟩

/-- Whatever else is wrong with a text, the error is that of an invalid configuration. -/
theorem ofText_ok_or_invalid (text : String) :
    (∃ c, ofText text = .ok c) ∨ ∃ e, ofText text = .error (.invalidConfig e) := by
  unfold ofText
  cases decoder.fromText text.toList with
  | ok c => exact .inl ⟨c, rfl⟩
  | error e => exact .inr ⟨e, rfl⟩

/-! ## Configurations and the grammar -/

/-- A text that the grammar derives for a configuration: its object between blanks, with at most 127
containers nested in it. -/
inductive ConfigText : List Char → Config → Prop
  | intro {before object after : List Char} {c : Config} {nesting : Nat} (hb : Blank before)
      (ha : Blank after) (h : Denotes object c.toValue nesting) (hle : nesting ≤ 127) :
      ConfigText (before ++ (object ++ after)) c

theorem configText_iff_document {text : List Char} {c : Config} :
    ConfigText text c ↔ document text = .ok (.object c.settings) := by
  rw [document_eq_ok_iff]
  constructor
  · rintro ⟨hb, ha, h, hle⟩
    exact ⟨_, _, _, _, rfl, hb, ha, h, hle⟩
  · rintro ⟨before, object, after, nesting, rfl, hb, ha, h, hle⟩
    exact .intro hb ha h hle

/-- **Accepted texts.**  A text is read as a configuration exactly if the grammar derives it for
that configuration.  Every other text is answered with the error of an invalid configuration. -/
theorem ofText_eq_ok_iff (text : String) :
    (∀ c, ofText text = .ok c ↔ ConfigText text.toList c) ∧
      ((¬ ∃ c, ConfigText text.toList c) ↔ ∃ e, ofText text = .error (.invalidConfig e)) := by
  have haccept : ∀ c, ofText text = .ok c ↔ ConfigText text.toList c := fun c => by
    rw [ofText_eq_ok_iff_document, configText_iff_document]
  refine ⟨haccept, ⟨fun hno => ?_, ?_⟩⟩
  · rcases ofText_ok_or_invalid text with ⟨c, hc⟩ | herror
    · exact absurd ⟨c, (haccept c).1 hc⟩ hno
    · exact herror
  · rintro ⟨e, he⟩ ⟨c, hc⟩
    rw [(haccept c).2 hc] at he
    exact absurd he (by simp)

/-! ## Entries of a text -/

/-- What is read from the text of an object has at a key what its last member with the key has, and
nothing where there is no such member; and it has as many entries as there are different keys. -/
theorem entries_of_objectText {text : List Char} {entries : Dict Value} {members : List Member}
    {nesting : Nat} (hread : document text = .ok (.object entries))
    (h : ObjectText text members nesting) :
    (∀ k v, entries.get? k = some v ↔ IsLastValue members k v) ∧
      (∀ k, entries.get? k = none ↔ ∀ m ∈ members, m.key ≠ k) ∧
      entries.size = (members.map Member.key).toFinset.card := by
  rw [eq_ofList_of_objectText h hread]
  exact ⟨fun k v => get?_writtenEntries_eq_some_iff, fun k => get?_writtenEntries_eq_none_iff,
    size_writtenEntries members⟩

/-- **Agreement.**  A text is read as a configuration exactly if it is a document that is an object,
and is an invalid configuration otherwise.  The entries are those of the last members of the text
with each key; a record decoded from the text has the same entries, and an analyzer counts in the
document what the configuration has. -/
theorem ofText_agrees (text : String) :
    ((∃ c, ofText text = .ok c) ↔ ∃ entries, document text.toList = .ok (.object entries)) ∧
      ((¬ ∃ entries, document text.toList = .ok (.object entries)) →
        ∃ e, ofText text = .error (.invalidConfig e)) ∧
      ∀ c, ofText text = .ok c →
        (∃ members nesting, ObjectText text.toList members nesting) ∧
        (∀ members nesting, ObjectText text.toList members nesting →
          (∀ k v, c.get? k = some v ↔ IsLastValue members k v) ∧
            (∀ k, c.get? k = none ↔ ∀ m ∈ members, m.key ≠ k) ∧
            c.size = (members.map Member.key).toFinset.card) ∧
        (∃ r, Record.decoder.fromText text.toList = .ok r ∧ r.fields = c.settings) ∧
        ∃ v, document text.toList = .ok v ∧
          ∀ a : Analyzer, (a.analyzeValue v).result = .ok ⟨true, c.size⟩ := by
  have hobject : (∃ c, ofText text = .ok c) ↔
      ∃ entries, document text.toList = .ok (.object entries) := by
    constructor
    · rintro ⟨c, hc⟩
      exact ⟨c.settings, ofText_eq_ok_iff_document.1 hc⟩
    · rintro ⟨entries, hentries⟩
      exact ⟨⟨entries⟩, ofText_eq_ok_iff_document.2 hentries⟩
  refine ⟨hobject, fun hno => ?_, fun c hc => ?_⟩
  · rw [← hobject] at hno
    exact (ofText_ok_or_invalid text).resolve_left hno
  · have hread := ofText_eq_ok_iff_document.1 hc
    obtain ⟨members, nesting, htext, -, -⟩ := exists_objectText hread
    refine ⟨⟨members, nesting, htext⟩, fun members nesting h => ?_, ?_, ?_⟩
    · exact entries_of_objectText hread h
    · exact ⟨⟨c.settings⟩, dict_map_fromText_eq_ok_iff.2 ⟨c.settings, hread, rfl⟩, rfl⟩
    · exact ⟨.object c.settings, hread, fun a => rfl⟩

/-- A text with the key `a` written in two ways. -/
def repeatedKeyText : String := "\x7b\"a\":1,\"\\u0061\":[],\"b\":null\x7d"

/-- The two ways to write a key make one entry. -/
theorem ofText_agrees_on_repeatedKeyText :
    ∃ c members nesting, ofText repeatedKeyText = .ok c ∧
      ObjectText repeatedKeyText.toList members nesting ∧
      c.size = (members.map Member.key).toFinset.card ∧ c.size = 2 := by
  have hsize : (match ofText repeatedKeyText with | .ok c => c.size | .error _ => 0) = 2 := by
    decide +kernel
  cases hread : ofText repeatedKeyText with
  | error e =>
    rw [hread] at hsize
    exact absurd hsize (by simp)
  | ok c =>
    rw [hread] at hsize
    obtain ⟨⟨members, nesting, htext⟩, hentries, -⟩ :=
      (ofText_agrees repeatedKeyText).2.2 c hread
    exact ⟨c, members, nesting, rfl, htext, (hentries members nesting htext).2.2, hsize⟩

end Intake.Config
