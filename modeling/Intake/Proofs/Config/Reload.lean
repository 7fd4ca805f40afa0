import Intake.Config
import Intake.Proofs.Json.Decoding
import Intake.Proofs.Json.Written

/-!
# Reading a configuration back from its own text

A configuration without doubles is read back from the text that is written for it, whatever its
keys and values are, as long as at most 127 containers are nested in it.  The configuration itself
is one of them, so a value that can be read on its own may be too deep once it is an entry.
`ofText_text` states both sides of that limit.

How a configuration was made does not matter: it is given by its entries, and every way to make one
ends in a dictionary.
-/

namespace Intake.Config

open Json Json.Grammar

/-! ## Entries -/

/-- There is no double in a configuration, at any depth. -/
def FloatFree (c : Config) : Prop := c.toValue.FloatFree

/-- The number of containers that are nested in a configuration, itself counted. -/
def nesting (c : Config) : Nat := c.toValue.nesting

theorem nesting_eq (c : Config) : c.nesting = Value.nestingEntries c.settings + 1 := rfl

theorem floatFree_iff {c : Config} : c.FloatFree ↔ ∀ entry ∈ c.toList, entry.2.FloatFree := by
  obtain ⟨⟨keys, value⟩⟩ := c
  constructor
  · intro h
    cases h with
    | object h => exact Dict.forall_mem_entries h
  · intro h
    refine .object fun i => ?_
    have hi : (keys.toList.get i, value i) ∈ (⟨keys, value⟩ : Dict Value).entries :=
      List.mem_of_getElem? (Dict.getElem?_entries ⟨keys, value⟩ i)
    exact h _ hi

theorem floatFree_empty : empty.FloatFree := by
  rw [floatFree_iff]
  intro entry hentry
  exact absurd hentry List.not_mem_nil

theorem FloatFree.withEntry {c : Config} (h : c.FloatFree) (key : String) {value : Value}
    (hv : value.FloatFree) : (c.withEntry key value).FloatFree := by
  rw [floatFree_iff] at h ⊢
  intro entry hentry
  have hmem : entry ∈ insertEntry key value c.settings.entries := by
    rwa [← Dict.entries_insert]
  rcases mem_insertEntry hmem with rfl | hmem
  · exact hv
  · exact h entry hmem

/-! ## Reading back -/

/-- The reader of configurations answers on the text of a configuration by its nesting. -/
theorem read_text_answers {c : Config} (h : c.FloatFree) :
    Answers .tooDeep (c.nesting ≤ nestingLimit) (.ok c) []
      (decoder.read nestingLimit (Json.text c).toList) := by
  have hentries := floatFree_iff.1 h
  have hmembers : ∀ m ∈ c.settings.entries.map writtenMember,
      m.Framed ∧ Denotes m.item.core m.item.value m.item.nesting := by
    intro m hm
    obtain ⟨entry, hentry, rfl⟩ := List.mem_map.1 hm
    exact ⟨framed_writtenMember entry, denotes_written (hentries entry hentry)⟩
  have hread := (dict_read_answers blank_nil blank_nil (fun m hm => (hmembers m hm).1)
    (fun m hm => (hmembers m hm).2) nestingLimit []).map (Except.map Config.mk)
  rw [map_entry_writtenMember, Dict.ofList_entries, piecesNesting_writtenMember, ← nesting_eq,
    List.nil_append, ← written_entries] at hread
  rw [toList_text]
  exact hread

/-- A configuration without doubles is read back from its own text exactly if at most 127
containers are nested in it.  Otherwise the text is refused. -/
theorem ofText_text {c : Config} (h : c.FloatFree) :
    (Config.ofText (Json.text c) = .ok c ↔ c.nesting ≤ 127) ∧
      (127 < c.nesting →
        ∃ e, Config.ofText (Json.text c) = .error (.invalidConfig e) ∧ e.cause = .tooDeep) := by
  obtain ⟨hfits, hdeep⟩ := fromText_of_answers blank_nil (read_text_answers h)
  have hrefused : 127 < c.nesting →
      ∃ e, Config.ofText (Json.text c) = .error (.invalidConfig e) ∧ e.cause = .tooDeep := by
    intro hlt
    obtain ⟨e, he, hcause⟩ := hdeep (Nat.not_le_of_lt hlt)
    refine ⟨e, ?_, hcause⟩
    rw [ofText, he]
  refine ⟨⟨fun hok => Nat.le_of_not_lt fun hlt => ?_, fun hle => ?_⟩, hrefused⟩
  · obtain ⟨e, he, -⟩ := hrefused hlt
    rw [hok] at he
    exact absurd he (by simp)
  · rw [ofText, hfits hle]

/-- One more than the given number of arrays, each in the one before. -/
def nestedArrays : Nat → Value
  | 0 => .array []
  | n + 1 => .array [nestedArrays n]

theorem floatFree_nestedArrays (n : Nat) : (nestedArrays n).FloatFree := by
  induction n with
  | zero => exact .array fun v hv => absurd hv List.not_mem_nil
  | succ n ih =>
    refine .array fun v hv => ?_
    rw [List.mem_singleton.1 hv]
    exact ih

/-- The least and the greatest word. -/
def extremeWords : Value := .array [.ofInt64 Int64.minValue, .ofUInt64 0xFFFFFFFFFFFFFFFF]

theorem floatFree_extremeWords : extremeWords.FloatFree := by
  refine .array fun v hv => ?_
  rcases List.mem_cons.1 hv with rfl | hv
  · exact .integer _ _
  · rw [List.mem_singleton.1 hv]
    exact .integer _ _

/-- A configuration with characters that are escaped, extreme words, and nested arrays. -/
def nestedConfig (n : Nat) : Config :=
  (empty.withEntry "\x01\"\\\né😀" extremeWords).withEntry "deep" (nestedArrays n)

theorem floatFree_nestedConfig (n : Nat) : (nestedConfig n).FloatFree :=
  (floatFree_empty.withEntry _ floatFree_extremeWords).withEntry _ (floatFree_nestedArrays n)

/-- With 126 arrays in it a configuration is read back, with 127 it is not. -/
theorem ofText_text_at_limit :
    ((nestedConfig 125).FloatFree ∧
      Config.ofText (Json.text (nestedConfig 125)) = .ok (nestedConfig 125)) ∧
    ((nestedConfig 126).FloatFree ∧
      ∃ e, Config.ofText (Json.text (nestedConfig 126)) = .error (.invalidConfig e) ∧
        e.cause = .tooDeep) := by
  refine ⟨⟨floatFree_nestedConfig 125, ?_⟩, ⟨floatFree_nestedConfig 126, ?_⟩⟩
  · exact (ofText_text (floatFree_nestedConfig 125)).1.2 (by decide +kernel)
  · exact (ofText_text (floatFree_nestedConfig 126)).2 (by decide +kernel)

end Intake.Config
