import Intake.Proofs.Json.IntegerLiteral

/-!
# Written forms are in the grammar

What is written for a value denotes that value in the grammar, `denotes_written`.  The written form
of a document has no blanks, a piece of a container is written without any around it, and an object
lists its entries in the order of their keys, from which the dictionary is made again.

The statement leaves out the doubles.  Their written form is in the grammar too, but the value of a
number with a fraction or an exponent need not be the double that was written.
-/

namespace Intake.Json

open Decimal Grammar

/-! ## Numbers -/

/-- A word is written as a number that denotes it. -/
theorem denotes_intText {v : Int} (h : IsWord v) :
    Denotes (intText v) (.number (.integer v h)) 0 := by
  refine .number (numeralText_intText v) ?_
  have hexact := isExact_writtenNumeral h
  rw [Numeral.toNumber_of_isExact (isInteger_writtenNumeral v) hexact]
  simp only [intValue_writtenNumeral]

/-! ## Strings -/

theorem hexDigit_mem_hexDigits {d : Nat} (h : d < 16) : (Text.hexDigit d, d) ∈ hexDigits := by
  revert d
  decide

theorem hexQuad_control {c : Char} (h : c.toNat < 32) :
    HexQuad ['0', '0', Text.hexDigit (c.toNat / 16), Text.hexDigit (c.toNat % 16)] c.toNat := by
  have hzero : ('0', 0) ∈ hexDigits := by decide
  have hquad := HexQuad.intro hzero hzero
    (hexDigit_mem_hexDigits (d := c.toNat / 16) (by omega))
    (hexDigit_mem_hexDigits (d := c.toNat % 16) (by omega))
  have hvalue : 0x1000 * 0 + 0x100 * 0 + 0x10 * (c.toNat / 16) + c.toNat % 16 = c.toNat := by
    omega
  rwa [hvalue] at hquad

theorem charText_quotedChar (c : Char) : CharText (quotedChar c) c := by
  unfold quotedChar
  split
  · next h =>
    rcases h with rfl | rfl
    · exact .letter (by decide)
    · exact .letter (by decide)
  · next hq =>
    split
    · next h => subst h; exact .letter (by decide)
    split
    · next h => subst h; exact .letter (by decide)
    split
    · next h => subst h; exact .letter (by decide)
    split
    · next h => subst h; exact .letter (by decide)
    split
    · next h => subst h; exact .letter (by decide)
    split
    · next h =>
      have hcode := CharText.codePoint (hexQuad_control h) (.inl (by omega))
      rwa [Char.ofNat_toNat] at hcode
    · next h => exact .raw (fun hc => hq (Or.inl hc)) (fun hc => hq (Or.inr hc)) (by omega)

theorem charsText_flatMap_quotedChar (cs : List Char) : CharsText (cs.flatMap quotedChar) cs := by
  induction cs with
  | nil => exact .nil
  | cons c cs ih =>
    rw [List.flatMap_cons]
    exact .cons (charText_quotedChar c) ih

/-- A string is written as a string that denotes it. -/
theorem stringText_quoted (s : String) : StringText (quoted s) s :=
  .intro (charsText_flatMap_quotedChar s.toList)

/-! ## Values -/

namespace Value

/-- There is no double in a value, at any depth. -/
inductive FloatFree : Value → Prop
  | null : FloatFree null
  | bool (b : Bool) : FloatFree (bool b)
  | integer (v : Int) (h : IsWord v) : FloatFree (number (.integer v h))
  | string (s : String) : FloatFree (string s)
  | array {items : List Value} (h : ∀ v ∈ items, FloatFree v) : FloatFree (array items)
  | object {keys : KeySet} {value : Fin keys.toList.length → Value}
      (h : ∀ i, FloatFree (value i)) : FloatFree (object ⟨keys, value⟩)

mutual

/-- The number of containers that are nested in a value, itself counted. -/
def nesting : Value → Nat
  | array items => nestingItems items + 1
  | object entries => nestingEntries entries + 1
  | _ => 0
termination_by structural v => v

/-- The greatest nesting among the items of an array. -/
def nestingItems : List Value → Nat
  | [] => 0
  | v :: vs => max (nesting v) (nestingItems vs)
termination_by structural items => items

/-- The greatest nesting among the values of an object. -/
def nestingEntries : Dict Value → Nat
  | ⟨_, value⟩ => (List.ofFn fun i => nesting (value i)).foldr max 0
termination_by structural d => d

end

@[simp] theorem nestingItems_eq_foldr (items : List Value) :
    nestingItems items = (items.map nesting).foldr max 0 := by
  induction items with
  | nil => rfl
  | cons v vs ih => rw [nestingItems, ih, List.map_cons, List.foldr_cons]

@[simp] theorem nestingEntries_eq_foldr (d : Dict Value) :
    nestingEntries d = (d.entries.map fun entry => nesting entry.2).foldr max 0 := by
  obtain ⟨keys, value⟩ := d
  simp only [nestingEntries, Dict.entries, List.map_ofFn]
  rfl

end Value

/-- A value as a piece of an array, written without blanks. -/
def writtenItem (v : Value) : Piece Value := ⟨[], v.written, [], v, v.nesting⟩

/-- An entry as a member of an object, written without blanks. -/
def writtenMember (entry : String × Value) : Member :=
  ⟨[], quoted entry.1, entry.1, [], writtenItem entry.2⟩

theorem framed_writtenItem (v : Value) : (writtenItem v).Framed := ⟨blank_nil, blank_nil⟩

theorem framed_writtenMember (entry : String × Value) : (writtenMember entry).Framed where
  before := blank_nil
  key := stringText_quoted entry.1
  gap := blank_nil
  item := framed_writtenItem entry.2

@[simp] theorem piecesText_writtenItem (items : List Value) :
    piecesText (items.map writtenItem) = commaSeparated (items.map Value.written) := by
  rw [piecesText, List.map_map]
  congr 1
  refine List.map_congr_left fun v _ => ?_
  exact List.append_nil _

theorem piecesNesting_writtenItem (items : List Value) :
    piecesNesting (items.map writtenItem) = Value.nestingItems items := by
  rw [piecesNesting, List.map_map, Value.nestingItems_eq_foldr]
  rfl

theorem piecesText_writtenMember (entries : List (String × Value)) :
    piecesText ((entries.map writtenMember).map Member.piece) =
      commaSeparated (entries.map fun entry => memberText entry.1 entry.2.written) := by
  rw [piecesText, List.map_map, List.map_map]
  congr 1
  refine List.map_congr_left fun entry _ => ?_
  simp [Piece.text, Member.piece, writtenMember, writtenItem, memberText]

theorem piecesNesting_writtenMember (d : Dict Value) :
    piecesNesting ((d.entries.map writtenMember).map Member.piece) = Value.nestingEntries d := by
  rw [piecesNesting, List.map_map, List.map_map, Value.nestingEntries_eq_foldr]
  rfl

theorem map_value_writtenItem (items : List Value) :
    (items.map writtenItem).map Piece.value = items := by
  rw [List.map_map]
  exact List.map_id items

theorem map_entry_writtenMember (entries : List (String × Value)) :
    ((entries.map writtenMember).map fun m => (m.key, m.item.value)) = entries := by
  rw [List.map_map]
  exact List.map_id entries

theorem written_array (items : List Value) :
    (Value.array items).written = '[' :: ([] ++ piecesText (items.map writtenItem)) ++ [']'] := by
  rw [piecesText_writtenItem, ← Value.writtenItems_eq_map]
  rfl

/-- The members of an object between its brackets. -/
theorem written_entries (d : Dict Value) :
    Write.write d =
      '{' :: ([] ++ piecesText ((d.entries.map writtenMember).map Member.piece)) ++ ['}'] := by
  rw [piecesText_writtenMember, ← Value.writtenEntries_eq_map, write_dict, braced]
  rfl

/-- A value without doubles is written as a text that denotes it. -/
theorem denotes_written {v : Value} (h : v.FloatFree) : Denotes v.written v v.nesting := by
  induction h with
  | null => exact .null
  | bool b => exact .bool b
  | integer v h => exact denotes_intText h
  | string s => exact .string (stringText_quoted s)
  | @array items h ih =>
    have hitems : ∀ p ∈ items.map writtenItem, p.Framed ∧ Denotes p.core p.value p.nesting := by
      intro p hp
      obtain ⟨v, hv, rfl⟩ := List.mem_map.1 hp
      exact ⟨framed_writtenItem v, ih v hv⟩
    have harray := Denotes.array blank_nil (fun p hp => (hitems p hp).1)
      (fun p hp => (hitems p hp).2)
    rwa [map_value_writtenItem, piecesNesting_writtenItem, ← written_array] at harray
  | @object keys value h ih =>
    have hentries : ∀ entry ∈ (⟨keys, value⟩ : Dict Value).entries,
        Denotes entry.2.written entry.2 entry.2.nesting :=
      Dict.forall_mem_entries (P := fun v => Denotes v.written v v.nesting) ih
    have hmembers : ∀ m ∈ (⟨keys, value⟩ : Dict Value).entries.map writtenMember,
        m.Framed ∧ Denotes m.item.core m.item.value m.item.nesting := by
      intro m hm
      obtain ⟨entry, hentry, rfl⟩ := List.mem_map.1 hm
      exact ⟨framed_writtenMember entry, hentries entry hentry⟩
    have hobject := Denotes.object blank_nil (fun m hm => (hmembers m hm).1)
      (fun m hm => (hmembers m hm).2)
    rwa [map_entry_writtenMember, Dict.ofList_entries, piecesNesting_writtenMember,
      ← written_entries] at hobject

end Intake.Json
