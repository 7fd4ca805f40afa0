import Intake.Config
import Intake.Record
import Intake.Proofs.Json.Acceptance
import Intake.Proofs.Json.Equality

/-!
# Histories of configurations and records

Configurations and records are made in several ways and then changed by setting one key at a time.
Each way is a history of writes: a map writes its entries, a list of pairs writes the pairs, and the
text of an object writes its members in the order of the text.  `Config.Built` and `Record.Built`
keep the history beside the object, one constructor for each way to make it and each way to go on.

The invariant is that an object is the dictionary of its history, so an object is a finite map: the
values are the last writes, and nothing else of the history can be seen.  `Refines` collects what
that means for everything that can be observed, and `refines_of_built` says it of both kinds of
objects.
-/

namespace Intake

open Json Json.Grammar

/-! ## Observations -/

/-- The entries are those of a finite map, in strictly ascending order of their keys. -/
structure ListsInOrder (get? : String → Option Value) (entries : List (String × Value)) : Prop where
  ascending : (keysOf entries).Pairwise (· < ·)
  mem_iff : ∀ k v, (k, v) ∈ entries ↔ get? k = some v

/-- What is observed of an object is what a finite map with the given history has: its values, its
size, whether it is empty, and its text, which has the texts of keys and values between braces. -/
structure Refines (writes : List (String × Value)) (get? : String → Option Value) (size : Nat)
    (isEmpty : Bool) (text : String) : Prop where
  get?_eq_some_iff : ∀ k v, get? k = some v ↔ IsLastWrite writes k v
  get?_eq_none_iff : ∀ k, get? k = none ↔ k ∉ keysOf writes
  size_eq : size = (keysOf writes).toFinset.card
  isEmpty_iff : isEmpty = true ↔ size = 0
  text_eq : ∃ entries, ListsInOrder get? entries ∧
    text = "\x7b" ++ ",".intercalate (entries.map fun entry =>
      Json.text entry.1 ++ ":" ++ Json.text entry.2) ++ "\x7d"

theorem listsInOrder_entries (d : Dict Value) : ListsInOrder d.get? d.entries :=
  ⟨d.ascending_entries, fun _ _ => Dict.mem_entries_iff⟩

/-- The text of a dictionary has its entries between braces, with commas between them. -/
theorem text_dict (d : Dict Value) :
    Json.text d = "\x7b" ++ ",".intercalate (d.entries.map fun entry =>
      Json.text entry.1 ++ ":" ++ Json.text entry.2) ++ "\x7d" := by
  have hmembers : (d.entries.map fun entry => Json.text entry.1 ++ ":" ++ Json.text entry.2).map
      String.toList = Value.writtenEntries d := by
    rw [Value.writtenEntries_eq_map, List.map_map]
    refine List.map_congr_left fun entry _ => ?_
    simp [memberText]
  rw [← String.toList_inj, toList_text, String.toList_append, String.toList_append,
    String.toList_intercalate, hmembers, write_dict, braced, commaSeparated_eq_intercalate]
  rfl

/-- The dictionary of a history is observed as the finite map of that history. -/
theorem refines_ofList (writes : List (String × Value)) :
    Refines writes (Dict.ofList writes).get? (Dict.ofList writes).size
      (Dict.ofList writes).isEmpty (Json.text (Dict.ofList writes)) where
  get?_eq_some_iff k v := by
    rw [Dict.get?_ofList_eq_lastWrite, lastWrite_eq_some_iff]
  get?_eq_none_iff k := by
    rw [Dict.get?_ofList_eq_lastWrite, lastWrite_eq_none_iff]
  size_eq := Dict.size_ofList writes
  isEmpty_iff := Dict.isEmpty_iff
  text_eq := ⟨_, listsInOrder_entries _, text_dict _⟩

/-- Histories whose last writes are equal at each key make equal dictionaries. -/
theorem beq_ofList {writes writes' : List (String × Value)}
    (h : ∀ k, (lastWrite writes k == lastWrite writes' k) = true) :
    (Dict.ofList writes == Dict.ofList writes') = true := by
  refine Value.beq_of_get? fun k => ?_
  rw [Dict.get?_ofList_eq_lastWrite, Dict.get?_ofList_eq_lastWrite]
  exact h k

/-- The dictionary that is decoded from the text of an object has the members as its history. -/
theorem eq_ofList_of_fromText {α : Type} {f : Dict Value → α} {text : List Char}
    {members : List Member} {nesting : Nat} (h : ObjectText text members nesting) {a : α}
    (hread : (Decoder.dict.map f).fromText text = .ok a) :
    a = f (Dict.ofList (writtenEntries members)) := by
  obtain ⟨entries, hdocument, rfl⟩ := dict_map_fromText_eq_ok_iff.1 hread
  rw [eq_ofList_of_objectText h hdocument]

/-! ## Configurations -/

namespace Config

/-- A configuration and the writes that it was built from. -/
inductive Built : List (String × Value) → Config → Prop
  | empty : Built [] empty
  | ofMap (d : Dict Value) : Built d.entries ⟨d⟩
  | ofList (writes : List (String × Value)) : Built writes (ofList writes)
  | decoded {text : List Char} {members : List Member} {nesting : Nat} {c : Config}
      (h : ObjectText text members nesting) (hread : decoder.fromText text = .ok c) :
      Built (writtenEntries members) c
  | withEntry {writes : List (String × Value)} {c : Config} (h : Built writes c) (key : String)
      (value : Value) : Built (writes ++ [(key, value)]) (c.withEntry key value)

/-- A configuration is the dictionary of its history. -/
theorem eq_ofList_of_built {writes : List (String × Value)} {c : Config} (h : Built writes c) :
    c = ofList writes := by
  induction h with
  | empty => rfl
  | ofMap d => rw [ofList, Dict.ofList_entries]
  | ofList writes => rfl
  | decoded h hread => exact eq_ofList_of_fromText h hread
  | withEntry _ key value ih => rw [ih, Config.withEntry, ofList, ofList, Dict.insert_ofList]

end Config

/-! ## Records -/

namespace Record

/-- A record and the writes that it was built from. -/
inductive Built : List (String × Value) → Record → Prop
  | empty : Built [] empty
  | ofMap (d : Dict Value) : Built d.entries ⟨d⟩
  | ofList (writes : List (String × Value)) : Built writes (ofList writes)
  | decoded {text : List Char} {members : List Member} {nesting : Nat} {r : Record}
      (h : ObjectText text members nesting) (hread : decoder.fromText text = .ok r) :
      Built (writtenEntries members) r
  | insert {writes : List (String × Value)} {r : Record} (h : Built writes r) (key : String)
      (value : Value) : Built (writes ++ [(key, value)]) (r.insert key value).2
  | withField {writes : List (String × Value)} {r : Record} (h : Built writes r) (key : String)
      (value : Value) : Built (writes ++ [(key, value)]) (r.withField key value)

/-- A record is the dictionary of its history. -/
theorem eq_ofList_of_built {writes : List (String × Value)} {r : Record} (h : Built writes r) :
    r = ofList writes := by
  have hinsert (writes : List (String × Value)) (key : String) (value : Value) :
      ((ofList writes).insert key value).2 = ofList (writes ++ [(key, value)]) := by
    rw [ofList, ofList, ← Dict.insert_ofList]
    rfl
  induction h with
  | empty => rfl
  | ofMap d => rw [ofList, Dict.ofList_entries]
  | ofList writes => rfl
  | decoded h hread => exact eq_ofList_of_fromText h hread
  | insert _ key value ih => rw [ih, hinsert]
  | withField _ key value ih => rw [ih, Record.withField, hinsert]

end Record

/-! ## Finite maps -/

/-- **Histories.**  A configuration and a record are the finite maps of what was written to them,
wherever they started and whatever was overwritten.  Their values are the last writes, their size is
the number of different keys, setting a field answers with the value before it, entries and text
list each key once in ascending order, and histories with the same last writes make the same object
with the same text.  Last writes that are only equal, as the two zeros are, make equal objects. -/
theorem refines_of_built :
    (∀ writes c, Config.Built writes c →
      Refines writes c.get? c.size c.isEmpty (Json.text c) ∧
      (∀ k, c.contains k = true ↔ (c.get? k).isSome = true) ∧
      ListsInOrder c.get? c.toList) ∧
    (∀ writes r, Record.Built writes r →
      Refines writes r.get? r.size r.isEmpty (Json.text r) ∧
      ∀ k v, (r.insert k v).1 = r.get? k ∧ (r.insert k v).1 = lastWrite writes k) ∧
    (∀ writes writes', (∀ k, lastWrite writes k = lastWrite writes' k) →
      (∀ c c', Config.Built writes c → Config.Built writes' c' →
        c = c' ∧ (c == c') = true ∧ Json.text c = Json.text c') ∧
      ∀ r r', Record.Built writes r → Record.Built writes' r' →
        r = r' ∧ (r == r') = true ∧ Json.text r = Json.text r') ∧
    ∀ writes writes', (∀ k, (lastWrite writes k == lastWrite writes' k) = true) →
      (∀ c c', Config.Built writes c → Config.Built writes' c' → (c == c') = true) ∧
      ∀ r r', Record.Built writes r → Record.Built writes' r' → (r == r') = true := by
  refine ⟨?_, ?_, ?_, ?_⟩
  · intro writes c hc
    rw [Config.eq_ofList_of_built hc]
    exact ⟨refines_ofList writes, fun k => Dict.contains_iff, listsInOrder_entries _⟩
  · intro writes r hr
    rw [Record.eq_ofList_of_built hr]
    exact ⟨refines_ofList writes, fun k v => ⟨rfl, Dict.get?_ofList_eq_lastWrite writes k⟩⟩
  · intro writes writes' h
    have hsame := Dict.ofList_congr h
    refine ⟨fun c c' hc hc' => ?_, fun r r' hr hr' => ?_⟩
    · rw [Config.eq_ofList_of_built hc, Config.eq_ofList_of_built hc', Config.ofList, hsame]
      exact ⟨rfl, beq_self_eq_true (Dict.ofList writes'), rfl⟩
    · rw [Record.eq_ofList_of_built hr, Record.eq_ofList_of_built hr', Record.ofList, hsame]
      exact ⟨rfl, beq_self_eq_true (Dict.ofList writes'), rfl⟩
  · intro writes writes' h
    refine ⟨fun c c' hc hc' => ?_, fun r r' hr hr' => ?_⟩
    · rw [Config.eq_ofList_of_built hc, Config.eq_ofList_of_built hc']
      exact beq_ofList h
    · rw [Record.eq_ofList_of_built hr, Record.eq_ofList_of_built hr']
      exact beq_ofList h

/-- A history with two writes at one key. -/
def overwriting : List (String × Value) := [("b", .null), ("a", .bool true), ("b", .bool false)]

/-- A key that is written twice has its second value, and the first write leaves no trace. -/
theorem refines_of_built_of_overwriting :
    ∃ c c', Config.Built overwriting c ∧ Config.Built overwriting.tail c' ∧ c = c' ∧
      Json.text c = Json.text c' ∧ c.size = 2 ∧
      IsLastWrite overwriting "b" (.bool false) ∧ c.get? "b" = some (.bool false) := by
  have hbuilt : Config.Built overwriting _ :=
    ((Config.Built.empty.withEntry "b" .null).withEntry "a" (.bool true)).withEntry "b"
      (.bool false)
  have hpairs : Config.Built overwriting.tail _ := .ofList _
  have hlast : ∀ k, lastWrite overwriting k = lastWrite overwriting.tail k := by
    intro k
    simp only [lastWrite, overwriting, List.tail_cons, List.reverse_cons, List.reverse_nil,
      List.nil_append, List.cons_append, lookup_entry, List.lookup_nil]
    by_cases hk : k = "b"
    · rw [if_pos hk, if_pos hk]
    · rw [if_neg hk, if_neg hk, if_neg hk]
  have hwrite : IsLastWrite overwriting "b" (.bool false) :=
    ⟨[("b", .null), ("a", .bool true)], [], rfl, List.not_mem_nil⟩
  obtain ⟨hsame, -, htext⟩ := (refines_of_built.2.2.1 _ _ hlast).1 _ _ hbuilt hpairs
  obtain ⟨hrefines, -⟩ := refines_of_built.1 _ _ hbuilt
  refine ⟨_, _, hbuilt, hpairs, hsame, htext, ?_, hwrite, (hrefines.get?_eq_some_iff _ _).2 hwrite⟩
  rw [hrefines.size_eq]
  decide

end Intake
