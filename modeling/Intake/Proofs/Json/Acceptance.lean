import Intake.Proofs.Dict.Writes
import Intake.Proofs.Json.Decoding
import Intake.Proofs.Json.Soundness

/-!
# Which texts are documents

A text is read as a document exactly if it is a text of the grammar between blanks, in which at
most 127 containers are nested: `document_eq_ok_iff`.  The decoder of dictionaries goes its own way
at the top of the text, but it accepts the documents that are objects and nothing else, with the
same entries: `dict_fromText_eq_ok_iff`.

`ObjectText` describes the text of an object by its members, in the order of the text and with
their keys decoded.  What a dictionary has at a key is then a matter of the last member with that
key, and its size is the number of different keys.
-/

namespace Intake.Json

open Grammar

/-! ## Whole texts -/

theorem blank_of_atEnd {cs rest : List Char} (h : atEnd cs = .ok ((), rest)) : Blank cs := by
  obtain ⟨_, mid, hblanks, hend⟩ := Reader.bind_eq_ok_iff.1 h
  obtain ⟨bs, rfl, hb⟩ := blanks_takes hblanks
  cases mid with
  | nil => rwa [List.append_nil]
  | cons c mid => exact absurd hend (by simp)

theorem readAll_eq_ok_iff {α : Type} {r : Reader α} {text : List Char} {a : α} :
    readAll r text = .ok a ↔ ∃ rest, r text = .ok (a, rest) ∧ Blank rest := by
  unfold readAll
  constructor
  · intro h
    split at h
    · next b rest' hread =>
      obtain ⟨b', rest, hr, htail⟩ := Reader.bind_eq_ok_iff.1 hread
      obtain ⟨_, _, hend, hpure⟩ := Reader.bind_eq_ok_iff.1 htail
      cases hpure
      cases h
      exact ⟨rest, hr, blank_of_atEnd hend⟩
    · exact absurd h (by simp)
  · rintro ⟨rest, hr, hb⟩
    have hread : (do let a ← r; atEnd; return a : Reader α) text = .ok (a, []) :=
      Reader.bind_eq_ok_iff.2 ⟨a, rest, hr, Reader.bind_eq_ok_iff.2 ⟨(), [], atEnd_blank hb, rfl⟩⟩
    rw [hread]

theorem fromText_eq_ok_iff {α : Type} {d : Decoder α} {text : List Char} {a : α} :
    d.fromText text = .ok a ↔
      ∃ rest, d.read nestingLimit text = .ok (.ok a, rest) ∧ Blank rest := by
  unfold Decoder.fromText
  constructor
  · intro h
    split at h
    · exact absurd h (by simp)
    · exact absurd h (by simp)
    · next b rest hread =>
      split at h
      · exact absurd h (by simp)
      · next u hend =>
        cases h
        exact ⟨rest, hread, blank_of_atEnd hend⟩
  · rintro ⟨rest, hread, hb⟩
    simp only [hread, atEnd_blank hb]

/-- **Documents.**  A text is read as a value exactly if it is a text of the grammar that denotes
the value, between blanks, and nests at most 127 containers. -/
theorem document_eq_ok_iff {text : List Char} {v : Value} :
    document text = .ok v ↔
      ∃ before core after nesting, text = before ++ (core ++ after) ∧ Blank before ∧
        Blank after ∧ Denotes core v nesting ∧ nesting ≤ 127 := by
  rw [document, readAll_eq_ok_iff]
  constructor
  · rintro ⟨rest, hread, hrest⟩
    obtain ⟨_, rfl, before, core, nesting, rfl, hb, hdenotes, hle⟩ := value_takes _ hread
    exact ⟨before, core, rest, nesting, List.append_assoc .., hb, hrest, hdenotes, hle⟩
  · rintro ⟨before, core, after, nesting, rfl, hb, ha, hdenotes, hle⟩
    have hread := value_answers hdenotes nestingLimit before after hb (ends_blank ha)
    exact ⟨after, hread.eq_ok hle, ha⟩

/-- A text denotes no other value than the one that is read from it, and nests no more containers
than a document may. -/
theorem eq_of_denotes {before core after : List Char} {v w : Value} {nesting : Nat}
    (hb : Blank before) (ha : Blank after) (h : Denotes core v nesting)
    (hread : document (before ++ (core ++ after)) = .ok w) : w = v ∧ nesting ≤ 127 := by
  obtain ⟨rest, hvalue, -⟩ := readAll_eq_ok_iff.1 hread
  have hanswer := value_answers h nestingLimit before after hb (ends_blank ha)
  rw [hvalue] at hanswer
  cases hanswer with
  | read hle => exact ⟨rfl, hle⟩

/-! ## Objects -/

/-- The decoder of dictionaries reads what is read as an object. -/
theorem dict_read_eq_ok_iff {budget : Nat} {cs rest : List Char} {entries : Dict Value} :
    Decoder.dict.read budget cs = .ok (.ok entries, rest) ↔
      value budget cs = .ok (.object entries, rest) := by
  cases hlead : lead cs with
  | error fault =>
    rw [value_eq_valueWith, valueWith, Reader.bind_apply, hlead]
    simp only [Decoder.dict, Reader.bind_apply, hlead, reduceCtorEq]
  | ok pair =>
    obtain ⟨found, mid⟩ := pair
    rw [value_of_lead hlead]
    simp only [Decoder.dict, Reader.bind_apply, hlead]
    cases found with
    | null | bool | number | string => simp [afterLead, fail]
    | array =>
      cases budget with
      | zero => simp [afterLead, innerReader, fail, failPast]
      | succ budget =>
        simp only [afterLead, innerReader, Reader.map_apply]
        cases arrayOf (value budget) mid <;> simp [fail]
    | object =>
      cases budget with
      | zero => simp [afterLead, innerReader, failPast]
      | succ budget =>
        simp only [afterLead, innerReader, Reader.map_apply, Reader.bind_apply]
        cases objectOf (value budget) mid <;> simp

/-- A text is decoded as a dictionary exactly if it is read as the object of that dictionary. -/
theorem dict_fromText_eq_ok_iff {text : List Char} {entries : Dict Value} :
    Decoder.dict.fromText text = .ok entries ↔ document text = .ok (.object entries) := by
  rw [fromText_eq_ok_iff, document, readAll_eq_ok_iff]
  exact exists_congr fun rest => and_congr_left' dict_read_eq_ok_iff

@[simp] theorem fromText_map {α β : Type} (f : α → β) (d : Decoder α) (text : List Char) :
    (d.map f).fromText text = (d.fromText text).map f := by
  unfold Decoder.fromText
  simp only [Decoder.map, Reader.map_apply]
  rcases d.read nestingLimit text with fault | ⟨_ | a, rest⟩
  · rfl
  · rfl
  · simp only [Except.map]
    cases atEnd rest <;> rfl

theorem toOption_eq_some_iff {ε α : Type} {x : Except ε α} {a : α} :
    x.toOption = some a ↔ x = .ok a := by
  cases x <;> simp [Except.toOption]

theorem map_eq_ok_iff {ε α β : Type} {f : α → β} {x : Except ε α} {b : β} :
    x.map f = .ok b ↔ ∃ a, x = .ok a ∧ f a = b := by
  cases x <;> simp [Except.map]

/-- A text is decoded as what a type is mapped to exactly if it is decoded as the type. -/
theorem map_fromText_eq_ok_iff {α β : Type} {f : α → β} {d : Decoder α} {text : List Char}
    {b : β} : (d.map f).fromText text = .ok b ↔ ∃ a, d.fromText text = .ok a ∧ f a = b := by
  rw [fromText_map, map_eq_ok_iff]

/-- A text is decoded as what a dictionary is mapped to exactly if it is read as the object of such
a dictionary. -/
theorem dict_map_fromText_eq_ok_iff {α : Type} {f : Dict Value → α} {text : List Char} {a : α} :
    (Decoder.dict.map f).fromText text = .ok a ↔
      ∃ entries, document text = .ok (.object entries) ∧ f entries = a := by
  simp only [map_fromText_eq_ok_iff, dict_fromText_eq_ok_iff]

/-- A whole text that is one object between blanks: its members, and how many containers are
nested in it. -/
inductive ObjectText : List Char → List Member → Nat → Prop
  | intro {before blanks after : List Char} {members : List Member} (hb : Blank before)
      (hbi : Blank blanks) (ha : Blank after) (hf : ∀ m ∈ members, m.Framed)
      (h : ∀ m ∈ members, Denotes m.item.core m.item.value m.item.nesting) :
      ObjectText
        (before ++ '{' :: (blanks ++ piecesText (members.map Member.piece)) ++ '}' :: after) members
        (piecesNesting (members.map Member.piece) + 1)

/-- The entries that members write, in the order of the text. -/
def writtenEntries (members : List Member) : List (String × Value) :=
  members.map fun m => (m.key, m.item.value)

theorem objectText_of_denotes {before core after : List Char} {entries : Dict Value}
    {nesting : Nat} (hb : Blank before) (ha : Blank after)
    (h : Denotes core (.object entries) nesting) :
    ∃ members, ObjectText (before ++ (core ++ after)) members nesting ∧
      entries = Dict.ofList (writtenEntries members) := by
  cases h with
  | @object blanks members hbi hf h =>
    refine ⟨members, ?_, rfl⟩
    have hobject := ObjectText.intro hb hbi ha hf h
    simpa using hobject

/-- The document of an object text is the object of what its members write. -/
theorem eq_object_of_objectText {text : List Char} {members : List Member} {nesting : Nat}
    {v : Value} (h : ObjectText text members nesting) (hread : document text = .ok v) :
    v = .object (Dict.ofList (writtenEntries members)) ∧ nesting ≤ 127 := by
  obtain ⟨hb, hbi, ha, hf, h⟩ := h
  exact eq_of_denotes hb ha (.object hbi hf h) (by rw [← hread]; simp)

theorem eq_ofList_of_objectText {text : List Char} {members : List Member} {nesting : Nat}
    {entries : Dict Value} (h : ObjectText text members nesting)
    (hread : document text = .ok (.object entries)) :
    entries = Dict.ofList (writtenEntries members) :=
  Value.object.inj (eq_object_of_objectText h hread).1

theorem exists_objectText {text : List Char} {entries : Dict Value}
    (h : document text = .ok (.object entries)) :
    ∃ members nesting, ObjectText text members nesting ∧ nesting ≤ 127 ∧
      entries = Dict.ofList (writtenEntries members) := by
  obtain ⟨before, core, after, nesting, rfl, hb, ha, hdenotes, hle⟩ := document_eq_ok_iff.1 h
  obtain ⟨members, htext, hentries⟩ := objectText_of_denotes hb ha hdenotes
  exact ⟨members, nesting, htext, hle, hentries⟩

/-! ## Members and entries -/

/-- The value of the last of the members with a key. -/
def IsLastValue (members : List Member) (k : String) (v : Value) : Prop :=
  ∃ front m back, members = front ++ m :: back ∧ m.key = k ∧ m.item.value = v ∧
    ∀ m' ∈ back, m'.key ≠ k

@[simp] theorem keysOf_writtenEntries (members : List Member) :
    keysOf (writtenEntries members) = members.map Member.key := by
  rw [keysOf, writtenEntries, List.map_map]
  rfl

/-- The members of a text are writes: the last member with a key is the last write. -/
theorem isLastWrite_writtenEntries_iff {members : List Member} {k : String} {v : Value} :
    IsLastWrite (writtenEntries members) k v ↔ IsLastValue members k v := by
  have hkeys (back : List Member) : k ∉ keysOf (writtenEntries back) ↔ ∀ m ∈ back, m.key ≠ k := by
    rw [keysOf_writtenEntries, List.mem_map]
    push Not
    rfl
  constructor
  · rintro ⟨earlier, later, hsplit, hlater⟩
    obtain ⟨front, tail, rfl, -, htail⟩ := List.map_eq_append_iff.1 hsplit
    obtain ⟨m, back, rfl, hm, rfl⟩ := List.map_eq_cons_iff.1 htail
    exact ⟨front, m, back, rfl, congrArg Prod.fst hm, congrArg Prod.snd hm, (hkeys back).1 hlater⟩
  · rintro ⟨front, m, back, rfl, rfl, rfl, hback⟩
    exact ⟨writtenEntries front, writtenEntries back, by simp [writtenEntries],
      (hkeys back).2 hback⟩

/-- The dictionary of written entries has at a key what the last member with the key writes. -/
theorem get?_writtenEntries_eq_some_iff {members : List Member} {k : String} {v : Value} :
    (Dict.ofList (writtenEntries members)).get? k = some v ↔ IsLastValue members k v := by
  rw [Dict.get?_ofList_eq_lastWrite, lastWrite_eq_some_iff, isLastWrite_writtenEntries_iff]

theorem get?_writtenEntries_eq_none_iff {members : List Member} {k : String} :
    (Dict.ofList (writtenEntries members)).get? k = none ↔ ∀ m ∈ members, m.key ≠ k := by
  rw [Dict.get?_ofList_eq_lastWrite, lastWrite_eq_none_iff, keysOf_writtenEntries, List.mem_map]
  push Not
  rfl

/-- The dictionary of written entries is as large as the set of their keys. -/
theorem size_writtenEntries (members : List Member) :
    (Dict.ofList (writtenEntries members)).size = (members.map Member.key).toFinset.card := by
  rw [Dict.size_ofList, keysOf_writtenEntries]

end Intake.Json
