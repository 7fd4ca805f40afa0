import Intake.Json.Numeral
import Intake.Json.Quoted
import Intake.Json.Value

/-!
# Writing

A document is written without blanks, the entries of an object in the order of their keys.  `Write`
is the class of the types that have a written form.  A double that is not finite has none of its own
and is written as null.
-/

namespace Intake.Json

/-- A type whose values can be written as documents. -/
class Write (α : Type) where
  /-- The written form. -/
  write : α → List Char

/-- The written form as a string. -/
def text {α : Type} [Write α] (a : α) : String := String.ofList (Write.write a)

@[simp] theorem toList_text {α : Type} [Write α] (a : α) : (text a).toList = Write.write a :=
  String.toList_ofList

/-! ## Separated parts -/

/-- Puts a comma between any two parts. -/
def commaSeparated : List (List Char) → List Char
  | [] => []
  | [part] => part
  | part :: parts => part ++ ',' :: commaSeparated parts

theorem commaSeparated_eq_intercalate (parts : List (List Char)) :
    commaSeparated parts = [','].intercalate parts := by
  induction parts using commaSeparated.induct with
  | case1 => rfl
  | case2 part => simp [commaSeparated]
  | case3 part parts hne ih =>
    obtain ⟨next, parts, rfl⟩ := List.exists_cons_of_ne_nil hne
    simp [commaSeparated, ih]

/-- The items of an array between brackets. -/
def bracketed (parts : List (List Char)) : List Char := '[' :: commaSeparated parts ++ [']']

/-- The members of an object between brackets. -/
def braced (parts : List (List Char)) : List Char := '{' :: commaSeparated parts ++ ['}']

/-- A member with a written value. -/
def memberText (key : String) (written : List Char) : List Char := quoted key ++ ':' :: written

/-- A truth value. -/
def boolText : Bool → List Char
  | true => ['t', 'r', 'u', 'e']
  | false => ['f', 'a', 'l', 's', 'e']

/-- The null. -/
def nullText : List Char := ['n', 'u', 'l', 'l']

/-! ## Values -/

namespace Value

mutual

/-- The written form of a value. -/
def written : Value → List Char
  | null => nullText
  | bool b => boolText b
  | number n => numberText n
  | string s => quoted s
  | array items => bracketed (writtenItems items)
  | object entries => braced (writtenEntries entries)
termination_by structural v => v

/-- The written forms of the items of an array. -/
def writtenItems : List Value → List (List Char)
  | [] => []
  | v :: vs => written v :: writtenItems vs
termination_by structural items => items

/-- The written forms of the members of an object. -/
def writtenEntries : Dict Value → List (List Char)
  | ⟨keys, value⟩ => List.ofFn fun i => memberText (keys.toList.get i) (written (value i))
termination_by structural d => d

end

@[simp] theorem writtenItems_eq_map (items : List Value) :
    writtenItems items = items.map written := by
  induction items with
  | nil => rfl
  | cons v vs ih => rw [writtenItems, ih, List.map_cons]

@[simp] theorem writtenEntries_eq_map (d : Dict Value) :
    writtenEntries d = d.entries.map fun entry => memberText entry.1 (written entry.2) := by
  obtain ⟨keys, value⟩ := d
  simp only [writtenEntries, Dict.entries, List.map_ofFn]
  rfl

end Value

/-! ## Types with a written form -/

instance : Write Value := ⟨Value.written⟩
instance : Write String := ⟨quoted⟩
instance : Write Bool := ⟨boolText⟩
instance : Write Number := ⟨numberText⟩
instance : Write Int64 := ⟨fun v => Decimal.intText v.toInt⟩
instance : Write UInt64 := ⟨fun v => Decimal.natText v.toNat⟩
instance : Write Nat := ⟨Decimal.natText⟩
instance : Write (Dict Value) := ⟨fun d => braced (Value.writtenEntries d)⟩
instance : Write Float := ⟨fun x =>
  if x.isFinite then Decimal.FloatStyle.document.text x else nullText⟩
instance {α : Type} [Write α] : Write (List α) := ⟨fun as => bracketed (as.map Write.write)⟩

@[simp] theorem write_value (v : Value) : Write.write v = v.written := rfl

@[simp] theorem write_string (s : String) : Write.write s = quoted s := rfl

@[simp] theorem write_dict (d : Dict Value) :
    Write.write d = braced (Value.writtenEntries d) := rfl

@[simp] theorem write_list {α : Type} [Write α] (as : List α) :
    Write.write as = bracketed (as.map Write.write) := rfl

theorem write_float_of_isFinite {x : Float} (h : x.isFinite = true) :
    Write.write x = Decimal.FloatStyle.document.text x := if_pos h

theorem write_float_of_not_isFinite {x : Float} (h : ¬ x.isFinite = true) :
    Write.write x = nullText := if_neg h

/-- The written form of a record of two fields. -/
def pairText {α β : Type} [Write α] [Write β] (first second : String) (a : α) (b : β) :
    List Char :=
  braced [memberText first (Write.write a), memberText second (Write.write b)]

end Intake.Json
