import Intake.Error
import Intake.Json.Decoder
import Intake.Json.Writer

/-!
# User records

A record maps field names to document values.  Nothing is asked of its shape; a field that is
looked for may be absent, and is an error only where it is present and of the wrong kind.
-/

namespace Intake

open Json (Write Value Decoder)

/-- A user record as it comes in. -/
structure Record where
  fields : Dict Value

namespace Record

/-- The record without fields. -/
def empty : Record := ⟨.empty⟩

instance : Inhabited Record := ⟨empty⟩

/-- The record of a list of fields, of which a later one wins over an earlier one. -/
def ofList (fields : List (String × Value)) : Record := ⟨.ofList fields⟩

/-- Sets a field; the first part of the answer is what it was before. -/
def insert (r : Record) (name : String) (value : Value) : Option Value × Record :=
  (r.fields.get? name, ⟨r.fields.insert name value⟩)

/-- The record with a field set. -/
def withField (r : Record) (name : String) (value : Value) : Record := (r.insert name value).2

/-- The value of a field. -/
def get? (r : Record) (name : String) : Option Value := r.fields.get? name

@[simp] theorem get?_withField (r : Record) (name : String) (value : Value) (k : String) :
    (r.withField name value).get? k = if k = name then some value else r.get? k :=
  Dict.get?_insert ..

theorem get?_withField_self (r : Record) (name : String) (value : Value) :
    (r.withField name value).get? name = some value := by simp

/-- The number of fields. -/
def size (r : Record) : Nat := r.fields.size

/-- Whether there are no fields. -/
def isEmpty (r : Record) : Bool := r.fields.isEmpty

instance : BEq Record := ⟨fun a b => a.fields == b.fields⟩

/-- The string in a field, if the field is present. -/
def string? (r : Record) (name : String) : Except Error (Option String) :=
  match r.get? name with
  | none => .ok none
  | some (.string s) => .ok (some s)
  | some v => .error (.mismatch name Json.Kind.string.name v)

@[simp] theorem string?_withField (r : Record) (name s : String) :
    (r.withField name (.string s)).string? name = .ok (some s) := by
  simp [string?]

/-- The record as a document value. -/
def toValue (r : Record) : Value := .object r.fields

instance : Write Record := ⟨fun r => Write.write r.fields⟩

/-- Decoding takes the objects. -/
def decoder : Decoder Record := Decoder.dict.map Record.mk

end Record

end Intake
