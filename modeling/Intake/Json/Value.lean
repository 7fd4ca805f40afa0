import Intake.Dict
import Intake.Json.Number

/-!
# Document values

A value is what a document denotes: null, a truth value, a number, a string, a list of values or a
dictionary of them.  The members of an object are a `Dict`, so an object has no order of its own
and no repeated key, at any depth.

Definitions that walk a value come in threes, for a value, for the items of an array and for the
entries of an object.  `Value.induction` is the principle that proofs about them use: to show
something of every value, show it of the scalars, of an array from its items, and of an object from
the values in it.
-/

namespace Intake.Json

/-- A document value. -/
inductive Value where
  | null
  | bool (b : Bool)
  | number (n : Number)
  | string (s : String)
  | array (items : List Value)
  | object (entries : Dict Value)

instance : Inhabited Value := ⟨.null⟩

/-! ## Kinds -/

/-- The kind of a value. -/
inductive Kind where
  | null
  | boolean
  | number
  | string
  | array
  | object
  deriving DecidableEq

namespace Kind

/-- The word for a kind. -/
def name : Kind → String
  | null => "null"
  | boolean => "boolean"
  | number => "number"
  | string => "string"
  | array => "array"
  | object => "object"

end Kind

namespace Value

/-- The kind that a value has. -/
def kind : Value → Kind
  | null => .null
  | bool _ => .boolean
  | number _ => .number
  | string _ => .string
  | array _ => .array
  | object _ => .object

/-! ## Conversions -/

/-- A signed word as a value. -/
def ofInt64 (v : Int64) : Value := number (.ofInt64 v)

/-- An unsigned word as a value. -/
def ofUInt64 (v : UInt64) : Value := number (.ofUInt64 v)

/-- A signed half word as a value. -/
def ofInt32 (v : Int32) : Value := ofInt64 v.toInt64

/-- An unsigned half word as a value. -/
def ofUInt32 (v : UInt32) : Value := ofUInt64 v.toUInt64

/-- A double as a value; an infinity and NaN become null. -/
def ofFloat (x : Float) : Value :=
  match Number.ofFloat? x with
  | some n => number n
  | none => null

/-- The number that a value is, if it is one. -/
def number? : Value → Option Number
  | number n => some n
  | _ => none

/-- The signed word that a value is, if it is one. -/
def toInt64? (v : Value) : Option Int64 := v.number?.bind Number.toInt64?

/-- The unsigned word that a value is, if it is one. -/
def toUInt64? (v : Value) : Option UInt64 := v.number?.bind Number.toUInt64?

/-! ## Induction -/

/-- What holds of the scalars, of each array whose items it holds of, and of each object whose
values it holds of, holds of every value. -/
theorem induction {P : Value → Prop} (null : P null) (bool : ∀ b, P (bool b))
    (number : ∀ n, P (number n)) (string : ∀ s, P (string s))
    (array : ∀ items, (∀ v ∈ items, P v) → P (array items))
    (object : ∀ keys value, (∀ i, P (value i)) → P (object ⟨keys, value⟩)) (v : Value) : P v :=
  Value.rec (motive_1 := P) (motive_2 := fun items => ∀ v ∈ items, P v)
    (motive_3 := fun d => ∀ i, P (d.value i))
    null bool number string array (fun d h => object d.keys d.value h)
    (fun _ h => absurd h List.not_mem_nil)
    (fun _ _ head tail _ h => by
      rcases List.mem_cons.1 h with rfl | h
      · exact head
      · exact tail _ h)
    (fun _ _ h => h) v

/-! ## Equality -/

mutual

/-- Equality of values: numbers are compared as numbers, and all else must be the same. -/
def equal : Value → Value → Bool
  | null, null => true
  | bool a, bool b => a == b
  | number a, number b => a == b
  | string a, string b => a == b
  | array a, array b => equalItems a b
  | object a, object b => equalEntries a b
  | _, _ => false
termination_by structural v => v

/-- Lists of values are equal when they are so item by item. -/
def equalItems : List Value → List Value → Bool
  | [], [] => true
  | a :: as, b :: bs => equal a b && equalItems as bs
  | _, _ => false
termination_by structural items => items

/-- Dictionaries of values are equal when they have the same keys with equal values. -/
def equalEntries : Dict Value → Dict Value → Bool
  | ⟨keys, value⟩, e =>
    if h : keys = e.keys then
      (List.ofFn fun i => equal (value i) (e.value (i.cast (by rw [h])))).all id
    else false
termination_by structural d => d

end

instance : BEq Value := ⟨equal⟩
instance : BEq (Dict Value) := ⟨equalEntries⟩

end Value

end Intake.Json
