import Intake.Json.Decoder
import Intake.Json.Writer

/-!
# Numeric values

A numeric value is an element or a total of a dataset: a signed word, an unsigned word, or a double.
Unsigned words are meant for integers that no signed word holds, and `Canonical` says that a value
keeps to this.  The type does not force it, but everything that makes numeric values does:
`ofInt?` takes the signed word whenever there is one.
-/

namespace Intake

open Json (Write Value Number Decoder)

/-- An element or a total of a dataset. -/
inductive Numeric where
  | int (v : Int64)
  | uint (v : UInt64)
  | float (x : Float)

namespace Numeric

/-- The integer zero. -/
def zero : Numeric := int 0

instance : Inhabited Numeric := ⟨zero⟩

/-- An unsigned word is only used for what no signed word holds. -/
def Canonical : Numeric → Prop
  | uint v => 0x8000000000000000 ≤ v.toNat
  | _ => True

/-- Values of different kinds are never equal, and doubles compare as doubles. -/
def equal : Numeric → Numeric → Bool
  | int a, int b => a == b
  | uint a, uint b => a == b
  | float a, float b => a == b
  | _, _ => false

instance : BEq Numeric := ⟨equal⟩

/-! ## Conversions -/

/-- Whether the value is exact. -/
def isInteger : Numeric → Bool
  | float _ => false
  | _ => true

/-- The exact integer. -/
def toInt? : Numeric → Option Int
  | int v => some v.toInt
  | uint v => some v.toNat
  | float _ => none

@[simp] theorem toInt?_eq_none_iff {n : Numeric} : n.toInt? = none ↔ n.isInteger = false := by
  cases n <;> simp [toInt?, isInteger]

/-- The double nearest to a word, of two equally near ones the even one. -/
def nearestFloat (v : Int) : Float :=
  let magnitude := (UInt64.ofNat v.natAbs).toFloat
  if v < 0 then -magnitude else magnitude

/-- The double nearest to the value. -/
def toFloat : Numeric → Float
  | int v => nearestFloat v.toInt
  | uint v => nearestFloat v.toNat
  | float x => x

/-- The integer as a word, a signed one if possible. -/
def ofInt? (v : Int) : Option Numeric :=
  if -0x8000000000000000 ≤ v ∧ v < 0x8000000000000000 then some (int (Int64.ofInt v))
  else if 0 ≤ v ∧ v < 0x10000000000000000 then some (uint (UInt64.ofNat v.toNat))
  else none

/-- A signed word. -/
def ofInt64 (v : Int64) : Numeric := int v

/-- An unsigned word, as a signed one if possible. -/
def ofUInt64 (v : UInt64) : Numeric :=
  if v.toNat < 0x8000000000000000 then int (Int64.ofInt v.toNat) else uint v

/-- A signed half word. -/
def ofInt32 (v : Int32) : Numeric := int (Int64.ofInt v.toInt)

/-- An unsigned half word. -/
def ofUInt32 (v : UInt32) : Numeric := int (Int64.ofInt v.toNat)

/-- A double. -/
def ofFloat (x : Float) : Numeric := float x

/-! ## Text -/

/-- The value in a message. -/
def plainText : Numeric → List Char
  | int v => Decimal.intText v.toInt
  | uint v => Decimal.natText v.toNat
  | float x => Decimal.plainText x

/-- The value in a message, as a string. -/
def display (n : Numeric) : String := String.ofList n.plainText

/-- The written form, which shows whether the value is exact but not which word it is. -/
def written : Numeric → List Char
  | int v => Write.write v
  | uint v => Write.write v
  | float x => Write.write x

instance : Write Numeric := ⟨written⟩

@[simp] theorem write_int (v : Int64) : Write.write (int v) = Write.write v := rfl

@[simp] theorem write_uint (v : UInt64) : Write.write (uint v) = Write.write v := rfl

@[simp] theorem write_float (x : Float) : Write.write (float x) = Write.write x := rfl

/-! ## Numbers of a document -/

/-- A number of a document as a numeric value, by its kind and its size. -/
def ofNumber : Number → Numeric
  | .integer v _ =>
    if v < 0x8000000000000000 then int (Int64.ofInt v) else uint (UInt64.ofNat v.toNat)
  | .float x _ => float x

/-- The double that a number is, or the one nearest to it. -/
def floatOf : Number → Float
  | .integer v _ => nearestFloat v
  | .float x _ => x

/-- A value of a document as a numeric value, if it is a number: a signed word if it is one, else an
unsigned word if it is one, and else a double. -/
def ofValue? (v : Value) : Option Numeric :=
  (v.toInt64?.map int).or <| (v.toUInt64?.map uint).or <| v.number?.map fun n => float (floatOf n)

/-- Decoding a double takes integers too, as the doubles nearest to them. -/
def floatDecoder : Decoder Float := Decoder.ofLead fun
  | .number n => .ok (floatOf n)
  | found => .error (.invalidType found "f64")

/-- Decoding tries the three kinds of numeric values in order. -/
def decoder : Decoder Numeric := Decoder.firstOf "Numeric"
  [Decoder.int64.map int, Decoder.uint64.map uint, floatDecoder.map float]

/-- A number has one kind, and the words that it is not are not taken for it. -/
@[simp] theorem ofValue?_number (n : Number) : ofValue? (.number n) = some (ofNumber n) := by
  cases n with
  | integer v h =>
    by_cases hsmall : v < 0x8000000000000000
    · simp [ofValue?, Value.toInt64?, Value.number?, Number.toInt64?, ofNumber, hsmall]
    · have hnonneg : 0 ≤ v := by omega
      simp [ofValue?, Value.toInt64?, Value.toUInt64?, Value.number?, Number.toInt64?,
        Number.toUInt64?, ofNumber, hsmall, hnonneg]
  | float x h => rfl

theorem ofValue?_eq_some_iff {v : Value} {n : Numeric} :
    ofValue? v = some n ↔ ∃ x, v = .number x ∧ ofNumber x = n := by
  cases v with
  | number x => simp
  | null | bool b | string s | array items | object entries =>
    simp [ofValue?, Value.toInt64?, Value.toUInt64?, Value.number?]

/-- A value is a numeric value of the first kind whose decoder takes it. -/
theorem findSome?_eq_ofValue? (v : Value) : [Decoder.int64.map int, Decoder.uint64.map uint,
    floatDecoder.map float].findSome? (fun d => (d.ofValue v).toOption) = ofValue? v := by
  cases v with
  | number n =>
    rw [ofValue?_number]
    cases n with
    | integer v h =>
      have hle : -0x8000000000000000 ≤ v := h.1
      by_cases hsmall : v < 0x8000000000000000
      · have hsigned : v ≤ 0x7FFFFFFFFFFFFFFF := by omega
        simp [Decoder.map, Decoder.int64, Decoder.integer, Decoder.ofLead, Value.lead, ofNumber,
          Except.map, Except.toOption, hle, hsmall, hsigned]
      · have hsigned : ¬ v ≤ 0x7FFFFFFFFFFFFFFF := by omega
        have hnonneg : 0 ≤ v := by omega
        have hunsigned : v ≤ 0xFFFFFFFFFFFFFFFF := Int.le_of_lt_add_one h.2
        simp [Decoder.map, Decoder.int64, Decoder.uint64, Decoder.integer, Decoder.ofLead,
          Value.lead, ofNumber, Except.map, Except.toOption, hsmall, hsigned, hnonneg, hunsigned]
    | float x h => rfl
  | null | bool b | string s | array items | object entries => rfl

/-- Decoding takes a value exactly if it is a numeric value. -/
theorem decoder_ofValue (v : Value) :
    decoder.ofValue v = (ofValue? v).elim (.error (.noAlternative "Numeric")) .ok := by
  rw [← findSome?_eq_ofValue?]
  rfl

@[simp] theorem decoder_ofValue_number (n : Number) :
    decoder.ofValue (.number n) = .ok (ofNumber n) := by
  rw [decoder_ofValue, ofValue?_number]
  rfl

end Numeric

end Intake
