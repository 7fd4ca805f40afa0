/-!
# Numbers of a document

A number is an exact integer or a double, and which of the two it is belongs to its value: `1` and
`1.0` are different numbers.  Integers reach from the least signed to the greatest unsigned 64-bit
word; doubles are finite, because no number is written for an infinity or for a NaN.  Both limits
are held as proofs, so a reader has to decide them and a printer need not.
-/

namespace Intake.Json

/-- The integers that are exact in a document. -/
abbrev IsWord (v : Int) : Prop := -0x8000000000000000 ≤ v ∧ v < 0x10000000000000000

/-- A number: an exact integer or a finite double. -/
inductive Number where
  | integer (v : Int) (isWord : IsWord v)
  | float (x : Float) (finite : x.isFinite = true)

namespace Number

/-- The exact integer with the given value, if it is in range. -/
def ofInt? (v : Int) : Option Number :=
  if h : IsWord v then some (integer v h) else none

/-- The double as a number, unless it is an infinity or NaN. -/
def ofFloat? (x : Float) : Option Number :=
  if h : x.isFinite = true then some (float x h) else none

theorem isWord_of_int64 (v : Int64) : IsWord v.toInt :=
  ⟨v.le_toInt, Int.lt_trans v.toInt_lt (by decide)⟩

theorem isWord_of_uint64 (v : UInt64) : IsWord v.toNat :=
  ⟨Int.le_trans (by decide) (Int.natCast_nonneg _), Int.ofNat_lt.2 v.toNat_lt⟩

/-- A signed word as a number. -/
def ofInt64 (v : Int64) : Number := integer v.toInt (isWord_of_int64 v)

/-- An unsigned word as a number. -/
def ofUInt64 (v : UInt64) : Number := integer v.toNat (isWord_of_uint64 v)

/-! ## Words of a number -/

/-- The signed word that a number is, if it is one. -/
def toInt64? : Number → Option Int64
  | integer v _ => if v < 0x8000000000000000 then some (Int64.ofInt v) else none
  | float _ _ => none

/-- The unsigned word that a number is, if it is one. -/
def toUInt64? : Number → Option UInt64
  | integer v _ => if 0 ≤ v then some (UInt64.ofNat v.toNat) else none
  | float _ _ => none

/-! ## Equality -/

/-- Numbers of different kinds are never equal, and doubles compare as doubles: the two zeros are
equal. -/
def equal : Number → Number → Bool
  | integer a _, integer b _ => a == b
  | float a _, float b _ => a == b
  | _, _ => false

instance : BEq Number := ⟨equal⟩

end Number

end Intake.Json
