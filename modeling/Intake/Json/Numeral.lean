import Intake.Json.Reader

/-!
# Numerals

Reading a number has two steps.  `numeral` scans its written form into sign, whole digits, fraction
and exponent; it takes the longest such form, and all faults of the form are found here.
`Numeral.toNumber` gives the form its value.

A form without fraction and exponent is exact if its value is a 64-bit word; only `-0` is not,
because it is the negative zero of the doubles.  Every other form is a double, and not always the
nearest one: as many digits as a 64-bit word takes make an integer, which is rounded to a double and
then multiplied or divided by a power of ten, with a rounding for each step.
-/

namespace Intake.Json

open Decimal

/-- The written form of a number. -/
structure Numeral where
  negative : Bool
  whole : List Nat
  fraction : Option (List Nat)
  /-- Whether the exponent is negative, and its digits. -/
  exponent : Option (Bool × List Nat)

/-! ## Scanning -/

/-- The digits at the front of a text, and what follows them. -/
def spanDigits : List Char → List Nat × List Char
  | [] => ([], [])
  | c :: cs =>
    match digit? c with
    | some d => (d :: (spanDigits cs).1, (spanDigits cs).2)
    | none => ([], c :: cs)

/-- Whether a text begins with a digit. -/
def startsWithDigit : List Char → Bool
  | [] => false
  | c :: _ => (digit? c).isSome

/-- Reads the whole digits: a zero alone, or digits that do not begin with zero.  The cause for a
text that ends here is given. -/
def wholePart (atEnd : Cause) : Reader (List Nat)
  | [] => .error (.before atEnd [])
  | c :: rest =>
    match digit? c with
    | none => .error (.past .invalidNumber (c :: rest))
    | some 0 =>
      if startsWithDigit rest then .error (.past .invalidNumber rest) else .ok ([0], rest)
    | some d => .ok (d :: (spanDigits rest).1, (spanDigits rest).2)

/-- Reads one digit or more. -/
def someDigits (atEnd : Cause) : Reader (List Nat) := fun cs =>
  match spanDigits cs with
  | ([], []) => .error (.before atEnd [])
  | ([], rest) => .error (.past .invalidNumber rest)
  | (ds, rest) => .ok (ds, rest)

/-- Reads a fraction, if there is one. -/
def fractionPart (atEnd : Cause) : Reader (Option (List Nat))
  | '.' :: rest => (some <$> someDigits atEnd) rest
  | cs => .ok (none, cs)

/-- Reads the sign of an exponent, if there is one: whether it is a minus. -/
def exponentSign : Reader Bool
  | '-' :: rest => .ok (true, rest)
  | '+' :: rest => .ok (false, rest)
  | cs => .ok (false, cs)

/-- Reads an exponent, if there is one. -/
def exponentPart (atEnd : Cause) : Reader (Option (Bool × List Nat))
  | [] => .ok (none, [])
  | c :: cs =>
    if c = 'e' ∨ c = 'E' then
      (do return some (← exponentSign, ← someDigits atEnd) : Reader (Option (Bool × List Nat))) cs
    else .ok (none, c :: cs)

/-- Reads a minus sign, if there is one. -/
def minusSign : Reader Bool
  | '-' :: rest => .ok (true, rest)
  | cs => .ok (false, cs)

/-- Scans a number.  The cause for a text that ends within it is given. -/
def numeral (atEnd : Cause) : Reader Numeral := do
  let negative ← minusSign
  let whole ← wholePart atEnd
  let fraction ← fractionPart atEnd
  let exponent ← exponentPart atEnd
  return ⟨negative, whole, fraction, exponent⟩

/-! ## Value -/

/-- The double nearest to a power of ten; from the 309th on they are infinite. -/
def powerOfTen (k : Nat) : Float := Float.ofScientific 1 false (min k 309)

/-- Divides by a power of ten, by at most `10 ^ 308` at a time. -/
def divideByTens : Nat → Float → Nat → Float
  | 0, f, k => f / powerOfTen k
  | rounds + 1, f, k =>
    if k ≤ 308 ∨ f == 0 then f / powerOfTen (min k 308)
    else divideByTens rounds (f / powerOfTen 308) (k - 308)

/-- An integer times a power of ten, in doubles. -/
def scaled (significand : Nat) (exponent : Int) : Float :=
  let f := (UInt64.ofNat significand).toFloat
  if 0 ≤ exponent then
    if f == 0 then f else f * powerOfTen exponent.toNat
  else divideByTens (exponent.natAbs / 308) f exponent.natAbs

namespace Numeral

/-- The greatest significand of a numeral. -/
def significandLimit : Nat := 0xFFFFFFFFFFFFFFFF

/-- The greatest exponent that is read. -/
def exponentLimit : Nat := 0x7FFFFFFF

/-- The integer that the digits without the exponent make, as far as they fit a word, and the power
of ten to apply to it.  A whole digit that does not fit still counts as a place, and so do all after
it; a fraction digit that does not fit is dropped with all after it. -/
def significand (x : Numeral) : Nat × Int :=
  let (s, dropped) := absorb significandLimit 0 x.whole
  match x.fraction with
  | none => (s, dropped)
  | some ds =>
    let (s, left) := absorb significandLimit s ds
    (s, dropped - (ds.length - left : Nat))

/-- The exact integer that the numeral writes, if it has neither fraction nor exponent. -/
def integer? (x : Numeral) : Option Number :=
  if x.fraction.isSome ∨ x.exponent.isSome ∨ (x.negative ∧ value x.whole = 0) then none
  else Number.ofInt? (if x.negative then -(value x.whole) else value x.whole)

/-- A double with the sign of the numeral, unless it is infinite. -/
def signed? (x : Numeral) (f : Float) : Option Number :=
  Number.ofFloat? (if x.negative then -f else f)

/-- The double that the numeral is scaled to, if it is finite.  Otherwise the answer is how many
digits of the exponent are left when that is known: an exponent beyond all bounds is noticed at
once, unless it makes the number zero. -/
def toFloat (x : Numeral) : Except Nat Number :=
  let (s, places) := x.significand
  let rounded (exponent : Int) : Except Nat Number :=
    match x.signed? (scaled s exponent) with
    | some n => .ok n
    | none => .error 0
  match x.exponent with
  | none => rounded places
  | some (negative, ds) =>
    match absorb exponentLimit 0 ds with
    | (e, 0) => rounded (if negative then places - e else places + e)
    | (_, left) =>
      if s = 0 ∨ negative then
        match x.signed? 0 with
        | some n => .ok n
        | none => .error 0
      else .error (left - 1)

/-- The number that a numeral is read as. -/
def toNumber (x : Numeral) : Except Nat Number :=
  match x.integer? with
  | some n => .ok n
  | none => x.toFloat

end Numeral

/-- Reads a number. -/
def number : Reader Number := do
  let x ← numeral .unfinishedValue
  match x.toNumber with
  | .ok n => return n
  | .error unread => fun rest => .error ⟨.numberOutOfRange, byteCount rest + unread⟩

/-- Passes over a number that is not wanted: only its form is looked at, and a form that is cut
short counts as a wrong one. -/
def skipNumber : Reader Unit := discard (numeral .invalidNumber)

/-! ## Writing -/

/-- A number in a document. -/
def numberText : Number → List Char
  | .integer v _ => intText v
  | .float x _ => FloatStyle.document.text x

end Intake.Json
