import Intake.Decimal.Shortest

/-!
# The text of a double

A double is written with its shortest decimal digits.  What is left to a format is where it stops
to be positional, whether a whole number keeps a fraction, and which of two equally near decimals
it takes; those three choices are a `FloatStyle`.
-/

namespace Intake.Decimal

/-- The choices of a format for doubles. -/
structure FloatStyle where
  /-- Whether a number whose first digit has the given power of ten is written without an
  exponent. -/
  isPositional : Int → Bool
  /-- Whether a whole number in positional form ends in a point and a zero. -/
  marksWhole : Bool
  /-- Which of two equally near decimals is taken. -/
  tie : Tie

namespace Scientific

/-- The digits around a point: whole digits, then the digits after the point, if any. -/
def positional (marksWhole : Bool) (x : Scientific) : List Char :=
  let ds := x.digits.map digitChar
  let wholeCount := (x.exponent + 1).toNat
  let fraction := List.replicate (-x.exponent - 1).toNat '0' ++ ds.drop wholeCount
  let whole :=
    if wholeCount = 0 then ['0']
    else ds.take wholeCount ++ List.replicate (wholeCount - ds.length) '0'
  if ds.length ≤ wholeCount then
    if marksWhole then whole ++ ['.', '0'] else whole
  else whole ++ '.' :: fraction

/-- The first digit, the others after a point, and a signed exponent. -/
def exponential (x : Scientific) : List Char :=
  let mantissa := match x.digits.map digitChar with
    | [] => []
    | [d] => [d]
    | d :: ds => d :: '.' :: ds
  let sign := if x.exponent < 0 then '-' else '+'
  mantissa ++ 'e' :: sign :: natText x.exponent.natAbs

end Scientific

namespace FloatStyle

/-- A decimal in a style. -/
def scientificText (style : FloatStyle) (x : Scientific) : List Char :=
  if style.isPositional x.exponent then x.positional style.marksWhole else x.exponential

/-- The decimal of the bits of a nonnegative finite double. -/
def decimal (style : FloatStyle) (bits : Nat) : Scientific :=
  if bits = 0 then ⟨[0], 0⟩ else (Dyadic.ofBits bits).shortest style.tie

/-- The bit that tells the sign of a double. -/
def signBit : Nat := 0x8000000000000000

/-- A finite double in a style, a negative one (negative zero too) after a minus sign. -/
def text (style : FloatStyle) (x : Float) : List Char :=
  let bits := x.toBits.toNat
  let magnitude := style.scientificText (style.decimal (bits % signBit))
  if bits < signBit then magnitude else '-' :: magnitude

/-- The style of doubles in messages: never an exponent, and no fraction for a whole number. -/
def plain : FloatStyle where
  isPositional _ := true
  marksWhole := false
  tie := .up

/-- The style of doubles in a document: positional from a hundred-thousandth up to sixteen whole
digits, and always recognisable as a double. -/
def document : FloatStyle where
  isPositional exponent := -5 ≤ exponent && exponent ≤ 15
  marksWhole := true
  tie := .even

end FloatStyle

/-- Any double in a message. -/
def plainText (x : Float) : List Char :=
  if x.isNaN then "NaN".toList
  else if x.isFinite then FloatStyle.plain.text x
  else if x < 0 then "-inf".toList
  else "inf".toList

end Intake.Decimal
