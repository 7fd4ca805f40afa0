import Intake.Decimal.FloatText
import Intake.Json.Number
import Intake.Text.Escaped

/-!
# What goes wrong in reading, and where

A `Cause` says what is wrong, in the terms of a document, and `Cause.message` words it.  A `Fault`
adds the place.  Readers consume a text from the front, so a place is known to them by what is left
of the text: a fault counts the bytes that were not consumed.  Only when the fault is reported is
that turned into a line and a column, by `ReadError.ofFault`, which looks at the whole text.  The
readers therefore thread no position.

Two places occur.  `Fault.before` is just before the rest of the text; `Fault.past` is one byte
further, past the byte that was looked at, or at the end if there is none.
-/

namespace Intake.Json

/-! ## Causes -/

/-- How a value begins: a scalar is known in full, a container by its bracket alone. -/
inductive Lead where
  | null
  | bool (b : Bool)
  | number (n : Number)
  | string (s : String)
  | array
  | object

/-- The two pairs of brackets. -/
inductive Bracket where
  | square
  | curly
  deriving DecidableEq

/-- The bracket that ends what the pair encloses. -/
def Bracket.close : Bracket → Char
  | square => ']'
  | curly => '}'

/-- What can be wrong with a text, or with a value that is to be of a certain type. -/
inductive Cause where
  /-- The text ends where a value should stand, or within a word or number. -/
  | unfinishedValue
  /-- The text ends within a string. -/
  | unfinishedString
  /-- The text ends between the brackets of a container. -/
  | unfinished (bracket : Bracket)
  /-- No value begins like this. -/
  | expectedValue
  /-- A word is not one of the three that are values. -/
  | expectedWord
  /-- After an item neither a comma nor the closing bracket follows. -/
  | expectedSeparator (bracket : Bracket)
  /-- After a key no colon follows. -/
  | expectedColon
  /-- A key is not a string. -/
  | keyNotString
  /-- A comma is followed by the closing bracket. -/
  | trailingComma
  /-- Something follows where all should have been read. -/
  | trailingText
  /-- Containers are nested too deeply. -/
  | tooDeep
  /-- A number is not written like one. -/
  | invalidNumber
  /-- Scaling a number leaves the range of the doubles. -/
  | numberOutOfRange
  /-- A string holds a raw control character. -/
  | controlCharacter
  /-- An escape in a string is none of the known ones. -/
  | invalidEscape
  /-- One half of a surrogate pair stands alone or after the wrong half. -/
  | loneSurrogate
  /-- The first half of a surrogate pair is not followed by another escape. -/
  | unpairedSurrogate
  /-- A value is of another kind than the one expected. -/
  | invalidType (found : Lead) (expected : String)
  /-- An integer is outside the type expected. -/
  | invalidValue (found : Int) (expected : String)
  /-- A list has too few or too many items. -/
  | invalidLength (length : Nat) (expected : String)
  /-- A field is absent. -/
  | missingField (name : String)
  /-- A field occurs twice. -/
  | duplicateField (name : String)
  /-- A value is none of the alternatives of a type. -/
  | noAlternative (type : String)

/-! ## Messages -/

/-- The words for a beginning. -/
def Lead.description : Lead → String
  | null => "null"
  | bool b => s!"boolean `{b}`"
  | number (.integer v _) => s!"integer `{String.ofList (Decimal.intText v)}`"
  | number (.float x _) =>
    s!"floating point `{String.ofList (Decimal.FloatStyle.document.text x)}`"
  | string s => s!"string {Text.escaped s}"
  | array => "sequence"
  | object => "map"

/-- The words for a cause. -/
def Cause.message : Cause → String
  | unfinishedValue => "EOF while parsing a value"
  | unfinishedString => "EOF while parsing a string"
  | unfinished .square => "EOF while parsing a list"
  | unfinished .curly => "EOF while parsing an object"
  | expectedValue => "expected value"
  | expectedWord => "expected ident"
  | expectedSeparator .square => "expected `,` or `]`"
  | expectedSeparator .curly => "expected `,` or `\x7d`"
  | expectedColon => "expected `:`"
  | keyNotString => "key must be a string"
  | trailingComma => "trailing comma"
  | trailingText => "trailing characters"
  | tooDeep => "recursion limit exceeded"
  | invalidNumber => "invalid number"
  | numberOutOfRange => "number out of range"
  | controlCharacter => "control character (\\u0000-\\u001F) found while parsing a string"
  | invalidEscape => "invalid escape"
  | loneSurrogate => "lone leading surrogate in hex escape"
  | unpairedSurrogate => "unexpected end of hex escape"
  | invalidType found expected => s!"invalid type: {found.description}, expected {expected}"
  | invalidValue found expected =>
    s!"invalid value: integer `{String.ofList (Decimal.intText found)}`, expected {expected}"
  | invalidLength length expected =>
    s!"invalid length {String.ofList (Decimal.natText length)}, expected {expected}"
  | missingField name => s!"missing field `{name}`"
  | duplicateField name => s!"duplicate field `{name}`"
  | noAlternative type => s!"data did not match any variant of untagged enum {type}"

/-! ## Faults -/

/-- The number of bytes that a text takes. -/
def byteCount : List Char → Nat
  | [] => 0
  | c :: cs => c.utf8Size + byteCount cs

/-- A cause together with the number of bytes of the text that are not consumed. -/
structure Fault where
  cause : Cause
  left : Nat

namespace Fault

/-- The fault is just before the rest of the text. -/
def before (cause : Cause) (rest : List Char) : Fault := ⟨cause, byteCount rest⟩

/-- The fault is one byte into the rest of the text, or at its end if nothing is left. -/
def past (cause : Cause) (rest : List Char) : Fault := ⟨cause, byteCount rest - 1⟩

end Fault

/-! ## Positions -/

/-- A place in a text: the number of the line, from one, and the number of bytes before the place
in that line. -/
structure Position where
  line : Nat
  column : Nat
  deriving DecidableEq

/-- The place that is the given number of bytes further on in the text that follows a place. -/
def Position.advance (p : Position) : List Char → Nat → Position
  | _, 0 => p
  | [], _ => p
  | c :: cs, n =>
    if n < c.utf8Size then ⟨p.line, p.column + n⟩
    else if c = '\n' then advance ⟨p.line + 1, 0⟩ cs (n - c.utf8Size)
    else advance ⟨p.line, p.column + c.utf8Size⟩ cs (n - c.utf8Size)

/-- A reported error: a cause, and its place if it has one. -/
structure ReadError where
  cause : Cause
  position : Option Position

namespace ReadError

/-- A fault in reading a text, with its place in that text. -/
def ofFault (text : List Char) (fault : Fault) : ReadError where
  cause := fault.cause
  position := some (Position.advance ⟨1, 0⟩ text (byteCount text - fault.left))

/-- The words for an error. -/
def message (e : ReadError) : String :=
  match e.position with
  | none => e.cause.message
  | some p =>
    let line := String.ofList (Decimal.natText p.line)
    let column := String.ofList (Decimal.natText p.column)
    s!"{e.cause.message} at line {line} column {column}"

end ReadError

end Intake.Json
