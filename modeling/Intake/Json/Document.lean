import Intake.Json.Items
import Intake.Json.Value

/-!
# Documents

`value` reads one value at the front of a text and `document` a whole text.  A value may nest
containers as deep as its budget allows; the recursion is on that budget, so a value inside a
container is read by the reader with one less.  `skip` passes over a value that is not wanted, with
its own more lenient rules for numbers and strings and with no bound on the depth but the length of
the text.
-/

namespace Intake.Json

/-! ## Containers -/

/-- Reads the items of an array, from its bracket on. -/
def arrayOf {α : Type} (item : Reader α) : Reader (List α) := do
  consume
  let reversed ← upTo .square .strict (fun done => (· :: done) <$> item) []
  consume
  return reversed.reverse

/-- Reads a member whose value is read by the given reader. -/
def member {α : Type} (item : Reader α) : Reader (String × α) := do
  let k ← key
  colon
  let a ← item
  return (k, a)

/-- Reads the members of an object, from its bracket on. -/
def membersOf {α : Type} (item : Reader α) : Reader (List (String × α)) := do
  consume
  let reversed ← upTo .curly .strict (fun done => (· :: done) <$> member item) []
  consume
  return reversed.reverse

/-- Reads an object, from its bracket on.  Of several members with one key the last one stays. -/
def objectOf {α : Type} (item : Reader α) : Reader (Dict α) := Dict.ofList <$> membersOf item

/-! ## Values -/

/-- Reads a value, with the given reader for the values in it, if it may hold any. -/
def valueWith (inner : Option (Reader Value)) : Reader Value := do
  match ← lead, inner with
  | .null, _ => return .null
  | .bool b, _ => return .bool b
  | .number n, _ => return .number n
  | .string s, _ => return .string s
  | .array, some value => return .array (← arrayOf value)
  | .object, some value => return .object (← objectOf value)
  | .array, none => failPast .tooDeep
  | .object, none => failPast .tooDeep

/-- Reads a value that nests at most the given number of containers. -/
def value : Nat → Reader Value
  | 0 => valueWith none
  | budget + 1 => valueWith (some (value budget))

/-- The number of containers that may be nested in a document. -/
def nestingLimit : Nat := 127

/-! ## Values that are not wanted -/

/-- Passes over a value, with the given reader for the values in it, if it may hold any. -/
def skipWith (inner : Option (Reader Unit)) : Reader Unit := do
  match ← skipLead, inner with
  | none, _ => return ()
  | some .square, some skip =>
    consume
    upTo .square .lenient (fun _ => skip) ()
    consume
  | some .curly, some skip =>
    consume
    upTo .curly .lenient (fun _ => do skipKey; colon; skip) ()
    consume
  | some _, none => failPast .tooDeep

/-- Passes over a value that nests at most the given number of containers. -/
def skipWithin : Nat → Reader Unit
  | 0 => skipWith none
  | budget + 1 => skipWith (some (skipWithin budget))

/-- Passes over a value.  It cannot nest more containers than the text has characters. -/
def skip : Reader Unit := fun cs => skipWithin cs.length cs

/-! ## Whole texts -/

/-- Fails unless only blanks are left. -/
def atEnd : Reader Unit := do
  blanks
  fun
    | [] => .ok ((), [])
    | c :: rest => .error (.past .trailingText (c :: rest))

/-- Reads a whole text with a reader, and nothing but blanks after it. -/
def readAll {α : Type} (reader : Reader α) (text : List Char) : Except ReadError α :=
  match (do let a ← reader; atEnd; return a : Reader α) text with
  | .ok (a, _) => .ok a
  | .error fault => .error (.ofFault text fault)

/-- Reads a document. -/
def document (text : List Char) : Except ReadError Value := readAll (value nestingLimit) text

end Intake.Json
