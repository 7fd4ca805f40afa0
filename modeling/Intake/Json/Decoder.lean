import Intake.Json.Document

/-!
# Decoding into types

A `Decoder` reads a value of a type from a text, and independently takes it from a document value
that has been read before.  Both answers may be a refusal: the text is a value, but not of the type.
In a text most refusals are faults with a place.  Those of a record as a whole have no place of
their own, and get one only when the record ends, so a reader answers a refusal as a result beside
the rest of the text: `Verdict`.

Scalars are decoded from how a value begins, by one function for both ways.  Records of two fields,
`Fields`, may be written as objects, with unknown members passed over, or as arrays of their
fields.
-/

namespace Intake.Json

/-- A result, or the cause for which there is none. -/
abbrev Verdict (α : Type) := Except Cause α

/-- How a type is read from a text, and how it is taken from a value. -/
structure Decoder (α : Type) where
  /-- Reads the type from a text, nesting at most the given number of containers. -/
  read : Nat → Reader (Verdict α)
  /-- Takes the type from a value. -/
  ofValue : Value → Verdict α

/-! ## Scalars -/

/-- How a value begins when it is written. -/
def Value.lead : Value → Lead
  | null => .null
  | bool b => .bool b
  | number n => .number n
  | string s => .string s
  | array _ => .array
  | object _ => .object

/-- Turns a refusal into a fault at the front of the text. -/
def orFail {α : Type} : Verdict α → Reader α
  | .ok a => pure a
  | .error cause => fail cause

namespace Decoder

/-- A type that is decided by how a value begins. -/
def ofLead {α : Type} (accept : Lead → Verdict α) : Decoder α where
  read _ := do
    let found ← Json.lead
    return .ok (← orFail (accept found))
  ofValue v := accept v.lead

/-- Truth values. -/
def bool : Decoder Bool := ofLead fun
  | .bool b => .ok b
  | found => .error (.invalidType found "a boolean")

/-- Strings. -/
def string : Decoder String := ofLead fun
  | .string s => .ok s
  | found => .error (.invalidType found "a string")

/-- Exact integers within limits, for a type with the given name. -/
def integer (name : String) (least greatest : Int) : Decoder Int := ofLead fun
  | .number (.integer v _) =>
    if least ≤ v ∧ v ≤ greatest then .ok v else .error (.invalidValue v name)
  | found => .error (.invalidType found name)

/-- The decoder for a type that another one maps to. -/
def map {α β : Type} (f : α → β) (d : Decoder α) : Decoder β where
  read budget := Except.map f <$> d.read budget
  ofValue v := (d.ofValue v).map f

/-- Signed words. -/
def int64 : Decoder Int64 :=
  (integer "i64" (-0x8000000000000000) 0x7FFFFFFFFFFFFFFF).map Int64.ofInt

/-- Unsigned words. -/
def uint64 : Decoder UInt64 :=
  (integer "u64" 0 0xFFFFFFFFFFFFFFFF).map fun v => UInt64.ofNat v.toNat

/-- Counts, which are unsigned words too. -/
def count : Decoder Nat := (integer "usize" 0 0xFFFFFFFFFFFFFFFF).map Int.toNat

/-! ## Values -/

/-- Any value. -/
def value : Decoder Value where
  read budget := .ok <$> Json.value budget
  ofValue v := .ok v

/-- The values of which something can be made, by a function that is given the value as a whole. -/
def ofWhole {α : Type} (accept : Value → Verdict α) : Decoder α where
  read budget := accept <$> Json.value budget
  ofValue := accept

/-- The first of several types that takes a value.  The value is read as a whole before any of them
is tried, and why they refuse it is not told. -/
def firstOf {α : Type} (name : String) (alternatives : List (Decoder α)) : Decoder α :=
  ofWhole fun v =>
    (alternatives.findSome? fun d => (d.ofValue v).toOption).elim (.error (.noAlternative name)) .ok

/-- Dictionaries of values. -/
def dict : Decoder (Dict Value) where
  read budget := do
    match ← Json.lead, budget with
    | .object, inner + 1 => return .ok (← objectOf (Json.value inner))
    | .object, 0 => failPast .tooDeep
    | found, _ => fail (.invalidType found "a map")
  ofValue
    | .object entries => .ok entries
    | v => .error (.invalidType v.lead "a map")

/-- Lists of values. -/
def list : Decoder (List Value) where
  read budget := do
    match ← Json.lead, budget with
    | .array, inner + 1 => return .ok (← arrayOf (Json.value inner))
    | .array, 0 => failPast .tooDeep
    | found, _ => fail (.invalidType found "a sequence")
  ofValue
    | .array items => .ok items
    | v => .error (.invalidType v.lead "a sequence")

/-! ## Whole texts -/

/-- Decodes a whole text.  A refusal has no place. -/
def fromText {α : Type} (d : Decoder α) (text : List Char) : Except ReadError α :=
  match d.read nestingLimit text with
  | .error fault => .error (.ofFault text fault)
  | .ok (.error cause, _) => .error ⟨cause, none⟩
  | .ok (.ok a, rest) =>
    match atEnd rest with
    | .error fault => .error (.ofFault text fault)
    | .ok _ => .ok a

/-- Reads a whole text as a document and decodes the value.  A refusal has no place. -/
def fromTextByValue {α : Type} (d : Decoder α) (text : List Char) : Except ReadError α := do
  let v ← document text
  match d.ofValue v with
  | .error cause => .error ⟨cause, none⟩
  | .ok a => .ok a

end Decoder

/-! ## Records of two fields -/

/-- A record of two fields: its name, the names of its fields in order, and their types. -/
structure Fields (α β : Type) where
  name : String
  first : String
  second : String
  firstType : Decoder α
  secondType : Decoder β

namespace Fields

variable {α β : Type} (f : Fields α β)

/-- What has been read of the fields. -/
abbrev Seen (α β : Type) := Option α × Option β

/-- The record of the fields, if none of them is missing. -/
def complete : Seen α β → Verdict (α × β)
  | (some a, some b) => .ok (a, b)
  | (none, _) => .error (.missingField f.first)
  | (some _, none) => .error (.missingField f.second)

/-- The cause for a list with too few items. -/
def tooShort (length : Nat) : Cause := .invalidLength length (f.name ++ " with 2 elements")

/-! ### From a value -/

/-- Takes one entry of an object: a field, or an unknown key. -/
def addEntry (seen : Seen α β) (entry : String × Value) : Verdict (Seen α β) := do
  if entry.1 = f.first then return (some (← f.firstType.ofValue entry.2), seen.2)
  else if entry.1 = f.second then return (seen.1, some (← f.secondType.ofValue entry.2))
  else return seen

/-- Takes the record from a value: an object with entries in the order of the keys, or an array of
exactly the two fields. -/
def ofValue : Value → Verdict (α × β)
  | .object entries => do f.complete (← entries.entries.foldlM f.addEntry (none, none))
  | .array [] => .error (f.tooShort 0)
  | .array [v] => do
    let _ ← f.firstType.ofValue v
    .error (f.tooShort 1)
  | .array (v :: w :: more) => do
    let a ← f.firstType.ofValue v
    let b ← f.secondType.ofValue w
    if more.isEmpty then .ok (a, b)
    else .error (.invalidLength (more.length + 2) "fewer elements in array")
  | v => .error (.invalidType v.lead f.name)

/-! ### From a text -/

/-- Reads the value of a field, after its key. -/
def field {γ : Type} (d : Decoder γ) (budget : Nat) : Reader (Verdict γ) := do
  colon
  d.read budget

/-- Reads a member: a field that was not seen before, or an unknown one, which is passed over.  A
field that was seen before is refused on sight of its key. -/
def addMember (budget : Nat) (seen : Seen α β) : Reader (Verdict (Seen α β)) := do
  let k ← key
  if k = f.first then
    if seen.1.isSome then return .error (.duplicateField f.first)
    else return (← field f.firstType budget).map fun a => (some a, seen.2)
  else if k = f.second then
    if seen.2.isSome then return .error (.duplicateField f.second)
    else return (← field f.secondType budget).map fun b => (seen.1, some b)
  else
    colon
    skip
    return .ok seen

/-- Reads members while there are any and none is refused, at most as many as the given count. -/
def membersWithin (budget : Nat) : Nat → Reader Bool → Seen α β → Reader (Verdict (Seen α β))
  | 0, _, _ => failPast (.unfinished .curly)
  | count + 1, separator, seen => do
    if ← separator then
      match ← f.addMember budget seen with
      | .ok seen => membersWithin budget count (nextItem .curly .strict) seen
      | .error cause => return .error cause
    else return .ok seen

/-- Reads what stands between the brackets of an object. -/
def fromMembers (budget : Nat) : Reader (Verdict (α × β)) := fun cs =>
  (do
    let seen ← f.membersWithin budget (cs.length + 1) (firstItem .curly) (none, none)
    return seen.bind f.complete : Reader (Verdict (α × β))) cs

/-- Reads what stands between the brackets of an array. -/
def fromItems (budget : Nat) : Reader (Verdict (α × β)) := do
  if !(← firstItem .square) then return .error (f.tooShort 0)
  match ← f.firstType.read budget with
  | .error cause => return .error cause
  | .ok a =>
    if !(← nextItem .square .strict) then return .error (f.tooShort 1)
    return (← f.secondType.read budget).map fun b => (a, b)

/-- Ends the text between brackets: what is left of the text then, and a cause if something stands
where the closing bracket should.  After a list a comma is consumed before that is decided. -/
def ending (bracket : Bracket) (cs : List Char) : List Char × Option Cause :=
  match cs.dropWhile isBlank with
  | [] => ([], some (.unfinished bracket))
  | c :: rest =>
    if c = bracket.close then (rest, none)
    else if c = ',' then
      match bracket with
      | .curly => (c :: rest, some .trailingComma)
      | .square =>
        let rest := rest.dropWhile isBlank
        (rest, some (if rest.head? = some bracket.close then .trailingComma else .trailingText))
    else (c :: rest, some .trailingText)

/-- Reads the text between brackets and its end.  A refusal gets its place only then, whether or not
the end is as it should be. -/
def enclosed {γ : Type} (bracket : Bracket) (body : Reader (Verdict γ)) : Reader γ := do
  consume
  let verdict ← body
  fun cs =>
    match verdict, ending bracket cs with
    | .error cause, (rest, _) => .error (.before cause rest)
    | .ok _, (rest, some cause) => .error (.past cause rest)
    | .ok a, (rest, none) => .ok (a, rest)

/-- The record as a type to decode. -/
def decoder : Decoder (α × β) where
  read budget := do
    match ← lead, budget with
    | .object, inner + 1 => .ok <$> enclosed .curly (f.fromMembers inner)
    | .array, inner + 1 => .ok <$> enclosed .square (f.fromItems inner)
    | .object, 0 => failPast .tooDeep
    | .array, 0 => failPast .tooDeep
    | found, _ => fail (.invalidType found f.name)
  ofValue := f.ofValue

end Fields

end Intake.Json
