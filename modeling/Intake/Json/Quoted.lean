import Intake.Json.Reader

/-!
# Strings of a document

A string is written between quotes, and inside them a backslash begins an escape.  `unit` reads one
unit of a string after its opening quote: one character, raw or escaped, or the closing quote.
`string` reads units up to that quote.  Escapes by code point are surrogate halves or whole
characters; a high half must be followed by an escaped low half, and the two make one character.

`quoted` writes a string.  It escapes only what must be escaped, so it has one written form for each
string, while reading accepts all forms.
-/

namespace Intake.Json

/-! ## Hexadecimal escapes -/

/-- The value of a hexadecimal digit. -/
def hexDigit? (c : Char) : Option Nat :=
  let n := c.toNat
  if 48 ≤ n ∧ n ≤ 57 then some (n - 48)
  else if 97 ≤ n ∧ n ≤ 102 then some (n - 87)
  else if 65 ≤ n ∧ n ≤ 70 then some (n - 55)
  else none

/-- The number that four hexadecimal digits write. -/
def hexQuad? (a b c d : Char) : Option Nat := do
  let a ← hexDigit? a
  let b ← hexDigit? b
  let c ← hexDigit? c
  let d ← hexDigit? d
  return ((a * 16 + b) * 16 + c) * 16 + d

/-- What is wrong where four hexadecimal digits were expected.  The place is measured in bytes: the
fault is past four of them, if there are as many. -/
def hexFault (cs : List Char) : Fault :=
  if byteCount cs < 4 then ⟨.unfinishedString, 0⟩ else ⟨.invalidEscape, byteCount cs - 4⟩

/-- Reads four hexadecimal digits. -/
def hexQuad : Reader Nat
  | a :: b :: c :: d :: rest =>
    match hexQuad? a b c d with
    | some n => .ok (n, rest)
    | none => .error (hexFault (a :: b :: c :: d :: rest))
  | cs => .error (hexFault cs)

/-! ## Surrogates -/

/-- The numbers that are the first half of a pair. -/
abbrev IsHighHalf (n : Nat) : Prop := 0xD800 ≤ n ∧ n ≤ 0xDBFF

/-- The numbers that are the second half of a pair. -/
abbrev IsLowHalf (n : Nat) : Prop := 0xDC00 ≤ n ∧ n ≤ 0xDFFF

/-- The character that two halves make. -/
def ofHalves (high low : Nat) : Char :=
  Char.ofNat (0x10000 + (high - 0xD800) * 0x400 + (low - 0xDC00))

/-- Reads the beginning of an escape by code point, after a high half. -/
def secondEscape : Reader Unit
  | '\\' :: 'u' :: rest => .ok ((), rest)
  | [] => .error (.before .unfinishedString [])
  | ['\\'] => .error (.before .unfinishedString [])
  | '\\' :: rest => .error (.past .unpairedSurrogate rest)
  | rest => .error (.past .unpairedSurrogate rest)

/-- Reads the escape of a low half, after a high half. -/
def lowHalf (high : Nat) : Reader Char := do
  secondEscape
  let low ← hexQuad
  if IsLowHalf low then return ofHalves high low else fail .loneSurrogate

/-- Reads what follows the letter of an escape by code point. -/
def codePoint : Reader Char := do
  let n ← hexQuad
  if IsLowHalf n then fail .loneSurrogate
  else if IsHighHalf n then lowHalf n
  else return Char.ofNat n

/-! ## Units of a string -/

/-- The character that a one-letter escape stands for. -/
def letterEscape? : Char → Option Char
  | '"' => some '"'
  | '\\' => some '\\'
  | '/' => some '/'
  | 'b' => some '\x08'
  | 'f' => some '\x0c'
  | 'n' => some '\n'
  | 'r' => some '\r'
  | 't' => some '\t'
  | _ => none

/-- Reads what follows a backslash. -/
def escape : Reader Char
  | [] => .error (.before .unfinishedString [])
  | c :: rest =>
    if c = 'u' then codePoint rest
    else match letterEscape? c with
      | some e => .ok (e, rest)
      | none => .error (.past .invalidEscape (c :: rest))

/-- Reads one character of a string, or its closing quote. -/
def unit : Reader (Option Char)
  | [] => .error (.before .unfinishedString [])
  | c :: rest =>
    if c = '"' then .ok (none, rest)
    else if c = '\\' then (some <$> escape) rest
    else if c.toNat < 32 then .error (.before .controlCharacter rest)
    else .ok (some c, rest)

@[simp] theorem unit_quote (rest : List Char) : unit ('"' :: rest) = .ok (none, rest) := by
  rw [unit, if_pos rfl]

@[simp] theorem unit_backslash (cs : List Char) : unit ('\\' :: cs) = (some <$> escape) cs := by
  rw [unit, if_neg (by decide), if_pos rfl]

/-- Reads units until there is none, at most as many as the given count. -/
def units {α : Type} (unit : Reader (Option α)) : Nat → Reader (List α)
  | 0 => fail .unfinishedString
  | count + 1 => do
    match ← unit with
    | none => return []
    | some a => return a :: (← units unit count)

/-- Reads a string after its opening quote.  Each unit takes a character of the text, so there are
no more of them than characters. -/
def string : Reader String := fun cs => (String.ofList <$> units unit cs.length) cs

/-! ## Strings that are not wanted -/

/-- Passes over what follows a backslash.  Halves of pairs may stand alone. -/
def skipEscape : Reader Unit
  | [] => .error (.before .unfinishedString [])
  | c :: rest =>
    if c = 'u' then (discard hexQuad) rest
    else if (letterEscape? c).isSome then .ok ((), rest)
    else .error (.past .invalidEscape (c :: rest))

/-- Passes over one character of a string, or its closing quote.  A control character is reported
before it and not after it. -/
def skipUnit : Reader (Option Unit)
  | [] => .error (.before .unfinishedString [])
  | c :: rest =>
    if c = '"' then .ok (none, rest)
    else if c = '\\' then (some <$> skipEscape) rest
    else if c.toNat < 32 then .error (.before .controlCharacter (c :: rest))
    else .ok (some (), rest)

@[simp] theorem skipUnit_quote (rest : List Char) : skipUnit ('"' :: rest) = .ok (none, rest) := by
  rw [skipUnit, if_pos rfl]

@[simp] theorem skipUnit_backslash (cs : List Char) :
    skipUnit ('\\' :: cs) = (some <$> skipEscape) cs := by
  rw [skipUnit, if_neg (by decide), if_pos rfl]

/-- Passes over a string after its opening quote. -/
def skipString : Reader Unit := fun cs => (discard (units skipUnit cs.length)) cs

/-! ## Writing -/

/-- One character of a string in a document. -/
def quotedChar (c : Char) : List Char :=
  if c = '"' ∨ c = '\\' then ['\\', c]
  else if c = '\x08' then ['\\', 'b']
  else if c = '\x0c' then ['\\', 'f']
  else if c = '\n' then ['\\', 'n']
  else if c = '\r' then ['\\', 'r']
  else if c = '\t' then ['\\', 't']
  else if c.toNat < 32 then
    ['\\', 'u', '0', '0', Text.hexDigit (c.toNat / 16), Text.hexDigit (c.toNat % 16)]
  else [c]

/-- A string in a document. -/
def quoted (s : String) : List Char := '"' :: s.toList.flatMap quotedChar ++ ['"']

end Intake.Json
