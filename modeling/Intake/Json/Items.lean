import Intake.Json.Numeral
import Intake.Json.Quoted

/-!
# What values are made of

A value begins with a scalar, which `lead` reads in full, or with the bracket of a container, which
it leaves in place.  Inside a container stand items with commas between them; `upTo` runs a reader
of one item up to the closing bracket, which it leaves in place too.  The item reader continues a
state, so the same loop collects the items of an array and the members of an object, passes over
either, and serves callers that stop early.

Each item takes at least one character, so a loop over the items ends within as many rounds as the
text has characters; that is the bound of `upTo`.
-/

namespace Intake.Json

/-! ## Beginnings -/

/-- Reads how a value begins: a scalar, or the bracket of a container without consuming it. -/
def leadHere : Reader Lead
  | [] => .error (.past .unfinishedValue [])
  | c :: rest =>
    if c = 'n' then ((fun _ => .null) <$> letters ['u', 'l', 'l']) rest
    else if c = 't' then ((fun _ => .bool true) <$> letters ['r', 'u', 'e']) rest
    else if c = 'f' then ((fun _ => .bool false) <$> letters ['a', 'l', 's', 'e']) rest
    else if c = '"' then (Lead.string <$> string) rest
    else if c = '[' then .ok (.array, c :: rest)
    else if c = '{' then .ok (.object, c :: rest)
    else if c = '-' ∨ (Decimal.digit? c).isSome then (Lead.number <$> number) (c :: rest)
    else .error (.past .expectedValue (c :: rest))

@[simp] theorem leadHere_bracket_square (cs : List Char) :
    leadHere ('[' :: cs) = .ok (.array, '[' :: cs) := by
  simp [leadHere]

@[simp] theorem leadHere_bracket_curly (cs : List Char) :
    leadHere ('{' :: cs) = .ok (.object, '{' :: cs) := by
  simp [leadHere]

/-- Reads how a value begins, after blanks. -/
def lead : Reader Lead := do
  blanks
  leadHere

/-- Passes over a scalar, or reads the bracket of a container without consuming it. -/
def skipLeadHere : Reader (Option Bracket)
  | [] => .error (.past .unfinishedValue [])
  | c :: rest =>
    if c = 'n' then ((fun _ => none) <$> letters ['u', 'l', 'l']) rest
    else if c = 't' then ((fun _ => none) <$> letters ['r', 'u', 'e']) rest
    else if c = 'f' then ((fun _ => none) <$> letters ['a', 'l', 's', 'e']) rest
    else if c = '"' then ((fun _ => none) <$> skipString) rest
    else if c = '[' then .ok (some .square, c :: rest)
    else if c = '{' then .ok (some .curly, c :: rest)
    else if c = '-' ∨ (Decimal.digit? c).isSome then ((fun _ => none) <$> skipNumber) (c :: rest)
    else .error (.past .expectedValue (c :: rest))

@[simp] theorem skipLeadHere_square (cs : List Char) :
    skipLeadHere ('[' :: cs) = .ok (some .square, '[' :: cs) := by
  simp [skipLeadHere]

@[simp] theorem skipLeadHere_curly (cs : List Char) :
    skipLeadHere ('{' :: cs) = .ok (some .curly, '{' :: cs) := by
  simp [skipLeadHere]

/-- Passes over a scalar, after blanks. -/
def skipLead : Reader (Option Bracket) := do
  blanks
  skipLeadHere

/-- Consumes a bracket that is known to be next. -/
def consume : Reader Unit := fun cs => .ok ((), cs.tail)

@[simp] theorem consume_cons (c : Char) (cs : List Char) : consume (c :: cs) = .ok ((), cs) := rfl

/-! ## Items -/

/-- Whether a comma before the closing bracket is a fault of its own, or is left for the reader of
the next item to complain about. -/
inductive Commas where
  | strict
  | lenient
  deriving DecidableEq

/-- After blanks, reads the beginning of a text between brackets: whether there is an item, or the
closing bracket, which stays in place. -/
def firstItem (bracket : Bracket) : Reader Bool := do
  blanks
  fun
    | [] => .error (.past (.unfinished bracket) [])
    | c :: rest => .ok (c != bracket.close, c :: rest)

/-- After blanks, reads what follows an item: a comma and the beginning of the next one, or the
closing bracket, which stays in place. -/
def nextItem (bracket : Bracket) (commas : Commas) : Reader Bool := do
  blanks
  fun
    | [] => .error (.past (.unfinished bracket) [])
    | c :: rest =>
      if c = bracket.close then .ok (false, c :: rest)
      else if c = ',' then
        (do
          blanks
          fun rest =>
            if commas = .strict ∧ rest.head? = some bracket.close then
              .error (.past .trailingComma rest)
            else .ok (true, rest) : Reader Bool) rest
      else .error (.past (.expectedSeparator bracket) (c :: rest))

/-- Runs a reader of one item while there are items, at most as often as the given count.  The
reader of the separator that comes next is given first. -/
def itemsWithin {σ : Type} (bracket : Bracket) (commas : Commas) (item : σ → Reader σ) :
    Nat → Reader Bool → σ → Reader σ
  | 0, _, _ => failPast (.unfinished bracket)
  | count + 1, separator, s => do
    if ← separator then
      let s ← item s
      itemsWithin bracket commas item count (nextItem bracket commas) s
    else return s

/-- Runs a reader of one item for all items up to the closing bracket. -/
def upTo {σ : Type} (bracket : Bracket) (commas : Commas) (item : σ → Reader σ) (s : σ) :
    Reader σ := fun cs =>
  itemsWithin bracket commas item (cs.length + 1) (firstItem bracket) s cs

/-! ## Members -/

/-- Reads the opening quote of a key.  The cause for a text that ends here is given. -/
def keyQuote (atEnd : Cause) : Reader Unit
  | [] => .error (.past atEnd [])
  | c :: rest => if c = '"' then .ok ((), rest) else .error (.past .keyNotString (c :: rest))

@[simp] theorem keyQuote_cons (atEnd : Cause) (cs : List Char) :
    keyQuote atEnd ('"' :: cs) = .ok ((), cs) := by
  rw [keyQuote, if_pos rfl]

/-- Reads the key of a member. -/
def key : Reader String := do
  keyQuote .unfinishedValue
  string

/-- Passes over the key of a member. -/
def skipKey : Reader Unit := do
  keyQuote (.unfinished .curly)
  skipString

/-- After blanks, reads the colon between key and value. -/
def colon : Reader Unit := do
  blanks
  fun
    | [] => .error (.past (.unfinished .curly) [])
    | c :: rest => if c = ':' then .ok ((), rest) else .error (.past .expectedColon (c :: rest))

end Intake.Json
