import Intake.Json.Writer

/-!
# The grammar of documents

`Denotes t v n` says that the text `t` is a value of the grammar of RFC 8259, that it denotes the
document value `v`, and that `n` containers are nested in it.  The form of a text is stated without
readers: each part is described by what its characters are, down to the blanks, the digits of both
bases and the ranges of the surrogates.  `Numeral`, `String` and `Value` are the meanings of the
three levels.  Only the number that a numeral is read as, `Numeral.toNumber`, is taken from the
reader, because no rule of the grammar says how a numeral is rounded.

A container is given by its `Piece`s, that is by its items or members with the blanks on both sides
of each.  The blanks between the brackets of an empty container belong to no piece, so a container
also has blanks of its own before the first piece.

The grammar asks two things beyond RFC 8259, both of which belong to the meaning: escaped surrogate
halves come in pairs, and the reader converts a numeral to a word or a finite double.
-/

namespace Intake.Json.Grammar

open Decimal

/-! ## Blanks -/

/-- A text of nothing but blanks. -/
def Blank (cs : List Char) : Prop := ∀ c ∈ cs, c = ' ' ∨ c = '\n' ∨ c = '\t' ∨ c = '\r'

@[simp] theorem blank_nil : Blank [] := fun _ h => absurd h List.not_mem_nil

/-! ## Numbers -/

/-- One decimal digit or more. -/
structure IsDigits (ds : List Nat) : Prop where
  ne_nil : ds ≠ []
  lt_ten : ∀ d ∈ ds, d < 10

/-- Whole digits: a zero stands in front of no other digit. -/
structure IsWhole (ds : List Nat) : Prop extends IsDigits ds where
  no_leading_zero : ds.head? = some 0 → ds = [0]

/-- The characters of a list of digits. -/
def digitsText (ds : List Nat) : List Char := ds.map digitChar

@[simp] theorem digitsText_nil : digitsText [] = [] := rfl

@[simp] theorem digitsText_cons (d : Nat) (ds : List Nat) :
    digitsText (d :: ds) = digitChar d :: digitsText ds := rfl

@[simp] theorem digitsText_append (ds es : List Nat) :
    digitsText (ds ++ es) = digitsText ds ++ digitsText es := List.map_append

@[simp] theorem digitsText_replicate_zero (k : Nat) :
    digitsText (List.replicate k 0) = List.replicate k '0' := List.map_replicate

/-- The sign of a number. -/
def minusText (negative : Bool) : List Char := if negative then ['-'] else []

@[simp] theorem minusText_true : minusText true = ['-'] := rfl

@[simp] theorem minusText_false : minusText false = [] := rfl

/-- A fraction, which may be absent. -/
inductive FractionText : List Char → Option (List Nat) → Prop
  | absent : FractionText [] none
  | present {ds : List Nat} (h : IsDigits ds) : FractionText ('.' :: digitsText ds) (some ds)

/-- The sign of an exponent: whether it is a minus. -/
inductive SignText : List Char → Bool → Prop
  | absent : SignText [] false
  | plus : SignText ['+'] false
  | minus : SignText ['-'] true

/-- An exponent, which may be absent. -/
inductive ExponentText : List Char → Option (Bool × List Nat) → Prop
  | absent : ExponentText [] none
  | present {e : Char} {sign : List Char} {negative : Bool} {ds : List Nat}
      (letter : e = 'e' ∨ e = 'E') (hs : SignText sign negative) (h : IsDigits ds) :
      ExponentText (e :: sign ++ digitsText ds) (some (negative, ds))

/-- A number, as the form that it has. -/
inductive NumeralText : List Char → Numeral → Prop
  | intro {negative : Bool} {whole : List Nat} {fraction : Option (List Nat)}
      {exponent : Option (Bool × List Nat)} {f e : List Char} (hw : IsWhole whole)
      (hf : FractionText f fraction) (he : ExponentText e exponent) :
      NumeralText (minusText negative ++ digitsText whole ++ f ++ e)
        ⟨negative, whole, fraction, exponent⟩

/-! ## Strings -/

/-- The escapes of one letter, and what they stand for. -/
def letterEscapes : List (Char × Char) :=
  [('"', '"'), ('\\', '\\'), ('/', '/'), ('b', '\x08'), ('f', '\x0c'), ('n', '\n'), ('r', '\r'),
    ('t', '\t')]

/-- The hexadecimal digits and their values. -/
def hexDigits : List (Char × Nat) :=
  [('0', 0), ('1', 1), ('2', 2), ('3', 3), ('4', 4), ('5', 5), ('6', 6), ('7', 7), ('8', 8),
    ('9', 9), ('a', 10), ('b', 11), ('c', 12), ('d', 13), ('e', 14), ('f', 15), ('A', 10),
    ('B', 11), ('C', 12), ('D', 13), ('E', 14), ('F', 15)]

/-- Four hexadecimal digits, and the number that they write. -/
inductive HexQuad : List Char → Nat → Prop
  | intro {a b c d : Char} {i j k l : Nat} (ha : (a, i) ∈ hexDigits) (hb : (b, j) ∈ hexDigits)
      (hc : (c, k) ∈ hexDigits) (hd : (d, l) ∈ hexDigits) :
      HexQuad [a, b, c, d] (0x1000 * i + 0x100 * j + 0x10 * k + l)

/-- One character of a string between its quotes: raw, by a letter, by its code point, or by the
two halves of a surrogate pair. -/
inductive CharText : List Char → Char → Prop
  | raw {c : Char} (quote : c ≠ '"') (backslash : c ≠ '\\') (control : 32 ≤ c.toNat) :
      CharText [c] c
  | letter {l c : Char} (h : (l, c) ∈ letterEscapes) : CharText ['\\', l] c
  | codePoint {quad : List Char} {n : Nat} (h : HexQuad quad n) (hn : n < 0xD800 ∨ 0xDFFF < n) :
      CharText ('\\' :: 'u' :: quad) (Char.ofNat n)
  | pair {quad quad' : List Char} {high low : Nat} (h : HexQuad quad high)
      (hhigh : 0xD800 ≤ high ∧ high ≤ 0xDBFF) (h' : HexQuad quad' low)
      (hlow : 0xDC00 ≤ low ∧ low ≤ 0xDFFF) :
      CharText ('\\' :: 'u' :: (quad ++ '\\' :: 'u' :: quad'))
        (Char.ofNat (0x10000 + (high - 0xD800) * 0x400 + (low - 0xDC00)))

/-- The characters of a string between its quotes. -/
inductive CharsText : List Char → List Char → Prop
  | nil : CharsText [] []
  | cons {t ts : List Char} {c : Char} {cs : List Char} (h : CharText t c) (hs : CharsText ts cs) :
      CharsText (t ++ ts) (c :: cs)

/-- A string with its quotes. -/
inductive StringText : List Char → String → Prop
  | intro {body : List Char} {s : String} (h : CharsText body s.toList) :
      StringText ('"' :: body ++ ['"']) s

/-! ## Pieces of a container -/

/-- A piece of a container: its text with the blanks before and after it, what the text denotes, and
how many containers are nested in it. -/
structure Piece (α : Type) where
  before : List Char
  core : List Char
  after : List Char
  value : α
  nesting : Nat

namespace Piece

variable {α : Type}

/-- The text of a piece, with its blanks. -/
def text (p : Piece α) : List Char := p.before ++ p.core ++ p.after

/-- Blanks stand around the text, and nothing else. -/
structure Framed (p : Piece α) : Prop where
  before : Blank p.before
  after : Blank p.after

end Piece

/-- The pieces of a container, separated by commas. -/
def piecesText {α : Type} (pieces : List (Piece α)) : List Char :=
  commaSeparated (pieces.map Piece.text)

/-- How many containers are nested in the pieces of a container. -/
def piecesNesting {α : Type} (pieces : List (Piece α)) : Nat :=
  (pieces.map Piece.nesting).foldr max 0

/-- A member of an object: its key, the blanks between the key and the colon, and its value as a
piece. -/
structure Member where
  before : List Char
  keyText : List Char
  key : String
  gap : List Char
  item : Piece Value

namespace Member

/-- A member as a piece of its object, which ends with the blanks after the value. -/
def piece (m : Member) : Piece (String × Value) where
  before := m.before
  core := m.keyText ++ m.gap ++ ':' :: (m.item.before ++ m.item.core)
  after := m.item.after
  value := (m.key, m.item.value)
  nesting := m.item.nesting

/-- The key is a string, and there are only blanks around the parts of the member. -/
structure Framed (m : Member) : Prop where
  before : Blank m.before
  key : StringText m.keyText m.key
  gap : Blank m.gap
  item : m.item.Framed

theorem Framed.piece {m : Member} (h : m.Framed) : m.piece.Framed := ⟨h.before, h.item.after⟩

end Member

/-! ## Values -/

/-- A text, the value that it denotes, and how many containers are nested in it. -/
inductive Denotes : List Char → Value → Nat → Prop
  | null : Denotes nullText .null 0
  | bool (b : Bool) : Denotes (boolText b) (.bool b) 0
  | number {t : List Char} {x : Numeral} {n : Number} (h : NumeralText t x)
      (hn : x.toNumber = .ok n) : Denotes t (.number n) 0
  | string {t : List Char} {s : String} (h : StringText t s) : Denotes t (.string s) 0
  | array {blanks : List Char} {items : List (Piece Value)} (hb : Blank blanks)
      (hf : ∀ p ∈ items, p.Framed) (h : ∀ p ∈ items, Denotes p.core p.value p.nesting) :
      Denotes ('[' :: (blanks ++ piecesText items) ++ [']']) (.array (items.map Piece.value))
        (piecesNesting items + 1)
  | object {blanks : List Char} {members : List Member} (hb : Blank blanks)
      (hf : ∀ m ∈ members, m.Framed)
      (h : ∀ m ∈ members, Denotes m.item.core m.item.value m.item.nesting) :
      Denotes ('{' :: (blanks ++ piecesText (members.map Member.piece)) ++ ['}'])
        (.object (Dict.ofList (members.map fun m => (m.key, m.item.value))))
        (piecesNesting (members.map Member.piece) + 1)

end Intake.Json.Grammar
