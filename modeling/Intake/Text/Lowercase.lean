import Intake.Text.CharTable

/-!
# Lower case

A string is put in lower case character by character, each by its own mapping.  Two characters are
exceptions.  The capital I with a dot becomes two characters.  The capital sigma becomes the final
sigma at the end of a word and the other sigma elsewhere: it is final when, characters that do not
count set aside, a cased character stands before it and none after it.

The characters before a sigma are kept in reverse order, so what stands before it is looked at in
the same way as what stands after it.
-/

namespace Intake.Text

/-- The first character that counts for the end of a word, if there is one, is cased. -/
def startsCased : List Char → Bool
  | [] => false
  | c :: cs => if isIgnorable c then startsCased cs else isCased c

/-- Whether a sigma is final between what stands before it, in reverse order, and what stands
after it. -/
def isFinal (before after : List Char) : Bool := startsCased before && !startsCased after

/-- The lower case of a character whose mapping does not depend on its place. -/
def lowerChar (c : Char) : List Char :=
  if c = 'İ' then ['i', '\u0307'] else [lowerMapping c]

/-- The lower case of the characters that follow others, which are given in reverse order. -/
def lowerFrom (before : List Char) : List Char → List Char
  | [] => []
  | c :: after =>
    (if c = 'Σ' then [if isFinal before after then 'ς' else 'σ'] else lowerChar c) ++
      lowerFrom (c :: before) after

/-- A string in lower case. -/
def lowercase (s : String) : String := String.ofList (lowerFrom [] s.toList)

end Intake.Text
