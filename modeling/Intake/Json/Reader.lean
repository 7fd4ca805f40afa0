import Intake.Json.Fault

/-!
# Readers

A reader takes a text from its front and answers with a result and the rest of the text, or with a
fault.  Readers are sequenced in the state monad over the text, so what they have in common is
written here and nowhere repeated: failing at the front, passing over blanks, and reading one of
the words.

The first lemmas say what sequencing means for a successful reading, so later proofs take readings
apart without unfolding the monad.
-/

namespace Intake.Json

/-- A reader of something at the front of a text. -/
abbrev Reader := StateT (List Char) (Except Fault)

namespace Reader

variable {α β : Type}

@[simp] theorem pure_apply (a : α) (cs : List Char) : (pure a : Reader α) cs = .ok (a, cs) := rfl

theorem bind_apply (x : Reader α) (f : α → Reader β) (cs : List Char) :
    (x >>= f) cs =
      match x cs with
      | .error fault => .error fault
      | .ok (a, rest) => f a rest := by
  show (x cs >>= fun p => f p.1 p.2) = _
  cases x cs <;> rfl

/-- A sequence reads something exactly when its two parts do so one after the other. -/
theorem bind_eq_ok_iff {x : Reader α} {f : α → Reader β} {cs : List Char} {b : β × List Char} :
    (x >>= f) cs = .ok b ↔ ∃ a rest, x cs = .ok (a, rest) ∧ f a rest = .ok b := by
  rw [bind_apply]
  cases x cs with
  | error fault => simp
  | ok p =>
    obtain ⟨a, rest⟩ := p
    constructor
    · exact fun h => ⟨a, rest, rfl, h⟩
    · rintro ⟨_, _, h, hb⟩
      cases h
      exact hb

theorem map_apply (f : α → β) (x : Reader α) (cs : List Char) :
    (f <$> x) cs = match x cs with
      | .error fault => .error fault
      | .ok (a, rest) => .ok (f a, rest) := by
  show (x cs >>= fun p => pure (f p.1, p.2)) = _
  cases x cs <;> rfl

end Reader

/-! ## Front of a text -/

/-- Fails at the front of the text. -/
def fail {α : Type} (cause : Cause) : Reader α := fun cs => .error (.before cause cs)

/-- Fails one byte into the text. -/
def failPast {α : Type} (cause : Cause) : Reader α := fun cs => .error (.past cause cs)

/-- The characters that may stand between the parts of a document. -/
def isBlank (c : Char) : Bool := c = ' ' || c = '\n' || c = '\t' || c = '\r'

/-- Passes over blanks. -/
def blanks : Reader Unit := fun cs => .ok ((), cs.dropWhile isBlank)

/-- Reads the given letters. -/
def letters : List Char → Reader Unit
  | [], cs => .ok ((), cs)
  | _ :: _, [] => .error (.before .unfinishedValue [])
  | letter :: more, c :: rest =>
    if c = letter then letters more rest else .error (.past .expectedWord (c :: rest))

@[simp] theorem letters_append (ls rest : List Char) :
    letters ls (ls ++ rest) = .ok ((), rest) := by
  induction ls with
  | nil => rfl
  | cons l ls ih => rw [List.cons_append, letters, if_pos rfl, ih]

end Intake.Json
