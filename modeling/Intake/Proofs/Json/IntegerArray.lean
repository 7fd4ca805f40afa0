import Intake.Proofs.Json.Decoding
import Intake.Proofs.Json.DoubleLiteral

/-!
# Arrays of integer literals

`IntegerArray t xs` says that `t` is the text of an array whose elements are integer literals, and
that `xs` are those literals.  Such a text is decoded as the list of the numbers that its literals
are read as.  A literal may have no number, because the double that it is scaled to is infinite;
then the text is refused, and for no other cause.

Scaling rounds more than once, so a literal may be refused although the double nearest to it is
finite.  This happens only close to the greatest double: a literal up to `Binary64.safeLimit`, which
is less than three places below it, has a number.
-/

namespace Intake.Json

open Decimal Grammar

/-! ## Arrays of literals -/

/-- The text of an array whose elements are integer literals, and the literals. -/
inductive IntegerArray : List Char → List Numeral → Prop
  | intro {before blanks after : List Char} {items : List (Piece Numeral)} (hb : Blank before)
      (hbi : Blank blanks) (ha : Blank after) (hf : ∀ p ∈ items, p.Framed)
      (h : ∀ p ∈ items, NumeralText p.core p.value ∧ p.value.IsInteger) :
      IntegerArray (before ++ '[' :: (blanks ++ piecesText items) ++ ']' :: after)
        (items.map Piece.value)

/-- The sum of the integers that literals write. -/
def literalSum (xs : List Numeral) : Int := xs.foldl (fun sum x => sum + x.intValue) 0

theorem isInteger_of_integerArray {t : List Char} {xs : List Numeral} (h : IntegerArray t xs) :
    ∀ x ∈ xs, x.IsInteger := by
  obtain @⟨before, blanks, after, items, hb, hbi, ha, hf, h⟩ := h
  intro x hx
  obtain ⟨p, hp, rfl⟩ := List.mem_map.1 hx
  exact (h p hp).2

/-- The value that a numeral is read as, or null if the reader does not convert it. -/
def Numeral.toValue (x : Numeral) : Value :=
  match x.toNumber with
  | .ok n => .number n
  | .error _ => .null

/-- The reader converts the numeral to a number. -/
def Numeral.HasNumber (x : Numeral) : Prop := ∃ n, x.toNumber = .ok n

theorem Numeral.toValue_eq {x : Numeral} {n : Number} (h : x.toNumber = .ok n) :
    x.toValue = .number n := by
  rw [toValue, h]

theorem Numeral.hasNumber_iff {x : Numeral} : x.HasNumber ↔ ∃ n, x.toValue = .number n := by
  unfold HasNumber toValue
  cases x.toNumber <;> simp

theorem Numeral.hasNumber_iff_isOk {x : Numeral} :
    x.HasNumber ↔ x.toNumber.isOk = true := by
  unfold HasNumber
  cases x.toNumber <;> simp [Except.isOk, Except.toBool]

instance : DecidablePred Numeral.HasNumber := fun _ =>
  decidable_of_iff _ Numeral.hasNumber_iff_isOk.symm

theorem Numeral.IsExact.hasNumber {x : Numeral} (hx : x.IsExact) (h : x.IsInteger) :
    x.HasNumber := ⟨_, toNumber_of_isExact h hx⟩

/-- An integer literal has a number, if what it writes is safe from overflow. -/
theorem Numeral.hasNumber_of_isInteger {x : Numeral} (h : x.IsInteger)
    (hle : Decimal.value x.whole ≤ Binary64.safeLimit) : x.HasNumber :=
  exists_toNumber_of_isInteger h hle

/-- The greatest double is nearest to this literal, which has the shortest digits of that double and
zeros after them.  But the digits are rounded before they are scaled, and then it is infinite. -/
example : ¬ Numeral.HasNumber
    ⟨false, digits 17976931348623157 ++ List.replicate 292 0, none, none⟩ := by decide +kernel

theorem opens_of_numeralText {t : List Char} {x : Numeral} (h : NumeralText t x) :
    Opens .square t := by
  obtain ⟨c, cs, rfl, hc⟩ := numeralText_head h
  obtain ⟨-, -, -, -, -, -, hs, -, hb⟩ := not_numeral_head hc
  exact ⟨c, cs, rfl, hb, hs⟩

/-- A numeral is read as its number, and a numeral without one is a fault. -/
theorem value_numeral_answers {t : List Char} {x : Numeral} (h : NumeralText t x) (budget : Nat)
    (rest : List Char) (hr : Ends rest) :
    Answers .numberOutOfRange (∃ n, x.toValue = .number n) x.toValue rest
      (value budget (t ++ rest)) := by
  have hlead : lead (t ++ rest) = (Lead.number <$> number) (t ++ rest) := by
    obtain ⟨c, cs, hcs, hb, -⟩ := opens_of_numeralText h
    rw [← leadHere_of_numeral_head h, hcs]
    exact lead_append blank_nil hb (cs ++ rest)
  cases hn : x.toNumber with
  | ok n =>
    rw [Reader.map_apply, number_append h hn hr] at hlead
    rw [value_of_lead hlead, Numeral.toValue_eq hn]
    exact .read ⟨n, rfl⟩
  | error unread =>
    rw [Reader.map_apply, number_append_error h hn hr] at hlead
    have hvalue : value budget (t ++ rest) =
        .error ⟨.numberOutOfRange, byteCount rest + unread⟩ := by
      rw [value_eq_valueWith, valueWith, Reader.bind_apply, hlead]
    rw [hvalue]
    refine .fault ?_ _
    rw [← Numeral.hasNumber_iff]
    rintro ⟨n, hok⟩
    rw [hn] at hok
    exact absurd hok (by simp)

/-- The piece of an array that a literal is, with the value that it is read as. -/
def literalPiece (p : Piece Numeral) : Piece Value :=
  ⟨p.before, p.core, p.after, p.value.toValue, 0⟩

/-- A text of literals is decoded if each of them has a number. -/
theorem list_fromText_integerArray {t : List Char} {xs : List Numeral} (h : IntegerArray t xs) :
    ((∀ x ∈ xs, x.HasNumber) → Decoder.list.fromText t = .ok (xs.map Numeral.toValue)) ∧
      (¬ (∀ x ∈ xs, x.HasNumber) →
        ∃ e, Decoder.list.fromText t = .error e ∧ e.cause = .numberOutOfRange) := by
  obtain @⟨before, blanks, after, items, hb, hbi, ha, hf, h⟩ := h
  have hreadable : ∀ q ∈ items.map literalPiece,
      Readable .square (value 126) .numberOutOfRange (∃ n, q.value = .number n) q := by
    intro q hq
    obtain ⟨p, hp, rfl⟩ := List.mem_map.1 hq
    exact ⟨⟨(hf p hp).before, (hf p hp).after⟩, opens_of_numeralText (h p hp).1,
      fun rest hr => value_numeral_answers (h p hp).1 126 rest hr⟩
  have htext : piecesText (items.map literalPiece) = piecesText items := by
    rw [piecesText, piecesText, List.map_map]
    rfl
  have hvalues : (items.map literalPiece).map Piece.value =
      (items.map Piece.value).map Numeral.toValue := by
    rw [List.map_map, List.map_map]
    rfl
  have hfits : (∀ q ∈ items.map literalPiece, ∃ n, q.value = .number n) ↔
      ∀ x ∈ items.map Piece.value, x.HasNumber := by
    rw [List.forall_mem_map, List.forall_mem_map]
    exact forall₂_congr fun p _ => Numeral.hasNumber_iff.symm
  have hread := (list_read_answers hb hbi hreadable after).congr hfits
  rw [htext, hvalues] at hread
  exact fromText_of_answers ha hread

/-! ## Written arrays -/

/-- An integer as an element of an array, written without blanks. -/
def writtenLiteral (v : Int) : Piece Numeral := ⟨[], intText v, [], writtenNumeral v, 0⟩

/-- The written form of a list of integers is an array of literals. -/
theorem integerArray_written (vs : List Int) :
    IntegerArray (bracketed (vs.map intText)) (vs.map writtenNumeral) := by
  have htext : piecesText (vs.map writtenLiteral) = commaSeparated (vs.map intText) := by
    rw [piecesText, List.map_map]
    congr 1
    refine List.map_congr_left fun v _ => ?_
    exact List.append_nil _
  have hvalues : (vs.map writtenLiteral).map Piece.value = vs.map writtenNumeral := by
    rw [List.map_map]
    rfl
  have hpieces : ∀ p ∈ vs.map writtenLiteral,
      p.Framed ∧ NumeralText p.core p.value ∧ p.value.IsInteger := by
    intro p hp
    obtain ⟨v, -, rfl⟩ := List.mem_map.1 hp
    exact ⟨⟨blank_nil, blank_nil⟩, numeralText_intText v, isInteger_writtenNumeral v⟩
  have harray := IntegerArray.intro blank_nil blank_nil blank_nil
    (fun p hp => (hpieces p hp).1) (fun p hp => (hpieces p hp).2)
  rwa [htext, hvalues] at harray

end Intake.Json
