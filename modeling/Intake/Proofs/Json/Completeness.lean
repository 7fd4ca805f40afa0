import Intake.Json.Decoder
import Intake.Proofs.Json.Containers

/-!
# Reading what the grammar derives

A text of the grammar is read as the value that it denotes, up to its end, if the budget allows for
the containers nested in it; if it does not, the nesting is reported as too deep.  `value_answers`
states both by one induction on the derivation: the budget goes down by one where the nesting does.

The blanks before a value are arbitrary, because readers of values pass over them, and the rest
after it is arbitrary but for `Ends`.
-/

namespace Intake.Json

open Decimal Grammar

/-! ## Beginnings -/

theorem lead_append {bs : List Char} (hb : Blank bs) {c : Char} (hc : isBlank c = false)
    (cs : List Char) : lead (bs ++ c :: cs) = leadHere (c :: cs) := by
  rw [lead, Reader.bind_apply, blanks_append hb hc]

@[simp] theorem leadHere_null (rest : List Char) :
    leadHere (nullText ++ rest) = .ok (.null, rest) := by
  show leadHere ('n' :: (['u', 'l', 'l'] ++ rest)) = _
  rw [leadHere, if_pos rfl, Reader.map_apply, letters_append]

@[simp] theorem leadHere_bool (b : Bool) (rest : List Char) :
    leadHere (boolText b ++ rest) = .ok (.bool b, rest) := by
  cases b with
  | true =>
    show leadHere ('t' :: (['r', 'u', 'e'] ++ rest)) = _
    rw [leadHere, if_neg (by decide), if_pos rfl, Reader.map_apply, letters_append]
  | false =>
    show leadHere ('f' :: (['a', 'l', 's', 'e'] ++ rest)) = _
    rw [leadHere, if_neg (by decide), if_neg (by decide), if_pos rfl, Reader.map_apply,
      letters_append]

theorem leadHere_string {body : List Char} {s : String} (h : CharsText body s.toList)
    (rest : List Char) : leadHere ('"' :: (body ++ '"' :: rest)) = .ok (.string s, rest) := by
  rw [leadHere, if_neg (by decide), if_neg (by decide), if_neg (by decide), if_pos rfl,
    Reader.map_apply, string_append h]

/-- A number begins with a minus sign or a digit. -/
theorem numeralText_head {t : List Char} {x : Numeral} (h : NumeralText t x) :
    ∃ c cs, t = c :: cs ∧ (c = '-' ∨ (digit? c).isSome) := by
  obtain @⟨negative, whole, fraction, exponent, f, e, hw, hf, he⟩ := h
  cases negative with
  | true => exact ⟨'-', _, rfl, Or.inl rfl⟩
  | false =>
    obtain ⟨d, ds, hd, hhead⟩ := head_digitsText hw.toIsDigits (f ++ e)
    refine ⟨digitChar d, ds, ?_, Or.inr ?_⟩
    · rw [← hhead]
      simp
    · rw [digit?_digitChar hd]
      rfl

/-- The first characters of the other values begin no number. -/
theorem not_numeral_head {c : Char} (h : c = '-' ∨ (digit? c).isSome) :
    c ≠ 'n' ∧ c ≠ 't' ∧ c ≠ 'f' ∧ c ≠ '"' ∧ c ≠ '[' ∧ c ≠ '{' ∧ c ≠ ']' ∧ c ≠ '}' ∧
      isBlank c = false := by
  have hblank : isBlank c = false := by
    rw [Bool.eq_false_iff]
    intro hb
    rcases isBlank_iff.1 hb with rfl | rfl | rfl | rfl <;> exact absurd h (by decide)
  refine ⟨?_, ?_, ?_, ?_, ?_, ?_, ?_, ?_, hblank⟩ <;> (rintro rfl; exact absurd h (by decide))

theorem leadHere_of_numeral_head {t : List Char} {x : Numeral} (h : NumeralText t x)
    (rest : List Char) : leadHere (t ++ rest) = (Lead.number <$> number) (t ++ rest) := by
  obtain ⟨c, cs, rfl, hc⟩ := numeralText_head h
  obtain ⟨hn, ht, hf, hq, hs, hcurly, -, -, -⟩ := not_numeral_head hc
  rw [List.cons_append, leadHere, if_neg hn, if_neg ht, if_neg hf, if_neg hq, if_neg hs,
    if_neg hcurly, if_pos hc]

/-- A value begins with a character that is not blank and closes no container. -/
theorem denotes_head {t : List Char} {v : Value} {n : Nat} (h : Denotes t v n) :
    ∃ c cs, t = c :: cs ∧ isBlank c = false ∧ c ≠ ']' ∧ c ≠ '}' := by
  cases h with
  | null => exact ⟨'n', _, rfl, by decide⟩
  | bool b =>
    cases b with
    | true => exact ⟨'t', _, rfl, by decide⟩
    | false => exact ⟨'f', _, rfl, by decide⟩
  | number h hn =>
    obtain ⟨c, cs, rfl, hc⟩ := numeralText_head h
    obtain ⟨-, -, -, -, -, -, hs, hcurly, hb⟩ := not_numeral_head hc
    exact ⟨c, cs, rfl, hb, hs, hcurly⟩
  | string h =>
    cases h with
    | intro h => exact ⟨'"', _, rfl, by decide⟩
  | array hb hf h => exact ⟨'[', _, rfl, by decide⟩
  | object hb hf h => exact ⟨'{', _, rfl, by decide⟩

theorem lead_denotes {bs t : List Char} {v : Value} {n : Nat} (hb : Blank bs)
    (h : Denotes t v n) (rest : List Char) :
    lead (bs ++ (t ++ rest)) = leadHere (t ++ rest) := by
  obtain ⟨c, cs, rfl, hc, -, -⟩ := denotes_head h
  exact lead_append hb hc (cs ++ rest)

/-- A scalar is read in full when the beginning of its text is. -/
theorem leadHere_scalar {t : List Char} {v : Value} (h : Denotes t v 0) {rest : List Char}
    (hr : Ends rest) : leadHere (t ++ rest) = .ok (v.lead, rest) := by
  cases h with
  | null => exact leadHere_null rest
  | bool b => exact leadHere_bool b rest
  | number h hn =>
    rw [leadHere_of_numeral_head h, Reader.map_apply, number_append h hn hr]
    rfl
  | string h =>
    cases h with
    | intro h =>
      rw [List.append_assoc, List.cons_append, List.singleton_append, leadHere_string h]
      rfl

/-- Of a container only the bracket is looked at, and it stays in place. -/
theorem leadHere_container {t : List Char} {v : Value} {n : Nat} (h : Denotes t v (n + 1))
    (rest : List Char) : leadHere (t ++ rest) = .ok (v.lead, t ++ rest) := by
  cases h with
  | array hb hf h => exact leadHere_bracket_square _
  | object hb hf h => exact leadHere_bracket_curly _

theorem lead_scalar {bs t rest : List Char} {v : Value} (hb : Blank bs) (h : Denotes t v 0)
    (hr : Ends rest) : lead (bs ++ (t ++ rest)) = .ok (v.lead, rest) :=
  (lead_denotes hb h rest).trans (leadHere_scalar h hr)

theorem lead_container {bs t : List Char} {v : Value} {n : Nat} (hb : Blank bs)
    (h : Denotes t v (n + 1)) (rest : List Char) :
    lead (bs ++ (t ++ rest)) = .ok (v.lead, t ++ rest) :=
  (lead_denotes hb h rest).trans (leadHere_container h rest)

/-! ## Values -/

/-- The reader of the values in a container, if the budget allows for one. -/
def innerReader : Nat → Option (Reader Value)
  | 0 => none
  | budget + 1 => some (value budget)

theorem value_eq_valueWith (budget : Nat) : value budget = valueWith (innerReader budget) := by
  cases budget <;> rfl

/-- Reads what follows the beginning of a value. -/
def afterLead (inner : Option (Reader Value)) : Lead → Reader Value
  | .null => return .null
  | .bool b => return .bool b
  | .number n => return .number n
  | .string s => return .string s
  | .array =>
    match inner with
    | some value => .array <$> arrayOf value
    | none => failPast .tooDeep
  | .object =>
    match inner with
    | some value => .object <$> objectOf value
    | none => failPast .tooDeep

theorem value_of_lead {budget : Nat} {cs rest : List Char} {found : Lead}
    (h : lead cs = .ok (found, rest)) :
    value budget cs = afterLead (innerReader budget) found rest := by
  rw [value_eq_valueWith, valueWith, Reader.bind_apply, h]
  cases found <;> cases innerReader budget <;> rfl

/-- A scalar is the value that begins as it does. -/
theorem afterLead_scalar {t : List Char} {v : Value} (h : Denotes t v 0)
    (inner : Option (Reader Value)) (rest : List Char) :
    afterLead inner v.lead rest = .ok (v, rest) := by
  cases h <;> rfl

/-- Scalars are read whatever the budget is. -/
theorem value_scalar_answers {t : List Char} {v : Value} (h : Denotes t v 0) (budget : Nat)
    {bs rest : List Char} (hb : Blank bs) (hr : Ends rest) :
    Answers .tooDeep (0 ≤ budget) v rest (value budget (bs ++ (t ++ rest))) := by
  rw [value_of_lead (lead_scalar hb h hr), afterLead_scalar h]
  exact .read (Nat.zero_le _)

theorem key_append {t : List Char} {s : String} (h : StringText t s) (rest : List Char) :
    key (t ++ rest) = .ok (s, rest) := by
  cases h with
  | @intro body s h =>
    have htext : '"' :: body ++ ['"'] ++ rest = '"' :: (body ++ '"' :: rest) := by simp
    rw [htext, key, Reader.bind_apply, keyQuote_cons]
    exact string_append h rest

theorem colon_append {bs : List Char} (hb : Blank bs) (rest : List Char) :
    colon (bs ++ ':' :: rest) = .ok ((), rest) := by
  rw [colon, Reader.bind_apply, blanks_append hb (by decide)]
  simp only [if_true]

/-- A member is read as its value is. -/
theorem member_answers {m : Member} (hm : m.Framed) {r : Reader Value} {cause : Cause}
    {fits : Prop} {rest : List Char}
    (h : Answers cause fits m.item.value rest (r (m.item.before ++ (m.item.core ++ rest)))) :
    Answers cause fits (m.key, m.item.value) rest (member r (m.piece.core ++ rest)) := by
  have htext : m.piece.core ++ rest =
      m.keyText ++ (m.gap ++ ':' :: (m.item.before ++ (m.item.core ++ rest))) := by
    simp [Member.piece]
  rw [htext, member]
  refine Answers.bind_ok (key_append hm.key _) ?_
  refine Answers.bind_ok (colon_append hm.gap _) ?_
  exact Answers.bind h id fun hfits => .read hfits

theorem member_opens {m : Member} (hm : m.Framed) : Opens .curly m.piece.core := by
  obtain ⟨before, keyText, key, gap, item⟩ := m
  cases hm.key with
  | intro h => exact ⟨'"', _, rfl, by decide⟩

/-- The members of an object are read as their values are. -/
theorem member_readable {m : Member} (hm : m.Framed) {r : Reader Value} {cause : Cause}
    {fits : Prop}
    (h : ∀ bs rest, Blank bs → Ends rest →
      Answers cause fits m.item.value rest (r (bs ++ (m.item.core ++ rest)))) :
    Readable .curly (member r) cause fits m.piece where
  framed := hm.piece
  opens := member_opens hm
  answers rest hr := member_answers hm (h m.item.before rest hm.item.before hr)

/-- An item is read as its value is. -/
theorem item_readable {p : Piece Value} {r : Reader Value} {cause : Cause} {fits : Prop}
    (hp : p.Framed) (ho : Opens .square p.core)
    (h : ∀ bs rest, Blank bs → Ends rest →
      Answers cause fits p.value rest (r (bs ++ (p.core ++ rest)))) :
    Readable .square r cause fits p where
  framed := hp
  opens := ho
  answers rest hr := h [] rest blank_nil hr

theorem opens_square_of_denotes {t : List Char} {v : Value} {n : Nat} (h : Denotes t v n) :
    Opens .square t := by
  obtain ⟨c, cs, rfl, hc, hs, -⟩ := denotes_head h
  exact ⟨c, cs, rfl, hc, hs⟩

theorem map_value_members (members : List Member) :
    (members.map Member.piece).map Piece.value = members.map fun m => (m.key, m.item.value) := by
  rw [List.map_map]
  rfl

/-- The items between the brackets of an array are read if none of them is nested too deeply. -/
theorem arrayOf_answers {bs : List Char} (hb : Blank bs) {items : List (Piece Value)}
    (hf : ∀ p ∈ items, p.Framed) (h : ∀ p ∈ items, Denotes p.core p.value p.nesting)
    (budget : Nat)
    (ih : ∀ p ∈ items, ∀ bs rest, Blank bs → Ends rest →
      Answers .tooDeep (p.nesting ≤ budget) p.value rest (value budget (bs ++ (p.core ++ rest))))
    (rest : List Char) :
    Answers .tooDeep (piecesNesting items ≤ budget) (items.map Piece.value) rest
      (arrayOf (value budget) ('[' :: (bs ++ piecesText items) ++ ']' :: rest)) := by
  have hitems : ∀ p ∈ items,
      Readable .square (value budget) .tooDeep (p.nesting ≤ budget) p :=
    fun p hp => item_readable (hf p hp) (opens_square_of_denotes (h p hp)) (ih p hp)
  exact (piecesOf_answers hb hitems '[' rest).congr piecesNesting_le_iff.symm

/-- The members between the brackets of an object are read if none of their values is nested too
deeply. -/
theorem objectOf_answers {bs : List Char} (hb : Blank bs) {members : List Member}
    (hf : ∀ m ∈ members, m.Framed) (budget : Nat)
    (ih : ∀ m ∈ members, ∀ bs rest, Blank bs → Ends rest →
      Answers .tooDeep (m.item.nesting ≤ budget) m.item.value rest
        (value budget (bs ++ (m.item.core ++ rest))))
    (rest : List Char) :
    Answers .tooDeep (piecesNesting (members.map Member.piece) ≤ budget)
      (Dict.ofList (members.map fun m => (m.key, m.item.value))) rest
      (objectOf (value budget)
        ('{' :: (bs ++ piecesText (members.map Member.piece)) ++ '}' :: rest)) := by
  have hmembers : ∀ p ∈ members.map Member.piece,
      Readable .curly (member (value budget)) .tooDeep (p.nesting ≤ budget) p := by
    intro p hp
    obtain ⟨m, hm, rfl⟩ := List.mem_map.1 hp
    exact member_readable (hf m hm) (ih m hm)
  have hpieces := (piecesOf_answers hb hmembers '{' rest).congr piecesNesting_le_iff.symm
  rw [map_value_members] at hpieces
  exact hpieces.map Dict.ofList

/-- A value of the grammar is read if the budget allows for its nesting, and otherwise it is
reported as too deep. -/
theorem value_answers {t : List Char} {v : Value} {n : Nat} (h : Denotes t v n) (budget : Nat)
    (bs rest : List Char) (hb : Blank bs) (hr : Ends rest) :
    Answers .tooDeep (n ≤ budget) v rest (value budget (bs ++ (t ++ rest))) := by
  induction h generalizing budget bs rest with
  | null => exact value_scalar_answers .null budget hb hr
  | bool b => exact value_scalar_answers (.bool b) budget hb hr
  | number h hn => exact value_scalar_answers (.number h hn) budget hb hr
  | string h => exact value_scalar_answers (.string h) budget hb hr
  | @array blanks items hbi hf h ih =>
    have htext : '[' :: (blanks ++ piecesText items) ++ [']'] ++ rest =
        '[' :: (blanks ++ piecesText items) ++ ']' :: rest := List.append_assoc ..
    rw [value_of_lead (lead_container hb (.array hbi hf h) rest), htext]
    cases budget with
    | zero => exact .fault (Nat.not_succ_le_zero _) _
    | succ budget =>
      have hitems := arrayOf_answers hbi hf h budget (fun p hp => ih p hp budget) rest
      exact (hitems.map Value.array).congr Nat.succ_le_succ_iff.symm
  | @object blanks members hbi hf h ih =>
    have htext : '{' :: (blanks ++ piecesText (members.map Member.piece)) ++ ['}'] ++ rest =
        '{' :: (blanks ++ piecesText (members.map Member.piece)) ++ '}' :: rest :=
      List.append_assoc ..
    rw [value_of_lead (lead_container hb (.object hbi hf h) rest), htext]
    cases budget with
    | zero => exact .fault (Nat.not_succ_le_zero _) _
    | succ budget =>
      have hmembers := objectOf_answers hbi hf budget (fun m hm => ih m hm budget) rest
      exact (hmembers.map Value.object).congr Nat.succ_le_succ_iff.symm

end Intake.Json
