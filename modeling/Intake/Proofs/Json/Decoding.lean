import Intake.Proofs.Json.Completeness

/-!
# Decoding what the grammar derives

At the top of a text the brackets of an object or an array are read by the decoder of dictionaries
or of lists, and what stands between them by the readers of values.  So what these decoders answer
on a text of the grammar follows from what the readers answer on its pieces.  A whole text is
decoded as its beginning is, if only blanks are left after that.
-/

namespace Intake.Json

open Grammar

/-! ## Whole texts -/

theorem blank_of_dropWhile {bs : List Char} (hb : Blank bs) : bs.dropWhile isBlank = [] := by
  have h := dropWhile_blank_append hb []
  rwa [List.append_nil] at h

theorem atEnd_blank {bs : List Char} (hb : Blank bs) : atEnd bs = .ok ((), []) := by
  rw [atEnd, Reader.bind_apply, blanks, blank_of_dropWhile hb]

theorem ends_blank {bs : List Char} (hb : Blank bs) : Ends bs := by
  have h := ends_blank_append hb ends_nil
  rwa [List.append_nil] at h

/-- A whole text is decoded as its reader answers, if only blanks are left. -/
theorem fromText_of_answers {α : Type} {d : Decoder α} {cause : Cause} {fits : Prop} {a : α}
    {text rest : List Char} (hb : Blank rest)
    (h : Answers cause fits (.ok a) rest (d.read nestingLimit text)) :
    (fits → d.fromText text = .ok a) ∧
      (¬ fits → ∃ e, d.fromText text = .error e ∧ e.cause = cause) := by
  unfold Decoder.fromText
  generalize d.read nestingLimit text = answer at h
  cases h with
  | read h =>
    refine ⟨fun _ => ?_, fun hn => absurd h hn⟩
    simp only [atEnd_blank hb]
  | fault h left => exact ⟨fun hfits => absurd hfits h, fun _ => ⟨_, rfl, rfl⟩⟩

theorem dict_read_answers {before bs : List Char} (hb : Blank before) (hbi : Blank bs)
    {members : List Member} (hf : ∀ m ∈ members, m.Framed)
    (h : ∀ m ∈ members, Denotes m.item.core m.item.value m.item.nesting) (budget : Nat)
    (rest : List Char) :
    Answers .tooDeep (piecesNesting (members.map Member.piece) + 1 ≤ budget)
      (.ok (Dict.ofList (members.map fun m => (m.key, m.item.value)))) rest
      (Decoder.dict.read budget
        (before ++ '{' :: (bs ++ piecesText (members.map Member.piece)) ++ '}' :: rest)) := by
  have hlead :
      lead (before ++ '{' :: (bs ++ piecesText (members.map Member.piece)) ++ '}' :: rest) =
        .ok (.object, '{' :: (bs ++ piecesText (members.map Member.piece)) ++ '}' :: rest) := by
    rw [List.append_assoc, List.cons_append, lead_append hb (by decide)]
    exact leadHere_bracket_curly _
  rw [Decoder.dict]
  refine Answers.bind_ok hlead ?_
  cases budget with
  | zero => exact .fault (Nat.not_succ_le_zero _) _
  | succ budget =>
    have hmembers := objectOf_answers hbi hf budget
      (fun m hm bs rest => value_answers (h m hm) budget bs rest) rest
    exact (hmembers.map Except.ok).congr Nat.succ_le_succ_iff.symm

theorem list_read_answers {before bs : List Char} (hb : Blank before) (hbi : Blank bs)
    {items : List (Piece Value)} {cause : Cause} {fits : Piece Value → Prop} {budget : Nat}
    (h : ∀ p ∈ items, Readable .square (value budget) cause (fits p) p) (rest : List Char) :
    Answers cause (∀ p ∈ items, fits p) (.ok (items.map Piece.value)) rest
      (Decoder.list.read (budget + 1)
        (before ++ '[' :: (bs ++ piecesText items) ++ ']' :: rest)) := by
  have hlead : lead (before ++ '[' :: (bs ++ piecesText items) ++ ']' :: rest) =
      .ok (.array, '[' :: (bs ++ piecesText items) ++ ']' :: rest) := by
    rw [List.append_assoc, List.cons_append, lead_append hb (by decide)]
    exact leadHere_bracket_square _
  rw [Decoder.list]
  refine Answers.bind_ok hlead ?_
  exact (piecesOf_answers hbi h '[' rest).map Except.ok

end Intake.Json
