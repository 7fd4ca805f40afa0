import Intake.Proofs.Json.Scalars

/-!
# Reading containers

The pieces of a container stand between brackets, with commas between them and blanks around them.
`piecesOf_answers` says how a container is read when it is known how each piece is: if all pieces
fit, their values are read in order, and otherwise the first piece that does not fit decides.

`Answers` is the form of such statements.  It covers both ways for a reading to end, with a known
result or for a known cause, and a proposition decides which.  So the loop over the pieces is gone
through once, for any reader of the pieces, any condition on each of them and any cause.
-/

namespace Intake.Json

open Decimal Grammar

/-! ## Answers -/

/-- A reader answers with the given result and rest if the condition holds, and otherwise with a
fault of the given cause. -/
inductive Answers {α : Type} (cause : Cause) (fits : Prop) (a : α) (rest : List Char) :
    Except Fault (α × List Char) → Prop
  | read (h : fits) : Answers cause fits a rest (.ok (a, rest))
  | fault (h : ¬ fits) (left : Nat) : Answers cause fits a rest (.error ⟨cause, left⟩)

namespace Answers

variable {α β : Type} {cause : Cause} {fits fits' : Prop} {a : α} {b : β}
  {cs rest rest' : List Char}

/-- A sequence answers as its second part does, if the first part is read wherever the second one
is to be. -/
theorem bind {x : Reader α} {f : α → Reader β} (h : Answers cause fits a rest (x cs))
    (hfits : fits' → fits) (hf : fits → Answers cause fits' b rest' (f a rest)) :
    Answers cause fits' b rest' ((x >>= f) cs) := by
  rw [Reader.bind_apply]
  generalize x cs = answer at h
  cases h with
  | read h => exact hf h
  | fault h left => exact .fault (mt hfits h) left

/-- After a first part that succeeds, a sequence answers as its second part does. -/
theorem bind_ok {x : Reader α} {f : α → Reader β} (h : x cs = .ok (a, rest))
    (hf : Answers cause fits b rest' (f a rest)) : Answers cause fits b rest' ((x >>= f) cs) := by
  rw [Reader.bind_apply, h]
  exact hf

theorem map {x : Reader α} (f : α → β) (h : Answers cause fits a rest (x cs)) :
    Answers cause fits (f a) rest ((f <$> x) cs) := by
  rw [Reader.map_apply]
  generalize x cs = answer at h
  cases h with
  | read h => exact .read h
  | fault h left => exact .fault h left

theorem congr {answer : Except Fault (α × List Char)} (h : Answers cause fits a rest answer)
    (hfits : fits ↔ fits') : Answers cause fits' a rest answer := by
  cases h with
  | read h => exact .read (hfits.1 h)
  | fault h left => exact .fault (mt hfits.2 h) left

theorem eq_ok {answer : Except Fault (α × List Char)} (h : Answers cause fits a rest answer)
    (hfits : fits) : answer = .ok (a, rest) := by
  cases h with
  | read => rfl
  | fault h => exact absurd hfits h

end Answers

/-! ## Blanks -/

theorem dropWhile_blank_append {bs : List Char} (hb : Blank bs) (cs : List Char) :
    (bs ++ cs).dropWhile isBlank = cs.dropWhile isBlank := by
  induction bs with
  | nil => rfl
  | cons b bs ih =>
    have hbs : Blank bs := fun c hc => hb c (List.mem_cons_of_mem b hc)
    have hblank : isBlank b = true := hb.isBlank_of_mem List.mem_cons_self
    rw [List.cons_append, List.dropWhile_cons, if_pos hblank, ih hbs]

/-- Blanks are passed over up to the first other character. -/
theorem blanks_append {bs : List Char} (hb : Blank bs) {c : Char} (hc : isBlank c = false)
    (cs : List Char) : blanks (bs ++ c :: cs) = .ok ((), c :: cs) := by
  have hcs : (c :: cs).dropWhile isBlank = c :: cs := by
    rw [List.dropWhile_cons, if_neg (by rw [hc]; exact Bool.false_ne_true)]
  rw [blanks, dropWhile_blank_append hb, hcs]

@[simp] theorem close_not_blank (bracket : Bracket) : isBlank bracket.close = false := by
  cases bracket <;> decide

theorem ends_close (bracket : Bracket) (rest : List Char) : Ends (bracket.close :: rest) := by
  cases bracket <;> exact ends_cons (by decide)

theorem close_ne_comma (bracket : Bracket) : ',' ≠ bracket.close := by
  cases bracket <;> decide

/-! ## Separators -/

/-- The text begins with a character that is neither a blank nor the closing bracket. -/
def Opens (bracket : Bracket) (cs : List Char) : Prop :=
  ∃ c cs', cs = c :: cs' ∧ isBlank c = false ∧ c ≠ bracket.close

section Separators

variable {bracket : Bracket} {commas : Commas} {bs core : List Char}

theorem firstItem_close (hb : Blank bs) (rest : List Char) :
    firstItem bracket (bs ++ bracket.close :: rest) = .ok (false, bracket.close :: rest) := by
  rw [firstItem, Reader.bind_apply, blanks_append hb (close_not_blank bracket)]
  show Except.ok (bracket.close != bracket.close, _) = _
  rw [bne_self_eq_false]

theorem firstItem_open (hb : Blank bs) (ho : Opens bracket core) (rest : List Char) :
    firstItem bracket (bs ++ (core ++ rest)) = .ok (true, core ++ rest) := by
  obtain ⟨c, cs, rfl, hc, hne⟩ := ho
  rw [firstItem, Reader.bind_apply, List.cons_append, blanks_append hb hc]
  show Except.ok (c != bracket.close, _) = _
  rw [bne_iff_ne.2 hne]

theorem nextItem_close (hb : Blank bs) (rest : List Char) :
    nextItem bracket commas (bs ++ bracket.close :: rest) =
      .ok (false, bracket.close :: rest) := by
  rw [nextItem, Reader.bind_apply, blanks_append hb (close_not_blank bracket)]
  simp only [if_pos]

theorem nextItem_comma (hb : Blank bs) {bs' : List Char} (hb' : Blank bs')
    (ho : Opens bracket core) (rest : List Char) :
    nextItem bracket commas (bs ++ ',' :: (bs' ++ (core ++ rest))) = .ok (true, core ++ rest) := by
  obtain ⟨c, cs, rfl, hc, hne⟩ := ho
  rw [nextItem, Reader.bind_apply, blanks_append hb (by decide)]
  simp only [if_neg (close_ne_comma bracket), if_true]
  rw [Reader.bind_apply, List.cons_append, blanks_append hb' hc]
  simp only [List.head?_cons, Option.some.injEq]
  rw [if_neg fun h => hne h.2]

end Separators

/-! ## Pieces -/

section Pieces

variable {α : Type}

/-- A piece is framed by blanks, it begins like an item, and a reader answers on it: with its value
if the condition holds, and with a fault of the given cause otherwise. -/
structure Readable (bracket : Bracket) (r : Reader α) (cause : Cause) (fits : Prop)
    (p : Piece α) : Prop where
  framed : p.Framed
  opens : Opens bracket p.core
  answers : ∀ rest, Ends rest → Answers cause fits p.value rest (r (p.core ++ rest))

/-- What stands after a piece: the pieces that follow, each after a comma, and the given end. -/
def tailText (ending : List Char) : List (Piece α) → List Char
  | [] => ending
  | p :: ps => ',' :: (p.before ++ (p.core ++ (p.after ++ tailText ending ps)))

/-- What stands after the blanks that follow the opening bracket. -/
def bodyText (ending : List Char) : List (Piece α) → List Char
  | [] => ending
  | p :: ps => p.before ++ (p.core ++ (p.after ++ tailText ending ps))

theorem tailText_cons (ending : List Char) (p : Piece α) (ps : List (Piece α)) :
    tailText ending (p :: ps) = ',' :: bodyText ending (p :: ps) := rfl

theorem piecesText_append (ps : List (Piece α)) (ending : List Char) :
    piecesText ps ++ ending = bodyText ending ps := by
  induction ps with
  | nil => rfl
  | cons p ps ih =>
    cases ps with
    | nil => simp [piecesText, commaSeparated, bodyText, tailText, Piece.text]
    | cons q qs =>
      have hsplit : piecesText (p :: q :: qs) = p.text ++ ',' :: piecesText (q :: qs) := rfl
      rw [hsplit, List.append_assoc, List.cons_append, ih]
      simp only [bodyText, tailText, Piece.text, List.append_assoc]

theorem length_bodyText_le_tailText (ending : List Char) (ps : List (Piece α)) :
    (bodyText ending ps).length ≤ (tailText ending ps).length := by
  cases ps with
  | nil => exact Nat.le_refl _
  | cons p ps =>
    rw [tailText_cons, List.length_cons]
    exact Nat.le_succ _

variable {bracket : Bracket} {r : Reader α} {cause : Cause} {fits : Piece α → Prop}

theorem ends_tailText (bracket : Bracket) (ps : List (Piece α)) (rest : List Char) :
    Ends (tailText (bracket.close :: rest) ps) := by
  cases ps with
  | nil => exact ends_close bracket rest
  | cons p ps => exact ends_cons (by decide)

/-- There are no more pieces than characters. -/
theorem length_le_length_bodyText {ps : List (Piece α)} (ending : List Char)
    (h : ∀ p ∈ ps, Opens bracket p.core) : ps.length ≤ (bodyText ending ps).length := by
  induction ps with
  | nil => exact Nat.zero_le _
  | cons p ps ih =>
    have ih := ih fun q hq => h q (List.mem_cons_of_mem p hq)
    obtain ⟨c, cs, hcore, -, -⟩ := h p List.mem_cons_self
    have hcore : 1 ≤ p.core.length := by rw [hcore]; exact Nat.le_add_left _ _
    have htail := length_bodyText_le_tailText ending ps
    simp only [bodyText, List.length_append, List.length_cons]
    omega

/-- The answer of the reader of a separator in front of some pieces: whether there is a piece, and
the text from that piece or from the closing bracket on. -/
def separated (ending : List Char) : List (Piece α) → Bool × List Char
  | [] => (false, ending)
  | p :: ps => (true, p.core ++ (p.after ++ tailText ending ps))

theorem firstItem_bodyText {bs : List Char} (hb : Blank bs) {ps : List (Piece α)}
    (hf : ∀ p ∈ ps, p.Framed) (ho : ∀ p ∈ ps, Opens bracket p.core) (rest : List Char) :
    firstItem bracket (bs ++ bodyText (bracket.close :: rest) ps) =
      .ok (separated (bracket.close :: rest) ps) := by
  cases ps with
  | nil => exact firstItem_close hb rest
  | cons p ps =>
    have hbs : Blank (bs ++ p.before) := by
      intro c hc
      rcases List.mem_append.1 hc with hc | hc
      · exact hb c hc
      · exact (hf p List.mem_cons_self).before c hc
    rw [bodyText, ← List.append_assoc]
    exact firstItem_open hbs (ho p List.mem_cons_self) _

theorem nextItem_tailText {commas : Commas} {bs : List Char} (hb : Blank bs) {ps : List (Piece α)}
    (hf : ∀ p ∈ ps, p.Framed) (ho : ∀ p ∈ ps, Opens bracket p.core) (rest : List Char) :
    nextItem bracket commas (bs ++ tailText (bracket.close :: rest) ps) =
      .ok (separated (bracket.close :: rest) ps) := by
  cases ps with
  | nil => exact nextItem_close hb rest
  | cons p ps =>
    exact nextItem_comma hb (hf p List.mem_cons_self).before (ho p List.mem_cons_self) _

/-- The loop over the pieces: it collects their values in reverse, or stops at the first piece that
does not fit. -/
theorem itemsWithin_answers {commas : Commas} {ps : List (Piece α)}
    (h : ∀ p ∈ ps, Readable bracket r cause (fits p) p) (rest : List Char) (done : List α)
    {count : Nat} (hc : ps.length < count) {separator : Reader Bool} {cs : List Char}
    (hs : separator cs = .ok (separated (bracket.close :: rest) ps)) :
    Answers cause (∀ p ∈ ps, fits p) ((ps.map Piece.value).reverse ++ done)
      (bracket.close :: rest)
      (itemsWithin bracket commas (fun done => (· :: done) <$> r) count separator done cs) := by
  induction ps generalizing done count separator cs with
  | nil =>
    cases count with
    | zero => exact absurd hc (Nat.not_lt_zero _)
    | succ count =>
      rw [itemsWithin]
      refine Answers.bind_ok hs ?_
      exact .read fun p hp => absurd hp List.not_mem_nil
  | cons p ps ih =>
    have hp := h p List.mem_cons_self
    have hps : ∀ q ∈ ps, Readable bracket r cause (fits q) q :=
      fun q hq => h q (List.mem_cons_of_mem p hq)
    cases count with
    | zero => exact absurd hc (Nat.not_lt_zero _)
    | succ count =>
      rw [itemsWithin]
      refine Answers.bind_ok hs ?_
      -- the piece is read, and then the loop goes on from the separator after it
      have hpiece := (hp.answers _ (ends_blank_append hp.framed.after
        (ends_tailText bracket ps rest))).map (· :: done)
      refine Answers.bind hpiece (fun hfits => hfits p List.mem_cons_self) fun hfit => ?_
      have hnext : nextItem bracket commas (p.after ++ tailText (bracket.close :: rest) ps) =
          .ok (separated (bracket.close :: rest) ps) :=
        nextItem_tailText hp.framed.after (fun q hq => (hps q hq).framed)
          (fun q hq => (hps q hq).opens) rest
      have htail := ih hps (p.value :: done) (Nat.lt_of_succ_lt_succ hc) hnext
      rw [List.map_cons, List.reverse_cons, List.append_assoc]
      refine htail.congr ?_
      rw [List.forall_mem_cons]
      exact ⟨fun hall => ⟨hfit, hall⟩, fun hall => hall.2⟩

/-- Reads the pieces of a container, from its bracket on. -/
def piecesOf (bracket : Bracket) (r : Reader α) : Reader (List α) := do
  consume
  let reversed ← upTo bracket .strict (fun done => (· :: done) <$> r) []
  consume
  return reversed.reverse

/-- The pieces of a container are read if all of them fit. -/
theorem piecesOf_answers {bs : List Char} (hb : Blank bs) {ps : List (Piece α)}
    (h : ∀ p ∈ ps, Readable bracket r cause (fits p) p) (opening : Char) (rest : List Char) :
    Answers cause (∀ p ∈ ps, fits p) (ps.map Piece.value) rest
      (piecesOf bracket r (opening :: (bs ++ piecesText ps) ++ bracket.close :: rest)) := by
  have htext : opening :: (bs ++ piecesText ps) ++ bracket.close :: rest =
      opening :: (bs ++ bodyText (bracket.close :: rest) ps) := by
    rw [List.cons_append, List.append_assoc, piecesText_append]
  have hlen : ps.length < (bs ++ bodyText (bracket.close :: rest) ps).length + 1 := by
    have := length_le_length_bodyText (bracket.close :: rest) fun p hp => (h p hp).opens
    rw [List.length_append]
    omega
  rw [htext, piecesOf]
  refine Answers.bind_ok (consume_cons _ _) ?_
  refine Answers.bind (itemsWithin_answers h rest [] hlen (firstItem_bodyText hb
    (fun p hp => (h p hp).framed) (fun p hp => (h p hp).opens) rest)) id fun hall => ?_
  refine Answers.bind_ok (consume_cons _ _) ?_
  rw [List.append_nil, List.reverse_reverse]
  exact .read hall

theorem piecesNesting_le_iff {ps : List (Piece α)} {n : Nat} :
    piecesNesting ps ≤ n ↔ ∀ p ∈ ps, p.nesting ≤ n := by
  induction ps with
  | nil => simp [piecesNesting]
  | cons p ps ih =>
    have hcons : piecesNesting (p :: ps) = max p.nesting (piecesNesting ps) := rfl
    rw [hcons, Nat.max_le, ih, List.forall_mem_cons]

end Pieces

end Intake.Json
