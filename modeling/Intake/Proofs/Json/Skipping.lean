import Intake.Proofs.Json.Completeness

/-!
# Passing over values

A value that is not wanted is passed over by readers of its own.  They look at numbers and strings
less closely than the readers of values do, and they know no limit for the nesting, so they pass
over more texts.  But where a value could be read, they stop at the same place: `skip_append` says
that a text of the grammar is passed over up to its end.

A surrogate pair shows the difference.  Reading takes it as one character, passing over takes each
half for itself, so the units of a string cannot be counted by its characters, and only the closing
quote tells where both readers end.

The budget of `skipWithin` is the length of the text, which is enough because each container has a
bracket: `nesting_le_length`.
-/

namespace Intake.Json

open Decimal Grammar

/-! ## Readers whose result does not matter -/

theorem discard_eq_ok {α : Type} {r : Reader α} {cs rest : List Char} {a : α}
    (h : r cs = .ok (a, rest)) : (discard r : Reader Unit) cs = .ok ((), rest) := by
  show ((fun _ => ()) <$> r) cs = _
  rw [Reader.map_apply, h]

/-! ## Strings -/

/-- An escape by code point is one unit, whether or not it is one half of a pair. -/
theorem skipUnit_hexQuad {quad : List Char} {n : Nat} (h : HexQuad quad n) (rest : List Char) :
    skipUnit ('\\' :: 'u' :: (quad ++ rest)) = .ok (some (), rest) := by
  have hescape : skipEscape ('u' :: (quad ++ rest)) = .ok ((), rest) := by
    rw [skipEscape, if_pos rfl]
    exact discard_eq_ok (hexQuad_append h rest)
  rw [skipUnit_backslash, Reader.map_apply, hescape]

theorem skipUnit_letter {l c : Char} (h : (l, c) ∈ letterEscapes) (rest : List Char) :
    skipUnit ('\\' :: l :: rest) = .ok (some (), rest) := by
  obtain ⟨hu, hl⟩ := letterEscape?_of_mem h
  have hescape : skipEscape (l :: rest) = .ok ((), rest) := by
    rw [skipEscape, if_neg hu, hl]
    rfl
  rw [skipUnit_backslash, Reader.map_apply, hescape]

theorem units_cons {α : Type} {unit : Reader (Option α)} {cs mid rest : List Char} {a : α}
    {as : List α} {count : Nat} (h : unit cs = .ok (some a, mid))
    (hs : units unit count mid = .ok (as, rest)) :
    units unit (count + 1) cs = .ok (a :: as, rest) := by
  rw [units, Reader.bind_apply, h]
  simp only
  rw [Reader.bind_apply, hs]
  rfl

/-- The characters of a string are passed over up to the closing quote. -/
theorem exists_skipUnits_append {body cs : List Char} (h : CharsText body cs) (rest : List Char)
    {count : Nat} (hc : body.length < count) :
    ∃ us, units skipUnit count (body ++ '"' :: rest) = .ok (us, rest) := by
  induction h generalizing count with
  | nil =>
    cases count with
    | zero => exact absurd hc (Nat.not_lt_zero _)
    | succ count =>
      refine ⟨[], ?_⟩
      rw [List.nil_append, units, Reader.bind_apply, skipUnit_quote]
      rfl
  | @cons t ts c cs h hs ih =>
    rw [List.length_append] at hc
    cases count with
    | zero => exact absurd hc (Nat.not_lt_zero _)
    | succ count =>
      have ht := length_pos_of_charText h
      have hts : ts.length < count := by omega
      obtain ⟨us, hus⟩ := ih hts
      rw [List.append_assoc]
      cases h with
      | raw quote backslash control =>
        have hraw : skipUnit ([c] ++ (ts ++ '"' :: rest)) =
            .ok (some (), ts ++ '"' :: rest) := by
          rw [List.singleton_append, skipUnit, if_neg quote, if_neg backslash, if_neg (by omega)]
        exact ⟨_, units_cons hraw hus⟩
      | letter h => exact ⟨_, units_cons (skipUnit_letter h _) hus⟩
      | codePoint h hn => exact ⟨_, units_cons (skipUnit_hexQuad h _) hus⟩
      | pair h hhigh h' hlow =>
        -- the second half takes one more unit, and there is one because each half has at least the
        -- two characters that begin an escape
        cases count with
        | zero => exact absurd hc (by simp)
        | succ count =>
          have hts : ts.length < count := by simp at hc; omega
          obtain ⟨us, hus⟩ := ih hts
          rw [List.cons_append, List.cons_append, List.append_assoc]
          exact ⟨_, units_cons (skipUnit_hexQuad h _) (units_cons (skipUnit_hexQuad h' _) hus)⟩

theorem skipString_append {body cs : List Char} (h : CharsText body cs) (rest : List Char) :
    skipString (body ++ '"' :: rest) = .ok ((), rest) := by
  have hlen : body.length < (body ++ '"' :: rest).length := by
    rw [List.length_append, List.length_cons]
    omega
  obtain ⟨us, hus⟩ := exists_skipUnits_append h rest hlen
  exact discard_eq_ok hus

theorem skipKey_append {t : List Char} {s : String} (h : StringText t s) (rest : List Char) :
    skipKey (t ++ rest) = .ok ((), rest) := by
  cases h with
  | @intro body s h =>
    have htext : '"' :: body ++ ['"'] ++ rest = '"' :: (body ++ '"' :: rest) := by simp
    rw [htext, skipKey, Reader.bind_apply, keyQuote_cons]
    exact skipString_append h rest

/-! ## Beginnings -/

theorem skipNumber_append {t rest : List Char} {x : Numeral} (h : NumeralText t x)
    (hr : Ends rest) : skipNumber (t ++ rest) = .ok ((), rest) :=
  discard_eq_ok (numeral_append _ h hr)

/-- A scalar is passed over up to its end. -/
theorem skipLeadHere_scalar {t : List Char} {v : Value} (h : Denotes t v 0) {rest : List Char}
    (hr : Ends rest) : skipLeadHere (t ++ rest) = .ok (none, rest) := by
  have hword (ls : List Char) :
      ((fun _ => none) <$> letters ls : Reader (Option Bracket)) (ls ++ rest) =
        .ok (none, rest) := by
    rw [Reader.map_apply, letters_append]
  cases h with
  | null =>
    show skipLeadHere ('n' :: (['u', 'l', 'l'] ++ rest)) = _
    rw [skipLeadHere, if_pos rfl, hword]
  | bool b =>
    cases b with
    | true =>
      show skipLeadHere ('t' :: (['r', 'u', 'e'] ++ rest)) = _
      rw [skipLeadHere, if_neg (by decide), if_pos rfl, hword]
    | false =>
      show skipLeadHere ('f' :: (['a', 'l', 's', 'e'] ++ rest)) = _
      rw [skipLeadHere, if_neg (by decide), if_neg (by decide), if_pos rfl, hword]
  | @number t x n h hn =>
    obtain ⟨c, cs, rfl, hc⟩ := numeralText_head h
    obtain ⟨hn, ht, hf, hq, hs, hcurly, -, -, -⟩ := not_numeral_head hc
    rw [List.cons_append, skipLeadHere, if_neg hn, if_neg ht, if_neg hf, if_neg hq, if_neg hs,
      if_neg hcurly, if_pos hc, Reader.map_apply, ← List.cons_append, skipNumber_append h hr]
  | string h =>
    cases h with
    | @intro body s h =>
      rw [List.append_assoc, List.cons_append, List.singleton_append, skipLeadHere,
        if_neg (by decide), if_neg (by decide), if_neg (by decide), if_pos rfl, Reader.map_apply,
        skipString_append h]

theorem skipLead_denotes {bs t : List Char} {v : Value} {n : Nat} (hb : Blank bs)
    (h : Denotes t v n) (rest : List Char) :
    skipLead (bs ++ (t ++ rest)) = skipLeadHere (t ++ rest) := by
  obtain ⟨c, cs, rfl, hc, -, -⟩ := denotes_head h
  rw [skipLead, Reader.bind_apply, List.cons_append, blanks_append hb hc]

/-! ## Containers -/

section Pieces

variable {α : Type} {bracket : Bracket} {r : Reader Unit} {ps : List (Piece α)}

/-- A piece that a reader passes over: it is framed by blanks and begins like an item. -/
structure Skippable (bracket : Bracket) (r : Reader Unit) (p : Piece α) : Prop where
  framed : p.Framed
  opens : Opens bracket p.core
  skips : ∀ rest, Ends rest → r (p.core ++ rest) = .ok ((), rest)

/-- The loop passes over all pieces. -/
theorem itemsWithin_skip (h : ∀ p ∈ ps, Skippable bracket r p) (rest : List Char) {count : Nat}
    (hc : ps.length < count) {separator : Reader Bool} {cs : List Char}
    (hs : separator cs = .ok (separated (bracket.close :: rest) ps)) :
    itemsWithin bracket .lenient (fun _ => r) count separator () cs =
      .ok ((), bracket.close :: rest) := by
  induction ps generalizing count separator cs with
  | nil =>
    cases count with
    | zero => exact absurd hc (Nat.not_lt_zero _)
    | succ count =>
      rw [itemsWithin, Reader.bind_apply, hs]
      rfl
  | cons p ps ih =>
    have hp := h p List.mem_cons_self
    have hps : ∀ q ∈ ps, Skippable bracket r q := fun q hq => h q (List.mem_cons_of_mem p hq)
    cases count with
    | zero => exact absurd hc (Nat.not_lt_zero _)
    | succ count =>
      have hpiece := hp.skips _ (ends_blank_append hp.framed.after (ends_tailText bracket ps rest))
      have hnext : nextItem bracket .lenient (p.after ++ tailText (bracket.close :: rest) ps) =
          .ok (separated (bracket.close :: rest) ps) :=
        nextItem_tailText hp.framed.after (fun q hq => (hps q hq).framed)
          (fun q hq => (hps q hq).opens) rest
      rw [itemsWithin, Reader.bind_apply, hs]
      show (r >>= fun s => itemsWithin bracket .lenient (fun _ => r) count
        (nextItem bracket .lenient) s) _ = _
      rw [Reader.bind_apply, hpiece]
      exact ih hps (Nat.lt_of_succ_lt_succ hc) hnext

/-- Passes over the pieces of a container, from its bracket on. -/
def skipPieces (bracket : Bracket) (r : Reader Unit) : Reader Unit := do
  consume
  upTo bracket .lenient (fun _ => r) ()
  consume

theorem skipPieces_append {bs : List Char} (hb : Blank bs)
    (h : ∀ p ∈ ps, Skippable bracket r p) (opening : Char) (rest : List Char) :
    skipPieces bracket r (opening :: (bs ++ piecesText ps) ++ bracket.close :: rest) =
      .ok ((), rest) := by
  have htext : opening :: (bs ++ piecesText ps) ++ bracket.close :: rest =
      opening :: (bs ++ bodyText (bracket.close :: rest) ps) := by
    rw [List.cons_append, List.append_assoc, piecesText_append]
  have hlen : ps.length < (bs ++ bodyText (bracket.close :: rest) ps).length + 1 := by
    have := length_le_length_bodyText (bracket.close :: rest) fun p hp => (h p hp).opens
    rw [List.length_append]
    omega
  have hloop : upTo bracket .lenient (fun _ => r) ()
      (bs ++ bodyText (bracket.close :: rest) ps) = .ok ((), bracket.close :: rest) :=
    itemsWithin_skip h rest hlen (firstItem_bodyText hb (fun p hp => (h p hp).framed)
      (fun p hp => (h p hp).opens) rest)
  rw [htext, skipPieces, Reader.bind_apply, consume_cons]
  simp only
  rw [Reader.bind_apply, hloop]
  rfl

end Pieces

/-- A member is passed over as its value is. -/
theorem skipMember_skippable {m : Member} (hm : m.Framed) {r : Reader Unit}
    (h : ∀ bs rest, Blank bs → Ends rest → r (bs ++ (m.item.core ++ rest)) = .ok ((), rest)) :
    Skippable .curly (do skipKey; colon; r) m.piece where
  framed := hm.piece
  opens := member_opens hm
  skips rest hr := by
    have htext : m.piece.core ++ rest =
        m.keyText ++ (m.gap ++ ':' :: (m.item.before ++ (m.item.core ++ rest))) := by
      simp [Member.piece]
    rw [htext, Reader.bind_apply, skipKey_append hm.key]
    simp only
    rw [Reader.bind_apply, colon_append hm.gap]
    exact h m.item.before rest hm.item.before hr

/-! ## Values -/

/-- The reader that passes over the values in a container, if the budget allows for one. -/
def innerSkip : Nat → Option (Reader Unit)
  | 0 => none
  | budget + 1 => some (skipWithin budget)

theorem skipWithin_of_scalar {budget : Nat} {cs rest : List Char}
    (h : skipLead cs = .ok (none, rest)) : skipWithin budget cs = .ok ((), rest) := by
  have hwith : skipWithin budget = skipWith (innerSkip budget) := by cases budget <;> rfl
  rw [hwith, skipWith, Reader.bind_apply, h]
  cases innerSkip budget <;> rfl

theorem skipWithin_of_square {budget : Nat} {cs rest : List Char}
    (h : skipLead cs = .ok (some .square, rest)) :
    skipWithin (budget + 1) cs = skipPieces .square (skipWithin budget) rest := by
  rw [skipWithin, skipWith, Reader.bind_apply, h]
  rfl

theorem skipWithin_of_curly {budget : Nat} {cs rest : List Char}
    (h : skipLead cs = .ok (some .curly, rest)) :
    skipWithin (budget + 1) cs =
      skipPieces .curly (do skipKey; colon; skipWithin budget) rest := by
  rw [skipWithin, skipWith, Reader.bind_apply, h]
  rfl

/-- A scalar is passed over with any budget. -/
theorem skipWithin_scalar {t : List Char} {v : Value} (h : Denotes t v 0) (budget : Nat)
    {bs rest : List Char} (hb : Blank bs) (hr : Ends rest) :
    skipWithin budget (bs ++ (t ++ rest)) = .ok ((), rest) := by
  have hlead : skipLead (bs ++ (t ++ rest)) = .ok (none, rest) := by
    rw [skipLead_denotes hb h]
    exact skipLeadHere_scalar h hr
  exact skipWithin_of_scalar hlead

/-- A value of the grammar is passed over if the budget allows for its nesting. -/
theorem skipWithin_append {t : List Char} {v : Value} {n : Nat} (h : Denotes t v n)
    {budget : Nat} (hn : n ≤ budget) {bs rest : List Char} (hb : Blank bs) (hr : Ends rest) :
    skipWithin budget (bs ++ (t ++ rest)) = .ok ((), rest) := by
  induction h generalizing budget bs rest with
  | null => exact skipWithin_scalar .null budget hb hr
  | bool b => exact skipWithin_scalar (.bool b) budget hb hr
  | number h hx => exact skipWithin_scalar (.number h hx) budget hb hr
  | string h => exact skipWithin_scalar (.string h) budget hb hr
  | @array blanks items hbi hf h ih =>
    have hlead := skipLead_denotes hb (.array hbi hf h) rest
    cases budget with
    | zero => exact absurd hn (Nat.not_succ_le_zero _)
    | succ budget =>
      have hle := piecesNesting_le_iff.1 (Nat.le_of_succ_le_succ hn)
      have hitems : ∀ p ∈ items, Skippable .square (skipWithin budget) p := fun p hp =>
        ⟨hf p hp, opens_square_of_denotes (h p hp), fun rest hr => ih p hp (hle p hp) blank_nil hr⟩
      have htext : '[' :: (blanks ++ piecesText items) ++ [']'] ++ rest =
          '[' :: (blanks ++ piecesText items) ++ ']' :: rest := List.append_assoc ..
      rw [htext] at hlead ⊢
      rw [skipWithin_of_square (hlead.trans (skipLeadHere_square _))]
      exact skipPieces_append hbi hitems '[' rest
  | @object blanks members hbi hf h ih =>
    have hlead := skipLead_denotes hb (.object hbi hf h) rest
    cases budget with
    | zero => exact absurd hn (Nat.not_succ_le_zero _)
    | succ budget =>
      have hle := piecesNesting_le_iff.1 (Nat.le_of_succ_le_succ hn)
      have hmembers : ∀ p ∈ members.map Member.piece,
          Skippable .curly (do skipKey; colon; skipWithin budget) p := by
        intro p hp
        obtain ⟨m, hm, rfl⟩ := List.mem_map.1 hp
        exact skipMember_skippable (hf m hm) fun bs rest hb hr => ih m hm (hle _ hp) hb hr
      have htext : '{' :: (blanks ++ piecesText (members.map Member.piece)) ++ ['}'] ++ rest =
          '{' :: (blanks ++ piecesText (members.map Member.piece)) ++ '}' :: rest :=
        List.append_assoc ..
      rw [htext] at hlead ⊢
      rw [skipWithin_of_curly (hlead.trans (skipLeadHere_curly _))]
      exact skipPieces_append hbi hmembers '{' rest

/-! ## The budget -/

/-- What nests in the pieces of a container nests in no more than the text of the pieces. -/
theorem piecesNesting_le_length {α : Type} {ps : List (Piece α)}
    (h : ∀ p ∈ ps, p.nesting ≤ p.core.length) : piecesNesting ps ≤ (piecesText ps).length := by
  rw [← List.append_nil (piecesText ps), piecesText_append, piecesNesting_le_iff]
  suffices ∀ p ∈ ps, p.core.length ≤ (bodyText [] ps).length from
    fun p hp => Nat.le_trans (h p hp) (this p hp)
  clear h
  induction ps with
  | nil => exact fun p hp => absurd hp List.not_mem_nil
  | cons p ps ih =>
    have htail := length_bodyText_le_tailText [] ps
    rw [List.forall_mem_cons]
    simp only [bodyText, List.length_append]
    exact ⟨by omega, fun q hq => by have := ih q hq; omega⟩

/-- No more containers are nested in a text than it has characters. -/
theorem nesting_le_length {t : List Char} {v : Value} {n : Nat} (h : Denotes t v n) :
    n ≤ t.length := by
  induction h with
  | null | bool | number | string => exact Nat.zero_le _
  | array hb hf h ih =>
    have := piecesNesting_le_length ih
    simp only [List.length_append, List.length_cons]
    omega
  | @object blanks members hb hf h ih =>
    have hmembers : ∀ p ∈ members.map Member.piece, p.nesting ≤ p.core.length := by
      intro p hp
      obtain ⟨m, hm, rfl⟩ := List.mem_map.1 hp
      have := ih m hm
      simp only [Member.piece, List.length_append, List.length_cons]
      omega
    have := piecesNesting_le_length hmembers
    simp only [List.length_append, List.length_cons]
    omega

/-- **Passing over a value.**  A text of the grammar is passed over up to its end, however deep its
containers are nested. -/
theorem skip_append {t : List Char} {v : Value} {n : Nat} (h : Denotes t v n) {bs rest : List Char}
    (hb : Blank bs) (hr : Ends rest) : skip (bs ++ (t ++ rest)) = .ok ((), rest) := by
  have hlen : n ≤ (bs ++ (t ++ rest)).length := by
    have := nesting_le_length h
    simp only [List.length_append]
    omega
  exact skipWithin_append h hlen hb hr

end Intake.Json
