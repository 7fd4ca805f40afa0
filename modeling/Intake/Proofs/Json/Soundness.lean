import Intake.Proofs.Json.Completeness
import Intake.Proofs.Json.ScalarSoundness

/-!
# Values are read only from the grammar

What is read as a value is, after blanks, a text of the grammar that denotes the value, and no more
containers are nested in it than the budget allows: `value_takes`.  Together with the completeness
of the readers this makes reading and the grammar the same thing.

A loop over the items of a container sees blanks at three places, before an item, after it, and in
front of the closing bracket.  `TakesPiece` leaves open which blanks a piece is given, so that the
loop can hand it those that the separators around it have consumed.
-/

namespace Intake.Json

open Decimal Grammar

/-! ## Beginnings -/

theorem blanks_takes : Takes blanks fun t _ => Blank t := by
  intro cs a rest h
  cases h
  refine ⟨cs.takeWhile isBlank, List.takeWhile_append_dropWhile.symm, fun c hc => ?_⟩
  exact isBlank_iff.1 (List.all_eq_true.1 List.all_takeWhile c hc)

theorem letters_takes (ls : List Char) : Takes (letters ls) fun t _ => t = ls := by
  induction ls with
  | nil =>
    intro cs a rest h
    cases h
    exact ⟨[], rfl, rfl⟩
  | cons l ls ih =>
    intro cs a rest h
    cases cs with
    | nil => exact absurd h (by simp [letters])
    | cons c cs =>
      rw [letters] at h
      split at h
      · next hc =>
        obtain ⟨t, rfl, rfl⟩ := ih h
        exact ⟨l :: t, by rw [hc]; rfl, rfl⟩
      · exact absurd h (by simp)

/-- A word is read as a scalar if the rest of its letters follow. -/
theorem word_takes (c : Char) {ls : List Char} {found : Lead} :
    Takes ((fun _ => found) <$> letters ls) fun t a => c :: t = c :: ls ∧ a = found := by
  refine Takes.map ((letters_takes ls).mono ?_)
  rintro _ _ rfl
  exact ⟨rfl, rfl⟩

/-- How a text begins: with a scalar, or with the bracket of a container, which stays in place. -/
inductive Begins : List Char → Lead → List Char → Prop
  | scalar {t : List Char} {v : Value} (h : Denotes t v 0) (rest : List Char) :
      Begins (t ++ rest) v.lead rest
  | square (cs : List Char) : Begins ('[' :: cs) .array ('[' :: cs)
  | curly (cs : List Char) : Begins ('{' :: cs) .object ('{' :: cs)

theorem leadHere_sound {cs rest : List Char} {found : Lead}
    (h : leadHere cs = .ok (found, rest)) : Begins cs found rest := by
  cases cs with
  | nil => exact absurd h (by simp [leadHere])
  | cons c cs =>
    rw [leadHere] at h
    split at h
    · next hc =>
      obtain ⟨t, rfl, ht, rfl⟩ := word_takes c h
      rw [hc, ← List.cons_append, ← hc, ht, hc]
      exact .scalar .null rest
    split at h
    · next hc =>
      obtain ⟨t, rfl, ht, rfl⟩ := word_takes c h
      rw [hc, ← List.cons_append, ← hc, ht, hc]
      exact .scalar (.bool true) rest
    split at h
    · next hc =>
      obtain ⟨t, rfl, ht, rfl⟩ := word_takes c h
      rw [hc, ← List.cons_append, ← hc, ht, hc]
      exact .scalar (.bool false) rest
    split at h
    · next hc =>
      subst hc
      have hstring : Takes (Lead.string <$> string) fun t found =>
          ∃ s, ClosedText t s.toList ∧ found = .string s :=
        Takes.map (string_takes.mono fun t s ht => ⟨s, ht, rfl⟩)
      obtain ⟨_, rfl, s, ⟨body, rfl, hbody⟩, rfl⟩ := hstring h
      exact .scalar (.string (.intro hbody)) rest
    split at h
    · next hc =>
      subst hc
      cases h
      exact .square cs
    split at h
    · next hc =>
      subst hc
      cases h
      exact .curly cs
    split at h
    · have hnumber : Takes (Lead.number <$> number) fun t found =>
          ∃ n, NumberText t n ∧ found = .number n :=
        Takes.map (number_takes.mono fun t n ht => ⟨n, ht, rfl⟩)
      obtain ⟨t, ht, n, ⟨x, hx, hn⟩, rfl⟩ := hnumber h
      rw [ht]
      exact .scalar (.number hx hn) rest
    · exact absurd h (by simp)

theorem lead_sound {cs rest : List Char} {found : Lead} (h : lead cs = .ok (found, rest)) :
    ∃ bs cs', cs = bs ++ cs' ∧ Blank bs ∧ Begins cs' found rest := by
  obtain ⟨_, mid, hblanks, hlead⟩ := Reader.bind_eq_ok_iff.1 h
  obtain ⟨bs, rfl, hb⟩ := blanks_takes hblanks
  exact ⟨bs, mid, rfl, hb, leadHere_sound hlead⟩

/-! ## Separators -/

section Separators

variable {bracket : Bracket} {cs mid : List Char} {more : Bool}

theorem firstItem_sound (h : firstItem bracket cs = .ok (more, mid)) :
    ∃ bs, Blank bs ∧ cs = bs ++ mid ∧ (more = false → mid.head? = some bracket.close) := by
  obtain ⟨_, front, hblanks, hfront⟩ := Reader.bind_eq_ok_iff.1 h
  obtain ⟨bs, rfl, hb⟩ := blanks_takes hblanks
  cases front with
  | nil => exact absurd hfront (by simp)
  | cons c front =>
    cases hfront
    refine ⟨bs, hb, rfl, fun hmore => ?_⟩
    rw [List.head?_cons, bne_eq_false_iff_eq.1 hmore]

theorem nextItem_sound (h : nextItem bracket .strict cs = .ok (more, mid)) :
    ∃ bs, Blank bs ∧
      (more = false ∧ cs = bs ++ mid ∧ mid.head? = some bracket.close ∨
        more = true ∧ ∃ bs', Blank bs' ∧ cs = bs ++ ',' :: (bs' ++ mid)) := by
  obtain ⟨_, front, hblanks, hfront⟩ := Reader.bind_eq_ok_iff.1 h
  obtain ⟨bs, rfl, hb⟩ := blanks_takes hblanks
  refine ⟨bs, hb, ?_⟩
  cases front with
  | nil => exact absurd hfront (by simp)
  | cons c front =>
    simp only at hfront
    split at hfront
    · next hc =>
      cases hfront
      exact Or.inl ⟨rfl, rfl, congrArg some hc⟩
    · split at hfront
      · next hc =>
        obtain ⟨_, item, hgap, hitem⟩ := Reader.bind_eq_ok_iff.1 hfront
        obtain ⟨bs', rfl, hb'⟩ := blanks_takes hgap
        split at hitem
        · exact absurd hitem (by simp)
        · cases hitem
          exact Or.inr ⟨rfl, bs', hb', by rw [hc]⟩
      · exact absurd hfront (by simp)

theorem eq_close_cons (h : mid.head? = some bracket.close) :
    ∃ rest, mid = bracket.close :: rest := by
  cases mid with
  | nil => exact absurd h (by simp)
  | cons c rest => exact ⟨rest, congrArg (· :: rest) (Option.some.inj h)⟩

end Separators

/-! ## Pieces -/

section Pieces

variable {α : Type}

/-- A reader takes nothing but pieces of a kind, whatever blanks are put around them. -/
def TakesPiece (r : Reader α) (kind : Piece α → Prop) : Prop :=
  Takes r fun t a => ∃ bs core nesting, t = bs ++ core ∧ Blank bs ∧
    ∀ before after, Blank before → Blank after → kind ⟨before, core, after, a, nesting⟩

variable {bracket : Bracket} {r : Reader α} {kind : Piece α → Prop}

theorem blank_append {bs bs' : List Char} (h : Blank bs) (h' : Blank bs') : Blank (bs ++ bs') := by
  intro c hc
  rcases List.mem_append.1 hc with hc | hc
  · exact h c hc
  · exact h' c hc

/-- An item that is put in front of those before it is a piece. -/
theorem push_sound (hr : TakesPiece r kind) {done done' : List α} {cs rest : List Char}
    (h : ((· :: done) <$> r) cs = .ok (done', rest)) :
    ∃ a before core nesting, done' = a :: done ∧ cs = before ++ (core ++ rest) ∧ Blank before ∧
      ∀ before after, Blank before → Blank after → kind ⟨before, core, after, a, nesting⟩ := by
  have hpush : Takes ((· :: done) <$> r) fun t done' =>
      ∃ a before core nesting, done' = a :: done ∧ t = before ++ core ∧ Blank before ∧
        ∀ before after, Blank before → Blank after →
          kind ⟨before, core, after, a, nesting⟩ := by
    refine Takes.map (hr.mono ?_)
    rintro t a ⟨before, core, nesting, ht, hb, hkind⟩
    exact ⟨a, before, core, nesting, rfl, ht, hb, hkind⟩
  obtain ⟨_, rfl, a, before, core, nesting, rfl, rfl, hb, hkind⟩ := hpush h
  exact ⟨a, before, core, nesting, rfl, List.append_assoc .., hb, hkind⟩

/-- What the loop reads after an item: blanks, and then further pieces up to the closing bracket. -/
theorem itemsWithin_sound (hr : TakesPiece r kind) {count : Nat} {done out : List α}
    {cs rest : List Char}
    (h : itemsWithin bracket .strict (fun done => (· :: done) <$> r) count
      (nextItem bracket .strict) done cs = .ok (out, rest)) :
    ∃ bs ps, Blank bs ∧ rest.head? = some bracket.close ∧ cs = bs ++ tailText rest ps ∧
      (∀ p ∈ ps, kind p) ∧ out = (ps.map Piece.value).reverse ++ done := by
  induction count generalizing done cs with
  | zero => exact absurd h (by simp [itemsWithin, failPast])
  | succ count ih =>
    rw [itemsWithin] at h
    obtain ⟨more, mid, hnext, hstep⟩ := Reader.bind_eq_ok_iff.1 h
    obtain ⟨bs, hb, ⟨rfl, rfl, hclose⟩ | ⟨rfl, bs', hb', rfl⟩⟩ := nextItem_sound hnext
    · cases hstep
      exact ⟨bs, [], hb, hclose, rfl, fun p hp => absurd hp List.not_mem_nil, rfl⟩
    · obtain ⟨done', mid', hitem, hloop⟩ := Reader.bind_eq_ok_iff.1 hstep
      obtain ⟨a, bs₁, core, nesting, rfl, rfl, hb₁, hkind⟩ := push_sound hr hitem
      obtain ⟨after, ps, hafter, hclose, rfl, hps, rfl⟩ := ih hloop
      have hbefore := blank_append hb' hb₁
      refine ⟨bs, ⟨bs' ++ bs₁, core, after, a, nesting⟩ :: ps, hb, hclose, ?_,
        List.forall_mem_cons.2 ⟨hkind _ _ hbefore hafter, hps⟩, ?_⟩
      · simp [tailText]
      · simp

/-- What is read from the opening bracket on: blanks, and then pieces up to the closing bracket. -/
theorem piecesOf_sound (bracket : Bracket) (hr : TakesPiece r kind) {opening : Char}
    {cs rest : List Char} {as : List α} (h : piecesOf bracket r (opening :: cs) = .ok (as, rest)) :
    ∃ bs ps, Blank bs ∧ cs = bs ++ piecesText ps ++ bracket.close :: rest ∧ (∀ p ∈ ps, kind p) ∧
      as = ps.map Piece.value := by
  obtain ⟨_, _, hconsume, h⟩ := Reader.bind_eq_ok_iff.1 h
  rw [consume_cons] at hconsume
  cases hconsume
  obtain ⟨out, mid, hloop, h⟩ := Reader.bind_eq_ok_iff.1 h
  obtain ⟨_, _, hconsume, h⟩ := Reader.bind_eq_ok_iff.1 h
  rw [upTo, itemsWithin] at hloop
  obtain ⟨more, front, hfirst, hstep⟩ := Reader.bind_eq_ok_iff.1 hloop
  obtain ⟨bs, hb, rfl, hempty⟩ := firstItem_sound hfirst
  cases more with
  | false =>
    obtain ⟨rest', rfl⟩ := eq_close_cons (hempty rfl)
    cases hstep
    rw [consume_cons] at hconsume
    cases hconsume
    cases h
    exact ⟨bs, [], hb, by simp [piecesText, commaSeparated],
      fun p hp => absurd hp List.not_mem_nil, rfl⟩
  | true =>
    obtain ⟨done, mid', hitem, hloop⟩ := Reader.bind_eq_ok_iff.1 hstep
    obtain ⟨a, before, core, nesting, rfl, rfl, hbefore, hkind⟩ := push_sound hr hitem
    obtain ⟨after, ps, hafter, hclose, rfl, hps, rfl⟩ := itemsWithin_sound hr hloop
    obtain ⟨rest', rfl⟩ := eq_close_cons hclose
    rw [consume_cons] at hconsume
    cases hconsume
    cases h
    refine ⟨bs, ⟨before, core, after, a, nesting⟩ :: ps, hb, ?_,
      List.forall_mem_cons.2 ⟨hkind _ _ hbefore hafter, hps⟩, by simp⟩
    rw [List.append_assoc bs, piecesText_append]
    rfl

end Pieces

/-! ## Values -/

/-- The text of a value that nests at most the given number of containers, after blanks. -/
def ValueText (budget : Nat) (t : List Char) (v : Value) : Prop :=
  ∃ bs core nesting, t = bs ++ core ∧ Blank bs ∧ Denotes core v nesting ∧ nesting ≤ budget

/-- A piece of an array: the text of a value that nests at most the given number of containers. -/
structure IsItem (budget : Nat) (p : Piece Value) : Prop where
  framed : p.Framed
  denotes : Denotes p.core p.value p.nesting
  nesting_le : p.nesting ≤ budget

/-- A member whose value nests at most the given number of containers. -/
structure IsMember (budget : Nat) (m : Member) : Prop where
  framed : m.Framed
  denotes : Denotes m.item.core m.item.value m.item.nesting
  nesting_le : m.item.nesting ≤ budget

theorem takesPiece_item {budget : Nat} {r : Reader Value} (hr : Takes r (ValueText budget)) :
    TakesPiece r (IsItem budget) := by
  refine hr.mono ?_
  rintro _ v ⟨bs, core, nesting, rfl, hb, hdenotes, hle⟩
  exact ⟨bs, core, nesting, rfl, hb, fun before after hbefore hafter =>
    ⟨⟨hbefore, hafter⟩, hdenotes, hle⟩⟩

theorem key_takes : Takes key StringText := by
  intro cs s rest h
  obtain ⟨_, mid, hquote, hstring⟩ := Reader.bind_eq_ok_iff.1 h
  obtain ⟨t, rfl, body, rfl, hbody⟩ := string_takes hstring
  cases cs with
  | nil => exact absurd hquote (by simp [keyQuote])
  | cons c cs =>
    rw [keyQuote] at hquote
    split at hquote
    · next hc =>
      cases hquote
      refine ⟨'"' :: body ++ ['"'], ?_, .intro hbody⟩
      rw [hc]
      rfl
    · exact absurd hquote (by simp)

/-- The text of a colon, after blanks. -/
def ColonText (t : List Char) : Prop := ∃ gap, t = gap ++ [':'] ∧ Blank gap

theorem colon_takes : Takes colon fun t _ => ColonText t := by
  intro cs a rest h
  obtain ⟨_, mid, hblanks, hcolon⟩ := Reader.bind_eq_ok_iff.1 h
  obtain ⟨gap, rfl, hgap⟩ := blanks_takes hblanks
  cases mid with
  | nil => exact absurd hcolon (by simp)
  | cons c mid =>
    simp only at hcolon
    split at hcolon
    · next hc =>
      cases hcolon
      exact ⟨gap ++ [':'], by rw [hc]; simp, gap, rfl, hgap⟩
    · exact absurd hcolon (by simp)

theorem takesPiece_member {budget : Nat} {r : Reader Value} (hr : Takes r (ValueText budget)) :
    TakesPiece (member r) fun p => ∃ m, IsMember budget m ∧ m.piece = p := by
  have hparts := key_takes.bind fun k => colon_takes.bind fun _ => hr.bind fun v =>
    Takes.pure (a := (k, v)) (p := fun t entry => t = [] ∧ entry = (k, v)) ⟨rfl, rfl⟩
  refine Takes.mono hparts ?_
  rintro _ _ ⟨k, keyText, _, rfl, hk, _, _, _, rfl, ⟨gap, rfl, hgap⟩, v, _, _, rfl,
    ⟨bs, core, nesting, rfl, hb, hdenotes, hle⟩, rfl, rfl⟩
  refine ⟨[], keyText ++ gap ++ ':' :: (bs ++ core), nesting, by simp, blank_nil,
    fun before after hbefore hafter => ?_⟩
  exact ⟨⟨before, keyText, k, gap, ⟨bs, core, after, v, nesting⟩⟩,
    ⟨⟨hbefore, hk, hgap, ⟨hb, hafter⟩⟩, hdenotes, hle⟩, rfl⟩

/-- Pieces that are members are the pieces of a list of members. -/
theorem exists_members {budget : Nat} {ps : List (Piece (String × Value))}
    (h : ∀ p ∈ ps, ∃ m, IsMember budget m ∧ m.piece = p) :
    ∃ members : List Member,
      (∀ m ∈ members, IsMember budget m) ∧ members.map Member.piece = ps := by
  induction ps with
  | nil => exact ⟨[], fun m hm => absurd hm List.not_mem_nil, rfl⟩
  | cons p ps ih =>
    obtain ⟨⟨m, hm, rfl⟩, hps⟩ := List.forall_mem_cons.1 h
    obtain ⟨members, hmembers, rfl⟩ := ih hps
    exact ⟨m :: members, List.forall_mem_cons.2 ⟨hm, hmembers⟩, rfl⟩

theorem arrayOf_sound {budget : Nat} {r : Reader Value} (hr : Takes r (ValueText budget))
    {cs rest : List Char} {items : List Value} (h : arrayOf r ('[' :: cs) = .ok (items, rest)) :
    ∃ bs ps, Blank bs ∧ cs = bs ++ piecesText ps ++ ']' :: rest ∧ (∀ p ∈ ps, IsItem budget p) ∧
      items = ps.map Piece.value :=
  piecesOf_sound .square (takesPiece_item hr) h

theorem objectOf_sound {budget : Nat} {r : Reader Value} (hr : Takes r (ValueText budget))
    {cs rest : List Char} {entries : Dict Value}
    (h : objectOf r ('{' :: cs) = .ok (entries, rest)) :
    ∃ (bs : List Char) (members : List Member), Blank bs ∧
      cs = bs ++ piecesText (members.map Member.piece) ++ '}' :: rest ∧
      (∀ m ∈ members, IsMember budget m) ∧
      entries = Dict.ofList (members.map fun m => (m.key, m.item.value)) := by
  obtain ⟨list, hmembers, rfl⟩ := map_eq_ok h
  obtain ⟨bs, ps, hb, hcs, hps, rfl⟩ :=
    piecesOf_sound .curly (takesPiece_member hr) hmembers
  obtain ⟨members, hm, rfl⟩ := exists_members hps
  exact ⟨bs, members, hb, hcs, hm, by rw [map_value_members]⟩

theorem denotes_array_of_items {budget : Nat} {bs : List Char} {ps : List (Piece Value)}
    (hb : Blank bs) (h : ∀ p ∈ ps, IsItem budget p) :
    Denotes ('[' :: (bs ++ piecesText ps) ++ [']']) (.array (ps.map Piece.value))
        (piecesNesting ps + 1) ∧ piecesNesting ps ≤ budget :=
  ⟨.array hb (fun p hp => (h p hp).framed) (fun p hp => (h p hp).denotes),
    piecesNesting_le_iff.2 fun p hp => (h p hp).nesting_le⟩

theorem denotes_object_of_members {budget : Nat} {bs : List Char} {members : List Member}
    (hb : Blank bs) (h : ∀ m ∈ members, IsMember budget m) :
    Denotes ('{' :: (bs ++ piecesText (members.map Member.piece)) ++ ['}'])
        (.object (Dict.ofList (members.map fun m => (m.key, m.item.value))))
        (piecesNesting (members.map Member.piece) + 1) ∧
      piecesNesting (members.map Member.piece) ≤ budget := by
  refine ⟨.object hb (fun m hm => (h m hm).framed) (fun m hm => (h m hm).denotes),
    piecesNesting_le_iff.2 fun p hp => ?_⟩
  obtain ⟨m, hm, rfl⟩ := List.mem_map.1 hp
  exact (h m hm).nesting_le

/-- Reading values within a budget follows the grammar if reading those inside a container does. -/
theorem value_takes_of_inner {budget : Nat}
    (inner : ∀ b, budget = b + 1 → Takes (value b) (ValueText b)) :
    Takes (value budget) (ValueText budget) := by
  intro cs v rest h
  obtain ⟨found, mid, hlead, -⟩ := Reader.bind_eq_ok_iff.1 (value_eq_valueWith budget ▸ h)
  rw [value_of_lead hlead] at h
  obtain ⟨bs, cs', rfl, hb, hbegins⟩ := lead_sound hlead
  cases hbegins with
  | @scalar t v' hdenotes =>
    rw [afterLead_scalar hdenotes] at h
    cases h
    exact ⟨bs ++ t, (List.append_assoc ..).symm, bs, t, 0, rfl, hb, hdenotes, Nat.zero_le _⟩
  | square cs =>
    cases budget with
    | zero => exact absurd h (by simp [afterLead, innerReader, failPast])
    | succ budget =>
      obtain ⟨items, hitems, rfl⟩ := map_eq_ok h
      obtain ⟨bs', ps, hb', rfl, hps, rfl⟩ := arrayOf_sound (inner budget rfl) hitems
      obtain ⟨hdenotes, hle⟩ := denotes_array_of_items hb' hps
      exact ⟨bs ++ ('[' :: (bs' ++ piecesText ps) ++ [']']), by simp, bs, _, _, rfl, hb, hdenotes,
        Nat.succ_le_succ hle⟩
  | curly cs =>
    cases budget with
    | zero => exact absurd h (by simp [afterLead, innerReader, failPast])
    | succ budget =>
      obtain ⟨entries, hentries, rfl⟩ := map_eq_ok h
      obtain ⟨bs', members, hb', rfl, hmembers, rfl⟩ := objectOf_sound (inner budget rfl) hentries
      obtain ⟨hdenotes, hle⟩ := denotes_object_of_members hb' hmembers
      exact ⟨bs ++ ('{' :: (bs' ++ piecesText (members.map Member.piece)) ++ ['}']), by simp, bs, _,
        _, rfl, hb, hdenotes, Nat.succ_le_succ hle⟩

/-- Only texts of the grammar are read as values, and only within the budget for their nesting. -/
theorem value_takes (budget : Nat) : Takes (value budget) (ValueText budget) := by
  induction budget with
  | zero => exact value_takes_of_inner fun b hb => absurd hb (Nat.succ_ne_zero b).symm
  | succ budget ih =>
    refine value_takes_of_inner fun b hb => ?_
    obtain rfl := Nat.succ.inj hb
    exact ih

end Intake.Json
