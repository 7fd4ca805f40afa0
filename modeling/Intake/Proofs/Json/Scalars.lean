import Intake.Json.Document
import Intake.Proofs.Json.Grammar

/-!
# Reading scalars

A text of the grammar is read up to its end, whatever follows it.  Only a number needs a condition
on what follows: it takes the longest text that has its form, so the rest must not continue it.
`Ends` is that condition, and it is met before blanks, commas, closing brackets and the end of the
text, which is all that the grammar lets follow a value.

Each lemma has the text in front of an arbitrary rest, so the lemmas chain: `numeral_append` is
made from those for the four parts of a number, and `string_append` from the one for a single unit
of a string.
-/

namespace Intake.Json

open Decimal Grammar

/-! ## What may follow -/

/-- The characters that continue a number. -/
def continuesNumber (c : Char) : Bool := (digit? c).isSome || c == '.' || c == 'e' || c == 'E'

/-- The rest of a text does not continue a number. -/
def Ends (rest : List Char) : Prop := ∀ c ∈ rest.head?, continuesNumber c = false

@[simp] theorem ends_nil : Ends [] := fun _ h => absurd h (by simp)

theorem ends_cons {c : Char} {rest : List Char} (h : continuesNumber c = false) :
    Ends (c :: rest) := by
  intro d hd
  rw [List.head?_cons, Option.mem_some_iff] at hd
  rw [← hd]
  exact h

theorem isBlank_iff {c : Char} : isBlank c = true ↔ c = ' ' ∨ c = '\n' ∨ c = '\t' ∨ c = '\r' := by
  simp [isBlank, or_assoc]

theorem Grammar.Blank.isBlank_of_mem {bs : List Char} (hb : Blank bs) {c : Char}
    (h : c ∈ bs) : isBlank c = true := isBlank_iff.2 (hb c h)

theorem continuesNumber_of_isBlank {c : Char} (h : isBlank c = true) :
    continuesNumber c = false := by
  rcases isBlank_iff.1 h with rfl | rfl | rfl | rfl <;> decide

/-- Blanks in front of a rest do not continue a number. -/
theorem ends_blank_append {bs rest : List Char} (hb : Blank bs) (h : Ends rest) :
    Ends (bs ++ rest) := by
  cases bs with
  | nil => exact h
  | cons c bs => exact ends_cons (continuesNumber_of_isBlank (hb.isBlank_of_mem List.mem_cons_self))

theorem Ends.startsWithDigit {rest : List Char} (h : Ends rest) :
    startsWithDigit rest = false := by
  cases rest with
  | nil => rfl
  | cons c rest =>
    have hc := h c rfl
    simp only [continuesNumber, Bool.or_eq_false_iff] at hc
    exact hc.1.1.1

theorem Ends.head_ne {rest : List Char} (h : Ends rest) {c : Char}
    (hc : continuesNumber c = true) : rest.head? ≠ some c := by
  intro hr
  have := h c hr
  rw [hc] at this
  exact absurd this (by decide)

/-! ## Numbers -/

theorem digit?_of_startsWithDigit_cons {c : Char} {cs : List Char}
    (h : startsWithDigit (c :: cs) = false) : digit? c = none := by
  simpa [startsWithDigit] using h

theorem spanDigits_append {ds : List Nat} {rest : List Char} (h : ∀ d ∈ ds, d < 10)
    (hr : startsWithDigit rest = false) : spanDigits (digitsText ds ++ rest) = (ds, rest) := by
  induction ds with
  | nil =>
    cases rest with
    | nil => rfl
    | cons c cs =>
      rw [digitsText_nil, List.nil_append, spanDigits, digit?_of_startsWithDigit_cons hr]
  | cons d ds ih =>
    have hd : digit? (digitChar d) = some d := digit?_digitChar (h d List.mem_cons_self)
    have hds := ih fun e he => h e (List.mem_cons_of_mem d he)
    rw [digitsText_cons, List.cons_append, spanDigits, hd]
    simp only [hds]

theorem someDigits_append {ds : List Nat} {rest : List Char} (atEnd : Cause) (h : IsDigits ds)
    (hr : startsWithDigit rest = false) :
    someDigits atEnd (digitsText ds ++ rest) = .ok (ds, rest) := by
  obtain ⟨d, ds, rfl⟩ := List.exists_cons_of_ne_nil h.ne_nil
  rw [someDigits, spanDigits_append h.lt_ten hr]

theorem wholePart_append {ds : List Nat} {rest : List Char} (atEnd : Cause) (h : IsWhole ds)
    (hr : startsWithDigit rest = false) :
    wholePart atEnd (digitsText ds ++ rest) = .ok (ds, rest) := by
  obtain ⟨d, ds, rfl⟩ := List.exists_cons_of_ne_nil h.ne_nil
  have hd : digit? (digitChar d) = some d := digit?_digitChar (h.lt_ten d List.mem_cons_self)
  have hspan : spanDigits (digitsText ds ++ rest) = (ds, rest) :=
    spanDigits_append (fun e he => h.lt_ten e (List.mem_cons_of_mem d he)) hr
  rw [digitsText_cons, List.cons_append, wholePart, hd]
  cases d with
  | zero =>
    have hds : ds = [] := (List.cons.inj (h.no_leading_zero rfl)).2
    subst hds
    show (if startsWithDigit rest = true then _ else _) = _
    rw [hr]
    rfl
  | succ d =>
    simp only [hspan]

theorem fractionPart_append {f rest : List Char} {fraction : Option (List Nat)} (atEnd : Cause)
    (h : FractionText f fraction) (hr : startsWithDigit rest = false)
    (hp : rest.head? ≠ some '.') : fractionPart atEnd (f ++ rest) = .ok (fraction, rest) := by
  cases h with
  | absent =>
    show fractionPart atEnd rest = _
    unfold fractionPart
    split
    · next rest' => exact absurd rfl hp
    · rfl
  | present h =>
    show (some <$> someDigits atEnd) (digitsText _ ++ rest) = _
    rw [Reader.map_apply, someDigits_append atEnd h hr]

theorem exponentSign_append {sign ds : List Char} {negative : Bool} (h : SignText sign negative)
    (hm : ds.head? ≠ some '-') (hp : ds.head? ≠ some '+') :
    exponentSign (sign ++ ds) = .ok (negative, ds) := by
  cases h with
  | plus => rfl
  | minus => rfl
  | absent =>
    show exponentSign ds = _
    unfold exponentSign
    split
    · exact absurd rfl hm
    · exact absurd rfl hp
    · rfl

theorem head_digitsText {ds : List Nat} (h : IsDigits ds) (rest : List Char) :
    ∃ d ds', d < 10 ∧ digitsText ds ++ rest = digitChar d :: ds' := by
  obtain ⟨d, ds, rfl⟩ := List.exists_cons_of_ne_nil h.ne_nil
  exact ⟨d, digitsText ds ++ rest, h.lt_ten d List.mem_cons_self, rfl⟩

theorem digitChar_ne {d : Nat} (h : d < 10) {c : Char} (hc : digit? c = none) :
    digitChar d ≠ c := by
  rintro rfl
  rw [digit?_digitChar h] at hc
  exact absurd hc (by simp)

theorem exponentPart_append {e rest : List Char} {exponent : Option (Bool × List Nat)}
    (atEnd : Cause) (h : ExponentText e exponent) (hr : Ends rest) :
    exponentPart atEnd (e ++ rest) = .ok (exponent, rest) := by
  cases h with
  | absent =>
    show exponentPart atEnd rest = _
    cases rest with
    | nil => rfl
    | cons c cs =>
      have hc : ¬ (c = 'e' ∨ c = 'E') := by
        rintro (rfl | rfl)
        · exact hr.head_ne (by decide) rfl
        · exact hr.head_ne (by decide) rfl
      rw [exponentPart, if_neg hc]
  | @present letter sign negative ds hl hs hd =>
    obtain ⟨d, ds', hd10, hhead⟩ := head_digitsText hd rest
    have hsign : exponentSign (sign ++ (digitsText ds ++ rest)) =
        .ok (negative, digitsText ds ++ rest) := by
      refine exponentSign_append hs ?_ ?_
      · rw [hhead, List.head?_cons]
        exact fun heq => digitChar_ne hd10 (by decide) (Option.some.inj heq)
      · rw [hhead, List.head?_cons]
        exact fun heq => digitChar_ne hd10 (by decide) (Option.some.inj heq)
    rw [List.append_assoc, List.cons_append, exponentPart, if_pos hl, Reader.bind_apply, hsign]
    simp only
    rw [Reader.bind_apply, someDigits_append atEnd hd hr.startsWithDigit]
    rfl

theorem minusSign_append {negative : Bool} {rest : List Char} (h : rest.head? ≠ some '-') :
    minusSign (minusText negative ++ rest) = .ok (negative, rest) := by
  cases negative with
  | true => rfl
  | false =>
    rw [minusText_false, List.nil_append]
    unfold minusSign
    split
    · exact absurd rfl h
    · rfl

/-- A number is scanned up to its end. -/
theorem numeral_append {t rest : List Char} {x : Numeral} (atEnd : Cause) (h : NumeralText t x)
    (hr : Ends rest) : numeral atEnd (t ++ rest) = .ok (x, rest) := by
  obtain @⟨negative, whole, fraction, exponent, f, e, hw, hf, he⟩ := h
  -- what follows the exponent, the fraction and the whole digits does not continue them
  have heDigit : startsWithDigit (e ++ rest) = false := by
    cases he with
    | absent => exact hr.startsWithDigit
    | present letter _ _ => rcases letter with rfl | rfl <;> rfl
  have hePoint : (e ++ rest).head? ≠ some '.' := by
    cases he with
    | absent => exact hr.head_ne (by decide)
    | present letter _ _ => rcases letter with rfl | rfl <;> simp
  have hfDigit : startsWithDigit (f ++ (e ++ rest)) = false := by
    cases hf with
    | absent => exact heDigit
    | present _ => rfl
  have hwhole : (digitsText whole ++ (f ++ (e ++ rest))).head? ≠ some '-' := by
    obtain ⟨d, ds', hd, hhead⟩ := head_digitsText hw.toIsDigits (f ++ (e ++ rest))
    rw [hhead, List.head?_cons]
    exact fun heq => digitChar_ne hd (by decide) (Option.some.inj heq)
  simp only [List.append_assoc]
  rw [numeral, Reader.bind_apply, minusSign_append hwhole]
  simp only
  rw [Reader.bind_apply, wholePart_append atEnd hw hfDigit]
  simp only
  rw [Reader.bind_apply, fractionPart_append atEnd hf heDigit hePoint]
  simp only
  rw [Reader.bind_apply, exponentPart_append atEnd he hr]
  rfl

/-- A number is read as the value of its form. -/
theorem number_append {t rest : List Char} {x : Numeral} {n : Number} (h : NumeralText t x)
    (hn : x.toNumber = .ok n) (hr : Ends rest) : number (t ++ rest) = .ok (n, rest) := by
  rw [number, Reader.bind_apply, numeral_append _ h hr]
  simp only [hn]
  rfl

/-- A number without a value is a fault. -/
theorem number_append_error {t rest : List Char} {x : Numeral} {unread : Nat}
    (h : NumeralText t x) (hx : x.toNumber = .error unread) (hr : Ends rest) :
    number (t ++ rest) = .error ⟨.numberOutOfRange, byteCount rest + unread⟩ := by
  rw [number, Reader.bind_apply, numeral_append _ h hr]
  simp only [hx]

/-! ## Strings -/

/-- A digit is read as the value that the table has for it. -/
theorem hexDigit?_eq_some_iff {c : Char} {n : Nat} :
    hexDigit? c = some n ↔ (c, n) ∈ hexDigits := by
  constructor
  · intro h
    have htable : ∀ k < 103, ∀ n ∈ hexDigit? (Char.ofNat k), (Char.ofNat k, n) ∈ hexDigits := by
      decide
    -- no character from `g` on is a digit, and below it there are few enough to decide
    have hlt : c.toNat < 103 := by
      unfold hexDigit? at h
      grind
    rw [← Char.ofNat_toNat c] at h ⊢
    exact htable _ hlt n h
  · have htable : ∀ p ∈ hexDigits, hexDigit? p.1 = some p.2 := by decide
    exact htable (c, n)

theorem hexQuad?_eq_some_iff {a b c d : Char} {n : Nat} :
    hexQuad? a b c d = some n ↔ HexQuad [a, b, c, d] n := by
  have hvalue (i j k l : Nat) : ((i * 16 + j) * 16 + k) * 16 + l =
      0x1000 * i + 0x100 * j + 0x10 * k + l := by omega
  constructor
  · intro h
    simp only [hexQuad?, Option.bind_eq_bind, Option.bind_eq_some_iff] at h
    obtain ⟨i, ha, j, hb, k, hc, l, hd, hn⟩ := h
    rw [← Option.some.inj hn, hvalue]
    exact .intro (hexDigit?_eq_some_iff.1 ha) (hexDigit?_eq_some_iff.1 hb)
      (hexDigit?_eq_some_iff.1 hc) (hexDigit?_eq_some_iff.1 hd)
  · rintro ⟨ha, hb, hc, hd⟩
    simp only [hexQuad?, hexDigit?_eq_some_iff.2 ha, hexDigit?_eq_some_iff.2 hb,
      hexDigit?_eq_some_iff.2 hc, hexDigit?_eq_some_iff.2 hd]
    exact congrArg some (hvalue _ _ _ _)

theorem hexQuad_append {quad : List Char} {n : Nat} (h : HexQuad quad n) (rest : List Char) :
    hexQuad (quad ++ rest) = .ok (n, rest) := by
  cases h with
  | intro ha hb hc hd =>
    have hquad := hexQuad?_eq_some_iff.2 (.intro ha hb hc hd)
    simp only [List.cons_append, List.nil_append, hexQuad, hquad]

theorem letterEscape?_of_mem {l c : Char} (h : (l, c) ∈ letterEscapes) :
    l ≠ 'u' ∧ letterEscape? l = some c := by
  have htable : ∀ p ∈ letterEscapes, p.1 ≠ 'u' ∧ letterEscape? p.1 = some p.2 := by decide
  exact htable (l, c) h

theorem escape_letter {l c : Char} (h : (l, c) ∈ letterEscapes) (rest : List Char) :
    escape (l :: rest) = .ok (c, rest) := by
  obtain ⟨hu, hl⟩ := letterEscape?_of_mem h
  rw [escape, if_neg hu, hl]

theorem codePoint_append {quad : List Char} {n : Nat} (h : HexQuad quad n)
    (low : ¬ IsLowHalf n) (high : ¬ IsHighHalf n) (rest : List Char) :
    codePoint (quad ++ rest) = .ok (Char.ofNat n, rest) := by
  rw [codePoint, Reader.bind_apply, hexQuad_append h]
  simp only [if_neg low, if_neg high]
  rfl

theorem lowHalf_append {quad : List Char} {n : Nat} (high : Nat) (h : HexQuad quad n)
    (low : IsLowHalf n) (rest : List Char) :
    lowHalf high ('\\' :: 'u' :: (quad ++ rest)) = .ok (ofHalves high n, rest) := by
  rw [lowHalf, Reader.bind_apply, secondEscape]
  simp only
  rw [Reader.bind_apply, hexQuad_append h]
  simp only [if_pos low]
  rfl

theorem not_isLowHalf_of_isHighHalf {n : Nat} (h : IsHighHalf n) : ¬ IsLowHalf n := by
  intro hl
  have := h.2
  have := hl.1
  omega

theorem codePoint_pair {quad quad' : List Char} {n n' : Nat} (h : HexQuad quad n)
    (high : IsHighHalf n) (h' : HexQuad quad' n') (low : IsLowHalf n') (rest : List Char) :
    codePoint (quad ++ '\\' :: 'u' :: (quad' ++ rest)) = .ok (ofHalves n n', rest) := by
  rw [codePoint, Reader.bind_apply, hexQuad_append h]
  simp only [if_neg (not_isLowHalf_of_isHighHalf high), if_pos high]
  exact lowHalf_append n h' low rest

/-- One character of a string is one unit. -/
theorem unit_append {t : List Char} {c : Char} (h : CharText t c) (rest : List Char) :
    unit (t ++ rest) = .ok (some c, rest) := by
  cases h with
  | raw quote backslash control =>
    rw [List.singleton_append, unit, if_neg quote, if_neg backslash, if_neg (by omega)]
  | letter h =>
    show unit ('\\' :: _ :: rest) = _
    rw [unit_backslash, Reader.map_apply, escape_letter h]
  | codePoint h hn =>
    rw [List.cons_append, List.cons_append, unit_backslash, Reader.map_apply, escape, if_pos rfl,
      codePoint_append h (by omega) (by omega)]
  | pair h hhigh h' hlow =>
    rw [List.cons_append, List.cons_append, List.append_assoc, List.cons_append, List.cons_append,
      unit_backslash, Reader.map_apply, escape, if_pos rfl, codePoint_pair h hhigh h' hlow,
      ofHalves]

theorem length_pos_of_charText {t : List Char} {c : Char} (h : CharText t c) : 1 ≤ t.length := by
  cases h <;> simp

/-- Units are read up to the closing quote, within as many rounds as the text has characters. -/
theorem units_append {body cs : List Char} (h : CharsText body cs) (rest : List Char) {count : Nat}
    (hc : body.length < count) : units unit count (body ++ '"' :: rest) = .ok (cs, rest) := by
  induction h generalizing count with
  | nil =>
    cases count with
    | zero => exact absurd hc (Nat.not_lt_zero _)
    | succ count =>
      rw [List.nil_append, units, Reader.bind_apply, unit_quote]
      rfl
  | @cons t ts c cs h hs ih =>
    have ht := length_pos_of_charText h
    rw [List.length_append] at hc
    cases count with
    | zero => omega
    | succ count =>
      rw [List.append_assoc, units, Reader.bind_apply, unit_append h]
      simp only
      rw [Reader.bind_apply, ih (by omega)]
      rfl

/-- A string is read up to its closing quote. -/
theorem string_append {body : List Char} {s : String} (h : CharsText body s.toList)
    (rest : List Char) : string (body ++ '"' :: rest) = .ok (s, rest) := by
  have hlen : body.length < (body ++ '"' :: rest).length := by
    rw [List.length_append, List.length_cons]
    omega
  rw [string, Reader.map_apply, units_append h rest hlen]
  simp only [String.ofList_toList]

end Intake.Json
