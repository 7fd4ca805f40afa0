import Intake.Proofs.Json.Scalars

/-!
# Scalars are read only from the grammar

`Takes r form` says that a reader takes nothing but texts of a form: when it answers, what it has
consumed has the form together with the answer.  The rest of the text plays no part in this, so
such statements compose along the sequencing of readers, and each reader of a scalar gets the form
that the grammar has for it.

This is the converse of the lemmas on reading scalars.  Those need to know what follows a number;
here nothing is asked of the rest, because a reader that stops too early still takes a number.
-/

namespace Intake.Json

open Decimal Grammar

/-! ## Forms -/

theorem map_eq_ok {α β : Type} {f : α → β} {r : Reader α} {cs rest : List Char} {b : β}
    (h : (f <$> r) cs = .ok (b, rest)) : ∃ a, r cs = .ok (a, rest) ∧ f a = b := by
  rw [Reader.map_apply] at h
  cases ha : r cs with
  | error fault => simp [ha] at h
  | ok pair =>
    obtain ⟨a, mid⟩ := pair
    rw [ha] at h
    cases h
    exact ⟨a, rfl, rfl⟩

/-- A reader takes nothing but texts of the given form. -/
def Takes {α : Type} (r : Reader α) (form : List Char → α → Prop) : Prop :=
  ∀ ⦃cs a rest⦄, r cs = .ok (a, rest) → ∃ t, cs = t ++ rest ∧ form t a

namespace Takes

variable {α β : Type} {p q : List Char → α → Prop}

theorem mono {r : Reader α} (h : Takes r p) (hpq : ∀ t a, p t a → q t a) : Takes r q := by
  intro cs a rest hr
  obtain ⟨t, ht, hp⟩ := h hr
  exact ⟨t, ht, hpq t a hp⟩

theorem pure {a : α} (h : p [] a) : Takes (Pure.pure a) p := by
  intro cs b rest hr
  rw [Reader.pure_apply] at hr
  cases hr
  exact ⟨[], rfl, h⟩

/-- What fails takes nothing, so it takes texts of any form. -/
theorem fail (cause : Cause) : Takes (Json.fail cause) p := by
  intro cs a rest hr
  exact absurd hr (by simp [Json.fail])

/-- A sequence takes a text of the first form and then one of the second. -/
theorem bind {x : Reader α} {f : α → Reader β} {p : List Char → α → Prop}
    {q : α → List Char → β → Prop} (hx : Takes x p) (hf : ∀ a, Takes (f a) (q a)) :
    Takes (x >>= f) fun t b => ∃ a t₁ t₂, t = t₁ ++ t₂ ∧ p t₁ a ∧ q a t₂ b := by
  intro cs b rest hr
  obtain ⟨a, mid, hxa, hfb⟩ := Reader.bind_eq_ok_iff.1 hr
  obtain ⟨t₁, rfl, hp⟩ := hx hxa
  obtain ⟨t₂, rfl, hq⟩ := hf a hfb
  exact ⟨t₁ ++ t₂, (List.append_assoc ..).symm, a, t₁, t₂, rfl, hp, hq⟩

theorem map {r : Reader α} {f : α → β} {q : List Char → β → Prop}
    (h : Takes r fun t a => q t (f a)) : Takes (f <$> r) q := by
  intro cs b rest hr
  obtain ⟨a, ha, rfl⟩ := map_eq_ok hr
  exact h ha

end Takes

/-! ## Numbers -/

theorem eq_digitChar_of_digit? {c : Char} {d : Nat} (h : digit? c = some d) :
    c = digitChar d ∧ d < 10 := by
  unfold digit? at h
  split at h
  · next hc =>
    obtain rfl := Option.some.inj h
    refine ⟨?_, by omega⟩
    rw [digitChar, Nat.add_sub_cancel' hc.1, Char.ofNat_toNat]
  · exact absurd h (by simp)

/-- The digits at the front of a text and what follows them make the text. -/
theorem spanDigits_sound (cs : List Char) :
    cs = digitsText (spanDigits cs).1 ++ (spanDigits cs).2 ∧ ∀ d ∈ (spanDigits cs).1, d < 10 := by
  induction cs with
  | nil => exact ⟨rfl, fun d hd => absurd hd List.not_mem_nil⟩
  | cons c cs ih =>
    rw [spanDigits]
    cases hc : digit? c with
    | none => exact ⟨rfl, fun d hd => absurd hd List.not_mem_nil⟩
    | some d =>
      obtain ⟨rfl, hd⟩ := eq_digitChar_of_digit? hc
      exact ⟨congrArg (digitChar d :: ·) ih.1, List.forall_mem_cons.2 ⟨hd, ih.2⟩⟩

theorem wholePart_takes (atEnd : Cause) :
    Takes (wholePart atEnd) fun t ds => t = digitsText ds ∧ IsWhole ds := by
  intro cs ds rest h
  cases cs with
  | nil => exact absurd h (by simp [wholePart])
  | cons c cs =>
    rw [wholePart] at h
    cases hc : digit? c with
    | none => simp [hc] at h
    | some d =>
      obtain ⟨rfl, hd⟩ := eq_digitChar_of_digit? hc
      rw [hc] at h
      cases d with
      | zero =>
        -- a zero is taken alone, and only if no digit follows it
        by_cases hcs : startsWithDigit cs = true
        · simp [hcs] at h
        · simp only [hcs] at h
          cases h
          exact ⟨digitsText [0], rfl, rfl, ⟨List.cons_ne_nil 0 [], by simp⟩, fun _ => rfl⟩
      | succ d =>
        cases h
        obtain ⟨hcs, hds⟩ := spanDigits_sound cs
        refine ⟨digitsText ((d + 1) :: (spanDigits cs).1), congrArg _ hcs, rfl,
          ⟨List.cons_ne_nil _ _, List.forall_mem_cons.2 ⟨hd, hds⟩⟩, fun hzero => ?_⟩
        exact absurd (Option.some.inj hzero) (Nat.succ_ne_zero d)

theorem someDigits_takes (atEnd : Cause) :
    Takes (someDigits atEnd) fun t ds => t = digitsText ds ∧ IsDigits ds := by
  intro cs ds rest h
  obtain ⟨hcs, hds⟩ := spanDigits_sound cs
  rw [someDigits] at h
  generalize spanDigits cs = parts at h hcs hds
  obtain ⟨front, tail⟩ := parts
  cases front with
  | nil => cases tail <;> simp at h
  | cons d front =>
    cases h
    exact ⟨_, hcs, rfl, List.cons_ne_nil d front, hds⟩

theorem fractionPart_takes (atEnd : Cause) : Takes (fractionPart atEnd) FractionText := by
  intro cs fraction rest h
  unfold fractionPart at h
  split at h
  · next cs =>
    have hsome : Takes (some <$> someDigits atEnd) fun t fraction =>
        FractionText ('.' :: t) fraction := by
      refine Takes.map ((someDigits_takes atEnd).mono ?_)
      rintro _ ds ⟨rfl, hds⟩
      exact .present hds
    obtain ⟨t, rfl, ht⟩ := hsome h
    exact ⟨'.' :: t, rfl, ht⟩
  · cases h
    exact ⟨[], rfl, .absent⟩

theorem exponentSign_takes : Takes exponentSign SignText := by
  intro cs negative rest h
  unfold exponentSign at h
  split at h
  · cases h
    exact ⟨['-'], rfl, .minus⟩
  · cases h
    exact ⟨['+'], rfl, .plus⟩
  · cases h
    exact ⟨[], rfl, .absent⟩

theorem exponentPart_takes (atEnd : Cause) : Takes (exponentPart atEnd) ExponentText := by
  intro cs exponent rest h
  cases cs with
  | nil =>
    cases h
    exact ⟨[], rfl, .absent⟩
  | cons c cs =>
    rw [exponentPart] at h
    split at h
    · next letter =>
      have hparts := exponentSign_takes.bind fun negative =>
        (someDigits_takes atEnd).bind fun ds =>
          Takes.pure (a := some (negative, ds))
            (p := fun t exponent => t = [] ∧ exponent = some (negative, ds)) ⟨rfl, rfl⟩
      obtain ⟨_, rfl, negative, sign, _, rfl, hs, ds, _, _, rfl, ⟨rfl, hds⟩, rfl, rfl⟩ := hparts h
      refine ⟨c :: sign ++ digitsText ds, ?_, .present letter hs hds⟩
      simp
    · cases h
      exact ⟨[], rfl, .absent⟩

theorem minusSign_takes : Takes minusSign fun t negative => t = minusText negative := by
  intro cs negative rest h
  unfold minusSign at h
  split at h
  · cases h
    exact ⟨['-'], rfl, rfl⟩
  · cases h
    exact ⟨[], rfl, rfl⟩

/-- Only a number is scanned as one. -/
theorem numeral_takes (atEnd : Cause) : Takes (numeral atEnd) NumeralText := by
  have hparts := minusSign_takes.bind fun negative =>
    (wholePart_takes atEnd).bind fun whole =>
      (fractionPart_takes atEnd).bind fun fraction =>
        (exponentPart_takes atEnd).bind fun exponent =>
          Takes.pure (a := Numeral.mk negative whole fraction exponent)
            (p := fun t x => t = [] ∧ x = ⟨negative, whole, fraction, exponent⟩) ⟨rfl, rfl⟩
  refine Takes.mono hparts ?_
  rintro _ _ ⟨negative, _, _, rfl, rfl, whole, _, _, rfl, ⟨rfl, hw⟩, fraction, f, _, rfl, hf,
    exponent, e, _, rfl, he, rfl, rfl⟩
  have hnumeral := @NumeralText.intro negative _ _ _ _ _ hw hf he
  simpa using hnumeral

/-- The text of a number that has a value. -/
def NumberText (t : List Char) (n : Number) : Prop := ∃ x, NumeralText t x ∧ x.toNumber = .ok n

/-- Only a number that has a value is read as that value. -/
theorem number_takes : Takes number NumberText := by
  intro cs n rest h
  obtain ⟨x, mid, hx, hn⟩ := Reader.bind_eq_ok_iff.1 h
  obtain ⟨t, rfl, ht⟩ := numeral_takes _ hx
  cases hvalue : x.toNumber with
  | error unread => simp [hvalue] at hn
  | ok m =>
    rw [hvalue] at hn
    cases hn
    exact ⟨t, rfl, x, ht, hvalue⟩

/-! ## Strings -/

theorem hexQuad_takes : Takes hexQuad HexQuad := by
  intro cs n rest h
  unfold hexQuad at h
  split at h
  · next a b c d cs =>
    cases hn : hexQuad? a b c d with
    | none => simp [hn] at h
    | some m =>
      rw [hn] at h
      cases h
      exact ⟨[a, b, c, d], rfl, hexQuad?_eq_some_iff.1 hn⟩
  · exact absurd h (by simp)

theorem secondEscape_takes : Takes secondEscape fun t _ => t = ['\\', 'u'] := by
  intro cs a rest h
  unfold secondEscape at h
  split at h
  · cases h
    exact ⟨['\\', 'u'], rfl, rfl⟩
  all_goals exact absurd h (by simp)

/-- The escape of a low half, and the character that it makes with a high half. -/
def LowHalfText (high : Nat) (t : List Char) (c : Char) : Prop :=
  ∃ quad low, t = '\\' :: 'u' :: quad ∧ HexQuad quad low ∧ IsLowHalf low ∧
    c = ofHalves high low

theorem lowHalf_takes (high : Nat) : Takes (lowHalf high) (LowHalfText high) := by
  have hchar : ∀ low, Takes
      (if IsLowHalf low then Pure.pure (ofHalves high low) else fail .loneSurrogate : Reader Char)
      fun t c => t = [] ∧ IsLowHalf low ∧ c = ofHalves high low := by
    intro low
    split
    · next hlow => exact Takes.pure ⟨rfl, hlow, rfl⟩
    · exact Takes.fail _
  refine Takes.mono (secondEscape_takes.bind fun _ => hexQuad_takes.bind hchar) ?_
  rintro _ c ⟨_, _, _, rfl, rfl, low, quad, _, rfl, hquad, rfl, hlow, hc⟩
  exact ⟨quad, low, by simp, hquad, hlow, hc⟩

theorem codePoint_takes : Takes codePoint fun t c => CharText ('\\' :: 'u' :: t) c := by
  intro cs c rest h
  obtain ⟨n, mid, hn, hc⟩ := Reader.bind_eq_ok_iff.1 h
  obtain ⟨quad, rfl, hquad⟩ := hexQuad_takes hn
  split at hc
  · exact absurd hc (by simp [fail])
  · next hlow =>
    split at hc
    · next hhigh =>
      obtain ⟨_, rfl, quad', low, rfl, hquad', hlow', hpair⟩ := lowHalf_takes n hc
      rw [hpair]
      exact ⟨_, (List.append_assoc quad _ rest).symm, .pair hquad hhigh hquad' hlow'⟩
    · next hhigh =>
      cases hc
      exact ⟨quad, rfl, .codePoint hquad (by omega)⟩

theorem mem_letterEscapes {l c : Char} (h : letterEscape? l = some c) :
    (l, c) ∈ letterEscapes := by
  unfold letterEscape? at h
  split at h
  all_goals first | (cases h; decide) | exact absurd h (by simp)

theorem escape_takes : Takes escape fun t c => CharText ('\\' :: t) c := by
  intro cs c rest h
  cases cs with
  | nil => exact absurd h (by simp [escape])
  | cons l cs =>
    rw [escape] at h
    split at h
    · next hu =>
      subst hu
      obtain ⟨t, rfl, ht⟩ := codePoint_takes h
      exact ⟨'u' :: t, rfl, ht⟩
    · cases hl : letterEscape? l with
      | none => simp [hl] at h
      | some e =>
        rw [hl] at h
        cases h
        exact ⟨[l], rfl, .letter (mem_letterEscapes hl)⟩

/-- One unit of a string: a character, or the closing quote. -/
def UnitText (t : List Char) : Option Char → Prop
  | none => t = ['"']
  | some c => CharText t c

theorem unit_takes : Takes unit UnitText := by
  intro cs found rest h
  cases cs with
  | nil => exact absurd h (by simp [unit])
  | cons c cs =>
    rw [unit] at h
    split at h
    · next hq =>
      cases h
      exact ⟨['"'], by rw [hq]; rfl, rfl⟩
    · next hq =>
      split at h
      · next hb =>
        subst hb
        have hescape : Takes (some <$> escape) fun t found => UnitText ('\\' :: t) found :=
          Takes.map escape_takes
        obtain ⟨t, rfl, ht⟩ := hescape h
        exact ⟨'\\' :: t, rfl, ht⟩
      · next hb =>
        split at h
        · exact absurd h (by simp)
        · next hc =>
          cases h
          exact ⟨[c], rfl, .raw hq hb (Nat.le_of_not_lt hc)⟩

/-- The characters of a string with the closing quote. -/
def ClosedText (t : List Char) (cs : List Char) : Prop :=
  ∃ body, t = body ++ ['"'] ∧ CharsText body cs

theorem units_takes (count : Nat) : Takes (units unit count) ClosedText := by
  induction count with
  | zero => exact Takes.fail _
  | succ count ih =>
    intro cs s rest h
    rw [units] at h
    obtain ⟨found, mid, hfound, hs⟩ := Reader.bind_eq_ok_iff.1 h
    obtain ⟨t, rfl, ht⟩ := unit_takes hfound
    cases found with
    | none =>
      cases hs
      exact ⟨t, rfl, [], ht, .nil⟩
    | some c =>
      obtain ⟨s', rest', hs', hpure⟩ := Reader.bind_eq_ok_iff.1 hs
      cases hpure
      obtain ⟨_, rfl, body, rfl, hbody⟩ := ih hs'
      exact ⟨t ++ (body ++ ['"']), by simp, t ++ body, by simp, .cons ht hbody⟩

/-- Only the characters of a string are read as a string, up to the closing quote. -/
theorem string_takes : Takes string fun t s => ClosedText t s.toList := by
  intro cs s rest h
  have hunits : Takes (String.ofList <$> units unit cs.length)
      fun t s => ClosedText t s.toList := by
    refine Takes.map ((units_takes cs.length).mono ?_)
    intro t ds ht
    rwa [String.toList_ofList]
  exact hunits h

end Intake.Json
