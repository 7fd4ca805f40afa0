import Intake.Proofs.Json.Acceptance

/-!
# What decoders give out

A property of everything that a decoder gives out, from any text and from any value, is
`Decoder.Yields`.  A record yields pairs of what its fields yield, `Fields.yields_decoder`, and
nothing has to be known about texts for that.  Whatever members are passed over, and in whichever
order the fields stand, a field that has been seen is one that the decoder of the field gave out:
`FromFields` holds before the first member, each member keeps it, and the end of the record asks
for nothing else.
-/

namespace Intake.Json

variable {α β γ : Type}

/-! ## Verdicts and readers -/

/-- The result has the property, if there is one. -/
def Verdict.Meets (r : Verdict α) (P : α → Prop) : Prop := ∀ ⦃a⦄, r = .ok a → P a

namespace Verdict.Meets

variable {P : α → Prop} {Q : β → Prop}

theorem ok {a : α} (h : P a) : Verdict.Meets (.ok a) P := by
  rintro _ ⟨⟩
  exact h

theorem error (cause : Cause) : Verdict.Meets (.error cause) P := by
  rintro _ ⟨⟩

theorem bind {r : Verdict α} {f : α → Verdict β} (h : r.Meets P) (hf : ∀ a, P a → (f a).Meets Q) :
    Verdict.Meets (r >>= f) Q := by
  cases r with
  | error cause => exact error cause
  | ok a => exact hf a (h rfl)

theorem map {r : Verdict α} {f : α → β} (h : r.Meets P) (hf : ∀ a, P a → Q (f a)) :
    Verdict.Meets (r.map f) Q := by
  cases r with
  | error cause => exact error cause
  | ok a => exact ok (hf a (h rfl))

/-- What each step keeps holds of what a list of steps comes to. -/
theorem foldlM {f : α → β → Verdict α} (hf : ∀ a b, P a → (f a b).Meets P) {a : α} (h : P a)
    (bs : List β) : Verdict.Meets (bs.foldlM f a) P := by
  induction bs generalizing a with
  | nil => exact ok h
  | cons b bs ih =>
    rw [List.foldlM_cons]
    exact bind (hf a b h) fun _ => ih

end Verdict.Meets

/-- What the reader reads has the property, wherever it stands. -/
def Reader.Gives (r : Reader α) (P : α → Prop) : Prop := ∀ ⦃cs a rest⦄, r cs = .ok (a, rest) → P a

namespace Reader.Gives

variable {P : α → Prop} {Q : β → Prop}

theorem anything (r : Reader α) : r.Gives fun _ => True := fun _ _ _ _ => trivial

theorem pure {a : α} (h : P a) : Reader.Gives (Pure.pure a) P := by
  rintro cs _ _ ⟨⟩
  exact h

theorem fail (cause : Cause) : Reader.Gives (Json.fail cause) P := by
  rintro cs a rest ⟨⟩

theorem failPast (cause : Cause) : Reader.Gives (Json.failPast cause) P := by
  rintro cs a rest ⟨⟩

theorem bind {r : Reader α} {f : α → Reader β} (h : r.Gives P) (hf : ∀ a, P a → (f a).Gives Q) :
    Reader.Gives (r >>= f) Q := by
  intro cs b rest hread
  obtain ⟨a, mid, ha, hb⟩ := Reader.bind_eq_ok_iff.1 hread
  exact hf a (h ha) hb

/-- What is read before a reader does not matter to what that gives. -/
theorem after (r : Reader α) {f : α → Reader β} (hf : ∀ a, (f a).Gives Q) :
    Reader.Gives (r >>= f) Q :=
  bind (anything r) fun a _ => hf a

theorem map {r : Reader α} {f : α → β} (h : r.Gives P) (hf : ∀ a, P a → Q (f a)) :
    Reader.Gives (f <$> r) Q := by
  intro cs b rest hread
  obtain ⟨a, ha, rfl⟩ := map_eq_ok hread
  exact hf a (h ha)

end Reader.Gives

/-! ## Decoders -/

namespace Decoder

/-- What the decoder reads from a text, and what it takes from a value, has the property. -/
structure Yields (d : Decoder α) (P : α → Prop) : Prop where
  read : ∀ budget, (d.read budget).Gives fun r => r.Meets P
  ofValue : ∀ v, (d.ofValue v).Meets P

variable {d : Decoder α} {P : α → Prop}

theorem Yields.fromText (h : d.Yields P) {text : List Char} {a : α}
    (htext : d.fromText text = .ok a) : P a := by
  obtain ⟨rest, hread, -⟩ := fromText_eq_ok_iff.1 htext
  exact h.read nestingLimit hread rfl

theorem Yields.map {Q : β → Prop} (h : d.Yields P) {f : α → β} (hf : ∀ a, P a → Q (f a)) :
    (d.map f).Yields Q where
  read budget := (h.read budget).map fun _ hr => hr.map hf
  ofValue v := (h.ofValue v).map hf

/-- Values that are taken as a whole are taken the same way from a text. -/
theorem yields_ofWhole {accept : Value → Verdict α} (h : ∀ v, (accept v).Meets P) :
    (ofWhole accept).Yields P where
  read budget := (Reader.Gives.anything (Json.value budget)).map fun v _ => h v
  ofValue := h

end Decoder

/-! ## Records -/

namespace Fields

variable {f : Fields α β} {P : α → Prop} {Q : β → Prop}

/-- The fields that have been seen have the properties that go with them. -/
def FromFields (P : α → Prop) (Q : β → Prop) (seen : Seen α β) : Prop :=
  (∀ a, seen.1 = some a → P a) ∧ ∀ b, seen.2 = some b → Q b

theorem fromFields_none : FromFields P Q ((none, none) : Seen α β) := by
  refine ⟨?_, ?_⟩ <;> rintro _ ⟨⟩

theorem FromFields.first {seen : Seen α β} (h : FromFields P Q seen) {a : α} (ha : P a) :
    FromFields P Q (some a, seen.2) := by
  refine ⟨?_, h.2⟩
  rintro _ ⟨⟩
  exact ha

theorem FromFields.second {seen : Seen α β} (h : FromFields P Q seen) {b : β} (hb : Q b) :
    FromFields P Q (seen.1, some b) := by
  refine ⟨h.1, ?_⟩
  rintro _ ⟨⟩
  exact hb

theorem meets_complete {seen : Seen α β} (h : FromFields P Q seen) :
    (f.complete seen).Meets fun p => P p.1 ∧ Q p.2 := by
  obtain ⟨_ | a, second⟩ := seen
  · exact .error _
  obtain _ | b := second
  · exact .error _
  · exact .ok ⟨h.1 a rfl, h.2 b rfl⟩

section

variable (h₁ : f.firstType.Yields P) (h₂ : f.secondType.Yields Q)

include h₁ h₂

theorem meets_addEntry {seen : Seen α β} (entry : String × Value) (h : FromFields P Q seen) :
    (f.addEntry seen entry).Meets (FromFields P Q) := by
  unfold addEntry
  split
  · exact (h₁.ofValue entry.2).bind fun a ha => .ok (h.first ha)
  split
  · exact (h₂.ofValue entry.2).bind fun b hb => .ok (h.second hb)
  · exact .ok h

/-- A record that is taken from a value has fields that were taken from values. -/
theorem meets_ofValue (v : Value) : (f.ofValue v).Meets fun p => P p.1 ∧ Q p.2 := by
  unfold ofValue
  split
  · exact (Verdict.Meets.foldlM (fun seen entry => meets_addEntry h₁ h₂ entry) fromFields_none
      _).bind fun seen hseen => meets_complete hseen
  · exact .error _
  · exact (h₁.ofValue _).bind fun _ _ => .error _
  · refine (h₁.ofValue _).bind fun a ha => (h₂.ofValue _).bind fun b hb => ?_
    split
    · exact .ok ⟨ha, hb⟩
    · exact .error _
  · exact .error _

theorem gives_addMember (budget : Nat) {seen : Seen α β} (h : FromFields P Q seen) :
    (f.addMember budget seen).Gives fun r => r.Meets (FromFields P Q) := by
  unfold addMember
  refine .after key fun k => ?_
  split
  · split
    · exact .pure (.error _)
    · refine .bind (.after colon fun _ => h₁.read budget) fun r hr => .pure ?_
      exact hr.map fun a ha => h.first ha
  split
  · split
    · exact .pure (.error _)
    · refine .bind (.after colon fun _ => h₂.read budget) fun r hr => .pure ?_
      exact hr.map fun b hb => h.second hb
  · exact .after colon fun _ => .after skip fun _ => .pure (.ok h)

/-- However many members are read, the fields among them are from the decoders of the fields. -/
theorem gives_membersWithin (budget count : Nat) (separator : Reader Bool) {seen : Seen α β}
    (h : FromFields P Q seen) :
    (f.membersWithin budget count separator seen).Gives fun r => r.Meets (FromFields P Q) := by
  induction count generalizing separator seen with
  | zero => exact .failPast _
  | succ count ih =>
    rw [membersWithin]
    refine .after separator fun more => ?_
    split
    · refine (gives_addMember h₁ h₂ budget h).bind fun r hr => ?_
      split
      · exact ih _ (hr rfl)
      · exact .pure (.error _)
    · exact .pure (.ok h)

theorem gives_fromMembers (budget : Nat) :
    (f.fromMembers budget).Gives fun r => r.Meets fun p => P p.1 ∧ Q p.2 := by
  intro cs r rest hread
  have hmembers : Reader.Gives (do
      let seen ← f.membersWithin budget (cs.length + 1) (firstItem .curly) (none, none)
      return seen.bind f.complete) fun r : Verdict (α × β) => r.Meets fun p => P p.1 ∧ Q p.2 :=
    (gives_membersWithin h₁ h₂ budget _ _ fromFields_none).bind fun seen hseen =>
      .pure (hseen.bind fun _ => meets_complete)
  exact hmembers hread

theorem gives_fromItems (budget : Nat) :
    (f.fromItems budget).Gives fun r => r.Meets fun p => P p.1 ∧ Q p.2 := by
  unfold fromItems
  refine .after _ fun first => ?_
  split
  · exact .pure (.error _)
  refine (h₁.read budget).bind fun r hr => ?_
  split
  · exact .pure (.error _)
  refine .after _ fun next => ?_
  split
  · exact .pure (.error _)
  · exact (h₂.read budget).bind fun r' hr' => .pure (hr'.map fun b hb => ⟨hr rfl, hb⟩)

end

/-- What is read between brackets is what their contents are read as. -/
theorem gives_enclosed {R : γ → Prop} {bracket : Bracket} {body : Reader (Verdict γ)}
    (h : body.Gives fun r => r.Meets R) : (enclosed bracket body).Gives R := by
  refine .after consume fun _ => h.bind fun r hr => ?_
  intro cs c rest hread
  revert hread
  simp only
  split
  · exact fun hread => absurd hread (by simp)
  · exact fun hread => absurd hread (by simp)
  · rintro ⟨⟩
    exact hr rfl

/-- **Records.**  A record yields what its fields yield. -/
theorem yields_decoder (h₁ : f.firstType.Yields P) (h₂ : f.secondType.Yields Q) :
    f.decoder.Yields fun p => P p.1 ∧ Q p.2 where
  read budget := by
    refine .after lead fun found => ?_
    split
    · exact (gives_enclosed (gives_fromMembers h₁ h₂ _)).map fun _ hp => .ok hp
    · exact (gives_enclosed (gives_fromItems h₁ h₂ _)).map fun _ hp => .ok hp
    · exact .failPast _
    · exact .failPast _
    · exact .fail _
  ofValue := meets_ofValue h₁ h₂

end Fields

end Intake.Json
