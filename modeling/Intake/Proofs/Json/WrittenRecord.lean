import Intake.Json.Decoder
import Intake.Proofs.Json.Acceptance
import Intake.Proofs.Json.Written

/-!
# Reading a written record

A record of two fields is written as an object with its fields in order.  A field can be refused
although its text is a value, so what the decoder of the record does with a written record depends
on the verdicts for the two fields, `fromText_written`: it takes the record if both fields are
taken, and otherwise refuses it for the cause for which the first of the refused fields was.

The verdicts are what `Decoder.Judges` is about.  It says of a decoder that it reads a text up to
its end and reaches a verdict, whatever follows the text.
-/

namespace Intake.Json

open Grammar

variable {α β : Type}

namespace Decoder

/-! ## Verdicts -/

/-- The decoder reads the text up to its end and reaches the given verdict. -/
def Judges (d : Decoder α) (budget : Nat) (t : List Char) (verdict : Verdict α) : Prop :=
  ∀ rest, Ends rest → d.read budget (t ++ rest) = .ok (verdict, rest)

/-- The values that a decoder takes as a whole are judged by what they are. -/
theorem judges_ofWhole (accept : Value → Verdict α) {t : List Char} {v : Value} {n budget : Nat}
    (h : Denotes t v n) (hn : n ≤ budget) : (ofWhole accept).Judges budget t (accept v) := by
  intro rest hr
  have hread : Json.value budget (t ++ rest) = .ok (v, rest) :=
    (value_answers h budget [] rest blank_nil hr).eq_ok hn
  show (accept <$> Json.value budget) (t ++ rest) = _
  rw [Reader.map_apply, hread]

end Decoder

namespace Fields

/-! ## Members -/

variable {f : Fields α β} {budget : Nat} {t t₁ t₂ : List Char}

@[simp] theorem key_memberText (k : String) (t rest : List Char) :
    key (memberText k t ++ rest) = .ok (k, ':' :: (t ++ rest)) := by
  rw [memberText, List.append_assoc, List.cons_append]
  exact key_append (stringText_quoted k) _

theorem field_append {d : Decoder α} {r : Verdict α} (h : d.Judges budget t r) {rest : List Char}
    (hr : Ends rest) : field d budget (':' :: (t ++ rest)) = .ok (r, rest) := by
  rw [field, Reader.bind_apply, ← List.nil_append (':' :: (t ++ rest)), colon_append blank_nil]
  exact h rest hr

theorem addMember_first {r : Verdict α} (h : f.firstType.Judges budget t r) {seen : Seen α β}
    (hseen : seen.1 = none) {rest : List Char} (hr : Ends rest) :
    f.addMember budget seen (memberText f.first t ++ rest) =
      .ok (r.map fun a => (some a, seen.2), rest) := by
  rw [addMember, Reader.bind_apply, key_memberText]
  simp only [if_true, hseen, Option.isSome_none, Bool.false_eq_true, if_false]
  rw [Reader.bind_apply, field_append h hr]
  rfl

theorem addMember_second {r : Verdict β} (h : f.secondType.Judges budget t r) {seen : Seen α β}
    (hne : f.second ≠ f.first) (hseen : seen.2 = none) {rest : List Char} (hr : Ends rest) :
    f.addMember budget seen (memberText f.second t ++ rest) =
      .ok (r.map fun b => (seen.1, some b), rest) := by
  rw [addMember, Reader.bind_apply, key_memberText]
  simp only [if_true, if_neg hne, hseen, Option.isSome_none, Bool.false_eq_true, if_false]
  rw [Reader.bind_apply, field_append h hr]
  rfl

theorem opens_memberText (k : String) (t : List Char) : Opens .curly (memberText k t) :=
  ⟨'"', _, rfl, by decide, by decide⟩

/-- The text of the two fields, from the first key to the closing bracket. -/
def membersText (f : Fields α β) (t₁ t₂ rest : List Char) : List Char :=
  memberText f.first t₁ ++ (',' :: (memberText f.second t₂ ++ '}' :: rest))

/-- The record of two verdicts, or the first cause among them. -/
def judged : Verdict α → Verdict β → Verdict (α × β)
  | .error cause, _ => .error cause
  | .ok a, r₂ => r₂.map fun b => (a, b)

variable {r₁ : Verdict α} {r₂ : Verdict β}

/-- The members are read up to the first one that is refused, or up to the closing bracket. -/
theorem fromMembers_written (hne : f.second ≠ f.first) (h₁ : f.firstType.Judges budget t₁ r₁)
    (h₂ : f.secondType.Judges budget t₂ r₂) (rest : List Char) :
    ∃ left, f.fromMembers budget (f.membersText t₁ t₂ rest) = .ok (judged r₁ r₂, left) ∧
      ∀ p, judged r₁ r₂ = .ok p → left = '}' :: rest := by
  obtain ⟨count, hcount⟩ : ∃ count, (f.membersText t₁ t₂ rest).length + 1 = count + 3 := by
    refine ⟨(f.membersText t₁ t₂ rest).length - 2, ?_⟩
    have hlong : 2 ≤ (f.membersText t₁ t₂ rest).length := by
      simp only [membersText, List.length_append, List.length_cons]
      omega
    omega
  have hfirst : firstItem .curly (f.membersText t₁ t₂ rest) =
      .ok (true, f.membersText t₁ t₂ rest) :=
    firstItem_open blank_nil (opens_memberText f.first t₁) _
  have hnext : nextItem .curly .strict (',' :: (memberText f.second t₂ ++ '}' :: rest)) =
      .ok (true, memberText f.second t₂ ++ '}' :: rest) :=
    nextItem_comma blank_nil blank_nil (opens_memberText f.second t₂) _
  have hlast : nextItem .curly .strict ('}' :: rest) = .ok (false, '}' :: rest) :=
    nextItem_close blank_nil rest
  rw [fromMembers, hcount, Reader.bind_apply, membersWithin, Reader.bind_apply, hfirst]
  simp only [if_true]
  rw [Reader.bind_apply, membersText, addMember_first h₁ rfl (ends_cons (by decide))]
  cases r₁ with
  | error cause => exact ⟨_, rfl, fun p hp => absurd hp (by simp [judged])⟩
  | ok a =>
    simp only [Except.map]
    rw [membersWithin, Reader.bind_apply, hnext]
    simp only [if_true]
    rw [Reader.bind_apply, addMember_second h₂ hne rfl (ends_cons (by decide))]
    cases r₂ with
    | error cause => exact ⟨_, rfl, fun p hp => absurd hp (by simp [judged, Except.map])⟩
    | ok b =>
      simp only [Except.map]
      rw [membersWithin, Reader.bind_apply, hlast]
      exact ⟨_, rfl, fun _ _ => rfl⟩

/-! ## Records -/

/-- A written record. -/
def recordText (f : Fields α β) (t₁ t₂ : List Char) : List Char :=
  braced [memberText f.first t₁, memberText f.second t₂]

theorem recordText_append (f : Fields α β) (t₁ t₂ rest : List Char) :
    f.recordText t₁ t₂ ++ rest = '{' :: f.membersText t₁ t₂ rest := by
  simp [recordText, braced, commaSeparated, membersText]

/-- A written record is read if both of its fields are taken, and otherwise refused for the first
cause. -/
theorem decoder_read_written (hne : f.second ≠ f.first)
    (h₁ : f.firstType.Judges budget t₁ r₁) (h₂ : f.secondType.Judges budget t₂ r₂)
    (rest : List Char) :
    (∀ p, judged r₁ r₂ = .ok p →
      f.decoder.read (budget + 1) (f.recordText t₁ t₂ ++ rest) = .ok (.ok p, rest)) ∧
    (∀ cause, judged r₁ r₂ = .error cause →
      ∃ left, f.decoder.read (budget + 1) (f.recordText t₁ t₂ ++ rest) =
        .error ⟨cause, left⟩) := by
  obtain ⟨left, hmembers, hleft⟩ := fromMembers_written hne h₁ h₂ rest
  have hlead : lead ('{' :: f.membersText t₁ t₂ rest) =
      .ok (.object, '{' :: f.membersText t₁ t₂ rest) := by
    rw [← List.nil_append ('{' :: _), lead_append blank_nil (by decide)]
    exact leadHere_bracket_curly _
  have hread : f.decoder.read (budget + 1) (f.recordText t₁ t₂ ++ rest) =
      (Except.ok <$> enclosed .curly (f.fromMembers budget)) (f.recordText t₁ t₂ ++ rest) := by
    rw [recordText_append]
    show (lead >>= _) _ = _
    rw [Reader.bind_apply, hlead]
  rw [hread, Reader.map_apply, recordText_append, enclosed, Reader.bind_apply, consume_cons]
  simp only
  rw [Reader.bind_apply, hmembers]
  refine ⟨fun p hp => ?_, fun cause hcause => ?_⟩
  · have hend : ending .curly ('}' :: rest) = (rest, none) := rfl
    rw [hp, hleft p hp]
    simp only [hend]
  · rw [hcause]
    exact ⟨_, rfl⟩

/-- **Reading a written record.**  The text of a record is decoded if both of its fields are taken,
and otherwise refused for the first cause. -/
theorem fromText_written (hne : f.second ≠ f.first)
    (h₁ : ∀ budget, f.firstType.Judges budget t₁ r₁)
    (h₂ : ∀ budget, f.secondType.Judges budget t₂ r₂) :
    (∀ p, judged r₁ r₂ = .ok p → f.decoder.fromText (f.recordText t₁ t₂) = .ok p) ∧
    (∀ cause, judged r₁ r₂ = .error cause →
      ∃ e, f.decoder.fromText (f.recordText t₁ t₂) = .error e ∧ e.cause = cause) := by
  obtain ⟨htaken, hrefused⟩ := decoder_read_written hne (h₁ 126) (h₂ 126) []
  rw [List.append_nil] at htaken hrefused
  refine ⟨fun p hp => fromText_eq_ok_iff.2 ⟨[], htaken p hp, blank_nil⟩, fun cause hcause => ?_⟩
  obtain ⟨left, hread⟩ := hrefused cause hcause
  refine ⟨.ofFault (f.recordText t₁ t₂) ⟨cause, left⟩, ?_, rfl⟩
  rw [Decoder.fromText, nestingLimit, hread]

end Fields

end Intake.Json
