import Intake.Proofs.Json.Acceptance

/-!
# Decoding by way of the document

A text can be decoded at once, or it is read as a document and the value is decoded.  The two ways
share no code: the first one goes through the text and may stop early, the second one sees a value
that is complete.  A decoder is `Consistent` if they cannot be told apart by what they give out: on
any text of the grammar the first way gives what the second one gives for the value that the text
denotes, and it reads up to the end of the text.

If there is nothing to be given out, the two need not agree on why.  A text may have more than one
fault, and which of them is found depends on the way.  That is left open by `Agrees`.
-/

namespace Intake.Json

open Grammar

variable {α β : Type}

/-! ## Agreement of answers -/

/-- The answer of a reader agrees with a verdict: both give out the same, and then the reader stops
in front of the given rest, or both give out nothing. -/
inductive Agrees (rest : List Char) : Verdict α → Except Fault (Verdict α × List Char) → Prop
  | taken (a : α) : Agrees rest (.ok a) (.ok (.ok a, rest))
  | refused (cause cause' : Cause) (left : List Char) :
      Agrees rest (.error cause) (.ok (.error cause', left))
  | fault (cause : Cause) (fault : Fault) : Agrees rest (.error cause) (.error fault)

namespace Agrees

variable {rest : List Char} {r : Verdict α} {answer : Except Fault (Verdict α × List Char)}

theorem eq_ok_iff (h : Agrees rest r answer) {a : α} {left : List Char} :
    answer = .ok (.ok a, left) ↔ r = .ok a ∧ left = rest := by
  cases h with
  | taken a => simp [eq_comm]
  | refused cause cause' left => simp
  | fault cause fault => simp

/-- An answer that gives out nothing agrees with any refusal. -/
theorem of_ne_ok (cause : Cause) (h : ∀ a left, answer ≠ .ok (.ok a, left)) :
    Agrees rest (.error cause) answer := by
  rcases answer with fault | ⟨_ | a, left⟩
  · exact .fault cause fault
  · exact .refused cause _ left
  · exact absurd rfl (h a left)

theorem map (f : α → β) {x : Reader (Verdict α)} {cs : List Char} (h : Agrees rest r (x cs)) :
    Agrees rest (r.map f) ((Except.map f <$> x) cs) := by
  rw [Reader.map_apply]
  generalize x cs = answer at h
  cases h with
  | taken a => exact .taken (f a)
  | refused cause cause' left => exact .refused cause cause' left
  | fault cause fault => exact .fault cause fault

/-- After a first part that is read, the answer is that of the second part. -/
theorem bind_ok {x : Reader β} {f : β → Reader (Verdict α)} {cs mid : List Char} {b : β}
    (hx : x cs = .ok (b, mid)) (h : Agrees rest r (f b mid)) : Agrees rest r ((x >>= f) cs) := by
  rw [Reader.bind_apply, hx]
  exact h

/-- A verdict about what was read decides what is given out. -/
theorem andThen (g : α → Verdict β) {x : Reader (Verdict α)} {cs : List Char}
    (h : Agrees rest r (x cs)) : Agrees rest (r.bind g) (((·.bind g) <$> x) cs) := by
  rw [Reader.map_apply]
  generalize x cs = answer at h
  cases h with
  | taken a =>
    show Agrees rest (g a) (.ok (g a, rest))
    cases g a with
    | ok b => exact .taken b
    | error cause => exact .refused cause cause rest
  | refused cause cause' left => exact .refused cause cause' left
  | fault cause fault => exact .fault cause fault

/-- If the first part gives something out, the answer is that of the second part, and otherwise
nothing is given out. -/
theorem bind {mid : List Char} {x : Reader (Verdict α)} {cs : List Char} {g : α → Verdict β}
    {k : Verdict α → Reader (Verdict β)} (h : Agrees mid r (x cs))
    (hok : ∀ a, Agrees rest (g a) (k (.ok a) mid))
    (herror : ∀ cause, k (.error cause) = pure (.error cause)) :
    Agrees rest (r.bind g) ((x >>= k) cs) := by
  rw [Reader.bind_apply]
  generalize x cs = answer at h
  cases h with
  | taken a => exact hok a
  | refused cause cause' left =>
    show Agrees rest _ (k (.error cause') left)
    rw [herror]
    exact .refused cause cause' left
  | fault cause fault => exact .fault cause fault

/-- A whole text is decoded as the verdict says, if only blanks are left. -/
theorem fromText_eq_ok_iff {d : Decoder α} {text : List Char}
    (h : Agrees rest r (d.read nestingLimit text)) (hb : Blank rest) {a : α} :
    d.fromText text = .ok a ↔ r = .ok a := by
  rw [Json.fromText_eq_ok_iff]
  constructor
  · rintro ⟨left, hread, -⟩
    exact (h.eq_ok_iff.1 hread).1
  · intro hr
    exact ⟨rest, h.eq_ok_iff.2 ⟨hr, rfl⟩, hb⟩

end Agrees

/-! ## Consistent decoders -/

namespace Decoder

/-- On a text of the grammar that nests no deeper than the budget the decoder answers as it does on
the value of the text. -/
def Consistent (d : Decoder α) : Prop :=
  ∀ ⦃t v n⦄, Denotes t v n → ∀ ⦃budget⦄, n ≤ budget → ∀ ⦃bs rest⦄, Blank bs → Ends rest →
    Agrees rest (d.ofValue v) (d.read budget (bs ++ (t ++ rest)))

theorem Consistent.map {d : Decoder α} (h : d.Consistent) (f : α → β) : (d.map f).Consistent :=
  fun _ _ _ ht _ hn _ _ hb hr => (h ht hn hb hr).map f

/-- What is decided by how a value begins is decided in the same way, if it is a scalar. -/
theorem consistent_ofLead {accept : Lead → Verdict α} {cause cause' : Cause}
    (harray : accept .array = .error cause) (hobject : accept .object = .error cause') :
    (ofLead accept).Consistent := by
  intro t v n h budget _ bs rest hb hr
  cases n with
  | zero =>
    refine Agrees.bind_ok (lead_scalar hb h hr) ?_
    show Agrees rest (accept v.lead) _
    cases accept v.lead with
    | ok a => exact .taken a
    | error cause => exact .fault cause _
  | succ n =>
    refine Agrees.bind_ok (lead_container hb h rest) ?_
    show Agrees rest (accept v.lead) _
    cases h with
    | array => rw [Value.lead, harray]; exact .fault cause _
    | object => rw [Value.lead, hobject]; exact .fault cause' _

theorem consistent_ofWhole (accept : Value → Verdict α) : (ofWhole accept).Consistent := by
  intro t v n h budget hn bs rest hb hr
  have hread : Json.value budget (bs ++ (t ++ rest)) = .ok (v, rest) :=
    (value_answers h budget bs rest hb hr).eq_ok hn
  show Agrees rest (accept v) ((accept <$> Json.value budget) (bs ++ (t ++ rest)))
  rw [Reader.map_apply, hread]
  show Agrees rest (accept v) (.ok (accept v, rest))
  cases accept v with
  | ok a => exact .taken a
  | error cause => exact .refused cause cause rest

theorem consistent_bool : bool.Consistent := consistent_ofLead rfl rfl

theorem consistent_string : string.Consistent := consistent_ofLead rfl rfl

theorem consistent_integer (name : String) (least greatest : Int) :
    (integer name least greatest).Consistent := consistent_ofLead rfl rfl

theorem consistent_int64 : int64.Consistent := (consistent_integer ..).map _

theorem consistent_uint64 : uint64.Consistent := (consistent_integer ..).map _

theorem consistent_count : count.Consistent := (consistent_integer ..).map _

/-- A dictionary is read where an object is read as a value. -/
theorem consistent_dict : dict.Consistent := by
  intro t v n h budget hn bs rest hb hr
  have hvalue : Json.value budget (bs ++ (t ++ rest)) = .ok (v, rest) :=
    (value_answers h budget bs rest hb hr).eq_ok hn
  by_cases hobject : ∃ entries, v = .object entries
  · obtain ⟨entries, rfl⟩ := hobject
    rw [dict_read_eq_ok_iff.2 hvalue]
    exact .taken entries
  · have hrefused : ∃ cause, dict.ofValue v = .error cause := by
      cases v <;> first | exact absurd ⟨_, rfl⟩ hobject | exact ⟨_, rfl⟩
    obtain ⟨cause, hcause⟩ := hrefused
    rw [hcause]
    refine Agrees.of_ne_ok cause fun entries left hread => hobject ⟨entries, ?_⟩
    have hsame := hvalue.symm.trans (dict_read_eq_ok_iff.1 hread)
    exact congrArg Prod.fst (Except.ok.inj hsame)

/-! ## Whole texts -/

/-- **Consistent decoders.**  A whole text that is a document is decoded exactly as its value is. -/
theorem Consistent.fromText_eq_ok_iff {d : Decoder α} (h : d.Consistent) {text : List Char}
    {v : Value} (hv : document text = .ok v) {a : α} :
    d.fromText text = .ok a ↔ d.ofValue v = .ok a := by
  obtain ⟨before, core, after, nesting, rfl, hb, ha, hdenotes, hle⟩ := document_eq_ok_iff.1 hv
  exact (h hdenotes hle hb (ends_blank ha)).fromText_eq_ok_iff ha

section Whole

variable {accept : Value → Verdict α} {text : List Char}

/-- The values that are taken as a whole are read as documents first, so a text of which they are
decoded is a document. -/
theorem ofWhole_fromText_eq_ok_iff {a : α} :
    (ofWhole accept).fromText text = .ok a ↔
      ∃ v, document text = .ok v ∧ accept v = .ok a := by
  constructor
  · intro h
    obtain ⟨rest, hread, hrest⟩ := Json.fromText_eq_ok_iff.1 h
    obtain ⟨v, hv, ha⟩ := map_eq_ok hread
    exact ⟨v, readAll_eq_ok_iff.2 ⟨rest, hv, hrest⟩, ha⟩
  · rintro ⟨v, hv, ha⟩
    exact ((consistent_ofWhole accept).fromText_eq_ok_iff hv).2 ha

/-- The document of a text that is refused as a whole is refused for the same cause. -/
theorem ofWhole_fromText_of_error {v : Value} {cause : Cause} (hv : document text = .ok v)
    (h : accept v = .error cause) : (ofWhole accept).fromText text = .error ⟨cause, none⟩ := by
  obtain ⟨rest, hvalue, -⟩ := readAll_eq_ok_iff.1 hv
  have hread : (ofWhole accept).read nestingLimit text = .ok (.error cause, rest) := by
    show (accept <$> Json.value nestingLimit) text = _
    rw [Reader.map_apply, hvalue]
    simp only [h]
  rw [fromText, hread]

end Whole

end Decoder

end Intake.Json
