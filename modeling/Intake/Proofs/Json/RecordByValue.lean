import Intake.Proofs.Json.ByValue
import Intake.Proofs.Json.RepeatedFields
import Intake.Proofs.Json.Skipping

/-!
# Decoding records by way of the document

A record of two fields can be decoded at once or by way of the document too, but the two ways are
not the same: going through the text, a repeated field is noticed and the record refused.  This is
the only difference, `decoder_fromText_eq_ok_iff`.

The proof goes by a third way, `ofEntries`, that takes the entries in the order of the text.  Here
it is compared with going through the text.  Members are read like their entries are taken, if the
decoders of the fields are consistent, and members that are passed over end where they would have
been read to.
-/

namespace Intake.Json

open Grammar

namespace Fields

variable {α β γ : Type} {f : Fields α β}

/-! ## Members -/

section Members

variable {budget : Nat}

theorem framed_pieces {members : List Member} (hms : ∀ m ∈ members, IsMember budget m) :
    ∀ p ∈ members.map Member.piece, p.Framed := by
  intro p hp
  obtain ⟨m, hm, rfl⟩ := List.mem_map.1 hp
  exact (hms m hm).framed.piece

theorem opens_pieces {members : List Member} (hms : ∀ m ∈ members, IsMember budget m) :
    ∀ p ∈ members.map Member.piece, Opens .curly p.core := by
  intro p hp
  obtain ⟨m, hm, rfl⟩ := List.mem_map.1 hp
  exact member_opens (hms m hm).framed

/-- The value of a field is read after its key as it is decoded. -/
theorem field_agrees {d : Decoder γ} (hd : d.Consistent) {m : Member} (hm : IsMember budget m)
    {rest : List Char} (hr : Ends rest) :
    Agrees rest (d.ofValue m.item.value)
      (field d budget (m.gap ++ ':' :: (m.item.before ++ (m.item.core ++ rest)))) :=
  Agrees.bind_ok (colon_append hm.framed.gap _)
    (hd hm.denotes hm.nesting_le hm.framed.item.before hr)

/-- A member is read as its entry is taken. -/
theorem addMember_agrees (h₁ : f.firstType.Consistent) (h₂ : f.secondType.Consistent)
    {m : Member} (hm : IsMember budget m) (seen : Seen α β) {rest : List Char} (hr : Ends rest) :
    Agrees rest (f.addOnce seen (m.key, m.item.value))
      (f.addMember budget seen (m.piece.core ++ rest)) := by
  have htext : m.piece.core ++ rest =
      m.keyText ++ (m.gap ++ ':' :: (m.item.before ++ (m.item.core ++ rest))) := by
    simp [Member.piece]
  rw [htext]
  refine Agrees.bind_ok (key_append hm.framed.key _) ?_
  simp only [addOnce]
  split
  · split
    · exact .refused _ _ _
    · exact (field_agrees h₁ hm hr).map _
  split
  · split
    · exact .refused _ _ _
    · exact (field_agrees h₂ hm hr).map _
  · refine Agrees.bind_ok (colon_append hm.framed.gap _) ?_
    exact Agrees.bind_ok (skip_append hm.denotes hm.framed.item.before hr) (.taken seen)

/-- The loop over members takes their entries one after the other. -/
theorem membersWithin_agrees (h₁ : f.firstType.Consistent) (h₂ : f.secondType.Consistent)
    {members : List Member} (hms : ∀ m ∈ members, IsMember budget m) (rest : List Char)
    (seen : Seen α β) {count : Nat} (hc : members.length < count) {separator : Reader Bool}
    {cs : List Char}
    (hs : separator cs = .ok (separated ('}' :: rest) (members.map Member.piece))) :
    Agrees ('}' :: rest) ((writtenEntries members).foldlM f.addOnce seen)
      (f.membersWithin budget count separator seen cs) := by
  induction members generalizing seen count separator cs with
  | nil =>
    cases count with
    | zero => exact absurd hc (Nat.not_lt_zero _)
    | succ count => exact Agrees.bind_ok hs (.taken seen)
  | cons m members ih =>
    obtain ⟨hm, hms⟩ := List.forall_mem_cons.1 hms
    cases count with
    | zero => exact absurd hc (Nat.not_lt_zero _)
    | succ count =>
      refine Agrees.bind_ok hs ?_
      -- the member is taken, and then the loop goes on from the separator after it
      have hends := ends_blank_append hm.framed.item.after
        (ends_tailText .curly (members.map Member.piece) rest)
      refine Agrees.bind (g := fun seen => (writtenEntries members).foldlM f.addOnce seen)
        (addMember_agrees h₁ h₂ hm seen hends) (fun seen => ?_) fun _ => rfl
      exact ih hms seen (Nat.lt_of_succ_lt_succ hc)
        (nextItem_tailText hm.framed.item.after (framed_pieces hms) (opens_pieces hms) rest)

/-- What stands between the brackets of an object is read as the entries are taken. -/
theorem fromMembers_agrees (h₁ : f.firstType.Consistent) (h₂ : f.secondType.Consistent)
    {bs : List Char} (hb : Blank bs) {members : List Member}
    (hms : ∀ m ∈ members, IsMember budget m) (rest : List Char) :
    Agrees ('}' :: rest) (f.ofEntries (writtenEntries members))
      (f.fromMembers budget (bs ++ bodyText ('}' :: rest) (members.map Member.piece))) := by
  have hlen : members.length <
      (bs ++ bodyText ('}' :: rest) (members.map Member.piece)).length + 1 := by
    have := length_le_length_bodyText ('}' :: rest) (opens_pieces hms)
    rw [List.length_map] at this
    rw [List.length_append]
    omega
  exact (membersWithin_agrees h₁ h₂ hms rest (none, none) hlen
    (firstItem_bodyText hb (framed_pieces hms) (opens_pieces hms) rest)).andThen f.complete

end Members

/-! ## Brackets -/

theorem ending_close {bracket : Bracket} {bs : List Char} (hb : Blank bs) (rest : List Char) :
    ending bracket (bs ++ bracket.close :: rest) = (rest, none) := by
  have hdrop : (bs ++ bracket.close :: rest).dropWhile isBlank = bracket.close :: rest := by
    rw [dropWhile_blank_append hb, List.dropWhile_cons,
      if_neg (by rw [close_not_blank]; exact Bool.false_ne_true)]
  simp only [ending, hdrop, if_true]

/-- A comma where the closing bracket should be is a fault. -/
theorem exists_ending_comma {bs : List Char} (hb : Blank bs) (cs : List Char) :
    ∃ left cause, ending .square (bs ++ ',' :: cs) = (left, some cause) := by
  have hdrop : (bs ++ ',' :: cs).dropWhile isBlank = ',' :: cs := by
    rw [dropWhile_blank_append hb, List.dropWhile_cons, if_neg (by decide)]
  simp only [ending, hdrop, if_neg (close_ne_comma .square), if_true]
  exact ⟨_, _, rfl⟩

section Enclosed

variable {bracket : Bracket} {body : Reader (Verdict γ)} {cs mid rest : List Char} {r : Verdict γ}

/-- What is given out between brackets is given out if the closing bracket follows. -/
theorem enclosed_agrees (h : Agrees mid r (body cs)) (hend : ending bracket mid = (rest, none))
    (opening : Char) : Agrees rest r ((Except.ok <$> enclosed bracket body) (opening :: cs)) := by
  rw [Reader.map_apply, enclosed, Reader.bind_apply, consume_cons]
  simp only
  rw [Reader.bind_apply]
  generalize body cs = answer at h
  cases h with
  | taken a =>
    simp only [hend]
    exact .taken a
  | refused cause cause' left => exact .fault cause _
  | fault cause fault => exact .fault cause fault

/-- Nothing is given out if something else follows. -/
theorem enclosed_refuses {left : List Char} {cause : Cause} (h : Agrees mid r (body cs))
    (hend : ending bracket mid = (left, some cause)) (opening : Char) (cause' : Cause) :
    Agrees rest (.error cause') ((Except.ok <$> enclosed bracket body) (opening :: cs)) := by
  rw [Reader.map_apply, enclosed, Reader.bind_apply, consume_cons]
  simp only
  rw [Reader.bind_apply]
  generalize body cs = answer at h
  cases h with
  | taken a =>
    simp only [hend]
    exact .fault cause' _
  | refused cause cause' left => exact .fault _ _
  | fault cause fault => exact .fault _ fault

end Enclosed

/-! ## Items -/

section Items

variable {budget : Nat} {p q : Piece Value}

theorem opens_item (hp : IsItem budget p) : Opens .square p.core :=
  opens_square_of_denotes hp.denotes

/-- After an item the separator tells whether there is another one. -/
theorem nextItem_item (hp : IsItem budget p) {ps : List (Piece Value)}
    (hps : ∀ q ∈ ps, IsItem budget q) (rest : List Char) :
    nextItem .square .strict (p.after ++ tailText (']' :: rest) ps) =
      .ok (separated (']' :: rest) ps) :=
  nextItem_tailText hp.framed.after (fun q hq => (hps q hq).framed)
    (fun q hq => opens_item (hps q hq)) rest

/-- An item is read as its value is decoded. -/
theorem item_agrees {d : Decoder γ} (hd : d.Consistent) (hp : IsItem budget p)
    (ps : List (Piece Value)) (rest : List Char) :
    Agrees (p.after ++ tailText (']' :: rest) ps) (d.ofValue p.value)
      (d.read budget (p.core ++ (p.after ++ tailText (']' :: rest) ps))) :=
  hd hp.denotes hp.nesting_le blank_nil
    (ends_blank_append hp.framed.after (ends_tailText .square ps rest))

/-- A list of one item is too short. -/
theorem fromItems_singleton_agrees (h₁ : f.firstType.Consistent) {bs : List Char}
    (hb : Blank bs) (hp : IsItem budget p) (rest : List Char) :
    Agrees (']' :: rest) (f.ofValue (.array [p.value]))
      (f.fromItems budget (bs ++ bodyText (']' :: rest) [p])) := by
  have hps : ∀ q ∈ [p], IsItem budget q := List.forall_mem_singleton.2 hp
  refine Agrees.bind_ok (firstItem_bodyText hb (fun q hq => (hps q hq).framed)
    (fun q hq => opens_item (hps q hq)) rest) ?_
  refine Agrees.bind (g := fun _ => .error (f.tooShort 1)) (item_agrees h₁ hp [] rest)
    (fun a => ?_) fun _ => rfl
  have hnext : nextItem .square .strict (p.after ++ ']' :: rest) = .ok (false, ']' :: rest) :=
    nextItem_close hp.framed.after rest
  exact Agrees.bind_ok hnext (.refused _ _ _)

/-- The first two items of a list are read as their values are decoded, whatever follows them. -/
theorem fromItems_pair_agrees (h₁ : f.firstType.Consistent) (h₂ : f.secondType.Consistent)
    {bs : List Char} (hb : Blank bs) {ps : List (Piece Value)}
    (hps : ∀ s ∈ p :: q :: ps, IsItem budget s) (rest : List Char) :
    Agrees (q.after ++ tailText (']' :: rest) ps) (f.ofValue (.array [p.value, q.value]))
      (f.fromItems budget (bs ++ bodyText (']' :: rest) (p :: q :: ps))) := by
  obtain ⟨hp, htail⟩ := List.forall_mem_cons.1 hps
  have hq := htail q List.mem_cons_self
  refine Agrees.bind_ok (firstItem_bodyText hb (fun s hs => (hps s hs).framed)
    (fun s hs => opens_item (hps s hs)) rest) ?_
  refine Agrees.bind (g := fun a => (f.secondType.ofValue q.value).bind fun b => .ok (a, b))
    (item_agrees h₁ hp (q :: ps) rest) (fun a => ?_) fun _ => rfl
  refine Agrees.bind_ok (nextItem_item hp htail rest) ?_
  exact (item_agrees h₂ hq ps rest).map fun b => (a, b)

/-- A list of more than two items makes no record. -/
theorem exists_ofValue_long (v w x : Value) (more : List Value) :
    ∃ cause, f.ofValue (.array (v :: w :: x :: more)) = .error cause := by
  simp only [ofValue]
  cases f.firstType.ofValue v with
  | error cause => exact ⟨cause, rfl⟩
  | ok a =>
    cases f.secondType.ofValue w with
    | error cause => exact ⟨cause, rfl⟩
    | ok b => exact ⟨_, rfl⟩

/-- A list is read as it is decoded. -/
theorem items_agrees (h₁ : f.firstType.Consistent) (h₂ : f.secondType.Consistent)
    {bs : List Char} (hb : Blank bs) {ps : List (Piece Value)} (hps : ∀ p ∈ ps, IsItem budget p)
    (rest : List Char) :
    Agrees rest (f.ofValue (.array (ps.map Piece.value)))
      ((Except.ok <$> enclosed .square (f.fromItems budget))
        ('[' :: (bs ++ bodyText (']' :: rest) ps))) := by
  match ps with
  | [] =>
    have hempty : Agrees (']' :: rest) (f.ofValue (.array []))
        (f.fromItems budget (bs ++ ']' :: rest)) :=
      Agrees.bind_ok (firstItem_close hb rest) (.refused _ _ _)
    exact enclosed_agrees hempty (ending_close blank_nil rest) '['
  | [p] =>
    have hp := hps p List.mem_cons_self
    exact enclosed_agrees (fromItems_singleton_agrees h₁ hb hp rest) (ending_close blank_nil rest)
      '['
  | [p, q] =>
    have hq := hps q (List.mem_cons_of_mem p List.mem_cons_self)
    exact enclosed_agrees (fromItems_pair_agrees h₁ h₂ hb hps rest)
      (ending_close hq.framed.after rest) '['
  | p :: q :: s :: ps =>
    have hq := hps q (List.mem_cons_of_mem p List.mem_cons_self)
    obtain ⟨left, cause, hend⟩ := exists_ending_comma hq.framed.after
      (bodyText (']' :: rest) (s :: ps))
    obtain ⟨cause', hlong⟩ := exists_ofValue_long (f := f) p.value q.value s.value
      (ps.map Piece.value)
    rw [List.map_cons, List.map_cons, List.map_cons, hlong]
    exact enclosed_refuses (fromItems_pair_agrees h₁ h₂ hb hps rest) hend '[' cause'

end Items

/-! ## Records -/

section Records

variable {budget : Nat}

/-- An object is read as its entries are taken in the order of the text. -/
theorem read_agrees_object (h₁ : f.firstType.Consistent) (h₂ : f.secondType.Consistent)
    {before blanks : List Char} (hb : Blank before) (hbi : Blank blanks) {members : List Member}
    (hms : ∀ m ∈ members, IsMember budget m) (rest : List Char) :
    Agrees rest (f.ofEntries (writtenEntries members))
      (f.decoder.read (budget + 1)
        (before ++ '{' :: (blanks ++ piecesText (members.map Member.piece)) ++ '}' :: rest)) := by
  have htext : before ++ '{' :: (blanks ++ piecesText (members.map Member.piece)) ++ '}' :: rest =
      before ++ '{' :: (blanks ++ bodyText ('}' :: rest) (members.map Member.piece)) := by
    rw [← piecesText_append]
    simp
  have hlead := lead_append hb (by decide : isBlank '{' = false)
    (blanks ++ bodyText ('}' :: rest) (members.map Member.piece))
  rw [leadHere_bracket_curly] at hlead
  rw [htext]
  refine Agrees.bind_ok hlead ?_
  exact enclosed_agrees (fromMembers_agrees h₁ h₂ hbi hms rest) (ending_close blank_nil rest) '{'

theorem read_agrees_scalar {t : List Char} {v : Value} (h : Denotes t v 0) (budget : Nat)
    {bs rest : List Char} (hb : Blank bs) (hr : Ends rest) :
    Agrees rest (f.ofValue v) (f.decoder.read budget (bs ++ (t ++ rest))) := by
  refine Agrees.bind_ok (lead_scalar hb h hr) ?_
  cases h <;> exact .fault _ _

/-- Any other text of the grammar is read as its value is decoded. -/
theorem read_agrees_of_ne_object (h₁ : f.firstType.Consistent) (h₂ : f.secondType.Consistent)
    {t : List Char} {v : Value} {n : Nat} (h : Denotes t v n)
    (hv : ¬ ∃ entries, v = .object entries) (hn : n ≤ budget) {bs rest : List Char}
    (hb : Blank bs) (hr : Ends rest) :
    Agrees rest (f.ofValue v) (f.decoder.read budget (bs ++ (t ++ rest))) := by
  cases h with
  | null => exact read_agrees_scalar .null budget hb hr
  | bool b => exact read_agrees_scalar (.bool b) budget hb hr
  | number h hx => exact read_agrees_scalar (.number h hx) budget hb hr
  | string h => exact read_agrees_scalar (.string h) budget hb hr
  | object => exact absurd ⟨_, rfl⟩ hv
  | @array blanks items hbi hf h =>
    refine Agrees.bind_ok (lead_container hb (.array hbi hf h) rest) ?_
    cases budget with
    | zero => exact absurd hn (Nat.not_succ_le_zero _)
    | succ budget =>
      have hle := piecesNesting_le_iff.1 (Nat.le_of_succ_le_succ hn)
      have htext : '[' :: (blanks ++ piecesText items) ++ [']'] ++ rest =
          '[' :: (blanks ++ bodyText (']' :: rest) items) := by
        rw [← piecesText_append]
        simp
      rw [htext]
      exact items_agrees h₁ h₂ hbi (fun p hp => ⟨hf p hp, h p hp, hle p hp⟩) rest

/-! ## Whole texts -/

/-- If the text is that of an object, no two of its members have the key of one field.  A document
that is an object has such members, by `exists_objectText`. -/
def FieldsOnce (f : Fields α β) (text : List Char) : Prop :=
  ∀ members nesting, ObjectText text members nesting →
    (members.map Member.key).count f.first ≤ 1 ∧ (members.map Member.key).count f.second ≤ 1

variable {text : List Char} {p : α × β}

/-- The text of an object is decoded as its entries are taken in the order of the text. -/
theorem fromText_objectText_eq_ok_iff (h₁ : f.firstType.Consistent) (h₂ : f.secondType.Consistent)
    {members : List Member} {nesting : Nat} (h : ObjectText text members nesting)
    (hn : nesting ≤ 127) :
    f.decoder.fromText text = .ok p ↔ f.ofEntries (writtenEntries members) = .ok p := by
  cases h with
  | @intro before blanks after _ hb hbi ha hf h =>
    have hle := piecesNesting_le_iff.1 (Nat.le_of_succ_le_succ hn)
    have hms : ∀ m ∈ members, IsMember 126 m := fun m hm =>
      ⟨hf m hm, h m hm, hle m.piece (List.mem_map_of_mem hm)⟩
    exact (read_agrees_object h₁ h₂ hb hbi hms after).fromText_eq_ok_iff ha

/-- **Records.**  A text that is a document is decoded as a record exactly if the value of the
document is, to the same record, and the text repeats no field. -/
theorem decoder_fromText_eq_ok_iff (hne : f.second ≠ f.first) (h₁ : f.firstType.Consistent)
    (h₂ : f.secondType.Consistent) {v : Value} (hv : document text = .ok v) :
    f.decoder.fromText text = .ok p ↔ f.ofValue v = .ok p ∧ f.FieldsOnce text := by
  by_cases hobject : ∃ entries, v = .object entries
  · obtain ⟨entries, rfl⟩ := hobject
    have hiff {members : List Member} {nesting : Nat} (h : ObjectText text members nesting) :
        f.decoder.fromText text = .ok p ↔ f.ofValue (.object entries) = .ok p ∧
          (members.map Member.key).count f.first ≤ 1 ∧
          (members.map Member.key).count f.second ≤ 1 := by
      rw [fromText_objectText_eq_ok_iff h₁ h₂ h (eq_object_of_objectText h hv).2,
        ofEntries_eq_ok_iff_ofValue hne, keysOf_writtenEntries, ← eq_ofList_of_objectText h hv]
    obtain ⟨members, nesting, htext, -, -⟩ := exists_objectText hv
    constructor
    · intro hread
      exact ⟨((hiff htext).1 hread).1, fun members nesting h => ((hiff h).1 hread).2⟩
    · rintro ⟨hvalue, honce⟩
      exact (hiff htext).2 ⟨hvalue, honce members nesting htext⟩
  · have honce : f.FieldsOnce text := by
      intro members nesting h
      exact absurd ⟨_, (eq_object_of_objectText h hv).1⟩ hobject
    obtain ⟨before, core, after, nesting, rfl, hb, ha, hdenotes, hle⟩ := document_eq_ok_iff.1 hv
    rw [and_iff_left honce]
    exact (read_agrees_of_ne_object h₁ h₂ hdenotes hobject hle hb
      (ends_blank ha)).fromText_eq_ok_iff ha

/-- A type that is made of a record is decoded as the record is. -/
theorem map_decoder_fromText_eq_ok_iff (hne : f.second ≠ f.first) (h₁ : f.firstType.Consistent)
    (h₂ : f.secondType.Consistent) {v : Value} (hv : document text = .ok v) (make : α × β → γ)
    {c : γ} : (f.decoder.map make).fromText text = .ok c ↔
      (f.decoder.map make).ofValue v = .ok c ∧ f.FieldsOnce text := by
  have hvalue : (f.decoder.map make).ofValue v = .ok c ↔ ∃ p, f.ofValue v = .ok p ∧ make p = c :=
    map_eq_ok_iff
  rw [map_fromText_eq_ok_iff, hvalue]
  simp only [decoder_fromText_eq_ok_iff hne h₁ h₂ hv]
  constructor
  · rintro ⟨p, ⟨hp, honce⟩, hc⟩
    exact ⟨⟨p, hp, hc⟩, honce⟩
  · rintro ⟨⟨p, hp, hc⟩, honce⟩
    exact ⟨p, ⟨hp, honce⟩, hc⟩

end Records

end Fields

end Intake.Json
