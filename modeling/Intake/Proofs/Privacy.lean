import Intake.Proofs.Decimal.Digits
import Intake.Proofs.Names
import Mathlib.Data.List.Forall2

/-!
# What normalizing discloses

A name is personal, so it should be seen in the normalized record and nowhere else.  Whoever reads
the events learns the number of fields of each record and nothing more, `reports_eq_iff`: the event
is made before the name is looked at, so it does not even tell whether there is one.  Whoever reads
an error learns the kind of the value that stood in place of a name, but not the value.

These are statements about two runs that differ in what should stay hidden.  For a sequence of calls
the events are compared call by call.  The calls may be for identifiers of different types, and any
of them may fail.
-/

namespace Intake.Normalized

open Json (Value Kind)

variable {ι κ : Type} {r s : Record}

/-! ## Events -/

/-- A record and the identifier that it is to be normalized for. -/
structure Call where
  {Id : Type}
  id : Id
  record : Record

/-- The events that a call reports. -/
def Call.events (c : Call) : List Event := (ofRecord c.id c.record).events

/-- The events that calls report, one call after the other. -/
def reports (calls : List Call) : List Event := calls.flatMap Call.events

/-- The event of a record is that of another one exactly if they have as many fields. -/
@[simp] theorem event_eq_iff : event r = event s ↔ r.size = s.size := by
  refine ⟨fun h => ?_, fun h => by rw [event, event, h]⟩
  have hfields := congrArg Event.fields h
  simp only [event, List.cons.injEq, Prod.mk.injEq, and_true, true_and] at hfields
  exact Decimal.natText_injective (String.ofList_injective hfields)

@[simp] theorem reports_cons (c : Call) (calls : List Call) :
    reports (c :: calls) = event c.record :: reports calls := rfl

/-- Two sequences of calls report the same events exactly if their records have as many fields, one
by one. -/
theorem reports_eq_iff {calls calls' : List Call} : reports calls = reports calls' ↔
    List.Forall₂ (fun c c' => c.record.size = c'.record.size) calls calls' := by
  induction calls generalizing calls' with
  | nil => cases calls' <;> simp [reports, Call.events, ofRecord]
  | cons c calls ih =>
    cases calls' with
    | nil => simp [reports, Call.events, ofRecord]
    | cons c' calls' =>
      rw [reports_cons, reports_cons, List.cons.injEq, event_eq_iff, ih, List.forall₂_cons]

/-! ## Errors -/

/-- The kind of the value that a record has for the name. -/
def nameKind (r : Record) : Option Kind := (r.get? nameField).map Value.kind

/-- The error for a name of a kind. -/
def refusal : Option Kind → Option Error
  | none => none
  | some .string => none
  | some found => some (.typeMismatch nameField Kind.string.name found)

/-- The error that a call ends with, if it does not return a normalized record. -/
def Call.error? (c : Call) : Option Error :=
  match (ofRecord c.id c.record).result with
  | .ok _ => none
  | .error e => some e

/-- The error for a value that is no string names its kind only. -/
theorem compute_of_kind {id : ι} {v : Value} (h : r.get? nameField = some v)
    (hkind : v.kind ≠ .string) :
    compute id r = .error (.typeMismatch nameField Kind.string.name v.kind) := by
  have hstring : r.string? nameField = .error (.mismatch nameField Kind.string.name v) := by
    rw [Record.string?, h]
    cases v <;> first | rfl | exact absurd rfl hkind
  rw [compute, hstring]
  rfl

/-- Apart from the identifier, the result depends on the value of the name only. -/
theorem compute_congr (id : ι) (h : r.get? nameField = s.get? nameField) :
    compute id r = compute id s := by
  rw [compute, compute, Record.string?, Record.string?, h]

/-- Whether a call fails, and with which error, is decided by the kind of the name. -/
theorem error?_eq (c : Call) : c.error? = refusal (nameKind c.record) := by
  rw [Call.error?, ofRecord, nameKind]
  cases hname : c.record.get? nameField with
  | none =>
    have hok : compute c.id c.record = .ok ⟨c.id, Text.lowercase ""⟩ := by
      rw [compute, Record.string?, hname]
      rfl
    rw [hok]
    rfl
  | some v =>
    cases v with
    | string name =>
      have hok : compute c.id c.record = .ok ⟨c.id, Text.lowercase name⟩ :=
        normalizesTo_lowercase hname c.id
      rw [hok]
      rfl
    | null | bool b | number n | array items | object entries =>
      rw [compute_of_kind hname (by simp [Value.kind])]
      rfl

/-! ## Runs -/

/-- What is seen of a call from outside: its events, and the words of its error if it fails. -/
def Call.seen (c : Call) : List Event × Option String := (c.events, c.error?.map Error.message)

theorem seen_congr {c c' : Call} (hsize : c.record.size = c'.record.size)
    (hkind : nameKind c.record = nameKind c'.record) : c.seen = c'.seen := by
  have hevents : c.events = c'.events := congrArg ([·]) (event_eq_iff.2 hsize)
  rw [Call.seen, Call.seen, hevents, error?_eq, error?_eq, hkind]

/-- Two runs whose records have as many fields, and names of the same kinds, look the same from
outside. -/
theorem map_seen_eq {calls calls' : List Call} (h : List.Forall₂ (fun c c' =>
    c.record.size = c'.record.size ∧ nameKind c.record = nameKind c'.record) calls calls') :
    calls.map Call.seen = calls'.map Call.seen := by
  induction h with
  | nil => rfl
  | cons hcall _ ih => rw [List.map_cons, List.map_cons, seen_congr hcall.1 hcall.2, ih]

/-- **What normalizing discloses.**  The events of calls tell the numbers of fields and nothing
else.  The error for a name that is no string, with its words, tells the kind of the value and
nothing else; so a run, with its errors, looks the same whatever the identifiers, the names and the
other fields are.  What is returned for an identifier depends on the name only. -/
theorem ofRecord_discloses (calls calls' : List Call) (r s : Record) (id : ι) (id' : κ) :
    (reports calls = reports calls' ↔
      List.Forall₂ (fun c c' => c.record.size = c'.record.size) calls calls') ∧
    (∀ v w, r.get? nameField = some v → s.get? nameField = some w → v.kind ≠ .string →
      w.kind = v.kind → ∃ e, (ofRecord id r).result = .error e ∧ (ofRecord id' s).result = .error e ∧
        e = .typeMismatch "name" "string" v.kind ∧
        e.message = "type mismatch for 'name': expected string, found " ++ v.kind.name) ∧
    (List.Forall₂ (fun c c' => c.record.size = c'.record.size ∧
        nameKind c.record = nameKind c'.record) calls calls' →
      calls.map Call.seen = calls'.map Call.seen) ∧
    (r.get? nameField = s.get? nameField → (ofRecord id r).result = (ofRecord id s).result) := by
  refine ⟨reports_eq_iff, fun v w hv hw hkind hsame => ?_, map_seen_eq, compute_congr id⟩
  refine ⟨_, compute_of_kind hv hkind, ?_, rfl, rfl⟩
  rw [← hsame] at hkind ⊢
  exact compute_of_kind hw hkind

/-- The record with nothing but a value for the name. -/
def nameless (v : Value) : Record := Record.empty.withField nameField v

/-- A call that succeeds and one that fails, for identifiers of different types, report the same if
the records have as many fields; two names that are numbers have the same error, and the calls look
the same; and an address beside the name changes nothing. -/
theorem ofRecord_discloses_of_calls :
    reports [⟨"a", named "Ada"⟩, ⟨1, nameless .null⟩] =
      reports [⟨2, Record.empty.withField "email" (.bool true)⟩, ⟨"b", named "Bob"⟩] ∧
    (∃ e, (ofRecord "a" (nameless (.number (.ofInt64 1)))).result = .error e ∧
      (ofRecord 2 (nameless (.number (.ofInt64 2)))).result = .error e ∧
      e.message = "type mismatch for 'name': expected string, found number") ∧
    [Call.mk "a" (nameless (.number (.ofInt64 1)))].map Call.seen =
      [Call.mk 2 (nameless (.number (.ofInt64 2)))].map Call.seen ∧
    (ofRecord "a" (named "Ada")).result =
      (ofRecord "a" ((named "Ada").withField "email" (.string "ada"))).result := by
  have hreports := (ofRecord_discloses [⟨"a", named "Ada"⟩, ⟨1, nameless .null⟩]
    [⟨2, Record.empty.withField "email" (.bool true)⟩, ⟨"b", named "Bob"⟩] .empty .empty 0 0).1.2
  obtain ⟨-, herror, hseen, -⟩ := ofRecord_discloses [⟨"a", nameless (.number (.ofInt64 1))⟩]
    [⟨2, nameless (.number (.ofInt64 2))⟩] (nameless (.number (.ofInt64 1)))
    (nameless (.number (.ofInt64 2))) "a" 2
  obtain ⟨-, -, -, hresult⟩ := ofRecord_discloses [] [] (named "Ada")
    ((named "Ada").withField "email" (.string "ada")) "a" "a"
  refine ⟨hreports (.cons rfl (.cons rfl .nil)), ?_, hseen (.cons ⟨rfl, rfl⟩ .nil), hresult ?_⟩
  · obtain ⟨e, hr, hs, -, hmessage⟩ := herror _ _ (Record.get?_withField_self ..)
      (Record.get?_withField_self ..) (by decide) rfl
    exact ⟨e, hr, hs, hmessage⟩
  · rfl

end Intake.Normalized
