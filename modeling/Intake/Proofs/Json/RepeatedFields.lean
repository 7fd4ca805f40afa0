import Intake.Json.Decoder
import Intake.Proofs.Dict.Writes

/-!
# Fields that are written more than once

The text of an object may repeat a key.  A document has no place for that: it keeps the last member
with the key.  So the record that is taken from a document does not show whether a field was
repeated, while one that is read from the text is refused if it was.

`ofEntries` is the record of entries in the order of a text, each of which is a value already, and
it refuses repeated fields.  What it gives out depends on nothing but the values written at the two
keys, `ofEntries_eq_ok_iff`, and that is how it is compared with the record of the dictionary:
`ofEntries_eq_ok_iff_ofValue` says that repeated fields are the only difference.
-/

namespace Intake.Json

namespace Fields

variable {α β γ : Type} {f : Fields α β}

/-! ## Entries in the order of the text -/

/-- Takes one entry of an object, but no field that was seen before. -/
def addOnce (f : Fields α β) (seen : Seen α β) (entry : String × Value) : Verdict (Seen α β) :=
  if entry.1 = f.first then
    if seen.1.isSome then .error (.duplicateField f.first)
    else (f.firstType.ofValue entry.2).map fun a => (some a, seen.2)
  else if entry.1 = f.second then
    if seen.2.isSome then .error (.duplicateField f.second)
    else (f.secondType.ofValue entry.2).map fun b => (seen.1, some b)
  else .ok seen

/-- The record of entries in the order of the text. -/
def ofEntries (f : Fields α β) (entries : List (String × Value)) : Verdict (α × β) :=
  (entries.foldlM f.addOnce (none, none)).bind f.complete

/-- What has been seen of a field after some values are written at its key: the value, if it is the
only one and nothing was seen before, or what was seen before, if there is none. -/
inductive TakesOnce (d : Decoder γ) : Option γ → List Value → Option γ → Prop
  | nothing (seen : Option γ) : TakesOnce d seen [] seen
  | value {v : Value} {c : γ} (h : d.ofValue v = .ok c) : TakesOnce d none [v] (some c)

section TakesOnce

variable {d : Decoder γ} {seen out : Option γ} {v : Value} {vs : List Value}

@[simp] theorem takesOnce_nil_iff : TakesOnce d seen [] out ↔ seen = out := by
  constructor
  · rintro ⟨⟩
    rfl
  · rintro rfl
    exact .nothing seen

@[simp] theorem takesOnce_cons_iff : TakesOnce d seen (v :: vs) out ↔
    seen = none ∧ ∃ c, d.ofValue v = .ok c ∧ TakesOnce d (some c) vs out := by
  constructor
  · rintro ⟨⟩
    next c h => exact ⟨rfl, c, h, .nothing _⟩
  · rintro ⟨rfl, c, h, ⟨⟩⟩
    exact .value h

@[simp] theorem takesOnce_none_some_iff {c : γ} :
    TakesOnce d none vs (some c) ↔ ∃ v, vs = [v] ∧ d.ofValue v = .ok c := by
  constructor
  · rintro ⟨⟩
    next v h => exact ⟨v, rfl, h⟩
  · rintro ⟨v, rfl, h⟩
    exact .value h

end TakesOnce

theorem addOnce_first {seen out : Seen α β} {k : String} {v : Value} (h : k = f.first) :
    f.addOnce seen (k, v) = .ok out ↔
      seen.1 = none ∧ ∃ a, f.firstType.ofValue v = .ok a ∧ (some a, seen.2) = out := by
  rw [addOnce, if_pos h]
  obtain ⟨_ | a, second⟩ := seen
  · cases f.firstType.ofValue v <;> simp [Except.map]
  · simp

theorem addOnce_second {seen out : Seen α β} {k : String} {v : Value} (hne : f.second ≠ f.first)
    (h : k = f.second) : f.addOnce seen (k, v) = .ok out ↔
      seen.2 = none ∧ ∃ b, f.secondType.ofValue v = .ok b ∧ (seen.1, some b) = out := by
  rw [addOnce, if_neg (h ▸ hne), if_pos h]
  obtain ⟨first, _ | b⟩ := seen
  · cases f.secondType.ofValue v <;> simp [Except.map]
  · simp

theorem addOnce_unknown {seen : Seen α β} {k : String} {v : Value} (h₁ : k ≠ f.first)
    (h₂ : k ≠ f.second) : f.addOnce seen (k, v) = .ok seen := by
  rw [addOnce, if_neg h₁, if_neg h₂]

theorem bind_eq_ok_iff {r : Verdict α} {g : α → Verdict β} {b : β} :
    r >>= g = .ok b ↔ ∃ a, r = .ok a ∧ g a = .ok b := by
  cases r with
  | error cause => exact ⟨fun h => absurd h (by rintro ⟨⟩), by rintro ⟨a, ⟨⟩, -⟩⟩
  | ok a => exact ⟨fun h => ⟨a, rfl, h⟩, by rintro ⟨_, ⟨⟩, h⟩; exact h⟩

/-- Entries are taken if at each of the two keys there is no more to be taken than one value. -/
theorem foldlM_addOnce_eq_ok_iff (hne : f.second ≠ f.first) {entries : List (String × Value)}
    {seen out : Seen α β} : entries.foldlM f.addOnce seen = .ok out ↔
      TakesOnce f.firstType seen.1 (writesAt entries f.first) out.1 ∧
        TakesOnce f.secondType seen.2 (writesAt entries f.second) out.2 := by
  induction entries generalizing seen with
  | nil =>
    have hnil (k : String) : writesAt ([] : List (String × Value)) k = [] := rfl
    rw [List.foldlM_nil, hnil, hnil, takesOnce_nil_iff, takesOnce_nil_iff, ← Prod.ext_iff]
    exact ⟨Except.ok.inj, congrArg Except.ok⟩
  | cons entry entries ih =>
    rw [List.foldlM_cons, bind_eq_ok_iff]
    obtain ⟨k, v⟩ := entry
    by_cases h₁ : k = f.first
    · have h₂ : k ≠ f.second := h₁ ▸ hne.symm
      simp only [addOnce_first h₁, ih]
      rw [h₁] at h₂ ⊢
      rw [writesAt_cons_self, writesAt_cons_of_ne h₂, takesOnce_cons_iff]
      constructor
      · rintro ⟨_, ⟨hseen, a, ha, rfl⟩, htakes₁, htakes₂⟩
        exact ⟨⟨hseen, a, ha, htakes₁⟩, htakes₂⟩
      · rintro ⟨⟨hseen, a, ha, htakes₁⟩, htakes₂⟩
        exact ⟨_, ⟨hseen, a, ha, rfl⟩, htakes₁, htakes₂⟩
    by_cases h₂ : k = f.second
    · simp only [addOnce_second hne h₂, ih]
      rw [h₂] at h₁ ⊢
      rw [writesAt_cons_self, writesAt_cons_of_ne h₁, takesOnce_cons_iff]
      constructor
      · rintro ⟨_, ⟨hseen, b, hb, rfl⟩, htakes₁, htakes₂⟩
        exact ⟨htakes₁, hseen, b, hb, htakes₂⟩
      · rintro ⟨htakes₁, hseen, b, hb, htakes₂⟩
        exact ⟨_, ⟨hseen, b, hb, rfl⟩, htakes₁, htakes₂⟩
    · rw [writesAt_cons_of_ne h₁, writesAt_cons_of_ne h₂, ← ih]
      simp only [addOnce_unknown h₁ h₂, Except.ok.injEq, exists_eq_left']

@[simp] theorem complete_eq_ok_iff {seen : Seen α β} {p : α × β} :
    f.complete seen = .ok p ↔ seen = (some p.1, some p.2) := by
  obtain ⟨_ | a, _ | b⟩ := seen <;> simp [complete, Prod.ext_iff]

/-- Entries make a record if there is just one value at each of the two keys, and both fields are
taken. -/
theorem ofEntries_eq_ok_iff (hne : f.second ≠ f.first) {entries : List (String × Value)}
    {p : α × β} : f.ofEntries entries = .ok p ↔
      (∃ v, writesAt entries f.first = [v] ∧ f.firstType.ofValue v = .ok p.1) ∧
        ∃ w, writesAt entries f.second = [w] ∧ f.secondType.ofValue w = .ok p.2 := by
  rw [← takesOnce_none_some_iff, ← takesOnce_none_some_iff]
  refine Iff.trans bind_eq_ok_iff ?_
  simp only [complete_eq_ok_iff, exists_eq_right, foldlM_addOnce_eq_ok_iff hne]

/-! ## Entries of a dictionary -/

/-- The key is not that of a field that was seen. -/
def Unseen (f : Fields α β) (seen : Seen α β) (k : String) : Prop :=
  (k = f.first → seen.1 = none) ∧ (k = f.second → seen.2 = none)

/-- Of an entry with another key nothing is seen at this one. -/
theorem Unseen.addOnce (hne : f.second ≠ f.first) {seen out : Seen α β} {k : String}
    (h : f.Unseen seen k) {entry : String × Value} (hk : k ≠ entry.1)
    (hout : f.addOnce seen entry = .ok out) : f.Unseen out k := by
  obtain ⟨key, v⟩ := entry
  by_cases h₁ : key = f.first
  · obtain ⟨-, a, -, rfl⟩ := (addOnce_first h₁).1 hout
    exact ⟨fun hfirst => absurd (hfirst.trans h₁.symm) hk, h.2⟩
  by_cases h₂ : key = f.second
  · obtain ⟨-, b, -, rfl⟩ := (addOnce_second hne h₂).1 hout
    exact ⟨h.1, fun hsecond => absurd (hsecond.trans h₂.symm) hk⟩
  · rw [addOnce_unknown h₁ h₂] at hout
    cases hout
    exact h

theorem addEntry_eq_addOnce {seen : Seen α β} {entry : String × Value}
    (h : f.Unseen seen entry.1) : f.addEntry seen entry = f.addOnce seen entry := by
  unfold addEntry addOnce
  split
  · next h₁ =>
    rw [h.1 h₁]
    cases f.firstType.ofValue entry.2 <;> rfl
  split
  · next h₂ =>
    rw [h.2 h₂]
    cases f.secondType.ofValue entry.2 <;> rfl
  · rfl

/-- If no key is repeated, it makes no difference that repeated fields are refused. -/
theorem foldlM_addEntry_eq (hne : f.second ≠ f.first) {entries : List (String × Value)}
    (hnodup : (keysOf entries).Nodup) {seen : Seen α β}
    (h : ∀ k ∈ keysOf entries, f.Unseen seen k) :
    entries.foldlM f.addEntry seen = entries.foldlM f.addOnce seen := by
  induction entries generalizing seen with
  | nil => rfl
  | cons entry entries ih =>
    obtain ⟨hentry, hnodup⟩ := List.nodup_cons.1 hnodup
    rw [List.foldlM_cons, List.foldlM_cons, addEntry_eq_addOnce (h entry.1 List.mem_cons_self)]
    cases hout : f.addOnce seen entry with
    | error cause => rfl
    | ok out =>
      refine ih hnodup fun k hk => (h k (List.mem_cons_of_mem _ hk)).addOnce hne ?_ hout
      rintro rfl
      exact hentry hk

/-- The record of a dictionary is that of its entries. -/
theorem ofValue_object (hne : f.second ≠ f.first) (d : Dict Value) :
    f.ofValue (.object d) = f.ofEntries d.entries := by
  have hnodup : (keysOf d.entries).Nodup := d.ascending_entries.imp String.ne_of_lt
  show (d.entries.foldlM f.addEntry (none, none)).bind f.complete = _
  rw [foldlM_addEntry_eq hne hnodup fun k _ => ⟨fun _ => rfl, fun _ => rfl⟩, ofEntries]

/-- **Repeated fields.**  Entries make the same record as the dictionary of them, except that no
field may be repeated. -/
theorem ofEntries_eq_ok_iff_ofValue (hne : f.second ≠ f.first) {entries : List (String × Value)}
    {p : α × β} : f.ofEntries entries = .ok p ↔
      f.ofValue (.object (Dict.ofList entries)) = .ok p ∧
        (keysOf entries).count f.first ≤ 1 ∧ (keysOf entries).count f.second ≤ 1 := by
  rw [ofValue_object hne, ofEntries_eq_ok_iff hne, ofEntries_eq_ok_iff hne]
  simp only [Dict.writesAt_entries_eq_singleton_iff, Dict.get?_ofList_eq_lastWrite]
  simp only [writesAt_eq_singleton_iff]
  constructor
  · rintro ⟨⟨v, ⟨hv, hfirst⟩, ha⟩, w, ⟨hw, hsecond⟩, hb⟩
    exact ⟨⟨⟨v, hv, ha⟩, w, hw, hb⟩, hfirst, hsecond⟩
  · rintro ⟨⟨⟨v, hv, ha⟩, w, hw, hb⟩, hfirst, hsecond⟩
    exact ⟨⟨v, ⟨hv, hfirst⟩, ha⟩, w, ⟨hw, hsecond⟩, hb⟩

end Fields

end Intake.Json
