import Intake.Normalization
import Intake.Proofs.Text.Lowercase

/-!
# Normalizing a record again

The normalized name of a record may be stored in the record in place of its name.  Normalizing the
record once more then gives the same name, because a name in lower case is not changed by lowering
it, and storing it changes nothing.  So the record is left as it is by any number of further passes:
`ofRecord_storedIn`.

A pass on a record without a name adds the field; no pass touches another field.
-/

namespace Intake.Normalized

open Json (Value)

variable {ι κ : Type}

/-! ## Passes -/

/-- The record with the normalized name in place of its own. -/
def storedIn (n : Normalized ι) (r : Record) : Record :=
  r.withField nameField (.string n.normalized)

/-- Normalizes a record and stores the name back. -/
def pass (r : Record) (id : ι) : Except Error Record :=
  (ofRecord id r).result.map fun n => n.storedIn r

/-- One pass after the other, with an identifier for each. -/
def passes (r : Record) (ids : List ι) : Except Error Record := ids.foldlM pass r

theorem compute_eq_ok_iff {id : ι} {r : Record} {n : Normalized ι} :
    compute id r = .ok n ↔
      ∃ name, r.string? nameField = .ok name ∧ n = ⟨id, Text.lowercase (name.getD "")⟩ := by
  unfold compute
  cases r.string? nameField with
  | error e => simp [bind, Except.bind]
  | ok name => simp [bind, Except.bind, pure, Except.pure, eq_comm]

theorem pass_eq_ok_iff {r s : Record} {id : ι} :
    pass r id = .ok s ↔ ∃ n, (ofRecord id r).result = .ok n ∧ n.storedIn r = s := by
  unfold pass
  cases (ofRecord id r).result <;> simp [Except.map]

theorem get?_storedIn (n : Normalized ι) (r : Record) {k : String} (hk : k ≠ nameField) :
    (n.storedIn r).get? k = r.get? k := by
  rw [storedIn, Record.get?_withField, if_neg hk]

/-- Storing a name that was just stored changes nothing. -/
theorem storedIn_storedIn {n : Normalized ι} {m : Normalized κ} (h : m.normalized = n.normalized)
    (r : Record) : m.storedIn (n.storedIn r) = n.storedIn r := by
  simp only [storedIn, h, Record.withField, Record.insert, Dict.insert_insert]

/-! ## Names in lower case -/

theorem isLower_normalized {id : ι} {r : Record} {n : Normalized ι}
    (h : (ofRecord id r).result = .ok n) : ∀ c ∈ n.normalized.toList, Text.IsLower c := by
  obtain ⟨name, -, rfl⟩ := compute_eq_ok_iff.1 h
  exact Text.isLower_of_mem_lowercase

/-- A record in which a name in lower case is stored has this name as its normalized one. -/
theorem result_storedIn {n : Normalized ι} (h : ∀ c ∈ n.normalized.toList, Text.IsLower c)
    (r : Record) (id : κ) : (ofRecord id (n.storedIn r)).result = .ok ⟨id, n.normalized⟩ := by
  refine compute_eq_ok_iff.2 ⟨some n.normalized, Record.string?_withField .., ?_⟩
  rw [Option.getD_some, Text.lowercase_eq_self_iff.2 h]

theorem pass_storedIn {n : Normalized ι} (h : ∀ c ∈ n.normalized.toList, Text.IsLower c)
    (r : Record) (id : κ) : pass (n.storedIn r) id = .ok (n.storedIn r) :=
  pass_eq_ok_iff.2 ⟨⟨id, n.normalized⟩, result_storedIn h r id, storedIn_storedIn rfl r⟩

/-! ## Any number of passes -/

/-- A record that every single pass leaves as it is stays so under any number of them. -/
theorem passes_of_fixed {r : Record} (h : ∀ id : κ, pass r id = .ok r) (ids : List κ) :
    passes r ids = .ok r := by
  induction ids with
  | nil => rfl
  | cons id ids ih =>
    rw [passes, List.foldlM_cons, h id]
    exact ih

/-- One pass keeps every field but the name. -/
theorem get?_pass {r s : Record} {id : ι} (h : pass r id = .ok s) {k : String}
    (hk : k ≠ nameField) : s.get? k = r.get? k := by
  obtain ⟨n, -, rfl⟩ := pass_eq_ok_iff.1 h
  exact get?_storedIn n r hk

/-- Any number of passes keeps every field but the name. -/
theorem get?_passes {ids : List ι} {r s : Record} (h : passes r ids = .ok s) {k : String}
    (hk : k ≠ nameField) : s.get? k = r.get? k := by
  induction ids generalizing r with
  | nil =>
    cases h
    rfl
  | cons id ids ih =>
    rw [passes, List.foldlM_cons] at h
    cases hpass : pass r id with
    | error e =>
      rw [hpass] at h
      exact absurd h (by simp [bind, Except.bind])
    | ok t =>
      rw [hpass] at h
      rw [ih h, get?_pass hpass hk]

/-- **Normalizing again.**  Once a record has been normalized, the record with the normalized name
in it, by whichever of the two ways it was put there, gives that name again for every identifier and
is left as it is by any number of further passes.  All along every other field keeps its value, and
the name is in lower case. -/
theorem ofRecord_storedIn {id : ι} {r : Record} {n : Normalized ι}
    (h : (ofRecord id r).result = .ok n) :
    (r.insert nameField (.string n.normalized)).2 = n.storedIn r ∧
      pass r id = .ok (n.storedIn r) ∧
      (∀ id' : κ, (ofRecord id' (n.storedIn r)).result = .ok ⟨id', n.normalized⟩) ∧
      (∀ ids : List κ, passes (n.storedIn r) ids = .ok (n.storedIn r)) ∧
      (∀ (ids : List ι) (s : Record), passes r ids = .ok s →
        ∀ k, k ≠ nameField → s.get? k = r.get? k) ∧
      ∀ c ∈ n.normalized.toList, Text.IsLower c := by
  have hlower := isLower_normalized h
  refine ⟨rfl, pass_eq_ok_iff.2 ⟨n, h, rfl⟩, ?_, ?_, ?_, hlower⟩
  · exact fun id' => result_storedIn hlower r id'
  · exact passes_of_fixed fun id' => pass_storedIn hlower r id'
  · exact fun ids s hs k hk => get?_passes hs hk

/-- A record with a name that lowers in all ways: two kinds of sigma, and a character that becomes
two. -/
def odysseus : Record :=
  (Record.empty.withField "age" .null).withField nameField (.string "ΟΔΥΣΣΕΥΣ İΣ")

/-- A record without a name gets the empty one, and a name with sigmas stays as it was lowered. -/
theorem ofRecord_storedIn_odysseus :
    ((ofRecord "1" Record.empty).result = .ok ⟨"1", ""⟩ ∧
      passes ((⟨"1", ""⟩ : Normalized String).storedIn Record.empty) [2, 3] =
        .ok ((⟨"1", ""⟩ : Normalized String).storedIn Record.empty)) ∧
    ((ofRecord 1 odysseus).result = .ok ⟨1, "οδυσσευς i̇ς"⟩ ∧
      (ofRecord 2 ((⟨1, "οδυσσευς i̇ς"⟩ : Normalized Nat).storedIn odysseus)).result =
        .ok ⟨2, "οδυσσευς i̇ς"⟩) := by
  have hlower : Text.lowercase "ΟΔΥΣΣΕΥΣ İΣ" = "οδυσσευς i̇ς" := by decide +kernel
  have hempty : (ofRecord "1" Record.empty).result = .ok ⟨"1", ""⟩ :=
    compute_eq_ok_iff.2 ⟨none, by rfl, by rfl⟩
  have hname : (ofRecord 1 odysseus).result = .ok ⟨1, "οδυσσευς i̇ς"⟩ :=
    compute_eq_ok_iff.2 ⟨some _, Record.string?_withField .., by rw [Option.getD_some, hlower]⟩
  exact ⟨⟨hempty, (ofRecord_storedIn hempty).2.2.2.1 [2, 3]⟩,
    ⟨hname, (ofRecord_storedIn hname).2.2.1 2⟩⟩

end Intake.Normalized
