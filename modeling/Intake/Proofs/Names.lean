import Intake.Proofs.Normalization
import Intake.Proofs.Text.Surroundings

/-!
# What the normalized name depends on

The normalized name is the lower case of the name in the record, and nothing else goes into it:
neither the identifier nor the other fields.  So the laws of lowering are laws of records.

Names that differ in case only have the same normalized name, `normalizesTo_of_case`.  The capital
sigma is left out of this, because its own lower case is decided by its place; but it may stand
anywhere in the names, and what is around it may differ in case.

A name of several words is normalized word by word, `normalizesTo_of_separator`.
-/

namespace Intake.Normalized

open Text (lowerButSigma lowercase IsSeparator)

/-- Normalizing the record succeeds with the given name, for every identifier. -/
def NormalizesTo (r : Record) (name : String) : Prop :=
  ∀ {ι : Type} (id : ι), (ofRecord id r).result = .ok ⟨id, name⟩

theorem normalizesTo_lowercase {r : Record} {name : String}
    (h : r.get? nameField = some (.string name)) : NormalizesTo r (lowercase name) := by
  intro ι id
  refine compute_eq_ok_iff.2 ⟨some name, ?_, rfl⟩
  rw [Record.string?, h]

/-- **Case of names.**  Two records have the same normalized name if their names become the same
when each character but the capital sigma is put in lower case, in particular if the names differ
only in the case of ASCII letters. -/
theorem normalizesTo_of_case {a b : String} {r s : Record}
    (hr : r.get? nameField = some (.string a)) (hs : s.get? nameField = some (.string b)) :
    (a.toList.flatMap lowerButSigma = b.toList.flatMap lowerButSigma →
      NormalizesTo r (lowercase a) ∧ NormalizesTo s (lowercase a)) ∧
    (a.toList.map Char.toLower = b.toList.map Char.toLower →
      NormalizesTo r (lowercase a) ∧ NormalizesTo s (lowercase a)) := by
  have halike (h : a.toList.flatMap lowerButSigma = b.toList.flatMap lowerButSigma) :
      NormalizesTo r (lowercase a) ∧ NormalizesTo s (lowercase a) := by
    refine ⟨normalizesTo_lowercase hr, ?_⟩
    rw [Text.lowercase_eq_of_lowerButSigma h]
    exact normalizesTo_lowercase hs
  refine ⟨halike, fun h => halike ?_⟩
  rw [← Text.flatMap_lowerButSigma_map_toLower, h, Text.flatMap_lowerButSigma_map_toLower]

/-- The record with nothing but a name. -/
def named (name : String) : Record := Record.empty.withField nameField (.string name)

@[simp] theorem get?_named (name : String) : (named name).get? nameField = some (.string name) :=
  Record.get?_withField_self ..

/-- The Kelvin sign has the lower case of K, and the capital I with a dot that of two characters.
The sigmas beside them, some behind a point, are lowered alike in both names. -/
theorem normalizesTo_of_case_of_sigmas :
    ("KΣ.ΣK İΣ".toList.flatMap lowerButSigma = "\u212AΣ.Σk i\u0307Σ".toList.flatMap lowerButSigma ∧
      NormalizesTo (named "KΣ.ΣK İΣ") "kσ.σk i\u0307ς" ∧
      NormalizesTo (named "\u212AΣ.Σk i\u0307Σ") "kσ.σk i\u0307ς") ∧
    ("OdΣ Σ".toList.map Char.toLower = "oDΣ Σ".toList.map Char.toLower ∧
      NormalizesTo (named "OdΣ Σ") "odς σ" ∧ NormalizesTo (named "oDΣ Σ") "odς σ") := by
  have hletters : "KΣ.ΣK İΣ".toList.flatMap lowerButSigma =
      "\u212AΣ.Σk i\u0307Σ".toList.flatMap lowerButSigma := by
    decide +kernel
  have hascii : "OdΣ Σ".toList.map Char.toLower = "oDΣ Σ".toList.map Char.toLower := by
    decide +kernel
  have hfirst : lowercase "KΣ.ΣK İΣ" = "kσ.σk i\u0307ς" := by decide +kernel
  have hsecond : lowercase "OdΣ Σ" = "odς σ" := by decide +kernel
  refine ⟨⟨hletters, ?_⟩, hascii, ?_⟩
  · rw [← hfirst]
    exact (normalizesTo_of_case (get?_named _) (get?_named _)).1 hletters
  · rw [← hsecond]
    exact (normalizesTo_of_case (get?_named _) (get?_named _)).2 hascii

/-- **Names of several words.**  A character that is neither cased nor ignorable separates a name
into two parts that are normalized each on its own, and stays between them as it is. -/
theorem normalizesTo_of_separator {s : Char} (h : IsSeparator s) {a b : String}
    {r first second : Record}
    (hr : r.get? nameField = some (.string (a ++ String.singleton s ++ b)))
    (hfirst : first.get? nameField = some (.string a))
    (hsecond : second.get? nameField = some (.string b)) :
    NormalizesTo first (lowercase a) ∧ NormalizesTo second (lowercase b) ∧
      NormalizesTo r (lowercase a ++ String.singleton s ++ lowercase b) := by
  refine ⟨normalizesTo_lowercase hfirst, normalizesTo_lowercase hsecond, ?_⟩
  rw [← Text.lowercase_append_separator h]
  exact normalizesTo_lowercase hr

/-- A sigma at the end of a word is final although the name goes on behind the space, and one at
the beginning is not. -/
theorem normalizesTo_of_separator_of_space :
    IsSeparator ' ' ∧ NormalizesTo (named "ΟΔΟΣ") "οδος" ∧ NormalizesTo (named "ΣΟΦΟΣ'") "σοφος'" ∧
      NormalizesTo (named "ΟΔΟΣ ΣΟΦΟΣ'") "οδος σοφος'" := by
  have hspace : IsSeparator ' ' := ⟨by decide +kernel, by decide +kernel⟩
  have hfirst : lowercase "ΟΔΟΣ" = "οδος" := by decide +kernel
  have hsecond : lowercase "ΣΟΦΟΣ'" = "σοφος'" := by decide +kernel
  have hwords := normalizesTo_of_separator hspace
    (get?_named ("ΟΔΟΣ" ++ String.singleton ' ' ++ "ΣΟΦΟΣ'")) (get?_named _) (get?_named _)
  rw [hfirst, hsecond] at hwords
  exact ⟨hspace, hwords⟩

end Intake.Normalized
