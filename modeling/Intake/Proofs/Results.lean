import Intake.Analyzer
import Intake.Proofs.Json.ByValue
import Intake.Proofs.Json.WrittenRecord
import Intake.Proofs.Normalization

/-!
# Reading results back

Normalized users and counts are records of two fields, and each field is a string, a truth value or
a word.  The text of such a field denotes a value of which the decoder of the field takes exactly
what was written, so it is read back, `ReadsBack`, and with the fields the record is.

Nothing is asked of the strings.  An identifier may hold any characters, and so may a name, which
may even have become longer when it was lowered.  Of the counts it is asked that they are 64-bit
words, as the size of anything in memory is.
-/

namespace Intake

namespace Json

open Grammar

variable {α β : Type}

namespace Decoder

/-- The decoder reads back what is written, at any depth and whatever follows. -/
def ReadsBack [Write α] (d : Decoder α) (a : α) : Prop :=
  ∀ budget, d.Judges budget (Write.write a) (.ok a)

/-- What is taken from the value that is written is read back. -/
theorem readsBack_of_denotes [Write α] {d : Decoder α} (hd : d.Consistent) {a : α} {v : Value}
    (h : Denotes (Write.write a) v 0) (ha : d.ofValue v = .ok a) : d.ReadsBack a :=
  fun budget _ hr => (hd h (Nat.zero_le budget) blank_nil hr).eq_ok_iff.2 ⟨ha, rfl⟩

theorem readsBack_bool (b : Bool) : bool.ReadsBack b :=
  readsBack_of_denotes consistent_bool (.bool b) rfl

theorem readsBack_string (s : String) : string.ReadsBack s :=
  readsBack_of_denotes consistent_string (.string (stringText_quoted s)) rfl

/-- What an integer within the limits is mapped to is read back if it is written as the integer. -/
theorem readsBack_integer [Write α] {name : String} {least greatest v : Int} (hv : IsWord v)
    (hleast : least ≤ v) (hgreatest : v ≤ greatest) {f : Int → α}
    (hwrite : Write.write (f v) = Decimal.intText v) :
    ((integer name least greatest).map f).ReadsBack (f v) := by
  have hdenotes := denotes_intText hv
  rw [← hwrite] at hdenotes
  refine readsBack_of_denotes ((consistent_integer name least greatest).map f) hdenotes ?_
  show ((if least ≤ v ∧ v ≤ greatest then .ok v else .error _ : Verdict Int)).map f = _
  rw [if_pos ⟨hleast, hgreatest⟩]
  rfl

theorem readsBack_int64 (v : Int64) : int64.ReadsBack v := by
  have hword := Number.isWord_of_int64 v
  have hle : v.toInt ≤ 0x7FFFFFFFFFFFFFFF := Int.le_of_lt_add_one v.toInt_lt
  have hv : Int64.ofInt v.toInt = v := Int64.ofInt_toInt v
  rw [← hv]
  exact readsBack_integer hword hword.1 hle (by rw [hv]; rfl)

theorem readsBack_uint64 (v : UInt64) : uint64.ReadsBack v := by
  have hword := Number.isWord_of_uint64 v
  have hle : (v.toNat : Int) ≤ 0xFFFFFFFFFFFFFFFF := Int.le_of_lt_add_one hword.2
  have hv : UInt64.ofNat (v.toNat : Int).toNat = v := UInt64.ofNat_toNat
  rw [← hv]
  exact readsBack_integer hword (Int.natCast_nonneg v.toNat) hle
    (by rw [hv]; exact (Decimal.intText_natCast v.toNat).symm)

theorem readsBack_count {n : Nat} (h : n < 0x10000000000000000) : count.ReadsBack n := by
  have hword : IsWord n := ⟨by omega, by omega⟩
  have hle : (n : Int) ≤ 0xFFFFFFFFFFFFFFFF := by omega
  rw [← Int.toNat_natCast n]
  exact readsBack_integer hword (Int.natCast_nonneg n) hle (Decimal.intText_natCast n).symm

end Decoder

/-- A record is read back if its fields are. -/
theorem Fields.fromText_pairText [Write α] [Write β] {f : Fields α β} (hne : f.second ≠ f.first)
    {a : α} {b : β} (h₁ : f.firstType.ReadsBack a) (h₂ : f.secondType.ReadsBack b) :
    f.decoder.fromText (pairText f.first f.second a b) = .ok (a, b) :=
  (fromText_written hne h₁ h₂).1 (a, b) rfl

end Json

open Json

/-- A normalized user is read back if the identifier is. -/
theorem Normalized.fromText_text {ι : Type} [Write ι] {idType : Decoder ι} {n : Normalized ι}
    (h : idType.ReadsBack n.id) : (decoder idType).fromText (Json.text n).toList = .ok n := by
  have hne : (fields idType).second ≠ (fields idType).first :=
    show "normalized" ≠ "id" by decide
  rw [toList_text]
  exact map_fromText_eq_ok_iff.2 ⟨(n.id, n.normalized),
    Fields.fromText_pairText hne h (Decoder.readsBack_string n.normalized), rfl⟩

/-- A count is read back if it is a word. -/
theorem Analysis.fromText_text {a : Analysis} (h : a.dataCount < 0x10000000000000000) :
    decoder.fromText (Json.text a).toList = .ok a := by
  rw [toList_text]
  exact map_fromText_eq_ok_iff.2 ⟨(a.analyzed, a.dataCount),
    Fields.fromText_pairText (by decide) (Decoder.readsBack_bool a.analyzed)
      (Decoder.readsBack_count h), rfl⟩

/-- **Reading results back.**  The text of each normalized user is decoded as this user, whichever
of the three types the identifier has, and the text of each count as this count. -/
theorem fromText_text_of_result :
    (∀ (id : String) (r : Record) (n : Normalized String),
      (Normalized.ofRecord id r).result = .ok n →
      (Normalized.decoder Decoder.string).fromText (Json.text n).toList = .ok n) ∧
    (∀ (id : Int64) (r : Record) (n : Normalized Int64),
      (Normalized.ofRecord id r).result = .ok n →
      (Normalized.decoder Decoder.int64).fromText (Json.text n).toList = .ok n) ∧
    (∀ (id : UInt64) (r : Record) (n : Normalized UInt64),
      (Normalized.ofRecord id r).result = .ok n →
      (Normalized.decoder Decoder.uint64).fromText (Json.text n).toList = .ok n) ∧
    (∀ (α : Type) [Counted α] (analyzer : Analyzer) (data : α),
      Counted.count data < 0x10000000000000000 →
      Analysis.decoder.fromText (Json.text (analyzer.analyze data).result).toList =
        .ok (analyzer.analyze data).result) ∧
    (∀ (analyzer : Analyzer) (data : Value) (a : Analysis),
      (analyzer.analyzeValue data).result = .ok a → a.dataCount < 0x10000000000000000 →
      Analysis.decoder.fromText (Json.text a).toList = .ok a) := by
  refine ⟨?_, ?_, ?_, ?_, ?_⟩
  · exact fun _ _ n _ => Normalized.fromText_text (Decoder.readsBack_string n.id)
  · exact fun _ _ n _ => Normalized.fromText_text (Decoder.readsBack_int64 n.id)
  · exact fun _ _ n _ => Normalized.fromText_text (Decoder.readsBack_uint64 n.id)
  · exact fun α _ analyzer data h => Analysis.fromText_text h
  · exact fun _ _ a _ h => Analysis.fromText_text h

/-- Identifiers of all kinds come back with a name that became longer, and so do the counts of a
list and of a string. -/
theorem fromText_text_of_result_of_odysseus :
    ((Normalized.ofRecord "\x00\"\\😀" Normalized.odysseus).result =
        .ok ⟨"\x00\"\\😀", "οδυσσευς i̇ς"⟩ ∧
      (Normalized.decoder Decoder.string).fromText
        (Json.text (⟨"\x00\"\\😀", "οδυσσευς i̇ς"⟩ : Normalized String)).toList =
          .ok ⟨"\x00\"\\😀", "οδυσσευς i̇ς"⟩) ∧
    ((Normalized.ofRecord Int64.minValue Normalized.odysseus).result =
        .ok ⟨Int64.minValue, "οδυσσευς i̇ς"⟩ ∧
      (Normalized.decoder Decoder.int64).fromText
        (Json.text (⟨Int64.minValue, "οδυσσευς i̇ς"⟩ : Normalized Int64)).toList =
          .ok ⟨Int64.minValue, "οδυσσευς i̇ς"⟩) ∧
    ((Normalized.ofRecord (0xFFFFFFFFFFFFFFFF : UInt64) Normalized.odysseus).result =
        .ok ⟨0xFFFFFFFFFFFFFFFF, "οδυσσευς i̇ς"⟩ ∧
      (Normalized.decoder Decoder.uint64).fromText
        (Json.text (⟨0xFFFFFFFFFFFFFFFF, "οδυσσευς i̇ς"⟩ : Normalized UInt64)).toList =
          .ok ⟨0xFFFFFFFFFFFFFFFF, "οδυσσευς i̇ς"⟩) ∧
    (Counted.count [1, 2] < 0x10000000000000000 ∧
      Analysis.decoder.fromText (Json.text (Analysis.counted 2)).toList = .ok (.counted 2)) ∧
    ((Analyzer.analyzeValue default (.string "i̇ς")).result = .ok (.counted 3) ∧
      Analysis.decoder.fromText (Json.text (Analysis.counted 3)).toList = .ok (.counted 3)) := by
  have hlower : Text.lowercase "ΟΔΥΣΣΕΥΣ İΣ" = "οδυσσευς i̇ς" := by decide +kernel
  have hname {ι : Type} (id : ι) :
      (Normalized.ofRecord id Normalized.odysseus).result = .ok ⟨id, "οδυσσευς i̇ς"⟩ :=
    Normalized.compute_eq_ok_iff.2
      ⟨some _, Record.string?_withField .., by rw [Option.getD_some, hlower]⟩
  have hcount : Counted.count [1, 2] < 0x10000000000000000 := by decide
  have hlength : "i̇ς".length = 3 := by decide +kernel
  have hstring : (Analyzer.analyzeValue default (.string "i̇ς")).result = .ok (.counted 3) := by
    rw [← hlength]
    rfl
  obtain ⟨hstrings, hint, huint, hlist, hvalue⟩ := fromText_text_of_result
  exact ⟨⟨hname _, hstrings _ _ _ (hname _)⟩, ⟨hname _, hint _ _ _ (hname _)⟩,
    ⟨hname _, huint _ _ _ (hname _)⟩, ⟨hcount, hlist (List Nat) default [1, 2] hcount⟩,
    ⟨hstring, hvalue default (.string "i̇ς") (.counted 3) hstring (by decide)⟩⟩

end Intake
