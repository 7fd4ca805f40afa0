import Intake.Event
import Intake.Record
import Intake.Text.Lowercase

/-!
# Normalized users

Normalizing a record keeps the identifier that the caller gives and the name in the record, in lower
case.  A record without a name has the empty one.  Only the number of fields is reported, because
names are personal.
-/

namespace Intake

open Json (Write Fields Decoder)

/-- An identifier and a name in lower case. -/
structure Normalized (ι : Type) where
  id : ι
  normalized : String

namespace Normalized

/-- The field that holds the name. -/
def nameField : String := "name"

/-- The normalized form of a record. -/
def compute {ι : Type} (id : ι) (r : Record) : Except Error (Normalized ι) := do
  let name ← r.string? nameField
  return ⟨id, Text.lowercase (name.getD "")⟩

/-- The event for a record, the same for all records with as many fields. -/
def event (r : Record) : Event :=
  ⟨.trace, "Normalizing user record", [("fields", String.ofList (Decimal.natText r.size))]⟩

/-- The normalized form of a record.  It is reported before the name is looked at, so also when
there is none to be had. -/
def ofRecord {ι : Type} (id : ι) (r : Record) : Reported (Except Error (Normalized ι)) :=
  ⟨compute id r, [event r]⟩

instance {ι : Type} [Write ι] : Write (Normalized ι) :=
  ⟨fun n => Json.pairText "id" "normalized" n.id n.normalized⟩

/-- The fields of a normalized user. -/
def fields {ι : Type} (idType : Decoder ι) : Fields ι String where
  name := "struct NormalizedUserData"
  first := "id"
  second := "normalized"
  firstType := idType
  secondType := Decoder.string

/-- Decoding takes the two fields. -/
def decoder {ι : Type} (idType : Decoder ι) : Decoder (Normalized ι) :=
  (fields idType).decoder.map fun p => ⟨p.1, p.2⟩

end Normalized

end Intake
