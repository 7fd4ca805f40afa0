import Intake.Error
import Intake.Json.Decoder
import Intake.Json.Writer

/-!
# Analyzer configurations

A configuration maps keys to document values, and nothing more is known of either.  It is read from
the text of an object and lists its entries in the order of the keys.
-/

namespace Intake

open Json (Write Value Decoder)

/-- The configuration of an analyzer. -/
structure Config where
  settings : Dict Value

namespace Config

/-- The configuration without entries. -/
def empty : Config := ⟨.empty⟩

instance : Inhabited Config := ⟨empty⟩

/-- The configuration of a list of entries, of which a later one wins over an earlier one. -/
def ofList (entries : List (String × Value)) : Config := ⟨.ofList entries⟩

/-- The configuration with an entry set. -/
def withEntry (c : Config) (key : String) (value : Value) : Config := ⟨c.settings.insert key value⟩

/-- The value at a key. -/
def get? (c : Config) (key : String) : Option Value := c.settings.get? key

/-- Whether there is an entry with the key. -/
def contains (c : Config) (key : String) : Bool := c.settings.contains key

/-- The number of entries. -/
def size (c : Config) : Nat := c.settings.size

/-- Whether there are no entries. -/
def isEmpty (c : Config) : Bool := c.settings.isEmpty

/-- The entries in the order of the keys. -/
def toList (c : Config) : List (String × Value) := c.settings.entries

/-- The configuration as a document value. -/
def toValue (c : Config) : Value := .object c.settings

instance : BEq Config := ⟨fun a b => a.settings == b.settings⟩

instance : Write Config := ⟨fun c => Write.write c.settings⟩

/-- Decoding takes the objects. -/
def decoder : Decoder Config := Decoder.dict.map Config.mk

/-- Reads a configuration from the text of an object. -/
def ofText (text : String) : Except Error Config :=
  match decoder.fromText text.toList with
  | .ok c => .ok c
  | .error e => .error (.invalidConfig e)

end Config

end Intake
