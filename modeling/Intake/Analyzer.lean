import Intake.Config
import Intake.Event

/-!
# Counting

An analyzer counts.  It holds a configuration, which it keeps and does not consult.  Collections are
counted by their size alone, without a look at their elements; of document values, arrays, objects
and strings have a size, and other values are an error.
-/

namespace Intake

open Json (Write Value Fields Decoder)

/-! ## Collections -/

/-- A type of collections that know their size. -/
class Counted (α : Type) where
  /-- The number of elements. -/
  count : α → Nat

instance {α : Type} : Counted (List α) := ⟨List.length⟩
instance {α : Type} : Counted (Dict α) := ⟨Dict.size⟩

/-- The integers from one up to, and without, another. -/
structure Span where
  first : Int
  stop : Int

/-- The number of integers in a span, none if it stops before it begins. -/
def Span.size (s : Span) : Nat := (s.stop - s.first).toNat

instance : Counted Span := ⟨Span.size⟩

/-! ## Results -/

/-- The result of counting: whether it was done, and the number of elements. -/
structure Analysis where
  analyzed : Bool
  dataCount : Nat
  deriving DecidableEq

namespace Analysis

/-- The result for a number of elements. -/
def counted (n : Nat) : Analysis := ⟨true, n⟩

instance : Write Analysis :=
  ⟨fun a => Json.pairText "analyzed" "data_count" a.analyzed a.dataCount⟩

/-- The fields of a result. -/
def fields : Fields Bool Nat where
  name := "struct AnalysisResult"
  first := "analyzed"
  second := "data_count"
  firstType := Decoder.bool
  secondType := Decoder.count

/-- Decoding takes the two fields. -/
def decoder : Decoder Analysis := fields.decoder.map fun p => ⟨p.1, p.2⟩

end Analysis

/-! ## Analyzers -/

/-- An analyzer, with its configuration. -/
structure Analyzer where
  config : Config

namespace Analyzer

/-- The analyzer with the given configuration, or with the empty one. -/
def ofConfig? (config : Option Config) : Analyzer := ⟨config.getD .empty⟩

instance : Inhabited Analyzer := ⟨ofConfig? none⟩

instance : BEq Analyzer := ⟨fun a b => a.config == b.config⟩

/-- The field that reports a number of elements. -/
def countField (n : Nat) : String × String := ("data_count", String.ofList (Decimal.natText n))

/-- Counts the elements of a collection. -/
def analyze {α : Type} [Counted α] (_ : Analyzer) (data : α) : Reported Analysis :=
  let n := Counted.count data
  ⟨.counted n, [⟨.debug, "Analyzed data", [countField n]⟩]⟩

/-- The number of items of an array, of entries of an object or of characters of a string. -/
def valueCount? : Value → Option Nat
  | .array items => some items.length
  | .object entries => some entries.size
  | .string s => some s.length
  | _ => none

/-- Counts a document value.  A result is reported with the kind of the value, an error is not. -/
def analyzeValue (_ : Analyzer) (data : Value) : Reported (Except Error Analysis) :=
  match valueCount? data with
  | some n =>
    ⟨.ok (.counted n), [⟨.debug, "Analyzed value", [countField n, ("kind", data.kind.name)]⟩]⟩
  | none => ⟨.error (.mismatch "data" "array, object or string" data), []⟩

end Analyzer

end Intake
