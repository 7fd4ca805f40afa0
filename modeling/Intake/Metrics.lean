import Intake.Error
import Intake.Event
import Intake.Numeric

/-!
# Metrics of a dataset

The metrics of a dataset are its total and its mean.  A dataset of integers has an exact total: the
sum is an integer without bounds, and only where it ends has to be a 64-bit word.  As soon as one
element is a double, all are added as doubles from the left, and the total is a double.  The mean is
a double except for the empty dataset, whose total and mean are the integer zero.
-/

namespace Intake

open Json (Write Value Fields)

/-- The total and the mean of a dataset. -/
structure Metrics where
  total : Numeric
  average : Numeric

namespace Metrics

/-! ## Totals -/

/-- The elements as exact integers, if all of them are. -/
def integers? (data : List Numeric) : Option (List Int) := data.mapM Numeric.toInt?

/-- The sum of doubles, added from the left to positive zero. -/
def floatTotal (data : List Numeric) : Float :=
  data.foldl (fun sum n => sum + n.toFloat) 0

/-- The sum of integers, without bounds. -/
def exactTotal : List Int → Int
  | [] => 0
  | v :: vs => v + exactTotal vs

/-- The total of a dataset. -/
def totalOf (data : List Numeric) : Except Error Numeric :=
  match integers? data with
  | some integers =>
    match Numeric.ofInt? (exactTotal integers) with
    | some n => .ok n
    | none => .error (.totalOutOfRange (exactTotal integers))
  | none => .ok (.float (floatTotal data))

/-- The mean for a total and a number of elements. -/
def averageOf (total : Numeric) (count : Nat) : Numeric :=
  .float (total.toFloat / Numeric.nearestFloat count)

/-- The metrics of a dataset. -/
def compute (data : List Numeric) : Except Error Metrics :=
  if data.isEmpty then .ok ⟨.zero, .zero⟩
  else do
    let total ← totalOf data
    return ⟨total, averageOf total data.length⟩

/-! ## Reports -/

/-- The event for a result. -/
def event (data : List Numeric) (m : Metrics) : Event :=
  if data.isEmpty then ⟨.debug, "Calculated metrics for empty dataset", [("values", "0")]⟩
  else
    ⟨.debug, "Calculated metrics",
      [("values", String.ofList (Decimal.natText data.length)), ("total", m.total.display),
        ("average", m.average.display)]⟩

/-- The metrics of a dataset; a result is reported, an error is not. -/
def ofData (data : List Numeric) : Reported (Except Error Metrics) :=
  match compute data with
  | .ok m => ⟨.ok m, [event data m]⟩
  | .error e => ⟨.error e, []⟩

/-- Reporting leaves the metrics as they are. -/
@[simp] theorem result_ofData (data : List Numeric) : (ofData data).result = compute data := by
  rw [ofData]
  cases compute data <;> rfl

/-! ## Datasets of document values -/

/-- The name of an element in errors. -/
def indexName (i : Nat) : String := String.ofList ('[' :: Decimal.natText i ++ [']'])

/-- The numbers among values that stand at an index and after it; the first other value is an
error. -/
def numericsFrom (i : Nat) : List Value → Except Error (List Numeric)
  | [] => .ok []
  | v :: vs =>
    match Numeric.ofValue? v with
    | some n => (numericsFrom (i + 1) vs).map (n :: ·)
    | none => .error (.mismatch (indexName i) Json.Kind.number.name v)

/-- The metrics of a dataset of values, all of which must be numbers. -/
def ofValues (values : List Value) : Reported (Except Error Metrics) :=
  match numericsFrom 0 values with
  | .ok data => ofData data
  | .error e => ⟨.error e, []⟩

/-! ## Written form -/

instance : Write Metrics := ⟨fun m => Json.pairText "total" "average" m.total m.average⟩

/-- The fields of metrics. -/
def fields : Fields Numeric Numeric where
  name := "struct MetricsResult"
  first := "total"
  second := "average"
  firstType := Numeric.decoder
  secondType := Numeric.decoder

/-- Decoding takes the two fields. -/
def decoder : Json.Decoder Metrics := fields.decoder.map fun p => ⟨p.1, p.2⟩

end Metrics

end Intake
