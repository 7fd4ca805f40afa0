import Intake.Analyzer
import Intake.Config
import Intake.Decimal.Digits
import Intake.Decimal.FloatText
import Intake.Decimal.Shortest
import Intake.Dict
import Intake.Error
import Intake.Event
import Intake.Json.Decoder
import Intake.Json.Document
import Intake.Json.Fault
import Intake.Json.Items
import Intake.Json.Number
import Intake.Json.Numeral
import Intake.Json.Quoted
import Intake.Json.Reader
import Intake.Json.Value
import Intake.Json.Writer
import Intake.Metrics
import Intake.Normalization
import Intake.Numeric
import Intake.Record
import Intake.Text.CharTable
import Intake.Text.Escaped
import Intake.Text.Lowercase
import Intake.Proofs.Dict.Writes
import Intake.Proofs.Json.Grammar
import Intake.Proofs.Json.Scalars
import Intake.Proofs.Json.Containers
import Intake.Proofs.Json.Completeness
import Intake.Proofs.Json.ScalarSoundness
import Intake.Proofs.Json.Soundness
import Intake.Proofs.Json.Acceptance
import Intake.Proofs.Json.Decoding
import Intake.Proofs.Json.Written
import Intake.Proofs.Json.DoubleLiteral
import Intake.Proofs.Json.DecimalNumeral
import Intake.Proofs.Json.FloatText
import Intake.Proofs.Json.ShortNumeral
import Intake.Proofs.Json.NumeralError
import Intake.Proofs.Json.WrittenRecord
import Intake.Proofs.Json.Yields
import Intake.Proofs.Json.Skipping
import Intake.Proofs.Json.ByValue
import Intake.Proofs.Json.RepeatedFields
import Intake.Proofs.Json.RecordByValue
import Intake.Proofs.Json.Equality
import Intake.Proofs.Float.Packing
import Intake.Proofs.Float.Rounding
import Intake.Proofs.Float.Scaling
import Intake.Proofs.Float.Nearest
import Intake.Proofs.Float.Operations
import Intake.Proofs.Float.Error
import Intake.Proofs.Float.Signed
import Intake.Proofs.Float.Sums
import Intake.Proofs.Float.Words
import Intake.Proofs.Float.RoundedMean
import Intake.Proofs.Decimal.Digits
import Intake.Proofs.Decimal.Shortest
import Intake.Proofs.Decimal.Interval
import Intake.Proofs.Text.Lowercase
import Intake.Proofs.Text.Surroundings
import Intake.Proofs.Normalization
import Intake.Proofs.Names
import Intake.Proofs.Privacy
import Intake.Proofs.Config.Acceptance
import Intake.Proofs.Config.Reload
import Intake.Proofs.Metrics.ExactTotal
import Intake.Proofs.Metrics.Accumulator
import Intake.Proofs.Metrics.IntegerText
import Intake.Proofs.Metrics.Wire
import Intake.Proofs.Metrics.ReadBack
import Intake.Proofs.Metrics.ExactReadBack
import Intake.Proofs.Metrics.DoubleReadBack
import Intake.Proofs.Metrics.Canonical
import Intake.Proofs.Metrics.Sources
import Intake.Proofs.Metrics.Shards
import Intake.Proofs.Metrics.FirstForeign
import Intake.Proofs.Metrics.RunningSum
import Intake.Proofs.Metrics.IntegralDoubles
import Intake.Proofs.Metrics.Mean
import Intake.Proofs.History
import Intake.Proofs.Results
import Intake.Proofs.TwoStage
