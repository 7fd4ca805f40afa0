/-!
# Events

An operation reports what it did by events, beside its result.  `Reported` is a result together
with the events in the order in which they happened, so what is reported is part of the answer and
statements can be made about it.
-/

namespace Intake

/-- How much detail an event is. -/
inductive Level where
  | debug
  | trace
  deriving DecidableEq

/-- Something that an operation reports: a fixed text and named values. -/
structure Event where
  level : Level
  message : String
  fields : List (String × String)
  deriving DecidableEq

/-- A result and the events that were reported on the way to it. -/
structure Reported (α : Type) where
  result : α
  events : List Event

end Intake
