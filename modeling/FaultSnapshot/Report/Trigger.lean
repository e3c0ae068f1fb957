import FaultSnapshot.Fault
import FaultSnapshot.Report.Document
import FaultSnapshot.Resource

/-!
# Triggers

A trigger is an event that may become a report. It holds no frames: they are read from its tracker
when they are asked for, on the thread that asks.
-/

namespace FaultSnapshot

/-- The identifier and the time that a trigger is given when it is made. -/
structure Stamp where
  id : Uuid
  time : Instant

/-- What happened. -/
inductive Cause
  | error (e : ErrorRef)
  | timeout (thresholdMs actualMs : UInt64)

/-- An event that may become a report. -/
structure Trigger where
  stamp : Stamp
  tracker : TrackerId
  cause : Cause

namespace Trigger

/-- What a report of it is about. -/
def kind (t : Trigger) : ReportKind :=
  match t.cause with
  | .error _ => .error
  | .timeout _ _ => .timeout

/-- It was raised for the very object `e`. -/
def isFor (t : Trigger) (e : ErrorRef) : Bool :=
  match t.cause with
  | .error raised => raised.same e
  | .timeout _ _ => false

def inspectStamp (t : Trigger) : String := "id: " ++ t.stamp.id.text ++ ", occurred_at: " ++ t.stamp.time.text

/-- The inspected form, for an error up to the error itself. -/
def inspect (t : Trigger) : String :=
  match t.cause with
  | .error _ => "ErrorTrigger \x7b " ++ t.inspectStamp
  | .timeout threshold actual =>
    "TimeoutTrigger \x7b " ++ t.inspectStamp ++ ", timeout_threshold_ms: " ++ toString threshold ++
      ", timeout_ms: " ++ toString actual ++ " \x7d"

end Trigger

end FaultSnapshot
