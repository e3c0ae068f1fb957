import FaultSnapshot.Frames.Memory
import FaultSnapshot.Report.Trigger
import FaultSnapshot.Throttle.Gate

/-!
# The world in which a watched program runs

A program is given by its code and by a state of its own; this library only says when its code is
run. The world holds that state and everything that hooks, reports and panics read or change.
-/

namespace FaultSnapshot

/-- A watched program: its code and its state. -/
structure Program where
  Code : Type
  State : Type

/-- What a tracer knows of one thread: whether it builds a report, and the error of the last
    trigger that became one. -/
structure Reporting where
  processing : Bool
  remembered : Option ErrorRef

/-- The two parts of a tracer that may run code of the program. -/
inductive Part
  | serializer
  | handler
  deriving DecidableEq, Repr

/-- The panics under way on a thread, and whether panic hooks are running there. -/
structure Unwinding where
  depth : Nat
  inHook : Bool

/-- How important a log entry is. -/
inductive Level
  | debug
  | info
  | warn
  | error
  deriving DecidableEq, Repr

/-- Which part of the library a log entry comes from. -/
inductive Origin
  | sink
  | tracer
  | guard
  | panicHook
  | assembly
  deriving DecidableEq, Repr

structure LogEntry where
  level : Level
  origin : Origin
  message : String
  fields : List (String × String)

/-- The moments of a report, and what is seen of it from outside. A throttle is asked; if it lets
    the trigger through, the report is written, of the frames that are open then, and, if that
    succeeds, handed over, and then ended. -/
inductive Event
  | asked (tracer : String) (thread : Thread) (trigger : Trigger) (admitted : Bool)
  | writing (tracer : String) (thread : Thread) (trigger : Trigger) (frames : List (Picture Unit))
  | written (tracer : String) (thread : Thread) (result : Except Fault String)
  | delivering (tracer : String) (thread : Thread) (kind : ReportKind) (report : String)
  | ended (tracer : String) (thread : Thread)
  | recorded (tracer : String) (kind : ReportKind) (report : String)
  | printed (text : String)
  | logged (entry : LogEntry)

/-- Everything that a run reads or changes. `stamp` gives the stamp of each trigger, in the order
    in which triggers are made; `lastHookRuns` are the threads on which the panic hook below all
    others has run, the last one first. -/
structure World (P : Program) where
  memory : Memory P.Code
  reporting : OrderedMap (String × Thread) Reporting
  turns : OrderedMap (String × Part) Nat
  throttles : OrderedMap ThrottleId Throttle
  clocks : Clocks
  outputFull : Bool
  unwinding : OrderedMap Thread Unwinding
  lastHookRuns : List Thread
  stamp : Nat → Stamp
  errors : Nat
  triggers : Nat
  journal : Array Event
  state : P.State

namespace World

variable {P : Program}

/-- A world in which nothing has happened. -/
def start (clocks : Clocks) (stamp : Nat → Stamp) (state : P.State) : World P where
  memory := .empty
  reporting := ∅
  turns := ∅
  throttles := ∅
  clocks := clocks
  outputFull := false
  unwinding := ∅
  lastHookRuns := []
  stamp := stamp
  errors := 0
  triggers := 0
  journal := #[]
  state := state

/-- What a tracer knows of a thread. -/
def reportingOf (w : World P) (tracer : String) (thread : Thread) : Reporting :=
  (w.reporting.get? (tracer, thread)).getD ⟨false, none⟩

def setReporting (w : World P) (tracer : String) (thread : Thread) (r : Reporting) : World P :=
  { w with reporting := w.reporting.insert (tracer, thread) r }

def note (w : World P) (e : Event) : World P := { w with journal := w.journal.push e }

/-- Asks a throttle; where there is none, everything is let through. -/
def ask (w : World P) (throttle : Option ThrottleId) : Bool × World P :=
  match throttle with
  | none => (true, w)
  | some id =>
    let decision := ((w.throttles.get? id).getD .unrestricted).ask w.clocks
    (decision.1, { w with throttles := w.throttles.insert id decision.2 })

def unwindingOf (w : World P) (thread : Thread) : Unwinding := (w.unwinding.get? thread).getD ⟨0, false⟩

end World

end FaultSnapshot
