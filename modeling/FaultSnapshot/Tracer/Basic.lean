import FaultSnapshot.Report.Serializer

/-!
# Tracers and their parts

A tracer writes to a tracker and turns triggers into reports with a serializer and a handler. A
tracker may refuse some methods and variables. A part of a tracer may take turns of the program:
at each of its calls it first runs code, and it may then fail.
-/

namespace FaultSnapshot

/-- A tracker, with the methods and variables that it refuses. -/
structure Tracker where
  id : TrackerId
  refusedMethods : List String
  refusedVariables : List String

/-- What becomes of the text of a report. -/
inductive Handler
  | record
  | discard
  | print
  | log
  deriving DecidableEq, Repr

def Handler.ofSink : Sink → Handler
  | .stdout => print
  | .log => log
  | .none => discard

/-- One call of a part that the program has taken over: the code that runs, and how the call fails
    after it, if it fails. -/
structure Turn (Code : Type) where
  code : Code
  fault : Option Fault

/-- A tracer that makes reports. Its parts are given their turns by the number of the call. -/
structure Tracer (P : Program) where
  name : String
  tracker : Tracker
  serializer : Serializer
  handler : Handler
  throttle : Option ThrottleId
  turns : Part → Nat → Option (Turn P.Code)

variable {P : Program}

namespace Tracker

/-- Opens a frame, unless the method is refused. -/
def openFrame (t : Tracker) (thread : Thread) (owner : Option (Object P.Code)) (method : String) :
    Run P (Except Fault Unit) :=
  if method ∈ t.refusedMethods then return .error (.refusedMethod method)
  else Run.memory (·.openFrame (t.id, thread) owner method)

def closeFrame (t : Tracker) (thread : Thread) : Run P (Except Fault Unit) := Run.memory (·.closeFrame (t.id, thread))

/-- Writes a variable of the innermost frame, unless the variable is refused. -/
def track (t : Tracker) (thread : Thread) (name : String) (value : Object P.Code) : Run P (Except Fault Unit) :=
  if name ∈ t.refusedVariables then return .error (.refusedVariable name)
  else Run.memory (·.track (t.id, thread) name value)

/-- Writes variables in their order, up to the first that fails. -/
def trackAll (t : Tracker) (thread : Thread) : List (String × Object P.Code) → Run P (Except Fault Unit)
  | [] => return .ok ()
  | (name, value) :: rest => do
    match ← t.track thread name value with
    | .ok () => t.trackAll thread rest
    | .error f => return .error f

end Tracker

def Handler.deliver (tracer : String) (kind : ReportKind) (report : String) : Handler → Run P (Except Fault Unit)
  | record => do
    Run.note (.recorded tracer kind report)
    return .ok ()
  | discard => return .ok ()
  | print => do
    if (← get).outputFull then return .error .outputFull
    Run.note (.printed (report ++ "\n"))
    return .ok ()
  | log => do
    let level : Level := match kind with
      | .error => .error
      | .timeout => .warn
    Run.log level .sink [] report
    return .ok ()

namespace Tracer

/-- Counts a call of a part and answers its number, from zero. -/
def countCall (t : Tracer P) (part : Part) : Run P Nat :=
  modifyGet fun w =>
    let n := (w.turns.get? (t.name, part)).getD 0
    (n, { w with turns := w.turns.insert (t.name, part) (n + 1) })

/-- Runs the code of a call, where there is one, and answers how the call fails. -/
def takeTurn (exec : Exec P) (t : Tracer P) (site : Site) (part : Part) : Run P (Option Fault) := do
  match t.turns part (← t.countCall part) with
  | none => return none
  | some turn =>
    exec site turn.code
    return turn.fault

/-- Writes the report of a trigger. -/
def serialize (exec : Exec P) (t : Tracer P) (site : Site) (trigger : Trigger) : Run P (Except Fault String) := do
  modify fun w =>
    w.note (.writing t.name site.thread trigger ((w.memory.pictures (trigger.tracker, site.thread)).map Picture.still))
  let result ← match ← t.takeTurn exec site .serializer with
    | some f => pure (.error f)
    | none => pure (.ok (← t.serializer.write exec site trigger))
  Run.note (.written t.name site.thread result)
  return result

/-- Hands over the text of a report. -/
def deliver (exec : Exec P) (t : Tracer P) (site : Site) (kind : ReportKind) (report : String) :
    Run P (Except Fault Unit) := do
  Run.note (.delivering t.name site.thread kind report)
  match ← t.takeTurn exec site .handler with
  | some f => return .error f
  | none => t.handler.deliver t.name kind report

end Tracer

end FaultSnapshot
