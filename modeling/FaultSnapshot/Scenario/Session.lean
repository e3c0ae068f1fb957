import FaultSnapshot.Assembly
import FaultSnapshot.Scenario.Perform

/-!
# Sessions

A session sets up throttles, tracers and panic hooks and then performs the steps of a scenario one
after another. After each step it says what the step answered and what was seen of it.
-/

namespace FaultSnapshot.Scenario

/-- A tracer that is put together from parts. -/
structure Parts where
  tracker : String
  refusedMethods : List String
  refusedVariables : List String
  serializer : Serializer
  handler : Handler
  throttle : Option String
  serializerTurns : List (Turn Script)
  handlerTurns : List (Turn Script)

/-- How a monitor of a session is made. -/
inductive MonitorSpec
  | silent
  | assembled (s : Settings)
  | parts (p : Parts)

/-- What a session is made of. -/
structure Session where
  monitors : List (String × MonitorSpec)
  throttles : List (String × UInt64 × UInt32)
  clocks : Clocks
  hooks : List String
  outputFull : Bool
  location : String
  stamp : Nat → Stamp
  steps : List Step

/-- What is seen of a session. -/
structure Performance where
  setup : List Event
  outcomes : List Outcome
  lastHookRuns : Nat

def Parts.tracer (p : Parts) (name : String) : Tracer program where
  name := name
  tracker := ⟨.named p.tracker, p.refusedMethods, p.refusedVariables⟩
  serializer := p.serializer
  handler := p.handler
  throttle := p.throttle.map .named
  turns := fun
    | .serializer, n => p.serializerTurns[n]?
    | .handler, n => p.handlerTurns[n]?

def MonitorSpec.make (name : String) : MonitorSpec → Play (Monitor program)
  | silent => return .silent
  | assembled s => return .active (← (Assembly.mk s).build name)
  | parts p => do
    discard (tracker p.tracker)
    return .active (p.tracer name)

namespace Session

/-- Sets up throttles, monitors in the order of their names, and panic hooks. -/
def setUp (s : Session) : Play Stage := do
  for (name, window, limit) in s.throttles do
    modify fun w =>
      { w with throttles := w.throttles.insert (.named name) (.limited .manual (.create window limit s.clocks.manual)) }
  let sorted := s.monitors.mergeSort fun a b => a.1 ≤ b.1
  let monitors ← sorted.mapM fun e => return (e.1, ← e.2.make e.1)
  let hooks ← (← s.hooks.mapM (monitor monitors)).foldlM Panic.install []
  modify fun w => { w with outputFull := s.outputFull }
  return ⟨monitors, hooks, s.location⟩

/-- The thread of steps that name none. -/
def mainThread : Thread := "main"

/-- How deep steps may be nested; a run that goes deeper does not end. -/
def nesting : Nat := 4096

/-- Runs a step of the session itself; a panic that leaves it is caught. -/
def performTop (stage : Stage) (site : Site) (action : Action) : Play Answer := do
  match ← Panic.catching site.thread (play stage nesting site none (.mk "" none action)) with
  | .ok answer => return answer
  | .error payload => return .panicked payload.message

/-- The depths of the trackers that have a name. -/
def namedDepths (thread : Thread) : Play (List (String × Nat)) := do
  let w ← get
  return w.state.trackers.map fun name => (name, w.memory.depth (.named name, thread))

/-- The depths of the trackers of the tracers. -/
def tracerDepths (stage : Stage) (thread : Thread) : Play (List (String × Nat)) := do
  let w ← get
  return stage.monitors.filterMap fun
    | (name, .active t) => some (name, w.memory.depth (t.tracker.id, thread))
    | (_, .silent) => none

/-- The tracers that build a report. -/
def processing (stage : Stage) (thread : Thread) : Play (List String) := do
  return (← stage.monitors.filterM fun e => e.2.isProcessing thread).map Prod.fst

/-- Performs a step and says what was seen of it. -/
def observe (stage : Stage) : Step → Play Outcome
  | .mk _ thread action => do
    let site : Site := ⟨thread.getD mainThread, []⟩
    modify fun w => { w with state := { w.state with nested := #[] } }
    let before := (← get).journal.size
    let answer ← performTop stage site action
    let after ← get
    return {
      answer
      namedDepths := ← namedDepths site.thread
      tracerDepths := ← tracerDepths stage site.thread
      processing := ← processing stage site.thread
      events := (after.journal.extract before after.journal.size).toList
      nested := after.state.nested.toList }

def run (s : Session) : Play Performance := do
  let stage ← s.setUp
  let setup := (← get).journal.toList
  let outcomes ← s.steps.mapM (observe stage)
  return ⟨setup, outcomes, (← get).lastHookRuns.length⟩

/-- What is seen of the session, unless it ends early. -/
def perform? (s : Session) : Option Performance :=
  match s.run.run (.start s.clocks s.stamp default) with
  | .ok p _ => some p
  | .error _ _ => none

end Session

end FaultSnapshot.Scenario
