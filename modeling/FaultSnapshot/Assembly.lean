import FaultSnapshot.Settings.Environment
import FaultSnapshot.Tracer.Hooks

/-!
# Assembly of tracers from settings

An assembled tracer has a tracker and a throttle of its own, the serializer of the format and the
handler of the sink.
-/

namespace FaultSnapshot

/-- Assembles tracers. -/
structure Assembly where
  settings : Settings
  deriving DecidableEq

namespace Assembly

/-- The assembly of an environment. -/
def ofEnvironment (env : Environment) : Assembly := ⟨.ofEnvironment env⟩

/-- The tracer of a name, as it is assembled. -/
def tracer (P : Program) (a : Assembly) (name : String) : Tracer P where
  name := name
  tracker := ⟨.own name, [], []⟩
  serializer := .ofFormat a.settings.format
  handler := .ofSink a.settings.sink
  throttle := some (.own name)
  turns := fun _ _ => none

variable {P : Program}

/-- What is logged of the settings. -/
def logFields (s : Settings) : List (String × String) :=
  [("format", s.format.name), ("sink", s.sink.name), ("throttle_window_ms", toString s.windowMs),
    ("throttle_max_per_window", toString s.maxPerWindow)]

def build (a : Assembly) (name : String) : Run P (Tracer P) := do
  Run.log .info .assembly (logFields a.settings) "Loading snaperr..."
  modify fun w => { w with throttles := w.throttles.insert (.own name) (.ofSettings a.settings w.clocks.system) }
  return a.tracer P name

/-- The name of the tracer that a whole process shares. -/
def sharedName : String := "global"

/-- The tracer that a whole process shares; it is assembled on first use. -/
def shared (a : Assembly) : Run P (Tracer P) := do
  if ((← get).throttles.get? (.own sharedName)).isSome then return a.tracer P sharedName
  a.build sharedName

end Assembly

end FaultSnapshot
