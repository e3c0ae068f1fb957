/-!
# Names of threads and shared resources
-/

namespace FaultSnapshot

/-- The name of a thread. -/
abbrev Thread := String

/-- A tracker or a throttle: one that is shared under a name, or one that a tracer has for itself. -/
inductive ResourceId
  | named (name : String)
  | own (tracer : String)
  deriving DecidableEq, Repr

abbrev TrackerId := ResourceId

abbrev ThrottleId := ResourceId

end FaultSnapshot
