import FaultSnapshot.Throttle.Timeline

/-!
# Throttles

What decides whether a trigger becomes a report: nothing at all, a limiter on a clock, or a plan
that gives every decision in advance.
-/

namespace FaultSnapshot

/-- What decides on triggers. -/
inductive Throttle
  | unrestricted
  | limited (clock : ClockKind) (limiter : Limiter)
  | planned (decisions : List Bool)

namespace Throttle

/-- Decides on one trigger. A plan that has come to its end lets everything through. -/
def ask (clocks : Clocks) : Throttle → Bool × Throttle
  | unrestricted => (true, unrestricted)
  | limited clock limiter =>
    let decision := limiter.offer (clocks.read clock)
    (decision.1, limited clock decision.2)
  | planned [] => (true, planned [])
  | planned (decision :: rest) => (decision, planned rest)

/-- The throttle of settings, on the running clock. -/
def ofSettings (s : Settings) (now : UInt64) : Throttle :=
  if s.throttlingDisabled then unrestricted else limited .system (.create s.windowMs s.maxPerWindow now)

end Throttle

end FaultSnapshot
