import FaultSnapshot.Tracer.Basic

/-!
# Answers of steps

What a step answers, and what else is seen of a step of the scenario itself.
-/

namespace FaultSnapshot.Scenario

/-- What a step answers. -/
inductive Answer
  | done
  | fault (f : Fault)
  | busy (thread : Thread)
  | locked
  | panicked (message : String)
  | nothing
  | flag (b : Bool)
  | count (n : Nat)
  | text (s : String)
  | report (s : String)
  | closed
  | held
  | ended
  | finished (result : String)
  | refused (f : AppError)
  | failed (f : AppError)
  | described (text : String) (cause : Option String)
  | pair (a b : String)
  | casts (value shared : Option String)
  | frame (f : FrameDocument)
  | frames (fs : List FrameDocument)
  | texts (ss : List (Option String))
  | sizes (ns : List (Nat × Bool))
  | flags (bs : List Bool)
  | step (item : Option FrameDocument) (left : Nat)
  | trigger (t : Trigger)

/-- What is seen of one step of a scenario. -/
structure Outcome where
  answer : Answer
  namedDepths : List (String × Nat)
  tracerDepths : List (String × Nat)
  processing : List String
  events : List Event
  nested : List (String × Answer)

end FaultSnapshot.Scenario
