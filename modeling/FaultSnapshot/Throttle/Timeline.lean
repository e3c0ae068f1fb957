import FaultSnapshot.Throttle.Limiter

/-!
# A limiter on a clock

A limiter that reads one of two clocks, one moved by hand and one that runs by itself, and the
moves that set the clock or offer triggers.
-/

namespace FaultSnapshot

/-- Which clock is read. -/
inductive ClockKind
  | manual
  | system
  deriving DecidableEq, Repr

/-- The times that the clocks show, in milliseconds. -/
structure Clocks where
  manual : UInt64
  system : UInt64
  deriving DecidableEq, Repr

def Clocks.read (c : Clocks) : ClockKind → UInt64
  | .manual => c.manual
  | .system => c.system

namespace Timeline

/-- A move of the clock or a number of triggers. -/
inductive Move
  | setClock (time : UInt64)
  | advanceClock (step : UInt64)
  | offer (count : Nat)
  | countLetThrough (count : Nat)

/-- What a move answers. -/
inductive Answer
  | time (now : UInt64)
  | decisions (all : List Bool)
  | letThrough (count : Nat)

/-- Clocks and a limiter that reads one of them. -/
structure State where
  clocks : Clocks
  source : ClockKind
  limiter : Limiter

/-- A limiter that is made now. -/
def State.create (clocks : Clocks) (source : ClockKind) (windowMs : UInt64) (limit : UInt32) : State :=
  ⟨clocks, source, .create windowMs limit (clocks.read source)⟩

/-- A limiter with the standard window and limit that is made now and reads the running clock. -/
def State.standard (clocks : Clocks) : State := ⟨clocks, .system, .standard clocks.system⟩

def State.move (s : State) : Move → Answer × State
  | .setClock time => (.time time, { s with clocks := { s.clocks with manual := time } })
  | .advanceClock step =>
    let time := s.clocks.manual + step
    (.time time, { s with clocks := { s.clocks with manual := time } })
  | .offer count =>
    let result := s.limiter.offerMany (s.clocks.read s.source) count
    (.decisions result.1, { s with limiter := result.2 })
  | .countLetThrough count =>
    let result := s.limiter.countOffers (s.clocks.read s.source) 0 count
    (.letThrough result.1, { s with limiter := result.2 })

/-- Moves in order, with the answer of each. -/
def State.moves (s : State) : List Move → List Answer × State
  | [] => ([], s)
  | m :: ms =>
    let first := s.move m
    let rest := first.2.moves ms
    (first.1 :: rest.1, rest.2)

end Timeline

end FaultSnapshot
