import FaultSnapshot.Throttle.Limiter

/-!
# A limiter among threads

Threads share the word of one limiter and one clock. A call reads the clock once and loads the word.
Then it tries to exchange the word that it has seen for the next one, and starts over with the word
that it finds when this fails. Anything may happen between two of these steps.
-/

namespace FaultSnapshot

variable {ι : Type}

/-- How far a thread has come with its call. -/
inductive Stage
  | idle
  | timed (reading : UInt64)
  | loaded (reading seen : UInt64)
  | answered (admitted : Bool)
  deriving DecidableEq, Repr

/-- An exchange that succeeded, and the answer of the call that made it. -/
structure Exchange (ι : Type) where
  thread : ι
  reading : UInt64
  word : UInt64
  admitted : Bool
  deriving DecidableEq, Repr

/-- The window start that an exchange has stored. -/
def Exchange.start (e : Exchange ι) : Nat := (Limiter.startOf e.word).toNat

/-- A limiter and a clock among threads, and the exchanges so far in their order. -/
structure Contention (ι : Type) where
  limiter : Limiter
  clock : UInt64
  stage : ι → Stage
  exchanges : List (Exchange ι)

namespace Contention

/-- What may happen next: the clock is set, or a thread takes its next step. An exchange may fail
    although the word is the expected one. -/
inductive Move (ι : Type)
  | setClock (time : UInt64)
  | step (thread : ι) (spurious : Bool)

/-- A limiter that was made at `epoch`, and no calls yet. -/
def start (windowMs : UInt64) (limit : UInt32) (epoch clock : UInt64) : Contention ι where
  limiter := .create windowMs limit epoch
  clock := clock
  stage _ := .idle
  exchanges := []

variable [DecidableEq ι]

def setStage (c : Contention ι) (i : ι) (s : Stage) : Contention ι :=
  { c with stage := fun j => if j = i then s else c.stage j }

/-- The word becomes the one after `seen`, and the call is answered. -/
def exchange (c : Contention ι) (i : ι) (reading seen : UInt64) : Contention ι :=
  let next := c.limiter.advance (c.limiter.elapsed reading) seen
  let word := Limiter.pack next.1 next.2
  let admitted : Bool := next.2 ≤ c.limiter.limit.toUInt64
  { c.setStage i (.answered admitted) with
    limiter := { c.limiter with state := word }
    exchanges := c.exchanges ++ [⟨i, reading, word, admitted⟩] }

def move (c : Contention ι) : Move ι → Contention ι
  | .setClock time => { c with clock := time }
  | .step i spurious =>
    match c.stage i with
    | .idle | .answered _ => c.setStage i (.timed c.clock)
    | .timed reading => c.setStage i (.loaded reading c.limiter.state)
    | .loaded reading seen =>
      if c.limiter.state = seen ∧ spurious = false then c.exchange i reading seen
      else c.setStage i (.loaded reading c.limiter.state)

def moves (c : Contention ι) (schedule : List (Move ι)) : Contention ι := schedule.foldl move c

end Contention

end FaultSnapshot
