import FaultSnapshot.Settings

/-!
# Fixed-window limiter in one word

The state of a limiter is one word of 64 bits: the start of the window, as milliseconds since the
limiter was made, above a counter of 24 bits. The counter stops one past the limit, and the limit
is capped so that this fits.
-/

namespace FaultSnapshot

/-- The difference, or zero when it would be negative. -/
def monus (a b : UInt64) : UInt64 := if b ≤ a then a - b else 0

/-- At most `limit` triggers in each window of `windowMs` milliseconds. -/
structure Limiter where
  windowMs : UInt64
  limit : UInt32
  epoch : UInt64
  state : UInt64
  deriving DecidableEq, Repr

namespace Limiter

def countBits : UInt64 := 24

/-- The bits of the word that hold the counter. -/
def countMask : UInt64 := (1 <<< countBits) - 1

/-- The bits of a window start, before it is shifted above the counter. -/
def startMask : UInt64 := (1 <<< (64 - countBits)) - 1

/-- The greatest limit the counter can tell from one more. -/
def maxCountable : UInt32 := (countMask - 1).toUInt32

def pack (start count : UInt64) : UInt64 := ((start &&& startMask) <<< countBits) ||| (count &&& countMask)

def startOf (word : UInt64) : UInt64 := word >>> countBits

def countOf (word : UInt64) : UInt64 := word &&& countMask

/-- A limiter made at the given time. -/
def create (windowMs : UInt64) (limit : UInt32) (now : UInt64) : Limiter where
  windowMs := windowMs
  limit := if limit ≤ maxCountable then limit else maxCountable
  epoch := now
  state := pack 0 0

/-- A limiter with the standard window and limit. -/
def standard (now : UInt64) : Limiter := create Settings.defaultWindowMs Settings.defaultMaxPerWindow now

/-- Everything is let through. -/
def disabled (l : Limiter) : Bool := l.windowMs < 1 || l.limit < 1

/-- Time since the limiter was made, as far as the word can hold it. -/
def elapsed (l : Limiter) (reading : UInt64) : UInt64 := monus reading l.epoch &&& startMask

/-- The window start and count after one more trigger at an elapsed time. -/
def advance (l : Limiter) (now word : UInt64) : UInt64 × UInt64 :=
  if l.windowMs ≤ monus now (startOf word) then (now, 1)
  else
    let next := countOf word + 1
    let ceiling := l.limit.toUInt64 + 1
    (startOf word, if next ≤ ceiling then next else ceiling)

/-- Counts one trigger at a clock reading and decides whether it is let through. -/
def offer (l : Limiter) (reading : UInt64) : Bool × Limiter :=
  if l.disabled then (true, l)
  else
    let next := l.advance (l.elapsed reading) l.state
    (next.2 ≤ l.limit.toUInt64, { l with state := pack next.1 next.2 })

/-- The decisions on several triggers at one reading. -/
def offerMany (l : Limiter) (reading : UInt64) : Nat → List Bool × Limiter
  | 0 => ([], l)
  | n + 1 =>
    let first := l.offer reading
    let rest := first.2.offerMany reading n
    (first.1 :: rest.1, rest.2)

/-- How many of `count` triggers at one reading are let through, on top of `sofar`. -/
def countOffers (l : Limiter) (reading : UInt64) (sofar : Nat) : Nat → Nat × Limiter
  | 0 => (sofar, l)
  | n + 1 =>
    let first := l.offer reading
    first.2.countOffers reading (if first.1 then sofar + 1 else sofar) n

end Limiter

end FaultSnapshot
