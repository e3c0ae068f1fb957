/-!
# Stacks in an arena

A stack keeps its slots when it shrinks: a slot above the height is cleared and filled again by a
later push. The stack is written for any kind of slot that says how it is filled and cleared.
-/

namespace FaultSnapshot

/-- Why a stack refuses. -/
inductive StackError
  | underflow
  | heightBeyondArena (height size : Nat)
  deriving DecidableEq, Repr

/-- Slots, of which the first `height` are in use. -/
structure CallStack (α : Type) where
  slots : Array α
  height : Nat

namespace CallStack

variable {α : Type}

def empty : CallStack α := ⟨#[], 0⟩

instance : Inhabited (CallStack α) := ⟨empty⟩

def isEmpty (s : CallStack α) : Bool := s.height == 0

/-- Fills the slot above the top, or a new one where the arena ends. -/
def push (s : CallStack α) (a : α) : Except StackError (CallStack α) :=
  if h : s.height < s.slots.size then .ok ⟨s.slots.set s.height a h, s.height + 1⟩
  else if s.height = s.slots.size then .ok ⟨s.slots.push a, s.height + 1⟩
  else .error (.heightBeyondArena s.height s.slots.size)

/-- Clears the top slot and hands back what it held. -/
def pop (s : CallStack α) (cleared : α) : Except StackError (α × CallStack α) :=
  match s.height with
  | 0 => .error .underflow
  | top + 1 =>
    if h : top < s.slots.size then .ok (s.slots[top], ⟨s.slots.set top cleared h, top⟩)
    else .error (.heightBeyondArena s.height s.slots.size)

def top? (s : CallStack α) : Option α :=
  match s.height with
  | 0 => none
  | top + 1 => s.slots[top]?

def setTop (s : CallStack α) (a : α) : CallStack α :=
  match s.height with
  | 0 => s
  | top + 1 => { s with slots := s.slots.setIfInBounds top a }

/-- The slots in use, the top first. -/
def toList (s : CallStack α) : List α := (s.slots.toList.take s.height).reverse

end CallStack

end FaultSnapshot
