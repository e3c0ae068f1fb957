import FaultSnapshot.Fault
import FaultSnapshot.Frames.CallStack
import FaultSnapshot.Frames.Frame
import FaultSnapshot.Resource

/-!
# The memory of a program under watch

All cells, all shared records, and for each tracker and thread the stack of its open frames. The
operations of a tracker either succeed or change nothing.
-/

namespace FaultSnapshot

/-- Everything that watched values and frames refer to. -/
structure Memory (Code : Type) where
  objects : Nat
  cells : Array (Cell Code)
  records : Array SharedRecord
  callStacks : OrderedMap (TrackerId × Thread) (CallStack (Frame Code))

namespace Memory

variable {Code : Type}

def empty : Memory Code := ⟨0, #[], #[], ∅⟩

/-! ## Objects, records and cells -/

def newObject (m : Memory Code) (payload : Payload Code) : Object Code × Memory Code :=
  (⟨m.objects, payload⟩, { m with objects := m.objects + 1 })

/-- A new shared record, and the object that stands for it. -/
def newRecord (m : Memory Code) (text : String) (number : Int) : Object Code × Memory Code :=
  (⟨m.objects, .sharedRecord m.records.size⟩,
    { m with objects := m.objects + 1, records := m.records.push ⟨m.objects, text, number, false, false⟩ })

def modifyRecord (m : Memory Code) (i : Nat) (f : SharedRecord → SharedRecord) : Memory Code :=
  { m with records := m.records.modify i f }

def newCell (m : Memory Code) (name : String) (content : Object Code) : CellId × Memory Code :=
  (m.cells.size, { m with cells := m.cells.push ⟨name, content⟩ })

def write (m : Memory Code) (cell : CellId) (content : Object Code) : Memory Code :=
  { m with cells := m.cells.modify cell fun c => { c with content } }

/-! ## Stacks -/

/-- The stack of a tracker on a thread. -/
def stack (m : Memory Code) (key : TrackerId × Thread) : CallStack (Frame Code) :=
  (m.callStacks.get? key).getD .empty

def setStack (m : Memory Code) (key : TrackerId × Thread) (s : CallStack (Frame Code)) : Memory Code :=
  { m with callStacks := m.callStacks.insert key s }

/-- What a tracker says of a refusing stack. -/
def stackFault : StackError → Fault
  | .underflow => .scopeUnderflow
  | .heightBeyondArena height size => .heightBeyondArena height size

def openFrame (m : Memory Code) (key : TrackerId × Thread) (owner : Option (Object Code)) (method : String) :
    Except Fault Unit × Memory Code :=
  match (m.stack key).push (.opened owner method) with
  | .ok s => (.ok (), m.setStack key s)
  | .error e => (.error (stackFault e), m)

def closeFrame (m : Memory Code) (key : TrackerId × Thread) : Except Fault Unit × Memory Code :=
  match (m.stack key).pop .cleared with
  | .ok (_, s) => (.ok (), m.setStack key s)
  | .error e => (.error (stackFault e), m)

/-- Writes a variable of the innermost frame: into its cell, or into a new cell on the first write. -/
def track (m : Memory Code) (key : TrackerId × Thread) (name : String) (value : Object Code) :
    Except Fault Unit × Memory Code :=
  if name = "" then (.error .emptyVariable, m)
  else
    let s := m.stack key
    match s.top? with
    | none => (.error (.noFrameFor name), m)
    | some frame =>
      match frame.vars.get? name with
      | some cell => (.ok (), m.write cell value)
      | none =>
        let (cell, m) := m.newCell name value
        (.ok (), m.setStack key (s.setTop { frame with vars := frame.vars.insert name cell }))

def depth (m : Memory Code) (key : TrackerId × Thread) : Nat := (m.stack key).height

def isEmpty (m : Memory Code) (key : TrackerId × Thread) : Bool := (m.stack key).isEmpty

/-- The innermost frame, as it is seen now. -/
def current? (m : Memory Code) (key : TrackerId × Thread) : Option (View Code) := (m.stack key).top?.map Frame.view

/-- All open frames, innermost first, as they are seen now. -/
def views (m : Memory Code) (key : TrackerId × Thread) : List (View Code) := (m.stack key).toList.map Frame.view

/-- A frame with what its variables hold now. -/
def picture (m : Memory Code) (v : View Code) : Picture Code :=
  ⟨v.owner, v.method, v.vars.entries.filterMap fun e => m.cells[e.2]?.map fun c => (e.1, c.content)⟩

/-- All open frames, innermost first, with what their variables hold now. -/
def pictures (m : Memory Code) (key : TrackerId × Thread) : List (Picture Code) := (m.views key).map m.picture

end Memory

end FaultSnapshot
