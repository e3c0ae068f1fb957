import FaultSnapshot.Watch.Object

/-!
# Frames, cells and views

A frame is one open call: its owner, its method and its variables. A variable is a cell, which
keeps its identity while its content is written. A view lists the cells of a frame, so it shows
later writes to them and no later variables. A picture lists what the cells hold at one moment.
-/

namespace FaultSnapshot

variable {Code : Type}

/-- A variable: its name and the object last written to it. -/
structure Cell (Code : Type) where
  name : String
  content : Object Code

/-- Which cell, as its place among all cells. -/
abbrev CellId := Nat

/-- A frame as it was seen. -/
structure View (Code : Type) where
  owner : Option (Object Code)
  method : String
  vars : OrderedMap String CellId

/-- A frame with what its variables hold at one moment. -/
structure Picture (Code : Type) where
  owner : Option (Object Code)
  method : String
  vars : List (String × Object Code)

/-- The picture without the code that runs when its objects are inspected. -/
def Picture.still (p : Picture Code) : Picture Unit :=
  ⟨p.owner.map Object.still, p.method, p.vars.map fun v => (v.1, v.2.still)⟩

/-- One slot of a stack: a call, or nothing. -/
structure Frame (Code : Type) where
  owner : Option (Object Code)
  method : Option String
  vars : OrderedMap String CellId

namespace Frame

/-- The slot that holds nothing. -/
def cleared : Frame Code := ⟨none, none, ∅⟩

/-- A call without variables. -/
def opened (owner : Option (Object Code)) (method : String) : Frame Code := ⟨owner, some method, ∅⟩

/-- The frame as it is seen now. -/
def view (f : Frame Code) : View Code := ⟨f.owner, f.method.getD "", f.vars⟩

end Frame

end FaultSnapshot
