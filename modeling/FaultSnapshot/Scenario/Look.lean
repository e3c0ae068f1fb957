import FaultSnapshot.Scenario.Bindings

/-!
# Looks at frames, cells and triggers

The steps of a scenario that make, keep and inspect frames, cells and triggers. Rendering may run
steps, so these steps are given the way to run code.
-/

namespace FaultSnapshot.Scenario

/-- The monitors of a scenario by name. -/
abbrev Monitors := List (String × Monitor program)

def monitor (monitors : Monitors) (name : String) : Play (Monitor program) := known (monitors.lookup name)

def place (monitors : Monitors) : Place → Play TrackerId
  | .tracker name => tracker name
  | .tracer name => do
    match ← monitor monitors name with
    | .active t => return t.tracker.id
    | .silent => throw .abort

/-- Changes the memory, with an answer that says whether it was refused. -/
def attempt (f : Memory Script → Except Fault Unit × Memory Script) : Play Answer := do
  match ← Run.memory f with
  | .ok () => return .done
  | .error e => return .fault e

/-! ## Frames -/

/-- The frames that are kept under a name, each looked at. -/
def eachHeld {α : Type} (held : String) (f : View Script → Play α) : Play (List α) := do
  (← find .views held).mapM f

/-- A frame made of new cells. -/
def makeView (o : Option Expr) (method : String) (vars : List (String × Expr)) : Play (View Script) := do
  let o ← owner o
  let cells ← (← params vars).mapM fun p => return (p.1, ← Run.memory (·.newCell p.1 p.2))
  return ⟨o, method, .ofList cells⟩

/-- The frames that are to be kept; none if there is no current frame. -/
def holding (monitors : Monitors) (thread : Thread) : Holding → Play (Option (List (View Script)))
  | .current p => do
    let id ← place monitors p
    return (← Run.readMemory (·.current? (id, thread))).map ([·])
  | .all p => do
    let id ← place monitors p
    return some (← Run.readMemory (·.views (id, thread)))
  | .walk p => do
    let id ← place monitors p
    return some (← Run.readMemory (·.views (id, thread)))
  | .emptyWalk => return some []
  | .made o method vars => return some [← makeView o method vars]

/-- Keeps frames under a name. -/
def hold (monitors : Monitors) (thread : Thread) (what : Holding) (name : String) : Play Answer := do
  match ← holding monitors thread what with
  | some views => do
    assign .views name views
    return .held
  | none => return .nothing

/-- The rendered variable of a frame, where there is one. -/
def slotOf (exec : Exec program) (site : Site) (slot : String) (v : View Script) : Play (Option String) :=
  match v.vars.get? slot with
  | some cell => return some (← CellId.present (Object.render exec site) cell)
  | none => return none

/-- Takes the next frame of a walk. -/
def next (exec : Exec program) (site : Site) (held : String) : Play Answer := do
  match ← find .views held with
  | [] => return .step none 0
  | v :: rest =>
    assign .views held rest
    return .step (some (← v.document exec site)) rest.length

/-! ## Cells -/

/-- Keeps the cell of a variable of a kept frame. -/
def cellOf (held slot name : String) : Play Answer := do
  match (← find .views held).findSome? (·.vars.get? slot) with
  | some cell => do
    assign .cells name cell
    return .held
  | none => return .nothing

/-- The cell of a name, rendered. -/
def renderCell (exec : Exec program) (site : Site) (cell : CellId) : Play String :=
  CellId.present (Object.render exec site) cell

def cellName (cell : CellId) : Play String := do
  return (← known (← Run.readMemory (·.cells[cell]?))).name

/-- The content of a cell, if it has exactly the type. -/
def cast (exec : Exec program) (site : Site) (cell : CellId) (kind : Kind) : Play Answer := do
  let content := (← known (← Run.readMemory (·.cells[cell]?))).content
  if content.payload.kind = kind then
    let shown ← content.inspect exec site
    return .casts (if kind = .sharedRecord then none else some shown) (some shown)
  else return .casts none none

/-! ## Shared records -/

/-- The place of a shared record and what it holds. -/
def record (name : String) : Play (Nat × SharedRecord) := do
  let i ← find .records name
  return (i, ← known (← Run.readMemory (·.records[i]?)))

def changeRecord (i : Nat) (f : SharedRecord → SharedRecord) : Play Unit :=
  Run.memory fun m => ((), m.modifyRecord i f)

/-- Writes into a shared record, unless it is locked. -/
def setRecord (name : String) (text : Option String) (number : Option Int) : Play Answer := do
  let (i, r) ← record name
  if r.locked then return .locked
  changeRecord i fun r => { r with text := text.getD r.text, number := number.getD r.number }
  return .done

end FaultSnapshot.Scenario
