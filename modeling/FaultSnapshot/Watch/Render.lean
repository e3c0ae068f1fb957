import FaultSnapshot.Run

/-!
# Rendering of objects and views

A text is rendered as it is, everything else in its inspected form. A cell is read when its
variable is reached, so code that runs in between may have written to it.
-/

namespace FaultSnapshot

variable {P : Program}

namespace Object

def inspect (exec : Exec P) (site : Site) (o : Object P.Code) : Run P String :=
  match o.payload with
  | .text s => return Text.quoted s
  | .literal s => return Text.quoted s
  | .data _ d => return d.inspect
  | .sharedRecord i => do return ((← Run.readMemory (·.records[i]?)).map SharedRecord.inspect).getD ""
  | .hooked code shown => do
    exec site code
    return shown

/-- The form in reports. -/
def render (exec : Exec P) (site : Site) (o : Object P.Code) : Run P String :=
  match o.payload.text? with
  | some s => return s
  | none => o.inspect exec site

end Object

namespace CellId

/-- The object in a cell, in some form; a cell that does not exist shows nothing. -/
def present (form : Object P.Code → Run P String) (cell : CellId) : Run P String := do
  match ← Run.readMemory (·.cells[cell]?) with
  | some c => form c.content
  | none => return ""

def inspect (exec : Exec P) (site : Site) (name : String) (cell : CellId) : Run P String := do
  let shown ← present (Object.inspect exec site) cell
  return "TrackedValue \x7b name: " ++ Text.quoted name ++ ", value: " ++ shown ++ " \x7d"

end CellId

namespace View

/-- The rendered owner, where there is one. -/
def owner? (exec : Exec P) (site : Site) (v : View P.Code) : Run P (Option String) :=
  match v.owner with
  | some o => return some (← o.render exec site)
  | none => return none

/-- The rendered variables, in their order. -/
def rendered (exec : Exec P) (site : Site) (v : View P.Code) : Run P (List (String × String)) :=
  v.vars.entries.mapM fun e => return (e.1, ← CellId.present (Object.render exec site) e.2)

def document (exec : Exec P) (site : Site) (v : View P.Code) : Run P FrameDocument := do
  let owner ← v.owner? exec site
  return ⟨owner, v.method, .ofList (← v.rendered exec site)⟩

def inspectOwner (exec : Exec P) (site : Site) (v : View P.Code) : Run P String :=
  match v.owner with
  | some o => return "Some(" ++ (← o.inspect exec site) ++ ")"
  | none => return "None"

/-- The inspected variables, with commas between them. -/
def inspectVariables (exec : Exec P) (site : Site) (v : View P.Code) : Run P String := do
  let shown ← v.vars.entries.mapM fun e => return Text.quoted e.1 ++ ": " ++ (← CellId.inspect exec site e.1 e.2)
  return ", ".intercalate shown

def inspect (exec : Exec P) (site : Site) (v : View P.Code) : Run P String := do
  let owner ← v.inspectOwner exec site
  return "TrackedScope \x7b source: " ++ owner ++ ", method_name: " ++ Text.quoted v.method ++
    ", references: \x7b" ++ (← v.inspectVariables exec site) ++ "\x7d \x7d"

end View

end FaultSnapshot
