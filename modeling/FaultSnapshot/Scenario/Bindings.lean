import FaultSnapshot.Scenario.Answer
import FaultSnapshot.Scenario.Step
import FaultSnapshot.Guard

/-!
# The program that a scenario is

The state of a scenario is what its names are bound to, with the answers of nested steps. A name
that is not bound ends the run.
-/

namespace FaultSnapshot.Scenario

/-- What the names of a scenario are bound to. -/
structure Bindings where
  objects : OrderedMap String (Object Script)
  errors : OrderedMap String ErrorRef
  records : OrderedMap String Nat
  views : OrderedMap String (List (View Script))
  cells : OrderedMap String CellId
  triggers : OrderedMap String Trigger
  trackers : List String
  nested : Array (String × Answer)

instance : Inhabited Bindings := ⟨⟨∅, ∅, ∅, ∅, ∅, ∅, [], #[]⟩⟩

/-- Scenarios as programs. -/
abbrev program : Program := ⟨Script, Bindings⟩

/-- A run of a scenario. -/
abbrev Play (α : Type) := Run program α

/-- A kind of name. -/
structure Names (α : Type) where
  read : Bindings → OrderedMap String α
  write : Bindings → OrderedMap String α → Bindings

namespace Names

def objects : Names (Object Script) := ⟨Bindings.objects, fun b m => { b with objects := m }⟩

def errors : Names ErrorRef := ⟨Bindings.errors, fun b m => { b with errors := m }⟩

def records : Names Nat := ⟨Bindings.records, fun b m => { b with records := m }⟩

def views : Names (List (View Script)) := ⟨Bindings.views, fun b m => { b with views := m }⟩

def cells : Names CellId := ⟨Bindings.cells, fun b m => { b with cells := m }⟩

def triggers : Names Trigger := ⟨Bindings.triggers, fun b m => { b with triggers := m }⟩

end Names

/-- What a name is bound to, or that it is not bound. -/
def known {α : Type} : Option α → Play α
  | some a => return a
  | none => throw .abort

/-- What a name is bound to, if it is bound. -/
def find? {α : Type} (names : Names α) (name : String) : Play (Option α) := do
  return (names.read (← get).state).get? name

def find {α : Type} (names : Names α) (name : String) : Play α := do
  known (← find? names name)

def assign {α : Type} (names : Names α) (name : String) (a : α) : Play Unit :=
  modify fun w => { w with state := names.write w.state ((names.read w.state).insert name a) }

/-- Notes the answer of a nested step. -/
def noteNested (label : String) (a : Answer) : Play Unit :=
  modify fun w => { w with state := { w.state with nested := w.state.nested.push (label, a) } }

/-- The tracker of a name, which is known from now on. -/
def tracker (name : String) : Play TrackerId := do
  modify fun w =>
    if name ∈ w.state.trackers then w else { w with state := { w.state with trackers := w.state.trackers ++ [name] } }
  return .named name

/-! ## Objects and errors -/

def object : Expr → Play (Object Script)
  | .text s => Run.memory (·.newObject (.text s))
  | .literal s => Run.memory (·.newObject (.literal s))
  | .data kind d => Run.memory (·.newObject (.data kind d))
  | .hooked steps shown => Run.memory (·.newObject (.hooked ⟨steps, none⟩ shown))
  | .bound name => find .objects name
  | .sharedRecord name => do
    let i ← find .records name
    let r ← known (← Run.readMemory (·.records[i]?))
    return ⟨r.identity, .sharedRecord i⟩

/-- The object of an owner, where there is one. -/
def owner : Option Expr → Play (Option (Object Script))
  | some e => return some (← object e)
  | none => return none

/-- The objects of named expressions. -/
def params (es : List (String × Expr)) : Play (List (String × Object Script)) :=
  es.mapM fun e => return (e.1, ← object e.2)

/-- The error that an expression means, unless a name in it is not bound. -/
def appError? : ErrorExpr → Play (Option AppError)
  | .bound name => return (← find? .errors name).map ErrorRef.error
  | .plain text => return some (.plain text)
  | .wrapping inner => return (← appError? inner).map .wrapping
  | .panicked p => return some (.panicked p)
  | .fault f => return some (.fault f)

/-- The error object of an expression, unless a name in it is not bound. -/
def error? : ErrorExpr → Play (Option ErrorRef)
  | .bound name => find? .errors name
  | e => do
    match ← appError? e with
    | some e => return some (← Run.newError e)
    | none => return none

def error (e : ErrorExpr) : Play ErrorRef := do
  known (← error? e)

end FaultSnapshot.Scenario
