import FaultSnapshot.Report.Layout
import FaultSnapshot.Watch.Render

/-!
# Serializers

A serializer turns a trigger into the text of a report. The frames are those that the trigger's
tracker has on the thread of the serializer. The text format is written piece by piece; the JSON
formats build a document first.
-/

namespace FaultSnapshot

/-- How the text of a report is written. -/
inductive Serializer
  | text
  | json
  | prettyJson
  deriving DecidableEq, Repr

def Serializer.ofFormat : Format → Serializer
  | .text => text
  | .json => json

variable {P : Program}

namespace Trigger

/-- The frames of the trigger's tracker on a thread, innermost first. -/
def views (t : Trigger) (thread : Thread) : Run P (List (View P.Code)) := Run.readMemory (·.views (t.tracker, thread))

/-- The innermost frame of the trigger's tracker on a thread. -/
def current? (t : Trigger) (thread : Thread) : Run P (Option (View P.Code)) :=
  Run.readMemory (·.current? (t.tracker, thread))

def document (exec : Exec P) (site : Site) (t : Trigger) : Run P Document := do
  let frames ← (← t.views site.thread).mapM (View.document exec site)
  match t.cause with
  | .error e => return ⟨.error, t.stamp.id, t.stamp.time, some e.error.text, none, none, frames⟩
  | .timeout threshold actual =>
    return ⟨.timeout, t.stamp.id, t.stamp.time, none, some threshold, some actual, frames⟩

def title (t : Trigger) : String :=
  match t.cause with
  | .error e => errorTitle e.error.text
  | .timeout threshold actual => timeoutTitle threshold actual

end Trigger

/-- Writes the lines of variables after a text. -/
def writeVariables (exec : Exec P) (site : Site) (out : String) : List (String × CellId) → Run P String
  | [] => return out
  | (name, cell) :: rest => do
    let value ← CellId.present (Object.render exec site) cell
    writeVariables exec site (out ++ variableLine name value) rest

/-- Writes the blocks of frames after a text. -/
def writeFrames (exec : Exec P) (site : Site) (out : String) : List (View P.Code) → Run P String
  | [] => return out
  | v :: rest => do
    let owner ← v.owner? exec site
    let out ← writeVariables exec site (out ++ frameLine (owner.getD noOwner) v.method) v.vars.entries
    writeFrames exec site (out ++ frameEnd) rest

/-- Writes the report of a trigger. -/
def Serializer.write (exec : Exec P) (site : Site) (t : Trigger) : Serializer → Run P String
  | text => do
    let views ← t.views site.thread
    return (← writeFrames exec site t.title views) ++ reportEnd
  | json => return (← t.document exec site).compact
  | prettyJson => return (← t.document exec site).pretty

end FaultSnapshot
