import FaultSnapshot.Report.Document

/-!
# Text layout of documents

The text that people read: a title, a block for each frame, innermost first, with a line for each
variable, and a closing bracket.
-/

namespace FaultSnapshot

/-- The first line of a report on an error. -/
def errorTitle (error : String) : String := "Snaperr - state snapshot of error '" ++ error ++ "': [\n"

/-- The first line of a report on a timeout. -/
def timeoutTitle (thresholdMs actualMs : UInt64) : String :=
  "Snaperr - state snapshot of timeout (threshold " ++ toString thresholdMs ++ "ms, actual " ++ toString actualMs ++
    "ms): [\n"

/-- What stands for an owner that a frame does not have. -/
def noOwner : String := "null"

/-- The line that opens the block of a frame. -/
def frameLine (owner method : String) : String := "\t" ++ owner ++ "." ++ method ++ " \x7b\n"

def variableLine (name value : String) : String := "\t\t" ++ name ++ "=" ++ value ++ "\n"

/-- The line that closes the block of a frame. -/
def frameEnd : String := "\t\x7d\n"

/-- The last line. -/
def reportEnd : String := "]"

/-- The block of a frame. -/
def FrameDocument.layout (f : FrameDocument) : String :=
  frameLine (f.owner.getD noOwner) f.method ++ String.join (f.vars.entries.map fun e => variableLine e.1 e.2) ++
    frameEnd

def Document.title (d : Document) : String :=
  match d.kind with
  | .error => errorTitle (d.error.getD "")
  | .timeout => timeoutTitle (d.thresholdMs.getD 0) (d.actualMs.getD 0)

/-- The text of a document. -/
def Document.layout (d : Document) : String :=
  d.title ++ String.join (d.frames.map FrameDocument.layout) ++ reportEnd

end FaultSnapshot
