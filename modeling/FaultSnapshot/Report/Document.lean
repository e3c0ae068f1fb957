import FaultSnapshot.Instant
import FaultSnapshot.Json.Printer
import FaultSnapshot.Json.Reader
import FaultSnapshot.OrderedMap
import FaultSnapshot.Uuid

/-!
# Report documents

The content of one report: what happened, when, and the frames that were open, innermost first,
with the rendered values of their variables. A document is written as compact or pretty JSON and
read back from any JSON text that names its fields.
-/

namespace FaultSnapshot

/-- What a report is about. -/
inductive ReportKind
  | error
  | timeout
  deriving DecidableEq, Repr

namespace ReportKind

/-- The name in documents. -/
def name : ReportKind → String
  | error => "error"
  | timeout => "timeout"

/-- The kind with exactly this name. -/
def ofName? : String → Option ReportKind
  | "error" => some error
  | "timeout" => some timeout
  | _ => none

end ReportKind

/-- One frame of a document. -/
structure FrameDocument where
  owner : Option String
  method : String
  vars : OrderedMap String String
  deriving DecidableEq

/-- One report. -/
structure Document where
  kind : ReportKind
  triggerId : Uuid
  occurredAt : Instant
  error : Option String
  thresholdMs : Option UInt64
  actualMs : Option UInt64
  frames : List FrameDocument
  deriving DecidableEq

namespace FrameDocument

def toJson (f : FrameDocument) : Json :=
  .ofMembers [("owner", f.owner.elim .null .ofString), ("method", .ofString f.method),
    ("variables", .ofMembers (f.vars.entries.map fun e => (e.1, .ofString e.2)))]

def fieldNames : List String := ["owner", "method", "variables"]

/-- One variable of a frame. -/
def entry? (m : Option String × Json) : Option (String × String) := do
  return (← m.1, ← m.2.text?)

def vars? : Json → Option (OrderedMap String String)
  | .object members => (members.mapM entry?).map OrderedMap.ofList
  | _ => none

/-- The frame of a JSON value; the owner may be missing. -/
def ofJson? (j : Json) : Option FrameDocument :=
  match j.fields? fieldNames with
  | some [owner, some method, some vars] => do
    let owner ← owner.elim (some none) (Json.orNull? Json.text?)
    return ⟨owner, ← method.text?, ← vars? vars⟩
  | _ => none

end FrameDocument

namespace Document

/-- An optional field: left out when absent. -/
def optional {α : Type} (name : String) (encode : α → Json) : Option α → List (String × Json)
  | some a => [(name, encode a)]
  | none => []

/-- The JSON value of a number of 64 bits. -/
def wordJson (n : UInt64) : Json := .ofNat n.toNat

def toJson (d : Document) : Json :=
  .ofMembers ([("kind", .ofString d.kind.name), ("trigger_id", .ofString d.triggerId.text),
      ("occurred_at", .ofString d.occurredAt.text)] ++
    optional "error" .ofString d.error ++ optional "timeout_threshold_ms" wordJson d.thresholdMs ++
    optional "timeout_ms" wordJson d.actualMs ++ [("scopes", .array (d.frames.map FrameDocument.toJson))])

def compact (d : Document) : String := d.toJson.compactText

def pretty (d : Document) : String := d.toJson.prettyText

def fieldNames : List String :=
  ["kind", "trigger_id", "occurred_at", "error", "timeout_threshold_ms", "timeout_ms", "scopes"]

/-- A number of 64 bits. -/
def word? (j : Json) : Option UInt64 := (j.nat? (UInt64.size - 1)).map UInt64.ofNat

/-- A field that may be absent or null. -/
def optional? {α : Type} (decode : Json → Option α) (field : Option Json) : Option (Option α) :=
  field.elim (some none) (Json.orNull? decode)

def frames? : Json → Option (List FrameDocument)
  | .array items => items.mapM FrameDocument.ofJson?
  | _ => none

def ofJson? (j : Json) : Option Document :=
  match j.fields? fieldNames with
  | some [some kind, some triggerId, some occurredAt, error, threshold, actual, some frames] => do
    return {
      kind := ← ReportKind.ofName? (← kind.name?)
      triggerId := ← Uuid.read? (← triggerId.text?)
      occurredAt := ← Instant.read? (← occurredAt.text?)
      error := ← optional? Json.text? error
      thresholdMs := ← optional? word? threshold
      actualMs := ← optional? word? actual
      frames := ← frames? frames }
  | _ => none

/-- The document of a JSON text. -/
def read? (s : String) : Option Document := Json.read? s >>= ofJson?

end Document

end FaultSnapshot
