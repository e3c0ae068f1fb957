import FaultSnapshot.Watch.Data

/-!
# Watched objects

An object is what a program hands over to be watched: a payload and the identity of the object.
Some payloads are not plain data: a shared record shows what it holds when it is looked at, and a
hooked value runs code of the program whenever it is inspected.
-/

namespace FaultSnapshot

/-- The exact type of a payload, as far as it can be asked for. -/
inductive Kind
  | flag
  | text
  | literal
  | signed (bits : Nat)
  | unsigned (bits : Nat)
  | size
  | character
  | unit
  | point
  | optionalInteger
  | optionalText
  | integers
  | texts
  | boxedText
  | sharedText
  | sharedRecord
  | other
  deriving DecidableEq, Repr

/-- What a watched object holds; `Code` is the code of the watched program. -/
inductive Payload (Code : Type)
  | text (s : String)
  | literal (s : String)
  | data (kind : Kind) (d : Data)
  | sharedRecord (record : Nat)
  | hooked (code : Code) (shown : String)

namespace Payload

variable {Code : Type}

def kind : Payload Code → Kind
  | text _ => .text
  | literal _ => .literal
  | data kind _ => kind
  | sharedRecord _ => .sharedRecord
  | hooked _ _ => .other

/-- The text of a payload that is a text and nothing else. -/
def text? : Payload Code → Option String
  | text s => some s
  | literal s => some s
  | _ => none

end Payload

structure Object (Code : Type) where
  identity : Nat
  payload : Payload Code

/-- The payload without the code that runs when it is inspected. -/
def Payload.still {Code : Type} : Payload Code → Payload Unit
  | .text s => .text s
  | .literal s => .literal s
  | .data kind d => .data kind d
  | .sharedRecord record => .sharedRecord record
  | .hooked _ shown => .hooked () shown

/-- The object without the code that runs when it is inspected. -/
def Object.still {Code : Type} (o : Object Code) : Object Unit := ⟨o.identity, o.payload.still⟩

/-- A record that several holders read and write under a lock. `identity` is its identity as a
    watched object. -/
structure SharedRecord where
  identity : Nat
  text : String
  number : Int
  poisoned : Bool
  locked : Bool

namespace SharedRecord

/-- The inspected form of what the lock protects. -/
def content (r : SharedRecord) : Data :=
  .record "MutableValue" [("text", .text r.text), ("number", .integer r.number)]

/-- The inspected form; what a held lock protects cannot be seen. -/
def inspect (r : SharedRecord) : String :=
  "Mutex \x7b data: " ++ (if r.locked then "\"<locked>\"" else r.content.inspect) ++ ", poisoned: " ++
    (Data.flag r.poisoned).inspect ++ ", .. \x7d"

end SharedRecord

end FaultSnapshot
