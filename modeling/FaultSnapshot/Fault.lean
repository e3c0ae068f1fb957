import FaultSnapshot.Text.Quoted

/-!
# Errors

`Fault` is what the library itself reports. `AppError` is any error a monitored program passes
around, a fault among them; `ErrorRef` is such an error together with the identity of its object,
by which a propagating error is recognised.
-/

namespace FaultSnapshot

/-- The failures of the library, each with the reason given by the place that raised it. -/
inductive Fault
  | invalidArgument (reason : String)
  | noActiveScope (reason : String)
  | scopeUnderflow
  | internalState (reason : String)
  | serialization (reason : String)
  | io (reason : String)
  | config (reason : String)
  | reporter (reason : String)
  deriving DecidableEq, Repr

namespace Fault

/-- The name of the kind of failure. -/
def kind : Fault → String
  | invalidArgument _ => "InvalidArgument"
  | noActiveScope _ => "NoActiveScope"
  | scopeUnderflow => "ScopeUnderflow"
  | internalState _ => "InternalState"
  | serialization _ => "SerializationError"
  | io _ => "IoError"
  | config _ => "ConfigError"
  | reporter _ => "Reporter"

/-- The text shown to people. -/
def message : Fault → String
  | invalidArgument reason => "Invalid argument: " ++ reason
  | noActiveScope reason => "No active scope: " ++ reason
  | scopeUnderflow => "Scope underflow: exiting called without a matching entering"
  | internalState reason => "Internal state error: " ++ reason
  | serialization reason => "Serialization error: " ++ reason
  | io reason => "IO error: " ++ reason
  | config reason => "Invalid configuration: " ++ reason
  | reporter reason => "Reporter error: " ++ reason

/-- The text of the error that this one stands for, where there is one. -/
def cause? : Fault → Option String
  | serialization reason => some reason
  | io reason => some reason
  | _ => none

/-- The inspected form; a failure that stands for another error has none of its own. -/
def inspect? : Fault → Option String
  | serialization _ => none
  | io _ => none
  | scopeUnderflow => some "ScopeUnderflow"
  | invalidArgument reason => some ("InvalidArgument(" ++ Text.quoted reason ++ ")")
  | noActiveScope reason => some ("NoActiveScope(" ++ Text.quoted reason ++ ")")
  | internalState reason => some ("InternalState(" ++ Text.quoted reason ++ ")")
  | config reason => some ("ConfigError(" ++ Text.quoted reason ++ ")")
  | reporter reason => some ("Reporter(" ++ Text.quoted reason ++ ")")

/-- What a reader of a text says when no value begins at its first character. -/
def noValue : String := "expected value at line 1 column 1"

/-- The failure of a named kind. The reason counts only for the kinds that are given one. -/
def ofKind? (kind reason : String) : Option Fault :=
  match kind with
  | "InvalidArgument" => some (invalidArgument reason)
  | "NoActiveScope" => some (noActiveScope reason)
  | "ScopeUnderflow" => some scopeUnderflow
  | "InternalState" => some (internalState reason)
  | "SerializationError" => some (serialization noValue)
  | "IoError" => some (io reason)
  | "ConfigError" => some (config reason)
  | "Reporter" => some (reporter reason)
  | _ => none

/-! ## What each place reports -/

def emptyVariable : Fault := invalidArgument "variable name must not be empty"

def noFrameFor (name : String) : Fault :=
  noActiveScope ("cannot track '" ++ name ++ "' before a scope was pushed")

/-- A stack is higher than its arena. -/
def heightBeyondArena (height size : Nat) : Fault :=
  internalState ("stack height " ++ toString height ++ " exceeds arena size " ++ toString size)

def emptyParameter (position : Nat) (method : String) : Fault :=
  invalidArgument ("parameter " ++ toString position ++ " of '" ++ method ++ "' has an empty name")

/-- A flat parameter list holds pairs. -/
def oddParameters (method : String) (length : Nat) : Fault :=
  invalidArgument ("parameter list of '" ++ method ++ "' has odd length " ++ toString length)

/-- A flat parameter list has a text at every even position. -/
def parameterNotText (position : Nat) (method : String) : Fault :=
  invalidArgument
    ("parameter name at position " ++ toString position ++ " of '" ++ method ++ "' is not a string")

def refusedMethod (method : String) : Fault := internalState ("refused method " ++ method)

def refusedVariable (name : String) : Fault := internalState ("refused variable " ++ name)

/-- Standard output takes no more text. -/
def outputFull : Fault := io "No space left on device (os error 28)"

def badCount (name value : String) : Fault := config (name ++ " has invalid value '" ++ value ++ "'")

def unknownFormat (name : String) : Fault :=
  config ("unknown output format '" ++ name ++ "', expected text or json")

def unknownSink (name : String) : Fault := config ("unknown sink '" ++ name ++ "', expected stdout, log or none")

end Fault

/-- A panic as an error: its message and, where known, its place. -/
structure PanicError where
  message : String
  location : Option String
  deriving DecidableEq, Repr

namespace PanicError

/-- The text shown to people. -/
def text (e : PanicError) : String :=
  match e.location with
  | some place => "panicked at " ++ place ++ ": " ++ e.message
  | none => "panicked: " ++ e.message

def inspect (e : PanicError) : String :=
  "PanicError \x7b message: " ++ Text.quoted e.message ++ ", location: " ++
    (match e.location with
     | some place => "Some(" ++ Text.quoted place ++ ")"
     | none => "None") ++ " \x7d"

end PanicError

/-- What a panic carries. -/
inductive PanicPayload
  | literal (message : String)
  | owned (message : String)
  | other
  deriving DecidableEq, Repr

/-- The message of a payload, or a placeholder when it is no text. -/
def PanicPayload.message : PanicPayload → String
  | literal message => message
  | owned message => message
  | other => "unknown panic payload"

/-- The errors a monitored program passes around. -/
inductive AppError
  | plain (text : String)
  | wrapping (inner : AppError)
  | panicked (p : PanicError)
  | fault (f : Fault)

namespace AppError

/-- The text shown to people. -/
def text : AppError → String
  | plain text => text
  | wrapping inner => "wrapped: " ++ inner.text
  | panicked p => p.text
  | fault f => f.message

/-- The text of the error this one stands for. -/
def cause? : AppError → Option String
  | plain _ => none
  | wrapping inner => some inner.text
  | panicked _ => none
  | fault f => f.cause?

end AppError

/-- A handle to an error object: what it says and which object it is. -/
structure ErrorRef where
  identity : Nat
  error : AppError

/-- Both handles hold the very same object. -/
def ErrorRef.same (a b : ErrorRef) : Bool := a.identity == b.identity

end FaultSnapshot
