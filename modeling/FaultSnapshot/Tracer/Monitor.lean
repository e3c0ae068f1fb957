import FaultSnapshot.Tracer.Hooks

/-!
# Monitors

What instrumented code calls: a tracer, or nothing at all where monitoring is off. A silent monitor
accepts every call and keeps nothing.
-/

namespace FaultSnapshot

/-- The receiver of the calls of instrumented code. -/
inductive Monitor (P : Program)
  | silent
  | active (tracer : Tracer P)

namespace Monitor

variable {P : Program}

def entering (m : Monitor P) (site : Site) (owner : Option (Object P.Code)) (method : String)
    (params : List (String × Object P.Code)) : Run P (Except Fault Unit) :=
  match m with
  | silent => return .ok ()
  | active t => t.entering site owner method params

def enteringFlat (m : Monitor P) (site : Site) (owner : Option (Object P.Code)) (method : String)
    (params : List (Object P.Code)) : Run P (Except Fault Unit) :=
  match m with
  | silent => return .ok ()
  | active t => t.enteringFlat site owner method params

def exiting (m : Monitor P) (site : Site) : Run P (Except Fault Unit) :=
  match m with
  | silent => return .ok ()
  | active t => t.exiting site

def valueChange (m : Monitor P) (site : Site) (name : String) (value : Object P.Code) : Run P (Except Fault Unit) :=
  match m with
  | silent => return .ok ()
  | active t => t.valueChange site name value

/-- The method returns a value; nothing is kept of it. -/
def returning (_ : Monitor P) (_ : Object P.Code) : Run P (Except Fault Unit) := return .ok ()

def onError (exec : Exec P) (m : Monitor P) (site : Site) (method : String) (e : ErrorRef) :
    Run P (Except Fault Unit) :=
  match m with
  | silent => return .ok ()
  | active t => t.onError exec site method e

def timeout (exec : Exec P) (m : Monitor P) (site : Site) (method : String) (thresholdMs actualMs : UInt64) :
    Run P (Except Fault Unit) :=
  match m with
  | silent => return .ok ()
  | active t => t.timeout exec site method thresholdMs actualMs

/-- A report is being built on the thread; never so where monitoring is off. -/
def isProcessing (m : Monitor P) (thread : Thread) : Run P Bool :=
  match m with
  | silent => return false
  | active t => t.isProcessing thread

end Monitor

end FaultSnapshot
