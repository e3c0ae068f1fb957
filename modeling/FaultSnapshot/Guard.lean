import FaultSnapshot.Panic

/-!
# Guards and traced calls

A guard stands for an open frame and closes it in the end, whether the code in between returns or
panics. A traced call runs a body under a guard and reports the error that the body returns while
the frame is still open.
-/

namespace FaultSnapshot

/-- An open frame, and how long it may stay open. -/
structure Guard (P : Program) where
  monitor : Monitor P
  method : String
  thresholdMs : Option UInt64

variable {P : Program}

namespace Guard

/-- Opens a frame; if the monitor refuses, there is no guard. -/
def enter (m : Monitor P) (site : Site) (owner : Option (Object P.Code)) (method : String)
    (params : List (String × Object P.Code)) : Run P (Except Fault (Guard P)) := do
  match ← m.entering site owner method params with
  | .ok () => return .ok ⟨m, method, none⟩
  | .error f => return .error f

def track (g : Guard P) (site : Site) (name : String) (value : Object P.Code) : Run P (Except Fault Unit) :=
  g.monitor.valueChange site name value

def reportError (exec : Exec P) (g : Guard P) (site : Site) (e : ErrorRef) : Run P (Except Fault Unit) :=
  g.monitor.onError exec site g.method e

/-- Logs a failure that has nowhere else to go. -/
def logFailure (method message : String) : Except Fault Unit → Run P Unit
  | .ok () => return ()
  | .error f => Run.log .warn .guard [("method", method)] (message ++ f.message)

/-- Reports a timeout if the frame was open for longer than the threshold. -/
def reportTimeout (exec : Exec P) (g : Guard P) (site : Site) (elapsedMs : UInt64) : Run P Unit :=
  match g.thresholdMs with
  | none => return ()
  | some threshold => do
    if threshold < elapsedMs then
      logFailure g.method "Failed to report timeout: " (← g.monitor.timeout exec site g.method threshold elapsedMs)

/-- Closes the frame, after the report of a timeout. -/
def close (exec : Exec P) (g : Guard P) (site : Site) (elapsedMs : UInt64) : Run P Unit := do
  g.reportTimeout exec site elapsedMs
  logFailure g.method "Failed to close frame: " (← g.monitor.exiting site)

end Guard

/-- How a traced call ends: its frame was refused, its body returned an error, or it finished. -/
inductive Traced (α : Type)
  | refused (e : ErrorRef)
  | failed (e : ErrorRef)
  | finished (result : α)

/-- Reports the error that a body returned. -/
def Guard.reportResult {α : Type} (exec : Exec P) (g : Guard P) (site : Site) :
    Except ErrorRef α → Run P (Traced α)
  | .ok result => return .finished result
  | .error e => do
    Guard.logFailure g.method "Failed to report error: " (← g.reportError exec site e)
    return .failed e

/-- Runs a body inside a frame and reports the error that it returns. -/
def traced {α : Type} (exec : Exec P) (m : Monitor P) (site : Site) (owner : Option (Object P.Code)) (method : String)
    (params : List (String × Object P.Code)) (body : Guard P → Run P (Except ErrorRef α)) : Run P (Traced α) := do
  match ← Guard.enter m site owner method params with
  | .error f => return .refused (← Run.newError (.fault f))
  | .ok guard =>
    Panic.closingAfter (do guard.reportResult exec site (← body guard)) (guard.close exec site 0)

end FaultSnapshot
