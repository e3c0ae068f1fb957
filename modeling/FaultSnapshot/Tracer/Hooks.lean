import FaultSnapshot.Tracer.Basic

/-!
# Hooks of a tracer

The calls by which a program says what it does. While a tracer builds a report on a thread, its
hooks do nothing there. An error is reported once: a hook that is called with the very error of
the last trigger that became a report is dropped.
-/

namespace FaultSnapshot.Tracer

variable {P : Program}

/-- A report is being built on the thread. -/
def isProcessing (t : Tracer P) (thread : Thread) : Run P Bool := do
  return ((← get).reportingOf t.name thread).processing

/-- The error of the last trigger that became a report on the thread is this very object. -/
def isPropagating (t : Tracer P) (thread : Thread) (e : ErrorRef) : Run P Bool := do
  return ((← get).reportingOf t.name thread).remembered.any (·.same e)

/-- The world after the end of a report; the remembered error stays. -/
def endReport (t : Tracer P) (thread : Thread) (w : World P) : World P :=
  (w.setReporting t.name thread { w.reportingOf t.name thread with processing := false }).note (.ended t.name thread)

/-- Asks the throttle about a trigger. If it is let through, its report starts, which replaces the
    remembered error. -/
def admits (t : Tracer P) (thread : Thread) (trigger : Trigger) (remembered : Option ErrorRef) : Run P Bool :=
  modifyGet fun w =>
    let decision := w.ask t.throttle
    let w := decision.2.note (.asked t.name thread trigger decision.1)
    (decision.1, if decision.1 then w.setReporting t.name thread ⟨true, remembered⟩ else w)

/-- Writes a log entry about a method. -/
def log (level : Level) (method message : String) : Run P Unit := Run.log level .tracer [("method", method)] message

def logThrottled (method : String) (trigger : Trigger) (message : String) : Run P Unit :=
  Run.log .debug .tracer [("method", method), ("trigger_id", trigger.stamp.id.text)] message

/-- What is logged about triggers of one kind. -/
structure Wording where
  ignored : String
  throttled : String
  notWritten : String
  notDelivered : String

def errorWording : Wording where
  ignored := "Ignoring error raised while a report is being built"
  throttled := "Error trigger throttled"
  notWritten := "Failed to serialize error trigger: "
  notDelivered := "Failed to deliver error report: "

def timeoutWording : Wording where
  ignored := "Ignoring timeout raised while a report is being built"
  throttled := "Timeout trigger throttled"
  notWritten := "Failed to serialize timeout trigger: "
  notDelivered := "Failed to deliver timeout report: "

/-- Writes a report and hands it over. -/
def build (exec : Exec P) (t : Tracer P) (site : Site) (method : String) (trigger : Trigger) (words : Wording) :
    Run P (Except Fault Unit) := do
  match ← t.serialize exec site trigger with
  | .error f =>
    log .warn method (words.notWritten ++ f.message)
    return .error f
  | .ok report =>
    match ← t.deliver exec site trigger.kind report with
    | .error f =>
      log .warn method (words.notDelivered ++ f.message)
      return .error f
    | .ok () => return .ok ()

/-- Makes the report of a trigger if it is let through. However the report ends, the tracer is
    ready for the next one afterwards. -/
def offer (exec : Exec P) (t : Tracer P) (site : Site) (method : String) (trigger : Trigger)
    (remembered : Option ErrorRef) (words : Wording) : Run P (Except Fault Unit) := do
  if ← t.admits site.thread trigger remembered then
    Run.ensuring (t.build exec site method trigger words) (t.endReport site.thread)
  else
    logThrottled method trigger words.throttled
    return .ok ()

/-! ## The hooks -/

/-- The position of the first parameter without a name. -/
def unnamedAt? (params : List (String × Object P.Code)) : Option Nat := params.findIdx? fun p => p.1 = ""

/-- A method is entered. -/
def entering (t : Tracer P) (site : Site) (owner : Option (Object P.Code)) (method : String)
    (params : List (String × Object P.Code)) : Run P (Except Fault Unit) := do
  if ← t.isProcessing site.thread then return .ok ()
  match unnamedAt? params with
  | some position => return .error (.emptyParameter position method)
  | none =>
    match ← t.tracker.openFrame site.thread owner method with
    | .ok () => t.tracker.trackAll site.thread params
    | .error f => return .error f

/-- The pairs of a flat list of names and values, from a position on. -/
def pairUp (method : String) : Nat → List (Object P.Code) → Except Fault (List (String × Object P.Code))
  | position, name :: value :: rest =>
    match name.payload.text? with
    | some name => (pairUp method (position + 2) rest).map ((name, value) :: ·)
    | none => .error (.parameterNotText position method)
  | _, _ => .ok []

/-- A method is entered, with its parameters as one flat list of names and values. -/
def enteringFlat (t : Tracer P) (site : Site) (owner : Option (Object P.Code)) (method : String)
    (params : List (Object P.Code)) : Run P (Except Fault Unit) := do
  if ← t.isProcessing site.thread then return .ok ()
  if params.length % 2 ≠ 0 then return .error (.oddParameters method params.length)
  match pairUp method 0 params with
  | .ok pairs => t.entering site owner method pairs
  | .error f => return .error f

/-- The method entered last is left. -/
def exiting (t : Tracer P) (site : Site) : Run P (Except Fault Unit) := do
  if ← t.isProcessing site.thread then return .ok ()
  t.tracker.closeFrame site.thread

/-- A variable of the current method is written. -/
def valueChange (t : Tracer P) (site : Site) (name : String) (value : Object P.Code) : Run P (Except Fault Unit) := do
  if ← t.isProcessing site.thread then return .ok ()
  t.tracker.track site.thread name value

/-- An error passes through a method. -/
def onError (exec : Exec P) (t : Tracer P) (site : Site) (method : String) (e : ErrorRef) :
    Run P (Except Fault Unit) := do
  if ← t.isProcessing site.thread then
    log .debug method errorWording.ignored
    return .ok ()
  if ← t.isPropagating site.thread e then
    log .debug method "Error already reported on this thread, skipping"
    return .ok ()
  let trigger ← Run.newTrigger t.tracker.id (.error e)
  t.offer exec site method trigger (some e) errorWording

/-- A method took longer than its threshold. -/
def timeout (exec : Exec P) (t : Tracer P) (site : Site) (method : String) (thresholdMs actualMs : UInt64) :
    Run P (Except Fault Unit) := do
  if ← t.isProcessing site.thread then
    log .debug method timeoutWording.ignored
    return .ok ()
  let trigger ← Run.newTrigger t.tracker.id (.timeout thresholdMs actualMs)
  t.offer exec site method trigger none timeoutWording

end FaultSnapshot.Tracer
