import FaultSnapshot.Tracer.Basic

/-!
# Scenarios

A scenario is a program made of steps: calls of hooks, guarded and traced bodies, panics, and looks
at frames, cells and triggers. Steps name what they work on, and they may run on another thread.
-/

namespace FaultSnapshot.Scenario

/-- How an error is obtained: by its name, or as a new object. -/
inductive ErrorExpr
  | bound (name : String)
  | plain (text : String)
  | wrapping (inner : ErrorExpr)
  | panicked (p : PanicError)
  | fault (f : Fault)

/-- Whose frames are looked at: those of a tracker, or those of the tracker of a tracer. -/
inductive Place
  | tracker (name : String)
  | tracer (name : String)

/-- How long the body of a guard takes: no limit is set, it certainly takes longer than the limit,
    or it certainly does not. -/
inductive Limit
  | unlimited
  | overrun
  | within
  deriving DecidableEq, Repr

mutual

/-- How a watched object is obtained: as a new object, or by a name. -/
inductive Expr
  | text (s : String)
  | literal (s : String)
  | data (kind : Kind) (d : Data)
  | sharedRecord (name : String)
  | bound (name : String)
  | hooked (steps : List Step) (shown : String)

/-- One step, with the name under which its answer is noted. -/
inductive Step
  | mk (label : String) (thread : Option Thread) (action : Action)

/-- What is kept of the frames under a name. -/
inductive Holding
  | current (place : Place)
  | all (place : Place)
  | walk (place : Place)
  | emptyWalk
  | made (owner : Option Expr) (method : String) (vars : List (String × Expr))

/-- What a step does. -/
inductive Action
  -- hooks
  | enter (tracer : String) (owner : Option Expr) (method : String) (params : List (String × Expr))
  | enterFlat (tracer : String) (owner : Option Expr) (method : String) (params : List Expr)
  | exit (tracer : String)
  | set (tracer name : String) (value : Expr)
  | returning (tracer : String) (value : Expr)
  | fail (tracer method : String) (e : ErrorExpr)
  | timeout (tracer method : String) (thresholdMs actualMs : UInt64)
  | processing (tracer : String)
  -- bodies
  | guarded (tracer : String) (owner : Option Expr) (method : String) (params : List (String × Expr)) (limit : Limit)
      (body : List Step)
  | traced (tracer : String) (owner : Option Expr) (method : String) (params : List (String × Expr))
      (body : List Step) (fails : Option ErrorExpr) (result : String) (saved : Option String)
  | guardSet (name : String) (value : Expr)
  | guardFail (e : ErrorExpr)
  | guardMethod
  | panic (payload : PanicPayload)
  | crash (message : String)
  | catching (body : List Step)
  -- clock, throttles, errors and objects
  | setClock (time : UInt64)
  | advanceClock (step : UInt64)
  | askThrottle (throttle : Option String)
  | bindError (e : ErrorExpr) (name : String)
  | sameError (a b : ErrorExpr)
  | bind (value : Expr) (name : String)
  | render (value : Expr)
  | renderOwner (owner : Option Expr)
  | newRecord (name text : String) (number : Int)
  | setRecord (name : String) (text : Option String) (number : Option Int)
  | poisonRecord (name : String)
  | lockRecord (name : String) (body : List Step)
  -- trackers
  | push (tracker : String) (owner : Option Expr) (method : String)
  | pop (tracker : String)
  | track (tracker name : String) (value : Expr)
  | isEmpty (place : Place)
  | depth (place : Place)
  | current (place : Place)
  | frames (place : Place)
  -- frames that are kept
  | hold (what : Holding) (name : String)
  | view (held : String)
  | inspect (held : String)
  | document (held : String)
  | get (held slot : String)
  | size (held : String)
  | ownerIs (held : String) (value : Expr)
  | next (held : String)
  | copyWalk (held name : String)
  -- cells
  | newCell (slot : String) (value : Expr) (name : String)
  | cellOf (held slot name : String)
  | readCell (cell : String)
  | writeCell (cell : String) (value : Expr)
  | replaceCell (cell : String) (value : Expr)
  | inspectCell (cell : String)
  | sameCell (a b : String)
  | castCell (cell : String) (kind : Kind)
  -- triggers
  | newErrorTrigger (tracker : String) (e : ErrorExpr) (name : String)
  | newTimeoutTrigger (tracker : String) (thresholdMs actualMs : UInt64) (name : String)
  | triggerInfo (trigger : String)
  | triggerCurrent (trigger : String)
  | triggerFrames (trigger : String)
  | triggerIsFor (trigger : String) (e : ErrorExpr)
  | writeTrigger (trigger : String) (serializer : Serializer)
  | sameTrigger (a b : String)

end

/-- The code of a scenario: steps, and a panic after them unless one is under way already. -/
structure Script where
  steps : List Step
  crash : Option String

end FaultSnapshot.Scenario
