import FaultSnapshot.Scenario.Look

/-!
# Performing steps

What each step does, given the way to run the steps inside it. `play` closes the circle: it runs
steps that are nested at most as deep as its first argument says.
-/

namespace FaultSnapshot.Scenario

/-- The parts of a scenario that never change. `location` is the place that panics name. -/
structure Stage where
  monitors : Monitors
  hooks : List (Monitor program)
  location : String

/-- How a step inside another one is run: where, and under which guard. -/
abbrev Runner := Site → Option (Guard program) → Step → Play Answer

/-- Runs a nested step and notes its answer. -/
def nest (run : Runner) (site : Site) (guard : Option (Guard program)) : Step → Play Unit
  | .mk label thread action => do
    noteNested label (← run site guard (.mk label thread action))

def runBody (run : Runner) (site : Site) (guard : Option (Guard program)) (body : List Step) : Play Unit :=
  body.forM (nest run site guard)

/-- Runs the code of a script. -/
def execute (run : Runner) : Exec program := fun site script => do
  runBody run site none script.steps
  match script.crash with
  | some message => discard (run site none (.mk "" none (.crash message)))
  | none => return ()

/-- The answer of something that may be refused. -/
def orFault : Except Fault Unit → Answer
  | .ok () => .done
  | .error f => .fault f

/-- The threshold of a limit, and the time that the body takes. -/
def Limit.times : Limit → Option UInt64 × UInt64
  | .unlimited => (none, 0)
  | .overrun => (some 0, 1)
  | .within => (some 600000, 0)

/-- Runs a body under a guard. -/
def guarded (exec : Exec program) (run : Runner) (site : Site) (m : Monitor program) (o : Option (Object Script))
    (method : String) (ps : List (String × Object Script)) (limit : Limit) (body : List Step) : Play Answer := do
  match ← Guard.enter m site o method ps with
  | .error f => return .fault f
  | .ok g => do
    let g := { g with thresholdMs := limit.times.1 }
    Panic.closingAfter (runBody run site (some g) body) (g.close exec site limit.times.2)
    return .closed

/-- What a traced body returns: an error, if its names are bound by then, or a result. -/
def bodyResult (fails : Option ErrorExpr) (result : String) : Play (Except ErrorRef String) := do
  match fails with
  | none => return .ok result
  | some e =>
    match ← error? e with
    | some e => return .error e
    | none => return .ok result

/-- Binds the error that a traced call returned. -/
def save (saved : Option String) (e : ErrorRef) : Play Unit :=
  match saved with
  | some name => assign .errors name e
  | none => return ()

def tracedAnswer (saved : Option String) : Traced String → Play Answer
  | .finished result => return .finished result
  | .refused e => do
    save saved e
    return .refused e.error
  | .failed e => do
    save saved e
    return .failed e.error

/-- Runs a body that may find another panic under way, and catches the panic that leaves it. -/
def caught (thread : Thread) (run : Play Unit) : Play Answer := do
  match ← Panic.catching thread run with
  | .ok () => return .ended
  | .error payload => return .panicked payload.message

/-- Takes the lock of a shared record and, after the body, gives it back. A panic out of the body
    poisons the record, unless one was under way before. -/
def holdingLock (thread : Thread) (i : Nat) (body : Play Unit) : Play Unit := do
  let before ← Panic.isUnwinding thread
  changeRecord i fun r => { r with locked := true }
  let unlock : Play Unit := do
    let poisons := !before && (← Panic.isUnwinding thread)
    changeRecord i fun r => { r with locked := false, poisoned := r.poisoned || poisons }
  Panic.closingAfter body unlock

/-- Runs a body while a shared record is locked. A lock that is held already stays with its holder,
    and the body runs all the same. -/
def whileLocked (thread : Thread) (name : String) (body : Play Unit) : Play Answer := do
  let (i, r) ← record name
  if r.locked then body else holdingLock thread i body
  return .ended

/-- The guard of the body that a step stands in. -/
def enclosing (guard : Option (Guard program)) : Play (Guard program) := known guard

/-- What a step does. -/
def perform (stage : Stage) (run : Runner) (site : Site) (guard : Option (Guard program)) (action : Action) :
    Play Answer := do
  let exec := execute run
  match action with
  | .enter t o method ps => do
    let o ← owner o
    let ps ← params ps
    return orFault (← (← monitor stage.monitors t).entering site o method ps)
  | .enterFlat t o method ps => do
    let o ← owner o
    let ps ← ps.mapM object
    return orFault (← (← monitor stage.monitors t).enteringFlat site o method ps)
  | .exit t => return orFault (← (← monitor stage.monitors t).exiting site)
  | .set t name value => do
    let value ← object value
    return orFault (← (← monitor stage.monitors t).valueChange site name value)
  | .returning t value => do
    let value ← object value
    return orFault (← (← monitor stage.monitors t).returning value)
  | .fail t method e => do
    let e ← error e
    return orFault (← (← monitor stage.monitors t).onError exec site method e)
  | .timeout t method threshold actual =>
    return orFault (← (← monitor stage.monitors t).timeout exec site method threshold actual)
  | .processing t => return .flag (← (← monitor stage.monitors t).isProcessing site.thread)
  | .guarded t o method ps limit body => do
    let o ← owner o
    let ps ← params ps
    guarded exec run site (← monitor stage.monitors t) o method ps limit body
  | .traced t o method ps body fails result saved => do
    let o ← owner o
    let ps ← params ps
    let ended ← FaultSnapshot.traced exec (← monitor stage.monitors t) site o method ps fun g => do
      runBody run site (some g) body
      bodyResult fails result
    tracedAnswer saved ended
  | .guardSet name value => do
    let value ← object value
    return orFault (← (← enclosing guard).track site name value)
  | .guardFail e => do
    let e ← error e
    return orFault (← (← enclosing guard).reportError exec site e)
  | .guardMethod => return .text (← enclosing guard).method
  | .panic payload => Panic.raise exec stage.hooks site payload stage.location
  | .crash message => do
    if ← Panic.isUnwinding site.thread then return .nothing
    Panic.raise exec stage.hooks site (.owned message) stage.location
  | .catching body => caught site.thread (runBody run site guard body)
  | .setClock time => do
    modify fun w => { w with clocks := { w.clocks with manual := time } }
    return .count time.toNat
  | .advanceClock step => do
    modify fun w => { w with clocks := { w.clocks with manual := w.clocks.manual + step } }
    return .count (← get).clocks.manual.toNat
  | .askThrottle throttle => return .flag (← Run.ask (throttle.map .named))
  | .bindError e name => do
    let e ← error e
    assign .errors name e
    return .described e.error.text e.error.cause?
  | .sameError a b => return .flag ((← error a).same (← error b))
  | .bind value name => do
    let o ← object value
    let shown ← o.render exec site
    assign .objects name o
    return .text shown
  | .render value => return .text (← (← object value).render exec site)
  | .renderOwner o => do
    match ← owner o with
    | some o => return .text (← o.render exec site)
    | none => return .text noOwner
  | .newRecord name text number => do
    assign .records name (← Run.readMemory (·.records.size))
    discard (Run.memory (·.newRecord text number))
    return .done
  | .setRecord name text number => setRecord name text number
  | .poisonRecord name => do
    changeRecord (← record name).1 fun r => { r with poisoned := true }
    return .flag true
  | .lockRecord name body => whileLocked site.thread name (runBody run site guard body)
  | .push name o method => do
    let id ← tracker name
    let o ← owner o
    attempt (·.openFrame (id, site.thread) o method)
  | .pop name => do
    let id ← tracker name
    attempt (·.closeFrame (id, site.thread))
  | .track t name value => do
    let id ← tracker t
    let value ← object value
    attempt (·.track (id, site.thread) name value)
  | .isEmpty p => do
    let id ← place stage.monitors p
    return .flag (← Run.readMemory (·.isEmpty (id, site.thread)))
  | .depth p => do
    let id ← place stage.monitors p
    return .count (← Run.readMemory (·.depth (id, site.thread)))
  | .current p => do
    let id ← place stage.monitors p
    match ← Run.readMemory (·.current? (id, site.thread)) with
    | some v => return .frame (← v.document exec site)
    | none => return .nothing
  | .frames p => do
    let id ← place stage.monitors p
    return .frames (← (← Run.readMemory (·.views (id, site.thread))).mapM (View.document exec site))
  | .hold what name => hold stage.monitors site.thread what name
  | .view held => return .frames (← eachHeld held (View.document exec site))
  | .inspect held => return .texts (← eachHeld held fun v => return some (← v.inspect exec site))
  | .document held =>
    return .texts (← eachHeld held fun v => return some (← v.document exec site).toJson.compactText)
  | .get held slot => return .texts (← eachHeld held (slotOf exec site slot))
  | .size held => return .sizes (← eachHeld held fun v => return (v.vars.size, v.vars.isEmpty))
  | .ownerIs held value => do
    let o ← object value
    return .flags (← eachHeld held fun v => return v.owner.any (·.identity == o.identity))
  | .next held => next exec site held
  | .copyWalk held name => do
    assign .views name (← find .views held)
    return .held
  | .newCell slot value name => do
    let value ← object value
    assign .cells name (← Run.memory (·.newCell slot value))
    return .held
  | .cellOf held slot name => cellOf held slot name
  | .readCell cell => do
    let cell ← find .cells cell
    return .pair (← cellName cell) (← renderCell exec site cell)
  | .writeCell cell value => do
    let cell ← find .cells cell
    let value ← object value
    Run.memory fun m => ((), m.write cell value)
    return .text (← renderCell exec site cell)
  | .replaceCell cell value => do
    let cell ← find .cells cell
    let value ← object value
    let old := (← known (← Run.readMemory (·.cells[cell]?))).content
    Run.memory fun m => ((), m.write cell value)
    return .pair (← old.render exec site) (← renderCell exec site cell)
  | .inspectCell cell => do
    let cell ← find .cells cell
    return .text (← CellId.inspect exec site (← cellName cell) cell)
  | .sameCell a b => return .flag ((← find .cells a) == (← find .cells b))
  | .castCell cell kind => do
    let cell ← find .cells cell
    cast exec site cell kind
  | .newErrorTrigger t e name => do
    let id ← tracker t
    let e ← error e
    assign .triggers name (← Run.newTrigger id (.error e))
    return .held
  | .newTimeoutTrigger t threshold actual name => do
    let id ← tracker t
    assign .triggers name (← Run.newTrigger id (.timeout threshold actual))
    return .held
  | .triggerInfo name => return .trigger (← find .triggers name)
  | .triggerCurrent name => do
    match ← (← find .triggers name).current? site.thread with
    | some v => return .frame (← v.document exec site)
    | none => return .nothing
  | .triggerFrames name => do
    let views ← (← find .triggers name).views site.thread
    return .frames (← views.mapM (View.document exec site))
  | .triggerIsFor name e => return .flag ((← find .triggers name).isFor (← error e))
  | .writeTrigger name serializer => return .report (← serializer.write exec site (← find .triggers name))
  | .sameTrigger a b => return .flag ((← find .triggers a).stamp.id = (← find .triggers b).stamp.id)

/-- Runs a step where it is to run: on its own thread, unless that thread waits for this one. A
    panic on another thread is caught there. -/
def route (stage : Stage) (run : Runner) : Runner := fun site guard step =>
  match step with
  | .mk _ none action => perform stage run site guard action
  | .mk _ (some thread) action =>
    if thread = site.thread then perform stage run site guard action
    else if thread ∈ site.waiting then return .busy thread
    else do
      let there : Site := ⟨thread, site.thread :: site.waiting⟩
      match ← Panic.catching thread (perform stage run there none action) with
      | .ok answer => return answer
      | .error payload => return .panicked payload.message

/-- Runs a step in which steps are nested less than `depth` deep. -/
def play (stage : Stage) : Nat → Runner
  | 0 => fun _ _ _ => throw .exhausted
  | depth + 1 => route stage (play stage depth)

end FaultSnapshot.Scenario
