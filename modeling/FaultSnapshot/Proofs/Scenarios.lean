import FaultSnapshot.Proofs.Processing
import FaultSnapshot.Scenario.Session

/-!
# Scenarios as code

Whatever the steps of a scenario do, however deep they are nested, they do no more than code may do
(`Scenario.conduct_play`).
-/

namespace FaultSnapshot

variable {P : Program} {α β γ : Type} {crew : List String} {mine : Thread → Prop}

namespace Conduct

theorem pure (a : α) : Conduct crew mine (Pure.pure a : Run P α) := .done a

theorem get : Conduct crew mine (MonadState.get : Run P (World P)) := .act .id (fun _ made => made) fun w => .done w

theorem modifyGet {f : World P → α × World P} (quiet : Quiet fun w => (f w).2)
    (memory : ∀ w, (f w).2.memory = w.memory) : Conduct crew mine (MonadStateOf.modifyGet f : Run P α) :=
  .act quiet (.of_memory memory) fun w => .done (f w).1

theorem modify {change : World P → World P} (quiet : Quiet change) (memory : ∀ w, (change w).memory = w.memory) :
    Conduct crew mine (modify change : Run P Unit) := .act quiet (.of_memory memory) fun _ => .done ()

theorem memory {f : Memory P.Code → α × Memory P.Code} (lawful : ∀ m : Memory P.Code, m.Made → (f m).2.Made) :
    Conduct crew mine (Run.memory f : Run P α) :=
  .act (fun _ _ => rfl) (fun w => lawful w.memory) fun w => .done (f w.memory).1

theorem readMemory {f : Memory P.Code → α} : Conduct crew mine (Run.readMemory f : Run P α) :=
  .bind get fun _ => .pure _

theorem log {level : Level} {origin : Origin} {fields : List (String × String)} {message : String} :
    Conduct crew mine (Run.log level origin fields message : Run P Unit) :=
  modify (quiet_note rfl) fun _ => rfl

theorem newError {e : AppError} : Conduct crew mine (Run.newError e : Run P ErrorRef) :=
  modifyGet (fun _ _ => rfl) fun _ => rfl

theorem newTrigger {tracker : TrackerId} {cause : Cause} :
    Conduct crew mine (Run.newTrigger tracker cause : Run P Trigger) := modifyGet (fun _ _ => rfl) fun _ => rfl

theorem ask {throttle : Option ThrottleId} : Conduct crew mine (Run.ask throttle : Run P Bool) :=
  modifyGet (fun _ _ => World.desk_ask) fun _ => by cases throttle <;> rfl

theorem mapM {f : γ → Run P α} {items : List γ} (each : ∀ item ∈ items, Conduct crew mine (f item)) :
    Conduct crew mine (items.mapM f) := by
  induction items with
  | nil =>
    rw [List.mapM_nil]
    exact pure []
  | cons item items ih =>
    rw [List.mapM_cons]
    have rest := ih fun item member => each item (List.mem_cons_of_mem _ member)
    exact bind (each item List.mem_cons_self) fun a => bind rest fun as => pure (a :: as)

theorem forM {f : γ → Run P PUnit} {items : List γ} (each : ∀ item ∈ items, Conduct crew mine (f item)) :
    Conduct crew mine (items.forM f) := by
  induction items with
  | nil => exact pure ()
  | cons item items ih =>
    have rest := ih fun item member => each item (List.mem_cons_of_mem _ member)
    exact bind (each item List.mem_cons_self) fun _ => rest

theorem forIn {f : γ → β → Run P (ForInStep β)} {items : List γ} {b : β}
    (each : ∀ item b, Conduct crew mine (f item b)) : Conduct crew mine (ForIn.forIn items b f) := by
  induction items generalizing b with
  | nil => exact pure b
  | cons item items ih =>
    rw [List.forIn_cons]
    refine bind (each item b) ?_
    intro next
    cases next with
    | done b => exact pure b
    | yield b => exact ih

theorem foldlM {f : β → γ → Run P β} {items : List γ} {b : β} (each : ∀ b item, Conduct crew mine (f b item)) :
    Conduct crew mine (items.foldlM f b) := by
  induction items generalizing b with
  | nil => exact pure b
  | cons item items ih =>
    rw [List.foldlM_cons]
    exact bind (each b item) fun _ => ih

theorem filterM {f : γ → Run P Bool} {items : List γ} (each : ∀ item, Conduct crew mine (f item)) :
    Conduct crew mine (items.filterM f) := by
  have aux : ∀ kept, Conduct crew mine (items.filterAuxM f kept) := by
    induction items with
    | nil =>
      intro kept
      exact pure kept
    | cons item items ih =>
      intro kept
      exact bind (each item) fun _ => ih _
  exact bind (aux []) fun _ => pure _

/-- Only panics are handled. -/
theorem catch_panic {m : Run P α} {handle : PanicPayload → Run P α} (first : Conduct crew mine m)
    (handled : ∀ payload, Conduct crew mine (handle payload)) :
    Conduct crew mine (tryCatch m fun
      | .panic payload => handle payload
      | other => throw other) := by
  refine .rescue first ?_
  intro e
  cases e with
  | panic payload => exact handled payload
  | abort => exact .stop .abort
  | exhausted => exact .stop .exhausted

end Conduct

open Classical in
theorem Conduct.bind_yields {m : Run P α} {k : α → Run P β} {holds : α → Prop} (first : Conduct crew mine m)
    (yields : m.Yields holds) (rest : ∀ a, holds a → Conduct crew mine (k a)) : Conduct crew mine (m >>= k) := by
  rw [yields.bind_congr fun a given => (if_pos given : (if holds a then k a else .stop .abort) = k a).symm]
  refine .bind first ?_
  intro a
  split
  · exact rest a ‹holds a›
  · exact .stop .abort

theorem Hosts.conduct_alone {m : Run P α} (hosts : Hosts True (fun _ => False) fun _ : Exec P => m) :
    Conduct crew mine m := by
  let idle : Exec P := fun _ _ => .done ()
  have code : ∀ site c, False → Conduct crew mine (idle site c) := fun _ _ => False.elim
  exact hosts.conduct code

theorem Hosts.conduct_code {f : Exec P → Run P α} {exec : Exec P} (hosts : Hosts True (mine ·.thread) f)
    (code : ConductCode crew mine exec) : Conduct crew mine (f exec) := hosts.conduct code

/-! ## Monitors, panics and guards -/

/-- The tracer of the monitor, if it has one, belongs to the crew. -/
def Monitor.Enlisted (crew : List String) : Monitor P → Prop
  | .silent => True
  | .active t => t.name ∈ crew

section
variable {exec : Exec P} {site : Site}

namespace Monitor

variable {m : Monitor P}

theorem conduct_entering {owner : Option (Object P.Code)} {method : String} {params : List (String × Object P.Code)} :
    Conduct crew mine (m.entering site owner method params) := by
  cases m with
  | silent => exact .pure _
  | active t => exact Tracer.hosts_entering.conduct_alone

theorem conduct_enteringFlat {owner : Option (Object P.Code)} {method : String} {params : List (Object P.Code)} :
    Conduct crew mine (m.enteringFlat site owner method params) := by
  cases m with
  | silent => exact .pure _
  | active t => exact Tracer.hosts_enteringFlat.conduct_alone

theorem conduct_exiting : Conduct crew mine (m.exiting site) := by
  cases m with
  | silent => exact .pure _
  | active t => exact Tracer.hosts_exiting.conduct_alone

theorem conduct_valueChange {name : String} {value : Object P.Code} :
    Conduct crew mine (m.valueChange site name value) := by
  cases m with
  | silent => exact .pure _
  | active t => exact Tracer.hosts_valueChange.conduct_alone

theorem conduct_isProcessing {thread : Thread} : Conduct crew mine (m.isProcessing thread) := by
  cases m with
  | silent => exact .pure _
  | active t => exact Tracer.hosts_isProcessing.conduct_alone

theorem conduct_onError {method : String} {e : ErrorRef} (enlisted : m.Enlisted crew) (on : mine site.thread)
    (code : ConductCode crew mine exec) : Conduct crew mine (m.onError exec site method e) := by
  cases m with
  | silent => exact .pure _
  | active t => exact .onError enlisted on code

theorem conduct_timeout {method : String} {thresholdMs actualMs : UInt64} (enlisted : m.Enlisted crew)
    (on : mine site.thread) (code : ConductCode crew mine exec) :
    Conduct crew mine (m.timeout exec site method thresholdMs actualMs) := by
  cases m with
  | silent => exact .pure _
  | active t => exact .timeout enlisted on code

end Monitor

namespace Panic

theorem conduct_setUnwinding {thread : Thread} {f : Unwinding → Unwinding} :
    Conduct crew mine (setUnwinding thread f : Run P Unit) := .modify (fun _ _ => rfl) fun _ => rfl

theorem conduct_isUnwinding {thread : Thread} : Conduct crew mine (isUnwinding thread : Run P Bool) :=
  .bind .get fun _ => .pure _

theorem conduct_raise {hooks : List (Monitor P)} {payload : PanicPayload} {location : Option String}
    (enlisted : ∀ m ∈ hooks, m.Enlisted crew) (on : mine site.thread) (code : ConductCode crew mine exec) :
    Conduct crew mine (raise exec hooks site payload location : Run P α) := by
  have report : ∀ e, ∀ m ∈ hooks.reverse, Conduct crew mine (report exec site e m) := by
    intro e m member
    refine .bind .newError fun e => .bind (Monitor.conduct_onError (enlisted m (List.mem_reverse.mp member)) on code) ?_
    rintro (f | ok)
    · exact .log
    · exact .pure ()
  refine .bind .get ?_
  intro w
  split
  · exact .stop .abort
  · refine .bind conduct_setUnwinding fun _ => .bind ?_ fun _ => .bind conduct_setUnwinding fun _ => .stop _
    exact .bind (.forM (report _)) fun _ => .modify (fun _ _ => rfl) fun _ => rfl

theorem conduct_catching {thread : Thread} {m : Run P α} (conduct : Conduct crew mine m) :
    Conduct crew mine (catching thread m) :=
  .catch_panic (.bind conduct fun _ => .pure _) fun _ => .bind conduct_setUnwinding fun _ => .pure _

theorem conduct_closingAfter {m : Run P α} {close : Run P Unit} (conduct : Conduct crew mine m)
    (closes : Conduct crew mine close) : Conduct crew mine (closingAfter m close) := by
  refine .bind (.catch_panic conduct fun payload => ?_) fun a => .bind closes fun _ => .pure a
  exact .bind (.catch_panic closes fun _ => .stop .abort) fun _ => .stop _

end Panic

namespace Guard

variable {g : Guard P}

/-- A guard has the monitor that it was made for. -/
theorem conduct_enter {m : Monitor P} {owner : Option (Object P.Code)} {method : String}
    {params : List (String × Object P.Code)} {k : Except Fault (Guard P) → Run P β}
    (refused : ∀ f, Conduct crew mine (k (.error f))) (entered : Conduct crew mine (k (.ok ⟨m, method, none⟩))) :
    Conduct crew mine (enter m site owner method params >>= k) := by
  rw [enter, bind_assoc]
  refine .bind Monitor.conduct_entering ?_
  intro r
  cases r with
  | ok => exact entered
  | error f => exact refused f

theorem conduct_logFailure {method message : String} {r : Except Fault Unit} :
    Conduct crew mine (logFailure method message r : Run P Unit) := by
  cases r with
  | ok => exact .pure ()
  | error f => exact .log

theorem conduct_reportError {e : ErrorRef} (enlisted : g.monitor.Enlisted crew) (on : mine site.thread)
    (code : ConductCode crew mine exec) : Conduct crew mine (g.reportError exec site e) :=
  Monitor.conduct_onError enlisted on code

theorem conduct_close {elapsedMs : UInt64} (enlisted : g.monitor.Enlisted crew) (on : mine site.thread)
    (code : ConductCode crew mine exec) : Conduct crew mine (g.close exec site elapsedMs) := by
  refine .bind ?_ fun _ => .bind Monitor.conduct_exiting fun _ => conduct_logFailure
  unfold reportTimeout
  split
  · exact .pure ()
  · split
    · exact .bind (Monitor.conduct_timeout enlisted on code) fun _ => conduct_logFailure
    · exact .pure ()

end Guard

theorem conduct_traced {m : Monitor P} {owner : Option (Object P.Code)} {method : String}
    {params : List (String × Object P.Code)} {body : Guard P → Run P (Except ErrorRef α)}
    (enlisted : m.Enlisted crew) (on : mine site.thread) (code : ConductCode crew mine exec)
    (conduct : Conduct crew mine (body ⟨m, method, none⟩)) :
    Conduct crew mine (traced exec m site owner method params body) := by
  refine Guard.conduct_enter (fun f => .bind .newError fun _ => .pure _) ?_
  refine Panic.conduct_closingAfter (.bind conduct fun r => ?_) (Guard.conduct_close enlisted on code)
  cases r with
  | ok result => exact .pure _
  | error e =>
    exact .bind (Guard.conduct_reportError enlisted on code) fun _ =>
      .bind Guard.conduct_logFailure fun _ => .pure _

end

/-! ## Names, objects and errors -/

namespace Scenario

theorem conduct_known {o : Option α} {k : α → Play β} (rest : ∀ a, o = some a → Conduct crew mine (k a)) :
    Conduct crew mine (known o >>= k) := by
  cases o with
  | none => exact .stop .abort
  | some a => exact rest a rfl

theorem conduct_find? {names : Names α} {name : String} : Conduct crew mine (find? names name) :=
  .bind .get fun _ => .pure _

theorem conduct_find {names : Names α} {name : String} : Conduct crew mine (find names name) := by
  refine .bind conduct_find? ?_
  intro o
  cases o with
  | none => exact .stop .abort
  | some a => exact .done a

theorem conduct_assign {names : Names α} {name : String} {a : α} : Conduct crew mine (assign names name a) :=
  .modify (fun _ _ => rfl) fun _ => rfl

theorem conduct_tracker {name : String} : Conduct crew mine (tracker name) := by
  refine .bind (.modify (fun w thread => ?_) fun w => ?_) fun _ => .pure _
  · split <;> rfl
  · split <;> rfl

theorem conduct_object (e : Expr) : Conduct crew mine (object e) := by
  unfold object
  cases e with
  | text s => exact .memory fun _ made => made.newObject _
  | literal s => exact .memory fun _ made => made.newObject _
  | data kind d => exact .memory fun _ made => made.newObject _
  | hooked steps shown => exact .memory fun _ made => made.newObject _
  | bound name => exact conduct_find
  | sharedRecord name =>
    exact .bind conduct_find fun i => .bind .readMemory fun r => conduct_known fun r _ => .pure _

theorem conduct_owner (o : Option Expr) : Conduct crew mine (owner o) := by
  cases o with
  | none => exact .pure none
  | some e => exact .bind (conduct_object e) fun _ => .pure _

theorem conduct_params (es : List (String × Expr)) : Conduct crew mine (params es) :=
  .mapM fun e _ => .bind (conduct_object e.2) fun _ => .pure _

theorem conduct_appError? (e : ErrorExpr) : Conduct crew mine (appError? e) := by
  induction e with
  | bound name => exact .bind conduct_find? fun _ => .pure _
  | plain text => exact .pure _
  | wrapping inner ih => exact .bind ih fun _ => .pure _
  | panicked p => exact .pure _
  | fault f => exact .pure _

theorem conduct_error? (e : ErrorExpr) : Conduct crew mine (error? e) := by
  unfold error?
  split
  · exact conduct_find?
  · refine .bind (conduct_appError? _) ?_
    intro o
    cases o with
    | none => exact .pure none
    | some a => exact .bind .newError fun _ => .pure _

theorem conduct_error (e : ErrorExpr) : Conduct crew mine (error e) := by
  refine .bind (conduct_error? e) ?_
  intro o
  cases o with
  | none => exact .stop .abort
  | some a => exact .done a

/-! ## Looks -/

/-- The monitors belong to the crew. -/
def Enlisting (crew : List String) (monitors : Monitors) : Prop := ∀ e ∈ monitors, e.2.Enlisted crew

section
variable {monitors : Monitors} {exec : Exec program} {site : Site}

theorem conduct_lookup {name : String} : Conduct crew mine (monitor monitors name) := by
  unfold monitor
  cases monitors.lookup name with
  | none => exact .stop .abort
  | some m => exact .done m

theorem yields_monitor {name : String} (enlisting : Enlisting crew monitors) :
    (monitor monitors name).Yields (·.Enlisted crew) := by
  unfold monitor
  cases found : monitors.lookup name with
  | none => exact trivial
  | some m =>
    obtain ⟨before, after, rfl, _⟩ := List.lookup_eq_some_iff.mp found
    exact enlisting (name, m) (List.mem_append_right _ List.mem_cons_self)

theorem conduct_monitor {name : String} {k : Monitor program → Play β} (enlisting : Enlisting crew monitors)
    (rest : ∀ m, m.Enlisted crew → Conduct crew mine (k m)) : Conduct crew mine (monitor monitors name >>= k) :=
  .bind_yields conduct_lookup (yields_monitor enlisting) rest

theorem conduct_place (p : Place) : Conduct crew mine (place monitors p) := by
  cases p with
  | tracker name => exact conduct_tracker
  | tracer name =>
    refine conduct_known ?_
    intro m _
    cases m with
    | silent => exact .stop .abort
    | active t => exact .pure _

theorem conduct_attempt {f : Memory Script → Except Fault Unit × Memory Script}
    (lawful : ∀ m : Memory Script, m.Made → (f m).2.Made) : Conduct crew mine (attempt f) := by
  refine .bind (.memory lawful) ?_
  intro r
  cases r with
  | ok => exact .pure _
  | error e => exact .pure _

theorem conduct_eachHeld {held : String} {f : View Script → Play α} (each : ∀ v, Conduct crew mine (f v)) :
    Conduct crew mine (eachHeld held f) :=
  .bind conduct_find fun _ => .mapM fun v _ => each v

theorem conduct_hold {thread : Thread} {name : String} (what : Holding) :
    Conduct crew mine (hold monitors thread what name) := by
  have holds : Conduct crew mine (holding monitors thread what) := by
    cases what with
    | current p => exact .bind (conduct_place p) fun _ => .bind .readMemory fun _ => .pure _
    | all p => exact .bind (conduct_place p) fun _ => .bind .readMemory fun _ => .pure _
    | walk p => exact .bind (conduct_place p) fun _ => .bind .readMemory fun _ => .pure _
    | emptyWalk => exact .pure _
    | made o method vars =>
      refine .bind (.bind (conduct_owner o) fun o => .bind (conduct_params vars) fun ps => ?_) fun _ => .pure _
      exact .bind (.mapM fun p _ => .bind (.memory fun _ made => made.newCell _ _) fun _ => .pure _) fun _ => .pure _
  refine .bind holds ?_
  intro views
  cases views with
  | none => exact .pure _
  | some views => exact .bind conduct_assign fun _ => .pure _

theorem conduct_cellOf {held slot name : String} : Conduct crew mine (cellOf held slot name) := by
  refine .bind conduct_find ?_
  intro views
  split
  · exact .bind conduct_assign fun _ => .pure _
  · exact .pure _

theorem conduct_cellName {cell : CellId} : Conduct crew mine (cellName cell) :=
  .bind .readMemory fun _ => conduct_known fun _ _ => .pure _

theorem conduct_record {name : String} : Conduct crew mine (record name) :=
  .bind conduct_find fun _ => .bind .readMemory fun _ => conduct_known fun _ _ => .pure _

theorem conduct_changeRecord {i : Nat} {f : SharedRecord → SharedRecord} : Conduct crew mine (changeRecord i f) :=
  .memory fun _ made => made.modifyRecord i f

theorem conduct_setRecord {name : String} {text : Option String} {number : Option Int} :
    Conduct crew mine (setRecord name text number) := by
  refine .bind conduct_record ?_
  rintro ⟨i, r⟩
  show Conduct crew mine (if r.locked then _ else _)
  split
  · exact .pure _
  · exact .bind conduct_changeRecord fun _ => .pure _

variable (on : mine site.thread) (code : ConductCode crew mine exec)
include on code

theorem conduct_render (o : Object Script) : Conduct crew mine (o.render exec site) :=
  (o.hosts_render on).conduct_code code

theorem conduct_inspect (o : Object Script) : Conduct crew mine (o.inspect exec site) :=
  (o.hosts_inspect on).conduct_code code

theorem conduct_document (v : View Script) : Conduct crew mine (v.document exec site) :=
  (v.hosts_document on).conduct_code code

theorem conduct_renderCell (cell : CellId) : Conduct crew mine (renderCell exec site cell) :=
  (CellId.hosts_present (Object.hosts_render on)).conduct_code code

theorem conduct_inspectCell (name : String) (cell : CellId) : Conduct crew mine (CellId.inspect exec site name cell) :=
  .bind ((CellId.hosts_present (Object.hosts_inspect on)).conduct_code code) fun _ => .pure _

theorem conduct_inspectView (v : View Script) : Conduct crew mine (v.inspect exec site) := by
  have inspectOwner : Conduct crew mine (v.inspectOwner exec site) := by
    unfold View.inspectOwner
    split
    · exact .bind (conduct_inspect on code _) fun _ => .pure _
    · exact .pure _
  refine .bind inspectOwner fun _ => .bind (.bind ?_ fun _ => .pure _) fun _ => .pure _
  exact .mapM fun e _ => .bind (conduct_inspectCell on code e.1 e.2) fun _ => .pure _

theorem conduct_slotOf (slot : String) (v : View Script) : Conduct crew mine (slotOf exec site slot v) := by
  unfold slotOf
  split
  · exact .bind (conduct_renderCell on code _) fun _ => .pure _
  · exact .pure _

theorem conduct_next (held : String) : Conduct crew mine (next exec site held) := by
  refine .bind conduct_find ?_
  intro views
  cases views with
  | nil => exact .pure _
  | cons v rest => exact .bind conduct_assign fun _ => .bind (conduct_document on code v) fun _ => .pure _

theorem conduct_cast (cell : CellId) (kind : Kind) : Conduct crew mine (cast exec site cell kind) := by
  refine .bind .readMemory fun content => conduct_known fun c _ => ?_
  show Conduct crew mine (if c.content.payload.kind = kind then _ else _)
  split
  · exact .bind (conduct_inspect on code c.content) fun _ => .pure _
  · exact .pure _

end

/-! ## Steps -/

/-- The monitors and the panic hooks belong to the crew. -/
structure Stage.Enlists (crew : List String) (stage : Stage) : Prop where
  monitors : Enlisting crew stage.monitors
  hooks : ∀ m ∈ stage.hooks, m.Enlisted crew

/-- The monitor of the guard, if there is one, belongs to the crew. -/
def Guarded (crew : List String) (guard : Option (Guard program)) : Prop :=
  ∀ g, guard = some g → g.monitor.Enlisted crew

theorem Guarded.none : Guarded crew none := fun _ same => nomatch same

theorem Guarded.some {g : Guard program} (enlisted : g.monitor.Enlisted crew) : Guarded crew (some g) := by
  rintro _ ⟨⟩
  exact enlisted

/-- Steps inside other steps do what code may do. -/
def Runs (crew : List String) (mine : Thread → Prop) (run : Runner) : Prop :=
  ∀ site guard step, Guarded crew guard → Conduct crew mine (run site guard step)

section
variable {stage : Stage} {run : Runner} {site : Site} {guard : Option (Guard program)} (runs : Runs crew mine run)
include runs

theorem conduct_runBody (guarded : Guarded crew guard) (body : List Step) :
    Conduct crew mine (runBody run site guard body) := by
  refine .forM ?_
  intro step _
  obtain ⟨label, thread, action⟩ := step
  exact .bind (runs site guard _ guarded) fun _ => .modify (fun _ _ => rfl) fun _ => rfl

theorem conduct_execute : ConductCode crew mine (execute run) := by
  intro site script _
  refine .bind (conduct_runBody runs .none script.steps) ?_
  intro _
  split
  · exact .bind (runs site none _ .none) fun _ => .pure _
  · exact .pure ()

theorem conduct_guarded {m : Monitor program} {owner : Option (Object Script)} {method : String}
    {params : List (String × Object Script)} {limit : Limit} {body : List Step} (enlisted : m.Enlisted crew)
    (on : mine site.thread) :
    Conduct crew mine (guarded (execute run) run site m owner method params limit body) := by
  refine Guard.conduct_enter (fun f => .pure _) (.bind ?_ fun _ => .pure _)
  have closes : Conduct crew mine
      (Guard.close (execute run) ⟨m, method, limit.times.1⟩ site limit.times.2) :=
    Guard.conduct_close enlisted on (conduct_execute runs)
  exact Panic.conduct_closingAfter (conduct_runBody runs (.some enlisted) body) closes

theorem conduct_whileLocked {thread : Thread} {name : String} (guarded : Guarded crew guard) (body : List Step) :
    Conduct crew mine (whileLocked thread name (runBody run site guard body)) := by
  have conduct : Conduct crew mine (runBody run site guard body) := conduct_runBody runs guarded body
  refine .bind conduct_record ?_
  rintro ⟨i, r⟩
  show Conduct crew mine (if r.locked then _ else _)
  split
  · exact .bind conduct fun _ => .pure _
  · refine .bind (.bind Panic.conduct_isUnwinding fun _ => .bind conduct_changeRecord fun _ => ?_)
      fun _ => .pure _
    exact Panic.conduct_closingAfter conduct (.bind Panic.conduct_isUnwinding fun _ => conduct_changeRecord)

theorem conduct_caught {thread : Thread} (guarded : Guarded crew guard) (body : List Step) :
    Conduct crew mine (caught thread (runBody run site guard body)) := by
  refine .bind (Panic.conduct_catching (conduct_runBody runs guarded body)) ?_
  intro r
  cases r with
  | ok => exact .pure _
  | error payload => exact .pure _

omit runs in
theorem conduct_save {saved : Option String} {e : ErrorRef} : Conduct crew mine (save saved e) := by
  cases saved with
  | none => exact .pure ()
  | some name => exact conduct_assign

omit runs in
theorem conduct_bodyResult {result : String} (fails : Option ErrorExpr) :
    Conduct crew mine (bodyResult fails result) := by
  cases fails with
  | none => exact .pure _
  | some e =>
    refine .bind (conduct_error? e) ?_
    intro o
    cases o with
    | none => exact .pure _
    | some e => exact .pure _

omit runs in
theorem conduct_tracedAnswer {saved : Option String} (ended : Traced String) :
    Conduct crew mine (tracedAnswer saved ended) := by
  cases ended with
  | finished result => exact .pure _
  | refused e => exact .bind conduct_save fun _ => .pure _
  | failed e => exact .bind conduct_save fun _ => .pure _

theorem conduct_perform (enlists : stage.Enlists crew) (guarded : Guarded crew guard) (on : mine site.thread)
    (action : Action) : Conduct crew mine (perform stage run site guard action) := by
  have code := conduct_execute runs
  have monitors := enlists.monitors
  unfold perform
  cases action with
  | enter t o method ps =>
    exact .bind (conduct_owner o) fun _ => .bind (conduct_params ps) fun _ => conduct_monitor monitors fun _ _ =>
      .bind Monitor.conduct_entering fun _ => .pure _
  | enterFlat t o method ps =>
    exact .bind (conduct_owner o) fun _ => .bind (.mapM fun e _ => conduct_object e) fun _ =>
      conduct_monitor monitors fun _ _ => .bind Monitor.conduct_enteringFlat fun _ => .pure _
  | exit t => exact conduct_monitor monitors fun _ _ => .bind Monitor.conduct_exiting fun _ => .pure _
  | set t name value =>
    exact .bind (conduct_object value) fun _ => conduct_monitor monitors fun _ _ =>
      .bind Monitor.conduct_valueChange fun _ => .pure _
  | returning t value =>
    exact .bind (conduct_object value) fun _ => conduct_monitor monitors fun _ _ => .bind (.pure _) fun _ => .pure _
  | fail t method e =>
    exact .bind (conduct_error e) fun _ => conduct_monitor monitors fun _ enlisted =>
      .bind (Monitor.conduct_onError enlisted on code) fun _ => .pure _
  | timeout t method threshold actual =>
    exact conduct_monitor monitors fun _ enlisted => .bind (Monitor.conduct_timeout enlisted on code) fun _ => .pure _
  | processing t => exact conduct_monitor monitors fun _ _ => .bind Monitor.conduct_isProcessing fun _ => .pure _
  | guarded t o method ps limit body =>
    exact .bind (conduct_owner o) fun _ => .bind (conduct_params ps) fun _ => conduct_monitor monitors fun _ enlisted =>
      conduct_guarded runs enlisted on
  | traced t o method ps body fails result saved =>
    refine .bind (conduct_owner o) fun _ => .bind (conduct_params ps) ?_
    intro _
    refine conduct_monitor monitors fun _ enlisted => .bind (conduct_traced enlisted on code ?_) conduct_tracedAnswer
    exact .bind (conduct_runBody runs (.some enlisted) body) fun _ => conduct_bodyResult fails
  | guardSet name value =>
    exact .bind (conduct_object value) fun _ => conduct_known fun _ _ =>
      .bind Monitor.conduct_valueChange fun _ => .pure _
  | guardFail e =>
    exact .bind (conduct_error e) fun _ => conduct_known fun g same =>
      .bind (Guard.conduct_reportError (guarded g same) on code) fun _ => .pure _
  | guardMethod => exact conduct_known fun _ _ => .pure _
  | panic payload => exact Panic.conduct_raise enlists.hooks on code
  | crash message =>
    refine .bind Panic.conduct_isUnwinding ?_
    intro _
    split
    · exact .pure _
    · exact Panic.conduct_raise enlists.hooks on code
  | catching body => exact conduct_caught runs guarded body
  | setClock time => exact .bind (.modify (fun _ _ => rfl) fun _ => rfl) fun _ => .pure _
  | advanceClock step => exact .bind (.modify (fun _ _ => rfl) fun _ => rfl) fun _ => .bind .get fun _ => .pure _
  | askThrottle throttle => exact .bind .ask fun _ => .pure _
  | bindError e name => exact .bind (conduct_error e) fun _ => .bind conduct_assign fun _ => .pure _
  | sameError a b => exact .bind (conduct_error a) fun _ => .bind (conduct_error b) fun _ => .pure _
  | bind value name =>
    exact .bind (conduct_object value) fun o => .bind (conduct_render on code o) fun _ =>
      .bind conduct_assign fun _ => .pure _
  | render value => exact .bind (conduct_object value) fun o => .bind (conduct_render on code o) fun _ => .pure _
  | renderOwner o =>
    refine .bind (conduct_owner o) ?_
    intro o
    cases o with
    | none => exact .pure _
    | some o => exact .bind (conduct_render on code o) fun _ => .pure _
  | newRecord name text number =>
    exact .bind .readMemory fun _ => .bind conduct_assign fun _ =>
      .bind (.bind (.memory fun _ made => made.newRecord _ _) fun _ => .pure _) fun _ => .pure _
  | setRecord name text number => exact conduct_setRecord
  | poisonRecord name => exact .bind conduct_record fun _ => .bind conduct_changeRecord fun _ => .pure _
  | lockRecord name body => exact conduct_whileLocked runs guarded body
  | push name o method =>
    exact .bind conduct_tracker fun _ => .bind (conduct_owner o) fun _ =>
      conduct_attempt fun _ made => made.openFrame _ _ _
  | pop name => exact .bind conduct_tracker fun _ => conduct_attempt fun _ made => made.closeFrame _
  | track t name value =>
    exact .bind conduct_tracker fun _ => .bind (conduct_object value) fun _ =>
      conduct_attempt fun _ made => made.track _ _ _
  | isEmpty p => exact .bind (conduct_place p) fun _ => .bind .readMemory fun _ => .pure _
  | depth p => exact .bind (conduct_place p) fun _ => .bind .readMemory fun _ => .pure _
  | current p =>
    refine .bind (conduct_place p) fun _ => .bind .readMemory fun v => ?_
    cases v with
    | none => exact .pure _
    | some v => exact .bind (conduct_document on code v) fun _ => .pure _
  | frames p =>
    exact .bind (conduct_place p) fun _ => .bind .readMemory fun _ =>
      .bind (.mapM fun v _ => conduct_document on code v) fun _ => .pure _
  | hold what name => exact conduct_hold what
  | view held => exact .bind (conduct_eachHeld (conduct_document on code)) fun _ => .pure _
  | inspect held =>
    exact .bind (conduct_eachHeld fun v => .bind (conduct_inspectView on code v) fun _ => .pure _) fun _ => .pure _
  | document held =>
    exact .bind (conduct_eachHeld fun v => .bind (conduct_document on code v) fun _ => .pure _) fun _ => .pure _
  | get held slot => exact .bind (conduct_eachHeld (conduct_slotOf on code slot)) fun _ => .pure _
  | size held => exact .bind (conduct_eachHeld fun _ => .pure _) fun _ => .pure _
  | ownerIs held value =>
    exact .bind (conduct_object value) fun _ => .bind (conduct_eachHeld fun _ => .pure _) fun _ => .pure _
  | next held => exact conduct_next on code held
  | copyWalk held name => exact .bind conduct_find fun _ => .bind conduct_assign fun _ => .pure _
  | newCell slot value name =>
    exact .bind (conduct_object value) fun _ => .bind (.memory fun _ made => made.newCell _ _) fun _ =>
      .bind conduct_assign fun _ => .pure _
  | cellOf held slot name => exact conduct_cellOf
  | readCell cell =>
    exact .bind conduct_find fun c => .bind conduct_cellName fun _ => .bind (conduct_renderCell on code c) fun _ =>
      .pure _
  | writeCell cell value =>
    exact .bind conduct_find fun c => .bind (conduct_object value) fun _ =>
      .bind (.memory fun _ made => made.write _ _) fun _ => .bind (conduct_renderCell on code c) fun _ => .pure _
  | replaceCell cell value =>
    exact .bind conduct_find fun c => .bind (conduct_object value) fun _ => .bind .readMemory fun _ =>
      conduct_known fun old _ => .bind (.memory fun _ made => made.write _ _) fun _ =>
        .bind (conduct_render on code old.content) fun _ => .bind (conduct_renderCell on code c) fun _ => .pure _
  | inspectCell cell =>
    exact .bind conduct_find fun c => .bind conduct_cellName fun name =>
      .bind (conduct_inspectCell on code name c) fun _ => .pure _
  | sameCell a b => exact .bind conduct_find fun _ => .bind conduct_find fun _ => .pure _
  | castCell cell kind => exact .bind conduct_find fun c => conduct_cast on code c kind
  | newErrorTrigger t e name =>
    exact .bind conduct_tracker fun _ => .bind (conduct_error e) fun _ => .bind .newTrigger fun _ =>
      .bind conduct_assign fun _ => .pure _
  | newTimeoutTrigger t threshold actual name =>
    exact .bind conduct_tracker fun _ => .bind .newTrigger fun _ => .bind conduct_assign fun _ => .pure _
  | triggerInfo name => exact .bind conduct_find fun _ => .pure _
  | triggerCurrent name =>
    refine .bind conduct_find fun _ => .bind .readMemory fun v => ?_
    cases v with
    | none => exact .pure _
    | some v => exact .bind (conduct_document on code v) fun _ => .pure _
  | triggerFrames name =>
    exact .bind conduct_find fun _ => .bind .readMemory fun _ =>
      .bind (.mapM fun v _ => conduct_document on code v) fun _ => .pure _
  | triggerIsFor name e => exact .bind conduct_find fun _ => .bind (conduct_error e) fun _ => .pure _
  | writeTrigger name serializer =>
    exact .bind conduct_find fun t => .bind ((serializer.hosts_write on t).conduct_code code) fun _ => .pure _
  | sameTrigger a b => exact .bind conduct_find fun _ => .bind conduct_find fun _ => .pure _

end

/-! ## Steps inside steps -/

section
variable {stage : Stage} (enlists : stage.Enlists crew) (all : ∀ thread, mine thread)
include enlists all

theorem conduct_route {run : Runner} (runs : Runs crew mine run) : Runs crew mine (route stage run) := by
  intro site guard step guarded
  obtain ⟨label, thread, action⟩ := step
  cases thread with
  | none => exact conduct_perform runs enlists guarded (all _) action
  | some thread =>
    show Conduct crew mine (if thread = site.thread then _ else if thread ∈ site.waiting then _ else _)
    split
    · exact conduct_perform runs enlists guarded (all _) action
    · split
      · exact .pure _
      · refine .bind (Panic.conduct_catching (conduct_perform runs enlists .none (all _) action)) ?_
        intro r
        cases r with
        | ok answer => exact .pure _
        | error payload => exact .pure _

/-- Steps do what code may do, however deep they are nested. -/
theorem conduct_play (depth : Nat) : Runs crew mine (play stage depth) := by
  induction depth with
  | zero =>
    intro _ _ _ _
    exact .stop .exhausted
  | succ depth ih => exact conduct_route enlists all ih

end

end Scenario

end FaultSnapshot
