import FaultSnapshot.Proofs.Desk
import FaultSnapshot.Proofs.Frames
import FaultSnapshot.Tracer.Monitor

/-!
# What code may do

`Conduct` describes the runs of watched programs, of serializers and of handlers: they take steps of
their own, which may change anything but what is known of reports and work on the memory by its
operations, and they call hooks. `Hosts` describes the parts of the library that run such code and
otherwise take plain steps; a plain step does not depend on what was logged about ignored calls.
-/

namespace FaultSnapshot

variable {P : Program} {α β : Type}

/-- A log entry on a call that came while a report was being built. -/
def Event.isIgnored : Event → Bool
  | .logged entry => entry.level = .debug && entry.origin = .tracer &&
      (entry.message = Tracer.errorWording.ignored || entry.message = Tracer.timeoutWording.ignored)
  | _ => false

/-- The world without log entries on ignored calls. -/
def World.heard (w : World P) : World P := { w with journal := w.journal.filter (!·.isIgnored) }

/-- A step that leaves alone what is known of reports. -/
def Quiet (change : World P → World P) : Prop := ∀ w thread, (change w).desk thread = w.desk thread

/-- A step that works on the memory by its operations only. -/
def Lawful (change : World P → World P) : Prop := ∀ w, w.memory.Made → (change w).memory.Made

/-- A step that does not depend on log entries on ignored calls. -/
def Deaf (change : World P → World P) : Prop := ∀ w, (change w).heard = (change w.heard).heard

/-- A step that leaves alone the state of the program, the identities of its errors and its panics. -/
def Discreet (change : World P → World P) : Prop :=
  ∀ w, (change w).state = w.state ∧ (change w).errors = w.errors ∧ (change w).unwinding = w.unwinding ∧
    (change w).lastHookRuns = w.lastHookRuns

/-- A quiet, deaf and discreet step, which changes the memory only if it `tracks`. -/
structure Plain (tracks : Prop) (change : World P → World P) : Prop where
  quiet : Quiet change
  deaf : Deaf change
  discreet : Discreet change
  memory : tracks ∧ Lawful change ∨ ∀ w, (change w).memory = w.memory

/-- What a run made of plain steps does with the code that it is given to run, on threads of
    `mine`. -/
inductive Hosts (tracks : Prop) (places : Site → Prop) : {α : Type} → (Exec P → Run P α) → Prop
  | done {α : Type} (a : α) : Hosts tracks places fun _ => .done a
  | act {α : Type} {change : World P → World P} {next : World P → Exec P → Run P α} (plain : Plain tracks change)
      (unheard : ∀ w, next w = next w.heard) (rest : ∀ w, Hosts tracks places (next w)) :
      Hosts tracks places fun exec => .act change fun w => next w exec
  | bind {α β : Type} {m : Exec P → Run P α} {k : α → Exec P → Run P β} (first : Hosts tracks places m)
      (rest : ∀ a, Hosts tracks places (k a)) : Hosts tracks places fun exec => m exec >>= fun a => k a exec
  | code (site : Site) (c : P.Code) (on : places site) : Hosts tracks places fun exec => exec site c

/-- What code may do: quiet and lawful steps, and calls of hooks of tracers with names in `crew` on threads of
    `mine`, where serializers and handlers may do the same. -/
inductive Conduct (crew : List String) (mine : Thread → Prop) : {α : Type} → Run P α → Prop
  | done {α : Type} (a : α) : Conduct crew mine (.done a)
  | stop {α : Type} (e : Interrupt) : Conduct crew mine (.stop e : Run P α)
  | act {α : Type} {change : World P → World P} {next : World P → Run P α} (quiet : Quiet change)
      (lawful : Lawful change) (rest : ∀ w, Conduct crew mine (next w)) : Conduct crew mine (.act change next)
  | bind {α β : Type} {m : Run P α} {k : α → Run P β} (first : Conduct crew mine m)
      (rest : ∀ a, Conduct crew mine (k a)) : Conduct crew mine (m >>= k)
  | rescue {α : Type} {m : Run P α} {handle : Interrupt → Run P α} (first : Conduct crew mine m)
      (rest : ∀ e, Conduct crew mine (handle e)) : Conduct crew mine (tryCatch m handle)
  | onError {exec : Exec P} {t : Tracer P} {site : Site} {method : String} {e : ErrorRef} (member : t.name ∈ crew)
      (on : mine site.thread) (code : ∀ site c, mine site.thread → Conduct crew mine (exec site c)) :
      Conduct crew mine (t.onError exec site method e)
  | timeout {exec : Exec P} {t : Tracer P} {site : Site} {method : String} {thresholdMs actualMs : UInt64}
      (member : t.name ∈ crew) (on : mine site.thread)
      (code : ∀ site c, mine site.thread → Conduct crew mine (exec site c)) :
      Conduct crew mine (t.timeout exec site method thresholdMs actualMs)

/-- All code of the program does what code may do, on the threads of `mine`. -/
def ConductCode (crew : List String) (mine : Thread → Prop) (exec : Exec P) : Prop :=
  ∀ site c, mine site.thread → Conduct crew mine (exec site c)

variable {crew : List String} {mine : Thread → Prop} {tracks : Prop} {places : Site → Prop}

theorem Lawful.of_memory {change : World P → World P} (same : ∀ w, (change w).memory = w.memory) : Lawful change := by
  intro w made
  exact same w ▸ made

theorem Plain.lawful {change : World P → World P} (plain : Plain tracks change) : Lawful change := by
  rcases plain.memory with ⟨_, lawful⟩ | same
  · exact lawful
  · exact .of_memory same

theorem Hosts.conduct {f : Exec P → Run P α} {exec : Exec P} (hosts : Hosts tracks places f)
    (code : ∀ site c, places site → Conduct crew mine (exec site c)) : Conduct crew mine (f exec) := by
  induction hosts with
  | done a => exact .done a
  | act plain _ _ ih => exact .act plain.quiet plain.lawful ih
  | bind _ _ first rest => exact .bind first rest
  | code site c on => exact code site c on

/-! ## Steps of the library -/

theorem Quiet.id : Quiet (P := P) id := fun _ _ => rfl

theorem Deaf.id : Deaf (P := P) id := fun _ => by
  simp [World.heard, Array.filter_filter]

theorem heard_note (w : World P) (e : Event) :
    (w.note e).heard = if e.isIgnored then w.heard else w.heard.note e := by
  by_cases ignored : e.isIgnored
  · simp [World.heard, World.note, ignored]
  · simp [World.heard, World.note, ignored]

theorem heard_heard (w : World P) : w.heard.heard = w.heard := by
  simp [World.heard, Array.filter_filter]

theorem quiet_note {e : Event} (plain : e.place? = none) : Quiet (P := P) (·.note e) := by
  intro w thread
  simp [World.desk_note, Event.isOn, plain]

theorem deaf_note (e : Event) : Deaf (P := P) (·.note e) := by
  intro w
  simp only [heard_note, heard_heard]

namespace Hosts

theorem pure (a : α) : Hosts (P := P) tracks places fun _ => (Pure.pure a : Run P α) := .done a

/-- A plain step with an answer. -/
theorem step {f : World P → α × World P} (plain : Plain tracks fun w => (f w).2)
    (unheard : ∀ w, (f w).1 = (f w.heard).1) : Hosts tracks places fun _ => (modifyGet f : Run P α) :=
  have rest : ∀ w, Hosts tracks places fun _ => (.done (f w).1 : Run P α) := fun w => .done (f w).1
  .act plain (fun w => by simp only [unheard w]) rest

/-- A look at the world. -/
theorem get {k : World P → Exec P → Run P β} (unheard : ∀ w, k w = k w.heard) (rest : ∀ w, Hosts tracks places (k w)) :
    Hosts tracks places fun exec => (MonadState.get : Run P (World P)) >>= fun w => k w exec :=
  .act ⟨.id, .id, fun _ => ⟨rfl, rfl, rfl, rfl⟩, .inr fun _ => rfl⟩ unheard rest

theorem readMemory {f : Memory P.Code → α} : Hosts tracks places fun _ => (Run.readMemory f : Run P α) :=
  get (k := fun w _ => .done (f w.memory)) (fun _ => rfl) fun _ => .done _

theorem memory {f : Memory P.Code → α × Memory P.Code} (lawful : ∀ m : Memory P.Code, m.Made → (f m).2.Made) :
    Hosts True places fun _ => (Run.memory f : Run P α) :=
  step ⟨fun _ _ => rfl, fun _ => (heard_heard _).symm, fun _ => ⟨rfl, rfl, rfl, rfl⟩,
    .inl ⟨trivial, fun w => lawful w.memory⟩⟩ fun _ => rfl

theorem note {e : Event} (plain : e.place? = none) : Hosts tracks places fun _ => (Run.note e : Run P Unit) :=
  step ⟨quiet_note plain, deaf_note e, fun _ => ⟨rfl, rfl, rfl, rfl⟩, .inr fun _ => rfl⟩ fun _ => rfl

theorem log {level : Level} {origin : Origin} {fields : List (String × String)} {message : String} :
    Hosts tracks places fun _ => (Run.log level origin fields message : Run P Unit) :=
  note rfl

theorem mapM {γ : Type} {f : Exec P → γ → Run P α} {items : List γ}
    (each : ∀ item, Hosts tracks places fun exec => f exec item) :
    Hosts tracks places fun exec => items.mapM (f exec) := by
  induction items with
  | nil => simpa only [List.mapM_nil] using pure []
  | cons item items ih =>
    simp only [List.mapM_cons]
    exact bind (each item) fun a => bind ih fun rest => pure (a :: rest)

end Hosts

/-! ## Rendering and serializers -/

section
variable {site : Site} (on : places site)
include on

theorem Object.hosts_inspect (o : Object P.Code) : Hosts tracks places fun exec => o.inspect exec site := by
  unfold Object.inspect
  split
  · exact .pure _
  · exact .pure _
  · exact .pure _
  · exact .bind .readMemory fun _ => .pure _
  · exact .bind (.code site _ on) fun _ => .pure _

theorem Object.hosts_render (o : Object P.Code) : Hosts tracks places fun exec => o.render exec site := by
  unfold Object.render
  split
  · exact .pure _
  · exact o.hosts_inspect on

omit on in
theorem CellId.hosts_present {form : Exec P → Object P.Code → Run P String} {cell : CellId}
    (each : ∀ o, Hosts tracks places fun exec => form exec o) :
    Hosts tracks places fun exec => CellId.present (form exec) cell := by
  refine .bind .readMemory ?_
  intro content
  cases content with
  | none => exact .pure _
  | some c => exact each c.content

theorem View.hosts_owner (v : View P.Code) : Hosts tracks places fun exec => v.owner? exec site := by
  unfold View.owner?
  split
  · exact .bind (Object.hosts_render on _) fun _ => .pure _
  · exact .pure _

theorem View.hosts_document (v : View P.Code) : Hosts tracks places fun exec => v.document exec site := by
  refine .bind (v.hosts_owner on) fun owner => .bind (.mapM fun e => ?_) fun vars => .pure _
  exact .bind (CellId.hosts_present (Object.hosts_render on)) fun _ => .pure _

theorem Trigger.hosts_document (t : Trigger) : Hosts (P := P) tracks places fun exec => t.document exec site := by
  refine .bind .readMemory fun views => .bind (.mapM fun v => v.hosts_document on) ?_
  intro frames
  split
  · exact .pure _
  · exact .pure _

theorem hosts_writeVariables (vars : List (String × CellId)) (out : String) :
    Hosts (P := P) tracks places fun exec => writeVariables exec site out vars := by
  induction vars generalizing out with
  | nil => exact .pure out
  | cons v rest ih => exact .bind (CellId.hosts_present (Object.hosts_render on)) fun _ => ih _

theorem hosts_writeFrames (views : List (View P.Code)) (out : String) :
    Hosts tracks places fun exec => writeFrames exec site out views := by
  induction views generalizing out with
  | nil => exact .pure out
  | cons v rest ih => exact .bind (v.hosts_owner on) fun _ => .bind (hosts_writeVariables on _ _) fun _ => ih _

theorem Serializer.hosts_write (s : Serializer) (t : Trigger) :
    Hosts (P := P) tracks places fun exec => s.write exec site t := by
  cases s with
  | text => exact .bind .readMemory fun _ => .bind (hosts_writeFrames on _ _) fun _ => .pure _
  | json => exact .bind (t.hosts_document on) fun _ => .pure _
  | prettyJson => exact .bind (t.hosts_document on) fun _ => .pure _

theorem Tracer.hosts_takeTurn (t : Tracer P) (part : Part) :
    Hosts tracks places fun exec => t.takeTurn exec site part := by
  refine .bind (.step ⟨fun _ _ => rfl, fun _ => (heard_heard _).symm, fun _ => ⟨rfl, rfl, rfl, rfl⟩, .inr fun _ => rfl⟩
    fun _ => rfl) ?_
  intro n
  split
  · exact .pure _
  · exact .bind (.code site _ on) fun _ => .pure _

end

theorem Handler.hosts_deliver (h : Handler) (tracer : String) (kind : ReportKind) (report : String) :
    Hosts (P := P) tracks places fun _ => h.deliver tracer kind report := by
  cases h with
  | record => exact .bind (.note rfl) fun _ => .pure _
  | discard => exact .pure _
  | print =>
    refine .get (fun _ => rfl) ?_
    intro w
    split
    · exact .pure _
    · exact .bind (.note rfl) fun _ => .pure _
  | log => exact .bind .log fun _ => .pure _

/-! ## Reports after their start -/

/-- The open frames that a report of the trigger shows. -/
def Trigger.frames (t : Trigger) (thread : Thread) (w : World P) : List (Picture Unit) :=
  (w.memory.pictures (t.tracker, thread)).map Picture.still

namespace Tracer

/-- What is left to do for the text of a report, once its start is noted. -/
def finishText (exec : Exec P) (t : Tracer P) (site : Site) (trigger : Trigger) : Run P (Except Fault String) := do
  let result ← match ← t.takeTurn exec site .serializer with
    | some f => pure (.error f)
    | none => pure (.ok (← t.serializer.write exec site trigger))
  Run.note (.written t.name site.thread result)
  return result

/-- Hands over what the serializer returned, if it is a text. -/
def handOver (exec : Exec P) (t : Tracer P) (site : Site) (method : String) (trigger : Trigger) (words : Wording) :
    Except Fault String → Run P (Except Fault Unit)
  | .error f => do
    log .warn method (words.notWritten ++ f.message)
    return .error f
  | .ok report => do
    match ← t.deliver exec site trigger.kind report with
    | .error f =>
      log .warn method (words.notDelivered ++ f.message)
      return .error f
    | .ok () => return .ok ()

/-- What is left to do for a report, once its start is noted. -/
def finishReport (exec : Exec P) (t : Tracer P) (site : Site) (method : String) (trigger : Trigger) (words : Wording) :
    Run P (Except Fault Unit) :=
  t.finishText exec site trigger >>= t.handOver exec site method trigger words

theorem build_eq (exec : Exec P) (t : Tracer P) (site : Site) (method : String) (trigger : Trigger) (words : Wording) :
    t.build exec site method trigger words =
      (modify fun w => w.note (.writing t.name site.thread trigger (trigger.frames site.thread w))) >>= fun _ =>
        t.finishReport exec site method trigger words :=
  rfl

end Tracer

/-! ## Hooks that make no reports -/

namespace Tracer

theorem hosts_isProcessing {t : Tracer P} {thread : Thread} : Hosts tracks places fun _ => t.isProcessing thread :=
  .get (k := fun w _ => .done (w.reportingOf t.name thread).processing) (fun _ => rfl) fun _ => .done _

end Tracer

theorem Tracker.hosts_openFrame {t : Tracker} {thread : Thread} {owner : Option (Object P.Code)} {method : String} :
    Hosts True places fun _ => t.openFrame thread owner method := by
  unfold Tracker.openFrame
  split
  · exact .pure _
  · exact .memory fun _ made => made.openFrame _ _ _

theorem Tracker.hosts_track {t : Tracker} {thread : Thread} {name : String} {value : Object P.Code} :
    Hosts True places fun _ => t.track thread name value := by
  unfold Tracker.track
  split
  · exact .pure _
  · exact .memory fun _ made => made.track _ _ _

theorem Tracker.hosts_trackAll {t : Tracker} {thread : Thread} {params : List (String × Object P.Code)} :
    Hosts True places fun _ => t.trackAll thread params := by
  induction params with
  | nil => exact .pure _
  | cons p rest ih =>
    refine .bind Tracker.hosts_track ?_
    intro tracked
    cases tracked with
    | ok => exact ih
    | error f => exact .pure _

namespace Tracer

variable {t : Tracer P} {site : Site}

theorem hosts_entering {owner : Option (Object P.Code)} {method : String} {params : List (String × Object P.Code)} :
    Hosts True places fun _ => t.entering site owner method params := by
  refine .bind hosts_isProcessing ?_
  intro processing
  split
  · exact .pure _
  · split
    · exact .pure _
    · refine .bind Tracker.hosts_openFrame ?_
      intro opened
      split
      · exact Tracker.hosts_trackAll
      · exact .pure _

theorem hosts_enteringFlat {owner : Option (Object P.Code)} {method : String} {params : List (Object P.Code)} :
    Hosts True places fun _ => t.enteringFlat site owner method params := by
  refine .bind hosts_isProcessing ?_
  intro processing
  split
  · exact .pure _
  · split
    · exact .pure _
    · split
      · exact hosts_entering
      · exact .pure _

theorem hosts_exiting : Hosts True places fun _ => t.exiting site := by
  refine .bind hosts_isProcessing ?_
  intro processing
  split
  · exact .pure _
  · exact .memory fun _ made => made.closeFrame _

theorem hosts_valueChange {name : String} {value : Object P.Code} :
    Hosts True places fun _ => t.valueChange site name value := by
  refine .bind hosts_isProcessing ?_
  intro processing
  split
  · exact .pure _
  · exact Tracker.hosts_track

end Tracer

/-- A call of a hook of a tracer. -/
inductive Hook (P : Program)
  | entering (owner : Option (Object P.Code)) (method : String) (params : List (String × Object P.Code))
  | enteringFlat (owner : Option (Object P.Code)) (method : String) (params : List (Object P.Code))
  | exiting
  | valueChange (name : String) (value : Object P.Code)
  | returning (value : Object P.Code)
  | onError (method : String) (e : ErrorRef)
  | timeout (method : String) (thresholdMs actualMs : UInt64)

def Tracer.call (exec : Exec P) (t : Tracer P) (site : Site) : Hook P → Run P (Except Fault Unit)
  | .entering owner method params => t.entering site owner method params
  | .enteringFlat owner method params => t.enteringFlat site owner method params
  | .exiting => t.exiting site
  | .valueChange name value => t.valueChange site name value
  | .returning value => (Monitor.active t).returning value
  | .onError method e => t.onError exec site method e
  | .timeout method thresholdMs actualMs => t.timeout exec site method thresholdMs actualMs

/-- The call may become a report. -/
def Hook.Reports : Hook P → Prop
  | .onError _ _ => True
  | .timeout _ _ _ => True
  | _ => False

theorem Tracer.hosts_call {exec : Exec P} {t : Tracer P} {site : Site} {hook : Hook P} (plain : ¬ hook.Reports) :
    Hosts True places fun _ => t.call exec site hook := by
  cases hook with
  | entering owner method params => exact hosts_entering
  | enteringFlat owner method params => exact hosts_enteringFlat
  | exiting => exact hosts_exiting
  | valueChange name value => exact hosts_valueChange
  | returning value => exact .pure _
  | onError method e => exact absurd trivial plain
  | timeout method thresholdMs actualMs => exact absurd trivial plain

theorem Tracer.conduct_call {exec : Exec P} {t : Tracer P} {site : Site} {hook : Hook P} (member : t.name ∈ crew)
    (on : mine site.thread) (code : ConductCode crew mine exec) :
    Conduct crew mine (t.call exec site hook) := by
  by_cases reports : hook.Reports
  · cases hook with
    | onError method e => exact .onError member on code
    | timeout method thresholdMs actualMs => exact .timeout member on code
    | _ => exact reports.elim
  · exact (hosts_call reports).conduct code

end FaultSnapshot
