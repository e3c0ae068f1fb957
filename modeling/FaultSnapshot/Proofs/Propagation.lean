import FaultSnapshot.Guard
import FaultSnapshot.Proofs.Memories
import FaultSnapshot.Proofs.Returning

/-!
# Errors that pass through traced calls

Traced calls are nested in one another, and the error of the innermost one is returned by all of
them. However the throttle decides, one report is made by the innermost call that it lets through, if
there is one, and the text shows the frames that are open then (`Tracer.nested_reported_once`).
-/

namespace FaultSnapshot

variable {P : Program}

/-- One of several frames in one another: how it is opened, the variables that are written before and
    after the next one, and what else happens in the program until it is left. -/
structure Layer (P : Program) where
  owner : Option (Object P.Code)
  method : String
  params : List (String × Object P.Code)
  before : List (String × Object P.Code)
  after : List (String × Object P.Code)
  meanwhile : World P → World P

namespace Layer

/-- The frame with its parameters and variables; variables without a name are refused. -/
def frame (l : Layer P) (vars : List (String × Object P.Code)) : Picture P.Code :=
  ⟨l.owner, l.method, (OrderedMap.ofList (l.params ++ vars.filter (·.1 ≠ ""))).entries⟩

/-- The frame while the next one is open. -/
def calling (l : Layer P) : Picture P.Code := l.frame l.before

/-- The frame when it is left. -/
def returning (l : Layer P) : Picture P.Code := l.frame (l.before ++ l.after)

/-- What is left to do in a traced call when its body has failed: the error is reported, and the frame is
    closed. -/
def fail (exec : Exec P) (t : Tracer P) (site : Site) (e : ErrorRef) (l : Layer P) : Run P Unit := do
  let g : Guard P := ⟨.active t, l.method, none⟩
  discard (g.reportResult exec site (.error e : Except ErrorRef Unit))
  g.close exec site 0

end Layer

/-- Writes variables, whatever comes of it. -/
def Guard.writeAll (g : Guard P) (site : Site) (vars : List (String × Object P.Code)) : Run P Unit :=
  vars.forM fun v => discard (g.track site v.1 v.2)

/-- What a traced call returns. -/
def Traced.result {α : Type} : Traced α → Except ErrorRef α
  | .refused e => .error e
  | .failed e => .error e
  | .finished a => .ok a

/-- Traced calls in one another, the outermost first. The innermost body returns the error `e`, each
    other one what the call inside it returned. -/
def Tracer.nested {α : Type} (exec : Exec P) (t : Tracer P) (site : Site) (e : ErrorRef) :
    List (Layer P) → Run P (Except ErrorRef α)
  | [] => return .error e
  | l :: inner => do
    let ended ← traced exec (.active t) site l.owner l.method l.params fun g => do
      g.writeAll site l.before
      let result ← nested exec t site e inner
      g.writeAll site l.after
      modify l.meanwhile
      return result
    return ended.result

/-- Something else happens in the program: it makes no events and no reports on the threads of `mine`, and
    leaves the open frames of `key` as they are. -/
def Aloof (mine : Thread → Prop) (key : TrackerId × Thread) (change : World P → World P) : Prop :=
  ∀ w, Desks mine (change w) = Desks mine w ∧ Memory.Undisturbed key w.memory (change w).memory

/-- From `w` to `u`, layers in one another, the outermost first, were left one after another, the
    innermost first, above frames that show `base`, with these events. Of each layer, `left` says what
    came of it: which frames were open, what had happened in the layers inside it, the world that was
    found, and what happened then. -/
inductive LeftInTurn {L : Type} (layer : L → Layer P)
    (left : L → List (Picture Unit) → List Event → World P → List Event → World P → Prop) :
    List (Picture Unit) → List L → World P → List Event → World P → Prop
  | none (base : List (Picture Unit)) (w : World P) : LeftInTurn layer left base [] w [] w
  | around {base : List (Picture Unit)} {l : L} {inner : List L} {w v u : World P} {m m' : Memory P.Code}
      {events later : List Event}
      (inside : LeftInTurn layer left ((layer l).calling.still :: base) inner { w with memory := m } events v)
      (here : left l ((layer l).returning.still :: base) events ((layer l).meanwhile { v with memory := m' }) later u) :
      LeftInTurn layer left base (l :: inner) w (events ++ later) u

/-- One of the triggers was let through. -/
def Admitted (tracer : String) (thread : Thread) (events : List Event) : Prop :=
  ∃ trigger, .asked tracer thread trigger true ∈ events

/-- What comes of an error in the world `x`, while the frames are open and after the events `before`. If
    one of these let it through, the throttle is not asked again. -/
inductive Tracer.Passed (t : Tracer P) (thread : Thread) (e : ErrorRef) (frames : List (Picture Unit))
    (before : List Event) (x : World P) : List Event → World P → Prop
  | tried {later : List Event} {u : World P} (new : ¬ Admitted t.name thread before)
      (tried : t.Tried thread (.error e) frames x later u) : Passed t thread e frames before x later u
  | skipped {u : World P} (known : Admitted t.name thread before) (spent : u.throttles = x.throttles) :
      Passed t thread e frames before x [] u

/-- A layer fails in the world `x` and is left in `u`. -/
structure Layer.Failed (exec : Exec P) (t : Tracer P) (site : Site) (e : ErrorRef) (l : Layer P)
    (frames : List (Picture Unit)) (before : List Event) (x : World P) (later : List Event) (u : World P) : Prop where
  ran : (l.fail exec t site e).run x = .ok () u
  passed : t.Passed site.thread e frames before x later u

variable {t : Tracer P} {exec : Exec P} {site : Site} {w v u : World P}

/-! ## Frames of traced calls -/

section
variable {m : Memory P.Code} {owner : Option (Object P.Code)} {method : String}

/-- Parameters are written one after another. -/
theorem Tracker.run_trackAll {params : List (String × Object P.Code)} (pairs : List (String × Object P.Code))
    (accepts : t.tracker.refusedVariables = []) (named : ∀ p ∈ params, p.1 ≠ "")
    (opened : Memory.Opened (t.tracker.id, site.thread) m ⟨owner, method, (OrderedMap.ofList pairs).entries⟩ v.memory) :
    ∃ m', (t.tracker.trackAll site.thread params).run v = .ok (.ok ()) { v with memory := m' } ∧
      Memory.Opened (t.tracker.id, site.thread) m
        ⟨owner, method, (OrderedMap.ofList (pairs ++ params)).entries⟩ m' := by
  induction params generalizing v pairs with
  | nil => exact ⟨v.memory, rfl, by simpa using opened⟩
  | cons p rest ih =>
    obtain ⟨name, value⟩ := p
    obtain ⟨m₁, tracked, opened⟩ := Memory.track_opened opened (named (name, value) List.mem_cons_self) value
    simp only [← OrderedMap.ofList_concat] at opened
    obtain ⟨m', later, opened⟩ := ih (v := { v with memory := m₁ }) _
      (fun p member => named p (List.mem_cons_of_mem _ member)) opened
    refine ⟨m', ?_, by simpa using opened⟩
    simp [trackAll, track, accepts, tracked, later]

theorem Tracer.run_entering {params : List (String × Object P.Code)}
    (sound : w.memory.Sound (t.tracker.id, site.thread))
    (accepts : t.tracker.refusedMethods = [] ∧ t.tracker.refusedVariables = []) (named : ∀ p ∈ params, p.1 ≠ "")
    (idle : (w.reportingOf t.name site.thread).processing = false) (owner : Option (Object P.Code)) (method : String) :
    ∃ m, (t.entering site owner method params).run w = .ok (.ok ()) { w with memory := m } ∧
      Memory.Opened (t.tracker.id, site.thread) w.memory ⟨owner, method, (OrderedMap.ofList params).entries⟩ m := by
  obtain ⟨m₁, opens, opened⟩ := Memory.openFrame_opened sound owner method
  obtain ⟨m, tracked, opened⟩ := Tracker.run_trackAll (v := { w with memory := m₁ }) [] accepts.2 named opened
  refine ⟨m, ?_, opened⟩
  have unnamed : unnamedAt? params = none := by
    simpa [unnamedAt?] using named
  simp [entering, idle, unnamed, Tracker.openFrame, accepts.1, opens, tracked]

/-- What a guard writes goes to the tracker, with nothing that tells the frame of the guard. -/
theorem Guard.run_track (accepts : t.tracker.refusedVariables = [])
    (idle : (v.reportingOf t.name site.thread).processing = false) (method : String) (limit : Option UInt64)
    (name : String) (value : Object P.Code) :
    (track ⟨.active t, method, limit⟩ site name value).run v =
      .ok (v.memory.track (t.tracker.id, site.thread) name value).1
        { v with memory := (v.memory.track (t.tracker.id, site.thread) name value).2 } := by
  simp [track, Monitor.valueChange, Tracer.valueChange, idle, Tracker.track, accepts]

/-- Variables are written one after another; those without a name are refused. -/
theorem Guard.run_writeAll (limit : Option UInt64) (vars : List (String × Object P.Code))
    {pairs : List (String × Object P.Code)} (accepts : t.tracker.refusedVariables = [])
    (idle : (v.reportingOf t.name site.thread).processing = false)
    (opened : Memory.Opened (t.tracker.id, site.thread) m ⟨owner, method, (OrderedMap.ofList pairs).entries⟩ v.memory) :
    ∃ m', (writeAll ⟨.active t, method, limit⟩ site vars).run v = .ok () { v with memory := m' } ∧
      Memory.Opened (t.tracker.id, site.thread) m
        ⟨owner, method, (OrderedMap.ofList (pairs ++ vars.filter (·.1 ≠ ""))).entries⟩ m' := by
  induction vars generalizing v pairs with
  | nil => exact ⟨v.memory, rfl, by simpa using opened⟩
  | cons p rest ih =>
    obtain ⟨name, value⟩ := p
    have step := run_track accepts idle method limit name value
    by_cases named : name = ""
    · have refused : v.memory.track (t.tracker.id, site.thread) name value = (.error .emptyVariable, v.memory) := by
        rw [Memory.track, if_pos named]
      obtain ⟨m', later, opened⟩ := ih idle opened
      refine ⟨m', ?_, by simpa [named] using opened⟩
      rw [refused] at step
      simpa [writeAll, step] using later
    · obtain ⟨m₁, tracked, opened⟩ := Memory.track_opened opened named value
      simp only [← OrderedMap.ofList_concat] at opened
      obtain ⟨m', later, opened⟩ := ih (v := { v with memory := m₁ }) idle opened
      refine ⟨m', ?_, by simpa [named] using opened⟩
      rw [tracked] at step
      simpa [writeAll, step] using later

/-- The frame opened last is shown first. -/
theorem Tracer.framesOf_opened {p : Picture P.Code}
    (opened : Memory.Opened (t.tracker.id, site.thread) w.memory p v.memory) :
    t.framesOf site v = p.still :: t.framesOf site w := by
  rw [framesOf, framesOf, opened.pictures]
  rfl

/-- The frame of a layer is opened, and filled until the next call. -/
theorem Layer.run_opens (l : Layer P) (limit : Option UInt64) (sound : w.memory.Sound (t.tracker.id, site.thread))
    (accepts : t.tracker.refusedMethods = [] ∧ t.tracker.refusedVariables = []) (named : ∀ p ∈ l.params, p.1 ≠ "")
    (idle : (w.reportingOf t.name site.thread).processing = false) :
    ∃ m₁ m₂, (t.entering site l.owner l.method l.params).run w = .ok (.ok ()) { w with memory := m₁ } ∧
      (Guard.writeAll ⟨.active t, l.method, limit⟩ site l.before).run { w with memory := m₁ } =
        .ok () { w with memory := m₂ } ∧
      Memory.Opened (t.tracker.id, site.thread) w.memory l.calling m₂ := by
  obtain ⟨m₁, entered, opened⟩ := Tracer.run_entering sound accepts named idle l.owner l.method
  obtain ⟨m₂, wrote, calling⟩ := Guard.run_writeAll (v := { w with memory := m₁ }) limit l.before accepts.2 idle opened
  exact ⟨m₁, m₂, entered, wrote, calling⟩

end

/-! ## One traced call -/

theorem Guard.run_logFailure (method message : String) (r : Except Fault Unit) (w : World P) :
    ∃ v, (logFailure method message r).run w = .ok () v ∧ v.memory = w.memory ∧ v.throttles = w.throttles ∧
      ∀ thread, v.desk thread = w.desk thread := by
  cases r with
  | ok => exact ⟨w, rfl, rfl, rfl, fun _ => rfl⟩
  | error f => exact ⟨_, rfl, rfl, rfl, fun thread => quiet_note rfl w thread⟩

/-- Something is closed after it has come to an end. -/
theorem Panic.run_closingAfter {α : Type} {body : Run P α} {close : Run P Unit} {a : α} (ran : body.run w = .ok a v)
    (closed : close.run v = .ok () u) : (closingAfter body close).run w = .ok a u := by
  simp only [closingAfter, Run.run_bind]
  rw [Run.run_tryCatch_ok ran]
  simp [closed]

/-- A traced call whose body fails: the error is reported while the frame is open, and then the
    frame is closed. -/
theorem run_traced_failed {α : Type} (l : Layer P) (body : Guard P → Run P (Except ErrorRef α)) {e : ErrorRef}
    {r : Except Fault Unit} {w₁ w₂ w₃ : World P}
    (entered : (t.entering site l.owner l.method l.params).run w = .ok (.ok ()) w₁)
    (ran : (body ⟨.active t, l.method, none⟩).run w₁ = .ok (.error e) w₂)
    (reported : (t.onError exec site l.method e).run w₂ = .ok r w₃)
    (idle : ((w₃.desk site.thread).known t.name).processing = false) {m : Memory P.Code}
    (closed : w₃.memory.closeFrame (t.tracker.id, site.thread) = (.ok (), m)) :
    ∃ u, (traced exec (.active t) site l.owner l.method l.params body).run w = .ok (.failed e) u ∧
      (l.fail exec t site e).run w₂ = .ok () u ∧ u.memory = m ∧ u.throttles = w₃.throttles ∧
      ∀ thread, u.desk thread = w₃.desk thread := by
  obtain ⟨w₄, logged, memory, throttles, desks⟩ := Guard.run_logFailure l.method "Failed to report error: " r w₃
  have unset : (w₄.reportingOf t.name site.thread).processing = false := by
    have known := congrArg (fun d : Desk => (d.known t.name).processing) (desks site.thread)
    exact known.trans idle
  have results : ∀ {β : Type}, ((⟨.active t, l.method, none⟩ : Guard P).reportResult exec site
      (.error e : Except ErrorRef β)).run w₂ = .ok (.failed e) w₄ := by
    intro β
    simp [Guard.reportResult, Guard.reportError, Monitor.onError, reported, logged]
  have exits : (t.exiting site).run w₄ = .ok (.ok ()) { w₄ with memory := m } := by
    simp [Tracer.exiting, unset, Tracker.closeFrame, memory, closed]
  have closes : ((⟨.active t, l.method, none⟩ : Guard P).close exec site 0).run w₄ =
      .ok () { w₄ with memory := m } := by
    simp [Guard.close, Guard.reportTimeout, Monitor.exiting, exits, Guard.logFailure]
  refine ⟨{ w₄ with memory := m }, ?_, ?_, rfl, throttles, desks⟩
  · simp only [traced, Guard.enter, Monitor.entering, Run.run_bind, entered, Run.andThen_ok, Run.run_pure]
    refine Panic.run_closingAfter ?_ closes
    rw [Run.run_bind, ran, Run.andThen_ok, results]
  · simp [Layer.fail, results, closes]

/-! ## From layer to layer -/

section
variable {crew : List String} {mine : Thread → Prop} {e : ErrorRef} {frames : List (Picture Unit)}
variable {before later : List Event}

theorem Tracer.Tried.congr {cause : Cause} {x : World P} (tried : t.Tried site.thread cause frames x later v)
    (same : u.throttles = v.throttles) : t.Tried site.thread cause frames x later u := by
  cases tried with
  | rejected asked spent => exact .rejected asked (same.trans spent)
  | reported asked shows => exact .reported asked shows

theorem Tracer.Passed.congr {x : World P} (passed : t.Passed site.thread e frames before x later v)
    (same : u.throttles = v.throttles) : t.Passed site.thread e frames before x later u := by
  cases passed with
  | tried new tried => exact .tried new (tried.congr same)
  | skipped known spent => exact .skipped known (same.trans spent)

/-- The error is the remembered one from the moment on at which it is let through. -/
theorem Tracer.Outcome.remembered (outcome : Outcome crew mine t site (.error e) w later v)
    (fresh : ((w.desk site.thread).known t.name).remembered.any (·.same e) = false) :
    ((v.desk site.thread).known t.name).remembered.any (·.same e) = true ↔ Admitted t.name site.thread later := by
  rw [outcome.known]
  cases outcome.tried with
  | rejected asked => simp [asked, fresh, Admitted]
  | reported asked => simp [asked, Admitted, nextTrigger, Trigger.error?, ErrorRef.same]

/-- What the layer around them makes of an error that came out of other layers: if it was not let through
    yet, the throttle is asked about it once more, and otherwise it is the error reported last. -/
theorem Tracer.onError_passes (method : String) (recorded : AllRecorded crew mine v) (on : mine site.thread)
    (member : t.name ∈ crew) (idle : t.name ∉ (v.desk site.thread).chain)
    (memory : v.memory.Sound (t.tracker.id, site.thread)) (sound : SoundCode crew mine exec)
    (returns : Returns exec t site)
    (remembered : ((v.desk site.thread).known t.name).remembered.any (·.same e) = true ↔
      Admitted t.name site.thread before) :
    ∃ r x later, (t.onError exec site method e).run v = .ok r x ∧
      t.Passed site.thread e (t.framesOf site v) before v later x ∧ Continuing crew mine v x ∧
      Memory.Undisturbed (t.tracker.id, site.thread) v.memory x.memory ∧
      (x.desk site.thread).history t.name = (v.desk site.thread).history t.name ++ later ∧
      (((x.desk site.thread).known t.name).remembered.any (·.same e) = true ↔
        Admitted t.name site.thread (before ++ later)) := by
  cases known : ((v.desk site.thread).known t.name).remembered.any (·.same e) with
  | true =>
    have unset : (v.reportingOf t.name site.thread).processing = false := (recorded _ on).idle idle
    refine ⟨_, _, [], run_onError_dropped unset known, .skipped (remembered.mp known) rfl, ?_, .refl _ _, ?_, ?_⟩
    · exact .of_desks recorded ((quiet_note rfl).desks v)
    · rw [List.append_nil, quiet_note rfl]
    · rw [List.append_nil, quiet_note rfl]
      exact remembered
  | false =>
    have new : ¬ Admitted t.name site.thread before := fun admitted => by simp [remembered.mpr admitted] at known
    obtain ⟨r, later, x, executed, outcome⟩ := onError_returns recorded on member idle memory sound returns method known
    refine ⟨r, x, later, executed, .tried new outcome.tried, outcome.continuing, outcome.frames, outcome.history, ?_⟩
    rw [outcome.remembered known]
    constructor
    · rintro ⟨trigger, among⟩
      exact ⟨trigger, List.mem_append_right _ among⟩
    · rintro ⟨trigger, among⟩
      rcases List.mem_append.mp among with earlier | among
      · exact absurd ⟨trigger, earlier⟩ new
      · exact ⟨trigger, among⟩

/-- After the layers inside it a layer fills its frame further, and whatever else happens, it finds this frame
    when it is left. -/
theorem Layer.run_resumes (l : Layer P) (limit : Option UInt64) (accepts : t.tracker.refusedVariables = [])
    (on : mine site.thread) (aloof : Aloof mine (t.tracker.id, site.thread) l.meanwhile)
    (continuing : Continuing crew mine w v) (idle : t.name ∉ (v.desk site.thread).chain) {m : Memory P.Code}
    (calling : Memory.Opened (t.tracker.id, site.thread) m l.calling v.memory) :
    ∃ m' x, (Guard.writeAll ⟨.active t, l.method, limit⟩ site l.after).run v = .ok () { v with memory := m' } ∧
      x = l.meanwhile { v with memory := m' } ∧ Memory.Opened (t.tracker.id, site.thread) m l.returning x.memory ∧
      Continuing crew mine w x ∧ x.desk site.thread = v.desk site.thread := by
  have unset : (v.reportingOf t.name site.thread).processing = false := (continuing.allRecorded _ on).idle idle
  obtain ⟨m', wrote, filled⟩ := Guard.run_writeAll limit l.after accepts unset calling
  have returned : Memory.Opened (t.tracker.id, site.thread) m l.returning m' := by
    simpa only [returning, frame, List.filter_append, List.append_assoc] using filled
  obtain ⟨same, untouched⟩ := aloof { v with memory := m' }
  exact ⟨m', _, wrote, rfl, returned.undisturbed untouched, continuing.trans (.of_desks continuing.allRecorded same),
    desks_eq_iff.mp same _ on⟩

/-- Layers return the error, report it as the throttle lets them, and leave the frames as they found them. -/
theorem Tracer.run_nested {α : Type} (mine : Thread → Prop) (on : mine site.thread) (member : t.name ∈ crew)
    (sound : SoundCode crew mine exec) (returns : Returns exec t site)
    (accepts : t.tracker.refusedMethods = [] ∧ t.tracker.refusedVariables = [])
    (layers : List (Layer P)) (named : ∀ l ∈ layers, ∀ p ∈ l.params, p.1 ≠ "")
    (aloof : ∀ l ∈ layers, Aloof mine (t.tracker.id, site.thread) l.meanwhile)
    (recorded : AllRecorded crew mine w) (idle : t.name ∉ (w.desk site.thread).chain)
    (fresh : ((w.desk site.thread).known t.name).remembered.any (·.same e) = false)
    (memory : w.memory.Sound (t.tracker.id, site.thread)) :
    ∃ events u, (t.nested (α := α) exec site e layers).run w = .ok (.error e) u ∧
      LeftInTurn id (Layer.Failed exec t site e) (t.framesOf site w) layers w events u ∧ Continuing crew mine w u ∧
      Memory.Undisturbed (t.tracker.id, site.thread) w.memory u.memory ∧
      (u.desk site.thread).history t.name = (w.desk site.thread).history t.name ++ events ∧
      (((u.desk site.thread).known t.name).remembered.any (·.same e) = true ↔
        Admitted t.name site.thread events) := by
  induction layers generalizing w with
  | nil =>
    refine ⟨[], w, rfl, .none _ w, .of_desks recorded rfl, .refl _ _, (List.append_nil _).symm, ?_⟩
    simp [fresh, Admitted]
  | cons l inner ih =>
    have unset : (w.reportingOf t.name site.thread).processing = false := (recorded _ on).idle idle
    -- The frame of the layer is opened and filled, and the layers inside it run above it.
    obtain ⟨m₁, m₂, entered, wrote, calling⟩ := l.run_opens none memory accepts (named l List.mem_cons_self) unset
    obtain ⟨events, u, ran, inside, continuing, undisturbed, history, remembered⟩ := ih (w := { w with memory := m₂ })
      (fun l member => named l (List.mem_cons_of_mem _ member))
      (fun l member => aloof l (List.mem_cons_of_mem _ member)) recorded idle fresh calling.sound
    rw [framesOf_opened calling] at inside
    -- When these are left, it reports the error while its own frame is open again, and closes it.
    have idleAfter : t.name ∉ (u.desk site.thread).chain := continuing.idle on idle
    obtain ⟨m₃, x, wroteMore, rfl, found, waited, desk⟩ := l.run_resumes none accepts.2 on (aloof l List.mem_cons_self)
      continuing idleAfter (calling.undisturbed undisturbed)
    obtain ⟨r, y, later, reported, passed, continuing', undisturbed', history', remembered'⟩ :=
      onError_passes l.method waited.allRecorded on member (desk ▸ idleAfter) found.sound sound returns
        (desk ▸ remembered)
    rw [framesOf_opened found] at passed
    obtain ⟨m₄, closed, undone⟩ := Memory.closeFrame_undisturbed memory (found.undisturbed undisturbed')
    have idleLast : ((y.desk site.thread).known t.name).processing = false :=
      (continuing' _ on).recorded.idle (continuing'.idle on (desk ▸ idleAfter))
    let body : Guard P → Run P (Except ErrorRef α) := fun g => do
      g.writeAll site l.before
      let result ← t.nested exec site e inner
      g.writeAll site l.after
      modify l.meanwhile
      return result
    have failed : (body ⟨.active t, l.method, none⟩).run { w with memory := m₁ } =
        .ok (.error e) (l.meanwhile { u with memory := m₃ }) := by
      simp [body, wrote, ran, wroteMore]
    obtain ⟨z, executed, left, last, throttles, desks⟩ :=
      run_traced_failed l body entered failed reported idleLast closed
    refine ⟨events ++ later, z, ?_, .around inside ⟨left, passed.congr throttles⟩, ?_, last ▸ undone, ?_, ?_⟩
    · rw [nested, Run.run_bind, executed]
      rfl
    · have same : Desks mine z = Desks mine y := desks_eq_iff.mpr fun thread _ => desks thread
      exact (waited.trans continuing').trans (.of_desks continuing'.allRecorded same)
    · rw [desks, history', desk, ← List.append_assoc]
      exact congrArg (· ++ later) history
    · rw [desks]
      exact remembered'

end

/-- Let traced calls be nested, with named parameters, over a tracker that refuses nothing, while no
    report is built, and let the innermost body fail with a new error. The code of serializers and
    handlers may do whatever code may do, if it returns and leaves the open frames as they are; what
    else happens while a call is open is up to others, so the throttle may decide in any way. Whatever
    comes of a report, the outermost call returns this very error. On its way out the throttle is
    asked once by each layer, the innermost first, until it lets the error through, and by none after
    that. If it does so, the error is reported there: the text shows the frame of this layer, with its
    parameters and variables, above those of the layers around it and those that were open before. In
    the end the same frames are open as before, with the same contents. -/
theorem Tracer.nested_reported_once {α ι : Type} [DecidableEq ι] {crew : List String} {owner : Thread → ι}
    {q : Pool P ι} {e : ErrorRef} (reached : q.Reached crew owner) (member : t.name ∈ crew)
    (code : ConductCode crew (owner · = owner site.thread) exec)
    (returns : Returns exec t site) (accepts : t.tracker.refusedMethods = [] ∧ t.tracker.refusedVariables = [])
    (layers : List (Layer P)) (named : ∀ l ∈ layers, ∀ p ∈ l.params, p.1 ≠ "")
    (aloof : ∀ l ∈ layers, Aloof (owner · = owner site.thread) (t.tracker.id, site.thread) l.meanwhile)
    (idle : (q.world.reportingOf t.name site.thread).processing = false)
    (fresh : (q.world.reportingOf t.name site.thread).remembered.any (·.same e) = false) :
    ∃ events u, (t.nested (α := α) exec site e layers).run q.world = .ok (.error e) u ∧
      (u.desk site.thread).history t.name = (q.world.desk site.thread).history t.name ++ events ∧
      LeftInTurn id (Layer.Failed exec t site e) (t.framesOf site q.world) layers q.world events u ∧
      Memory.Undisturbed (t.tracker.id, site.thread) q.world.memory u.memory := by
  have free : t.name ∉ (q.world.desk site.thread).chain := (reached.recorded site.thread).free idle
  obtain ⟨events, u, executed, left, _, undisturbed, history, _⟩ := run_nested (owner · = owner site.thread) rfl member
    code.sound returns accepts layers named aloof (reached.allRecorded _) free fresh (reached.made.sound _)
  exact ⟨events, u, executed, history, left, undisturbed⟩

namespace Sample

/-- A throttle that decides as planned. -/
def plan (decisions : List Bool) (w : World program) : World program :=
  { w with throttles := w.throttles.insert (.named "plan") (.planned decisions) }

/-- The tracer, with a throttle that has a plan. -/
def planned : Tracer program := { tracer with throttle := some (.named "plan") }

theorem reached_plan (decisions : List Bool) :
    ∃ strand : Unit → Run program Unit, Pool.Reached ["tracer"] (fun _ => ()) ⟨strand, plan decisions start⟩ := by
  have conducts : Conduct ["tracer"] (fun _ => () = ()) (modify (plan decisions) : Run program Unit) :=
    .act (fun _ _ => rfl) (.of_memory fun _ => rfl) fun _ => .done ()
  exact ⟨_, ⟨0, 0⟩, start.stamp, (), fun _ => modify (plan decisions), fun _ => conducts,
    Pool.reaches_after ⟨fun _ => modify (plan decisions), start⟩ () 1⟩

theorem returns_exec (t : Tracer program) (named : t.name = "tracer") : Returns Sample.exec t Sample.site := by
  intro c w processing
  rw [named] at processing
  have busy : (w.reportingOf "tracer" "main").processing = true := processing
  refine ⟨w.note (.logged ⟨.debug, .tracer, Tracer.errorWording.ignored, [("method", "inner")]⟩), ?_, .refl _ _⟩
  simp [Sample.exec, Tracer.call, Tracer.onError, Tracer.run_isProcessing, Sample.tracer, Sample.site, busy]

/-- Two calls, with a parameter and with a variable. -/
def layers : List (Layer program) :=
  [⟨none, "outer", [("order", ⟨0, .text "A-17"⟩)], [], [], id⟩,
    ⟨none, "inner", [], [("step", ⟨1, .text "pay"⟩)], [], id⟩]

end Sample

open Sample in
/-- An error that passes through two traced calls. The throttle lets it through when it is asked by the
    outer one, whose report shows its own frame only. -/
theorem Tracer.nested_reported_once_sample :
    let trigger : Nat → Trigger := fun n => ⟨start.stamp n, .own "tracer", .error error⟩
    let report := "Snaperr - state snapshot of error 'broken': [\n\tnull.outer \x7b\n\t\torder=A-17\n\t\x7d\n]"
    let events : List Event := [.asked "tracer" "main" (trigger 0) false, .asked "tracer" "main" (trigger 1) true,
      .writing "tracer" "main" (trigger 1) [⟨none, "outer", [("order", ⟨0, .text "A-17"⟩)]⟩],
      .written "tracer" "main" (.ok report), .delivering "tracer" "main" .error report, .ended "tracer" "main"]
    ∃ u, (planned.nested (α := Unit) Sample.exec Sample.site error layers).run (plan [false, true] start) =
        .ok (.error error) u ∧ (u.desk "main").history "tracer" = events ∧
      LeftInTurn id (Layer.Failed Sample.exec planned Sample.site error) [] layers (plan [false, true] start) events u := by
  intro trigger report events
  obtain ⟨strand, reached⟩ := reached_plan [false, true]
  have named : ∀ l ∈ layers, ∀ p ∈ l.params, p.1 ≠ "" := by simp [layers]
  have aloof : ∀ l ∈ layers, Aloof (fun _ => () = ()) (planned.tracker.id, Sample.site.thread) l.meanwhile := by
    simp only [layers, List.mem_cons, List.not_mem_nil, or_false, forall_eq_or_imp, forall_eq]
    exact ⟨fun _ => ⟨rfl, .refl _ _⟩, fun _ => ⟨rfl, .refl _ _⟩⟩
  obtain ⟨told, u, executed, history, left, _⟩ := nested_reported_once (α := Unit) (e := error) reached (by decide)
    (conductCode_exec rfl) (returns_exec planned rfl) ⟨rfl, rfl⟩ layers named aloof rfl rfl
  have computed : ∃ v, (planned.nested (α := Unit) Sample.exec Sample.site error layers).run (plan [false, true] start) =
      .ok (.error error) v ∧ (v.desk "main").history "tracer" = events := ⟨_, rfl, rfl⟩
  obtain ⟨v, same, shown⟩ := computed
  obtain ⟨_, rfl⟩ := EStateM.Result.ok.inj (executed.symm.trans same)
  obtain rfl : events = told := shown.symm.trans history
  exact ⟨u, executed, shown, left⟩

end FaultSnapshot
