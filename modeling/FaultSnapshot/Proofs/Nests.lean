import FaultSnapshot.Proofs.Propagation

/-!
# Guards in one another

A guard is dropped before those around it, and reports a timeout first if its frame was open for too
long. However the throttle decides, and whatever comes of a report, the guards around it find their
own frames again. So the throttle is asked once about each guard that took too long, and what it lets
through is reported with the frames that the drop of this guard finds (`Guard.nested_timeouts`).
-/

namespace FaultSnapshot

variable {P : Program}

/-- One of several guards in one another: its frame, its limit, where it has one, and how long it was open
    in the end. -/
structure TimedLayer (P : Program) extends Layer P where
  limitMs : Option UInt64
  elapsedMs : UInt64

/-- Guards in one another, the outermost first. Each one is dropped after those inside it. -/
def Guard.nested (exec : Exec P) (t : Tracer P) (site : Site) : List (TimedLayer P) → Run P (Except Fault Unit)
  | [] => return .ok ()
  | l :: inner => do
    match ← Guard.enter (.active t) site l.owner l.method l.params with
    | .error f => return .error f
    | .ok g =>
      let g : Guard P := { g with thresholdMs := l.limitMs }
      Panic.closingAfter (do
        g.writeAll site l.before
        let opened ← nested exec t site inner
        g.writeAll site l.after
        modify l.meanwhile
        return opened) (g.close exec site l.elapsedMs)

/-- What comes of the times of a frame in the world `x`, while the frames are open. Only if the frame was
    open for longer than its limit, the throttle is asked. -/
inductive Tracer.Timed (t : Tracer P) (thread : Thread) (limit : Option UInt64) (elapsedMs : UInt64)
    (frames : List (Picture Unit)) (x : World P) : List Event → World P → Prop
  | inTime {u : World P} (within : ∀ limitMs, limit = some limitMs → elapsedMs ≤ limitMs)
      (spent : u.throttles = x.throttles) : Timed t thread limit elapsedMs frames x [] u
  | late {limitMs : UInt64} {events : List Event} {u : World P} (limited : limit = some limitMs)
      (longer : limitMs < elapsedMs) (tried : t.Tried thread (.timeout limitMs elapsedMs) frames x events u) :
      Timed t thread limit elapsedMs frames x events u

/-- The guard of a layer is dropped in the world `x`, which ends in `u`, whatever came of the layers inside
    it. -/
structure TimedLayer.Dropped (exec : Exec P) (t : Tracer P) (site : Site) (l : TimedLayer P)
    (frames : List (Picture Unit)) (_before : List Event) (x : World P) (later : List Event) (u : World P) : Prop where
  ran : (Guard.close exec ⟨.active t, l.method, l.limitMs⟩ site l.elapsedMs).run x = .ok () u
  timed : t.Timed site.thread l.limitMs l.elapsedMs frames x later u

variable {crew : List String} {mine : Thread → Prop} {t : Tracer P} {exec : Exec P} {site : Site}
variable {w v u : World P} {limit : Option UInt64} {elapsedMs : UInt64} {events : List Event}

theorem Tracer.Timed.congr {frames : List (Picture Unit)} {x : World P}
    (timed : t.Timed site.thread limit elapsedMs frames x events v) (same : u.throttles = v.throttles) :
    t.Timed site.thread limit elapsedMs frames x events u := by
  cases timed with
  | inTime within spent => exact .inTime within (same.trans spent)
  | late limited longer tried => exact .late limited longer (tried.congr same)

namespace Guard

variable {m : Memory P.Code} {p : Picture P.Code}

section
variable (method : String) (limit : Option UInt64) (elapsedMs : UInt64) (recorded : AllRecorded crew mine v)
variable (on : mine site.thread) (member : t.name ∈ crew) (idle : t.name ∉ (v.desk site.thread).chain)
variable (sound : SoundCode crew mine exec) (returns : Returns exec t site)
include recorded on member idle sound returns

/-- A guard asks about a timeout if its frame was open for too long, and leaves the open frames alone. -/
theorem run_reportTimeout (memory : v.memory.Sound (t.tracker.id, site.thread)) :
    ∃ events x, (reportTimeout exec ⟨.active t, method, limit⟩ site elapsedMs).run v = .ok () x ∧
      t.Timed site.thread limit elapsedMs (t.framesOf site v) v events x ∧ Continuing crew mine v x ∧
      Memory.Undisturbed (t.tracker.id, site.thread) v.memory x.memory ∧
      (x.desk site.thread).history t.name = (v.desk site.thread).history t.name ++ events := by
  have still : Continuing crew mine v v := .of_desks recorded rfl
  cases limit with
  | none => exact ⟨[], v, rfl, .inTime (fun _ never => nomatch never) rfl, still, .refl _ _, by simp⟩
  | some limitMs =>
    by_cases late : limitMs < elapsedMs
    · obtain ⟨r, events, x, executed, outcome⟩ := Tracer.timeout_returns recorded on member idle memory sound returns
        method limitMs elapsedMs
      obtain ⟨y, logged, same, throttles, desks⟩ := run_logFailure method "Failed to report timeout: " r x
      have desk : Desks mine y = Desks mine x := desks_eq_iff.mpr fun thread _ => desks thread
      refine ⟨events, y, ?_, .late rfl late (outcome.tried.congr throttles), ?_, same ▸ outcome.frames, ?_⟩
      · simp [reportTimeout, late, Monitor.timeout, executed, logged]
      · exact outcome.continuing.trans (.of_desks outcome.continuing.allRecorded desk)
      · rw [desks, outcome.history]
    · refine ⟨[], v, by simp [reportTimeout, late], .inTime ?_ rfl, still, .refl _ _, by simp⟩
      rintro _ ⟨⟩
      exact UInt64.not_lt.mp late

/-- A guard is dropped: it asks about a timeout while its frame is open, and closes it in any case. -/
theorem run_close (memory : m.Sound (t.tracker.id, site.thread))
    (opened : Memory.Opened (t.tracker.id, site.thread) m p v.memory) :
    ∃ events x, (close exec ⟨.active t, method, limit⟩ site elapsedMs).run v = .ok () x ∧
      t.Timed site.thread limit elapsedMs (t.framesOf site v) v events x ∧ Continuing crew mine v x ∧
      Memory.Undisturbed (t.tracker.id, site.thread) m x.memory ∧
      (x.desk site.thread).history t.name = (v.desk site.thread).history t.name ++ events := by
  obtain ⟨events, x, reported, timed, continuing, undisturbed, history⟩ :=
    run_reportTimeout method limit elapsedMs recorded on member idle sound returns opened.sound
  obtain ⟨m', closed, undone⟩ := Memory.closeFrame_undisturbed memory (opened.undisturbed undisturbed)
  have unset : (x.reportingOf t.name site.thread).processing = false :=
    (continuing _ on).recorded.idle (continuing.idle on idle)
  have exits : (t.exiting site).run x = .ok (.ok ()) { x with memory := m' } := by
    simp [Tracer.exiting, unset, Tracker.closeFrame, closed]
  refine ⟨events, { x with memory := m' }, ?_, timed.congr rfl, ?_, undone, history⟩
  · simp [close, reported, Monitor.exiting, exits, logFailure]
  · exact continuing.trans (.of_desks continuing.allRecorded rfl)

end

end Guard

/-- Guards in one another are dropped in turn, and leave the frames as they found them. -/
theorem Guard.run_nested (mine : Thread → Prop) (on : mine site.thread) (member : t.name ∈ crew)
    (sound : SoundCode crew mine exec) (returns : Returns exec t site)
    (accepts : t.tracker.refusedMethods = [] ∧ t.tracker.refusedVariables = [])
    (layers : List (TimedLayer P)) (named : ∀ l ∈ layers, ∀ p ∈ l.params, p.1 ≠ "")
    (aloof : ∀ l ∈ layers, Aloof mine (t.tracker.id, site.thread) l.meanwhile)
    (recorded : AllRecorded crew mine w) (idle : t.name ∉ (w.desk site.thread).chain)
    (memory : w.memory.Sound (t.tracker.id, site.thread)) :
    ∃ events u, (nested exec t site layers).run w = .ok (.ok ()) u ∧
      LeftInTurn TimedLayer.toLayer (TimedLayer.Dropped exec t site) (t.framesOf site w) layers w events u ∧
      Continuing crew mine w u ∧ Memory.Undisturbed (t.tracker.id, site.thread) w.memory u.memory ∧
      (u.desk site.thread).history t.name = (w.desk site.thread).history t.name ++ events := by
  induction layers generalizing w with
  | nil => exact ⟨[], w, rfl, .none _ w, .of_desks recorded rfl, .refl _ _, by simp⟩
  | cons l inner ih =>
    have unset : (w.reportingOf t.name site.thread).processing = false := (recorded _ on).idle idle
    -- The guard is opened, and the guards inside it come and go above its frame.
    obtain ⟨m₁, m₂, entered, wrote, calling⟩ := l.run_opens l.limitMs memory accepts (named l List.mem_cons_self) unset
    obtain ⟨events, u, ran, inside, continuing, undisturbed, history⟩ := ih (w := { w with memory := m₂ })
      (fun l member => named l (List.mem_cons_of_mem _ member))
      (fun l member => aloof l (List.mem_cons_of_mem _ member)) recorded idle calling.sound
    rw [Tracer.framesOf_opened calling] at inside
    -- The guard finds its own frame when it is dropped.
    obtain ⟨m₃, x, wroteMore, rfl, found, waited, desk⟩ := l.run_resumes l.limitMs accepts.2 on
      (aloof l List.mem_cons_self) continuing (continuing.idle on idle) (calling.undisturbed undisturbed)
    obtain ⟨later, z, closed, timed, continuing', undone, history'⟩ := run_close l.method l.limitMs l.elapsedMs
      waited.allRecorded on member (waited.idle on idle) sound returns memory found
    rw [Tracer.framesOf_opened found] at timed
    refine ⟨events ++ later, z, ?_, .around inside ⟨closed, timed⟩, waited.trans continuing', undone, ?_⟩
    · simp only [nested, enter, Monitor.entering, Run.run_bind, entered, Run.andThen_ok, Run.run_pure]
      refine Panic.run_closingAfter ?_ closed
      simp [wrote, ran, wroteMore]
    · rw [history', desk, ← List.append_assoc]
      exact congrArg (· ++ later) history

/-- Let guards be opened in one another, with named parameters, over a tracker that refuses nothing,
    while no report is built, and let each be dropped after those inside it. The code of serializers
    and handlers may do whatever code may do, if it returns and leaves the open frames as they are;
    what else happens while a guard is open is up to others, so the throttle may decide in any way.
    Then the throttle is asked about just those guards that have a limit and were open for longer,
    once about each, the innermost first. What it lets through is reported with the limit and the
    time of the guard, and the text shows the frame of the guard above those of the guards around it
    and those that were open before. In the end the same frames are open as before, with the same
    contents, whatever came of the reports. -/
theorem Guard.nested_timeouts {ι : Type} [DecidableEq ι] {owner : Thread → ι} {q : Pool P ι}
    (reached : q.Reached crew owner) (member : t.name ∈ crew)
    (code : ConductCode crew (owner · = owner site.thread) exec) (returns : Returns exec t site)
    (accepts : t.tracker.refusedMethods = [] ∧ t.tracker.refusedVariables = [])
    (layers : List (TimedLayer P)) (named : ∀ l ∈ layers, ∀ p ∈ l.params, p.1 ≠ "")
    (aloof : ∀ l ∈ layers, Aloof (owner · = owner site.thread) (t.tracker.id, site.thread) l.meanwhile)
    (idle : (q.world.reportingOf t.name site.thread).processing = false) :
    ∃ events u, (nested exec t site layers).run q.world = .ok (.ok ()) u ∧
      (u.desk site.thread).history t.name = (q.world.desk site.thread).history t.name ++ events ∧
      LeftInTurn TimedLayer.toLayer (TimedLayer.Dropped exec t site) (t.framesOf site q.world) layers q.world events u ∧
      Memory.Undisturbed (t.tracker.id, site.thread) q.world.memory u.memory := by
  have free : t.name ∉ (q.world.desk site.thread).chain := (reached.recorded site.thread).free idle
  obtain ⟨events, u, executed, left, _, undisturbed, history⟩ := run_nested (owner · = owner site.thread) rfl member
    code.sound returns accepts layers named aloof (reached.allRecorded _) free (reached.made.sound _)
  exact ⟨events, u, executed, history, left, undisturbed⟩

namespace Sample

/-- Time passes. -/
def wait (w : World program) : World program := { w with clocks := ⟨w.clocks.manual + 5, w.clocks.system⟩ }

/-- The frames of two guards, of which only the outer one is open for longer than its limit. -/
def timedLayers : List (TimedLayer program) :=
  [⟨⟨none, "outer", [("order", ⟨0, .text "A-17"⟩)], [], [], wait⟩, some 10, 25⟩,
    ⟨⟨none, "inner", [], [("step", ⟨1, .text "pay"⟩)], [], wait⟩, some 5, 5⟩]

end Sample

open Sample in
/-- The report of the outer guard does not show the frame of the inner one, which is closed by then. -/
theorem Guard.nested_timeouts_sample :
    let trigger : Trigger := ⟨start.stamp 0, .own "tracer", .timeout 10 25⟩
    let report := "Snaperr - state snapshot of timeout (threshold 10ms, actual 25ms): [\n" ++
      "\tnull.outer \x7b\n\t\torder=A-17\n\t\x7d\n]"
    let events : List Event := [.asked "tracer" "main" trigger true,
      .writing "tracer" "main" trigger [⟨none, "outer", [("order", ⟨0, .text "A-17"⟩)]⟩],
      .written "tracer" "main" (.ok report), .delivering "tracer" "main" .timeout report, .ended "tracer" "main"]
    ∃ u, (nested Sample.exec planned Sample.site timedLayers).run (plan [true] start) = .ok (.ok ()) u ∧
      (u.desk "main").history "tracer" = events ∧ LeftInTurn TimedLayer.toLayer
        (TimedLayer.Dropped Sample.exec planned Sample.site) [] timedLayers (plan [true] start) events u := by
  intro trigger report events
  obtain ⟨strand, reached⟩ := reached_plan [true]
  have named : ∀ l ∈ timedLayers, ∀ p ∈ l.params, p.1 ≠ "" := by simp [timedLayers]
  have aloof : ∀ l ∈ timedLayers, Aloof (fun _ => () = ()) (planned.tracker.id, Sample.site.thread) l.meanwhile := by
    simp only [timedLayers, List.mem_cons, List.not_mem_nil, or_false, forall_eq_or_imp, forall_eq]
    exact ⟨fun _ => ⟨rfl, .refl _ _⟩, fun _ => ⟨rfl, .refl _ _⟩⟩
  obtain ⟨told, u, executed, history, left, _⟩ := nested_timeouts reached (by decide)
    (conductCode_exec rfl) (returns_exec planned rfl) ⟨rfl, rfl⟩ timedLayers named aloof rfl
  have computed : ∃ v, (nested Sample.exec planned Sample.site timedLayers).run (plan [true] start) = .ok (.ok ()) v ∧
      (v.desk "main").history "tracer" = events := ⟨_, rfl, rfl⟩
  obtain ⟨v, same, shown⟩ := computed
  obtain ⟨_, rfl⟩ := EStateM.Result.ok.inj (executed.symm.trans same)
  obtain rfl : events = told := shown.symm.trans history
  exact ⟨u, executed, shown, left⟩

end FaultSnapshot
