import FaultSnapshot.Proofs.Alone
import FaultSnapshot.Proofs.Scenarios

/-!
# Sessions as code

A session is code that uses its own tracers only, so all that holds for any code holds at each
moment of a session (`Scenario.Session.reached`). After every step of a session no tracer builds a
report (`Scenario.Session.idle_after_steps`).
-/

namespace FaultSnapshot.Scenario

variable {crew : List String} {mine : Thread → Prop}

namespace MonitorSpec

theorem conduct_make (name : String) (spec : MonitorSpec) : Conduct crew mine (spec.make name) := by
  cases spec with
  | silent => exact .pure _
  | assembled s =>
    refine .bind (.bind .log fun _ => .bind (.modify ?_ ?_) fun _ => .pure _) fun _ => .pure _
    · intro _ _
      exact rfl
    · intro _
      exact rfl
  | parts p => exact .bind (.bind conduct_tracker fun _ => .pure _) fun _ => .pure _

/-- A monitor has the name that it was made for. -/
theorem yields_make {name : String} (member : name ∈ crew) (spec : MonitorSpec) :
    (spec.make name).Yields (·.Enlisted crew) := by
  cases spec with
  | silent => exact trivial
  | assembled s =>
    intro _ _
    exact member
  | parts p =>
    intro _
    exact member

end MonitorSpec

namespace Session

/-- The names of the tracers of a session. -/
def tracers (s : Session) : List String := s.monitors.map Prod.fst

variable (s : Session)

theorem conduct_setUp : Conduct crew mine s.setUp := by
  refine .bind (.forIn fun _ _ => .bind (.modify (fun _ _ => rfl) fun _ => rfl) fun _ => .pure _) ?_
  intro _
  refine .bind (.mapM fun e _ => .bind (e.2.conduct_make e.1) fun _ => .pure _) ?_
  intro monitors
  refine .bind (.mapM fun name _ => conduct_lookup) ?_
  intro ms
  refine .bind (.foldlM fun hooks m => .bind .log fun _ => .pure _) ?_
  intro hooks
  exact .bind (.modify (fun _ _ => rfl) fun _ => rfl) fun _ => .pure _

/-- The stage of a session has its own tracers only. -/
theorem yields_setUp : s.setUp.Yields (·.Enlists s.tracers) := by
  refine (Run.Yields.trivial _).bind ?_
  intro _ _
  have named : ∀ e ∈ s.monitors.mergeSort (fun a b => a.1 ≤ b.1), e.1 ∈ s.tracers := fun e member =>
    List.mem_map_of_mem (List.mem_mergeSort.mp member)
  have made : (List.mapM (fun e => return (e.1, ← e.2.make e.1)) (s.monitors.mergeSort fun a b => a.1 ≤ b.1) :
      Play Monitors).Yields (Enlisting s.tracers) :=
    .mapM fun e member => (e.2.yields_make (named e member)).bind fun m enlisted => enlisted
  refine made.bind ?_
  intro monitors enlisting
  have found : (s.hooks.mapM (monitor monitors)).Yields fun ms => ∀ m ∈ ms, m.Enlisted s.tracers :=
    .mapM fun name _ => yields_monitor enlisting
  refine found.bind ?_
  intro ms hooked
  have installed : (ms.foldlM Panic.install []).Yields fun hooks => ∀ m ∈ hooks, m.Enlisted s.tracers := by
    refine .foldlM (fun m member => absurd member List.not_mem_nil) ?_
    intro m member hooks before _ other among
    rcases List.mem_append.mp among with among | last
    · exact before other among
    · exact List.mem_singleton.mp last ▸ hooked m member
  refine installed.bind ?_
  intro hooks enlisted _
  exact ⟨enlisting, enlisted⟩

/-! ## Steps of a session -/

section
variable {stage : Stage} (enlists : stage.Enlists crew)
include enlists

theorem conduct_performTop (site : Site) (action : Action) :
    Conduct crew (fun _ => True) (performTop stage site action) := by
  have play : Runs crew (fun _ => True) (play stage nesting) := conduct_play enlists (fun _ => trivial) nesting
  refine .bind (Panic.conduct_catching (play site none _ .none)) ?_
  intro r
  cases r with
  | ok answer => exact .pure _
  | error payload => exact .pure _

theorem conduct_observe (step : Step) : Conduct crew (fun _ => True) (observe stage step) := by
  obtain ⟨label, thread, action⟩ := step
  refine .bind (.modify (fun _ _ => rfl) fun _ => rfl) fun _ => .bind .get fun _ => ?_
  refine .bind (conduct_performTop enlists _ action) fun _ => .bind .get fun _ => ?_
  refine .bind (.bind .get fun _ => .pure _) fun _ => .bind (.bind .get fun _ => .pure _) ?_
  intro _
  refine .bind (.bind (.filterM fun e => ?_) fun _ => .pure _) fun _ => .pure _
  exact Monitor.conduct_isProcessing

end

theorem conduct_run : Conduct s.tracers (fun _ => True) s.run := by
  refine .bind_yields s.conduct_setUp s.yields_setUp fun stage enlists => .bind .get fun _ => ?_
  exact .bind (.mapM fun step _ => conduct_observe enlists step) fun _ => .bind .get fun _ => .pure _

/-- What holds whenever code of these tracers runs holds after any number of steps of a session. -/
theorem reached (n : Nat) :
    let left := Run.after (discard s.run) (.start s.clocks s.stamp default) n
    Pool.Reached s.tracers (fun _ => ()) ⟨fun _ => left.1, left.2⟩ := by
  intro left
  have steps := Pool.reaches_after ⟨fun _ : Unit => discard s.run, .start s.clocks s.stamp default⟩ () n
  have whole : Conduct s.tracers (fun _ => True) (discard s.run) := .bind s.conduct_run fun _ => .pure _
  refine ⟨s.clocks, s.stamp, default, fun _ => discard s.run, ?_, ?_⟩
  · intro _
    simpa using whole
  · have only : Function.update (fun _ : Unit => discard s.run) () left.1 = fun _ => left.1 := by
      funext i
      exact Function.update_self _ _ _
    exact only ▸ steps

/-! ## Between the steps -/

/-- No tracer builds a report. -/
def Idle (crew : List String) (w : World program) : Prop :=
  AllRecorded crew (fun _ => True) w ∧ ∀ thread, (w.desk thread).chain = []

theorem Idle.after {α : Type} {m : Play α} {w v : World program} {a : α} (idle : Idle crew w)
    (conduct : Conduct crew (fun _ => True) m) (executed : m.run w = .ok a v) : Idle crew v := by
  have continuing := (conduct.sound w idle.1).ends (.of_run executed)
  refine ⟨continuing.allRecorded, ?_⟩
  intro thread
  exact (continuing thread trivial).same.trans (idle.2 thread)

theorem Idle.start : Idle crew (.start s.clocks s.stamp default) :=
  ⟨fun thread _ => World.recorded_start crew _ _ _ thread, fun _ => rfl⟩

theorem Idle.run_processing {stage : Stage} {w : World program} (idle : Idle crew w) (thread : Thread) :
    (processing stage thread).run w = .ok [] w := by
  have silent : ∀ m : Monitor program, (m.isProcessing thread).run w = .ok false w := by
    intro m
    cases m with
    | silent => rfl
    | active t =>
      have unset : (w.reportingOf t.name thread).processing = false :=
        (idle.1 thread trivial).idle (by simp [idle.2 thread])
      simp [Monitor.isProcessing, unset]
  have none : ∀ kept : Monitors,
      (stage.monitors.filterAuxM (fun e => e.2.isProcessing thread) kept : Play Monitors).run w = .ok kept w := by
    intro kept
    induction stage.monitors with
    | nil => rfl
    | cons e rest ih => simpa [List.filterAuxM, silent] using ih
  simp [processing, List.filterM, none]

theorem Idle.observe {stage : Stage} {step : Step} {w v : World program} {o : Outcome} (idle : Idle crew w)
    (enlists : stage.Enlists crew) (executed : (observe stage step).run w = .ok o v) :
    o.processing = [] ∧ Idle crew v := by
  refine ⟨?_, idle.after (conduct_observe enlists step) executed⟩
  obtain ⟨label, thread, action⟩ := step
  simp only [Session.observe, Run.run_bind, Run.run_modify, Run.andThen_ok, Run.run_get] at executed
  rw [← Run.run_bind] at executed
  obtain ⟨answer, u, performed, seen⟩ := Run.run_bind_ok executed
  have begun : Idle crew { w with state := { w.state with nested := #[] } } := idle
  have ended := begun.after (conduct_performTop enlists _ action) performed
  simp [namedDepths, tracerDepths, ended.run_processing] at seen
  rw [← seen.1]

theorem Idle.observeAll {stage : Stage} {steps : List Step} {w v : World program} {outcomes : List Outcome}
    (idle : Idle crew w) (enlists : stage.Enlists crew)
    (executed : (steps.mapM (Session.observe stage)).run w = .ok outcomes v) : ∀ o ∈ outcomes, o.processing = [] := by
  induction steps generalizing w outcomes with
  | nil =>
    cases executed
    intro o member
    exact absurd member List.not_mem_nil
  | cons step steps ih =>
    rw [List.mapM_cons] at executed
    obtain ⟨o, u, first, executed⟩ := Run.run_bind_ok executed
    obtain ⟨later, x, rest, executed⟩ := Run.run_bind_ok executed
    obtain ⟨unset, idle⟩ := idle.observe enlists first
    cases executed
    exact List.forall_mem_cons.mpr ⟨unset, ih idle rest⟩

/-- After each step of a session, however it ended, no tracer builds a report. -/
theorem idle_after_steps (p : Performance) (performed : s.perform? = some p) : ∀ o ∈ p.outcomes, o.processing = [] := by
  unfold perform? at performed
  cases executed : s.run.run (.start s.clocks s.stamp default) with
  | error e v => simp [executed] at performed
  | ok q v =>
    rw [executed] at performed
    cases performed
    obtain ⟨stage, u, prepared, executed⟩ := Run.run_bind_ok executed
    obtain ⟨_, _, ⟨⟩, executed⟩ := Run.run_bind_ok executed
    obtain ⟨outcomes, x, observed, executed⟩ := Run.run_bind_ok executed
    cases executed
    have enlists := s.yields_setUp.run prepared
    have start : Idle s.tracers (.start s.clocks s.stamp default) := .start s
    exact (start.after s.conduct_setUp prepared).observeAll enlists observed

end Session

end FaultSnapshot.Scenario
