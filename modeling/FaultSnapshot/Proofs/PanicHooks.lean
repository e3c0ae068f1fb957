import FaultSnapshot.Panic
import FaultSnapshot.Proofs.Memories
import FaultSnapshot.Proofs.Renderings
import FaultSnapshot.Proofs.TriggerHistory

/-!
# What becomes of a panic

The hooks that were installed over a base hook are run one after another, the last one first, while
all frames are open. `Panic.Told` says what each of them does: a tracer that builds a report does
nothing, and any other one asks its throttle about an error made for it, and reports it if it is let
through. Whatever comes of a report, the next hook is run, and the base hook in the end
(`Pool.Reached.panic_told`).
-/

namespace FaultSnapshot

variable {P : Program} {α β : Type} {crew : List String} {mine : Thread → Prop} {thread : Thread}

theorem World.unwindingOf_insert (w : World P) (thread : Thread) (u : Unwinding) :
    World.unwindingOf { w with unwinding := w.unwinding.insert thread u } thread = u := by
  simp [World.unwindingOf]

namespace Panic

/-- The errors that tracers remember on the thread were made before the next one is. -/
def Issued (thread : Thread) (w : World P) : Prop :=
  ∀ tracer e, (w.reportingOf tracer thread).remembered = some e → e.identity < w.errors

/-- What others may do while hooks run on a thread: they keep away from the desks of `mine`, from the
    frames that are open on the thread and from its panics. They may make errors, ask throttles, and
    raise panics of their own. -/
structure Apart (mine : Thread → Prop) (thread : Thread) (w v : World P) : Prop where
  desks : Desks mine v = Desks mine w
  frames : ∀ tracker, Memory.Undisturbed (tracker, thread) w.memory v.memory
  unwinding : v.unwindingOf thread = w.unwindingOf thread
  hookRuns : v.lastHookRuns.count thread = w.lastHookRuns.count thread
  errors : w.errors ≤ v.errors

/-- What others do from one step to the next is `rely`: all of what they may do, or less. -/
structure Others (mine : Thread → Prop) (thread : Thread) (rely : World P → World P → Prop) : Prop where
  refl : ∀ w, rely w w
  trans : ∀ {x y z}, rely x y → rely y z → rely x z
  apart : ∀ {w v}, rely w v → Apart mine thread w v

/-- On the thread the same frames are open in `v` as in `w`, with the same contents, and its panics
    are where they were. -/
structure Scene (thread : Thread) (w v : World P) : Prop where
  frames : ∀ tracker, Memory.Undisturbed (tracker, thread) w.memory v.memory
  unwinding : v.unwindingOf thread = w.unwindingOf thread
  hookRuns : v.lastHookRuns.count thread = w.lastHookRuns.count thread
  errors : w.errors ≤ v.errors
  issued : Issued thread v

/-- Code that runs while the tracer builds a report returns, and leaves the scene as it finds it. -/
def Harmless (rely : World P → World P → Prop) (exec : Exec P) (t : Tracer P) (site : Site) : Prop :=
  ∀ (c : P.Code) (w : World P), (exec site c).Retains rely
    (fun v => Scene site.thread w v ∧ (v.reportingOf t.name site.thread).processing = true) fun _ => True

/-- What a monitor makes of the error of a panic that came in the world `before`, from `w` to `v`. Only a
    tracer that built a report then does nothing. Any other one asks its throttle in the world `x` about
    the trigger that it made in `y`. If this is let through, it is reported, and the text shows the frames
    that were open when the panic came. -/
inductive Hooked (rely : World P → World P → Prop) (thread : Thread) (before : World P) (e : ErrorRef)
    (w v : World P) : Monitor P → Prop
  | silent (same : v.desk thread = w.desk thread) : Hooked rely thread before e w v .silent
  | busy {t : Tracer P} (building : (before.reportingOf t.name thread).processing = true)
      (same : v.desk thread = w.desk thread) : Hooked rely thread before e w v (.active t)
  | rejected {t : Tracer P} {y x : World P} (idle : (before.reportingOf t.name thread).processing = false)
      (made : rely w y) (found : rely { y with triggers := y.triggers + 1 } x) (asked : (x.ask t.throttle).1 = false)
      (history : (v.desk thread).history t.name =
        (w.desk thread).history t.name ++ [.asked t.name thread (t.nextTrigger (.error e) y) false]) :
      Hooked rely thread before e w v (.active t)
  | reported {t : Tracer P} {y x : World P} {events : List Event} {result : Except Fault Unit}
      (idle : (before.reportingOf t.name thread).processing = false)
      (made : rely w y) (found : rely { y with triggers := y.triggers + 1 } x) (asked : (x.ask t.throttle).1 = true)
      (shows : t.ReportShows thread (t.nextTrigger (.error e) y)
        ((before.memory.pictures (t.tracker.id, thread)).map Picture.still) events (.ok result))
      (history : (v.desk thread).history t.name = (w.desk thread).history t.name ++
        .asked t.name thread (t.nextTrigger (.error e) y) true :: (events ++ [.ended t.name thread])) :
      Hooked rely thread before e w v (.active t)

/-- What the hooks of monitors make of a panic that came in the world `before`, one after another. Each
    is run once, with a new error that it makes of the panic in the world `x`. -/
inductive Told (rely : World P → World P → Prop) (exec : Exec P) (site : Site) (before : World P)
    (error : PanicError) : List (Monitor P) → World P → World P → Prop
  | done {w v : World P} (relied : rely w v) : Told rely exec site before error [] w v
  | hook {m : Monitor P} {ms : List (Monitor P)} {w x u v : World P}
      (ran : (report exec site error m).Finishes rely w (.ok ()) u) (found : rely w x) (used : x.errors < u.errors)
      (hooked : Hooked rely site.thread before ⟨x.errors, .panicked error⟩ { x with errors := x.errors + 1 } u m)
      (rest : Told rely exec site before error ms u v) : Told rely exec site before error (m :: ms) w v

def hooking (thread : Thread) (w : World P) : World P :=
  { w with unwinding := w.unwinding.insert thread ⟨(w.unwindingOf thread).depth + 1, true⟩ }

variable {rely : World P → World P → Prop}

/-! ## Scenes -/

namespace Apart

theorem refl (mine : Thread → Prop) (thread : Thread) (w : World P) : Apart mine thread w w :=
  ⟨rfl, fun _ => .refl _ _, rfl, rfl, Nat.le_refl _⟩

theorem trans {w v u : World P} (first : Apart mine thread w v) (later : Apart mine thread v u) :
    Apart mine thread w u where
  desks := later.desks.trans first.desks
  frames tracker := (first.frames tracker).trans (later.frames tracker)
  unwinding := later.unwinding.trans first.unwinding
  hookRuns := later.hookRuns.trans first.hookRuns
  errors := Nat.le_trans first.errors later.errors

theorem desk {w v : World P} (apart : Apart mine thread w v) (on : mine thread) : v.desk thread = w.desk thread :=
  desks_eq_iff.mp apart.desks thread on

theorem reportingOf {w v : World P} (apart : Apart mine thread w v) (on : mine thread) (tracer : String) :
    v.reportingOf tracer thread = w.reportingOf tracer thread :=
  congrArg (fun desk => desk.known tracer) (apart.desk on)

end Apart

/-- Others may do all that they may do, or nothing at all. -/
theorem Others.all (mine : Thread → Prop) (thread : Thread) : Others (P := P) mine thread (Apart mine thread) :=
  ⟨.refl mine thread, .trans, fun apart => apart⟩

theorem Others.none (mine : Thread → Prop) (thread : Thread) : Others (P := P) mine thread Eq :=
  ⟨fun _ => rfl, Eq.trans, fun same => same ▸ .refl mine thread _⟩

namespace Scene

variable {w v u : World P}

theorem start (issued : Issued thread w) : Scene thread w w := ⟨fun _ => .refl _ _, rfl, rfl, Nat.le_refl _, issued⟩

theorem later (scene : Scene thread w v) (on : mine thread) (apart : Apart mine thread v u) : Scene thread w u where
  frames tracker := (scene.frames tracker).trans (apart.frames tracker)
  unwinding := apart.unwinding.trans scene.unwinding
  hookRuns := apart.hookRuns.trans scene.hookRuns
  errors := Nat.le_trans scene.errors apart.errors
  issued tracer e remembered := by
    rw [apart.reportingOf on] at remembered
    exact Nat.lt_of_lt_of_le (scene.issued tracer e remembered) apart.errors

theorem trans (first : Scene thread w v) (later : Scene thread v u) : Scene thread w u where
  frames tracker := (first.frames tracker).trans (later.frames tracker)
  unwinding := later.unwinding.trans first.unwinding
  hookRuns := later.hookRuns.trans first.hookRuns
  errors := Nat.le_trans first.errors later.errors
  issued := later.issued

/-- The rest of the world does not matter. -/
theorem congr (scene : Scene thread w v) (memory : u.memory = v.memory) (panics : u.unwinding = v.unwinding)
    (runs : u.lastHookRuns = v.lastHookRuns) (errors : v.errors ≤ u.errors) (issued : Issued thread u) :
    Scene thread w u where
  frames tracker := by rw [memory]; exact scene.frames tracker
  unwinding := by rw [World.unwindingOf, panics]; exact scene.unwinding
  hookRuns := by rw [runs]; exact scene.hookRuns
  errors := Nat.le_trans scene.errors errors
  issued := issued

theorem aside {change : World P → World P} (aside : Aside change) (scene : Scene thread w v) :
    Scene thread w (change v) := by
  obtain ⟨_, errors, panics, runs⟩ := aside.beside.discreet v
  refine scene.congr (aside.beside.memory v) panics runs (Nat.le_of_eq errors.symm) ?_
  intro tracer e remembered
  rw [aside.known] at remembered
  rw [errors]
  exact scene.issued tracer e remembered

/-- A tracer may come to know another error that was made. -/
theorem setReporting (scene : Scene thread w v) (tracer : String) (known : Reporting)
    (made : ∀ e, known.remembered = some e → e.identity < v.errors) :
    Scene thread w (v.setReporting tracer thread known) := by
  refine scene.congr rfl rfl rfl (Nat.le_refl _) ?_
  intro other e remembered
  have now : ((v.setReporting tracer thread known).desk thread).known other =
      (v.setReporting tracer thread known).reportingOf other thread := rfl
  rw [← now, World.desk_setReporting] at remembered
  by_cases same : other = tracer
  · subst same
    rw [Desk.known_learn_self] at remembered
    exact made e remembered
  · rw [Desk.known_learn_of_ne same] at remembered
    exact scene.issued other e remembered

section
variable (others : Others mine thread rely) (on : mine thread) (t : Tracer P) (w : World P)
include others on

theorem stable : Stable rely fun v => Scene thread w v ∧ (v.reportingOf t.name thread).processing = true where
  refl := others.refl
  kept := by
    rintro v u ⟨scene, processing⟩ relied
    have apart := others.apart relied
    exact ⟨scene.later on apart, (apart.reportingOf on t.name).symm ▸ processing⟩

/-- Code and the parts of a report that run it leave the scene as it is. -/
theorem carried : Carried fun {α} (m : Run P α) => m.Retains rely
    (fun v => Scene thread w v ∧ (v.reportingOf t.name thread).processing = true) fun _ => True where
  done _ := .pure (stable others on t w) trivial
  act aside rest := by
    refine .act (stable others on t w) ?_ fun v _ => rest v
    rintro v ⟨scene, processing⟩
    exact ⟨scene.aside aside, (aside.known v t.name thread).symm ▸ processing⟩
  bind first rest := first.bind (stable others on t w) fun a _ => rest a

end

/-- While a report of the tracer is made, the frames that were open in `w` are open. -/
theorem framesKept {exec : Exec P} {site : Site} {t : Tracer P} (others : Others mine site.thread rely)
    (on : mine site.thread) (memory : w.memory.Sound (t.tracker.id, site.thread))
    (harmless : Harmless rely exec t site) :
    FramesKept rely (fun v => Scene site.thread w v ∧ (v.reportingOf t.name site.thread).processing = true) exec site
      (t.tracker.id, site.thread) w.memory (fun _ => True) where
  toStable := stable others on t w
  code c := harmless c w
  sound := memory
  views _ before := (before.1.frames t.tracker.id).views
  cells _ before := (before.1.frames t.tracker.id).cells
  records _ _ := trivial

end Scene

/-! ## One hook -/

/-- What the hook of a monitor finds when it is run for a panic that came in the world `before`. -/
structure Ready (crew : List String) (mine : Thread → Prop) (thread : Thread) (before w : World P) : Prop where
  recorded : AllRecorded crew mine w
  issued : Issued thread w
  processing : ∀ tracer, (w.reportingOf tracer thread).processing = (before.reportingOf tracer thread).processing
  frames : ∀ tracker, Memory.Undisturbed (tracker, thread) before.memory w.memory
  memory : ∀ tracker, w.memory.Sound (tracker, thread)

/-- What the hook has done when it is over. -/
structure Ending (crew : List String) (mine : Thread → Prop) (rely : World P → World P → Prop) (thread : Thread)
    (before : World P) (e : ErrorRef) (m : Monitor P) (w v : World P) : Prop where
  hooked : Hooked rely thread before e w v m
  scene : Scene thread w v
  continuing : Continuing crew mine w v

section
variable {exec : Exec P} {site : Site} {t : Tracer P} {m : Monitor P} {e : ErrorRef} {before w v u : World P}

theorem Hooked.congr (hooked : Hooked rely thread before e w v m) (same : u.desk thread = v.desk thread) :
    Hooked rely thread before e w u m := by
  cases hooked with
  | silent here => exact .silent (same.trans here)
  | busy building here => exact .busy building (same.trans here)
  | rejected idle made found asked history => exact .rejected idle made found asked (same ▸ history)
  | reported idle made found asked shows history => exact .reported idle made found asked shows (same ▸ history)

theorem Told.later {error : PanicError} {ms : List (Monitor P)} (others : Others mine site.thread rely)
    (told : Told rely exec site before error ms w v) (relied : rely v u) : Told rely exec site before error ms w u := by
  induction told with
  | done here => exact .done (others.trans here relied)
  | hook ran found used hooked _ ih => exact .hook ran found used hooked (ih relied)

/-- What was found when the panic came is found after it, if no report and no frame was touched. -/
theorem Ready.later (ready : Ready crew mine thread before w) (on : mine thread) (scene : Scene thread w v)
    (continuing : Continuing crew mine w v) : Ready crew mine thread before v where
  recorded := continuing.allRecorded
  issued := scene.issued
  processing tracer := by
    have after := (continuing.allRecorded thread on).processing tracer
    rw [(continuing thread on).same] at after
    rw [← ready.processing tracer]
    exact Bool.eq_iff_iff.mpr (after.trans ((ready.recorded thread on).processing tracer).symm)
  frames tracker := (ready.frames tracker).trans (scene.frames tracker)
  memory tracker := (scene.frames tracker).sound (ready.memory tracker)

namespace Ending

theorem later (ending : Ending crew mine rely thread before e m w v) (on : mine thread)
    (apart : Apart mine thread v u) :
    Ending crew mine rely thread before e m w u where
  hooked := ending.hooked.congr (apart.desk on)
  scene := ending.scene.later on apart
  continuing := ending.continuing.trans (.of_desks ending.continuing.allRecorded apart.desks)

/-- A log entry may come at the end. -/
theorem logged (ending : Ending crew mine rely thread before e m w v) (entry : LogEntry) :
    Ending crew mine rely thread before e m w (v.note (.logged entry)) := by
  have quiet : Quiet (P := P) (·.note (.logged entry)) := quiet_note rfl
  constructor
  · exact ending.hooked.congr (quiet v thread)
  · exact ending.scene.aside (.note fun _ => .logged entry)
  · exact ending.continuing.trans (.of_desks ending.continuing.allRecorded (quiet.desks v))

end Ending

section
variable (others : Others mine site.thread rely) (on : mine site.thread)
variable (ready : Ready crew mine site.thread before w)
include others on ready

/-- While a report of the tracer is built, the call is only logged. -/
theorem busy_ending {method : String} {r : Except Interrupt (Except Fault Unit)}
    (building : (before.reportingOf t.name site.thread).processing = true)
    (finishes : (t.onError exec site method e).Finishes rely w r v) :
    ∃ result, r = .ok result ∧ Ending crew mine rely site.thread before e (.active t) w v := by
  have calm : Ending crew mine rely site.thread before e (.active t) w w :=
    ⟨.busy building rfl, .start ready.issued, .of_desks ready.recorded rfl⟩
  obtain ⟨x, relied, later⟩ := finishes.of_read
  have apart := others.apart relied
  have processing : (x.reportingOf t.name site.thread).processing = true := by
    rw [apart.reportingOf on, ready.processing]
    exact building
  rw [if_pos processing] at later
  obtain ⟨y, relied', later⟩ := later.of_step
  obtain ⟨rfl, relied''⟩ := later.of_done
  exact ⟨_, rfl, (((calm.later on apart).later on (others.apart relied')).logged _).later on (others.apart relied'')⟩

section
variable {trigger : Trigger} (own : trigger.tracker = t.tracker.id) (harmless : Harmless rely exec t site)
include own harmless

/-- The text of a report shows the frames that were open when the panic came. -/
theorem finishText_tells : (t.finishText exec site trigger).Retains rely
    (fun v => Scene site.thread w v ∧ (v.reportingOf t.name site.thread).processing = true)
    fun result => ∀ report, result = .ok report → t.serializer.Tells (fun _ => True) trigger
      ((before.memory.pictures (t.tracker.id, site.thread)).map Picture.still) report := by
  have stable := Scene.stable others on t w
  have kept := Scene.framesKept others on (ready.memory t.tracker.id) harmless
  have turn := Tracer.carries_takeTurn (t := t) (Scene.carried others on t w) (fun c => harmless c w) .serializer
  rw [Tracer.finishText_eq]
  refine Run.Retains.bind stable (turn.bind stable ?_) fun result tells => .act stable ?_ fun _ _ => .pure stable tells
  · rintro (_ | f) -
    · refine (t.serializer.write_tells (own ▸ kept)).map stable ?_
      rintro text tells _ ⟨⟩
      rw [own, (ready.frames t.tracker.id).pictures] at tells
      exact tells.still
    · exact .pure stable fun _ never => nomatch never
  · rintro v ⟨scene, processing⟩
    exact ⟨scene.aside (.note fun _ => .written t.name site.thread result), processing⟩

variable (code : SoundCode crew mine exec)
include code

/-- What is left of a report does not touch the scene, and its text shows the frames that were open when
    the panic came. -/
theorem finishReport_shows {method : String} {words : Tracer.Wording} {frames : List (Picture Unit)}
    {r : Except Interrupt (Except Fault Unit)}
    (shown : frames = (before.memory.pictures (t.tracker.id, site.thread)).map Picture.still)
    (scene : Scene site.thread w v)
    (filed : Filed crew mine t.name site.thread trigger w [.writing t.name site.thread trigger frames] v)
    (finishes : (t.finishReport exec site method trigger words).Finishes rely v r u) :
    ∃ result events, r = .ok result ∧ t.ReportShows site.thread trigger frames events r ∧ Scene site.thread w u ∧
      Filed crew mine t.name site.thread trigger w events u := by
  have building : (v.reportingOf t.name site.thread).processing = true := congrArg Reporting.processing filed.known
  have unseen : ∀ w v, rely w v → Desks mine v = Desks mine w := fun _ _ relied => (others.apart relied).desks
  have tells := finishText_tells others on ready own harmless
  obtain ⟨written, x, first, later⟩ | ⟨i, _, first⟩ := finishes.of_bind others.refl
  · obtain ⟨shows, _⟩ := (tells v ⟨scene, building⟩).finishes first
    have noted := (Tracer.finishText_keeps filed on code).ends (first.ends unseen)
    obtain ⟨events, course, texts, filed⟩ := (Tracer.handOver_keeps noted on code).ends (later.ends unseen)
    have ran := (Tracer.carries_finishReport (t := t) (Scene.carried others on t w) (fun c => harmless c w) method
      trigger words v ⟨scene, building⟩).finishes finishes
    cases r with
    | error i => exact ran.elim
    | ok result =>
      refine ⟨result, events, rfl, ⟨course, ?_⟩, ran.2.1, filed⟩
      intro report among
      exact shown ▸ shows report (texts report among)
  · exact ((tells v ⟨scene, building⟩).finishes first).elim

end

section
variable {y x : World P} (idle : (before.reportingOf t.name site.thread).processing = false)
variable (made : rely w y) (found : rely { y with triggers := y.triggers + 1 } x)
include made found

/-- Others do not touch the desks and the scene until the throttle is asked. -/
theorem scene_until_asked :
    Scene site.thread w x ∧ ∀ other, mine other → x.desk other = w.desk other := by
  have reached := (Scene.start ready.issued).later on (others.apart made)
  have counted : Scene site.thread w ({ y with triggers := y.triggers + 1 } : World P) :=
    reached.congr rfl rfl rfl (Nat.le_refl _) reached.issued
  refine ⟨counted.later on (others.apart found), ?_⟩
  exact desks_eq_iff.mp ((others.apart found).desks.trans (others.apart made).desks)

include idle

/-- The throttle does not let the trigger through. -/
theorem rejected_ending (asked : (x.ask t.throttle).1 = false) :
    Ending crew mine rely site.thread before e (.active t) w
      ((x.ask t.throttle).2.note (.asked t.name site.thread (t.nextTrigger (.error e) y) false)) := by
  obtain ⟨scene, same⟩ := scene_until_asked others on ready made found
  have free := (ready.recorded _ on).free ((ready.processing t.name).trans idle)
  constructor
  · exact .rejected idle made found asked (Tracer.rejected_settles _ on same).1
  · exact (scene.aside (.ask t.throttle)).aside
      (.note fun _ => .asked t.name site.thread (t.nextTrigger (.error e) y) false)
  · exact Tracer.rejected_continuing _ ready.recorded free same

/-- What was let through is reported with the frames that are open. -/
theorem reported_ending {method : String} {words : Tracer.Wording} {r : Except Interrupt (Except Fault Unit)}
    (member : t.name ∈ crew) (code : SoundCode crew mine exec) (harmless : Harmless rely exec t site)
    (used : e.identity < w.errors) (asked : (x.ask t.throttle).1 = true)
    (finishes : ((t.build exec site method (t.nextTrigger (.error e) y) words).ensuring
      (t.endReport site.thread)).Finishes rely
        (((x.ask t.throttle).2.note (.asked t.name site.thread (t.nextTrigger (.error e) y) true)).setReporting
          t.name site.thread ⟨true, some e⟩) r v) :
    ∃ result, r = .ok result ∧ Ending crew mine rely site.thread before e (.active t) w v := by
  obtain ⟨scene, same⟩ := scene_until_asked others on ready made found
  have free := (ready.recorded _ on).free ((ready.processing t.name).trans idle)
  have filed := Tracer.admitted_filed (t.nextTrigger (.error e) y) ready.recorded on member free same
  have noted := (scene.aside (.ask t.throttle)).aside
    (.note fun _ => .asked t.name site.thread (t.nextTrigger (.error e) y) true)
  have started := noted.setReporting t.name ⟨true, some e⟩ fun e' remembered =>
    Option.some.inj remembered ▸ Nat.lt_of_lt_of_le used noted.errors
  obtain ⟨u, built, ended⟩ := finishes.of_ensuring
  rw [Tracer.build_eq] at built
  obtain ⟨z, relied, written⟩ := built.of_step
  have apart := others.apart relied
  have here := started.later on apart
  have writing := (filed.congr on apart.desks).noted
    (e := .writing t.name site.thread (t.nextTrigger (.error e) y) ((t.nextTrigger (.error e) y).frames site.thread z))
    rfl ⟨fun _ => rfl, fun _ => by simp⟩
  have shown : (t.nextTrigger (.error e) y).frames site.thread z =
      (before.memory.pictures (t.tracker.id, site.thread)).map Picture.still := by
    have frames := (ready.frames t.tracker.id).trans (here.frames t.tracker.id)
    rw [Trigger.frames]
    exact congrArg (List.map Picture.still) frames.pictures
  have begun := here.aside
    (.note fun x => .writing t.name site.thread (t.nextTrigger (.error e) y)
      ((t.nextTrigger (.error e) y).frames site.thread x))
  obtain ⟨result, events, rfl, shows, scene, filed⟩ :=
    finishReport_shows others on ready rfl harmless code shown begun writing written
  obtain ⟨continuing, history, _⟩ := Tracer.endReport_settles filed
  have closed : Scene site.thread w (u.setReporting t.name site.thread
      ⟨false, (u.reportingOf t.name site.thread).remembered⟩) := scene.setReporting t.name _ (scene.issued t.name)
  have quiet := closed.aside (.note fun _ => .ended t.name site.thread)
  have ending : Ending crew mine rely site.thread before e (.active t) w (t.endReport site.thread u) :=
    ⟨.reported idle made found asked (shown ▸ shows) history, quiet, continuing⟩
  exact ⟨result, rfl, ending.later on (others.apart ended)⟩

end

section
variable {method : String} {r : Except Interrupt (Except Fault Unit)} (code : SoundCode crew mine exec)
variable (new : ∀ tracer e', (w.reportingOf tracer site.thread).remembered = some e' → e'.identity < e.identity)
variable (used : e.identity < w.errors)
include code new used

/-- A tracer that builds no report asks its throttle. -/
theorem idle_ending (member : t.name ∈ crew) (harmless : Harmless rely exec t site)
    (idle : (before.reportingOf t.name site.thread).processing = false)
    (finishes : (t.onError exec site method e).Finishes rely w r v) :
    ∃ result, r = .ok result ∧ Ending crew mine rely site.thread before e (.active t) w v := by
  obtain ⟨x₁, relied₁, later⟩ := finishes.of_read
  have processing : (x₁.reportingOf t.name site.thread).processing = false := by
    rw [(others.apart relied₁).reportingOf on, ready.processing]
    exact idle
  rw [if_neg (Bool.eq_false_iff.mp processing)] at later
  obtain ⟨x₂, relied₂, later⟩ := later.of_read
  have propagating : ¬ (x₂.reportingOf t.name site.thread).remembered.any (·.same e) = true := by
    rw [(others.apart relied₂).reportingOf on, (others.apart relied₁).reportingOf on]
    cases remembered : (w.reportingOf t.name site.thread).remembered with
    | none => simp
    | some e' =>
      have older := new t.name e' remembered
      simp only [Option.any_some, ErrorRef.same, beq_iff_eq]
      omega
  rw [if_neg propagating] at later
  obtain ⟨y, relied₃, later⟩ := later.of_step
  have made := others.trans (others.trans relied₁ relied₂) relied₃
  obtain ⟨x, found, later⟩ := later.of_step
  cases decision : (x.ask t.throttle).1 with
  | true =>
    simp only [decision, if_true] at later
    exact reported_ending others on ready idle made found member code harmless used decision later
  | false =>
    simp only [decision, Bool.false_eq_true, if_false] at later
    obtain ⟨z, relied, later⟩ := later.of_step
    obtain ⟨rfl, relied'⟩ := later.of_done
    have rejected : Ending crew mine rely site.thread before e (.active t) w _ :=
      rejected_ending others on ready idle made found decision
    exact ⟨_, rfl, ((rejected.later on (others.apart relied)).logged _).later on (others.apart relied')⟩

theorem onError_ending (members : ∀ t, m = .active t → t.name ∈ crew ∧ Harmless rely exec t site)
    (finishes : (m.onError exec site method e).Finishes rely w r v) :
    ∃ result, r = .ok result ∧ Ending crew mine rely site.thread before e m w v := by
  cases m with
  | silent =>
    obtain ⟨rfl, relied⟩ := finishes.of_done
    have calm : Ending crew mine rely site.thread before e .silent w w :=
      ⟨.silent rfl, .start ready.issued, .of_desks ready.recorded rfl⟩
    exact ⟨_, rfl, calm.later on (others.apart relied)⟩
  | active t =>
    obtain ⟨member, harmless⟩ := members t rfl
    cases building : (before.reportingOf t.name site.thread).processing with
    | true => exact busy_ending others on ready building finishes
    | false => exact idle_ending others on ready code new used member harmless building finishes

end

/-- The hook of a monitor makes an error and calls the monitor. Whatever comes of the call, the hook
    returns. -/
theorem report_ending {error : PanicError} {r : Except Interrupt Unit} (code : SoundCode crew mine exec)
    (members : ∀ t, m = .active t → t.name ∈ crew ∧ Harmless rely exec t site)
    (finishes : (report exec site error m).Finishes rely w r v) :
    r = .ok () ∧ ∃ x, rely w x ∧ x.errors < v.errors ∧
      Hooked rely site.thread before ⟨x.errors, .panicked error⟩ { x with errors := x.errors + 1 } v m ∧
      Scene site.thread w v ∧ Continuing crew mine w v := by
  obtain ⟨x, relied, later⟩ := finishes.of_step
  have apart := others.apart relied
  let y : World P := { x with errors := x.errors + 1 }
  have found : Scene site.thread w x := (Scene.start ready.issued).later on apart
  have new : ∀ tracer e', (y.reportingOf tracer site.thread).remembered = some e' → e'.identity < x.errors :=
    found.issued
  have scene : Scene site.thread w y :=
    found.congr rfl rfl rfl (Nat.le_succ _) fun tracer e' remembered => Nat.lt_succ_of_lt (new tracer e' remembered)
  have continuing : Continuing crew mine w y := .of_desks ready.recorded apart.desks
  have facing : Ready crew mine site.thread before y := ready.later on scene continuing
  have used : x.errors < y.errors := Nat.lt_succ_self _
  obtain ⟨answer, u, called, later⟩ | ⟨i, _, called⟩ := Run.Finishes.of_bind (w := y) others.refl later
  · obtain ⟨_, _, ending⟩ := onError_ending others on facing code new used members called
    have ended : r = .ok () ∧ Ending crew mine rely site.thread before ⟨x.errors, .panicked error⟩ m y v := by
      rcases answer with f | _
      · obtain ⟨z, relied', later⟩ := later.of_step
        obtain ⟨rfl, relied''⟩ := later.of_done
        exact ⟨rfl, ((ending.later on (others.apart relied')).logged _).later on (others.apart relied'')⟩
      · obtain ⟨rfl, relied'⟩ := later.of_done
        exact ⟨rfl, ending.later on (others.apart relied')⟩
    obtain ⟨returned, ending⟩ := ended
    have made : x.errors < v.errors := Nat.lt_of_lt_of_le used ending.scene.errors
    exact ⟨returned, x, relied, made, ending.hooked, scene.trans ending.scene, continuing.trans ending.continuing⟩
  · obtain ⟨_, impossible, _⟩ := onError_ending others on facing code new used members called
    cases impossible

end

/-! ## All hooks -/

/-- Hooks are run one after another, whatever comes of each of them. -/
theorem told_of_forM {ms : List (Monitor P)} {error : PanicError} {r : Except Interrupt Unit}
    (others : Others mine site.thread rely) (on : mine site.thread) (code : SoundCode crew mine exec)
    (members : ∀ t, .active t ∈ ms → t.name ∈ crew ∧ Harmless rely exec t site)
    (ready : Ready crew mine site.thread before w)
    (finishes : (ms.forM (report exec site error)).Finishes rely w r v) :
    r = .ok () ∧ Told rely exec site before error ms w v ∧ Scene site.thread w v ∧ Continuing crew mine w v := by
  induction ms generalizing w with
  | nil =>
    obtain ⟨rfl, relied⟩ := finishes.of_done
    have apart := others.apart relied
    exact ⟨rfl, .done relied, (Scene.start ready.issued).later on apart, .of_desks ready.recorded apart.desks⟩
  | cons m ms ih =>
    have member : ∀ t, m = .active t → t.name ∈ crew ∧ Harmless rely exec t site := by
      rintro t rfl
      exact members t List.mem_cons_self
    obtain ⟨_, u, first, later⟩ | ⟨i, _, first⟩ := Run.Finishes.of_bind others.refl finishes
    · obtain ⟨_, x, found, used, hooked, scene, continuing⟩ := report_ending others on ready code member first
      obtain ⟨returned, told, scene', continuing'⟩ := ih (fun t member => members t (List.mem_cons_of_mem _ member))
        (ready.later on scene continuing) later
      exact ⟨returned, .hook first found used hooked told, scene.trans scene', continuing.trans continuing'⟩
    · obtain ⟨impossible, _⟩ := report_ending others on ready code member first
      cases impossible

/-- Below all hooks the base hook is run, once and last. -/
theorem told_of_runHooks {hooks : List (Monitor P)} {error : PanicError} {r : Except Interrupt Unit}
    (others : Others mine site.thread rely) (on : mine site.thread) (code : SoundCode crew mine exec)
    (members : ∀ t, .active t ∈ hooks → t.name ∈ crew ∧ Harmless rely exec t site)
    (ready : Ready crew mine site.thread before w)
    (finishes : (runHooks exec hooks site error).Finishes rely w r v) :
    r = .ok () ∧ ∃ u, Told rely exec site before error hooks.reverse w u ∧ Scene site.thread w u ∧
      Continuing crew mine w u ∧ rely { u with lastHookRuns := site.thread :: u.lastHookRuns } v := by
  have reversed : ∀ t, .active t ∈ hooks.reverse → t.name ∈ crew ∧ Harmless rely exec t site := fun t member =>
    members t (List.mem_reverse.mp member)
  obtain ⟨_, u, first, last⟩ | ⟨i, _, first⟩ := Run.Finishes.of_bind others.refl finishes
  · obtain ⟨_, told, scene, continuing⟩ := told_of_forM others on code reversed ready first
    obtain ⟨x, relied, later⟩ := last.of_act
    obtain ⟨rfl, relied'⟩ := later.of_done
    have apart := others.apart relied
    exact ⟨rfl, x, told.later others relied, scene.later on apart,
      continuing.trans (.of_desks continuing.allRecorded apart.desks), relied'⟩
  · obtain ⟨impossible, _⟩ := told_of_forM others on code reversed ready first
    cases impossible

/-- Each installation puts one hook above the others. -/
theorem installed_yields (ms hooks : List (Monitor P)) :
    (ms.foldlM install hooks : Run P (List (Monitor P))).Yields (· = hooks ++ ms) := by
  induction ms generalizing hooks with
  | nil =>
    rw [List.append_nil]
    rfl
  | cons m ms ih =>
    rw [List.foldlM_cons]
    intro w
    have later := ih (hooks ++ [m])
    rwa [List.append_assoc] at later

end

end Panic

namespace Sample

/-- Code that does nothing. -/
def idly : Exec program := fun _ _ => pure ()

/-- A tracer whose first report fails, and whose throttle has a plan. -/
def unreliable : Tracer program where
  name := "tracer"
  tracker := ⟨.own "tracer", [], []⟩
  serializer := .text
  handler := .record
  throttle := some (.named "plan")
  turns := fun
    | .serializer, 0 => some ⟨(), some (.reporter "gone")⟩
    | _, _ => none

/-- A tracer that is to build a report when the panic comes. -/
def busy : Tracer program := { tracer with name := "busy" }

def monitors : List (Monitor program) := [.active unreliable, .silent, .active busy, .active unreliable]

/-- A frame is opened, and an error is reported. -/
def errorReported : Run program Unit := do
  modify fun w => { w with throttles := w.throttles.insert (.named "plan") (.planned [true, true]) }
  discard (busy.call idly site (.entering none "pay" [("order", ⟨0, .text "A-17"⟩)]))
  let e ← Run.newError (.plain "broken")
  discard (busy.call idly site (.onError "pay" e))

/-- The world while the report of the error is written. -/
def amid : World program := (errorReported.after start 10).2

theorem conduct_errorReported : Conduct ["tracer", "busy"] (fun _ => () = ()) errorReported := by
  have calls : ∀ hook, Conduct ["tracer", "busy"] (fun _ => () = ()) (discard (busy.call idly site hook)) := fun hook =>
    .bind (Tracer.conduct_call (by decide) rfl fun _ _ _ => .done ()) fun _ => .done ()
  refine .bind (.act (fun _ _ => rfl) (.of_memory fun _ => rfl) fun _ => .done ()) fun _ => ?_
  refine .bind (calls _) fun _ => .bind ?_ fun _ => calls _
  exact .act (fun _ _ => rfl) (.of_memory fun _ => rfl) fun _ => .done _

theorem issued_amid : Panic.Issued "main" amid := by
  intro tracer e remembered
  have known : amid.reporting = OrderedMap.insert ∅ ("busy", "main") ⟨true, some ⟨0, .plain "broken"⟩⟩ := rfl
  rw [World.reportingOf, known] at remembered
  by_cases same : (tracer, "main") = ("busy", "main")
  · rw [same, OrderedMap.get?_insert_self] at remembered
    obtain rfl := Option.some.inj remembered
    decide
  · rw [OrderedMap.get?_insert_of_ne same] at remembered
    cases remembered

end Sample

end FaultSnapshot
