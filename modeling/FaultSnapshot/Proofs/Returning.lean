import FaultSnapshot.Proofs.Renderings
import FaultSnapshot.Proofs.TriggerHistory

/-!
# Reports whose code returns

If the code that a serializer or a handler runs returns, then so does the call that makes the
report, and the frames that were open are open still. The text of the report shows just these frames.
-/

namespace FaultSnapshot

variable {P : Program} {α : Type} {crew : List String} {mine : Thread → Prop}

/-- Code that runs while the tracer builds a report returns, and leaves the open frames alone. -/
def Returns (exec : Exec P) (t : Tracer P) (site : Site) : Prop :=
  ∀ c w, (w.reportingOf t.name site.thread).processing = true → ∃ v, (exec site c).run w = .ok () v ∧
    Memory.Undisturbed (t.tracker.id, site.thread) w.memory v.memory

/-- What has come of a report until `v`, with the frames as they were. -/
structure Composed (crew : List String) (mine : Thread → Prop) (t : Tracer P) (site : Site) (trigger : Trigger)
    (w : World P) (course : List Event) (v : World P) : Prop where
  filed : Filed crew mine t.name site.thread trigger w course v
  frames : Memory.Undisturbed (t.tracker.id, site.thread) w.memory v.memory

variable {t : Tracer P} {exec : Exec P} {site : Site} {trigger : Trigger} {w v x : World P} {course : List Event}

theorem Composed.noted {e : Event} (composed : Composed crew mine t site trigger w course v)
    (place : e.place? = some (t.name, site.thread)) (steady : Desk.Steady e) :
    Composed crew mine t site trigger w (course ++ [e]) (v.note e) :=
  ⟨composed.filed.noted place steady, composed.frames⟩

theorem Composed.logged {e : Event} (composed : Composed crew mine t site trigger w course v) (on : mine site.thread)
    (plain : e.place? = none) : Composed crew mine t site trigger w course (v.note e) :=
  ⟨composed.filed.congr on ((quiet_note plain).desks v),
    composed.frames⟩

/-- The parts of the library return where their code does. -/
theorem Hosts.returns {f : Exec P → Run P α} (hosts : Hosts False (· = site) f) (on : mine site.thread)
    (sound : SoundCode crew mine exec) (returns : Returns exec t site)
    (composed : Composed crew mine t site trigger w course v) :
    ∃ a u, (f exec).run v = .ok a u ∧ Composed crew mine t site trigger w course u := by
  induction hosts generalizing v with
  | done a => exact ⟨a, v, rfl, composed⟩
  | @act _ change next plain _ _ ih =>
    have quiet : Desks mine (change v) = Desks mine v := plain.quiet.desks v
    have memory : (change v).memory = v.memory := plain.memory.resolve_left And.left v
    exact ih v ⟨composed.filed.congr on quiet, memory ▸ composed.frames⟩
  | bind _ _ first rest =>
    obtain ⟨a, u, executed, composed⟩ := first composed
    obtain ⟨b, z, later, composed⟩ := rest a composed
    exact ⟨b, z, by rw [Run.run_bind, executed]; exact later, composed⟩
  | code site' c same =>
    subst same
    have processing : (v.reportingOf t.name site'.thread).processing = true :=
      congrArg Reporting.processing composed.filed.known
    obtain ⟨u, executed, frames⟩ := returns c v processing
    have filed := (composed.filed.run on (sound site' c on)).ends (.of_run executed)
    exact ⟨(), u, executed, filed, composed.frames.trans frames⟩

namespace Tracer

/-- What is open on the thread, as a report shows it. -/
def framesOf (t : Tracer P) (site : Site) (w : World P) : List (Picture Unit) :=
  (w.memory.pictures (t.tracker.id, site.thread)).map Picture.still

theorem takeTurn_returns (part : Part) (composed : Composed crew mine t site trigger w course v) (on : mine site.thread)
    (sound : SoundCode crew mine exec) (returns : Returns exec t site) :
    ∃ turn u, (t.takeTurn exec site part).run v = .ok turn u ∧ Composed crew mine t site trigger w course u := by
  have hosts : Hosts False (· = site) fun exec => t.takeTurn exec site part := by
    refine hosts_takeTurn ?_ t part
    rfl
  exact hosts.returns on sound returns composed

/-- While the report is made, the frames that were open in `w` are open. -/
theorem framesKept_of_composed (on : mine site.thread) (memory : w.memory.Sound (t.tracker.id, site.thread))
    (sound : SoundCode crew mine exec) (returns : Returns exec t site) :
    FramesKept Eq (Composed crew mine t site trigger w course) exec site (t.tracker.id, site.thread) w.memory
      (fun _ => True) where
  refl _ := rfl
  kept composed same := same ▸ composed
  code c v composed := by
    have hosts : Hosts False (· = site) fun exec : Exec P => exec site c := .code site c rfl
    obtain ⟨_, u, executed, composed⟩ := hosts.returns on sound returns composed
    exact .of_run executed ⟨trivial, composed⟩
  sound := memory
  views _ composed := composed.frames.views
  cells _ composed := composed.frames.cells
  records _ _ := trivial

theorem write_returns (composed : Composed crew mine t site trigger w course v) (on : mine site.thread)
    (memory : w.memory.Sound (t.tracker.id, site.thread)) (own : trigger.tracker = t.tracker.id)
    (sound : SoundCode crew mine exec) (returns : Returns exec t site) :
    ∃ text u, (t.serializer.write exec site trigger).run v = .ok text u ∧
      t.serializer.Tells (fun _ => True) trigger (t.framesOf site w) text ∧
      Composed crew mine t site trigger w course u := by
  have kept : FramesKept Eq (Composed crew mine t site trigger w course) exec site (t.tracker.id, site.thread) w.memory
      (fun _ => True) := framesKept_of_composed on memory sound returns
  obtain ⟨text, u, wrote, tells, composed⟩ := (t.serializer.write_tells (own ▸ kept) v composed).run kept.refl
  rw [own] at tells
  exact ⟨text, u, wrote, tells.still, composed⟩

theorem serialize_returns (composed : Composed crew mine t site trigger w [] v) (on : mine site.thread)
    (memory : w.memory.Sound (t.tracker.id, site.thread)) (own : trigger.tracker = t.tracker.id)
    (sound : SoundCode crew mine exec) (returns : Returns exec t site) :
    ∃ result u, (t.serialize exec site trigger).run v = .ok result u ∧
      (∀ report, result = .ok report → t.serializer.Tells (fun _ => True) trigger (t.framesOf site w) report) ∧
      Composed crew mine t site trigger w
        [.writing t.name site.thread trigger (t.framesOf site w), .written t.name site.thread result] u := by
  have shown : (v.memory.pictures (trigger.tracker, site.thread)).map Picture.still = t.framesOf site w := by
    rw [own, framesOf, composed.frames.pictures]
  have writing := composed.noted (e := .writing t.name site.thread trigger (t.framesOf site w)) rfl
    ⟨fun _ => rfl, fun _ => by simp⟩
  obtain ⟨turn, u, taken, writing⟩ := takeTurn_returns .serializer writing on sound returns
  cases turn with
  | some f =>
    refine ⟨.error f, _, ?_, fun _ never => (nomatch never),
      writing.noted (e := .written t.name site.thread (.error f)) rfl ⟨fun _ => rfl, fun _ => by simp⟩⟩
    simp [serialize, shown, taken]
  | none =>
    obtain ⟨text, z, wrote, tells, writing⟩ := write_returns writing on memory own sound returns
    refine ⟨.ok text, _, ?_, ?_, writing.noted (e := .written t.name site.thread (.ok text)) rfl
      ⟨fun _ => rfl, fun _ => by simp⟩⟩
    · simp [serialize, shown, taken, wrote]
    · rintro _ ⟨⟩
      exact tells

theorem deliver_returns (kind : ReportKind) (report : String) (composed : Composed crew mine t site trigger w course v)
    (on : mine site.thread) (sound : SoundCode crew mine exec) (returns : Returns exec t site) :
    ∃ r u, (t.deliver exec site kind report).run v = .ok r u ∧
      Composed crew mine t site trigger w (course ++ [.delivering t.name site.thread kind report]) u := by
  have delivering := composed.noted (e := .delivering t.name site.thread kind report) rfl
    ⟨fun _ => rfl, fun _ => by simp⟩
  obtain ⟨turn, u, taken, delivering⟩ := takeTurn_returns .handler delivering on sound returns
  cases turn with
  | some f => exact ⟨.error f, u, by simp [deliver, taken], delivering⟩
  | none =>
    obtain ⟨r, z, delivered, delivering⟩ :=
      (t.handler.hosts_deliver (P := P) t.name kind report).returns on sound returns delivering
    exact ⟨r, z, by simp [deliver, taken, delivered], delivering⟩

theorem build_returns (method : String) (words : Wording) (composed : Composed crew mine t site trigger w [] v)
    (on : mine site.thread) (memory : w.memory.Sound (t.tracker.id, site.thread)) (own : trigger.tracker = t.tracker.id)
    (sound : SoundCode crew mine exec) (returns : Returns exec t site) :
    ∃ r events u, (t.build exec site method trigger words).run v = .ok r u ∧
      t.ReportShows site.thread trigger (t.framesOf site w) events (.ok r) ∧
      Composed crew mine t site trigger w events u := by
  obtain ⟨result, u, serialized, tells, written⟩ := serialize_returns composed on memory own sound returns
  cases result with
  | error f =>
    have executed : (t.build exec site method trigger words).run v = .ok (.error f)
        (u.note (.logged ⟨.warn, .tracer, words.notWritten ++ f.message, [("method", method)]⟩)) := by
      simp [build, serialized]
    exact ⟨.error f, _, _, executed, ⟨.notWritten f, by simp⟩, written.logged on rfl⟩
  | ok report =>
    have shows : ∀ r, t.ReportShows site.thread trigger (t.framesOf site w)
        [.writing t.name site.thread trigger (t.framesOf site w), .written t.name site.thread (.ok report),
          .delivering t.name site.thread trigger.kind report] (.ok r) := by
      intro r
      refine ⟨.handedOver report _, ?_⟩
      intro report' among
      have same : report' = report := by simpa using among
      exact same ▸ tells report rfl
    obtain ⟨r, z, delivered, delivering⟩ := deliver_returns trigger.kind report written on sound returns
    cases r with
    | error f =>
      have executed : (t.build exec site method trigger words).run v = .ok (.error f)
          (z.note (.logged ⟨.warn, .tracer, words.notDelivered ++ f.message, [("method", method)]⟩)) := by
        simp [build, serialized, delivered]
      exact ⟨.error f, _, _, executed, shows _, delivering.logged on rfl⟩
    | ok => exact ⟨.ok (), _, z, by simp [build, serialized, delivered], shows _, delivering⟩

/-- What comes of a cause in the world `x`, while the frames are open. The throttle is asked once. What it
    lets through is reported, and the text shows the frames; otherwise nothing is spent but this question. -/
inductive Tried (t : Tracer P) (thread : Thread) (cause : Cause) (frames : List (Picture Unit)) (x : World P) :
    List Event → World P → Prop
  | rejected {u : World P} (asked : (x.ask t.throttle).1 = false)
      (spent : u.throttles = (x.ask t.throttle).2.throttles) :
      Tried t thread cause frames x [.asked t.name thread (t.nextTrigger cause x) false] u
  | reported {u : World P} {events : List Event} {r : Except Fault Unit} (asked : (x.ask t.throttle).1 = true)
      (shows : t.ReportShows thread (t.nextTrigger cause x) frames events (.ok r)) :
      Tried t thread cause frames x
        (.asked t.name thread (t.nextTrigger cause x) true :: (events ++ [.ended t.name thread])) u

/-- A call about the cause was tried from `w` to `u`, and left its events and, if it made a report, the
    error of the cause, and nothing else. -/
structure Outcome (crew : List String) (mine : Thread → Prop) (t : Tracer P) (site : Site) (cause : Cause) (w : World P)
    (events : List Event) (u : World P) : Prop where
  tried : t.Tried site.thread cause (t.framesOf site w) w events u
  continuing : Continuing crew mine w u
  frames : Memory.Undisturbed (t.tracker.id, site.thread) w.memory u.memory
  history : (u.desk site.thread).history t.name = (w.desk site.thread).history t.name ++ events
  known : (u.desk site.thread).known t.name =
    if (w.ask t.throttle).1 then ⟨false, (t.nextTrigger cause w).error?⟩ else (w.desk site.thread).known t.name

theorem memory_ask (w : World P) (throttle : Option ThrottleId) : (w.ask throttle).2.memory = w.memory := by
  cases throttle <;> rfl

section
variable (recorded : AllRecorded crew mine w) (on : mine site.thread) (member : t.name ∈ crew)
variable (idle : t.name ∉ (w.desk site.thread).chain) (memory : w.memory.Sound (t.tracker.id, site.thread))
variable (sound : SoundCode crew mine exec) (returns : Returns exec t site)
include recorded on member idle memory sound returns

theorem settled_returns (method : String) (cause : Cause) (words : Wording) :
    ∃ r events u, t.settled exec site method cause words w = .ok r u ∧ Outcome crew mine t site cause w events u := by
  let x : World P := { w with triggers := w.triggers + 1 }
  have frames : Memory.Undisturbed (t.tracker.id, site.thread) w.memory (x.ask t.throttle).2.memory := by
    rw [memory_ask]
    exact .refl _ _
  have same : ∀ other, mine other → x.desk other = w.desk other := fun _ _ => rfl
  cases admitted : (w.ask t.throttle).1 with
  | false =>
    have continuing := rejected_continuing (t.nextTrigger cause w) recorded idle same
    obtain ⟨history, known⟩ := rejected_settles (t := t) (t.nextTrigger cause w) on same
    have spent : (x.ask t.throttle).2.throttles = (w.ask t.throttle).2.throttles := by cases t.throttle <;> rfl
    have executed : t.settled exec site method cause words w = .ok (.ok ()) ((t.afterAsking site cause w).note
        (.logged (throttledEntry method (t.nextTrigger cause w) words))) := by
      simp only [settled, admitted, Bool.false_eq_true, if_false]
    refine ⟨_, _, _, executed, .rejected admitted spent, ?_, frames, ?_, ?_⟩
    · rw [afterAsking, admitted]
      exact continuing.trans (.of_desks continuing.allRecorded ((quiet_note rfl).desks _))
    · rw [quiet_note rfl, afterAsking, admitted, history]
    · rw [quiet_note rfl, afterAsking, admitted, known, if_neg Bool.false_ne_true]
  | true =>
    have filed := admitted_filed (t.nextTrigger cause w) recorded on member idle same
    obtain ⟨r, events, u, built, shows, composed⟩ :=
      build_returns method words ⟨filed, frames⟩ on memory rfl sound returns
    obtain ⟨continuing, history, known⟩ := endReport_settles composed.filed
    refine ⟨r, _, t.endReport site.thread u, ?_, .reported admitted shows, continuing, composed.frames, history, ?_⟩
    · simp only [settled, admitted, if_true, afterAsking, ← run_reported, Run.run_ensuring]
      rw [built]
    · rw [known, if_pos admitted]

/-- What a call about a new error does, made while no report is built. -/
theorem onError_returns (method : String) {e : ErrorRef}
    (fresh : ((w.desk site.thread).known t.name).remembered.any (·.same e) = false) :
    ∃ r events u, (t.onError exec site method e).run w = .ok r u ∧ Outcome crew mine t site (.error e) w events u := by
  have unset : (w.reportingOf t.name site.thread).processing = false := (recorded _ on).idle idle
  rw [run_onError_settled exec method unset fresh]
  exact settled_returns recorded on member idle memory sound returns method (.error e) errorWording

/-- What a call about a timeout does, made while no report is built. -/
theorem timeout_returns (method : String) (thresholdMs actualMs : UInt64) :
    ∃ r events u, (t.timeout exec site method thresholdMs actualMs).run w = .ok r u ∧
      Outcome crew mine t site (.timeout thresholdMs actualMs) w events u := by
  have unset : (w.reportingOf t.name site.thread).processing = false := (recorded _ on).idle idle
  rw [run_timeout_settled exec method thresholdMs actualMs unset]
  exact settled_returns recorded on member idle memory sound returns method (.timeout thresholdMs actualMs)
    timeoutWording

end

end Tracer

end FaultSnapshot
