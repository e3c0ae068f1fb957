import FaultSnapshot.Proofs.Alone
import FaultSnapshot.Proofs.Processing

/-!
# Triggers and their history

What a tracer makes of an error or a timeout depends on its own earlier triggers on the thread, and
of those only on the last one that was let through; for the rest it depends on what the throttle answers
(`Tracer.answered_by_history`). Where nothing comes in between, `Tracer.settled` gives the outcome from those of
the calls of the serializer and of the handler.
-/

namespace FaultSnapshot

variable {P : Program} {crew : List String}

/-- The remembered error is the error of the last trigger that was let through. -/
theorem Desk.Recorded.any_same {d : Desk} (recorded : d.Recorded crew) (tracer : String) (e : ErrorRef) :
    (d.known tracer).remembered.any (·.same e) = (lastAdmitted? (d.history tracer)).any (·.isFor e) := by
  rw [recorded.remembered]
  cases lastAdmitted? (d.history tracer) with
  | none => rfl
  | some trigger =>
    obtain ⟨stamp, tracker, cause⟩ := trigger
    cases cause <;> rfl

/-! ## Calls that nothing comes in between -/

namespace Tracer

variable {t : Tracer P} {exec : Exec P} {site : Site} {w : World P}

/-- The log entry on a trigger that was not let through. -/
def throttledEntry (method : String) (trigger : Trigger) (words : Wording) : LogEntry :=
  ⟨.debug, .tracer, words.throttled, [("method", method), ("trigger_id", trigger.stamp.id.text)]⟩

/-- The log entry on a report that failed. -/
def failureEntry (method message : String) (f : Fault) : LogEntry :=
  ⟨.warn, .tracer, message ++ f.message, [("method", method)]⟩

def nextTrigger (t : Tracer P) (cause : Cause) (w : World P) : Trigger := ⟨w.stamp w.triggers, t.tracker.id, cause⟩

/-- The world after the throttle was asked about the next trigger: its stamp is used up, and the answer is noted. -/
def afterAsking (t : Tracer P) (site : Site) (cause : Cause) (w : World P) : World P :=
  (({ w with triggers := w.triggers + 1 } : World P).ask t.throttle).2.note
    (.asked t.name site.thread (t.nextTrigger cause w) (w.ask t.throttle).1)

def callSerializer (exec : Exec P) (t : Tracer P) (site : Site) (trigger : Trigger) : Run P (Except Fault String) := do
  match ← t.takeTurn exec site .serializer with
  | some f => return .error f
  | none => return .ok (← t.serializer.write exec site trigger)

def callHandler (exec : Exec P) (t : Tracer P) (site : Site) (kind : ReportKind) (report : String) :
    Run P (Except Fault Unit) := do
  match ← t.takeTurn exec site .handler with
  | some f => return .error f
  | none => t.handler.deliver t.name kind report

/-- What comes of a report that is let through: the serializer is called once and, if it gives a text, the
    handler once with this text. Whatever comes of these calls, the report is ended after them. -/
def reported (exec : Exec P) (t : Tracer P) (site : Site) (method : String) (trigger : Trigger) (words : Wording)
    (w : World P) : EStateM.Result Interrupt (World P) (Except Fault Unit) :=
  match (t.callSerializer exec site trigger).run
      (w.note (.writing t.name site.thread trigger (trigger.frames site.thread w))) with
  | .error i v => .error i (t.endReport site.thread v)
  | .ok (.error f) v =>
    .ok (.error f) (t.endReport site.thread
      ((v.note (.written t.name site.thread (.error f))).note (.logged (failureEntry method words.notWritten f))))
  | .ok (.ok report) v =>
    match (t.callHandler exec site trigger.kind report).run
        ((v.note (.written t.name site.thread (.ok report))).note
          (.delivering t.name site.thread trigger.kind report)) with
    | .error i u => .error i (t.endReport site.thread u)
    | .ok (.error f) u =>
      .ok (.error f) (t.endReport site.thread (u.note (.logged (failureEntry method words.notDelivered f))))
    | .ok (.ok ()) u => .ok (.ok ()) (t.endReport site.thread u)

/-- What comes of a cause that the throttle is asked about. If the next trigger is let through, its error is
    remembered, or none if it has none, and it is reported; otherwise nothing is left but a log entry. -/
def settled (exec : Exec P) (t : Tracer P) (site : Site) (method : String) (cause : Cause) (words : Wording)
    (w : World P) : EStateM.Result Interrupt (World P) (Except Fault Unit) :=
  let trigger := t.nextTrigger cause w
  let asked := t.afterAsking site cause w
  if (w.ask t.throttle).1 then
    t.reported exec site method trigger words (asked.setReporting t.name site.thread ⟨true, trigger.error?⟩)
  else .ok (.ok ()) (asked.note (.logged (throttledEntry method trigger words)))

theorem ask_triggers (throttle : Option ThrottleId) (n : Nat) :
    (({ w with triggers := n } : World P).ask throttle).1 = (w.ask throttle).1 := by
  cases throttle <;> rfl

theorem finishText_eq (exec : Exec P) (t : Tracer P) (site : Site) (trigger : Trigger) :
    t.finishText exec site trigger = t.callSerializer exec site trigger >>= fun result => do
      Run.note (.written t.name site.thread result)
      return result := by
  rw [finishText, callSerializer, bind_assoc]
  refine congrArg _ (funext fun turn => ?_)
  cases turn with
  | none => exact (bind_assoc _ _ _).symm
  | some f => rfl

theorem run_serialize (exec : Exec P) (trigger : Trigger) :
    (t.serialize exec site trigger).run w = Run.andThen
      ((t.callSerializer exec site trigger).run
        (w.note (.writing t.name site.thread trigger (trigger.frames site.thread w))))
      fun result => do
        Run.note (.written t.name site.thread result)
        return result := by
  rw [← Run.run_bind, ← finishText_eq]
  rfl

theorem run_deliver (exec : Exec P) (kind : ReportKind) (report : String) :
    (t.deliver exec site kind report).run w =
      (t.callHandler exec site kind report).run (w.note (.delivering t.name site.thread kind report)) :=
  rfl

theorem run_reported (exec : Exec P) (method : String) (trigger : Trigger) (words : Wording) :
    ((t.build exec site method trigger words).ensuring (t.endReport site.thread)).run w =
      t.reported exec site method trigger words w := by
  rw [Run.run_ensuring, build, Run.run_bind, run_serialize, reported]
  cases (t.callSerializer exec site trigger).run
      (w.note (.writing t.name site.thread trigger (trigger.frames site.thread w))) with
  | error i v => rfl
  | ok result v =>
    cases result with
    | error f => rfl
    | ok report =>
      simp only [Run.andThen_ok, Run.run_bind, Run.run_note, Run.run_pure, run_deliver]
      cases (t.callHandler exec site trigger.kind report).run
          ((v.note (.written t.name site.thread (.ok report))).note
            (.delivering t.name site.thread trigger.kind report)) with
      | error i u => rfl
      | ok answer u => cases answer <;> rfl

theorem run_offer (exec : Exec P) (method : String) (cause : Cause) (words : Wording) :
    (t.offer exec site method (t.nextTrigger cause w) (t.nextTrigger cause w).error? words).run
      { w with triggers := w.triggers + 1 } = t.settled exec site method cause words w := by
  cases admitted : (w.ask t.throttle).1 with
  | true =>
    have admitted' := (ask_triggers t.throttle (w.triggers + 1)).trans admitted
    simp only [settled, afterAsking, admitted, if_true, ← run_reported]
    simp only [offer, admits, Run.run_bind, Run.run_modifyGet, Run.andThen_ok, admitted', if_true]
  | false =>
    have admitted' := (ask_triggers t.throttle (w.triggers + 1)).trans admitted
    simp [offer, admits, admitted', settled, afterAsking, admitted, logThrottled, throttledEntry]

/-- An error that was just reported is dropped, with nothing but a log entry. -/
theorem run_onError_dropped {method : String} {e : ErrorRef}
    (idle : (w.reportingOf t.name site.thread).processing = false)
    (propagating : (w.reportingOf t.name site.thread).remembered.any (·.same e) = true) :
    (t.onError exec site method e).run w = .ok (.ok ()) (w.note (.logged
      ⟨.debug, .tracer, "Error already reported on this thread, skipping", [("method", method)]⟩)) := by
  simp [onError, idle, propagating]

theorem run_onError_settled (exec : Exec P) (method : String) {e : ErrorRef}
    (idle : (w.reportingOf t.name site.thread).processing = false)
    (other : (w.reportingOf t.name site.thread).remembered.any (·.same e) = false) :
    (t.onError exec site method e).run w = t.settled exec site method (.error e) errorWording w := by
  simp only [onError, Run.run_bind, run_isProcessing, Run.andThen_ok, idle, Bool.false_eq_true, if_false,
    run_isPropagating, other, Run.run_newTrigger]
  exact run_offer exec method (.error e) errorWording

theorem run_timeout_settled (exec : Exec P) (method : String) (thresholdMs actualMs : UInt64)
    (idle : (w.reportingOf t.name site.thread).processing = false) :
    (t.timeout exec site method thresholdMs actualMs).run w =
      t.settled exec site method (.timeout thresholdMs actualMs) timeoutWording w := by
  simp only [timeout, Run.run_bind, run_isProcessing, Run.andThen_ok, idle, Bool.false_eq_true, if_false,
    Run.run_newTrigger]
  exact run_offer exec method (.timeout thresholdMs actualMs) timeoutWording

/-! ## Calls at any time -/

/-- The desks of the threads of `mine`, and what the throttle would answer. -/
def answering (mine : Thread → Prop) (throttle : Option ThrottleId) (w : World P) :
    ({thread // mine thread} → Desk) × Bool :=
  (Desks mine w, (w.ask throttle).1)

theorem attends_answering (mine : Thread → Prop) (throttle : Option ThrottleId) :
    Attends (P := P) mine (answering mine throttle) where
  desks _ _ same := congrArg Prod.fst same
  uncounted _ n := congrArg (Prod.mk _) (ask_triggers throttle n)

/-- Between reports, what comes of an error or a timeout follows from the history of the tracer on
    the thread and from the answer of the throttle. An error is dropped exactly if the last trigger that
    was let through is about the very same object. About anything else the throttle is asked once. If
    the trigger is not let through, nothing else happens; if it is, it is the last one from then on, its
    report is written once, and the text is handed over once if there is one. The answer is what the
    throttle says at the call, if others leave that alone until it is asked. Where nothing comes in between,
    the outcome is `Tracer.settled`: the one report that is let through consists of one call of the
    serializer and at most one of the handler. -/
theorem answered_by_history {ι : Type} [DecidableEq ι] {owner : Thread → ι} {q : Pool P ι}
    (reached : q.Reached crew owner) (member : t.name ∈ crew)
    (code : ConductCode crew (owner · = owner site.thread) exec)
    (idle : (q.world.reportingOf t.name site.thread).processing = false) :
    let same := fun e => (lastAdmitted? ((q.world.desk site.thread).history t.name)).any (·.isFor e)
    (∀ method e r v, (t.onError exec site method e).Ends (Desks (owner · = owner site.thread)) q.world r v →
        if same e then Unasked t.name site.thread q.world r v
        else ∃ (trigger : Trigger) (admitted : Bool), trigger.cause = .error e ∧
          Answered t.name site.thread trigger q.world admitted r v) ∧
      (∀ method thresholdMs actualMs r v,
        (t.timeout exec site method thresholdMs actualMs).Ends (Desks (owner · = owner site.thread)) q.world r v →
          ∃ (trigger : Trigger) (admitted : Bool), trigger.cause = .timeout thresholdMs actualMs ∧
            Answered t.name site.thread trigger q.world admitted r v) ∧
      (∀ method e r v, same e = false →
        (t.onError exec site method e).Ends (answering (owner · = owner site.thread) t.throttle) q.world r v →
          ∃ trigger : Trigger, trigger.cause = .error e ∧
            Answered t.name site.thread trigger q.world (q.world.ask t.throttle).1 r v) ∧
      (∀ method thresholdMs actualMs r v,
        (t.timeout exec site method thresholdMs actualMs).Ends (answering (owner · = owner site.thread) t.throttle)
          q.world r v →
          ∃ trigger : Trigger, trigger.cause = .timeout thresholdMs actualMs ∧
            Answered t.name site.thread trigger q.world (q.world.ask t.throttle).1 r v) ∧
      (∀ method e, (t.onError exec site method e).run q.world =
        if same e then .ok (.ok ()) (q.world.note (.logged
          ⟨.debug, .tracer, "Error already reported on this thread, skipping", [("method", method)]⟩))
        else t.settled exec site method (.error e) errorWording q.world) ∧
      ∀ method thresholdMs actualMs, (t.timeout exec site method thresholdMs actualMs).run q.world =
        t.settled exec site method (.timeout thresholdMs actualMs) timeoutWording q.world := by
  intro same
  have recorded := reached.allRecorded (owner · = owner site.thread)
  have remembered := (recorded site.thread rfl).any_same t.name
  have free : t.name ∉ (q.world.desk site.thread).chain := (recorded site.thread rfl).free idle
  have attends := attends_desks (P := P) (owner · = owner site.thread)
  have answers := attends_answering (P := P) (owner · = owner site.thread) t.throttle
  have decided : ∀ x : World P, answering (owner · = owner site.thread) t.throttle x =
      answering (owner · = owner site.thread) t.throttle q.world → (x.ask t.throttle).1 = (q.world.ask t.throttle).1 :=
    fun _ seen => congrArg Prod.snd seen
  refine ⟨?_, ?_, ?_, ?_, ?_, ?_⟩
  · intro method e r v ends
    obtain ⟨_, answered⟩ := (onError_keeps attends recorded rfl member free code.sound (fun _ => True)
      (fun _ _ => trivial) method e).ends ends
    rw [remembered e] at answered
    simpa only [true_and] using answered
  · intro method thresholdMs actualMs r v ends
    obtain ⟨_, trigger, admitted, cause, _, answered⟩ := (timeout_keeps attends recorded rfl member free code.sound
      (fun _ => True) (fun _ _ => trivial) method thresholdMs actualMs).ends ends
    exact ⟨trigger, admitted, cause, answered⟩
  · intro method e r v other ends
    obtain ⟨_, answered⟩ := (onError_keeps answers recorded rfl member free code.sound
      (· = (q.world.ask t.throttle).1) decided method e).ends ends
    rw [remembered e, if_neg (Bool.eq_false_iff.mp other)] at answered
    obtain ⟨trigger, _, cause, rfl, answered⟩ := answered
    exact ⟨trigger, cause, answered⟩
  · intro method thresholdMs actualMs r v ends
    obtain ⟨_, trigger, _, cause, rfl, answered⟩ := (timeout_keeps answers recorded rfl member free code.sound
      (· = (q.world.ask t.throttle).1) decided method thresholdMs actualMs).ends ends
    exact ⟨trigger, cause, answered⟩
  · intro method e
    split
    case isTrue known => exact run_onError_dropped idle ((remembered e).trans known)
    case isFalse new => exact run_onError_settled exec method idle ((remembered e).trans (Bool.eq_false_iff.mpr new))
  · intro method thresholdMs actualMs
    exact run_timeout_settled exec method thresholdMs actualMs idle

open Sample in
/-- The first error of a tracer without a throttle is reported, and the text is handed over. -/
theorem answered_by_history_sample : ∃ v,
    (Sample.tracer.onError Sample.exec Sample.site "outer" error).run start = .ok (.ok ()) v ∧
      let trigger : Trigger := ⟨start.stamp 0, .own "tracer", .error error⟩
      let report := "Snaperr - state snapshot of error 'broken': [\n]"
      (v.desk "main").history "tracer" =
        [.asked "tracer" "main" trigger true, .writing "tracer" "main" trigger [],
          .written "tracer" "main" (.ok report), .delivering "tracer" "main" .error report, .ended "tracer" "main"] := by
  have reached : Pool.Reached ["tracer"] (fun _ => ()) ⟨fun _ => pure (), start⟩ :=
    Pool.reached_start (P := program) ⟨0, 0⟩ start.stamp ()
  have code : ConductCode ["tracer"] (fun _ => () = ()) Sample.exec := conductCode_exec rfl
  have member : Sample.tracer.name ∈ ["tracer"] := by decide
  have idle : (start.reportingOf Sample.tracer.name Sample.site.thread).processing = false := rfl
  obtain ⟨_, _, _, _, settles, _⟩ := answered_by_history reached member code idle
  exact ⟨_, settles "outer" error, rfl⟩

end Tracer

end FaultSnapshot
