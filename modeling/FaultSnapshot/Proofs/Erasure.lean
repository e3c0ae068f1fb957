import FaultSnapshot.Proofs.Processing
import FaultSnapshot.Proofs.EqualUpToIgnored

/-!
# Calls that may be left out

While a tracer builds a report on a thread, code may call its hooks there as often as it likes, or
leave these calls out: nothing else can tell the difference (`Pool.erasure`).
-/

namespace FaultSnapshot

variable {P : Program} {α β : Type} {crew : List String} {mine : Thread → Prop}

/-- The second run is the first one with calls left out, if these are calls of hooks of `tracer` on
    `thread`, made while a report of it is built there. `inside` says that this is so already when
    the run begins. Otherwise both runs do what code may do, without regard to log entries on
    ignored calls. -/
inductive Erases (crew : List String) (mine : Thread → Prop) (tracer : String) (thread : Thread) :
    Prop → {α : Type} → Run P α → Run P α → Prop
  | done {inside : Prop} {α : Type} (a : α) : Erases crew mine tracer thread inside (.done a) (.done a)
  | stop {inside : Prop} {α : Type} (e : Interrupt) :
      Erases crew mine tracer thread inside (.stop e : Run P α) (.stop e)
  | act {inside : Prop} {α : Type} {change : World P → World P} {next next' : World P → Run P α} (quiet : Quiet change)
      (deaf : Deaf change) (lawful : Lawful change)
      (rest : ∀ v v', v.EqUpToIgnored v' → Erases crew mine tracer thread inside (next v) (next' v')) :
      Erases crew mine tracer thread inside (.act change next) (.act change next')
  | bind {inside : Prop} {α β : Type} {m m' : Run P α} {k k' : α → Run P β}
      (first : Erases crew mine tracer thread inside m m')
      (rest : ∀ a, Erases crew mine tracer thread inside (k a) (k' a)) :
      Erases crew mine tracer thread inside (m >>= k) (m' >>= k')
  | rescue {inside : Prop} {α : Type} {m m' : Run P α} {handle handle' : Interrupt → Run P α}
      (first : Erases crew mine tracer thread inside m m')
      (rest : ∀ e, Erases crew mine tracer thread inside (handle e) (handle' e)) :
      Erases crew mine tracer thread inside (tryCatch m handle) (tryCatch m' handle')
  | onError {inside : Prop} {exec exec' : Exec P} {t : Tracer P} {site : Site} {method : String} {e : ErrorRef}
      (member : t.name ∈ crew) (on : mine site.thread)
      (code : ∀ site' c, mine site'.thread → Erases crew mine tracer thread
        (inside ∨ t.name = tracer ∧ site.thread = thread) (exec site' c) (exec' site' c)) :
      Erases crew mine tracer thread inside (t.onError exec site method e) (t.onError exec' site method e)
  | timeout {inside : Prop} {exec exec' : Exec P} {t : Tracer P} {site : Site} {method : String}
      {thresholdMs actualMs : UInt64} (member : t.name ∈ crew) (on : mine site.thread)
      (code : ∀ site' c, mine site'.thread → Erases crew mine tracer thread
        (inside ∨ t.name = tracer ∧ site.thread = thread) (exec site' c) (exec' site' c)) :
      Erases crew mine tracer thread inside (t.timeout exec site method thresholdMs actualMs)
        (t.timeout exec' site method thresholdMs actualMs)
  | erased {inside : Prop} {exec : Exec P} {t : Tracer P} {site : Site} {hook : Hook P} (within : inside)
      (name : t.name = tracer) (place : site.thread = thread) (member : t.name ∈ crew) (on : mine site.thread)
      (code : ∀ site' c, mine site'.thread → Conduct crew mine (exec site' c)) :
      Erases crew mine tracer thread inside (t.call exec site hook) (.done (.ok ()))

variable {tracer : String} {thread : Thread} {inside : Prop}

theorem Erases.conduct {m m' : Run P α} (erases : Erases crew mine tracer thread inside m m') :
    Conduct crew mine m := by
  induction erases with
  | done a => exact .done a
  | stop e => exact .stop e
  | act quiet _ lawful _ ih => exact .act quiet lawful fun w => ih w w (.refl w)
  | bind _ _ first rest => exact .bind first rest
  | rescue _ _ first rest => exact .rescue first rest
  | onError member on _ code => exact .onError member on code
  | timeout member on _ code => exact .timeout member on code
  | erased _ _ _ member on code => exact Tracer.conduct_call member on code

theorem Hosts.erases {tracks : Prop} {places : Site → Prop} {f : Exec P → Run P α} (hosts : Hosts tracks places f)
    (exec exec' : Exec P)
    (code : ∀ site c, places site → Erases crew mine tracer thread inside (exec site c) (exec' site c)) :
    Erases crew mine tracer thread inside (f exec) (f exec') := by
  induction hosts with
  | done a => exact .done a
  | act plain unheard _ ih =>
    refine .act plain.quiet plain.deaf plain.lawful ?_
    intro v v' alike
    rw [unheard v', alike, ← unheard v]
    exact ih v
  | bind _ _ first rest => exact .bind first rest
  | code site c on => exact code site c on

/-- Both runs make the same call. -/
theorem Erases.call {exec exec' : Exec P} {t : Tracer P} {site : Site} {hook : Hook P} (member : t.name ∈ crew)
    (on : mine site.thread)
    (code : ∀ site' c, mine site'.thread → Erases crew mine tracer thread
      (inside ∨ t.name = tracer ∧ site.thread = thread) (exec site' c) (exec' site' c)) :
    Erases crew mine tracer thread inside (t.call exec site hook) (t.call exec' site hook) := by
  by_cases reports : hook.Reports
  · cases hook with
    | onError method e => exact .onError member on code
    | timeout method thresholdMs actualMs => exact .timeout member on code
    | _ => exact reports.elim
  · have same : t.call exec' site hook = t.call exec site hook := by
      cases hook with
      | onError method e => exact absurd trivial reports
      | timeout method thresholdMs actualMs => exact absurd trivial reports
      | _ => rfl
    rw [same]
    have hosts : Hosts True (fun _ => False) fun _ => t.call exec site hook := Tracer.hosts_call reports
    exact hosts.erases exec exec nofun

/-! ## Deaf steps of the library -/

theorem deaf_noted {e : World P → Event} (unheard : ∀ w, e w.heard = e w) : Deaf fun w => w.note (e w) := by
  intro w
  simp only [heard_note, heard_heard, unheard]

theorem Deaf.comp {f g : World P → World P} (first : Deaf f) (later : Deaf g) : Deaf fun w => g (f w) := by
  intro w
  rw [later (f w), later (f w.heard), first w]

namespace Tracer

variable {t : Tracer P}

theorem deaf_ask (throttle : Option ThrottleId) : Deaf fun w : World P => (w.ask throttle).2 := by
  intro w
  cases throttle <;> exact (heard_heard _).symm

theorem ask_heard (throttle : Option ThrottleId) (w : World P) : (w.heard.ask throttle).1 = (w.ask throttle).1 := by
  cases throttle <;> rfl

theorem deaf_endReport (thread : Thread) : Deaf (t.endReport thread) :=
  Deaf.comp (f := fun w => w.setReporting t.name thread { w.reportingOf t.name thread with processing := false })
    (fun _ => (heard_heard _).symm) (deaf_note _)

theorem deaf_admits (thread : Thread) (trigger : Trigger) (remembered : Option ErrorRef) :
    Deaf fun w : World P =>
      let decision := w.ask t.throttle
      let w := decision.2.note (.asked t.name thread trigger decision.1)
      if decision.1 then w.setReporting t.name thread ⟨true, remembered⟩ else w := by
  intro w
  simp only [ask_heard]
  have noted := Deaf.comp (deaf_ask t.throttle) (deaf_note (.asked t.name thread trigger (w.ask t.throttle).1)) w
  split
  · exact congrArg (fun w : World P => w.setReporting t.name thread ⟨true, remembered⟩) noted
  · exact noted

end Tracer

/-! ## Calls with equal code -/

/-- Where `inv` holds, the code of `exec'` does what that of `exec` does, and `inv` holds again in
    the end. -/
def Imitates (mine : Thread → Prop) (inv : World P → Prop) (exec exec' : Exec P) : Prop :=
  ∀ site c, mine site.thread → ∀ w, inv w → Run.EqUpToIgnored (Desks mine) (exec site c) (exec' site c) w ∧
    (exec site c).Keeps (Desks mine) (fun _ _ => True) (fun _ => inv) w

theorem Hosts.eqUpToIgnored {tracks : Prop} {f : Exec P → Run P α} {exec exec' : Exec P} {inv : World P → Prop}
    (hosts : Hosts tracks (mine ·.thread) f) (stable : ∀ v u, inv v → Desks mine u = Desks mine v → inv u)
    (code : Imitates mine inv exec exec') (w : World P) (holds : inv w) :
    Run.EqUpToIgnored (Desks mine) (f exec) (f exec') w ∧
      (f exec).Keeps (Desks mine) (fun _ _ => True) (fun _ => inv) w := by
  induction hosts generalizing w with
  | done a => exact ⟨.done, fun v seen => stable w v holds seen⟩
  | @act _ change next plain unheard _ ih =>
    have after : ∀ v, Desks mine v = Desks mine w → inv (change v) := by
      intro v seen
      exact stable w _ holds ((plain.quiet.desks v).trans seen)
    constructor
    · refine .both (fun _ _ _ => plain.deaf.eqUpToIgnored) ?_
      intro v v' seen alike
      obtain ⟨equal, _⟩ := ih v _ (after v seen)
      rw [unheard v', alike, ← unheard v]
      exact equal
    · intro v seen
      obtain ⟨_, keeps⟩ := ih v _ (after v seen)
      exact ⟨trivial, keeps⟩
  | bind _ _ first rest =>
    obtain ⟨equal, keeps⟩ := first w holds
    constructor
    · exact equal.bind keeps fun a v holds => (rest a v holds).1
    · exact keeps.bind (fun a v holds => (rest a v holds).2) fun _ _ holds => holds
  | code site c on => exact code site c on w holds

namespace Tracer

variable {t : Tracer P} {exec exec' : Exec P} {site : Site} {trigger : Trigger} {w v : World P} {course : List Event}

/-- The code of `exec'` does what that of `exec` does while the report is under construction. -/
def ImitatesFiled (crew : List String) (mine : Thread → Prop) (t : Tracer P) (thread : Thread) (trigger : Trigger)
    (w : World P) (exec exec' : Exec P) : Prop :=
  ∀ course, Imitates mine (Filed crew mine t.name thread trigger w course) exec exec'

/-- Code of the library that runs while the report is under construction. -/
theorem hosts_eqUpToIgnored {f : Exec P → Run P α} (hosts : Hosts False (mine ·.thread) f) (on : mine site.thread)
    (code : ImitatesFiled crew mine t site.thread trigger w exec exec')
    (filed : Filed crew mine t.name site.thread trigger w course v) :
    Run.EqUpToIgnored (Desks mine) (f exec) (f exec') v ∧ (f exec).Keeps (Desks mine) (fun _ _ => True)
      (fun _ => Filed crew mine t.name site.thread trigger w course) v :=
  hosts.eqUpToIgnored (fun _ _ filed same => filed.congr on same) (code course) v filed

theorem finishText_eqUpToIgnored (writing : Filed crew mine t.name site.thread trigger w course v)
    (on : mine site.thread)
    (code : ImitatesFiled crew mine t site.thread trigger w exec exec') :
    Run.EqUpToIgnored (Desks mine) (t.finishText exec site trigger) (t.finishText exec' site trigger) v := by
  have returns : ∀ (result : Except Fault String) (u : World P),
      Run.EqUpToIgnored (Desks mine)
        (do Run.note (.written t.name site.thread result)
            return result : Run P (Except Fault String))
        (do Run.note (.written t.name site.thread result)
            return result) u := fun result u =>
    .step (deaf_note _) (fun _ => rfl) fun _ _ => .done
  obtain ⟨turn, keeps⟩ := hosts_eqUpToIgnored (hosts_takeTurn on t .serializer) on code writing
  refine turn.bind keeps ?_
  intro turn y writing
  cases turn with
  | some f => exact returns (.error f) y
  | none =>
    obtain ⟨write, keeps⟩ := hosts_eqUpToIgnored (t.serializer.hosts_write on trigger) on code writing
    exact write.bind keeps fun text z _ => returns (.ok text) z

theorem deliver_eqUpToIgnored {report : String} {kind : ReportKind}
    (filed : Filed crew mine t.name site.thread trigger w course v) (on : mine site.thread)
    (code : ImitatesFiled crew mine t site.thread trigger w exec exec') :
    Run.EqUpToIgnored (Desks mine) (t.deliver exec site kind report) (t.deliver exec' site kind report) v := by
  refine .step (deaf_note _) (fun _ => rfl) ?_
  intro x seen
  have delivering := (filed.congr on seen).noted (e := .delivering t.name site.thread kind report) rfl
    ⟨fun _ => rfl, fun _ => by simp⟩
  obtain ⟨turn, keeps⟩ := hosts_eqUpToIgnored (hosts_takeTurn on t .handler) on code delivering
  refine turn.bind keeps ?_
  intro turn y delivering
  cases turn with
  | some f => exact .done
  | none => exact (hosts_eqUpToIgnored (t.handler.hosts_deliver t.name kind report) on code delivering).1

theorem build_eqUpToIgnored {method : String} {words : Wording}
    (filed : Filed crew mine t.name site.thread trigger w [] v)
    (on : mine site.thread) (sound : SoundCode crew mine exec)
    (code : ImitatesFiled crew mine t site.thread trigger w exec exec') :
    Run.EqUpToIgnored (Desks mine) (t.build exec site method trigger words)
      (t.build exec' site method trigger words) v := by
  rw [build_eq, build_eq]
  refine .step (deaf_noted fun _ => rfl) (fun _ => rfl) ?_
  intro x seen
  have writing := (filed.congr on seen).noted (e := .writing t.name site.thread trigger (trigger.frames site.thread x))
    rfl ⟨fun _ => rfl, fun _ => by simp⟩
  refine (finishText_eqUpToIgnored writing on code).bind (finishText_keeps writing on sound) ?_
  rintro (f | report) u written
  · exact .step (deaf_note _) (fun _ => rfl) fun _ _ => .done
  · refine (deliver_eqUpToIgnored written on code).bind (deliver_keeps written on sound) ?_
    rintro (f | ok) x _
    · exact .step (deaf_note _) (fun _ => rfl) fun _ _ => .done
    · exact .done

theorem offer_eqUpToIgnored {method : String} {words : Wording} (recorded : AllRecorded crew mine w)
    (on : mine site.thread) (member : t.name ∈ crew) (idle : t.name ∉ (w.desk site.thread).chain)
    (sound : SoundCode crew mine exec) (code : ImitatesFiled crew mine t site.thread trigger w exec exec')
    (begun : Desks mine v = Desks mine w) :
    Run.EqUpToIgnored (Desks mine) (t.offer exec site method trigger trigger.error? words)
      (t.offer exec' site method trigger trigger.error? words) v := by
  refine .step (deaf_admits _ _ _) (fun x => (ask_heard t.throttle x).symm) ?_
  intro x seen
  have filed := admitted_filed trigger recorded on member idle (desks_eq_iff.mp (seen.trans begun))
  cases decision : (x.ask t.throttle).1 with
  | true =>
    simp only [decision, if_true]
    exact (build_eqUpToIgnored filed on sound code).ensuring (deaf_endReport _)
  | false =>
    simp only [decision, Bool.false_eq_true, if_false]
    exact .step (deaf_note _) (fun _ => rfl) fun _ _ => .done

/-- A tracer that does not process builds no report. -/
theorem idle_of_read (recorded : (w.desk site.thread).Recorded crew) (on : mine site.thread)
    (seen : Desks mine v = Desks mine w) (unset : ¬ (v.reportingOf t.name site.thread).processing = true) :
    t.name ∉ (w.desk site.thread).chain := by
  apply recorded.free
  rw [← desks_eq_iff.mp seen _ on]
  exact Bool.eq_false_iff.mpr unset

theorem onError_eqUpToIgnored {method : String} {e : ErrorRef} (recorded : AllRecorded crew mine w)
    (on : mine site.thread) (member : t.name ∈ crew) (sound : SoundCode crew mine exec)
    (code : ∀ trigger, ImitatesFiled crew mine t site.thread trigger w exec exec') :
    Run.EqUpToIgnored (Desks mine) (t.onError exec site method e) (t.onError exec' site method e) w := by
  refine .read (fun _ => rfl) ?_
  intro x seen
  split
  · exact .step (deaf_note _) (fun _ => rfl) fun _ _ => .done
  · rename_i unset
    have idle := idle_of_read (recorded _ on) on seen unset
    refine .read (fun _ => rfl) ?_
    intro y later
    split
    · exact .step (deaf_note _) (fun _ => rfl) fun _ _ => .done
    · refine .step (fun _ => (heard_heard _).symm) (fun _ => rfl) ?_
      intro z latest
      exact offer_eqUpToIgnored recorded on member idle sound (code _) ((latest.trans later).trans seen)

theorem timeout_eqUpToIgnored {method : String} {thresholdMs actualMs : UInt64}
    (recorded : AllRecorded crew mine w) (on : mine site.thread) (member : t.name ∈ crew)
    (sound : SoundCode crew mine exec) (code : ∀ trigger, ImitatesFiled crew mine t site.thread trigger w exec exec') :
    Run.EqUpToIgnored (Desks mine) (t.timeout exec site method thresholdMs actualMs)
      (t.timeout exec' site method thresholdMs actualMs) w := by
  refine .read (fun _ => rfl) ?_
  intro x seen
  split
  · exact .step (deaf_note _) (fun _ => rfl) fun _ _ => .done
  · rename_i unset
    have idle := idle_of_read (recorded _ on) on seen unset
    refine .step (fun _ => (heard_heard _).symm) (fun _ => rfl) ?_
    intro z later
    exact offer_eqUpToIgnored recorded on member idle sound (code _) (later.trans seen)

/-! ## Calls that nobody hears -/

/-- While a tracer builds a report, its hooks look at that and return. -/
theorem ignored_eqUpToIgnored {next : Bool → Run P (Except Fault Unit)} (recorded : (w.desk site.thread).Recorded crew)
    (on : mine site.thread) (busy : t.name ∈ (w.desk site.thread).chain)
    (returns : ∀ v, Run.EqUpToIgnored (Desks mine) (next true) (.done (.ok ())) v) :
    Run.EqUpToIgnored (Desks mine) (t.isProcessing site.thread >>= next) (.done (.ok ())) w := by
  refine .left (fun v _ => .refl v) ?_
  intro v seen
  have processing := (recorded.processing t.name).mpr busy
  rw [← desks_eq_iff.mp seen _ on] at processing
  show Run.EqUpToIgnored (Desks mine) (next (v.reportingOf t.name site.thread).processing) (.done (.ok ())) v
  rw [show (v.reportingOf t.name site.thread).processing = true from processing]
  exact returns v

/-- Nobody hears a log entry on an ignored call. -/
theorem ignored_log_eqUpToIgnored {method message : String}
    (ignored : message = errorWording.ignored ∨ message = timeoutWording.ignored) :
    Run.EqUpToIgnored (Desks mine)
      (do log .debug method message
          return .ok () : Run P (Except Fault Unit)) (.done (.ok ())) w := by
  refine .left ?_ fun v _ => .done
  intro v _
  have unheard : (Event.logged ⟨.debug, .tracer, message, [("method", method)]⟩).isIgnored = true := by
    simpa [Event.isIgnored] using ignored
  show (v.note _).heard = v.heard
  rw [heard_note, if_pos unheard]

theorem call_eqUpToIgnored (exec : Exec P) (hook : Hook P) (recorded : (w.desk site.thread).Recorded crew)
    (on : mine site.thread) (busy : t.name ∈ (w.desk site.thread).chain) :
    Run.EqUpToIgnored (Desks mine) (t.call exec site hook) (.done (.ok ())) w := by
  cases hook with
  | entering owner method params => exact ignored_eqUpToIgnored recorded on busy fun _ => .done
  | enteringFlat owner method params => exact ignored_eqUpToIgnored recorded on busy fun _ => .done
  | exiting => exact ignored_eqUpToIgnored recorded on busy fun _ => .done
  | valueChange name value => exact ignored_eqUpToIgnored recorded on busy fun _ => .done
  | returning value => exact .done
  | onError method e => exact ignored_eqUpToIgnored recorded on busy fun _ => ignored_log_eqUpToIgnored (.inl rfl)
  | timeout method thresholdMs actualMs =>
    exact ignored_eqUpToIgnored recorded on busy fun _ => ignored_log_eqUpToIgnored (.inr rfl)

end Tracer

/-! ## Runs with calls left out -/

/-- Inside a report, the tracer is at work on it. -/
def Ready (mine : Thread → Prop) (tracer : String) (thread : Thread) (inside : Prop) (w : World P) : Prop :=
  inside → mine thread ∧ tracer ∈ (w.desk thread).chain

theorem Ready.continues {w v : World P} (ready : Ready mine tracer thread inside w)
    (continuing : Continuing crew mine w v) : Ready mine tracer thread inside v := by
  intro within
  obtain ⟨own, under⟩ := ready within
  exact ⟨own, (continuing thread own).same ▸ under⟩

theorem Filed.imitates {t : Tracer P} {exec exec' : Exec P} {site : Site} {trigger : Trigger} {w : World P}
    (on : mine site.thread) (ready : Ready mine tracer thread inside w) (sound : SoundCode crew mine exec)
    (code : ∀ site' c, mine site'.thread → ∀ v, AllRecorded crew mine v →
      Ready mine tracer thread (inside ∨ t.name = tracer ∧ site.thread = thread) v →
        Run.EqUpToIgnored (Desks mine) (exec site' c) (exec' site' c) v) :
    Tracer.ImitatesFiled crew mine t site.thread trigger w exec exec' := by
  intro course site' c on' v filed
  refine ⟨code site' c on' v filed.allRecorded ?_, ?_⟩
  · rintro (within | ⟨rfl, rfl⟩)
    · obtain ⟨own, under⟩ := ready within
      exact ⟨own, (filed.allWithin thread own).chain.mem under⟩
    · exact ⟨on, by simp [filed.chain]⟩
  · exact (filed.run on (sound site' c on')).mono (fun _ _ _ => trivial) fun _ _ filed => filed

/-- A run does what it did before calls were left out. -/
theorem Erases.eqUpToIgnored {m m' : Run P α} (erases : Erases crew mine tracer thread inside m m') (w : World P)
    (recorded : AllRecorded crew mine w) (ready : Ready mine tracer thread inside w) :
    Run.EqUpToIgnored (Desks mine) m m' w := by
  induction erases generalizing w with
  | done => exact .done
  | stop => exact .stop
  | @act _ _ change _ _ quiet deaf _ _ ih =>
    refine .both (fun _ _ _ => deaf.eqUpToIgnored) ?_
    intro v v' seen alike
    have continuing : Continuing crew mine w (change v) :=
      .of_desks recorded ((quiet.desks v).trans seen)
    exact ih v v' alike _ continuing.allRecorded (ready.continues continuing)
  | bind erases _ first rest =>
    refine (first w recorded ready).bind (erases.conduct.sound w recorded) ?_
    intro a v continuing
    exact rest a v continuing.allRecorded (ready.continues continuing)
  | rescue erases _ first rest =>
    refine (first w recorded ready).rescue (erases.conduct.sound w recorded) ?_
    intro e v continuing
    exact rest e v continuing.allRecorded (ready.continues continuing)
  | onError member on code ih =>
    have sound : SoundCode crew mine _ := fun site c on => (code site c on).conduct.sound
    exact Tracer.onError_eqUpToIgnored recorded on member sound fun _ => Filed.imitates on ready sound ih
  | timeout member on code ih =>
    have sound : SoundCode crew mine _ := fun site c on => (code site c on).conduct.sound
    exact Tracer.timeout_eqUpToIgnored recorded on member sound fun _ => Filed.imitates on ready sound ih
  | erased within name place member on code =>
    subst name place
    exact Tracer.call_eqUpToIgnored _ _ (recorded _ on) on (ready within).2

/-- Let any strands run, and the same strands without the calls that their code makes of hooks of
    one tracer on one thread while a report of it is built there. Whatever the first ones reach, the
    others reach too: a world that differs at most in log entries on ignored calls, with the same
    strands over, in the same way. And each such call returns without a failure and changes nothing
    but the log. -/
theorem Pool.erasure {ι : Type} [DecidableEq ι] {owner : Thread → ι} {strand strand' : ι → Run P Unit} {clocks : Clocks}
    {stamp : Nat → Stamp} {state : P.State} {q : Pool P ι}
    (erases : ∀ i, Erases crew (owner · = i) tracer thread False (strand i) (strand' i))
    (reached : Reaches ⟨strand, .start clocks stamp state⟩ q) :
    (∃ q' : Pool P ι, Reaches ⟨strand', .start clocks stamp state⟩ q' ∧ q'.world.heard = q.world.heard ∧
        ∀ i, (q.strand i).IsOver → q'.strand i = q.strand i) ∧
      (∀ (exec : Exec P) (t : Tracer P) (site : Site) (hook : Hook P), t.name = tracer → site.thread = thread →
        (q.world.reportingOf tracer thread).processing = true →
          (t.call exec site hook).Keeps (Desks (owner · = owner thread)) World.EqUpToIgnored
            (fun r _ => r = .ok (.ok ())) q.world) ∧
      ∀ (α : Type) (m m' : Run P α), Erases crew (fun _ => True) tracer thread False m m' →
        ∃ r v v', v'.heard = v.heard ∧ m.run (.start clocks stamp state) = Run.ended r v ∧
          m'.run (.start clocks stamp state) = Run.ended r v' := by
  have start := World.recorded_start crew clocks stamp state
  have keeps : ∀ i, (strand i).Keeps (Desks (owner · = i)) (Allowed crew (owner · = i)) (fun _ _ => True)
      (.start clocks stamp state) := by
    intro i
    have sound := (erases i).conduct.sound _ fun thread _ => start thread
    exact sound.mono (fun _ _ orderly => ⟨_, orderly⟩) fun _ _ _ => trivial
  refine ⟨?_, ?_, ?_⟩
  · have equal : EqUpToIgnored (fun i => Desks (owner · = i)) ⟨strand, .start clocks stamp state⟩
        ⟨strand', .start clocks stamp state⟩ :=
      ⟨.refl _, fun i => (erases i).eqUpToIgnored _ (fun other _ => start other) False.elim⟩
    obtain ⟨q', reaches, alike, equal⟩ := eqUpToIgnored_of_reaches (apart_of_allowed crew) keeps equal reached
    refine ⟨q', reaches, alike, ?_⟩
    rintro i ⟨r, finished⟩
    have own := equal i
    rw [finished] at own ⊢
    exact own.eq_endWith
  · intro exec t site hook name place processing
    subst name place
    have recorded := Reached.recorded ⟨clocks, stamp, state, strand, fun i => (erases i).conduct, reached⟩ site.thread
    have busy := (recorded.processing t.name).mp processing
    have equal : Run.EqUpToIgnored (Desks (owner · = owner site.thread)) (t.call exec site hook) (.done (.ok ()))
        q.world :=
      Tracer.call_eqUpToIgnored exec hook recorded rfl busy
    exact equal.keeps_of_done
  · intro α m m' erases
    exact (erases.eqUpToIgnored _ (fun other _ => start other) False.elim).run (.refl _)

open Sample in
/-- A serializer may call its own tracer, or not. -/
theorem Pool.erasure_sample :
    ∃ q q' : Pool program Unit,
      Pool.Reaches ⟨fun _ => discard (Sample.tracer.call exec site (.onError "outer" error)), start⟩ q ∧
        Pool.Reaches
          ⟨fun _ => discard (Sample.tracer.call (fun _ _ => pure ()) site (.onError "outer" error)), start⟩ q' ∧
        (q.strand ()).IsOver ∧ q'.world.heard = q.world.heard := by
  let pool : Pool program Unit := ⟨fun _ => discard (Sample.tracer.call exec site (.onError "outer" error)), start⟩
  let owner : Thread → Unit := fun _ => ()
  have steps := pool.reaches_after () 100
  have inner : ∀ (mine : Thread → Prop) (site' : Site) (c : program.Code), mine "main" →
      Erases ["tracer"] mine "tracer" "main" (False ∨ "tracer" = "tracer" ∧ "main" = "main")
        (exec site' c) (pure ()) := by
    intro mine site' c own
    have erased : Erases ["tracer"] mine "tracer" "main" (False ∨ "tracer" = "tracer" ∧ "main" = "main")
        (Sample.tracer.call (fun _ _ => pure ()) site (.onError "inner" error)) (.done (.ok ())) :=
      .erased (.inr ⟨rfl, rfl⟩) rfl rfl (by decide) own fun _ _ _ => .done ()
    exact .bind erased fun _ => .done ()
  have erases : ∀ i, Erases ["tracer"] (owner · = i) "tracer" "main" False
      (discard (Sample.tracer.call exec site (.onError "outer" error)))
      (discard (Sample.tracer.call (fun _ _ => pure ()) site (.onError "outer" error))) := by
    intro i
    exact .bind (.call (by decide) rfl fun site' c _ => inner _ site' c rfl) fun _ => .done ()
  obtain ⟨q', reaches, heard, _⟩ := (Pool.erasure erases steps).1
  exact ⟨_, q', steps, reaches, ⟨.ok (), rfl⟩, heard⟩

end FaultSnapshot
