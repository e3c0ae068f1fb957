import FaultSnapshot.Proofs.Conduct
import FaultSnapshot.Proofs.Interleaving

/-!
# The course of a report

What a call of a hook does to the desks of threads, whatever other strands do meanwhile. `Filed`
holds from the moment at which a trigger is let through to the end of its report; it is kept by all
code that runs in between, because such code finds the tracer busy (`Conduct.sound`).
-/

namespace FaultSnapshot

variable {P : Program} {α β σ : Type} {crew : List String} {mine : Thread → Prop}

/-- The desks of the threads of `mine`. -/
def Desks (mine : Thread → Prop) (w : World P) : {thread // mine thread} → Desk := fun thread => w.desk thread

theorem desks_eq_iff {w v : World P} :
    Desks mine v = Desks mine w ↔ ∀ thread, mine thread → v.desk thread = w.desk thread := by
  simp [Desks, funext_iff]

theorem Quiet.desks {change : World P → World P} (quiet : Quiet change) (w : World P) :
    Desks mine (change w) = Desks mine w := by
  rw [desks_eq_iff]
  intro thread _
  exact quiet w thread

/-- The desks of the threads of `mine` are in order. -/
def AllRecorded (crew : List String) (mine : Thread → Prop) (w : World P) : Prop :=
  ∀ thread, mine thread → (w.desk thread).Recorded crew

/-- What each step from `v` to `u` does, of a run that began in `w`: the desks of other threads stay,
    and on those of `mine` the reports that were under construction in `w` are still untouched. -/
def Orderly (crew : List String) (mine : Thread → Prop) (w v u : World P) : Prop :=
  ∀ thread, (¬ mine thread → u.desk thread = v.desk thread) ∧
    (mine thread → (u.desk thread).Recorded crew ∧ Desk.Within (w.desk thread) (v.desk thread))

/-- The run leaves the reports of the threads of `mine` as it found them. -/
def Continuing (crew : List String) (mine : Thread → Prop) (w v : World P) : Prop :=
  ∀ thread, mine thread → Desk.Continues crew (w.desk thread) (v.desk thread)

/-- The run takes orderly steps and ends with the reports under construction that it began with. -/
def Sound (crew : List String) (mine : Thread → Prop) (m : Run P α) : Prop :=
  ∀ w, AllRecorded crew mine w → m.Keeps (Desks mine) (Orderly crew mine w) (fun _ => Continuing crew mine w) w

theorem Continuing.of_desks {w v : World P} (recorded : AllRecorded crew mine w)
    (same : Desks mine v = Desks mine w) : Continuing crew mine w v := by
  intro thread on
  rw [desks_eq_iff.mp same thread on]
  exact Desk.Continues.refl (recorded thread on)

theorem Continuing.allRecorded {w v : World P} (continuing : Continuing crew mine w v) : AllRecorded crew mine v := by
  intro thread on
  exact (continuing thread on).recorded

theorem Continuing.within {w v : World P} (continuing : Continuing crew mine w v) (thread : Thread)
    (on : mine thread) : Desk.Within (w.desk thread) (v.desk thread) := (continuing thread on).toWithin

/-- A tracer that built no report builds none afterwards. -/
theorem Continuing.idle {w v : World P} {tracer : String} {thread : Thread} (continuing : Continuing crew mine w v)
    (on : mine thread) (idle : tracer ∉ (w.desk thread).chain) : tracer ∉ (v.desk thread).chain := by
  rw [(continuing thread on).same]
  exact idle

theorem Continuing.trans {w v u : World P} (first : Continuing crew mine w v) (later : Continuing crew mine v u) :
    Continuing crew mine w u := by
  intro thread on
  exact (first thread on).trans (later thread on)

theorem Orderly.of_within {w w' v u : World P}
    (within : ∀ thread, mine thread → Desk.Within (w.desk thread) (w'.desk thread))
    (orderly : Orderly crew mine w' v u) : Orderly crew mine w v u := by
  intro thread
  obtain ⟨elsewhere, here⟩ := orderly thread
  refine ⟨elsewhere, ?_⟩
  intro on
  obtain ⟨recorded, later⟩ := here on
  exact ⟨recorded, (within thread on).trans later⟩

theorem Orderly.of_parts {w v u : World P} (elsewhere : ∀ thread, ¬ mine thread → u.desk thread = v.desk thread)
    (recorded : AllRecorded crew mine u)
    (within : ∀ thread, mine thread → Desk.Within (w.desk thread) (v.desk thread)) : Orderly crew mine w v u := by
  intro thread
  refine ⟨elsewhere thread, ?_⟩
  intro on
  exact ⟨recorded thread on, within thread on⟩

/-! ## Sound runs -/

namespace Sound

/-- A sound run may come after what only continues. -/
theorem after {m : Run P α} (sound : Sound crew mine m) {w v : World P} (continuing : Continuing crew mine w v) :
    m.Keeps (Desks mine) (Orderly crew mine w) (fun _ => Continuing crew mine w) v := by
  refine (sound v continuing.allRecorded).mono ?_ ?_
  · intro x y orderly
    exact orderly.of_within continuing.within
  · intro r x later
    exact continuing.trans later

theorem done (a : α) : Sound (P := P) crew mine (.done a) := by
  intro _ recorded _ same
  exact .of_desks recorded same

theorem stop (e : Interrupt) : Sound crew mine (.stop e : Run P α) := by
  intro _ recorded _ same
  exact .of_desks recorded same

theorem act {change : World P → World P} {next : World P → Run P α} (quiet : Quiet change)
    (rest : ∀ w, Sound crew mine (next w)) : Sound crew mine (.act change next) := by
  intro w recorded v same
  have sameAfter : Desks mine (change v) = Desks mine w := (quiet.desks v).trans same
  constructor
  · intro thread
    refine ⟨fun _ => quiet v thread, ?_⟩
    intro on
    constructor
    · rw [desks_eq_iff.mp sameAfter thread on]
      exact recorded thread on
    · rw [desks_eq_iff.mp same thread on]
      exact Desk.Within.refl _
  · exact (rest v).after (.of_desks recorded sameAfter)

theorem bind {m : Run P α} {k : α → Run P β} (first : Sound crew mine m) (rest : ∀ a, Sound crew mine (k a)) :
    Sound crew mine (m >>= k) := by
  intro w recorded
  refine (first w recorded).bind ?_ ?_
  · intro a v continuing
    exact (rest a).after continuing
  · intro e v continuing
    exact continuing

theorem rescue {m : Run P α} {handle : Interrupt → Run P α} (first : Sound crew mine m)
    (rest : ∀ e, Sound crew mine (handle e)) : Sound crew mine (tryCatch m handle) := by
  intro w recorded
  refine (first w recorded).rescue ?_ ?_
  · intro a v continuing
    exact continuing
  · intro e v continuing
    exact (rest e).after continuing

end Sound

/-- Code of the program is sound on the threads of `mine`. -/
def SoundCode (crew : List String) (mine : Thread → Prop) (exec : Exec P) : Prop :=
  ∀ site c, mine site.thread → Sound crew mine (exec site c)

theorem Hosts.sound {tracks : Prop} {f : Exec P → Run P α} {exec : Exec P}
    (hosts : Hosts tracks (mine ·.thread) f) (code : SoundCode crew mine exec) :
    Sound crew mine (f exec) := by
  induction hosts with
  | done a => exact .done a
  | act plain _ _ ih => exact .act plain.quiet ih
  | bind _ _ first rest => exact .bind first rest
  | code site c on => exact code site c on

/-! ## A report under construction -/

/-- From `w` on, the trigger was let through, and `course` is what has come of its report until `v`. -/
structure Filed (crew : List String) (mine : Thread → Prop) (tracer : String) (thread : Thread) (trigger : Trigger)
    (w : World P) (course : List Event) (v : World P) : Prop where
  others : ∀ other, mine other → other ≠ thread → Desk.Continues crew (w.desk other) (v.desk other)
  recorded : (v.desk thread).Recorded crew
  within : Desk.Within (w.desk thread) (v.desk thread)
  chain : (v.desk thread).chain = tracer :: (w.desk thread).chain
  history : (v.desk thread).history tracer =
    (w.desk thread).history tracer ++ .asked tracer thread trigger true :: course
  known : (v.desk thread).known tracer = ⟨true, trigger.error?⟩

/-- The tracer processes in `v` exactly if one of its triggers was let through since `w`. -/
def Admission (tracer : String) (thread : Thread) (w v : World P) : Prop :=
  ∃ new, (v.desk thread).history tracer = (w.desk thread).history tracer ++ new ∧
    (((v.desk thread).known tracer).processing = true ↔ ∃ trigger, .asked tracer thread trigger true ∈ new)

/-- What each step does, from `v` to `u`, of a call of a hook that began in `w`. -/
def Tracked (crew : List String) (mine : Thread → Prop) (tracer : String) (thread : Thread) (w v u : World P) : Prop :=
  Orderly crew mine w v u ∧ Admission tracer thread w v

/-- What comes of a trigger between its admission and the end of its report, written of `frames`, and
    how the call ends. -/
inductive Course (tracer : String) (thread : Thread) (trigger : Trigger) (frames : List (Picture Unit)) :
    List Event → Except Interrupt (Except Fault Unit) → Prop
  | interrupted (e : Interrupt) :
      Course tracer thread trigger frames [.writing tracer thread trigger frames] (.error e)
  | notWritten (f : Fault) :
      Course tracer thread trigger frames [.writing tracer thread trigger frames, .written tracer thread (.error f)]
        (.ok (.error f))
  | handedOver (report : String) (r : Except Interrupt (Except Fault Unit)) :
      Course tracer thread trigger frames
        [.writing tracer thread trigger frames, .written tracer thread (.ok report),
          .delivering tracer thread trigger.kind report] r

theorem Course.last {tracer : String} {thread : Thread} {trigger : Trigger} {frames : List (Picture Unit)}
    {events : List Event} {r : Except Interrupt (Except Fault Unit)}
    (course : Course tracer thread trigger frames events r) (before : List Event) :
    lastAdmitted? (before ++ .asked tracer thread trigger true :: (events ++ [.ended tracer thread])) =
      some trigger := by
  cases course <;> simp [lastAdmitted?]

/-- What comes of a trigger: the throttle is asked once, and all or nothing of a report follows, as it
    answers. A trigger that was let through is the last one, whatever came of its report. -/
inductive Answered (tracer : String) (thread : Thread) (trigger : Trigger) (w : World P) :
    Bool → Except Interrupt (Except Fault Unit) → World P → Prop
  | rejected {v : World P}
      (history : (v.desk thread).history tracer =
        (w.desk thread).history tracer ++ [.asked tracer thread trigger false])
      (known : (v.desk thread).known tracer = (w.desk thread).known tracer) :
      Answered tracer thread trigger w false (.ok (.ok ())) v
  | admitted {v : World P} {frames : List (Picture Unit)} {events : List Event}
      {r : Except Interrupt (Except Fault Unit)} (course : Course tracer thread trigger frames events r)
      (history : (v.desk thread).history tracer =
        (w.desk thread).history tracer ++ .asked tracer thread trigger true :: (events ++ [.ended tracer thread]))
      (known : (v.desk thread).known tracer = ⟨false, trigger.error?⟩)
      (last : lastAdmitted? ((v.desk thread).history tracer) = some trigger) :
      Answered tracer thread trigger w true r v

theorem Admission.congr {tracer : String} {thread : Thread} {w v u : World P} (admission : Admission tracer thread w v)
    (same : u.desk thread = v.desk thread) : Admission tracer thread w u := by
  rw [Admission, same]
  exact admission

/-- A tracer that is idle and asked for nothing does not process. -/
theorem Admission.of_idle {tracer : String} {thread : Thread} {w v : World P} (recorded : (w.desk thread).Recorded crew)
    (idle : tracer ∉ (w.desk thread).chain) (same : v.desk thread = w.desk thread) : Admission tracer thread w v :=
  ⟨[], by simp [same], by simp [same, recorded.idle idle]⟩

/-- Quiet steps are allowed at moments when the desks are those of `y`. -/
def Calm (mine : Thread → Prop) (guar : World P → World P → Prop) (y : World P) : Prop :=
  ∀ v u, Desks mine v = Desks mine y → (∀ thread, u.desk thread = v.desk thread) → guar v u

theorem Continuing.calm {w y : World P} (continuing : Continuing crew mine w y) :
    Calm mine (Orderly crew mine w) y := by
  intro v u seen quiet thread
  refine ⟨fun _ => quiet thread, ?_⟩
  intro on
  rw [quiet thread, desks_eq_iff.mp seen thread on]
  exact ⟨(continuing thread on).recorded, (continuing thread on).toWithin⟩

theorem Continuing.calm_tracked {tracer : String} {thread : Thread} {w y : World P}
    (continuing : Continuing crew mine w y) (on : mine thread) (admission : Admission tracer thread w y) :
    Calm mine (Tracked crew mine tracer thread w) y := by
  intro v u seen quiet
  exact ⟨continuing.calm v u seen quiet, admission.congr (desks_eq_iff.mp seen thread on)⟩

/-- One who sees the desks of the threads of `mine`, and not how many triggers were made. -/
structure Attends (mine : Thread → Prop) (see : World P → σ) : Prop where
  desks : ∀ v u, see v = see u → Desks mine v = Desks mine u
  uncounted : ∀ v n, see { v with triggers := n } = see v

theorem attends_desks (mine : Thread → Prop) : Attends (P := P) mine (Desks mine) :=
  ⟨fun _ _ same => same, fun _ _ => rfl⟩

namespace Calm

variable {guar : World P → World P → Prop} {y v : World P} {k : α → Run P β} {see : World P → σ}
variable {post : Except Interrupt β → World P → Prop}

theorem step {f : World P → α × World P} (calm : Calm mine guar y) (attends : Attends mine see)
    (quiet : Quiet fun x => (f x).2) (seen : Desks mine v = Desks mine y)
    (rest : ∀ x, see x = see v → Desks mine (f x).2 = Desks mine y → (k (f x).1).Keeps see guar post (f x).2) :
    (modifyGet f >>= k).Keeps see guar post v := by
  refine Run.Keeps.step ?_
  intro x same
  have now := (attends.desks x v same).trans seen
  have after : Desks mine (f x).2 = Desks mine x := quiet.desks x
  exact ⟨calm x _ now (quiet x), rest x same (after.trans now)⟩

theorem read {g : World P → α} (calm : Calm mine guar y) (attends : Attends mine see)
    (seen : Desks mine v = Desks mine y)
    (rest : ∀ x, see x = see v → Desks mine x = Desks mine y → (k (g x)).Keeps see guar post x) :
    ((do return g (← get)) >>= k).Keeps see guar post v := by
  intro x same
  have now := (attends.desks x v same).trans seen
  exact ⟨calm x x now fun _ => rfl, rest x same now⟩

end Calm

namespace Filed

variable {tracer : String} {thread : Thread} {trigger : Trigger} {w v u : World P} {course : List Event}

theorem admission (filed : Filed crew mine tracer thread trigger w course v) : Admission tracer thread w v :=
  ⟨_, filed.history, by simp [filed.known]⟩

theorem continues (filed : Filed crew mine tracer thread trigger w course v) (on : mine thread)
    (continuing : Continuing crew mine v u) : Filed crew mine tracer thread trigger w course u := by
  have own := continuing thread on
  have member : tracer ∈ (v.desk thread).chain := by simp [filed.chain]
  exact {
    others := fun other on ne => (filed.others other on ne).trans (continuing other on)
    recorded := own.recorded
    within := filed.within.trans own.toWithin
    chain := own.same.trans filed.chain
    history := (own.history tracer member).trans filed.history
    known := (own.known tracer member).trans filed.known }

/-- The desks of the threads of `mine` stay in order. -/
theorem allRecorded (filed : Filed crew mine tracer thread trigger w course v) : AllRecorded crew mine v := by
  intro other on
  by_cases same : other = thread
  · exact same ▸ filed.recorded
  · exact (filed.others other on same).recorded

theorem congr (filed : Filed crew mine tracer thread trigger w course v) (on : mine thread)
    (same : Desks mine u = Desks mine v) : Filed crew mine tracer thread trigger w course u :=
  filed.continues on (.of_desks filed.allRecorded same)

theorem allWithin (filed : Filed crew mine tracer thread trigger w course v) (other : Thread) (on : mine other) :
    Desk.Within (w.desk other) (v.desk other) := by
  by_cases same : other = thread
  · exact same ▸ filed.within
  · exact (filed.others other on same).toWithin

/-- Any step is allowed that keeps the desks in order. -/
theorem tracked (filed : Filed crew mine tracer thread trigger w course v)
    (elsewhere : ∀ other, ¬ mine other → u.desk other = v.desk other) (recorded : AllRecorded crew mine u) :
    Tracked crew mine tracer thread w v u :=
  ⟨.of_parts elsewhere recorded filed.allWithin, filed.admission⟩

/-- While the report is under construction, sound code does not touch it. -/
theorem run {m : Run P α} (filed : Filed crew mine tracer thread trigger w course v) (on : mine thread)
    (sound : Sound crew mine m) :
    m.Keeps (Desks mine) (Tracked crew mine tracer thread w)
      (fun _ u => Filed crew mine tracer thread trigger w course u) v := by
  refine (sound v filed.allRecorded).mono (fun x y orderly => ⟨orderly.of_within filed.allWithin, ?_⟩)
    fun _ _ continuing => filed.continues on continuing
  have within := ((orderly thread).2 on).2
  have member : tracer ∈ (v.desk thread).chain := by simp [filed.chain]
  refine ⟨_, (within.history tracer member).trans filed.history, ?_⟩
  simp [within.known tracer member, filed.known]

/-- Code of the library does not touch it either. -/
theorem hosts {f : Exec P → Run P α} {exec : Exec P} (filed : Filed crew mine tracer thread trigger w course v)
    (on : mine thread) (hosts : Hosts False (mine ·.thread) f) (code : SoundCode crew mine exec) :
    (f exec).Keeps (Desks mine) (Tracked crew mine tracer thread w)
      (fun _ u => Filed crew mine tracer thread trigger w course u) v :=
  filed.run on (hosts.sound code)

/-- The next event of the report. -/
theorem noted {e : Event} (filed : Filed crew mine tracer thread trigger w course v)
    (place : e.place? = some (tracer, thread)) (steady : Desk.Steady e) :
    Filed crew mine tracer thread trigger w (course ++ [e]) (v.note e) := by
  have own : (v.note e).desk thread = (v.desk thread).push e := by simp [World.desk_note, Event.isOn, place]
  have elsewhere : ∀ other, other ≠ thread → (v.note e).desk other = v.desk other := by
    intro other ne
    simp [World.desk_note, Event.isOn, place, Ne.symm ne]
  refine ⟨?_, ?_, ?_, ?_, ?_, ?_⟩
  · intro other on ne
    rw [elsewhere other ne]
    exact filed.others other on ne
  · rw [own]
    exact filed.recorded.push place steady
  · rw [own]
    refine ⟨?_, filed.within.known, ?_⟩
    · rw [Desk.chain_push, steady.chain]
      exact filed.within.chain
    · intro other member
      have nodup := filed.recorded.nodup
      rw [filed.chain, List.nodup_cons] at nodup
      have ne : tracer ≠ other := fun same => nodup.1 (same ▸ member)
      rw [Desk.history_push_other (by simp [Desk.isOf_eq place, ne])]
      exact filed.within.history other member
  · rw [own, Desk.chain_push, steady.chain]
    exact filed.chain
  · rw [own, Desk.history_push_self (by simp [Desk.isOf_eq place]), filed.history]
    simp
  · rw [own]
    exact filed.known

/-- The next event of the report is a step of the call. -/
theorem note {e : World P → Event} {k : Unit → Run P β} {post : Except Interrupt β → World P → Prop}
    (filed : Filed crew mine tracer thread trigger w course v) (on : mine thread)
    (place : ∀ x, (e x).place? = some (tracer, thread)) (steady : ∀ x, Desk.Steady (e x))
    (rest : ∀ x u, Filed crew mine tracer thread trigger w (course ++ [e x]) u →
      (k ()).Keeps (Desks mine) (Tracked crew mine tracer thread w) post u) :
    ((modify fun x => x.note (e x) : Run P Unit) >>= k).Keeps (Desks mine) (Tracked crew mine tracer thread w)
      post v := by
  intro x same
  have here := filed.congr on same
  have noted := here.noted (place x) (steady x)
  refine ⟨here.tracked ?_ noted.allRecorded, rest x _ noted⟩
  intro other off
  have ne : other ≠ thread := fun same => off (same ▸ on)
  simp [World.desk_note, Event.isOn, place, Ne.symm ne]

/-- A quiet step that answers nothing may come next. -/
theorem quiet {change : World P → World P} {k : Unit → Run P β} {post : Except Interrupt β → World P → Prop}
    (filed : Filed crew mine tracer thread trigger w course v) (on : mine thread) (quiet : Quiet change)
    (rest : ∀ u, Filed crew mine tracer thread trigger w course u →
      (k ()).Keeps (Desks mine) (Tracked crew mine tracer thread w) post u) :
    ((modify change : Run P Unit) >>= k).Keeps (Desks mine) (Tracked crew mine tracer thread w) post v := by
  intro x same
  have here := filed.congr on same
  have after := here.congr on (quiet.desks x)
  exact ⟨here.tracked (fun other _ => quiet x other) after.allRecorded, rest _ after⟩

/-- The report starts when the trigger is let through. -/
theorem start (recorded : AllRecorded crew mine w) (on : mine thread) (member : tracer ∈ crew)
    (idle : tracer ∉ (w.desk thread).chain)
    (own : v.desk thread =
      ((w.desk thread).push (.asked tracer thread trigger true)).learn tracer ⟨true, trigger.error?⟩)
    (elsewhere : ∀ other, mine other → other ≠ thread → v.desk other = w.desk other) :
    Filed crew mine tracer thread trigger w [] v where
  others other on ne := by
    rw [elsewhere other on ne]
    exact .refl (recorded other on)
  recorded := own ▸ (recorded thread on).start member idle
  within := by
    rw [own]
    exact Desk.within_start idle
  chain := by simp [own, Desk.chainAfter]
  history := by rw [own, Desk.history_learn, Desk.history_push_self (by simp [Event.isOf, Event.place?])]
  known := by rw [own, Desk.known_learn_self]

/-- The report ends and leaves no trace but its events and the remembered error. -/
theorem finish (filed : Filed crew mine tracer thread trigger w course v)
    (own : u.desk thread =
      ((v.desk thread).learn tracer { (v.desk thread).known tracer with processing := false }).push
        (.ended tracer thread))
    (elsewhere : ∀ other, other ≠ thread → u.desk other = v.desk other) : Continuing crew mine w u := by
  intro other on
  by_cases same : other = thread
  · subst same
    have nodup := filed.recorded.nodup
    rw [filed.chain, List.nodup_cons] at nodup
    have chain : (u.desk other).chain = (w.desk other).chain := by simp [own, Desk.chainAfter, filed.chain]
    refine ⟨⟨chain ▸ List.suffix_rfl, ?_, ?_⟩, chain, own ▸ filed.recorded.finish filed.chain⟩
    · intro name under
      have ne : name ≠ tracer := fun same => nodup.1 (same ▸ under)
      rw [own, Desk.known_push, Desk.known_learn_of_ne ne]
      exact filed.within.known name under
    · intro name under
      have ne : tracer ≠ name := fun same => nodup.1 (same ▸ under)
      rw [own, Desk.history_push_other (by simp [Event.isOf, Event.place?, ne]), Desk.history_learn]
      exact filed.within.history name under
  · rw [elsewhere other same]
    exact filed.others other on same

end Filed

/-! ## The calls -/

namespace Tracer

variable {exec : Exec P} {t : Tracer P} {site : Site} {trigger : Trigger} {w v : World P} {course events : List Event}

/-- What has come of a report of `frames` once the serializer returned `r`. -/
def Serialized (crew : List String) (mine : Thread → Prop) (t : Tracer P) (thread : Thread) (trigger : Trigger)
    (frames : List (Picture Unit)) (w : World P) (r : Except Interrupt (Except Fault String)) (v : World P) : Prop :=
  Filed crew mine t.name thread trigger w (.writing t.name thread trigger frames :: match r with
    | .ok result => [.written t.name thread result]
    | .error _ => []) v

/-- The return of the serializer is noted, whatever it returned. -/
theorem returned_keeps {frames : List (Picture Unit)} (result : Except Fault String)
    (writing : Filed crew mine t.name site.thread trigger w [.writing t.name site.thread trigger frames] v)
    (on : mine site.thread) :
    (do Run.note (.written t.name site.thread result)
        return result : Run P (Except Fault String)).Keeps (Desks mine) (Tracked crew mine t.name site.thread w)
      (Serialized crew mine t site.thread trigger frames w) v := by
  refine writing.note on (fun _ => rfl) (fun _ => ⟨fun _ => rfl, fun _ => by simp⟩) ?_
  intro _ y noted z same
  exact noted.congr on same

theorem finishText_keeps {frames : List (Picture Unit)}
    (writing : Filed crew mine t.name site.thread trigger w [.writing t.name site.thread trigger frames] v)
    (on : mine site.thread) (code : SoundCode crew mine exec) :
    (t.finishText exec site trigger).Keeps (Desks mine) (Tracked crew mine t.name site.thread w)
      (Serialized crew mine t site.thread trigger frames w) v := by
  refine (writing.hosts on (hosts_takeTurn on t .serializer) code).bind ?_ fun _ _ writing => writing
  intro turn y writing
  cases turn with
  | some f => exact returned_keeps (.error f) writing on
  | none =>
    exact (writing.hosts on (t.serializer.hosts_write on trigger) code).bind
      (fun text z writing => returned_keeps (.ok text) writing on) fun _ _ writing => writing

theorem deliver_keeps {report : String} {kind : ReportKind}
    (filed : Filed crew mine t.name site.thread trigger w course v) (on : mine site.thread)
    (code : SoundCode crew mine exec) :
    (t.deliver exec site kind report).Keeps (Desks mine) (Tracked crew mine t.name site.thread w)
      (fun _ u => Filed crew mine t.name site.thread trigger w
        (course ++ [.delivering t.name site.thread kind report]) u) v := by
  refine filed.note on (fun _ => rfl) (fun _ => ⟨fun _ => rfl, fun _ => by simp⟩) ?_
  intro x u delivering
  refine (delivering.hosts on (hosts_takeTurn on t .handler) code).bind ?_ fun _ _ delivering => delivering
  intro turn y delivering
  cases turn with
  | some f =>
    intro z same
    exact delivering.congr on same
  | none => exact delivering.hosts on (t.handler.hosts_deliver t.name kind report) code

/-- What the serializer returned is handed over if it is a text. -/
theorem handOver_keeps {method : String} {words : Wording} {frames : List (Picture Unit)}
    {result : Except Fault String}
    (written : Serialized crew mine t site.thread trigger frames w (.ok result) v)
    (on : mine site.thread) (code : SoundCode crew mine exec) :
    (t.handOver exec site method trigger words result).Keeps (Desks mine) (Tracked crew mine t.name site.thread w)
      (fun r u => ∃ events, Course t.name site.thread trigger frames events r ∧
        (∀ report, .written t.name site.thread (.ok report) ∈ events → result = .ok report) ∧
        Filed crew mine t.name site.thread trigger w events u) v := by
  cases result with
  | error f =>
    refine written.quiet on (quiet_note rfl) ?_
    intro x logged y same
    exact ⟨_, .notWritten f, by simp, logged.congr on same⟩
  | ok report =>
    refine (deliver_keeps written on code).bind ?_ fun e x delivering => ⟨_, .handedOver report _, by simp, delivering⟩
    rintro (f | ok) x delivering
    · refine delivering.quiet on (quiet_note rfl) ?_
      intro y logged z same
      exact ⟨_, .handedOver report _, by simp, logged.congr on same⟩
    · intro z same
      exact ⟨_, .handedOver report _, by simp, delivering.congr on same⟩

theorem finishReport_keeps {method : String} {words : Wording} {frames : List (Picture Unit)}
    (writing : Filed crew mine t.name site.thread trigger w [.writing t.name site.thread trigger frames] v)
    (on : mine site.thread) (code : SoundCode crew mine exec) :
    (t.finishReport exec site method trigger words).Keeps (Desks mine) (Tracked crew mine t.name site.thread w)
      (fun r u => ∃ events, Course t.name site.thread trigger frames events r ∧
        Filed crew mine t.name site.thread trigger w events u) v := by
  refine (finishText_keeps writing on code).bind ?_ fun e u writing => ⟨_, .interrupted e, writing⟩
  intro result u written
  refine (handOver_keeps written on code).mono (fun _ _ step => step) ?_
  rintro r x ⟨events, course, _, filed⟩
  exact ⟨events, course, filed⟩

theorem build_keeps {method : String} {words : Wording} (filed : Filed crew mine t.name site.thread trigger w [] v)
    (on : mine site.thread) (code : SoundCode crew mine exec) :
    (t.build exec site method trigger words).Keeps (Desks mine) (Tracked crew mine t.name site.thread w)
      (fun r u => ∃ frames events, Course t.name site.thread trigger frames events r ∧
        Filed crew mine t.name site.thread trigger w events u) v := by
  rw [build_eq]
  refine filed.note on (fun _ => rfl) (fun _ => ⟨fun _ => rfl, fun _ => by simp⟩) ?_
  intro x u writing
  exact (finishReport_keeps writing on code).mono (fun _ _ step => step) fun _ _ course => ⟨_, course⟩

theorem desk_endReport (u : World P) (thread : Thread) :
    (t.endReport thread u).desk thread =
      ((u.desk thread).learn t.name { (u.desk thread).known t.name with processing := false }).push
        (.ended t.name thread) := by
  simp [endReport, World.desk_note, Event.isOn, Event.place?, World.desk_setReporting]
  rfl

theorem desk_endReport_of_ne (u : World P) {thread other : Thread} (ne : other ≠ thread) :
    (t.endReport thread u).desk other = u.desk other := by
  simp [endReport, World.desk_note, Event.isOn, Event.place?, Ne.symm ne, World.desk_setReporting_of_ne ne]

/-- The end of a report leaves no trace but its events and the remembered error. -/
theorem endReport_settles (filed : Filed crew mine t.name site.thread trigger w events v) :
    Continuing crew mine w (t.endReport site.thread v) ∧
      ((t.endReport site.thread v).desk site.thread).history t.name = (w.desk site.thread).history t.name ++
        .asked t.name site.thread trigger true :: (events ++ [.ended t.name site.thread]) ∧
      ((t.endReport site.thread v).desk site.thread).known t.name = ⟨false, trigger.error?⟩ := by
  refine ⟨filed.finish (desk_endReport v site.thread) fun _ ne => desk_endReport_of_ne v ne, ?_, ?_⟩
  · rw [desk_endReport, Desk.history_push_self (by simp [Event.isOf, Event.place?]), Desk.history_learn, filed.history]
    simp
  · rw [desk_endReport, Desk.known_push, Desk.known_learn_self, filed.known]

/-- The end of a report, as the last step of the call. -/
theorem endReport_tracked {r : Except Interrupt (Except Fault Unit)} (on : mine site.thread)
    {frames : List (Picture Unit)} (course : Course t.name site.thread trigger frames events r)
    (filed : Filed crew mine t.name site.thread trigger w events v) :
    Tracked crew mine t.name site.thread w v (t.endReport site.thread v) ∧
      ∀ u, Desks mine u = Desks mine (t.endReport site.thread v) →
        Continuing crew mine w u ∧ Answered t.name site.thread trigger w true r u := by
  obtain ⟨ending, history, known⟩ := endReport_settles filed
  constructor
  · refine filed.tracked ?_ ending.allRecorded
    intro other off
    exact desk_endReport_of_ne v fun same => off (same ▸ on)
  · intro u seen
    have own := desks_eq_iff.mp seen site.thread on
    refine ⟨ending.trans (.of_desks ending.allRecorded seen), ?_⟩
    rw [← own] at history known
    exact .admitted course history known (history ▸ course.last _)

/-- The world right after the throttle was asked, up to what the tracer knows. -/
theorem desk_asked (x : World P) (thread other : Thread) (admitted : Bool) :
    ((x.ask t.throttle).2.note (.asked t.name thread trigger admitted)).desk other =
      if thread = other then (x.desk other).push (.asked t.name thread trigger admitted) else x.desk other := by
  by_cases same : thread = other
  · simp [World.desk_note, World.desk_ask, Event.isOn, Event.place?, same]
  · simp [World.desk_note, World.desk_ask, Event.isOn, Event.place?, same]

/-- A trigger that is not let through leaves nothing but the question. -/
theorem rejected_continuing (trigger : Trigger) {x : World P} (recorded : AllRecorded crew mine w)
    (idle : t.name ∉ (w.desk site.thread).chain) (same : ∀ other, mine other → x.desk other = w.desk other) :
    Continuing crew mine w ((x.ask t.throttle).2.note (.asked t.name site.thread trigger false)) := by
  intro other on
  rw [desk_asked, same other on]
  by_cases here : site.thread = other
  · subst here
    have steady : Desk.Steady (.asked t.name site.thread trigger false) := ⟨fun _ => rfl, fun _ => by simp⟩
    rw [if_pos rfl]
    exact ⟨Desk.within_push rfl idle List.suffix_rfl, by simp [Desk.chainAfter], (recorded _ on).push rfl steady⟩
  · rw [if_neg here]
    exact Desk.Continues.refl (recorded other on)

/-- The question is all that comes of a trigger that is not let through. -/
theorem rejected_settles (trigger : Trigger) {x : World P} (on : mine site.thread)
    (same : ∀ other, mine other → x.desk other = w.desk other) :
    (((x.ask t.throttle).2.note (.asked t.name site.thread trigger false)).desk site.thread).history t.name =
        (w.desk site.thread).history t.name ++ [.asked t.name site.thread trigger false] ∧
      (((x.ask t.throttle).2.note (.asked t.name site.thread trigger false)).desk site.thread).known t.name =
        (w.desk site.thread).known t.name := by
  rw [desk_asked, if_pos rfl, same _ on]
  exact ⟨Desk.history_push_self (by simp [Event.isOf, Event.place?]), rfl⟩

theorem desk_admitted_of_ne {x : World P} {thread other : Thread} (ne : other ≠ thread) :
    (((x.ask t.throttle).2.note (.asked t.name thread trigger true)).setReporting t.name thread
      ⟨true, trigger.error?⟩).desk other = x.desk other := by
  rw [World.desk_setReporting_of_ne ne, desk_asked, if_neg (Ne.symm ne)]

/-- A trigger that is let through starts a report. -/
theorem admitted_filed (trigger : Trigger) {x : World P} (recorded : AllRecorded crew mine w)
    (on : mine site.thread) (member : t.name ∈ crew) (idle : t.name ∉ (w.desk site.thread).chain)
    (same : ∀ other, mine other → x.desk other = w.desk other) :
    Filed crew mine t.name site.thread trigger w []
      (((x.ask t.throttle).2.note (.asked t.name site.thread trigger true)).setReporting t.name site.thread
        ⟨true, trigger.error?⟩) := by
  refine .start recorded on member idle ?_ fun other on ne => (desk_admitted_of_ne ne).trans (same other on)
  rw [World.desk_setReporting, desk_asked, if_pos rfl, same _ on]

section
variable {see : World P → σ} (attends : Attends mine see) (recorded : AllRecorded crew mine w) (on : mine site.thread)
variable (member : t.name ∈ crew) (idle : t.name ∉ (w.desk site.thread).chain) (code : SoundCode crew mine exec)
variable (answers : Bool → Prop) (asked : ∀ x, see x = see w → answers (x.ask t.throttle).1)
include attends recorded on member idle code asked

/-- A call that asks the throttle about a trigger, made while the tracer builds no report. -/
theorem offer_keeps {method : String} {words : Wording} (begun : see v = see w) :
    (t.offer exec site method trigger trigger.error? words).Keeps see (Tracked crew mine t.name site.thread w)
      (fun r u => Continuing crew mine w u ∧
        ∃ admitted, answers admitted ∧ Answered t.name site.thread trigger w admitted r u) v := by
  refine Run.Keeps.step ?_
  intro x seen
  have answered := asked x (seen.trans begun)
  have same := desks_eq_iff.mp (attends.desks x w (seen.trans begun))
  have within : ∀ other, mine other → Desk.Within (w.desk other) (x.desk other) := fun other on =>
    same other on ▸ Desk.Within.refl _
  have admission : Admission t.name site.thread w x := .of_idle (recorded _ on) idle (same _ on)
  cases decision : (x.ask t.throttle).1 with
  | true =>
    have filed := admitted_filed trigger recorded on member idle same
    simp only [decision, if_true]
    constructor
    · refine ⟨.of_parts ?_ filed.allRecorded within, admission⟩
      intro other off
      exact desk_admitted_of_ne fun same => off (same ▸ on)
    · refine Run.Keeps.ensuring (Run.Keeps.finer attends.desks (build_keeps filed on code)) ?_
      rintro r u ⟨_, _, course, filed⟩
      obtain ⟨tracked, ended⟩ := endReport_tracked on course filed
      refine ⟨tracked, fun z later => ?_⟩
      obtain ⟨continuing, reported⟩ := ended z (attends.desks _ _ later)
      exact ⟨continuing, true, decision ▸ answered, reported⟩
  | false =>
    have continuing := rejected_continuing trigger recorded idle same
    obtain ⟨history, known⟩ := rejected_settles (t := t) trigger on same
    simp only [decision, Bool.false_eq_true, if_false]
    constructor
    · refine ⟨.of_parts ?_ continuing.allRecorded within, admission⟩
      intro other off
      rw [desk_asked, if_neg fun same : site.thread = other => off (same ▸ on)]
    · have unreported : Admission t.name site.thread w
          ((x.ask t.throttle).2.note (.asked t.name site.thread trigger false)) :=
        ⟨_, history, by simp [known, (recorded _ on).idle idle]⟩
      refine (continuing.calm_tracked on unreported).step attends (quiet_note rfl) rfl ?_
      intro _ _ seen z later
      have final := (attends.desks _ _ later).trans seen
      refine ⟨continuing.trans (.of_desks continuing.allRecorded final), false, decision ▸ answered, .rejected ?_ ?_⟩
      · rw [desks_eq_iff.mp final _ on, history]
      · rw [desks_eq_iff.mp final _ on, known]

end

/-- A call of a hook while the tracer builds a report does nothing. -/
theorem busy_keeps {method message : String} {rest : Run P (Except Fault Unit)}
    (recorded : AllRecorded crew mine w) (on : mine site.thread)
    (busy : t.name ∈ (w.desk site.thread).chain) :
    (do if ← t.isProcessing site.thread then
          log .debug method message
          return .ok ()
        rest : Run P (Except Fault Unit)).Keeps (Desks mine) (Orderly crew mine w)
      (fun r u => r = .ok (.ok ()) ∧ Desks mine u = Desks mine w) w := by
  have calm := (Continuing.of_desks recorded rfl).calm
  refine calm.read (attends_desks mine) rfl ?_
  intro x _ seen
  have processing : (x.reportingOf t.name site.thread).processing = true := by
    have known := ((recorded _ on).processing t.name).mpr busy
    rwa [← desks_eq_iff.mp seen _ on] at known
  rw [if_pos processing]
  exact calm.step (attends_desks mine) (quiet_note rfl) seen fun _ _ seen y later => ⟨rfl, later.trans seen⟩

/-- A tracer that builds no report on a thread may take quiet steps there. -/
theorem calm_of_idle (recorded : AllRecorded crew mine w) (on : mine site.thread)
    (idle : t.name ∉ (w.desk site.thread).chain) : Calm mine (Tracked crew mine t.name site.thread w) w :=
  (Continuing.of_desks recorded rfl).calm_tracked on (.of_idle (recorded _ on) idle rfl)

/-- A tracer that builds no report on a thread does not process there. -/
theorem not_processing {x : World P} (recorded : AllRecorded crew mine w)
    (on : mine site.thread) (idle : t.name ∉ (w.desk site.thread).chain) (seen : Desks mine x = Desks mine w) :
    ¬ (x.reportingOf t.name site.thread).processing = true := by
  intro processing
  have known : ((x.desk site.thread).known t.name).processing = true := processing
  rw [desks_eq_iff.mp seen _ on] at known
  exact idle (((recorded _ on).processing t.name).mp known)

/-- The call leaves no trace. -/
def Unasked (tracer : String) (thread : Thread) (w : World P) (r : Except Interrupt (Except Fault Unit)) (v : World P) :
    Prop :=
  r = .ok (.ok ()) ∧ (v.desk thread).history tracer = (w.desk thread).history tracer ∧
    (v.desk thread).known tracer = (w.desk thread).known tracer

section
variable {see : World P → σ} (attends : Attends mine see) (recorded : AllRecorded crew mine w) (on : mine site.thread)
variable (member : t.name ∈ crew) (idle : t.name ∉ (w.desk site.thread).chain) (code : SoundCode crew mine exec)
variable (answers : Bool → Prop) (asked : ∀ x, see x = see w → answers (x.ask t.throttle).1)
include attends recorded on member idle code asked

/-- A call about an error, made while the tracer builds no report. -/
theorem onError_keeps (method : String) (e : ErrorRef) :
    (t.onError exec site method e).Keeps see (Tracked crew mine t.name site.thread w)
      (fun r u => Continuing crew mine w u ∧
        if ((w.desk site.thread).known t.name).remembered.any (·.same e) then Unasked t.name site.thread w r u
        else ∃ (trigger : Trigger) (admitted : Bool), trigger.cause = .error e ∧ answers admitted ∧
          Answered t.name site.thread trigger w admitted r u) w := by
  have calm := calm_of_idle recorded on idle
  refine calm.read attends rfl ?_
  intro x now seen
  rw [if_neg (not_processing recorded on idle seen)]
  refine calm.read attends seen ?_
  intro y now' seen
  have propagating :
      (y.reportingOf t.name site.thread).remembered = ((w.desk site.thread).known t.name).remembered := by
    rw [← desks_eq_iff.mp seen _ on]
    rfl
  rw [propagating]
  split
  · refine calm.step attends (quiet_note rfl) seen ?_
    intro _ _ seen z later
    have final := (attends.desks _ _ later).trans seen
    have same := desks_eq_iff.mp final _ on
    exact ⟨.of_desks recorded final, rfl, by rw [same], by rw [same]⟩
  · refine calm.step attends (fun _ _ => rfl) seen ?_
    intro z now'' _
    have begun := (attends.uncounted z (z.triggers + 1)).trans (now''.trans (now'.trans now))
    refine (offer_keeps attends recorded on member idle code answers asked begun).mono (fun _ _ step => step) ?_
    rintro r v ⟨continuing, admitted, answered, settled⟩
    exact ⟨continuing, _, admitted, rfl, answered, settled⟩

/-- A call about a timeout, made while the tracer builds no report. -/
theorem timeout_keeps (method : String) (thresholdMs actualMs : UInt64) :
    (t.timeout exec site method thresholdMs actualMs).Keeps see (Tracked crew mine t.name site.thread w)
      (fun r u => Continuing crew mine w u ∧ ∃ (trigger : Trigger) (admitted : Bool),
        trigger.cause = .timeout thresholdMs actualMs ∧ answers admitted ∧
          Answered t.name site.thread trigger w admitted r u) w := by
  have calm := calm_of_idle recorded on idle
  refine calm.read attends rfl ?_
  intro x now seen
  rw [if_neg (not_processing recorded on idle seen)]
  refine calm.step attends (fun _ _ => rfl) seen ?_
  intro z now' _
  have begun := (attends.uncounted z (z.triggers + 1)).trans (now'.trans now)
  refine (offer_keeps attends recorded on member idle code answers asked begun).mono (fun _ _ step => step) ?_
  rintro r v ⟨continuing, admitted, answered, settled⟩
  exact ⟨continuing, _, admitted, rfl, answered, settled⟩

end

end Tracer

/-- Whatever code does, it leaves the reports of others under construction alone, and its own at an
    end. -/
theorem Conduct.sound {m : Run P α} (conduct : Conduct crew mine m) : Sound crew mine m := by
  induction conduct with
  | done a => exact .done a
  | stop e => exact .stop e
  | act quiet _ _ ih => exact .act quiet ih
  | bind _ _ first rest => exact .bind first rest
  | rescue _ _ first rest => exact .rescue first rest
  | @onError exec t site method e member on _ code =>
    intro w recorded
    by_cases busy : t.name ∈ (w.desk site.thread).chain
    · exact (Tracer.busy_keeps recorded on busy).mono (fun _ _ step => step) fun _ _ ended => .of_desks recorded ended.2
    · have keeps := Tracer.onError_keeps (attends_desks mine) recorded on member busy code (fun _ => True)
        (fun _ _ => trivial) method e
      exact keeps.mono (fun _ _ step => step.1) fun _ _ ended => ended.1
  | @timeout exec t site method thresholdMs actualMs member on _ code =>
    intro w recorded
    by_cases busy : t.name ∈ (w.desk site.thread).chain
    · exact (Tracer.busy_keeps recorded on busy).mono (fun _ _ step => step) fun _ _ ended => .of_desks recorded ended.2
    · have keeps := Tracer.timeout_keeps (attends_desks mine) recorded on member busy code (fun _ => True)
        (fun _ _ => trivial) method thresholdMs actualMs
      exact keeps.mono (fun _ _ step => step.1) fun _ _ ended => ended.1

theorem ConductCode.sound {exec : Exec P} (code : ConductCode crew mine exec) : SoundCode crew mine exec :=
  fun site c on => (code site c on).sound

end FaultSnapshot
