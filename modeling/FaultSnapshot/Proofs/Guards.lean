import FaultSnapshot.Proofs.Balance

/-!
# Guards and the frames they close

A guard is dropped some time after it was made, and it keeps no note of whether its frame was opened:
what a drop closes depends on whether the tracer builds a report then (`Guard.remaining`). Where that
is as it was when the guard was made, and the report of a timeout does not panic, the frames are as
they were before the guard (`Pool.Reached.guarded_frames`).
-/

namespace FaultSnapshot

variable {P : Program} {mine : Thread → Prop}

/-- What remains of the frames of `before`, when the guard of `frame` was made and dropped. A tracer
    that builds a report opens no frame for a new guard (`opening`), and closes none for a dropped one
    (`closing`). A drop that panics has come to the report of a timeout only. -/
def Guard.remaining {Code : Type} (opening closing : Bool) (frame : Frame Code) (before : List (Frame Code)) :
    Except Interrupt Unit → List (Frame Code)
  | .ok () =>
    match opening, closing with
    | false, false => before
    | true, true => before
    | false, true => frame :: before
    | true, false => before.tail
  | .error _ => if opening then before else frame :: before

theorem Frame.continues_trans {Code : Type} {before between after : List (Frame Code)}
    (first : List.Forall₂ Continues before between) (later : List.Forall₂ Continues between after) :
    List.Forall₂ Continues before after := by
  induction first generalizing after with
  | nil => exact later
  | cons continues _ ih =>
    obtain ⟨h, rest, continues', rest_continues, rfl⟩ := List.forall₂_cons_left_iff.mp later
    exact .cons (continues.trans continues') (ih rest_continues)

theorem Frame.continues_tail {Code : Type} {before after : List (Frame Code)}
    (continues : List.Forall₂ Continues before after) : List.Forall₂ Continues before.tail after.tail := by
  cases continues with
  | nil => exact .nil
  | cons _ rest => exact rest

section
variable {exec : Exec P} {site : Site} {t : Tracer P} {method : String}
variable {base : TrackerId × Thread → List (Frame P.Code)}
variable {busy : String × Thread → Bool} {w v : World P}

theorem Monitor.entered_apply {f : Frame P.Code} (key : TrackerId × Thread) :
    (Monitor.active t).entered site f base busy key = if key = (t.tracker.id, site.thread) then
      (if busy (t.name, site.thread) then base key else f :: base key) else base key := by
  cases building : busy (t.name, site.thread) <;> by_cases here : key = (t.tracker.id, site.thread) <;>
    simp [entered, building, here]

theorem Monitor.left_apply (key : TrackerId × Thread) :
    (Monitor.active t).left site base busy key = if key = (t.tracker.id, site.thread) then
      (if busy (t.name, site.thread) then base key else (base key).tail) else base key := by
  cases building : busy (t.name, site.thread) <;> by_cases here : key = (t.tracker.id, site.thread) <;>
    simp [left, building, here]

/-- A timeout while the tracer builds a report is only logged. -/
theorem Tracer.keeps_ignored_timeout {thresholdMs actualMs : UInt64} (on : mine site.thread)
    (building : busy (t.name, site.thread) = true) (stands : Standing mine base busy w) :
    (t.timeout exec site method thresholdMs actualMs).Keeps (Lanes mine) (fun _ _ => True)
      (Run.Returned fun _ => Standing mine base busy) w := by
  refine .look fun v same => ?_
  have stands := stands.later same
  have processing := (stands.processing t.name site.thread on).trans building
  rw [processing]
  intro u same
  have logged := Standing.untouched u _ rfl (fun _ _ => rfl) (stands.later same)
  exact ⟨trivial, fun x same' => logged.later same'⟩

/-- The guard is late, and its timeout may become a report. -/
def Guard.Exceeds (g : Guard P) (elapsedMs : UInt64) : Prop :=
  ∃ threshold, g.thresholdMs = some threshold ∧ threshold < elapsedMs

/-- How the drop of a guard ends: it returns, or the report of a timeout was interrupted. -/
def Guard.Dropped (mine : Thread → Prop) (g : Guard P) (elapsedMs : UInt64) (building : Bool)
    (base closed : TrackerId × Thread → List (Frame P.Code)) (busy : String × Thread → Bool) :
    Except Interrupt Unit → World P → Prop
  | .ok (), v => Standing mine closed busy v
  | .error e, v => Run.Survives (.error e : Except Interrupt Unit) →
      building = false ∧ g.Exceeds elapsedMs ∧ Standing mine base busy v

theorem Guard.keeps_reportTimeout (on : mine site.thread) (code : ∀ c, Upholds mine (exec site c))
    (limit : Option UInt64) (elapsedMs : UInt64) (stands : Standing mine base busy w) :
    ((⟨.active t, method, limit⟩ : Guard P).reportTimeout exec site elapsedMs).Keeps (Lanes mine) (fun _ _ => True)
      (Guard.Dropped mine ⟨.active t, method, limit⟩ elapsedMs (busy (t.name, site.thread)) base base busy) w := by
  cases limit with
  | none => exact fun v same => stands.later same
  | some threshold =>
    by_cases late : threshold < elapsedMs
    · have exceeds : (⟨.active t, method, some threshold⟩ : Guard P).Exceeds elapsedMs := ⟨threshold, rfl, late⟩
      simp only [reportTimeout, if_pos late]
      cases building : busy (t.name, site.thread) with
      | true =>
        refine (Tracer.keeps_ignored_timeout on building stands).returned ?_
        intro r v stands
        exact (keeps_logFailure method _ r stands).returned_mono fun _ _ stands => stands
      | false =>
        refine (Upholds.timeout (m := .active t) on code method threshold elapsedMs base busy w stands).bind ?_ ?_
        · intro r v later
          exact (keeps_logFailure method _ r (later trivial)).returned_mono fun _ _ stands => stands
        · intro e v later survives
          cases e with
          | panic payload => exact ⟨rfl, exceeds, later trivial⟩
          | abort => exact survives.elim
          | exhausted => exact survives.elim
    · simp only [reportTimeout, if_neg late]
      exact fun v same => stands.later same

/-- A dropped guard has its timeout reported and then closes a frame. -/
theorem Guard.keeps_drop (on : mine site.thread) (code : ∀ c, Upholds mine (exec site c))
    (limit : Option UInt64) (elapsedMs : UInt64) (stands : Standing mine base busy w) :
    ((⟨.active t, method, limit⟩ : Guard P).close exec site elapsedMs).Keeps (Lanes mine) (fun _ _ => True)
      (Guard.Dropped mine ⟨.active t, method, limit⟩ elapsedMs (busy (t.name, site.thread)) base
        ((Monitor.active t).left site base busy) busy) w := by
  refine (keeps_reportTimeout on code limit elapsedMs stands).bind ?_ ?_
  · intro _ v stands
    refine ((Monitor.active t).keeps_exiting on stands).returned ?_
    intro r u stands
    exact (keeps_logFailure method _ r stands).returned_mono fun _ _ stands => stands
  · intro e v interrupted
    exact interrupted

end

/-- Let a guard be made in any reached state and dropped later, with only balanced calls in between:
    then every frame that was open after the guard was made is so still, and no other one. The drop
    comes at any time after a limit, or without one, and whatever throttle, serializer and handler do.
    If the drop returns, or ends with a panic, the tracker has those frames on the thread that the
    states of the tracer at both moments say, and all other stacks are as they were. A panic can only
    come out of the report of a timeout. -/
theorem Pool.Reached.guarded_frames {ι : Type} [DecidableEq ι] {crew : List String} {place : Thread → ι} {q : Pool P ι}
    {exec : Exec P} {site : Site} {t : Tracer P} {owner : Option (Object P.Code)} {method : String}
    {params : List (String × Object P.Code)} {g : Guard P} {limit : Option UInt64} {elapsedMs : UInt64}
    {w₁ w₂ v : World P} {r : Except Interrupt Unit} (reached : q.Reached crew place)
    (willing : t.tracker.refusedVariables = []) (on : mine site.thread) (code : ∀ c, Upholds mine (exec site c))
    (made : (Guard.enter (.active t) site owner method params).Ends (Lanes mine) q.world (.ok (.ok g)) w₁)
    (balanced : ∀ key : TrackerId × Thread, mine key.2 →
      List.Forall₂ Frame.Continues (w₁.memory.stack key).toList (w₂.memory.stack key).toList)
    (lawful : w₂.memory.Made)
    (dropped : ({ g with thresholdMs := limit }.close exec site elapsedMs).Ends (Lanes mine) w₂ r v)
    (survives : Run.Survives r) :
    (∀ key : TrackerId × Thread, mine key.2 → List.Forall₂ Frame.Continues
      (if key = (t.tracker.id, site.thread) then
        Guard.remaining (q.world.reportingOf t.name site.thread).processing
          (w₂.reportingOf t.name site.thread).processing (.opened owner method) (q.world.memory.stack key).toList r
      else (q.world.memory.stack key).toList) (v.memory.stack key).toList) ∧
      ∀ e, r = .error e → (w₂.reportingOf t.name site.thread).processing = false ∧
        ∃ threshold, limit = some threshold ∧ threshold < elapsedMs := by
  have willing' : (Monitor.active t).Willing := willing
  obtain ⟨entered, guard⟩ :=
    ((Monitor.active t).keeps_enter willing' on owner method params (Standing.now reached.made)).ends made
  obtain rfl := guard g rfl
  have drop := (Guard.keeps_drop on code limit elapsedMs (Standing.now lawful)).ends dropped
  have between : ∀ key : TrackerId × Thread, mine key.2 → List.Forall₂ Frame.Continues
      ((Monitor.active t).entered site (.opened owner method) (fun key => (q.world.memory.stack key).toList)
        (fun place => (q.world.reportingOf place.1 place.2).processing) key) (w₂.memory.stack key).toList := by
    intro key own
    exact Frame.continues_trans (Standing.frames entered key own) (balanced key own)
  constructor
  · intro key own
    have between := between key own
    rw [Monitor.entered_apply] at between
    cases r with
    | error e =>
      obtain ⟨_, _, stands⟩ := drop survives
      exact Frame.continues_trans between (stands.frames key own)
    | ok =>
      have closed := Standing.frames drop key own
      rw [Monitor.left_apply] at closed
      by_cases here : key = (t.tracker.id, site.thread)
      · simp only [if_pos here] at between closed ⊢
        subst here
        cases opening : (q.world.reportingOf t.name site.thread).processing <;>
          cases closing : (w₂.reportingOf t.name site.thread).processing <;>
          simp only [opening, closing, Bool.false_eq_true, if_false, if_true] at between closed ⊢
        · exact Frame.continues_trans (Frame.continues_tail between) closed
        · exact Frame.continues_trans between closed
        · exact Frame.continues_trans (Frame.continues_tail between) closed
        · exact Frame.continues_trans between closed
      · rw [if_neg here] at between closed ⊢
        exact Frame.continues_trans between closed
  · rintro e rfl
    obtain ⟨idle, exceeds, _⟩ := drop survives
    exact ⟨idle, exceeds⟩

namespace Sample

/-- The code of a serializer that panics. -/
def panicking : Exec program := fun _ _ => throw (.panic (.literal "gone"))

theorem upholds_panicking (c : program.Code) : Upholds (· = "main") (panicking site c) :=
  fun _ _ => .stop Standing.seen _

/-- A guard with a limit. -/
def overdue : Guard program := ⟨.active tracer, "run", some 0⟩

/-- A guard is made at the start, and dropped while the report of its timeout panics. -/
theorem dropped_panicking : ∃ w v, (Guard.enter (.active tracer) site none "run" []).Ends (Lanes (· = "main")) start
      (.ok (.ok ⟨.active tracer, "run", none⟩)) w ∧ w.memory.Made ∧
    (overdue.close panicking site 1).Ends (Lanes (· = "main")) w
      (.error (.panic (.literal "gone"))) v ∧ (v.memory.stack (.own "tracer", "main")).toList.length = 1 := by
  have made : ∃ w, (Guard.enter (.active tracer) site none "run" []).run start =
        .ok (.ok ⟨.active tracer, "run", none⟩) w ∧
      w.memory = (start.memory.openFrame (.own "tracer", "main") none "run").2 ∧
      ∃ v, (overdue.close panicking site 1).run w =
        .error (.panic (.literal "gone")) v ∧ (v.memory.stack (.own "tracer", "main")).toList.length = 1 :=
    ⟨_, rfl, rfl, _, rfl, rfl⟩
  obtain ⟨w, made, memory, v, dropped, one⟩ := made
  refine ⟨w, v, .of_run made, ?_, .of_run_error dropped, one⟩
  rw [memory]
  exact .openFrame _ _ _ .empty

end Sample

open Sample in
/-- A guard does not close its frame when the report of its timeout panics. -/
theorem Guard.frame_outlives_panic : ¬ ∀ (exec : Exec program) (limit : Option UInt64) (elapsedMs : UInt64)
    (g : Guard program) (w v : World program) (r : Except Interrupt Unit),
    (Guard.enter (.active tracer) site none "run" []).Ends (Lanes (· = "main")) start (.ok (.ok g)) w →
    ({ g with thresholdMs := limit }.close exec site elapsedMs).Ends (Lanes (· = "main")) w r v → Run.Survives r →
      (v.memory.stack (.own "tracer", "main")).toList.length =
        (start.memory.stack (.own "tracer", "main")).toList.length := by
  intro closes
  obtain ⟨w, v, made, _, dropped, one⟩ := dropped_panicking
  have none := closes panicking (some 0) 1 _ w v _ made dropped trivial
  exact absurd (one.symm.trans none) (by decide)

open Sample in
/-- The report of the timeout panics, and the frame of the guard is open still. -/
theorem Pool.Reached.guarded_frames_sample : ∃ w v,
    (Guard.enter (.active tracer) site none "run" []).Ends (Lanes (· = "main")) start
      (.ok (.ok ⟨.active tracer, "run", none⟩)) w ∧
    (overdue.close panicking site 1).Ends (Lanes (· = "main")) w
      (.error (.panic (.literal "gone"))) v ∧
    List.Forall₂ Frame.Continues [.opened none "run"] (v.memory.stack (.own "tracer", "main")).toList := by
  have reached : Pool.Reached (P := program) ["tracer"] (fun _ => ()) ⟨fun _ => pure (), start⟩ :=
    Pool.reached_start (P := program) ⟨0, 0⟩ start.stamp ()
  obtain ⟨w, v, made, lawful, dropped, _⟩ := dropped_panicking
  have balanced : ∀ key : TrackerId × Thread, key.2 = "main" →
      List.Forall₂ Frame.Continues (w.memory.stack key).toList (w.memory.stack key).toList := fun key _ =>
    List.forall₂_same.mpr fun f _ => .refl f
  have frames := (reached.guarded_frames ?_ ?_ upholds_panicking made balanced lawful dropped trivial).1
  · exact ⟨w, v, made, dropped, frames (.own "tracer", "main") rfl⟩
  · rfl
  · rfl

end FaultSnapshot
