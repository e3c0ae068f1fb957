import FaultSnapshot.Proofs.Reports
import Mathlib.Data.List.Dedup
import Mathlib.Data.List.Perm.Subperm

/-!
# When a tracer processes

Strands of code run side by side from the start of the world, each on threads of its own, and call
hooks in any order. In every state that they reach, a tracer processes on a thread exactly while a
report of it is under construction there (`Pool.Reached.processing`).
-/

namespace FaultSnapshot

variable {P : Program} {α : Type} {ι : Type} [DecidableEq ι] {crew : List String} {owner : Thread → ι}

/-- Strands have come to `q` from the start of the world. Each did what code may do, with hooks of
    the tracers of `crew`, on the threads that it owns. -/
def Pool.Reached (crew : List String) (owner : Thread → ι) (q : Pool P ι) : Prop :=
  ∃ (clocks : Clocks) (stamp : Nat → Stamp) (state : P.State) (strand : ι → Run P Unit),
    (∀ i, Conduct crew (owner · = i) (strand i)) ∧ Pool.Reaches ⟨strand, .start clocks stamp state⟩ q

/-- What any step of a strand does: desks of threads that it does not own stay, and its own ones are
    in order. -/
def Allowed (crew : List String) (mine : Thread → Prop) (v u : World P) : Prop := ∃ w, Orderly crew mine w v u

/-- In the start, no report was ever made. -/
theorem World.recorded_start (crew : List String) (clocks : Clocks) (stamp : Nat → Stamp) (state : P.State)
    (thread : Thread) :
    ((World.start (P := P) clocks stamp state).desk thread).Recorded crew where
  processing _ := iff_of_false Bool.false_ne_true List.not_mem_nil
  remembered _ := rfl
  nodup := List.nodup_nil
  crewed _ member := nomatch member

omit [DecidableEq ι] in
theorem apart_of_allowed (crew : List String) (i j : ι) (v u : World P) (ne : i ≠ j)
    (allowed : Allowed crew (owner · = i) v u) : Desks (owner · = j) u = Desks (owner · = j) v := by
  obtain ⟨w, orderly⟩ := allowed
  apply desks_eq_iff.mpr
  intro thread own
  obtain ⟨stays, _⟩ := orderly thread
  apply stays
  intro other
  exact ne (other.symm.trans own)

namespace Pool

/-- Strands that keep to their own threads go on as each does by itself, and all desks stay in
    order. -/
theorem goes_of_allowed {p q : Pool P ι} {post : ι → Except Interrupt Unit → World P → Prop}
    (keeps : ∀ i, (p.strand i).Keeps (Desks (owner · = i)) (Allowed crew (owner · = i)) (post i) p.world)
    (recorded : ∀ thread, (p.world.desk thread).Recorded crew) (reached : p.Reaches q) :
    (∀ thread, (q.world.desk thread).Recorded crew) ∧
      ∀ i, (p.strand i).Goes (Desks (owner · = i)) p.world (q.strand i) q.world := by
  refine goes_of_reaches (fun w => ∀ thread, (w.desk thread).Recorded crew) (apart_of_allowed crew) ?_ keeps recorded
    reached
  rintro i v u ⟨w, orderly⟩ recorded thread
  obtain ⟨stays, ordered⟩ := orderly thread
  by_cases own : owner thread = i
  · obtain ⟨recorded, _⟩ := ordered own
    exact recorded
  · rw [stays own]
    exact recorded thread

/-- What each strand of a reached pool has still to do keeps to its own threads, and in the end no
    report is under construction there. -/
theorem Reached.keeps {q : Pool P ι} (reached : q.Reached crew owner) :
    (∀ thread, (q.world.desk thread).Recorded crew) ∧
      ∀ i, (q.strand i).Keeps (Desks (owner · = i)) (Allowed crew (owner · = i))
        (fun _ v => ∀ thread, owner thread = i → (v.desk thread).chain = []) q.world := by
  obtain ⟨clocks, stamp, state, strand, conducts, reaches⟩ := reached
  have start := World.recorded_start crew clocks stamp state
  have keeps : ∀ i, (strand i).Keeps (Desks (owner · = i)) (Allowed crew (owner · = i))
      (fun _ v => ∀ thread, owner thread = i → (v.desk thread).chain = []) (.start clocks stamp state) := by
    intro i
    have sound := (conducts i).sound _ fun thread _ => start thread
    refine sound.mono (fun v u orderly => ⟨_, orderly⟩) ?_
    intro _ v continuing thread own
    exact (continuing thread own).same
  obtain ⟨recorded, goes⟩ := goes_of_allowed keeps start reaches
  refine ⟨recorded, ?_⟩
  intro i
  exact (keeps i).goes (goes i)

theorem Reached.recorded {q : Pool P ι} (reached : q.Reached crew owner) (thread : Thread) :
    (q.world.desk thread).Recorded crew :=
  reached.keeps.1 thread

theorem Reached.allRecorded {q : Pool P ι} (reached : q.Reached crew owner) (mine : Thread → Prop) :
    AllRecorded crew mine q.world :=
  fun thread _ => reached.recorded thread

end Pool

/-! ## A call among other strands -/

section
variable {mine : Thread → Prop} {t : Tracer P} {exec : Exec P} {site : Site} {hook : Hook P} {w v : World P}

/-- Plain steps leave the desks alone. -/
theorem Hosts.keeps_calm {f : Exec P → Run P α} {tracks : Prop} (hosts : Hosts tracks (fun _ => False) f)
    (exec : Exec P) {guar : World P → World P → Prop} {y : World P} (calm : Calm mine guar y)
    (seen : Desks mine v = Desks mine y) :
    (f exec).Keeps (Desks mine) guar (fun _ u => Desks mine u = Desks mine y) v := by
  induction hosts generalizing v with
  | done a =>
    intro u same
    exact same.trans seen
  | @act _ change next plain _ _ ih =>
    intro x same
    have after : Desks mine (change x) = Desks mine x := plain.quiet.desks x
    exact ⟨calm x _ (same.trans seen) (plain.quiet x), ih x (after.trans (same.trans seen))⟩
  | bind _ _ first rest => exact (first seen).bind (fun a _ seen => rest a seen) fun _ _ seen => seen
  | code _ _ on => exact on.elim

/-- How a call of a hook of an idle tracer ends. -/
def Settled (crew : List String) (mine : Thread → Prop) (tracer : String) (thread : Thread) (w v : World P) : Prop :=
  Continuing crew mine w v ∧ (w.desk thread).history tracer <+: (v.desk thread).history tracer

theorem Settled.congr {tracer : String} {thread : Thread} {u : World P} (on : mine thread)
    (settled : Settled crew mine tracer thread w v) (same : Desks mine u = Desks mine v) :
    Settled crew mine tracer thread w u := by
  refine ⟨settled.1.trans (.of_desks settled.1.allRecorded same), ?_⟩
  rw [desks_eq_iff.mp same thread on]
  exact settled.2

theorem Answered.extends {tracer : String} {thread : Thread} {trigger : Trigger} {admitted : Bool}
    {r : Except Interrupt (Except Fault Unit)} (answered : Answered tracer thread trigger w admitted r v) :
    (w.desk thread).history tracer <+: (v.desk thread).history tracer := by
  cases answered with
  | rejected history => exact ⟨_, history.symm⟩
  | admitted _ history => exact ⟨_, history.symm⟩

/-- A call of any hook, made while the tracer builds no report. -/
theorem Tracer.call_keeps (hook : Hook P) (recorded : AllRecorded crew mine w) (on : mine site.thread)
    (member : t.name ∈ crew) (idle : t.name ∉ (w.desk site.thread).chain) (code : SoundCode crew mine exec) :
    (t.call exec site hook).Keeps (Desks mine) (Tracked crew mine t.name site.thread w)
      (fun _ => Settled crew mine t.name site.thread w) w := by
  by_cases reports : hook.Reports
  · cases hook with
    | onError method e =>
      refine (onError_keeps (attends_desks mine) recorded on member idle code (fun _ => True) (fun _ _ => trivial)
        method e).mono (fun _ _ step => step) ?_
      rintro _ v ⟨continuing, ended⟩
      refine ⟨continuing, ?_⟩
      split at ended
      · obtain ⟨_, same, _⟩ := ended
        exact same ▸ List.prefix_rfl
      · obtain ⟨_, _, _, _, answered⟩ := ended
        exact answered.extends
    | timeout method thresholdMs actualMs =>
      refine (timeout_keeps (attends_desks mine) recorded on member idle code (fun _ => True) (fun _ _ => trivial)
        method thresholdMs actualMs).mono (fun _ _ step => step) ?_
      rintro _ v ⟨continuing, _, _, _, _, answered⟩
      exact ⟨continuing, answered.extends⟩
    | _ => exact reports.elim
  · refine ((hosts_call reports).keeps_calm exec (calm_of_idle recorded on idle) rfl).mono (fun _ _ step => step) ?_
    intro _ v same
    refine ⟨.of_desks recorded same, ?_⟩
    exact desks_eq_iff.mp same site.thread on ▸ List.prefix_rfl

end

namespace Pool

/-- The pool in which the strand that owns the thread of `site` makes a call. -/
def calling (q : Pool P ι) (owner : Thread → ι) (exec : Exec P) (t : Tracer P) (site : Site) (hook : Hook P) :
    Pool P ι :=
  ⟨Function.update q.strand (owner site.thread) (t.call exec site hook >>= fun _ => pure ()), q.world⟩

section
variable {q q' : Pool P ι} {t : Tracer P} {exec : Exec P} {site : Site} {hook : Hook P}

/-- The call and the other strands go on side by side. -/
theorem Reached.goes_calling (reached : q.Reached crew owner) (member : t.name ∈ crew)
    (code : ConductCode crew (owner · = owner site.thread) exec)
    (later : (q.calling owner exec t site hook).Reaches q') :
    (∀ thread, (q'.world.desk thread).Recorded crew) ∧
      (t.call exec site hook >>= fun _ => pure ()).Goes (Desks (owner · = owner site.thread)) q.world
        (q'.strand (owner site.thread)) q'.world := by
  obtain ⟨recorded, keeps⟩ := reached.keeps
  have call : Conduct crew (owner · = owner site.thread) (t.call exec site hook >>= fun _ => pure ()) :=
    .bind (Tracer.conduct_call member rfl code) fun _ => .done ()
  have together : ∀ i, ((q.calling owner exec t site hook).strand i).Keeps (Desks (owner · = i))
      (Allowed crew (owner · = i)) (fun _ _ => True) q.world := by
    intro i
    by_cases same : i = owner site.thread
    · subst same
      simp only [calling, Function.update_self]
      have sound := call.sound _ fun thread _ => recorded thread
      exact sound.mono (fun v u orderly => ⟨_, orderly⟩) fun _ _ _ => trivial
    · simp only [calling, Function.update_of_ne same]
      exact (keeps i).mono (fun _ _ allowed => allowed) fun _ _ _ => trivial
  obtain ⟨recorded, goes⟩ := goes_of_allowed together recorded later
  refine ⟨recorded, ?_⟩
  simpa [calling] using goes (owner site.thread)

/-- From the begin of a call to its end, the tracer processes if it did so before, or if a trigger of
    the call was let through. -/
theorem Reached.processing_calling (reached : q.Reached crew owner) (member : t.name ∈ crew)
    (code : ConductCode crew (owner · = owner site.thread) exec)
    (later : (q.calling owner exec t site hook).Reaches q') :
    ∃ new, (q'.world.desk site.thread).history t.name = (q.world.desk site.thread).history t.name ++ new ∧
      ((q'.world.reportingOf t.name site.thread).processing = true ↔
        (q.world.reportingOf t.name site.thread).processing = true ∨
          ¬ (q'.strand (owner site.thread)).IsOver ∧ ∃ trigger, .asked t.name site.thread trigger true ∈ new) := by
  obtain ⟨recorded, goes⟩ := reached.goes_calling member code later
  have recordedBefore := reached.allRecorded (owner · = owner site.thread)
  by_cases busy : t.name ∈ (q.world.desk site.thread).chain
  · -- An outer report of the tracer is under construction, and nothing touches it.
    have call : Conduct crew (owner · = owner site.thread) (t.call exec site hook) :=
      Tracer.conduct_call member rfl code
    have whole : (t.call exec site hook >>= fun _ => (pure () : Run P Unit)).Keeps (Desks (owner · = owner site.thread))
        (Orderly crew (owner · = owner site.thread) q.world)
        (fun _ => Continuing crew (owner · = owner site.thread) q.world) q.world :=
      (call.sound _ recordedBefore).bind (fun _ _ continuing => (Sound.done ()).after continuing)
        fun _ _ continuing => continuing
    have within : Desk.Within (q.world.desk site.thread) (q'.world.desk site.thread) := by
      by_cases finished : (q'.strand (owner site.thread)).IsOver
      · obtain ⟨r, continuing⟩ := whole.over_of_goes goes finished
        exact (continuing site.thread rfl).toWithin
      · obtain ⟨u, orderly⟩ := whole.underway_of_goes goes finished
        obtain ⟨_, ordered⟩ := orderly site.thread
        exact (ordered rfl).2
    refine ⟨[], by simpa using within.history _ busy, ?_⟩
    have processing := ((recordedBefore _ rfl).processing t.name).mpr busy
    have still := congrArg Reporting.processing (within.known _ busy)
    exact iff_of_true (still.trans processing) (.inl processing)
  · have whole : (t.call exec site hook >>= fun _ => (pure () : Run P Unit)).Keeps (Desks (owner · = owner site.thread))
        (Tracked crew (owner · = owner site.thread) t.name site.thread q.world)
        (fun _ => Settled crew (owner · = owner site.thread) t.name site.thread q.world) q.world :=
      (Tracer.call_keeps hook recordedBefore rfl member busy code.sound).bind
        (fun _ _ settled u same => settled.congr rfl same) fun _ _ settled => settled
    have idle := (recordedBefore _ rfl).idle busy
    by_cases finished : (q'.strand (owner site.thread)).IsOver
    · obtain ⟨r, continuing, new, history⟩ := whole.over_of_goes goes finished
      have same := (continuing site.thread rfl).same
      refine ⟨new, history.symm, iff_of_false ?_ ?_⟩
      · exact Bool.eq_false_iff.mp ((recorded _).idle (same ▸ busy))
      · rintro (processing | ⟨underway, _⟩)
        · exact absurd processing (Bool.eq_false_iff.mp idle)
        · exact underway finished
    · obtain ⟨u, _, new, history, admission⟩ := whole.underway_of_goes goes finished
      refine ⟨new, history, admission.trans ?_⟩
      constructor
      · intro asked
        exact .inr ⟨finished, asked⟩
      · rintro (processing | ⟨_, asked⟩)
        · exact absurd processing (Bool.eq_false_iff.mp idle)
        · exact asked

/-- At the end of a call, tracers process where they did before it. -/
theorem Reached.same_after_call (reached : q.Reached crew owner) (member : t.name ∈ crew)
    (code : ConductCode crew (owner · = owner site.thread) exec)
    (later : (q.calling owner exec t site hook).Reaches q') (finished : (q'.strand (owner site.thread)).IsOver)
    (thread : Thread) (own : owner thread = owner site.thread) :
    (q'.world.desk thread).chain = (q.world.desk thread).chain := by
  obtain ⟨_, goes⟩ := reached.goes_calling member code later
  have call : Conduct crew (owner · = owner site.thread) (t.call exec site hook >>= fun _ => pure ()) :=
    .bind (Tracer.conduct_call member rfl code) fun _ => .done ()
  obtain ⟨r, continuing⟩ := (call.sound _ (reached.allRecorded _)).over_of_goes goes finished
  exact (continuing thread own).same

/-- In every reached state, a tracer processes on a thread exactly if a report of it is under
    construction there: its trigger was let through and its report has not ended. No tracer is twice
    in the chain of these reports, and none is left when the code of the thread is over. During any
    call of a hook, the tracer processes if it did so before, or from the moment at which a trigger
    of this very call is let through until the call returns or is unwound. -/
theorem Reached.processing_accurate (reached : q.Reached crew owner) :
    (∀ tracer thread, (q.world.reportingOf tracer thread).processing = true ↔ tracer ∈ (q.world.desk thread).chain) ∧
      (∀ thread, (q.world.desk thread).chain.Nodup ∧ (q.world.desk thread).chain.length ≤ crew.dedup.length) ∧
      (∀ thread, (q.strand (owner thread)).IsOver → ∀ tracer, (q.world.reportingOf tracer thread).processing = false) ∧
      ∀ (exec : Exec P) (t : Tracer P) (site : Site) (hook : Hook P), t.name ∈ crew →
        ConductCode crew (owner · = owner site.thread) exec →
        ∀ q' : Pool P ι, (q.calling owner exec t site hook).Reaches q' →
          (∃ new, (q'.world.desk site.thread).history t.name = (q.world.desk site.thread).history t.name ++ new ∧
            ((q'.world.reportingOf t.name site.thread).processing = true ↔
              (q.world.reportingOf t.name site.thread).processing = true ∨
                ¬ (q'.strand (owner site.thread)).IsOver ∧ ∃ trigger, .asked t.name site.thread trigger true ∈ new)) ∧
          ((q'.strand (owner site.thread)).IsOver → ∀ tracer thread, owner thread = owner site.thread →
            (q'.world.reportingOf tracer thread).processing = (q.world.reportingOf tracer thread).processing) := by
  refine ⟨?_, ?_, ?_, ?_⟩
  · intro tracer thread
    exact (reached.recorded thread).processing tracer
  · intro thread
    have nodup := (reached.recorded thread).nodup
    have crewed : (q.world.desk thread).chain ⊆ crew.dedup := by
      intro tracer member
      exact List.mem_dedup.mpr ((reached.recorded thread).crewed tracer member)
    exact ⟨nodup, (List.subperm_of_subset nodup crewed).length_le⟩
  · intro thread finished tracer
    obtain ⟨r, ended⟩ := (reached.keeps.2 (owner thread)).over_of_goes (.rest rfl) finished
    exact (reached.recorded thread).idle (by simp [ended thread rfl])
  · intro exec t site hook member code q' later
    refine ⟨reached.processing_calling member code later, ?_⟩
    intro finished tracer thread own
    have before := (reached.recorded thread).processing tracer
    have after := ((reached.goes_calling member code later).1 thread).processing tracer
    rw [reached.same_after_call member code later finished thread own] at after
    exact Bool.eq_iff_iff.mpr (after.trans before.symm)

end

end Pool

/-! ## A small program -/

namespace Sample

/-- A program with one piece of code. -/
def program : Program := ⟨Unit, Unit⟩

/-- The world at its start. -/
def start : World program := .start ⟨0, 0⟩ (fun n => ⟨.ofNat n, ⟨2024, 2, 29⟩, ⟨0, 0, 0, 0⟩, by decide⟩) ()

/-- A tracer whose serializer first runs the code. -/
def tracer : Tracer program where
  name := "tracer"
  tracker := ⟨.own "tracer", [], []⟩
  serializer := .text
  handler := .record
  throttle := none
  turns := fun
    | .serializer, 0 => some ⟨(), none⟩
    | _, _ => none

def error : ErrorRef := ⟨0, .plain "broken"⟩

/-- The place where everything runs. -/
def site : Site := ⟨"main", []⟩

/-- The code calls the tracer that runs it. -/
def exec : Exec program := fun _ _ => do
  discard (tracer.call (fun _ _ => pure ()) site (.onError "inner" error))

theorem conductCode_exec {mine : Thread → Prop} (own : mine "main") : ConductCode ["tracer"] mine exec := fun _ _ _ =>
  .bind (Tracer.conduct_call (by decide) own fun _ _ _ => .done ()) fun _ => .done ()

end Sample

theorem Pool.reached_start (clocks : Clocks) (stamp : Nat → Stamp) (state : P.State) :
    Pool.Reached crew owner ⟨fun _ => pure (), .start clocks stamp state⟩ :=
  ⟨clocks, stamp, state, _, fun _ => .done (), .refl _⟩

open Sample in
/-- A tracer processes from the fourth step of a call on, when its trigger is let through. -/
theorem Pool.Reached.processing_accurate_sample :
    ∃ q : Pool program Unit,
      (Pool.calling ⟨fun _ => pure (), start⟩ (fun _ => ()) exec tracer site (.onError "outer" error)).Reaches q ∧
        ¬ (q.strand ()).IsOver ∧ (q.world.reportingOf "tracer" "main").processing = true := by
  have start : Pool.Reached ["tracer"] (fun _ => ()) ⟨fun _ => pure (), Sample.start⟩ :=
    Pool.reached_start (P := program) ⟨0, 0⟩ Sample.start.stamp ()
  have steps := Pool.reaches_after
    (Pool.calling ⟨fun _ => pure (), Sample.start⟩ (fun _ => ()) exec tracer site (.onError "outer" error)) () 4
  have accurate := (start.processing_accurate.2.2.2 exec tracer site (.onError "outer" error) (by decide)
    (conductCode_exec rfl) _ steps).1
  refine ⟨_, steps, ?_, ?_⟩
  · rintro ⟨_ | _, same⟩ <;> cases same
  · obtain ⟨new, history, processing⟩ := accurate
    refine processing.mpr (.inr ⟨?_, ?_⟩)
    · rintro ⟨_ | _, same⟩ <;> cases same
    · have asked : [] ++ new = [.asked "tracer" "main" ⟨Sample.start.stamp 0, .own "tracer", .error error⟩ true] :=
        history.symm.trans rfl
      exact ⟨_, asked ▸ List.mem_singleton_self _⟩

end FaultSnapshot
