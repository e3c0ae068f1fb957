import FaultSnapshot.Proofs.Desk
import FaultSnapshot.Proofs.EqualMemories

/-!
# Worlds that are equal on a thread

Two worlds are equal on a thread if the memories are, if tracers know the same of it, and if the same
reports were made on it. Triggers are given new identifiers and times in each world, so reports are
the same here if they differ at most in these.
-/

namespace FaultSnapshot

variable {P : Program}

/-- Both are values, and these are related, or both are the same failure. -/
inductive Agree {ε α : Type} (related : α → α → Prop) : Except ε α → Except ε α → Prop
  | ok {a a' : α} (both : related a a') : Agree related (.ok a) (.ok a')
  | error (e : ε) : Agree related (.error e) (.error e)

/-- The same happened, maybe with another identifier and at another time. -/
structure Trigger.EqUpToStamp (t t' : Trigger) : Prop where
  tracker : t.tracker = t'.tracker
  cause : t.cause = t'.cause

/-- The documents differ at most in identifiers and times. -/
def Document.EqUpToStamp (d d' : Document) : Prop :=
  d' = { d with triggerId := d'.triggerId, occurredAt := d'.occurredAt }

/-- Texts of the same report, in one of the formats. -/
inductive SameReport : String → String → Prop
  | text (report : String) : SameReport report report
  | compact {d d' : Document} (like : Document.EqUpToStamp d d') : SameReport d.compact d'.compact
  | pretty {d d' : Document} (like : Document.EqUpToStamp d d') : SameReport d.pretty d'.pretty

/-- The same moment of the same report, up to the identifier and the time of its trigger. -/
inductive Event.EqUpToStamp : Event → Event → Prop
  | asked (tracer : String) (thread : Thread) {t t' : Trigger} (like : Trigger.EqUpToStamp t t') (admitted : Bool) :
      EqUpToStamp (.asked tracer thread t admitted) (.asked tracer thread t' admitted)
  | writing (tracer : String) (thread : Thread) {t t' : Trigger} (like : Trigger.EqUpToStamp t t')
      (frames : List (Picture Unit)) : EqUpToStamp (.writing tracer thread t frames) (.writing tracer thread t' frames)
  | written (tracer : String) (thread : Thread) {result result' : Except Fault String}
      (agree : Agree SameReport result result') :
      EqUpToStamp (.written tracer thread result) (.written tracer thread result')
  | delivering (tracer : String) (thread : Thread) (kind : ReportKind) {report report' : String}
      (same : SameReport report report') :
      EqUpToStamp (.delivering tracer thread kind report) (.delivering tracer thread kind report')
  | ended (tracer : String) (thread : Thread) : EqUpToStamp (.ended tracer thread) (.ended tracer thread)

theorem Event.EqUpToStamp.isOn {e e' : Event} (like : Event.EqUpToStamp e e') (thread : Thread) :
    e'.isOn thread = e.isOn thread := by
  cases like <;> rfl

theorem Trigger.EqUpToStamp.kind {t t' : Trigger} (like : Trigger.EqUpToStamp t t') : t'.kind = t.kind := by
  rw [Trigger.kind, Trigger.kind, like.cause]

/-- The throttle lets everything through, and stays as it is. -/
def Throttle.Generous (throttle : Throttle) : Prop := ∀ clocks, throttle.ask clocks = (true, throttle)

namespace World

variable {thread : Thread} {cells more : List CellId} {w v w' v' : World P}

/-- All throttles let everything through. -/
def Generous (w : World P) : Prop := ∀ id, ((w.throttles.get? id).getD .unrestricted).Generous

/-- Others have changed the world, and nothing of the thread. -/
structure Spares (thread : Thread) (w v : World P) : Prop where
  desk : v.desk thread = w.desk thread
  memory : w.memory.Spares thread v.memory
  outputFull : v.outputFull = w.outputFull
  generous : w.Generous → v.Generous

/-- The thread has the same frames in both worlds, tracers know the same of it, and the same reports were
    made on it. The pairing of cells is that of the memories. -/
structure EqOn (thread : Thread) (cells : List CellId) (w w' : World P) : Prop where
  memory : Memory.EqOn thread cells w.memory w'.memory
  known : ∀ tracer, w.reportingOf tracer thread = w'.reportingOf tracer thread
  reports : List.Forall₂ Event.EqUpToStamp (w.desk thread).reports (w'.desk thread).reports
  outputFull : w.outputFull = w'.outputFull
  generous : w.Generous
  generous' : w'.Generous

theorem Generous.ask (generous : w.Generous) (throttle : Option ThrottleId) :
    (w.ask throttle).1 = true ∧ (w.ask throttle).2.Generous := by
  cases throttle with
  | none => exact ⟨rfl, generous⟩
  | some id =>
    have asked := generous id w.clocks
    refine ⟨congrArg Prod.fst asked, ?_⟩
    intro other
    simp only [World.ask, asked]
    by_cases same : other = id
    · rw [same, OrderedMap.get?_insert_self]
      exact generous id
    · rw [OrderedMap.get?_insert_of_ne same]
      exact generous other

theorem Spares.refl (thread : Thread) (w : World P) : w.Spares thread w := ⟨rfl, .refl _ _, rfl, id⟩

theorem Spares.trans {u : World P} (first : w.Spares thread v) (later : v.Spares thread u) : w.Spares thread u where
  desk := later.desk.trans first.desk
  memory := first.memory.trans later.memory
  outputFull := later.outputFull.trans first.outputFull
  generous holds := later.generous (first.generous holds)

/-- A step that leaves memory and throttles alone spares a thread whose desk it leaves alone. -/
theorem Spares.of_desk (desk : v.desk thread = w.desk thread) (memory : v.memory = w.memory)
    (outputFull : v.outputFull = w.outputFull) (throttles : v.throttles = w.throttles) : w.Spares thread v where
  desk := desk
  memory := memory ▸ .refl _ _
  outputFull := outputFull
  generous holds := by
    rw [Generous, throttles]
    exact holds

/-- No thread sees that a throttle is asked. -/
theorem Spares.ask (thread : Thread) (w : World P) (throttle : Option ThrottleId) :
    w.Spares thread (w.ask throttle).2 where
  desk := desk_ask
  memory := by cases throttle <;> exact .refl _ _
  outputFull := by cases throttle <;> rfl
  generous holds := (holds.ask throttle).2

namespace EqOn

/-- What others do to the first world does not matter. -/
theorem later (equal : EqOn thread cells w w') (spares : w.Spares thread v) : EqOn thread cells v w' where
  memory := equal.memory.later spares.memory
  known tracer := by
    have same : v.reportingOf tracer thread = w.reportingOf tracer thread := congrArg (·.known tracer) spares.desk
    exact same.trans (equal.known tracer)
  reports := spares.desk ▸ equal.reports
  outputFull := spares.outputFull.trans equal.outputFull
  generous := spares.generous equal.generous
  generous' := equal.generous'

/-- What others do to the second one does not matter either if they leave the memory alone. -/
theorem beside (equal : EqOn thread cells w w') (memory : v'.memory = w'.memory) (spares : w'.Spares thread v') :
    EqOn thread cells w v' where
  memory := memory ▸ equal.memory
  known tracer := by
    have same : v'.reportingOf tracer thread = w'.reportingOf tracer thread := congrArg (·.known tracer) spares.desk
    exact (equal.known tracer).trans same.symm
  reports := spares.desk ▸ equal.reports
  outputFull := equal.outputFull.trans spares.outputFull.symm
  generous := equal.generous
  generous' := spares.generous equal.generous'

theorem ask (equal : EqOn thread cells w w') (throttle : Option ThrottleId) :
    EqOn thread cells (w.ask throttle).2 (w'.ask throttle).2 := by
  have memory : (w'.ask throttle).2.memory = w'.memory := by cases throttle <;> rfl
  exact (equal.later (.ask thread w throttle)).beside memory (.ask thread w' throttle)

/-- Both note the same moment of a report on the thread. -/
theorem note {e e' : Event} (equal : EqOn thread cells w w') (like : Event.EqUpToStamp e e')
    (on : e.isOn thread = true) :
    EqOn thread cells (w.note e) (w'.note e') where
  memory := equal.memory
  known := equal.known
  reports := by
    rw [desk_note, desk_note, if_pos on, if_pos ((like.isOn thread).trans on)]
    exact List.rel_append equal.reports (.cons like .nil)
  outputFull := equal.outputFull
  generous := equal.generous
  generous' := equal.generous'

theorem setReporting (equal : EqOn thread cells w w') (tracer : String) (r : Reporting) :
    EqOn thread cells (w.setReporting tracer thread r) (w'.setReporting tracer thread r) where
  memory := equal.memory
  known other := by
    have before := equal.known other
    simp only [reportingOf, World.setReporting] at before ⊢
    by_cases same : other = tracer
    · simp [same]
    · have ne : (other, thread) ≠ (tracer, thread) := by simp [same]
      simpa [OrderedMap.get?_insert_of_ne ne] using before
  reports := by
    rw [desk_setReporting, desk_setReporting]
    exact equal.reports
  outputFull := equal.outputFull
  generous := equal.generous
  generous' := equal.generous'

/-- A call that keeps the memories equal on the thread. -/
theorem setMemory {m m' : Memory P.Code} (equal : EqOn thread cells w w') (memory : Memory.EqOn thread more m m') :
    EqOn thread more { w with memory := m } { w' with memory := m' } :=
  ⟨memory, equal.known, equal.reports, equal.outputFull, equal.generous, equal.generous'⟩

end EqOn

/-- No hook was called yet, and throttles let everything through. -/
structure Fresh (w : World P) : Prop where
  made : w.memory.Made
  cells : w.memory.cells = #[]
  callStacks : w.memory.callStacks = ∅
  reporting : w.reporting = ∅
  journal : w.journal = #[]
  generous : w.Generous

theorem fresh_start (clocks : Clocks) (stamp : Nat → Stamp) (state : P.State) :
    Fresh (World.start (P := P) clocks stamp state) where
  made := .empty
  cells := rfl
  callStacks := rfl
  reporting := rfl
  journal := rfl
  generous _ _ := rfl

theorem Fresh.eqOn (fresh : w.Fresh) (fresh' : w'.Fresh) (records : w.memory.records = w'.memory.records)
    (outputFull : w.outputFull = w'.outputFull) (thread : Thread) : EqOn thread [] w w' where
  memory := Memory.eqOn_unopened thread fresh.made fresh'.made fresh.callStacks fresh'.callStacks fresh'.cells records
  known tracer := by rw [reportingOf, reportingOf, fresh.reporting, fresh'.reporting]
  reports := by
    rw [desk, desk, fresh.journal, fresh'.journal]
    exact .nil
  outputFull := outputFull
  generous := fresh.generous
  generous' := fresh'.generous

end World

end FaultSnapshot
