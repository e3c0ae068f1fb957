import FaultSnapshot.Tracer.Hooks
import Mathlib.Data.List.Basic
import Mathlib.Logic.Function.Basic

/-!
# The desk of a thread

The desk of a thread is what tracers know of it, together with the moments of the reports made on
it, in their order. From the moments alone it follows which reports are under construction and which
trigger was let through last. `Recorded` says that what the tracers know is just that, `Within` that
the reports of an earlier desk are still under construction, and `Continues` that no other ones are.
-/

namespace FaultSnapshot

variable {P : Program}

/-- The tracer and the thread whose report an event belongs to. -/
def Event.place? : Event → Option (String × Thread)
  | .asked tracer thread _ _ => some (tracer, thread)
  | .writing tracer thread _ _ => some (tracer, thread)
  | .written tracer thread _ => some (tracer, thread)
  | .delivering tracer thread _ _ => some (tracer, thread)
  | .ended tracer thread => some (tracer, thread)
  | .recorded _ _ _ => none
  | .printed _ => none
  | .logged _ => none

/-- The event belongs to a report on the thread. -/
def Event.isOn (thread : Thread) (e : Event) : Bool := e.place?.any (·.2 = thread)

/-- The event belongs to a report of the tracer. -/
def Event.isOf (tracer : String) (e : Event) : Bool := e.place?.any (·.1 = tracer)

/-- The error of a trigger. -/
def Trigger.error? (t : Trigger) : Option ErrorRef :=
  match t.cause with
  | .error e => some e
  | .timeout _ _ => none

/-- The last trigger that was let through. -/
def lastAdmitted? (events : List Event) : Option Trigger :=
  events.foldl (fun last e => match e with
    | .asked _ _ trigger true => some trigger
    | _ => last) none

/-- What tracers know of a thread, and the moments of the reports made on it. -/
structure Desk where
  known : String → Reporting
  reports : List Event

def World.desk (w : World P) (thread : Thread) : Desk :=
  ⟨fun tracer => w.reportingOf tracer thread, w.journal.toList.filter (·.isOn thread)⟩

namespace Desk

/-- The moments of the reports of one tracer. -/
def history (d : Desk) (tracer : String) : List Event := d.reports.filter (·.isOf tracer)

/-- The reports under construction after one more event. -/
def chainAfter (chain : List String) : Event → List String
  | .asked tracer _ _ true => tracer :: chain
  | .ended tracer _ => chain.erase tracer
  | _ => chain

/-- The tracers whose reports are under construction, the one that started last first. -/
def chain (d : Desk) : List String := d.reports.foldl chainAfter []

/-- One more event. -/
def push (d : Desk) (e : Event) : Desk := { d with reports := d.reports ++ [e] }

/-- Something else known to a tracer. -/
def learn (d : Desk) (tracer : String) (r : Reporting) : Desk :=
  { d with known := Function.update d.known tracer r }

/-- What tracers know follows from the events. -/
structure Recorded (crew : List String) (d : Desk) : Prop where
  processing : ∀ tracer, (d.known tracer).processing = true ↔ tracer ∈ d.chain
  remembered : ∀ tracer, (d.known tracer).remembered = (lastAdmitted? (d.history tracer)).bind Trigger.error?
  nodup : d.chain.Nodup
  crewed : ∀ tracer ∈ d.chain, tracer ∈ crew

/-- The reports that were under construction are so still, and nothing has come of them yet. -/
structure Within (d d' : Desk) : Prop where
  chain : d.chain <:+ d'.chain
  known : ∀ tracer ∈ d.chain, d'.known tracer = d.known tracer
  history : ∀ tracer ∈ d.chain, d'.history tracer = d.history tracer

/-- The same reports are under construction, and nothing has come of them yet. -/
structure Continues (crew : List String) (d d' : Desk) : Prop extends Within d d' where
  same : d'.chain = d.chain
  recorded : d'.Recorded crew

/-! ### Events -/

@[simp] theorem known_push {d : Desk} {e : Event} : (d.push e).known = d.known := rfl

@[simp] theorem history_learn {d : Desk} {tracer other : String} {r : Reporting} :
    (d.learn tracer r).history other = d.history other := rfl

@[simp] theorem chain_learn {d : Desk} {tracer : String} {r : Reporting} : (d.learn tracer r).chain = d.chain := rfl

@[simp] theorem known_learn_self {d : Desk} {tracer : String} {r : Reporting} :
    (d.learn tracer r).known tracer = r := by
  simp [learn]

theorem known_learn_of_ne {d : Desk} {tracer other : String} {r : Reporting} (ne : other ≠ tracer) :
    (d.learn tracer r).known other = d.known other := by
  simp [learn, ne]

@[simp] theorem chain_push {d : Desk} {e : Event} : (d.push e).chain = chainAfter d.chain e := by
  simp [chain, push]

theorem history_push_self {d : Desk} {e : Event} {tracer : String} (of : e.isOf tracer = true) :
    (d.push e).history tracer = d.history tracer ++ [e] := by
  simp [history, push, of]

theorem history_push_other {d : Desk} {e : Event} {tracer : String} (of : e.isOf tracer = false) :
    (d.push e).history tracer = d.history tracer := by
  simp [history, push, of]

@[simp] theorem lastAdmitted?_append (events : List Event) (e : Event) :
    lastAdmitted? (events ++ [e]) = match e with
      | .asked _ _ trigger true => some trigger
      | _ => lastAdmitted? events := by
  simp [lastAdmitted?]

theorem Recorded.idle {crew : List String} {d : Desk} {tracer : String} (recorded : d.Recorded crew)
    (idle : tracer ∉ d.chain) : (d.known tracer).processing = false :=
  Bool.eq_false_iff.mpr (mt (recorded.processing tracer).mp idle)

theorem Recorded.free {crew : List String} {d : Desk} {tracer : String} (recorded : d.Recorded crew)
    (idle : (d.known tracer).processing = false) : tracer ∉ d.chain := by
  intro under
  have processing := (recorded.processing tracer).mpr under
  exact Bool.eq_false_iff.mp idle processing

/-! ### Desks over time -/

theorem Within.refl (d : Desk) : Within d d := ⟨List.suffix_rfl, fun _ _ => rfl, fun _ _ => rfl⟩

theorem Within.trans {d₁ d₂ d₃ : Desk} (first : Within d₁ d₂) (later : Within d₂ d₃) : Within d₁ d₃ where
  chain := first.chain.trans later.chain
  known tracer member := (later.known tracer (first.chain.mem member)).trans (first.known tracer member)
  history tracer member := (later.history tracer (first.chain.mem member)).trans (first.history tracer member)

theorem Continues.refl {crew : List String} {d : Desk} (recorded : d.Recorded crew) : Continues crew d d :=
  ⟨Within.refl d, rfl, recorded⟩

theorem Continues.trans {crew : List String} {d₁ d₂ d₃ : Desk} (first : Continues crew d₁ d₂)
    (later : Continues crew d₂ d₃) : Continues crew d₁ d₃ :=
  ⟨first.toWithin.trans later.toWithin, later.same.trans first.same, later.recorded⟩

/-! ### More events -/

/-- The event neither starts nor ends a report. -/
structure Steady (e : Event) : Prop where
  chain : ∀ chain, chainAfter chain e = chain
  last : ∀ events, lastAdmitted? (events ++ [e]) = lastAdmitted? events

variable {crew : List String} {d : Desk} {tracer : String} {thread : Thread}

theorem isOf_eq {e : Event} (place : e.place? = some (tracer, thread)) (other : String) :
    e.isOf other = decide (tracer = other) := by
  simp [Event.isOf, place]

theorem Recorded.push {e : Event} (recorded : d.Recorded crew) (place : e.place? = some (tracer, thread))
    (steady : Steady e) : (d.push e).Recorded crew where
  processing other := by rw [known_push, chain_push, steady.chain]; exact recorded.processing other
  remembered other := by
    rw [known_push, recorded.remembered]
    by_cases same : tracer = other
    · rw [history_push_self (by simp [isOf_eq place, same]), steady.last]
    · rw [history_push_other (by simp [isOf_eq place, same])]
  nodup := by rw [chain_push, steady.chain]; exact recorded.nodup
  crewed other := by rw [chain_push, steady.chain]; exact recorded.crewed other

theorem Recorded.start {trigger : Trigger} (recorded : d.Recorded crew) (member : tracer ∈ crew)
    (idle : tracer ∉ d.chain) :
    ((d.push (.asked tracer thread trigger true)).learn tracer ⟨true, trigger.error?⟩).Recorded crew where
  processing other := by
    by_cases same : other = tracer
    · simp [same, chainAfter]
    · rw [known_learn_of_ne same]
      simpa [chainAfter, same] using recorded.processing other
  remembered other := by
    by_cases same : other = tracer
    · subst same
      rw [known_learn_self, history_learn, history_push_self (by simp [Event.isOf, Event.place?]),
        lastAdmitted?_append]
      rfl
    · rw [known_learn_of_ne same, known_push, history_learn,
        history_push_other (by simp [Event.isOf, Event.place?, Ne.symm same])]
      exact recorded.remembered other
  nodup := by simpa [chainAfter] using And.intro idle recorded.nodup
  crewed other := by
    simp only [chain_learn, chain_push, chainAfter, List.mem_cons]
    rintro (same | under)
    · exact same ▸ member
    · exact recorded.crewed other under

theorem Recorded.finish {rest : List String} (recorded : d.Recorded crew) (under : d.chain = tracer :: rest) :
    ((d.learn tracer { d.known tracer with processing := false }).push (.ended tracer thread)).Recorded crew where
  processing other := by
    have nodup := recorded.nodup
    rw [under, List.nodup_cons] at nodup
    by_cases same : other = tracer
    · subst same
      simpa [chainAfter, under] using nodup.1
    · rw [known_push, known_learn_of_ne same, recorded.processing]
      simp [chainAfter, under, same]
  remembered other := by
    by_cases same : other = tracer
    · subst same
      rw [known_push, known_learn_self, history_push_self (by simp [Event.isOf, Event.place?]), history_learn,
        lastAdmitted?_append]
      exact recorded.remembered other
    · rw [known_push, known_learn_of_ne same, history_push_other (by simp [Event.isOf, Event.place?, Ne.symm same])]
      exact recorded.remembered other
  nodup := by simpa [chainAfter] using recorded.nodup.erase tracer
  crewed other := by
    intro member
    exact recorded.crewed other (List.mem_of_mem_erase (by simpa [chainAfter] using member))

/-- An event of a tracer that builds no report touches none of those under construction. -/
theorem within_push {e : Event} (place : e.place? = some (tracer, thread)) (idle : tracer ∉ d.chain)
    (keeps : d.chain <:+ chainAfter d.chain e) : Within d (d.push e) where
  chain := by simpa using keeps
  known _ _ := rfl
  history other member := by
    have ne : tracer ≠ other := fun same => idle (same ▸ member)
    exact history_push_other (by simp [isOf_eq place, ne])

theorem within_start {trigger : Trigger} {r : Reporting} (idle : tracer ∉ d.chain) :
    Within d ((d.push (.asked tracer thread trigger true)).learn tracer r) where
  chain := by simp [chainAfter]
  known other member := known_learn_of_ne fun same => idle (same ▸ member)
  history other member := by
    have ne : tracer ≠ other := fun same => idle (same ▸ member)
    rw [history_learn, history_push_other (by simp [Event.isOf, Event.place?, ne])]

end Desk

/-! ### Steps of the world -/

namespace World

theorem desk_note {w : World P} {e : Event} {thread : Thread} :
    (w.note e).desk thread = if e.isOn thread then (w.desk thread).push e else w.desk thread := by
  by_cases on : e.isOn thread
  · simp only [on, if_true, desk, Desk.push, note, reportingOf, Array.toList_push, List.filter_append]
    simp [on]
  · simp only [on, desk, note, reportingOf, Array.toList_push, List.filter_append]
    simp [on]

theorem desk_setReporting {w : World P} {tracer : String} {thread : Thread} {r : Reporting} :
    (w.setReporting tracer thread r).desk thread = (w.desk thread).learn tracer r := by
  simp only [desk, Desk.learn, setReporting, reportingOf]
  congr 1
  funext other
  by_cases same : other = tracer
  · simp [same]
  · simp [OrderedMap.get?_insert_of_ne, same]

theorem desk_setReporting_of_ne {w : World P} {tracer : String} {thread other : Thread} {r : Reporting}
    (ne : other ≠ thread) : (w.setReporting tracer thread r).desk other = w.desk other := by
  simp only [desk, setReporting, reportingOf]
  congr 1
  funext name
  rw [OrderedMap.get?_insert_of_ne]
  intro same
  exact ne (congrArg Prod.snd same)

theorem desk_ask {w : World P} {throttle : Option ThrottleId} {thread : Thread} :
    (w.ask throttle).2.desk thread = w.desk thread := by
  cases throttle <;> rfl

end World

end FaultSnapshot
