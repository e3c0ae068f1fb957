import FaultSnapshot.Proofs.Conduct

/-!
# What reports inherit from the code they run

Some properties of runs pass from code to the calls that run it: they hold of steps beside the
program, and of runs that are put together from runs of which they hold. A call about an error or a
timeout has such a property if the code of serializers and handlers has it
(`Tracer.inherits_onError`, `Tracer.inherits_timeout`).
-/

namespace FaultSnapshot

variable {P : Program} {α β : Type}

/-- A discreet step that leaves the memory alone, too. -/
structure Beside (change : World P → World P) : Prop where
  discreet : Discreet change
  memory : ∀ w, (change w).memory = w.memory

/-- A step beside the program that leaves alone what tracers know, too. -/
structure Aside (change : World P → World P) : Prop where
  beside : Beside change
  known : ∀ w tracer thread, (change w).reportingOf tracer thread = w.reportingOf tracer thread

/-- A property of runs that passes from code to the parts of a report, which run it. -/
structure Carried (holds : {α : Type} → Run P α → Prop) : Prop where
  done : ∀ {α : Type} (a : α), holds (.done a)
  act : ∀ {α : Type} {change : World P → World P} {next : World P → Run P α}, Aside change →
    (∀ w, holds (next w)) → holds (.act change next)
  bind : ∀ {α β : Type} {m : Run P α} {k : α → Run P β}, holds m → (∀ a, holds (k a)) → holds (m >>= k)

/-- A property of runs that passes from code to the calls that make reports. -/
structure Inherited (holds : {α : Type} → Run P α → Prop) : Prop where
  done : ∀ {α : Type} (a : α), holds (.done a)
  act : ∀ {α : Type} {change : World P → World P} {next : World P → Run P α}, Beside change →
    (∀ w, holds (next w)) → holds (.act change next)
  bind : ∀ {α β : Type} {m : Run P α} {k : α → Run P β}, holds m → (∀ a, holds (k a)) → holds (m >>= k)
  ensuring : ∀ {α : Type} {m : Run P α} {last : World P → World P}, holds m → Beside last → holds (m.ensuring last)

variable {holds : {α : Type} → Run P α → Prop} {t : Tracer P} {exec : Exec P} {site : Site}

theorem Aside.note (e : World P → Event) : Aside fun w => w.note (e w) :=
  ⟨⟨fun _ => ⟨rfl, rfl, rfl, rfl⟩, fun _ => rfl⟩, fun _ _ _ => rfl⟩

theorem Carried.read (carried : Carried holds) {g : World P → α} {k : α → Run P β} (rest : ∀ a, holds (k a)) :
    holds ((do return g (← get)) >>= k) :=
  carried.act ⟨⟨fun _ => ⟨rfl, rfl, rfl, rfl⟩, fun _ => rfl⟩, fun _ _ _ => rfl⟩ fun w => rest (g w)

theorem Carried.note (carried : Carried holds) {e : World P → Event} {k : Unit → Run P β} (rest : holds (k ())) :
    holds ((modify fun w => w.note (e w) : Run P Unit) >>= k) :=
  carried.act (.note e) fun _ => rest

/-- Steps that leave alone what tracers know are some of the steps beside the program. -/
theorem Inherited.carried (inherited : Inherited holds) : Carried holds :=
  ⟨inherited.done, fun aside => inherited.act aside.beside, inherited.bind⟩

theorem Inherited.step (inherited : Inherited holds) {f : World P → α × World P} {k : α → Run P β}
    (beside : Beside fun w => (f w).2) (rest : ∀ w, holds (k (f w).1)) : holds (modifyGet f >>= k) :=
  inherited.act beside rest

theorem Beside.ask (throttle : Option ThrottleId) : Beside fun w : World P => (w.ask throttle).2 := by
  constructor
  · intro w
    cases throttle <;> exact ⟨rfl, rfl, rfl, rfl⟩
  · intro w
    cases throttle <;> rfl

theorem Aside.ask (throttle : Option ThrottleId) : Aside fun w : World P => (w.ask throttle).2 := by
  refine ⟨.ask throttle, ?_⟩
  intro w tracer thread
  cases throttle <;> rfl

theorem Beside.admitting (t : Tracer P) (thread : Thread) (trigger : Trigger) (remembered : Option ErrorRef) :
    Beside fun w : World P =>
      let asked := (w.ask t.throttle).2.note (.asked t.name thread trigger (w.ask t.throttle).1)
      if (w.ask t.throttle).1 then asked.setReporting t.name thread ⟨true, remembered⟩ else asked := by
  have beside := Beside.ask (P := P) t.throttle
  constructor
  · intro w
    dsimp only
    cases decision : (w.ask t.throttle).1 <;> exact beside.discreet w
  · intro w
    cases decision : (w.ask t.throttle).1 <;> exact beside.memory w

/-- What the parts of the library do by themselves is beside the program. -/
theorem Plain.aside {change : World P → World P} (plain : Plain False change) : Aside change where
  beside := ⟨plain.discreet, plain.memory.resolve_left And.left⟩
  known w tracer thread := congrArg (Desk.known · tracer) (plain.quiet w thread)

theorem Hosts.carries {f : Exec P → Run P α} (hosts : Hosts False (· = site) f) (carried : Carried holds)
    (code : ∀ c, holds (exec site c)) : holds (f exec) := by
  induction hosts with
  | done a => exact carried.done a
  | act plain _ _ ih => exact carried.act plain.aside ih
  | bind _ _ first rest => exact carried.bind first rest
  | code site' c same => exact same ▸ code c

namespace Tracer

section
variable (carried : Carried holds) (code : ∀ c, holds (exec site c))
include carried code

theorem carries_takeTurn (part : Part) : holds (t.takeTurn exec site part) := by
  have hosts : Hosts False (· = site) fun exec => t.takeTurn exec site part := by
    refine hosts_takeTurn ?_ t part
    rfl
  exact hosts.carries carried code

theorem carries_finishText (trigger : Trigger) : holds (t.finishText exec site trigger) := by
  have written : ∀ result : Except Fault String, holds (do
      Run.note (.written t.name site.thread result)
      return result : Run P (Except Fault String)) := fun result => carried.note (carried.done result)
  refine carried.bind (carries_takeTurn carried code .serializer) ?_
  intro turn
  cases turn with
  | some f => exact written (.error f)
  | none =>
    have hosts : Hosts False (· = site) fun exec : Exec P => t.serializer.write exec site trigger := by
      refine t.serializer.hosts_write ?_ trigger
      rfl
    exact carried.bind (hosts.carries carried code) fun text => written (.ok text)

theorem carries_deliver (kind : ReportKind) (report : String) : holds (t.deliver exec site kind report) := by
  refine carried.note (carried.bind (carries_takeTurn carried code .handler) ?_)
  intro turn
  cases turn with
  | some f => exact carried.done _
  | none => exact (t.handler.hosts_deliver t.name kind report).carries carried code

theorem carries_finishReport (method : String) (trigger : Trigger) (words : Wording) :
    holds (t.finishReport exec site method trigger words) := by
  refine carried.bind (carries_finishText carried code trigger) ?_
  rintro (f | report)
  · exact carried.note (carried.done _)
  · refine carried.bind (carries_deliver carried code trigger.kind report) ?_
    rintro (f | _)
    · exact carried.note (carried.done _)
    · exact carried.done _

theorem carries_build (method : String) (trigger : Trigger) (words : Wording) :
    holds (t.build exec site method trigger words) := by
  rw [build_eq]
  exact carried.note (carries_finishReport carried code method trigger words)

end

section
variable (inherited : Inherited holds) (code : ∀ c, holds (exec site c))
include inherited code

theorem inherits_offer (method : String) (trigger : Trigger) (remembered : Option ErrorRef) (words : Wording) :
    holds (t.offer exec site method trigger remembered words) := by
  refine inherited.step (.admitting t site.thread trigger remembered) fun w => ?_
  split
  · exact inherited.ensuring (carries_build inherited.carried code method trigger words)
      ⟨fun _ => ⟨rfl, rfl, rfl, rfl⟩, fun _ => rfl⟩
  · exact inherited.carried.note (inherited.done _)

theorem inherits_onError (method : String) (e : ErrorRef) : holds (t.onError exec site method e) := by
  refine inherited.carried.read fun processing => ?_
  split
  · exact inherited.carried.note (inherited.done _)
  · refine inherited.carried.read fun propagating => ?_
    split
    · exact inherited.carried.note (inherited.done _)
    · exact inherited.step ⟨fun _ => ⟨rfl, rfl, rfl, rfl⟩, fun _ => rfl⟩ fun _ => inherits_offer inherited code _ _ _ _

theorem inherits_timeout (method : String) (thresholdMs actualMs : UInt64) :
    holds (t.timeout exec site method thresholdMs actualMs) := by
  refine inherited.carried.read fun processing => ?_
  split
  · exact inherited.carried.note (inherited.done _)
  · exact inherited.step ⟨fun _ => ⟨rfl, rfl, rfl, rfl⟩, fun _ => rfl⟩ fun _ => inherits_offer inherited code _ _ _ _

end

end Tracer

end FaultSnapshot
