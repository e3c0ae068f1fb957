import FaultSnapshot.Proofs.Propagation

/-!
# Programs with and without monitoring

A `Task` is a program that calls hooks and makes traced calls. What it does is decided by data of
its own, which the monitor and the code that runs for reports leave alone. So it runs the same with
a tracer and with a monitor that is silent: it begins the same bodies in the same order and ends with
the same result (`Task.runs_unmonitored`).
-/

namespace FaultSnapshot

variable {P : Program} {α β δ : Type}

/-- The program with a diary: of each body that it begins, the method, and its own data then. -/
abbrev Program.withDiary (P : Program) (δ : Type) : Program := ⟨P.Code, P.State × List (String × δ)⟩

/-- A call of a hook of a monitor. -/
def Monitor.call (exec : Exec P) (m : Monitor P) (site : Site) : Hook P → Run P (Except Fault Unit)
  | .entering owner method params => m.entering site owner method params
  | .enteringFlat owner method params => m.enteringFlat site owner method params
  | .exiting => m.exiting site
  | .valueChange name value => m.valueChange site name value
  | .returning value => m.returning value
  | .onError method e => m.onError exec site method e
  | .timeout method thresholdMs actualMs => m.timeout exec site method thresholdMs actualMs

namespace World

/-- The bodies that were begun. -/
def diary (w : World (P.withDiary δ)) : List (String × δ) := w.state.2

/-- What the program holds of its own: something that its state and its error objects tell. -/
def own (holds : P.State → Nat → δ) (w : World (P.withDiary δ)) : δ := holds w.state.1 w.errors

/-- The body of a method begins. -/
def begin (holds : P.State → Nat → δ) (method : String) (w : World (P.withDiary δ)) : World (P.withDiary δ) :=
  { w with state := (w.state.1, w.diary ++ [(method, w.own holds)]) }

/-- Two worlds in which a program holds the same, and has begun the same bodies. -/
structure Alike (holds : P.State → Nat → δ) (w v : World (P.withDiary δ)) : Prop where
  own : w.own holds = v.own holds
  diary : w.diary = v.diary

end World

/-- A step of a program that depends on what it holds of its own, and changes nothing else of which
    the program knows. It works on the memory by its operations. -/
structure OwnStep (holds : P.State → Nat → δ) (f : World (P.withDiary δ) → β × World (P.withDiary δ)) : Prop where
  lawful : Lawful fun w => (f w).2
  answer : ∀ w v, w.own holds = v.own holds → (f w).1 = (f v).1
  change : ∀ w v, w.own holds = v.own holds → (f w).2.own holds = (f v).2.own holds
  diary : ∀ w, (f w).2.diary = w.diary

/-- A program that is over, takes a step of its own, calls a hook without regard to what comes of it,
    or makes a traced call with named parameters. -/
inductive Task (holds : P.State → Nat → δ) : Type → Type 1
  | done {α : Type} (a : α) : Task holds α
  | step {α β : Type} (f : World (P.withDiary δ) → β × World (P.withDiary δ)) (own : OwnStep holds f)
      (next : β → Task holds α) : Task holds α
  | hook {α : Type} (call : Hook (P.withDiary δ)) (next : Task holds α) : Task holds α
  | traced {α β : Type} (owner : Option (Object P.Code)) (method : String) (params : List (String × Object P.Code))
      (named : ∀ p ∈ params, p.1 ≠ "") (body : Task holds (Except ErrorRef β))
      (next : Except ErrorRef β → Task holds α) : Task holds α

/-- Runs a program under a monitor. -/
def Task.run {holds : P.State → Nat → δ} (exec : Exec (P.withDiary δ)) (m : Monitor (P.withDiary δ)) (site : Site)
    {α : Type} : Task holds α → Run (P.withDiary δ) α
  | .done a => return a
  | .step f _ next => do (next (← modifyGet f)).run exec m site
  | .hook call next => do
    discard (m.call exec site call)
    next.run exec m site
  | .traced owner method params _ body next => do
    let ended ← FaultSnapshot.traced exec m site owner method params fun _ => do
      modify (World.begin holds method)
      body.run exec m site
    (next ended.result).run exec m site

/-- The run returns, works on the memory by its operations, and leaves alone what the program holds
    of its own and its diary. -/
def Run.Spares (holds : P.State → Nat → δ) (m : Run (P.withDiary δ) α) : Prop :=
  ∀ w, w.memory.Made → ∃ a v, m.run w = .ok a v ∧ v.memory.Made ∧ w.Alike holds v

/-! ## Runs that spare the program -/

namespace World.Alike

variable {holds : P.State → Nat → δ} {w v u : World (P.withDiary δ)}

theorem refl (holds : P.State → Nat → δ) (w : World (P.withDiary δ)) : w.Alike holds w := ⟨rfl, rfl⟩

theorem symm (alike : w.Alike holds v) : v.Alike holds w := ⟨alike.own.symm, alike.diary.symm⟩

theorem trans (first : w.Alike holds v) (later : v.Alike holds u) : w.Alike holds u :=
  ⟨first.own.trans later.own, first.diary.trans later.diary⟩

theorem of_discreet {change : World (P.withDiary δ) → World (P.withDiary δ)} (discreet : Discreet change)
    (holds : P.State → Nat → δ) (w : World (P.withDiary δ)) : w.Alike holds (change w) := by
  obtain ⟨state, errors, _⟩ := discreet w
  constructor
  · rw [World.own, World.own, state, errors]
  · rw [World.diary, World.diary, state]

end World.Alike

namespace Run.Spares

variable {holds : P.State → Nat → δ}

theorem done (a : α) : (Run.done a : Run (P.withDiary δ) α).Spares holds :=
  fun w made => ⟨a, w, rfl, made, .refl holds w⟩

theorem bind {m : Run (P.withDiary δ) α} {k : α → Run (P.withDiary δ) β} (first : m.Spares holds)
    (rest : ∀ a, (k a).Spares holds) : (m >>= k).Spares holds := by
  intro w made
  obtain ⟨a, v, executed, made, before⟩ := first w made
  obtain ⟨b, u, later, made, after⟩ := rest a v made
  exact ⟨b, u, by rw [Run.run_bind, executed]; exact later, made, before.trans after⟩

theorem act {change : World (P.withDiary δ) → World (P.withDiary δ)}
    {next : World (P.withDiary δ) → Run (P.withDiary δ) α} (discreet : Discreet change) (lawful : Lawful change)
    (rest : ∀ w, (next w).Spares holds) : (Run.act change next).Spares holds := by
  intro w made
  obtain ⟨a, v, executed, made, after⟩ := rest w (change w) (lawful w made)
  exact ⟨a, v, executed, made, (World.Alike.of_discreet discreet holds w).trans after⟩

/-- Reports spare the program if the code that they run does so. -/
theorem inherited (holds : P.State → Nat → δ) : Inherited fun m => m.Spares holds where
  done := .done
  act beside rest := .act beside.discreet (.of_memory beside.memory) rest
  bind first rest := first.bind rest
  ensuring first beside := by
    intro w made
    obtain ⟨a, v, executed, made, alike⟩ := first w made
    refine ⟨a, _, by rw [Run.run_ensuring, executed], (beside.memory v).symm ▸ made, ?_⟩
    exact alike.trans (.of_discreet beside.discreet holds v)

end Run.Spares

section
variable {holds : P.State → Nat → δ} {exec : Exec (P.withDiary δ)} {t : Tracer (P.withDiary δ)} {site : Site}

theorem Hosts.spares {f : Exec (P.withDiary δ) → Run (P.withDiary δ) α} (hosts : Hosts True (fun _ => False) f)
    (holds : P.State → Nat → δ) (exec : Exec (P.withDiary δ)) : (f exec).Spares holds := by
  induction hosts with
  | done a => exact .done a
  | act plain _ _ ih => exact .act plain.discreet plain.lawful ih
  | bind _ _ first rest => exact first.bind rest
  | code _ _ on => exact on.elim

/-- Whatever a hook comes to, it spares the program. -/
theorem Monitor.spares_call (code : ∀ c, (exec site c).Spares holds) (hook : Hook (P.withDiary δ)) :
    ((Monitor.active t).call exec site hook).Spares holds := by
  cases hook with
  | entering owner method params => exact Tracer.hosts_entering.spares holds exec
  | enteringFlat owner method params => exact Tracer.hosts_enteringFlat.spares holds exec
  | exiting => exact Tracer.hosts_exiting.spares holds exec
  | valueChange name value => exact Tracer.hosts_valueChange.spares holds exec
  | returning value => exact .done _
  | onError method e => exact Tracer.inherits_onError (Run.Spares.inherited holds) code method e
  | timeout method thresholdMs actualMs =>
    exact Tracer.inherits_timeout (Run.Spares.inherited holds) code method thresholdMs actualMs

theorem Guard.spares_logFailure (method message : String) (r : Except Fault Unit) :
    (logFailure method message r).Spares holds := by
  cases r with
  | ok => exact .done ()
  | error f => exact .act (fun _ => ⟨rfl, rfl, rfl, rfl⟩) (fun _ made => made) fun _ => .done ()

theorem Guard.spares_close (t : Tracer (P.withDiary δ)) (exec : Exec (P.withDiary δ)) (site : Site) (method : String)
    (elapsedMs : UInt64) :
    ((⟨.active t, method, none⟩ : Guard (P.withDiary δ)).close exec site elapsedMs).Spares holds :=
  (Tracer.hosts_exiting.spares holds exec).bind fun exited => spares_logFailure _ _ exited

theorem Guard.enters {params : List (String × Object P.Code)} {w : World (P.withDiary δ)}
    (accepts : t.tracker.refusedMethods = [] ∧ t.tracker.refusedVariables = []) (named : ∀ p ∈ params, p.1 ≠ "")
    (made : w.memory.Made) (holds : P.State → Nat → δ) (site : Site) (owner : Option (Object P.Code))
    (method : String) :
    ∃ v, (enter (.active t) site owner method params).run w = .ok (.ok ⟨.active t, method, none⟩) v ∧
      v.memory.Made ∧ w.Alike holds v := by
  obtain ⟨r, v, entered, made', alike⟩ :=
    Hosts.spares (f := fun _ => t.entering site owner method params) Tracer.hosts_entering holds (fun _ _ => .done ())
      w made
  have ok : r = .ok () := by
    cases busy : (w.reportingOf t.name site.thread).processing with
    | true =>
      have ignored : (t.entering site owner method params).run w = .ok (.ok ()) w := by simp [Tracer.entering, busy]
      cases ignored.symm.trans entered
      rfl
    | false =>
      obtain ⟨m, opened, _⟩ := Tracer.run_entering (made.sound _) accepts named busy owner method
      cases opened.symm.trans entered
      rfl
  subst ok
  exact ⟨v, by simp [enter, Monitor.entering, entered], made', alike⟩

end

/-! ## Two runs -/

/-- The two runs return the same and change in the same way what the program holds of its own and its
    diary. -/
def Run.Matches (holds : P.State → Nat → δ) (m m' : Run (P.withDiary δ) α) : Prop :=
  ∀ w w', w.memory.Made → w.Alike holds w' →
    ∃ a v v', m.run w = .ok a v ∧ m'.run w' = .ok a v' ∧ v.memory.Made ∧ v.Alike holds v'

namespace Run.Matches

variable {holds : P.State → Nat → δ} {m m' : Run (P.withDiary δ) α}

theorem done (a : α) : (Run.done a : Run (P.withDiary δ) α).Matches holds (Run.done a) :=
  fun w w' made alike => ⟨a, w, w', rfl, rfl, made, alike⟩

theorem bind {k k' : α → Run (P.withDiary δ) β} (first : m.Matches holds m') (rest : ∀ a, (k a).Matches holds (k' a)) :
    (m >>= k).Matches holds (m' >>= k') := by
  intro w w' made alike
  obtain ⟨a, v, v', executed, executed', made, alike⟩ := first w w' made alike
  obtain ⟨b, u, u', later, later', made, alike⟩ := rest a v v' made alike
  exact ⟨b, u, u', by rw [run_bind, executed]; exact later, by rw [run_bind, executed']; exact later', made, alike⟩

/-- Only one of the two runs begins with something that spares the program. -/
theorem spared {first : Run (P.withDiary δ) β} {k : β → Run (P.withDiary δ) α} (spares : first.Spares holds)
    (rest : ∀ b, (k b).Matches holds m') : (first >>= k).Matches holds m' := by
  intro w w' made alike
  obtain ⟨b, u, executed, made, before⟩ := spares w made
  obtain ⟨a, v, v', later, later', made, alike⟩ := rest b u w' made (before.symm.trans alike)
  exact ⟨a, v, v', by rw [run_bind, executed]; exact later, later', made, alike⟩

theorem step {f : World (P.withDiary δ) → α × World (P.withDiary δ)} (own : OwnStep holds f) :
    (modifyGet f : Run (P.withDiary δ) α).Matches holds (modifyGet f) := by
  intro w w' made alike
  refine ⟨(f w).1, (f w).2, (f w').2, rfl, ?_, own.lawful w made, own.change w w' alike.own, ?_⟩
  · rw [run_modifyGet, own.answer w w' alike.own]
  · rw [own.diary, own.diary, alike.diary]

theorem begin (holds : P.State → Nat → δ) (method : String) :
    (modify (World.begin holds method) : Run (P.withDiary δ) Unit).Matches holds
      (modify (World.begin holds method)) := by
  intro w w' made alike
  refine ⟨(), _, _, rfl, rfl, made, alike.own, ?_⟩
  show w.diary ++ [(method, w.own holds)] = w'.diary ++ [(method, w'.own holds)]
  rw [alike.diary, alike.own]

theorem closingAfter {close : Run (P.withDiary δ) Unit} (first : m.Matches holds m') (closes : close.Spares holds) :
    (Panic.closingAfter m close).Matches holds (Panic.closingAfter m' (pure ())) := by
  intro w w' made alike
  obtain ⟨a, v, v', executed, executed', made, alike⟩ := first w w' made alike
  obtain ⟨_, u, closed, made, after⟩ := closes v made
  refine ⟨a, u, v', ?_, ?_, made, after.symm.trans alike⟩
  · rw [Panic.closingAfter, run_bind, run_tryCatch_ok executed, andThen_ok, run_bind, closed]
    rfl
  · rw [Panic.closingAfter, run_bind, run_tryCatch_ok executed']
    rfl

end Run.Matches

section
variable {holds : P.State → Nat → δ} {exec : Exec (P.withDiary δ)} {t : Tracer (P.withDiary δ)} {site : Site}

theorem Guard.matches_reportResult (code : ∀ c, (exec site c).Spares holds) (method : String)
    (result : Except ErrorRef α) :
    ((⟨.active t, method, none⟩ : Guard (P.withDiary δ)).reportResult exec site result).Matches holds
      ((⟨.silent, method, none⟩ : Guard (P.withDiary δ)).reportResult exec site result) := by
  cases result with
  | ok a => exact .done _
  | error e =>
    have reported : ((⟨.active t, method, none⟩ : Guard (P.withDiary δ)).reportError exec site e).Spares holds :=
      Monitor.spares_call code (.onError method e)
    exact .spared reported fun r => .spared (spares_logFailure method _ r) fun _ => .done _

theorem Run.Matches.traced {owner : Option (Object P.Code)} {method : String} {params : List (String × Object P.Code)}
    {body body' : Run (P.withDiary δ) (Except ErrorRef α)}
    (accepts : t.tracker.refusedMethods = [] ∧ t.tracker.refusedVariables = []) (named : ∀ p ∈ params, p.1 ≠ "")
    (code : ∀ c, (exec site c).Spares holds) (within : body.Matches holds body') :
    (FaultSnapshot.traced exec (.active t) site owner method params fun _ => body).Matches holds
      (FaultSnapshot.traced exec .silent site owner method params fun _ => body') := by
  intro w w' made alike
  obtain ⟨v, entered, made, before⟩ := Guard.enters accepts named made holds site owner method
  have inside := (within.bind fun result => Guard.matches_reportResult (t := t) code method result).closingAfter
    (Guard.spares_close t exec site method 0)
  obtain ⟨ended, u, u', executed, executed', made, alike⟩ := inside v w' made (before.symm.trans alike)
  refine ⟨ended, u, u', ?_, executed', made, alike⟩
  rw [FaultSnapshot.traced, run_bind, entered]
  exact executed

namespace Task

/-- A program runs alike under a tracer and under a silent monitor. -/
theorem run_matches (task : Task holds α) (accepts : t.tracker.refusedMethods = [] ∧ t.tracker.refusedVariables = [])
    (code : ∀ c, (exec site c).Spares holds) :
    (task.run exec (.active t) site).Matches holds (task.run exec .silent site) := by
  -- By induction on the program: only hooks and traced calls know the monitor, and these match.
  induction task with
  | done a => exact .done a
  | step f own _ rest => exact .bind (.step own) rest
  | hook call _ rest =>
    have discarded : (discard ((Monitor.active t).call exec site call)).Spares holds :=
      (Monitor.spares_call code call).bind fun _ => .done ()
    cases call <;> exact .spared discarded fun _ => rest
  | traced owner method params named body next within rest =>
    refine .bind (.traced accepts named code (.bind (.begin holds method) fun _ => within)) fun ended => ?_
    exact rest ended.result

/-- Let a program be made of steps of its own, calls of hooks with results that it ignores, and
    traced calls with named parameters, nested and sequenced to any depth. Let the tracer write to a
    tracker that refuses nothing, and let the code of its serializer and its handler return and leave
    alone what the program holds of its own. Whatever frames are open, whatever was reported before,
    and however a throttle decides: the program returns the same value, or the very same error
    object, as with a silent monitor, and begins the same bodies in the same order. -/
theorem runs_unmonitored {w w' : World (P.withDiary δ)} (task : Task holds (Except ErrorRef α))
    (accepts : t.tracker.refusedMethods = [] ∧ t.tracker.refusedVariables = [])
    (code : ∀ c, (exec site c).Spares holds) (made : w.memory.Made) (alike : w.Alike holds w') :
    ∃ result v v', (task.run exec (.active t) site).run w = .ok result v ∧
      (task.run exec .silent site).run w' = .ok result v' ∧ v.diary = v'.diary ∧ v.own holds = v'.own holds := by
  obtain ⟨result, v, v', monitored, unmonitored, _, alike⟩ := task.run_matches accepts code w w' made alike
  exact ⟨result, v, v', monitored, unmonitored, alike.diary, alike.own⟩

end Task

end

namespace Sample

/-- A program with a counter. -/
abbrev counting : Program := ⟨Unit, Nat⟩

/-- The counter is what the program holds of its own. -/
def counter : counting.State → Nat → Nat := fun n _ => n

/-- The world at its start. -/
def startCounting : World (counting.withDiary Nat) := .start ⟨0, 0⟩ start.stamp (0, [])

/-- A tracer whose serializer runs the code and then fails. -/
def failing : Tracer (counting.withDiary Nat) where
  name := "tracer"
  tracker := ⟨.own "tracer", [], []⟩
  serializer := .text
  handler := .record
  throttle := none
  turns := fun
    | .serializer, 0 => some ⟨(), some .outputFull⟩
    | _, _ => none

def logging : Exec (counting.withDiary Nat) := fun _ _ => Run.log .info .sink [] "writing"

def count (w : World (counting.withDiary Nat)) : Nat × World (counting.withDiary Nat) :=
  (w.state.1, { w with state := (w.state.1 + 1, w.state.2) })

theorem own_count : OwnStep counter count where
  lawful _ made := made
  answer _ _ same := same
  change _ _ same := congrArg (· + 1) same
  diary _ := rfl

/-- An error passes through two traced calls. The inner one leaves a method that it did not enter. -/
def failingTask : Task counter (Except ErrorRef Nat) :=
  .traced none "outer" [("order", ⟨0, .text "A-17"⟩)] (by simp)
    (.step count own_count fun _ =>
      .traced none "inner" [] (by simp) (.hook .exiting (.done (.error error))) fun result => .done result)
    fun result => .done result

end Sample

open Sample in
/-- A tracer whose reports fail does not change what becomes of an error. -/
theorem Task.runs_unmonitored_sample :
    ∃ v, (failingTask.run logging (.active failing) site).run startCounting = .ok (.error error) v ∧
      v.diary = [("outer", 0), ("inner", 1)] := by
  have code : ∀ c, (logging site c).Spares counter := by
    intro c
    exact .act (fun _ => ⟨rfl, rfl, rfl, rfl⟩) (fun _ made => made) fun _ => .done ()
  obtain ⟨result, v, v', monitored, unmonitored, diary, _⟩ :=
    failingTask.runs_unmonitored (t := failing) ⟨rfl, rfl⟩ code .empty (.refl counter startCounting)
  have silent : ∃ u, (failingTask.run logging .silent site).run startCounting = .ok (.error error) u ∧
      u.diary = [("outer", 0), ("inner", 1)] := ⟨_, rfl, rfl⟩
  obtain ⟨u, executed, bodies⟩ := silent
  cases executed.symm.trans unmonitored
  exact ⟨v, monitored, diary.trans bodies⟩

end FaultSnapshot
