import FaultSnapshot.World

/-!
# Runs

A run takes single steps on the world and goes on with what it saw. It ends with a value, or it is
interrupted, for instance by a panic. Between two steps other runs may take theirs.
-/

namespace FaultSnapshot

/-- Why a run stops before its end. -/
inductive Interrupt
  | panic (payload : PanicPayload)
  | abort
  | exhausted

/-- A run of some code: it is over, it is interrupted, or it changes the world and goes on with the
    world that it found. -/
inductive Run (P : Program) (α : Type)
  | done (a : α)
  | stop (e : Interrupt)
  | act (change : World P → World P) (next : World P → Run P α)

/-- Where code runs: its thread, and the threads that wait for it. -/
structure Site where
  thread : Thread
  waiting : List Thread

/-- How code of the program is run. -/
abbrev Exec (P : Program) := Site → P.Code → Run P Unit

namespace Run

variable {P : Program} {α β γ : Type}

/-- Goes on with the value of a run. -/
def bind (m : Run P α) (k : α → Run P β) : Run P β :=
  match m with
  | done a => k a
  | stop e => stop e
  | act change next => act change fun w => (next w).bind k

/-- Goes on from an interrupt. -/
def rescue (m : Run P α) (handle : Interrupt → Run P α) : Run P α :=
  match m with
  | done a => done a
  | stop e => handle e
  | act change next => act change fun w => (next w).rescue handle

/-- One step that answers something. -/
def step (f : World P → α × World P) : Run P α := act (fun w => (f w).2) fun w => done (f w).1

instance : Monad (Run P) where
  pure := done
  bind := bind

instance : MonadStateOf (World P) (Run P) where
  get := act id done
  set w := act (fun _ => w) fun _ => done ()
  modifyGet := step

instance : MonadExceptOf Interrupt (Run P) where
  throw := stop
  tryCatch := rescue

/-- Changes the world after a run, however the run ends. -/
def ensuring (m : Run P α) (last : World P → World P) : Run P α :=
  match m with
  | done a => act last fun _ => done a
  | stop e => act last fun _ => stop e
  | act change next => act change fun w => (next w).ensuring last

/-- The end of a run that nothing else comes in between. -/
def run (m : Run P α) (w : World P) : EStateM.Result Interrupt (World P) α :=
  match m with
  | done a => .ok a w
  | stop e => .error e w
  | act change next => (next w).run (change w)

theorem bind_done (m : Run P α) : m.bind done = m := by
  induction m with
  | done a => rfl
  | stop e => rfl
  | act change next ih => simp only [bind, ih]

theorem bind_assoc (m : Run P α) (k : α → Run P β) (h : β → Run P γ) :
    (m.bind k).bind h = m.bind fun a => (k a).bind h := by
  induction m with
  | done a => rfl
  | stop e => rfl
  | act change next ih => simp only [bind, ih]

instance : LawfulMonad (Run P) :=
  LawfulMonad.mk' (Run P) (fun m => bind_done m) (fun _ _ => rfl) (fun m k h => bind_assoc m k h)

/-! ## Steps -/

def memory (f : Memory P.Code → α × Memory P.Code) : Run P α :=
  modifyGet fun w => ((f w.memory).1, { w with memory := (f w.memory).2 })

def readMemory (f : Memory P.Code → α) : Run P α := do
  return f (← get).memory

def note (e : Event) : Run P Unit := modify (·.note e)

def log (level : Level) (origin : Origin) (fields : List (String × String)) (message : String) : Run P Unit :=
  note (.logged ⟨level, origin, message, fields⟩)

def newError (e : AppError) : Run P ErrorRef :=
  modifyGet fun w => (⟨w.errors, e⟩, { w with errors := w.errors + 1 })

def newTrigger (tracker : TrackerId) (cause : Cause) : Run P Trigger :=
  modifyGet fun w => (⟨w.stamp w.triggers, tracker, cause⟩, { w with triggers := w.triggers + 1 })

def ask (throttle : Option ThrottleId) : Run P Bool := modifyGet (·.ask throttle)

end Run

end FaultSnapshot
