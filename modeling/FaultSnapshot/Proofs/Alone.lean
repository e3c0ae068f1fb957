import FaultSnapshot.Tracer.Hooks

/-!
# Runs that nothing comes in between

How such a run ends follows from how its parts end, one after another.
-/

namespace FaultSnapshot.Run

variable {P : Program} {α β : Type} {w v : World P}

/-- Goes on where a run has ended. -/
def andThen (r : EStateM.Result Interrupt (World P) α) (k : α → Run P β) : EStateM.Result Interrupt (World P) β :=
  match r with
  | .ok a w => (k a).run w
  | .error e w => .error e w

@[simp] theorem andThen_ok (a : α) (w : World P) (k : α → Run P β) : andThen (.ok a w) k = (k a).run w := rfl

@[simp] theorem run_bind (m : Run P α) (k : α → Run P β) (w : World P) : (m >>= k).run w = andThen (m.run w) k := by
  induction m generalizing w with
  | done a => rfl
  | stop e => rfl
  | act change next ih => exact ih w (change w)

/-- A run that ends with a value went on from a value. -/
theorem run_bind_ok {m : Run P α} {k : α → Run P β} {b : β} (executed : (m >>= k).run w = .ok b v) :
    ∃ a u, m.run w = .ok a u ∧ (k a).run u = .ok b v := by
  rw [run_bind] at executed
  cases first : m.run w with
  | ok a u => exact ⟨a, u, rfl, by simpa [first] using executed⟩
  | error e u => simp [first, andThen] at executed

@[simp] theorem run_pure (a : α) (w : World P) : (pure a : Run P α).run w = .ok a w := rfl

@[simp] theorem run_map (f : α → β) (m : Run P α) (w : World P) :
    (f <$> m).run w = andThen (m.run w) fun a => pure (f a) := by
  rw [map_eq_pure_bind, run_bind]

@[simp] theorem run_discard (m : Run P α) (w : World P) :
    (discard m).run w = andThen (m.run w) fun _ => pure () :=
  run_map (fun _ => ()) m w

@[simp] theorem run_get (w : World P) : (get : Run P (World P)).run w = .ok w w := rfl

@[simp] theorem run_modifyGet (f : World P → α × World P) (w : World P) :
    (modifyGet f : Run P α).run w = .ok (f w).1 (f w).2 := rfl

@[simp] theorem run_modify (f : World P → World P) (w : World P) : (modify f : Run P Unit).run w = .ok () (f w) := rfl

theorem run_tryCatch_ok {m : Run P α} {handle : Interrupt → Run P α} {a : α} (ended : m.run w = .ok a v) :
    (tryCatch m handle : Run P α).run w = .ok a v := by
  induction m generalizing w with
  | done b => exact ended
  | stop e => cases ended
  | act change next ih => exact ih w ended

@[simp] theorem run_ensuring (m : Run P α) (last : World P → World P) (w : World P) :
    (m.ensuring last).run w = match m.run w with
      | .ok a v => .ok a (last v)
      | .error e v => .error e (last v) := by
  induction m generalizing w with
  | done a => rfl
  | stop e => rfl
  | act change next ih => exact ih w (change w)

@[simp] theorem run_note (e : Event) (w : World P) : (note e : Run P Unit).run w = .ok () (w.note e) := rfl

@[simp] theorem run_log {level : Level} {origin : Origin} {fields : List (String × String)} {message : String}
    (w : World P) : (log level origin fields message : Run P Unit).run w =
      .ok () (w.note (.logged ⟨level, origin, message, fields⟩)) := rfl

@[simp] theorem run_memory (f : Memory P.Code → α × Memory P.Code) (w : World P) :
    (memory f).run w = .ok (f w.memory).1 { w with memory := (f w.memory).2 } := rfl

@[simp] theorem run_newTrigger (tracker : TrackerId) (cause : Cause) (w : World P) :
    (newTrigger tracker cause).run w =
      .ok ⟨w.stamp w.triggers, tracker, cause⟩ { w with triggers := w.triggers + 1 } := rfl

end FaultSnapshot.Run

namespace FaultSnapshot.Tracer

variable {P : Program} {t : Tracer P} {thread : Thread} {w : World P}

@[simp] theorem run_isProcessing : (t.isProcessing thread).run w = .ok (w.reportingOf t.name thread).processing w := rfl

@[simp] theorem run_isPropagating {e : ErrorRef} :
    (t.isPropagating thread e).run w = .ok ((w.reportingOf t.name thread).remembered.any (·.same e)) w := rfl

@[simp] theorem run_logged {level : Level} {method message : String} :
    (log level method message).run w = .ok () (w.note (.logged ⟨level, .tracer, message, [("method", method)]⟩)) := rfl

end FaultSnapshot.Tracer
