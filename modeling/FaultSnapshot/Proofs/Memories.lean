import FaultSnapshot.Proofs.Inheritance
import FaultSnapshot.Proofs.Processing

/-!
# The memory of strands

All that code and hooks do to the memory are its own operations, so in every state that strands
reach the memory was made by these (`Pool.Reached.made`).
-/

namespace FaultSnapshot

variable {P : Program} {α β : Type} {crew : List String} {mine : Thread → Prop}

namespace Run

/-- Each step of the run is one that `allowed` allows, whatever it finds. -/
def Does (allowed : (World P → World P) → Prop) : Run P α → Prop
  | .done _ => True
  | .stop _ => True
  | .act change next => allowed change ∧ ∀ w, Does allowed (next w)

namespace Does

variable {allowed : (World P → World P) → Prop}

theorem bind {m : Run P α} {k : α → Run P β} (first : m.Does allowed) (rest : ∀ a, (k a).Does allowed) :
    (m >>= k).Does allowed := by
  induction m with
  | done a => exact rest a
  | stop e => trivial
  | act change next ih => exact ⟨first.1, fun w => ih w (first.2 w)⟩

theorem rescue {m : Run P α} {handle : Interrupt → Run P α} (first : m.Does allowed)
    (rest : ∀ e, (handle e).Does allowed) : (tryCatch m handle).Does allowed := by
  induction m with
  | done a => trivial
  | stop e => exact rest e
  | act change next ih => exact ⟨first.1, fun w => ih w (first.2 w)⟩

theorem ensuring {m : Run P α} {last : World P → World P} (first : m.Does allowed) (closes : allowed last) :
    (m.ensuring last).Does allowed := by
  induction m with
  | done a => exact ⟨closes, fun _ => trivial⟩
  | stop e => exact ⟨closes, fun _ => trivial⟩
  | act change next ih => exact ⟨first.1, fun w => ih w (first.2 w)⟩

end Does

end Run

/-- Reports work on the memory by its operations if the code that they run does so. -/
theorem Run.Does.inherited : Inherited (P := P) fun m => m.Does Lawful where
  done _ := trivial
  act beside rest := ⟨.of_memory beside.memory, rest⟩
  bind first rest := first.bind rest
  ensuring first beside := first.ensuring (.of_memory beside.memory)

/-- Whatever code does to the memory, it does by operations of the memory. -/
theorem Conduct.does {m : Run P α} (conduct : Conduct crew mine m) : m.Does Lawful := by
  induction conduct with
  | done a => trivial
  | stop e => trivial
  | act _ lawful _ ih => exact ⟨lawful, ih⟩
  | bind _ _ first rest => exact first.bind rest
  | rescue _ _ first rest => exact first.rescue rest
  | onError _ on _ code => exact Tracer.inherits_onError Run.Does.inherited (fun c => code _ c on) _ _
  | timeout _ on _ code => exact Tracer.inherits_timeout Run.Does.inherited (fun c => code _ c on) _ _ _

/-! ## Pools -/

namespace Pool

variable {ι : Type} [DecidableEq ι] {owner : Thread → ι} {p q : Pool P ι}

theorem made_of_step (does : ∀ i, (p.strand i).Does Lawful) (made : p.world.memory.Made) (step : p.Step q) :
    (∀ i, (q.strand i).Does Lawful) ∧ q.world.memory.Made := by
  cases step with
  | @act i change next ready =>
    have own := does i
    rw [ready] at own
    obtain ⟨lawful, later⟩ := own
    refine ⟨?_, lawful p.world made⟩
    intro j
    by_cases same : j = i
    · subst same
      simpa using later p.world
    · simpa [same] using does j

theorem made_of_reaches (does : ∀ i, (p.strand i).Does Lawful) (made : p.world.memory.Made) (reached : p.Reaches q) :
    (∀ i, (q.strand i).Does Lawful) ∧ q.world.memory.Made := by
  induction reached with
  | refl => exact ⟨does, made⟩
  | tail _ step ih =>
    obtain ⟨does, made⟩ := ih
    exact made_of_step does made step

/-- In every reached state the memory was made by its operations. -/
theorem Reached.made (reached : q.Reached crew owner) : q.world.memory.Made := by
  obtain ⟨clocks, stamp, state, strand, conducts, reaches⟩ := reached
  exact (made_of_reaches (fun i => (conducts i).does) .empty reaches).2

end Pool

end FaultSnapshot
