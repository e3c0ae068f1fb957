import FaultSnapshot.Run
import Mathlib.Logic.Function.Basic
import Mathlib.Logic.Relation

/-!
# Runs among other runs

Strands of code run side by side on one world: at every moment any strand may take its next step.
From its own place a strand sees only part of the world, and other strands are known not to change
that part: `Goes` describes how a strand goes on among them. `Keeps` says of a run what each of its
steps does and how it ends, whatever other strands do in between to what it does not see.
`Pool.goes_of_reaches` carries such statements over to the strands of a pool.
-/

namespace FaultSnapshot

variable {P : Program} {α β : Type} {ι σ : Type}

/-- Strands of code on one world. -/
structure Pool (P : Program) (ι : Type) where
  strand : ι → Run P Unit
  world : World P

/-- One strand takes its next step. -/
inductive Pool.Step [DecidableEq ι] : Pool P ι → Pool P ι → Prop
  | act {p : Pool P ι} {i : ι} {change : World P → World P} {next : World P → Run P Unit}
      (ready : p.strand i = .act change next) :
      Step p ⟨Function.update p.strand i (next p.world), change p.world⟩

/-- Any strands take any steps. -/
def Pool.Reaches [DecidableEq ι] (p q : Pool P ι) : Prop := Relation.ReflTransGen Step p q

theorem Pool.Reaches.refl [DecidableEq ι] (p : Pool P ι) : p.Reaches p := Relation.ReflTransGen.refl

/-- What is left of a run after some of its steps, and the world then. -/
def Run.after (m : Run P α) (w : World P) : Nat → Run P α × World P
  | 0 => (m, w)
  | n + 1 =>
    match m with
    | .act change next => (next w).after (change w) n
    | _ => (m, w)

/-- One strand may take steps while the others wait. -/
theorem Pool.reaches_after [DecidableEq ι] (p : Pool P ι) (i : ι) (n : Nat) :
    p.Reaches ⟨Function.update p.strand i ((p.strand i).after p.world n).1, ((p.strand i).after p.world n).2⟩ := by
  induction n generalizing p with
  | zero => simpa [Run.after] using Reaches.refl p
  | succ n ih =>
    cases ready : p.strand i with
    | done a => simpa [Run.after, ← ready] using Reaches.refl p
    | stop e => simpa [Run.after, ← ready] using Reaches.refl p
    | act change next =>
      have later := ih ⟨Function.update p.strand i (next p.world), change p.world⟩
      simp only [Function.update_self, Function.update_idem] at later
      exact later.head (.act ready)

namespace Run

/-- The run `m`, begun in `w`, has `m'` still to do in `v`. Between its steps other strands change
    whatever `see` does not show. -/
inductive Goes (see : World P → σ) : Run P α → World P → Run P α → World P → Prop
  | rest {m : Run P α} {w v : World P} (seen : see v = see w) : Goes see m w m v
  | act {change : World P → World P} {next : World P → Run P α} {m' : Run P α} {w v u : World P}
      (seen : see v = see w) (later : Goes see (next v) (change v) m' u) : Goes see (.act change next) w m' u

/-- The run that has ended with `r`. -/
def endWith : Except Interrupt α → Run P α
  | .ok a => done a
  | .error e => stop e

/-- Nothing is left to do. -/
def IsOver (m : Run P α) : Prop := ∃ r, m = endWith r

/-- The run `m`, begun in `w`, ends with `r` in `v`. -/
def Ends (see : World P → σ) (m : Run P α) (w : World P) (r : Except Interrupt α) (v : World P) : Prop :=
  Goes see m w (endWith r) v

/-- Each step of the run, from one world to the next, is one that `guar` allows, and the run ends as
    `post` says; both whatever is changed in between that `see` does not show. -/
def Keeps (see : World P → σ) (guar : World P → World P → Prop) (post : Except Interrupt α → World P → Prop) :
    Run P α → World P → Prop
  | .done a, w => ∀ v, see v = see w → post (.ok a) v
  | .stop e, w => ∀ v, see v = see w → post (.error e) v
  | .act change next, w => ∀ v, see v = see w → guar v (change v) ∧ Keeps see guar post (next v) (change v)

variable {see : World P → σ} {guar : World P → World P → Prop} {post : Except Interrupt α → World P → Prop}

/-- A run has returned something of which, and of the world then, this holds. -/
def Returned (inv : α → World P → Prop) : Except Interrupt α → World P → Prop
  | .ok a, v => inv a v
  | .error _, _ => False

/-- What a strand does not see may change before it goes on. -/
theorem Keeps.congr {m : Run P α} {w v : World P} (keeps : Keeps see guar post m w) (seen : see v = see w) :
    Keeps see guar post m v := by
  cases m with
  | done a =>
    intro u same
    exact keeps u (same.trans seen)
  | stop e =>
    intro u same
    exact keeps u (same.trans seen)
  | act change next =>
    intro u same
    exact keeps u (same.trans seen)

/-- What is kept for one who sees less is kept for one who sees more: less of it is changed by others. -/
theorem Keeps.finer {τ : Type} {see' : World P → τ} {m : Run P α} {w : World P}
    (finer : ∀ u v, see u = see v → see' u = see' v) (keeps : Keeps see' guar post m w) : Keeps see guar post m w := by
  induction m generalizing w with
  | done a => exact fun v same => keeps v (finer v w same)
  | stop e => exact fun v same => keeps v (finer v w same)
  | act change next ih =>
    intro v same
    obtain ⟨allowed, later⟩ := keeps v (finer v w same)
    exact ⟨allowed, ih v later⟩

theorem Keeps.goes {m m' : Run P α} {w v : World P} (keeps : Keeps see guar post m w) (goes : Goes see m w m' v) :
    Keeps see guar post m' v := by
  induction goes with
  | rest seen => exact keeps.congr seen
  | act seen _ ih => exact ih (keeps _ seen).2

theorem Keeps.ends {m : Run P α} {w v : World P} {r : Except Interrupt α} (keeps : Keeps see guar post m w)
    (ends : Ends see m w r v) : post r v := by
  have kept := keeps.goes ends
  cases r with
  | ok a => exact kept v rfl
  | error e => exact kept v rfl

/-- A run that is over has ended as it should. -/
theorem Keeps.over_of_goes {m m' : Run P α} {w v : World P} (keeps : Keeps see guar post m w)
    (goes : Goes see m w m' v) (finished : m'.IsOver) : ∃ r, post r v := by
  obtain ⟨r, rfl⟩ := finished
  exact ⟨r, keeps.ends goes⟩

/-- A run that is not over is about to take an allowed step. -/
theorem Keeps.underway_of_goes {m m' : Run P α} {w v : World P} (keeps : Keeps see guar post m w)
    (goes : Goes see m w m' v) (underway : ¬ m'.IsOver) : ∃ u, guar v u := by
  have kept := keeps.goes goes
  cases m' with
  | done a => exact absurd ⟨.ok a, rfl⟩ underway
  | stop e => exact absurd ⟨.error e, rfl⟩ underway
  | act change next => exact ⟨change v, (kept v rfl).1⟩

theorem Goes.trans {m₁ m₂ m₃ : Run P α} {w v u : World P} (first : Goes see m₁ w m₂ v) (later : Goes see m₂ v m₃ u) :
    Goes see m₁ w m₃ u := by
  induction first with
  | rest seen =>
    cases later with
    | rest seen' => exact .rest (seen'.trans seen)
    | act seen' later => exact .act (seen'.trans seen) later
  | act seen _ ih => exact .act seen (ih later)

theorem Goes.bind {m m' : Run P α} {k : α → Run P β} {w v : World P} (goes : Goes see m w m' v) :
    Goes see (m >>= k) w (m' >>= k) v := by
  induction goes with
  | rest seen => exact .rest seen
  | act seen _ ih => exact .act seen ih

/-- A run that nothing comes in between is one way for it to end. -/
theorem Ends.of_run {m : Run P α} {w v : World P} {a : α} (executed : m.run w = .ok a v) :
    Ends see m w (.ok a) v := by
  induction m generalizing w with
  | done b =>
    cases executed
    exact .rest rfl
  | stop e => cases executed
  | act change next ih => exact .act rfl (ih w executed)

theorem Ends.of_run_error {m : Run P α} {w v : World P} {e : Interrupt} (executed : m.run w = .error e v) :
    Ends see m w (.error e) v := by
  induction m generalizing w with
  | done b => cases executed
  | stop e =>
    cases executed
    exact .rest rfl
  | act change next ih => exact .act rfl (ih w executed)

/-- Every run ends. -/
theorem exists_ends (see : World P → σ) (m : Run P α) (w : World P) : ∃ r v, Ends see m w r v := by
  induction m generalizing w with
  | done a => exact ⟨.ok a, w, .rest rfl⟩
  | stop e => exact ⟨.error e, w, .rest rfl⟩
  | act change next ih =>
    obtain ⟨r, v, ends⟩ := ih w (change w)
    exact ⟨r, v, .act rfl ends⟩

theorem Keeps.mono {guar' : World P → World P → Prop} {post' : Except Interrupt α → World P → Prop} {m : Run P α}
    {w : World P} (keeps : Keeps see guar post m w) (steps : ∀ v u, guar v u → guar' v u)
    (ending : ∀ r v, post r v → post' r v) : Keeps see guar' post' m w := by
  induction m generalizing w with
  | done a =>
    intro v seen
    exact ending _ _ (keeps v seen)
  | stop e =>
    intro v seen
    exact ending _ _ (keeps v seen)
  | act change next ih =>
    intro v seen
    exact ⟨steps _ _ (keeps v seen).1, ih v (keeps v seen).2⟩

theorem Keeps.bind {m : Run P α} {k : α → Run P β} {w : World P} {post' : Except Interrupt β → World P → Prop}
    (first : Keeps see guar post m w) (then_ : ∀ a v, post (.ok a) v → Keeps see guar post' (k a) v)
    (stopped : ∀ e v, post (.error e) v → post' (.error e) v) : Keeps see guar post' (m >>= k) w := by
  induction m generalizing w with
  | done a => exact then_ a w (first w rfl)
  | stop e =>
    intro v seen
    exact stopped e v (first v seen)
  | act change next ih =>
    intro v seen
    exact ⟨(first v seen).1, ih v (first v seen).2⟩

/-- A run that returns, and what comes after it. -/
theorem Keeps.returned {m : Run P α} {k : α → Run P β} {w : World P} {inv : α → World P → Prop}
    {post' : Except Interrupt β → World P → Prop} (first : Keeps see guar (Returned inv) m w)
    (then_ : ∀ a v, inv a v → Keeps see guar post' (k a) v) : Keeps see guar post' (m >>= k) w :=
  first.bind then_ fun _ _ never => never.elim

theorem Keeps.returned_mono {m : Run P α} {w : World P} {inv : α → World P → Prop}
    (keeps : Keeps see guar (Returned inv) m w) (ending : ∀ a v, inv a v → post (.ok a) v) :
    Keeps see guar post m w := by
  refine keeps.mono (fun _ _ step => step) ?_
  rintro (e | a) v holds
  · exact holds.elim
  · exact ending a v holds

theorem Keeps.rescue {m : Run P α} {handle : Interrupt → Run P α} {w : World P}
    {post' : Except Interrupt α → World P → Prop} (first : Keeps see guar post m w)
    (finished : ∀ a v, post (.ok a) v → post' (.ok a) v)
    (handled : ∀ e v, post (.error e) v → Keeps see guar post' (handle e) v) :
    Keeps see guar post' (tryCatch m handle) w := by
  induction m generalizing w with
  | done a =>
    intro v seen
    exact finished a v (first v seen)
  | stop e => exact handled e w (first w rfl)
  | act change next ih =>
    intro v seen
    exact ⟨(first v seen).1, ih v (first v seen).2⟩

theorem Keeps.ensuring {m : Run P α} {last : World P → World P} {w : World P}
    {post' : Except Interrupt α → World P → Prop} (first : Keeps see guar post m w)
    (closed : ∀ r v, post r v → guar v (last v) ∧ ∀ u, see u = see (last v) → post' r u) :
    Keeps see guar post' (m.ensuring last) w := by
  induction m generalizing w with
  | done a =>
    intro v seen
    exact closed _ v (first v seen)
  | stop e =>
    intro v seen
    exact closed _ v (first v seen)
  | act change next ih =>
    intro v seen
    exact ⟨(first v seen).1, ih v (first v seen).2⟩

/-- One step that answers something, and what comes after it. -/
theorem Keeps.step {f : World P → α × World P} {k : α → Run P β} {w : World P}
    {post : Except Interrupt β → World P → Prop}
    (stepped : ∀ v, see v = see w → guar v (f v).2 ∧ (k (f v).1).Keeps see guar post (f v).2) :
    Keeps see guar post (modifyGet f >>= k) w :=
  stepped

/-! ### Values of runs -/

/-- All values with which the run can end have a property. -/
def Yields (holds : α → Prop) : Run P α → Prop
  | .done a => holds a
  | .stop _ => True
  | .act _ next => ∀ w, Yields holds (next w)

variable {holds : α → Prop}

theorem Yields.bind {m : Run P α} {k : α → Run P β} {gives : β → Prop} (first : m.Yields holds)
    (rest : ∀ a, holds a → (k a).Yields gives) : (m >>= k).Yields gives := by
  induction m with
  | done a => exact rest a first
  | stop e => trivial
  | act change next ih =>
    intro w
    exact ih w (first w)

theorem Yields.trivial (m : Run P α) : m.Yields fun _ => True := by
  induction m with
  | done a => exact True.intro
  | stop e => exact True.intro
  | act change next ih => exact ih

theorem Yields.mapM {γ : Type} {f : γ → Run P α} {items : List γ} (each : ∀ item ∈ items, (f item).Yields holds) :
    (items.mapM f).Yields fun as => ∀ a ∈ as, holds a := by
  induction items with
  | nil =>
    rw [List.mapM_nil]
    intro _ member
    exact absurd member List.not_mem_nil
  | cons item items ih =>
    rw [List.mapM_cons]
    refine (each item List.mem_cons_self).bind ?_
    intro a first
    refine (ih fun item member => each item (List.mem_cons_of_mem _ member)).bind ?_
    intro as rest
    exact List.forall_mem_cons.mpr ⟨first, rest⟩

theorem Yields.foldlM {γ : Type} {f : α → γ → Run P α} {items : List γ} {a : α} (first : holds a)
    (each : ∀ item ∈ items, ∀ a, holds a → (f a item).Yields holds) : (items.foldlM f a).Yields holds := by
  induction items generalizing a with
  | nil => exact first
  | cons item items ih =>
    rw [List.foldlM_cons]
    refine (each item List.mem_cons_self a first).bind ?_
    intro b next
    exact ih next fun item member => each item (List.mem_cons_of_mem _ member)

theorem Yields.run {m : Run P α} (yields : m.Yields holds) {w v : World P} {a : α} (executed : m.run w = .ok a v) :
    holds a := by
  induction m generalizing w with
  | done b =>
    cases executed
    exact yields
  | stop e => cases executed
  | act change next ih => exact ih w (yields w) executed

theorem Yields.rescue {m : Run P α} {handle : Interrupt → Run P α} (first : m.Yields holds)
    (handled : ∀ e, (handle e).Yields holds) : (tryCatch m handle).Yields holds := by
  induction m with
  | done a => exact first
  | stop e => exact handled e
  | act change next ih =>
    intro w
    exact ih w (first w)

theorem Yields.goes {m m' : Run P α} {see : World P → σ} {w v : World P} (yields : m.Yields holds)
    (goes : Goes see m w m' v) : m'.Yields holds := by
  induction goes with
  | rest _ => exact yields
  | @act _ _ _ _ v _ _ _ ih => exact ih (yields v)

/-- What comes after a run has to do only with values that it can end with. -/
theorem Yields.bind_congr {m : Run P α} {k k' : α → Run P β} (yields : m.Yields holds)
    (same : ∀ a, holds a → k a = k' a) : m >>= k = m >>= k' := by
  induction m with
  | done a => exact same a yields
  | stop e => rfl
  | act change next ih => exact congrArg (act change) (funext fun w => ih w (yields w))

end Run

section
variable [DecidableEq ι] {σ : ι → Type} {see : (i : ι) → World P → σ i} {guar : ι → World P → World P → Prop}
variable {post : ι → Except Interrupt Unit → World P → Prop}

theorem Pool.goes_of_step {p q : Pool P ι} (apart : ∀ i j v u, i ≠ j → guar i v u → see j u = see j v)
    (keeps : ∀ i, (p.strand i).Keeps (see i) (guar i) (post i) p.world) (step : p.Step q) :
    (∃ i, guar i p.world q.world) ∧ ∀ i, (p.strand i).Goes (see i) p.world (q.strand i) q.world := by
  cases step with
  | @act i change next ready =>
    have own := keeps i
    rw [ready] at own
    have allowed := (own p.world rfl).1
    refine ⟨⟨i, allowed⟩, ?_⟩
    intro j
    by_cases same : j = i
    · subst same
      rw [ready]
      have goes : Run.Goes (see j) (.act change next) p.world (next p.world) (change p.world) := .act rfl (.rest rfl)
      simpa using goes
    · simpa [same] using Run.Goes.rest (apart i j _ _ (Ne.symm same) allowed)

/-- If no strand changes what another one sees, then each strand of a pool goes on as it does by
    itself, and what all steps preserve is preserved. -/
theorem Pool.goes_of_reaches {p q : Pool P ι} (inv : World P → Prop)
    (apart : ∀ i j v u, i ≠ j → guar i v u → see j u = see j v)
    (preserved : ∀ i v u, guar i v u → inv v → inv u)
    (keeps : ∀ i, (p.strand i).Keeps (see i) (guar i) (post i) p.world) (start : inv p.world) (reached : p.Reaches q) :
    inv q.world ∧ ∀ i, (p.strand i).Goes (see i) p.world (q.strand i) q.world := by
  induction reached with
  | refl => exact ⟨start, fun i => .rest rfl⟩
  | tail _ step ih =>
    obtain ⟨holds, before⟩ := ih
    obtain ⟨⟨i, allowed⟩, goes⟩ := goes_of_step apart (fun i => (keeps i).goes (before i)) step
    constructor
    · exact preserved i _ _ allowed holds
    · intro j
      exact (before j).trans (goes j)

end

end FaultSnapshot
