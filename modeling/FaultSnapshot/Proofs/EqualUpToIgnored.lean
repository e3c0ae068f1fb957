import FaultSnapshot.Proofs.Conduct
import FaultSnapshot.Proofs.Interleaving

/-!
# Runs that are equal but for ignored calls

A run is equal to another one, up to ignored calls, if it takes the same steps and between them only
such that change nothing but log entries on ignored calls. `Pool.eqUpToIgnored_of_reaches` carries this
over from strands to pools.
-/

namespace FaultSnapshot

variable {P : Program} {α β : Type} {σ : Type}

/-- The worlds differ at most in log entries on ignored calls. -/
def World.EqUpToIgnored (w v : World P) : Prop := v.heard = w.heard

theorem World.EqUpToIgnored.refl (w : World P) : w.EqUpToIgnored w := rfl

theorem World.EqUpToIgnored.symm {w v : World P} (alike : w.EqUpToIgnored v) : v.EqUpToIgnored w := Eq.symm alike

theorem World.EqUpToIgnored.trans {w v u : World P} (first : w.EqUpToIgnored v) (later : v.EqUpToIgnored u) :
    w.EqUpToIgnored u :=
  Eq.trans later first

/-- A deaf step keeps worlds alike. -/
theorem Deaf.eqUpToIgnored {change : World P → World P} (deaf : Deaf change) {w v : World P}
    (alike : w.EqUpToIgnored v) : (change w).EqUpToIgnored (change v) := by
  show (change v).heard = (change w).heard
  rw [deaf v, deaf w, alike]

namespace Run

/-- The run `m'` does what `m` does from `w` on, in a world that is alike, and leaves out only steps
    that change no more than log entries on ignored calls. Other strands change whatever `see` does
    not show. -/
inductive EqUpToIgnored (see : World P → σ) : Run P α → Run P α → World P → Prop
  | done {a : α} {w : World P} : EqUpToIgnored see (.done a) (.done a) w
  | stop {e : Interrupt} {w : World P} : EqUpToIgnored see (.stop e) (.stop e) w
  | both {change change' : World P → World P} {next next' : World P → Run P α} {w : World P}
      (alike : ∀ v v', see v = see w → v.EqUpToIgnored v' → (change v).EqUpToIgnored (change' v'))
      (later : ∀ v v', see v = see w → v.EqUpToIgnored v' → EqUpToIgnored see (next v) (next' v') (change v)) :
      EqUpToIgnored see (.act change next) (.act change' next') w
  | left {change : World P → World P} {next : World P → Run P α} {m' : Run P α} {w : World P}
      (alike : ∀ v, see v = see w → v.EqUpToIgnored (change v))
      (later : ∀ v, see v = see w → EqUpToIgnored see (next v) m' (change v)) :
      EqUpToIgnored see (.act change next) m' w

def ended (r : Except Interrupt α) (w : World P) : EStateM.Result Interrupt (World P) α :=
  match r with
  | .ok a => .ok a w
  | .error e => .error e w

namespace EqUpToIgnored

variable {see : World P → σ} {guar : World P → World P → Prop} {post : Except Interrupt α → World P → Prop}

/-- What a strand does not see may change before it goes on. -/
theorem congr {m m' : Run P α} {w v : World P} (equal : EqUpToIgnored see m m' w) (seen : see v = see w) :
    EqUpToIgnored see m m' v := by
  cases equal with
  | done => exact .done
  | stop => exact .stop
  | both alike later =>
    exact .both (fun u u' same => alike u u' (same.trans seen)) fun u u' same => later u u' (same.trans seen)
  | left alike later =>
    exact .left (fun u same => alike u (same.trans seen)) fun u same => later u (same.trans seen)

theorem bind {m m' : Run P α} {k k' : α → Run P β} {w : World P} (first : EqUpToIgnored see m m' w)
    (keeps : m.Keeps see guar post w) (then_ : ∀ a v, post (.ok a) v → EqUpToIgnored see (k a) (k' a) v) :
    EqUpToIgnored see (m >>= k) (m' >>= k') w := by
  induction first with
  | done => exact then_ _ _ (keeps _ rfl)
  | stop => exact .stop
  | both alike _ ih => exact .both alike fun v v' seen same => ih v v' seen same (keeps v seen).2
  | left alike _ ih => exact .left alike fun v seen => ih v seen (keeps v seen).2

theorem rescue {m m' : Run P α} {handle handle' : Interrupt → Run P α} {w : World P} (first : EqUpToIgnored see m m' w)
    (keeps : m.Keeps see guar post w)
    (handled : ∀ e v, post (.error e) v → EqUpToIgnored see (handle e) (handle' e) v) :
    EqUpToIgnored see (tryCatch m handle) (tryCatch m' handle') w := by
  induction first with
  | done => exact .done
  | stop => exact handled _ _ (keeps _ rfl)
  | both alike _ ih => exact .both alike fun v v' seen same => ih v v' seen same (keeps v seen).2
  | left alike _ ih => exact .left alike fun v seen => ih v seen (keeps v seen).2

theorem ensuring {m m' : Run P α} {last : World P → World P} {w : World P} (first : EqUpToIgnored see m m' w)
    (deaf : Deaf last) : EqUpToIgnored see (m.ensuring last) (m'.ensuring last) w := by
  induction first with
  | done => exact .both (fun _ _ _ => deaf.eqUpToIgnored) fun _ _ _ _ => .done
  | stop => exact .both (fun _ _ _ => deaf.eqUpToIgnored) fun _ _ _ _ => .stop
  | both alike _ ih => exact .both alike ih
  | left alike _ ih => exact .left alike ih

/-- Runs are over together. -/
theorem eq_endWith {r : Except Interrupt α} {m' : Run P α} {w : World P} (equal : EqUpToIgnored see (endWith r) m' w) :
    m' = endWith r := by
  cases r with
  | ok a => cases equal with | done => rfl
  | error e => cases equal with | stop => rfl

/-- Both runs take the same step with an answer. -/
theorem step {f : World P → α × World P} {k k' : α → Run P β} {w : World P} (deaf : Deaf fun v => (f v).2)
    (unheard : ∀ v, (f v).1 = (f v.heard).1)
    (later : ∀ v, see v = see w → EqUpToIgnored see (k (f v).1) (k' (f v).1) (f v).2) :
    EqUpToIgnored see (modifyGet f >>= k) (modifyGet f >>= k') w := by
  refine .both (fun _ _ _ => deaf.eqUpToIgnored) ?_
  intro v v' seen alike
  have same : (f v').1 = (f v).1 := by rw [unheard v', unheard v, alike]
  show EqUpToIgnored see (k (f v).1) (k' (f v').1) (f v).2
  rw [same]
  exact later v seen

/-- Both runs look at the world. -/
theorem read {g : World P → α} {k k' : α → Run P β} {w : World P} (unheard : ∀ v, g v = g v.heard)
    (later : ∀ v, see v = see w → EqUpToIgnored see (k (g v)) (k' (g v)) v) :
    EqUpToIgnored see ((do return g (← get)) >>= k) ((do return g (← get)) >>= k') w :=
  step (f := fun v => (g v, v)) .id unheard later

/-- A run that may be left out has no effect. -/
theorem keeps_of_done {m : Run P α} {a : α} {w : World P} (equal : EqUpToIgnored see m (.done a) w) :
    m.Keeps see World.EqUpToIgnored (fun r _ => r = .ok a) w := by
  generalize ready : Run.done a = m' at equal
  induction equal with
  | done =>
    intro _ _
    exact by rw [Run.done.inj ready]
  | stop => cases ready
  | both => cases ready
  | left alike _ ih =>
    intro v seen
    exact ⟨alike v seen, ih v seen ready⟩

/-- If nothing else comes in between, both runs end in the same way. -/
theorem run {m m' : Run P α} {w w' : World P} (equal : EqUpToIgnored see m m' w) (alike : w.EqUpToIgnored w') :
    ∃ r v v', v.EqUpToIgnored v' ∧ m.run w = ended r v ∧ m'.run w' = ended r v' := by
  induction equal generalizing w' with
  | @done a w => exact ⟨.ok a, w, w', alike, rfl, rfl⟩
  | @stop e w => exact ⟨.error e, w, w', alike, rfl, rfl⟩
  | both like _ ih => exact ih _ _ rfl alike (like _ _ rfl alike)
  | left like _ ih => exact ih _ rfl ((like _ rfl).symm.trans alike)

end EqUpToIgnored

end Run

/-! ## Pools -/

section
variable {ι : Type} [DecidableEq ι] {σ : ι → Type} {see : (i : ι) → World P → σ i}
variable {guar : ι → World P → World P → Prop} {post : ι → Except Interrupt Unit → World P → Prop}

/-- Each strand of `p'` does what that of `p` does, in a world that is alike. -/
def Pool.EqUpToIgnored (see : (i : ι) → World P → σ i) (p p' : Pool P ι) : Prop :=
  p.world.EqUpToIgnored p'.world ∧ ∀ i, Run.EqUpToIgnored (see i) (p.strand i) (p'.strand i) p.world

theorem Pool.eqUpToIgnored_of_step {p p' q : Pool P ι} (apart : ∀ i j v u, i ≠ j → guar i v u → see j u = see j v)
    (keeps : ∀ i, (p.strand i).Keeps (see i) (guar i) (post i) p.world) (equal : EqUpToIgnored see p p')
    (step : p.Step q) : ∃ q', p'.Reaches q' ∧ EqUpToIgnored see q q' := by
  cases step with
  | @act i change next ready =>
    have allowed := keeps i
    rw [ready] at allowed
    have unseen : ∀ j, i ≠ j → see j (change p.world) = see j p.world := by
      intro j ne
      exact apart i j _ _ ne (allowed p.world rfl).1
    obtain ⟨alike, equal⟩ := equal
    have own := equal i
    rw [ready] at own
    generalize ready' : p'.strand i = m' at own
    cases own with
    | @both _ change' _ next' _ like later =>
      refine ⟨_, .single (.act ready'), like _ _ rfl alike, ?_⟩
      intro j
      by_cases same : j = i
      · subst same
        simpa using later _ _ rfl alike
      · simpa [same] using (equal j).congr (unseen j (Ne.symm same))
    | left like later =>
      refine ⟨p', .refl _, (like _ rfl).symm.trans alike, ?_⟩
      intro j
      by_cases same : j = i
      · subst same
        simpa [ready'] using later _ rfl
      · simpa [same] using (equal j).congr (unseen j (Ne.symm same))

/-- A pool can always be followed by one that is equal to it up to ignored calls. -/
theorem Pool.eqUpToIgnored_of_reaches {p p' q : Pool P ι} (apart : ∀ i j v u, i ≠ j → guar i v u → see j u = see j v)
    (keeps : ∀ i, (p.strand i).Keeps (see i) (guar i) (post i) p.world) (equal : EqUpToIgnored see p p')
    (reached : p.Reaches q) : ∃ q', p'.Reaches q' ∧ EqUpToIgnored see q q' := by
  have goes := fun {q} (reached : p.Reaches q) =>
    (goes_of_reaches (fun _ => True) apart (fun _ _ _ _ _ => trivial) keeps trivial reached).2
  induction reached with
  | refl => exact ⟨p', .refl _, equal⟩
  | tail before step ih =>
    obtain ⟨r', reaches, equal⟩ := ih
    obtain ⟨q', later, equal⟩ := eqUpToIgnored_of_step apart (fun i => (keeps i).goes (goes before i)) equal step
    exact ⟨q', reaches.trans later, equal⟩

end

end FaultSnapshot
