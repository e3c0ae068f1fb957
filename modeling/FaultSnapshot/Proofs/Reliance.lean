import FaultSnapshot.Proofs.Interleaving

/-!
# Runs that rely on others

What others do between two steps of a run is a relation on worlds here: it may say what they leave
alone, and also how they change the rest. `Finishes` says how a run ends among them, and it can be
taken apart step by step; `Abides` says what each step of a run does and how the run ends, whatever
others do.
-/

namespace FaultSnapshot

variable {P : Program} {α β σ : Type}

namespace Run

variable {rely : World P → World P → Prop}

/-- The run `m`, begun in `w`, has `m'` still to do in `v`, and others did what `rely` allows. -/
inductive Among (rely : World P → World P → Prop) : Run P α → World P → Run P α → World P → Prop
  | rest {m : Run P α} {w v : World P} (relied : rely w v) : Among rely m w m v
  | act {change : World P → World P} {next : World P → Run P α} {m' : Run P α} {w v u : World P} (relied : rely w v)
      (later : Among rely (next v) (change v) m' u) : Among rely (.act change next) w m' u

/-- The run `m`, begun in `w`, ends with `r` in `v`. -/
def Finishes (rely : World P → World P → Prop) (m : Run P α) (w : World P) (r : Except Interrupt α) (v : World P) :
    Prop :=
  Among rely m w (endWith r) v

theorem goes_iff_among {see : World P → σ} {m m' : Run P α} {w v : World P} :
    Goes see m w m' v ↔ Among (fun w v => see v = see w) m w m' v := by
  constructor
  · intro goes
    induction goes with
    | rest seen => exact .rest seen
    | act seen _ ih => exact .act seen ih
  · intro among
    induction among with
    | rest seen => exact .rest seen
    | act seen _ ih => exact .act seen ih

theorem Among.mono {rely' : World P → World P → Prop} {m m' : Run P α} {w v : World P} (among : Among rely m w m' v)
    (allowed : ∀ w v, rely w v → rely' w v) : Among rely' m w m' v := by
  induction among with
  | rest relied => exact .rest (allowed _ _ relied)
  | act relied _ ih => exact .act (allowed _ _ relied) ih

namespace Finishes

variable {m : Run P α} {w v : World P} {r : Except Interrupt α}

/-- What others are relied on not to change is what the run sees. -/
theorem ends {see : World P → σ} (finishes : Finishes rely m w r v) (unseen : ∀ w v, rely w v → see v = see w) :
    Ends see m w r v :=
  goes_iff_among.mpr (finishes.mono unseen)

theorem of_done {a : α} (finishes : Finishes rely (.done a) w r v) : r = .ok a ∧ rely w v := by
  cases r with
  | ok b =>
    cases finishes with
    | rest relied => exact ⟨rfl, relied⟩
  | error e => exact nomatch finishes

theorem of_stop {e : Interrupt} (finishes : Finishes rely (.stop e : Run P α) w r v) : r = .error e ∧ rely w v := by
  cases r with
  | ok b => exact nomatch finishes
  | error e =>
    cases finishes with
    | rest relied => exact ⟨rfl, relied⟩

theorem of_act {change : World P → World P} {next : World P → Run P α}
    (finishes : Finishes rely (.act change next) w r v) :
    ∃ x, rely w x ∧ Finishes rely (next x) (change x) r v := by
  cases r <;> cases finishes with
  | act relied later => exact ⟨_, relied, later⟩

/-- One step that answers something. -/
theorem of_step {f : World P → β × World P} {k : β → Run P α} (finishes : Finishes rely (modifyGet f >>= k) w r v) :
    ∃ x, rely w x ∧ Finishes rely (k (f x).1) (f x).2 r v :=
  of_act finishes

/-- A look at the whole world. -/
theorem of_get {k : World P → Run P α} (finishes : Finishes rely (get >>= k) w r v) :
    ∃ x, rely w x ∧ Finishes rely (k x) x r v :=
  of_act finishes

/-- A look at something in the world. -/
theorem of_read {g : World P → β} {k : β → Run P α} (finishes : Finishes rely ((do return g (← get)) >>= k) w r v) :
    ∃ x, rely w x ∧ Finishes rely (k (g x)) x r v :=
  of_act finishes

/-- A run that nothing comes in between is one way for it to end. -/
theorem of_run_error (refl : ∀ w, rely w w) {e : Interrupt} (executed : m.run w = .error e v) :
    Finishes rely m w (.error e) v := by
  induction m generalizing w with
  | done b => cases executed
  | stop e =>
    cases executed
    exact .rest (refl _)
  | act change next ih => exact .act (refl w) (ih w executed)

/-- A run with something after it ends as its first part does, or as the rest does after that. -/
theorem of_bind (refl : ∀ w, rely w w) {m : Run P β} {k : β → Run P α} (finishes : Finishes rely (m >>= k) w r v) :
    (∃ a u, Finishes rely m w (.ok a) u ∧ Finishes rely (k a) u r v) ∨
      ∃ e, r = .error e ∧ Finishes rely m w (.error e) v := by
  induction m generalizing w with
  | done a => exact .inl ⟨a, w, .rest (refl w), finishes⟩
  | stop e =>
    obtain ⟨same, relied⟩ := of_stop finishes
    exact .inr ⟨e, same, .rest relied⟩
  | act change next ih =>
    obtain ⟨x, relied, later⟩ := of_act finishes
    obtain ⟨a, u, first, rest⟩ | ⟨e, same, first⟩ := ih x later
    · exact .inl ⟨a, u, .act relied first, rest⟩
    · exact .inr ⟨e, same, .act relied first⟩

theorem of_ensuring {last : World P → World P} (finishes : Finishes rely (m.ensuring last) w r v) :
    ∃ x, Finishes rely m w r x ∧ rely (last x) v := by
  induction m generalizing w with
  | done a =>
    obtain ⟨x, relied, later⟩ := of_act finishes
    obtain ⟨rfl, relied'⟩ := of_done later
    exact ⟨x, .rest relied, relied'⟩
  | stop e =>
    obtain ⟨x, relied, later⟩ := of_act finishes
    obtain ⟨rfl, relied'⟩ := of_stop later
    exact ⟨x, .rest relied, relied'⟩
  | act change next ih =>
    obtain ⟨x, relied, later⟩ := of_act finishes
    obtain ⟨u, first, relied'⟩ := ih x later
    exact ⟨u, .act relied first, relied'⟩

end Finishes

theorem Ends.of_bind {see : World P → σ} {m : Run P α} {k : α → Run P β} {w v : World P} {r : Except Interrupt β}
    (ends : Ends see (m >>= k) w r v) :
    (∃ a u, Ends see m w (.ok a) u ∧ Ends see (k a) u r v) ∨ ∃ e, r = .error e ∧ Ends see m w (.error e) v := by
  let rely (w v : World P) : Prop := see v = see w
  have refl : ∀ w, rely w w := fun _ => rfl
  have finishes : Finishes rely (m >>= k) w r v := goes_iff_among.mp ends
  obtain ⟨a, u, first, rest⟩ | ⟨e, same, first⟩ := finishes.of_bind refl
  · exact .inl ⟨a, u, goes_iff_among.mpr first, goes_iff_among.mpr rest⟩
  · exact .inr ⟨e, same, goes_iff_among.mpr first⟩

/-- Each step of the run, from one world to the next, is one that `guar` allows, and the run ends as
    `post` says; both whatever others do of what `rely` allows. -/
def Abides (rely guar : World P → World P → Prop) (post : Except Interrupt α → World P → Prop) :
    Run P α → World P → Prop
  | .done a, w => ∀ v, rely w v → post (.ok a) v
  | .stop e, w => ∀ v, rely w v → post (.error e) v
  | .act change next, w => ∀ v, rely w v → guar v (change v) ∧ Abides rely guar post (next v) (change v)

/-- What is kept for one who sees something is kept where others are relied on not to change it. -/
theorem keeps_iff_abides {see : World P → σ} {guar : World P → World P → Prop}
    {post : Except Interrupt α → World P → Prop} {m : Run P α} {w : World P} :
    m.Keeps see guar post w ↔ m.Abides (fun w v => see v = see w) guar post w := by
  induction m generalizing w with
  | done a => exact Iff.rfl
  | stop e => exact Iff.rfl
  | act change next ih =>
    refine forall_congr' fun v => imp_congr_right fun _ => ?_
    exact and_congr_right fun _ => ih v

namespace Abides

variable {guar : World P → World P → Prop} {post : Except Interrupt α → World P → Prop} {m : Run P α} {w v : World P}

theorem congr (trans : ∀ {x y z}, rely x y → rely y z → rely x z) (abides : m.Abides rely guar post w)
    (relied : rely w v) : m.Abides rely guar post v := by
  cases m with
  | done a =>
    intro u relied'
    exact abides u (trans relied relied')
  | stop e =>
    intro u relied'
    exact abides u (trans relied relied')
  | act change next =>
    intro u relied'
    exact abides u (trans relied relied')

theorem finishes {r : Except Interrupt α} (abides : m.Abides rely guar post w) (finishes : m.Finishes rely w r v) :
    post r v := by
  induction m generalizing w with
  | done a =>
    obtain ⟨rfl, relied⟩ := finishes.of_done
    exact abides v relied
  | stop e =>
    obtain ⟨rfl, relied⟩ := finishes.of_stop
    exact abides v relied
  | act change next ih =>
    obtain ⟨x, relied, later⟩ := finishes.of_act
    exact ih x (abides x relied).2 later

theorem bind {k : α → Run P β} {post' : Except Interrupt β → World P → Prop} (refl : ∀ w, rely w w)
    (first : m.Abides rely guar post w) (then_ : ∀ a v, post (.ok a) v → (k a).Abides rely guar post' v)
    (stopped : ∀ e v, post (.error e) v → post' (.error e) v) : (m >>= k).Abides rely guar post' w := by
  induction m generalizing w with
  | done a => exact then_ a w (first w (refl w))
  | stop e =>
    intro v relied
    exact stopped e v (first v relied)
  | act change next ih =>
    intro v relied
    exact ⟨(first v relied).1, ih v (first v relied).2⟩

theorem mono {guar' : World P → World P → Prop} {post' : Except Interrupt α → World P → Prop}
    (abides : m.Abides rely guar post w) (steps : ∀ v u, guar v u → guar' v u)
    (ending : ∀ r v, post r v → post' r v) : m.Abides rely guar' post' w := by
  induction m generalizing w with
  | done a =>
    intro v relied
    exact ending _ v (abides v relied)
  | stop e =>
    intro v relied
    exact ending _ v (abides v relied)
  | act change next ih =>
    intro v relied
    exact ⟨steps _ _ (abides v relied).1, ih v (abides v relied).2⟩

theorem rescue {handle : Interrupt → Run P α} {post' : Except Interrupt α → World P → Prop} (refl : ∀ w, rely w w)
    (first : m.Abides rely guar post w) (finished : ∀ a v, post (.ok a) v → post' (.ok a) v)
    (handled : ∀ e v, post (.error e) v → (handle e).Abides rely guar post' v) :
    (tryCatch m handle).Abides rely guar post' w := by
  induction m generalizing w with
  | done a =>
    intro v relied
    exact finished a v (first v relied)
  | stop e => exact handled e w (first w (refl w))
  | act change next ih =>
    intro v relied
    exact ⟨(first v relied).1, ih v (first v relied).2⟩

theorem ensuring {last : World P → World P} {post' : Except Interrupt α → World P → Prop}
    (first : m.Abides rely guar post w)
    (closed : ∀ r v, post r v → guar v (last v) ∧ ∀ u, rely (last v) u → post' r u) :
    (m.ensuring last).Abides rely guar post' w := by
  induction m generalizing w with
  | done a =>
    intro v relied
    exact closed _ v (first v relied)
  | stop e =>
    intro v relied
    exact closed _ v (first v relied)
  | act change next ih =>
    intro v relied
    exact ⟨(first v relied).1, ih v (first v relied).2⟩

/-- Where nothing comes in between, the run returns as it does among others. -/
theorem run {inv : α → World P → Prop} (refl : ∀ w, rely w w) (abides : m.Abides rely guar (Returned inv) w) :
    ∃ a v, m.run w = .ok a v ∧ inv a v := by
  induction m generalizing w with
  | done a => exact ⟨a, w, rfl, abides w (refl w)⟩
  | stop e => exact (abides w (refl w)).elim
  | act change next ih => exact ih w (abides w (refl w)).2

/-- Where others do nothing, it is enough to know the run that nothing comes in between. -/
theorem of_run {a : α} {v : World P} (executed : m.run w = .ok a v) (ended : post (.ok a) v) :
    m.Abides Eq (fun _ _ => True) post w := by
  induction m generalizing w with
  | done b =>
    rintro u rfl
    cases executed
    exact ended
  | stop e => cases executed
  | act change next ih =>
    rintro u rfl
    exact ⟨trivial, ih w executed⟩

/-- What neither the steps of a run nor those of others break holds in the end if it held before. -/
theorem framed {inv : World P → Prop} (abides : m.Abides rely guar post w) (holds : inv w)
    (others : ∀ v u, inv v → rely v u → inv u) (own : ∀ v u, inv v → guar v u → inv u) :
    m.Abides rely guar (fun r v => post r v ∧ inv v) w := by
  induction m generalizing w with
  | done a =>
    intro v relied
    exact ⟨abides v relied, others w v holds relied⟩
  | stop e =>
    intro v relied
    exact ⟨abides v relied, others w v holds relied⟩
  | act change next ih =>
    intro v relied
    obtain ⟨allowed, later⟩ := abides v relied
    exact ⟨allowed, ih v later (own v _ (others w v holds relied) allowed)⟩

end Abides

end Run

/-- If each strand does only what all others rely on, then every strand keeps to what is known of it,
    and what all steps preserve is preserved. -/
theorem Pool.abides_of_reaches {ι : Type} [DecidableEq ι] {rely guar : ι → World P → World P → Prop}
    {post : ι → Except Interrupt Unit → World P → Prop} {p q : Pool P ι} (inv : World P → Prop)
    (refl : ∀ i w, rely i w w) (trans : ∀ i {x y z}, rely i x y → rely i y z → rely i x z)
    (apart : ∀ i j v u, i ≠ j → guar i v u → rely j v u) (preserved : ∀ i v u, guar i v u → inv v → inv u)
    (abides : ∀ i, (p.strand i).Abides (rely i) (guar i) (post i) p.world) (holds : inv p.world)
    (reached : p.Reaches q) : inv q.world ∧ ∀ i, (q.strand i).Abides (rely i) (guar i) (post i) q.world := by
  induction reached with
  | refl => exact ⟨holds, abides⟩
  | @tail b _ _ step ih =>
    obtain ⟨holds, before⟩ := ih
    cases step with
    | @act j change next ready =>
      have acting := before j
      rw [ready] at acting
      obtain ⟨allowed, later⟩ := acting b.world (refl j b.world)
      refine ⟨preserved j _ _ allowed holds, ?_⟩
      intro i
      by_cases same : i = j
      · subst same
        simpa using later
      · have relied : rely i b.world (change b.world) := apart j i _ _ (Ne.symm same) allowed
        have kept : (b.strand i).Abides (rely i) (guar i) (post i) (change b.world) := (before i).congr (trans i) relied
        simpa [same] using kept

end FaultSnapshot
