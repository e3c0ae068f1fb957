import FaultSnapshot.Proofs.Refusals

/-!
# Flat entries

A call may be entered with a flat list of names and values in turn. Everything that may be wrong with
the list is found before the frame is opened, so that a list that is refused leaves nothing behind; any
other list is entered as its pairs (`Pool.Reached.flat_entry`).
-/

namespace FaultSnapshot

variable {P : Program} {Code σ : Type}

/-- A flat list that does not give names and values in turn: its length is odd, or at an even position
    there is something that is no text, or an empty text. -/
def Misfit (params : List (Object Code)) : Prop :=
  params.length % 2 ≠ 0 ∨
    ∃ position name, position % 2 = 0 ∧ params[position]? = some name ∧
      (name.payload.text? = none ∨ name.payload.text? = some "")

theorem misfit_cons_cons {name value : Object Code} {rest : List (Object Code)} :
    Misfit (name :: value :: rest) ↔
      name.payload.text? = none ∨ name.payload.text? = some "" ∨ Misfit rest := by
  constructor
  · rintro (odd | ⟨position, other, even, found, bad⟩)
    · refine .inr (.inr (.inl ?_))
      simp only [List.length_cons] at odd
      omega
    · match position with
      | 0 =>
        cases found
        rcases bad with none | empty
        · exact .inl none
        · exact .inr (.inl empty)
      | 1 => simp at even
      | position + 2 =>
        refine .inr (.inr (.inr ⟨position, other, by omega, by simpa using found, bad⟩))
  · rintro (none | empty | odd | ⟨position, other, even, found, bad⟩)
    · exact .inr ⟨0, name, rfl, rfl, .inl none⟩
    · exact .inr ⟨0, name, rfl, rfl, .inr empty⟩
    · refine .inl ?_
      simp only [List.length_cons]
      omega
    · exact .inr ⟨position + 2, other, by omega, by simpa using found, bad⟩

/-- A list that fits gives named parameters. -/
theorem not_misfit_iff {params : List (Object Code)} :
    ¬ Misfit params ↔ ∃ pairs, flatPairs? params = some pairs ∧ ∀ p ∈ pairs, p.1 ≠ "" := by
  induction params using flatPairs?.induct with
  | case1 => simp [Misfit, flatPairs?]
  | case2 _ => simp [Misfit, flatPairs?]
  | case3 name value rest ih =>
    rw [misfit_cons_cons, not_or, not_or, ih, flatPairs?]
    cases text : name.payload.text? with
    | none => simp
    | some s =>
      cases later : flatPairs? rest with
      | none => simp
      | some pairs => simp [-Prod.forall]

namespace Tracer

variable {t : Tracer P} {thread : Thread} {site : Site} {frames : List (Activation P.Code)} {w v : World P}
variable {owner : Option (Object P.Code)} {method : String} {params : List (Object P.Code)}
variable {pairs : List (String × Object P.Code)}

theorem even_of_flatPairs? (fits : flatPairs? params = some pairs) : params.length % 2 = 0 := by
  by_contra odd
  rw [flatPairs?_odd odd] at fits
  cases fits

theorem pairUp_of_flatPairs? (fits : flatPairs? params = some pairs) : pairUp method 0 params = .ok pairs := by
  have paired := pairUp_even method (even_of_flatPairs? fits) 0
  rw [fits] at paired
  cases result : pairUp method 0 params with
  | ok pairs' =>
    rw [result] at paired
    exact congrArg _ (Option.some.inj paired)
  | error f => simp [result, Except.toOption] at paired

/-- A list of names and values is entered as its pairs, after a look at whether a report is built. -/
theorem enteringFlat_eq (fits : flatPairs? params = some pairs) :
    t.enteringFlat site owner method params = (do
      if ← t.isProcessing site.thread then return .ok ()
      t.entering site owner method pairs : Run P (Except Fault Unit)) := by
  simp [enteringFlat, even_of_flatPairs? fits, pairUp_of_flatPairs? fits]

theorem pairUp_error {position : Nat} {f : Fault} (refused : pairUp method position params = .error f) :
    ∃ reason, f = .invalidArgument reason := by
  induction params using flatPairs?.induct generalizing position with
  | case1 => cases refused
  | case2 _ => cases refused
  | case3 name value rest ih =>
    rw [pairUp] at refused
    cases text : name.payload.text? with
    | none =>
      rw [text] at refused
      cases refused
      exact ⟨_, rfl⟩
    | some s =>
      cases later : pairUp method (position + 2) rest with
      | ok pairs => simp [text, later, Except.map] at refused
      | error f' =>
        simp [text, later, Except.map] at refused
        exact ih (refused ▸ later)

section
variable {see : World P → σ} (known : ∀ u v, see u = see v → t.live site.thread u = t.live site.thread v)
variable (displays : t.Displays site.thread false frames w)
include known displays

/-- Parameters of which one has no name are refused, and nothing is changed. -/
theorem keeps_unnamed (unnamed : ¬ ∀ p ∈ pairs, p.1 ≠ "") :
    (t.entering site owner method pairs).Keeps see (fun v u => u = v)
      (Run.Returned fun r _ => ∃ reason, r = .error (.invalidArgument reason)) w := by
  have found : ∃ position, unnamedAt? pairs = some position := by
    rw [← Option.isSome_iff_exists, unnamedAt?, List.findIdx?_isSome]
    simpa using unnamed
  obtain ⟨position, found⟩ := found
  refine keeps_not_busy known displays (fun _ => rfl) fun v _ => ?_
  rw [found]
  exact fun u _ => ⟨_, rfl⟩

theorem keeps_misfit (misfit : Misfit params) :
    (t.enteringFlat site owner method params).Keeps see (fun v u => u = v)
      (Run.Returned fun r _ => ∃ reason, r = .error (.invalidArgument reason)) w := by
  refine keeps_not_busy known displays (fun _ => rfl) fun v displays => ?_
  by_cases even : params.length % 2 = 0
  · rw [if_neg (not_not_intro even)]
    cases paired : pairUp method 0 params with
    | error f =>
      obtain ⟨reason, rfl⟩ := pairUp_error paired
      exact fun u _ => ⟨reason, rfl⟩
    | ok pairs =>
      refine keeps_unnamed known displays fun named => ?_
      have fits := pairUp_even method even 0
      rw [paired] at fits
      exact not_misfit_iff.mpr ⟨pairs, fits.symm, named⟩ misfit
  · rw [if_pos even]
    exact fun u _ => ⟨_, rfl⟩

/-- While no report is built, a look at whether one is built makes no difference. -/
theorem ends_not_busy {r : Except Interrupt (Except Fault Unit)} {rest : Run P (Except Fault Unit)} :
    (do
      if ← t.isProcessing site.thread then return .ok ()
      rest : Run P (Except Fault Unit)).Ends see w r v ↔ rest.Ends see w r v := by
  let next (u : World P) : Run P (Except Fault Unit) :=
    if (u.reportingOf t.name site.thread).processing = true then return .ok () else rest
  have ready : ∀ u, see u = see w → next u = rest := by
    intro u same
    exact if_neg (by simp [(displays.later (known u w same)).processing])
  show Run.Ends see (.act id next) w r v ↔ _
  constructor
  · intro ends
    obtain ⟨u, same, later⟩ : ∃ u, see u = see w ∧ (next u).Ends see u r v := by
      cases r <;> cases ends with
      | act same later => exact ⟨_, same, later⟩
    rw [ready u same] at later
    exact (Run.Goes.rest same).trans later
  · intro ends
    rw [← ready w rfl] at ends
    exact .act rfl ends

/-- Named parameters are entered, and all that shows is one frame more that holds them. -/
theorem keeps_named (accepts : t.tracker.refusedMethods = [] ∧ t.tracker.refusedVariables = [])
    (named : ∀ p ∈ pairs, p.1 ≠ "") :
    (t.entering site owner method pairs).Keeps see (fun _ _ => True)
      (Run.Returned fun r v => r = .ok () ∧ t.Displays site.thread false (⟨owner, method, pairs⟩ :: frames) v) w := by
  have unnamed : unnamedAt? pairs = none := by simpa [unnamedAt?] using named
  have method_accepted : method ∉ t.tracker.refusedMethods := by simp [accepts.1]
  have params_accepted : ∀ p ∈ pairs, p.1 ∉ t.tracker.refusedVariables := by simp [accepts.2]
  refine keeps_not_busy known displays (fun _ => trivial) fun v displays => ?_
  rw [unnamed]
  refine Run.Keeps.finer known ((keeps_openFrame owner method_accepted displays).returned ?_)
  rintro r u ⟨rfl, displays⟩
  refine (keeps_parameters params_accepted named (List.cons_ne_nil _ _) displays).returned_mono ?_
  rintro r x ⟨rfl, displays⟩
  have entered := foldl_track owner method frames named
  exact ⟨rfl, entered ▸ displays⟩

theorem keeps_fit (accepts : t.tracker.refusedMethods = [] ∧ t.tracker.refusedVariables = [])
    (fits : flatPairs? params = some pairs) (named : ∀ p ∈ pairs, p.1 ≠ "") :
    (t.enteringFlat site owner method params).Keeps see (fun _ _ => True)
      (Run.Returned fun r v => r = .ok () ∧ t.Displays site.thread false (⟨owner, method, pairs⟩ :: frames) v) w := by
  rw [enteringFlat_eq fits]
  exact keeps_not_busy known displays (fun _ => trivial) fun v displays => keeps_named known displays accepts named

end

end Tracer

/-- While no report is built, a call is entered with a flat list. It is refused, with an error on the
    argument and with no step that changes anything, exactly if the list does not give names and values
    in turn. If it does, the entry ends just as one with these pairs does, whoever looks on and whatever
    others do meanwhile, and there is one frame more, of this call: its variables are the names of the
    list, each at the place where it comes first and with the value that comes with it last. -/
theorem Pool.Reached.flat_entry {ι : Type} [DecidableEq ι] {crew : List String} {place : Thread → ι} {q : Pool P ι}
    (reached : q.Reached crew place) {t : Tracer P}
    (accepts : t.tracker.refusedMethods = [] ∧ t.tracker.refusedVariables = []) {site : Site}
    (idle : (q.world.reportingOf t.name site.thread).processing = false) {see : World P → σ}
    (known : ∀ u v, see u = see v → t.live site.thread u = t.live site.thread v) (owner : Option (Object P.Code))
    (method : String) (params : List (Object P.Code)) :
    ((t.enteringFlat site owner method params).Keeps see (fun v u => u = v)
        (Run.Returned fun r _ => ∃ reason, r = .error (.invalidArgument reason)) q.world ↔ Misfit params) ∧
      (¬ Misfit params → ∃ pairs, flatPairs? params = some pairs ∧
        (∀ r v, (t.enteringFlat site owner method params).Ends see q.world r v ↔
          (t.entering site owner method pairs).Ends see q.world r v) ∧
        (t.enteringFlat site owner method params).Keeps see (fun _ _ => True)
          (Run.Returned fun r v => r = .ok () ∧ v.memory.pictures (t.tracker.id, site.thread) =
            (⟨owner, method, pairs⟩ : Activation P.Code).picture ::
              q.world.memory.pictures (t.tracker.id, site.thread)) q.world) := by
  obtain ⟨frames, shows⟩ := (reached.made.sound (t.tracker.id, site.thread)).shows
  have displays : t.Displays site.thread false frames q.world := ⟨shows, idle⟩
  constructor
  · constructor
    · intro refused
      by_contra fitting
      obtain ⟨pairs, fits, named⟩ := not_misfit_iff.mp fitting
      obtain ⟨r, v, ends⟩ := Run.exists_ends see (t.enteringFlat site owner method params) q.world
      have error := refused.ends ends
      have entered := (Tracer.keeps_fit known displays accepts fits named).ends ends
      cases r with
      | error e => exact error
      | ok r =>
        obtain ⟨reason, rfl⟩ := error
        cases entered.1
    · exact Tracer.keeps_misfit known displays
  · intro fitting
    obtain ⟨pairs, fits, named⟩ := not_misfit_iff.mp fitting
    refine ⟨pairs, fits, ?_, ?_⟩
    · intro r v
      rw [Tracer.enteringFlat_eq fits]
      exact Tracer.ends_not_busy known displays
    · refine (Tracer.keeps_fit known displays accepts fits named).returned_mono ?_
      rintro r v ⟨ok, entered⟩
      refine ⟨ok, ?_⟩
      rw [entered.shows.pictures, shows.pictures, List.map_cons]

namespace Sample

/-- Two names, one of them twice: as a literal and as a text. -/
def flatOrder : List (Object program.Code) :=
  [⟨0, .literal "user"⟩, ⟨1, .text "ada"⟩, ⟨2, .literal "order"⟩, ⟨3, .text "A-17"⟩, ⟨4, .text "user"⟩,
    ⟨5, .text "bob"⟩]

end Sample

open Sample in
/-- A name that comes twice keeps its first place and takes its last value. -/
theorem Pool.Reached.flat_entry_sample :
    ¬ Misfit flatOrder ∧ ∃ v, (tracer.enteringFlat site none "run" flatOrder).run start = .ok (.ok ()) v ∧
      v.memory.pictures (.own "tracer", "main") =
        [⟨none, "run", [("user", ⟨5, .text "bob"⟩), ("order", ⟨3, .text "A-17"⟩)]⟩] := by
  have reached : Pool.Reached (P := program) ["tracer"] (fun _ => ()) ⟨fun _ => pure (), start⟩ :=
    Pool.reached_start (P := program) ⟨0, 0⟩ start.stamp ()
  have fitting : ¬ Misfit flatOrder := not_misfit_iff.mpr ⟨_, rfl, by decide⟩
  have accepts : tracer.tracker.refusedMethods = [] ∧ tracer.tracker.refusedVariables = [] := ⟨rfl, rfl⟩
  have idle : (start.reportingOf tracer.name site.thread).processing = false := rfl
  have known : ∀ u v : World program, id u = id v → tracer.live site.thread u = tracer.live site.thread v :=
    fun _ _ same => congrArg (tracer.live site.thread) same
  obtain ⟨pairs, fits, _, keeps⟩ := (reached.flat_entry accepts idle known none "run" flatOrder).2 fitting
  obtain ⟨v, executed⟩ : ∃ v, (tracer.enteringFlat site none "run" flatOrder).run start = .ok (.ok ()) v := ⟨_, rfl⟩
  have entered := (keeps.ends (.of_run executed)).2
  cases fits
  exact ⟨fitting, v, executed, entered⟩

end FaultSnapshot
