import FaultSnapshot.Proofs.Alone
import FaultSnapshot.Proofs.EqualWorlds
import FaultSnapshot.Proofs.Renderings
import FaultSnapshot.Proofs.EqualUpToIgnored

/-!
# Runs on a thread among others, simulated by the same runs alone

A run on a thread is simulated by another one if, from worlds that are equal on the thread and
whatever others do to the first one meanwhile, both end in the same way in worlds that are equal there.
The rules for putting such runs together come first. Then they are used on everything that a hook
does, from the rendering of one object to a whole report (`Tracer.simulated_call`).
-/

namespace FaultSnapshot

variable {P : Program} {α β : Type}

/-- A step of a run on the thread: it spares all others. -/
structure Touches (thread : Thread) (w v : World P) : Prop where
  others : ∀ other ≠ thread, w.Spares other v
  lawful : w.memory.Made → v.memory.Made
  state : v.state = w.state

/-- A step that is not seen on any thread. -/
structure Unseen (change : World P → World P) : Prop where
  spares : ∀ (thread : Thread) (w : World P), w.Spares thread (change w)
  memory : ∀ w, (change w).memory = w.memory
  state : ∀ w, (change w).state = w.state

/-- What a run on a thread relies on, what it guarantees, and what holds all the time. The others spare
    its thread, and it may take steps that spare theirs. -/
structure RelyGuarantee (P : Program) where
  thread : Thread
  rely : World P → World P → Prop
  guar : World P → World P → Prop
  holds : World P → Prop
  refl : ∀ w, rely w w
  made : ∀ w, holds w → w.memory.Made
  others : ∀ w v, holds w → rely w v → w.Spares thread v ∧ holds v
  own : ∀ w v, holds w → Touches thread w v → guar w v ∧ holds v

theorem Touches.of_desks {thread : Thread} {w v : World P} (desks : ∀ other ≠ thread, v.desk other = w.desk other)
    (memory : v.memory = w.memory) (outputFull : v.outputFull = w.outputFull) (throttles : v.throttles = w.throttles)
    (state : v.state = w.state) : Touches thread w v where
  others other ne := .of_desk (desks other ne) memory outputFull throttles
  lawful made := memory ▸ made
  state := state

theorem Touches.trans {thread : Thread} {w v u : World P} (first : Touches thread w v) (later : Touches thread v u) :
    Touches thread w u where
  others other ne := (first.others other ne).trans (later.others other ne)
  lawful made := later.lawful (first.lawful made)
  state := later.state.trans first.state

theorem Touches.note {thread : Thread} {w : World P} {e : Event} (place : ∀ other ≠ thread, e.isOn other = false) :
    Touches thread w (w.note e) := by
  refine .of_desks ?_ rfl rfl rfl rfl
  intro other ne
  simp [World.desk_note, place other ne]

/-- A moment of a report on the thread is noted. -/
theorem Touches.note_place {thread : Thread} {w : World P} {e : Event} {tracer : String}
    (place : e.place? = some (tracer, thread)) : Touches thread w (w.note e) := by
  apply Touches.note
  intro other ne
  simp [Event.isOn, place, Ne.symm ne]

theorem Touches.setReporting (thread : Thread) (w : World P) (tracer : String) (r : Reporting) :
    Touches thread w (w.setReporting tracer thread r) :=
  .of_desks (fun _ ne => World.desk_setReporting_of_ne ne) rfl rfl rfl rfl

theorem Touches.ask (thread : Thread) (w : World P) (throttle : Option ThrottleId) :
    Touches thread w (w.ask throttle).2 where
  others other _ := .ask other w throttle
  lawful made := by cases throttle <;> exact made
  state := by cases throttle <;> rfl

/-- A step on the memory that is a call of the thread. -/
theorem Touches.of_works {thread : Thread} {w : World P} {tracker : TrackerId} {m : Memory P.Code}
    (works : Memory.Works (tracker, thread) w.memory m) (made : w.memory.Made → m.Made) :
    Touches thread w { w with memory := m } where
  others _ ne := ⟨rfl, works.spares (Ne.symm ne), rfl, id⟩
  lawful := made
  state := rfl

namespace Run

theorem run_tryCatch_error {m : Run P α} {handle : Interrupt → Run P α} {e : Interrupt} {w v : World P}
    (ended : m.run w = .error e v) : (tryCatch m handle : Run P α).run w = (handle e).run v := by
  induction m generalizing w with
  | done b => cases ended
  | stop e =>
    cases ended
    rfl
  | act change next ih => exact ih w ended

end Run

namespace RelyGuarantee

variable {c : RelyGuarantee P} {cells more : List CellId} {w v w' : World P} {related : α → α → Prop} {m m' : Run P α}

/-- The run on the thread is in the first world, among others, and the same run is in the second one,
    alone. -/
structure Related (c : RelyGuarantee P) (cells : List CellId) (w w' : World P) : Prop where
  equal : World.EqOn c.thread cells w w'
  holds : c.holds w

theorem Related.later (worlds : c.Related cells w w') (relied : c.rely w v) : c.Related cells v w' := by
  obtain ⟨spares, holds⟩ := c.others w v worlds.holds relied
  exact ⟨worlds.equal.later spares, holds⟩

/-- The run has ended with `r` in `v`, and `m'`, begun in `w'`, ends in the same way in a
    related world. -/
def EndsRelated (c : RelyGuarantee P) (cells : List CellId) (related : α → α → Prop) (m' : Run P α) (w' : World P)
    (r : Except Interrupt α) (v : World P) : Prop :=
  ∃ more r' v', cells <+: more ∧ m'.run w' = Run.ended r' v' ∧ c.Related more v v' ∧ Agree related r r'

/-- From related worlds, the run `m` among others and the run `m'` alone end in the same way in related
    worlds. `cells` are the cells that the runs are given to work with. -/
def Simulated (c : RelyGuarantee P) (cells : List CellId) (related : α → α → Prop) (m m' : Run P α) : Prop :=
  ∀ known w w', cells <+: known → c.Related known w w' → m.Abides c.rely c.guar (c.EndsRelated known related m' w') w

namespace Simulated

theorem mono (simulated : c.Simulated cells related m m') (longer : cells <+: more) : c.Simulated more related m m' :=
  fun known w w' further worlds => simulated known w w' (longer.trans further) worlds

theorem done {a a' : α} (both : related a a') : c.Simulated cells related (.done a) (.done a') := by
  intro known w w' _ worlds v relied
  exact ⟨known, .ok a', w', List.prefix_rfl, rfl, worlds.later relied, .ok both⟩

theorem stop (e : Interrupt) : c.Simulated cells related (.stop e) (.stop e) := by
  intro known w w' _ worlds v relied
  exact ⟨known, .error e, w', List.prefix_rfl, rfl, worlds.later relied, .error e⟩

theorem bind {related' : β → β → Prop} {k k' : α → Run P β} (first : c.Simulated cells related m m')
    (rest : ∀ a a', related a a' → c.Simulated cells related' (k a) (k' a')) :
    c.Simulated cells related' (m >>= k) (m' >>= k') := by
  intro known w w' longer worlds
  refine (first known w w' longer worlds).bind c.refl ?_ ?_
  · rintro a v ⟨more, r', v', further, executed, worlds, agree⟩
    cases agree with
    | @ok _ a' both =>
      refine (rest a a' both more v v' (longer.trans further) worlds).mono (fun _ _ step => step) ?_
      rintro r u ⟨most, r'', u', furthest, executed', worlds, agree⟩
      refine ⟨most, r'', u', further.trans furthest, ?_, worlds, agree⟩
      rw [Run.run_bind, executed]
      exact executed'
  · rintro e v ⟨more, r', v', further, executed, worlds, agree⟩
    cases agree with
    | error =>
      refine ⟨more, .error e, v', further, ?_, worlds, .error e⟩
      rw [Run.run_bind, executed]
      rfl

theorem rescue {handle handle' : Interrupt → Run P α} (first : c.Simulated cells related m m')
    (rest : ∀ e, c.Simulated cells related (handle e) (handle' e)) :
    c.Simulated cells related (tryCatch m handle) (tryCatch m' handle') := by
  intro known w w' longer worlds
  refine (first known w w' longer worlds).rescue c.refl ?_ ?_
  · rintro a v ⟨more, r', v', further, executed, worlds, agree⟩
    cases agree with
    | @ok _ a' both => exact ⟨more, .ok a', v', further, Run.run_tryCatch_ok executed, worlds, .ok both⟩
  · rintro e v ⟨more, r', v', further, executed, worlds, agree⟩
    cases agree with
    | error =>
      refine (rest e more v v' (longer.trans further) worlds).mono (fun _ _ step => step) ?_
      rintro r u ⟨most, r'', u', furthest, executed', worlds, agree⟩
      refine ⟨most, r'', u', further.trans furthest, ?_, worlds, agree⟩
      rw [Run.run_tryCatch_error executed]
      exact executed'

/-- Both runs take a step on the thread that keeps the worlds equal there, with some more cells. -/
theorem step {f f' : World P → β × World P} {k k' : β → Run P α}
    (touches : ∀ w, c.holds w → Touches c.thread w (f w).2)
    (rest : ∀ known w w', cells <+: known → c.Related known w w' → ∃ more, known <+: more ∧
      World.EqOn c.thread more (f w).2 (f' w').2 ∧ c.Simulated more related (k (f w).1) (k' (f' w').1)) :
    c.Simulated cells related (modifyGet f >>= k) (modifyGet f' >>= k') := by
  intro known w w' longer worlds v relied
  -- Others came first. The run alone takes its step from where it was.
  have now := worlds.later relied
  obtain ⟨allowed, holds⟩ := c.own v _ now.holds (touches v now.holds)
  obtain ⟨more, further, equal, simulated⟩ := rest known v w' longer now
  refine ⟨allowed, ?_⟩
  refine (simulated more _ _ List.prefix_rfl ⟨equal, holds⟩).mono (fun _ _ step => step) ?_
  rintro r u ⟨most, r', u', furthest, executed, worlds, agree⟩
  exact ⟨most, r', u', further.trans furthest, executed, worlds, agree⟩

/-- Both runs look at their worlds. -/
theorem look {k k' : World P → Run P α}
    (rest : ∀ known w w', cells <+: known → World.EqOn c.thread known w w' → c.Simulated known related (k w) (k' w')) :
    c.Simulated cells related (get >>= k) (get >>= k') := by
  intro known w w' longer worlds v relied
  have now := worlds.later relied
  have same : Touches c.thread v v := .of_desks (fun _ _ => rfl) rfl rfl rfl rfl
  obtain ⟨allowed, _⟩ := c.own v v now.holds same
  exact ⟨allowed, rest known v w' longer now.equal known v w' List.prefix_rfl now⟩

/-- Both runs look at something in their worlds. -/
theorem read {g g' : World P → β} {k k' : β → Run P α}
    (rest : ∀ known w w', cells <+: known → World.EqOn c.thread known w w' →
      c.Simulated known related (k (g w)) (k' (g' w'))) :
    c.Simulated cells related ((do return g (← get)) >>= k) ((do return g' (← get)) >>= k') :=
  look rest

/-- Both runs look at something that is the same in their worlds. -/
theorem readSame {g g' : World P → β} {k k' : β → Run P α}
    (same : ∀ known w w', World.EqOn c.thread known w w' → g w = g' w')
    (rest : ∀ b, c.Simulated cells related (k b) (k' b)) :
    c.Simulated cells related ((do return g (← get)) >>= k) ((do return g' (← get)) >>= k') := by
  refine read ?_
  intro known w w' longer equal
  rw [same known w w' equal]
  exact (rest _).mono longer

/-- Both runs take a step that is not seen on any thread. -/
theorem count {f f' : World P → β × World P} {k k' : β → Run P α} (unseen : Unseen fun w => (f w).2)
    (unseen' : Unseen fun w => (f' w).2) (rest : ∀ w w', c.Simulated cells related (k (f w).1) (k' (f' w').1)) :
    c.Simulated cells related (modifyGet f >>= k) (modifyGet f' >>= k') := by
  refine step ?_ ?_
  · intro w _
    exact ⟨fun other _ => unseen.spares other w, fun made => unseen.memory w ▸ made, unseen.state w⟩
  · intro known w w' longer worlds
    have equal := (worlds.equal.later (unseen.spares c.thread w)).beside (unseen'.memory w')
      (unseen'.spares c.thread w')
    exact ⟨known, List.prefix_rfl, equal, (rest w w').mono longer⟩

/-- Both runs note the same moment of a report on the thread. -/
theorem note {e e' : World P → Event} {k k' : Unit → Run P α} (tracer : String)
    (place : ∀ w, (e w).place? = some (tracer, c.thread))
    (like : ∀ known w w', World.EqOn c.thread known w w' → Event.EqUpToStamp (e w) (e' w'))
    (rest : c.Simulated cells related (k ()) (k' ())) :
    c.Simulated cells related ((modify fun w => w.note (e w) : Run P Unit) >>= k)
      ((modify fun w => w.note (e' w) : Run P Unit) >>= k') := by
  refine step (fun w _ => .note_place (place w)) ?_
  intro known w w' longer worlds
  have noted := worlds.equal.note (like known w w' worlds.equal) (by simp [Event.isOn, place w])
  exact ⟨known, List.prefix_rfl, noted, rest.mono longer⟩

/-- Both runs note something that is no part of a report. -/
theorem noteBeside {e e' : Event} {k k' : Unit → Run P α} (beside : e.place? = none) (beside' : e'.place? = none)
    (rest : c.Simulated cells related (k ()) (k' ())) :
    c.Simulated cells related (Run.note e >>= k) (Run.note e' >>= k') := by
  have unseen : ∀ e : Event, e.place? = none → Unseen (P := P) (·.note e) := by
    intro e beside
    refine ⟨fun thread w => .of_desk ?_ rfl rfl rfl, fun _ => rfl, fun _ => rfl⟩
    simp [World.desk_note, Event.isOn, beside]
  exact count (unseen e beside) (unseen e' beside') fun _ _ => rest

theorem ensuring {last last' : World P → World P} (first : c.Simulated cells related m m')
    (touches : ∀ w, c.holds w → Touches c.thread w (last w))
    (last_equal : ∀ known w w', World.EqOn c.thread known w w' → World.EqOn c.thread known (last w) (last' w')) :
    c.Simulated cells related (m.ensuring last) (m'.ensuring last') := by
  intro known w w' longer worlds
  refine (first known w w' longer worlds).ensuring ?_
  rintro r v ⟨more, r', v', further, executed, worlds, agree⟩
  obtain ⟨allowed, holds⟩ := c.own v _ worlds.holds (touches v worlds.holds)
  refine ⟨allowed, ?_⟩
  intro u relied
  have closed : c.Related more (last v) (last' v') := ⟨last_equal more v v' worlds.equal, holds⟩
  refine ⟨more, r', last' v', further, ?_, closed.later relied, agree⟩
  rw [Run.run_ensuring, executed]
  cases r' <;> rfl

/-- Runs for items, one after another. -/
theorem mapM {γ : Type} {paired : γ → γ → Prop} {f f' : γ → Run P α} {items items' : List γ}
    (both : List.Forall₂ paired items items')
    (each : ∀ item item', paired item item' → c.Simulated cells Eq (f item) (f' item')) :
    c.Simulated cells Eq (items.mapM f) (items'.mapM f') := by
  induction both with
  | nil =>
    rw [List.mapM_nil, List.mapM_nil]
    exact done rfl
  | cons first _ ih =>
    rw [List.mapM_cons, List.mapM_cons]
    refine (each _ _ first).bind ?_
    rintro a _ rfl
    refine ih.bind ?_
    rintro as _ rfl
    exact done rfl

/-- Both runs make the same call on the memory, on the thread. -/
theorem memory {f f' : Memory P.Code → α × Memory P.Code} (tracker : TrackerId)
    (works : ∀ m : Memory P.Code, m.Made → Memory.Works (tracker, c.thread) m (f m).2 ∧ (f m).2.Made)
    (call_equal : ∀ known m m', m.Made → Memory.EqOn c.thread known m m' → (f m).1 = (f' m').1 ∧
      ∃ more, known <+: more ∧ Memory.EqOn c.thread more (f m).2 (f' m').2) :
    c.Simulated cells Eq (Run.memory f) (Run.memory f') := by
  rw [← bind_pure (Run.memory f), ← bind_pure (Run.memory f')]
  refine step ?_ ?_
  · intro w holds
    exact .of_works (works w.memory (c.made w holds)).1 fun made => (works w.memory made).2
  · intro known w w' _ worlds
    obtain ⟨same, more, further, equal⟩ := call_equal known _ _ (c.made w worlds.holds) worlds.equal.memory
    exact ⟨more, further, worlds.equal.setMemory equal, done same⟩

end Simulated

/-- Code does the same in both runs, at sites on the thread. -/
structure SimulatedCode (c : RelyGuarantee P) (exec exec' : Exec P) (site site' : Site) : Prop where
  on : site.thread = c.thread
  on' : site'.thread = c.thread
  code : ∀ k, c.Simulated [] Eq (exec site k) (exec' site' k)

end RelyGuarantee

/-- The same frame, with paired cells. -/
structure View.EqUpToCells {Code : Type} (cells : List CellId) (v v' : View Code) : Prop where
  owner : v.owner = v'.owner
  method : v.method = v'.method
  vars : List.Forall₂ (Memory.Paired cells) v.vars.entries v'.vars.entries

theorem Memory.EqOn.views {Code : Type} {thread : Thread} {cells : List CellId} {m m' : Memory Code}
    (equal : Memory.EqOn thread cells m m') (tracker : TrackerId) :
    List.Forall₂ (View.EqUpToCells cells) (m.views (tracker, thread)) (m'.views (tracker, thread)) := by
  rw [Memory.views, Memory.views, List.forall₂_map_left_iff, List.forall₂_map_right_iff]
  refine (equal.frames tracker).imp ?_
  intro f f' same
  exact ⟨same.owner, by simp [Frame.view, same.method], same.vars⟩

/-! ## Steps of hooks -/

section
variable {c : RelyGuarantee P} {cells : List CellId} {related : β → β → Prop}

/-- The triggers that both runs make are alike. -/
theorem Run.simulated_newTrigger {k k' : Trigger → Run P β} (tracker : TrackerId) (cause : Cause)
    (rest : ∀ trigger trigger', Trigger.EqUpToStamp trigger trigger' →
      c.Simulated cells related (k trigger) (k' trigger')) :
    c.Simulated cells related (Run.newTrigger tracker cause >>= k) (Run.newTrigger tracker cause >>= k') := by
  have unseen : Unseen fun w : World P => { w with triggers := w.triggers + 1 } :=
    ⟨fun _ _ => .of_desk rfl rfl rfl rfl, fun _ => rfl, fun _ => rfl⟩
  refine .count unseen unseen ?_
  intro w w'
  exact rest _ _ ⟨rfl, rfl⟩

theorem Handler.simulated_deliver (h : Handler) {tracer : String} {kind : ReportKind} {report report' : String} :
    c.Simulated cells Eq (h.deliver tracer kind report) (h.deliver tracer kind report') := by
  cases h with
  | record => exact .noteBeside rfl rfl (.done rfl)
  | discard => exact .done rfl
  | print =>
    refine .look ?_
    intro known w w' _ equal
    rw [← equal.outputFull]
    cases w.outputFull with
    | true => exact .done rfl
    | false => exact .noteBeside rfl rfl (.done rfl)
  | log => exact .noteBeside rfl rfl (.done rfl)

variable {site site' : Site} (on : site.thread = c.thread) (on' : site'.thread = c.thread)
include on on'

theorem Tracer.simulated_isProcessing {t : Tracer P} {k k' : Bool → Run P β}
    (rest : ∀ b, c.Simulated cells related (k b) (k' b)) :
    c.Simulated cells related (t.isProcessing site.thread >>= k) (t.isProcessing site'.thread >>= k') := by
  rw [on, on']
  exact .readSame (fun _ _ _ equal => congrArg Reporting.processing (equal.known t.name)) rest

/-- Both runs look at the frames of a trigger. -/
theorem Trigger.simulated_views {t t' : Trigger} {k k' : List (View P.Code) → Run P β} (like : Trigger.EqUpToStamp t t')
    (rest : ∀ known views views', cells <+: known → List.Forall₂ (View.EqUpToCells known) views views' →
      c.Simulated known related (k views) (k' views')) :
    c.Simulated cells related (t.views site.thread >>= k) (t'.views site'.thread >>= k') := by
  rw [on, on']
  refine .read ?_
  intro known w w' longer equal
  rw [← like.tracker]
  exact rest known _ _ longer (equal.memory.views t.tracker)

end

theorem Tracer.touches_admits (t : Tracer P) (thread : Thread) (trigger : Trigger) (remembered : Option ErrorRef)
    (w : World P) :
    Touches thread w
      (let asked := (w.ask t.throttle).2.note (.asked t.name thread trigger (w.ask t.throttle).1)
       if (w.ask t.throttle).1 then asked.setReporting t.name thread ⟨true, remembered⟩ else asked) := by
  have asked : Touches thread w ((w.ask t.throttle).2.note (.asked t.name thread trigger (w.ask t.throttle).1)) :=
    (Touches.ask thread w t.throttle).trans (.note_place rfl)
  dsimp only
  split
  · exact asked.trans (.setReporting thread _ t.name _)
  · exact asked

theorem Tracer.touches_endReport (t : Tracer P) (thread : Thread) (w : World P) :
    Touches thread w (t.endReport thread w) :=
  (Touches.setReporting thread w t.name _).trans (.note_place rfl)

/-! ## Rendering and serializers -/

/-- The texts of documents that differ in their identifiers and times are texts of the same report. -/
theorem Serializer.sameReport_textOf (s : Serializer) {d d' : Document} (like : Document.EqUpToStamp d d') :
    SameReport (s.textOf d) (s.textOf d') := by
  cases s with
  | text =>
    -- The text shows neither of them.
    have same : d'.layout = d.layout := by rw [show d' = _ from like]; rfl
    show SameReport d.layout d'.layout
    rw [same]
    exact .text _
  | json => exact .compact like
  | prettyJson => exact .pretty like

section
variable {c : RelyGuarantee P} {cells : List CellId} {exec exec' : Exec P} {site site' : Site}

theorem RelyGuarantee.SimulatedCode.run (codes : c.SimulatedCode exec exec' site site') (k : P.Code) :
    c.Simulated cells Eq (exec site k) (exec' site' k) :=
  (codes.code k).mono List.nil_prefix

variable (codes : c.SimulatedCode exec exec' site site')
include codes

theorem Object.simulated_inspect (o : Object P.Code) :
    c.Simulated cells Eq (o.inspect exec site) (o.inspect exec' site') := by
  obtain ⟨identity, payload⟩ := o
  cases payload with
  | text s => exact .done rfl
  | literal s => exact .done rfl
  | data kind d => exact .done rfl
  | sharedRecord i =>
    refine .readSame ?_ fun _ => .done rfl
    intro known w w' equal
    exact congrArg (·[i]?) equal.memory.records
  | hooked code shown => exact (codes.run code).bind fun _ _ _ => .done rfl

theorem Object.simulated_render (o : Object P.Code) :
    c.Simulated cells Eq (o.render exec site) (o.render exec' site') := by
  unfold Object.render
  split
  · exact .done rfl
  · exact o.simulated_inspect codes

/-- Paired cells show the same. -/
theorem CellId.simulated_present {cell cell' : CellId} (place : cells[cell']? = some cell) :
    c.Simulated cells Eq (CellId.present (Object.render exec site) cell)
      (CellId.present (Object.render exec' site') cell') := by
  refine .read ?_
  intro known w w' longer equal
  have same := equal.memory.contents cell' cell (Memory.getElem?_of_prefix longer place)
  dsimp only
  rw [same]
  cases w'.memory.cells[cell']? with
  | none => exact .done rfl
  | some content => exact content.content.simulated_render codes

theorem View.simulated_owner {v v' : View P.Code} (equal : View.EqUpToCells cells v v') :
    c.Simulated cells Eq (v.owner? exec site) (v'.owner? exec' site') := by
  unfold View.owner?
  rw [← equal.owner]
  cases v.owner with
  | none => exact .done rfl
  | some o =>
    refine (o.simulated_render codes).bind ?_
    rintro owner _ rfl
    exact .done rfl

theorem View.simulated_rendered {v v' : View P.Code} (equal : View.EqUpToCells cells v v') :
    c.Simulated cells Eq (v.rendered exec site) (v'.rendered exec' site') := by
  refine .mapM equal.vars ?_
  rintro e e' ⟨name, place⟩
  refine (CellId.simulated_present codes place).bind ?_
  rintro value _ rfl
  exact .done (congrArg (·, value) name)

theorem View.simulated_document {v v' : View P.Code} (equal : View.EqUpToCells cells v v') :
    c.Simulated cells Eq (v.document exec site) (v'.document exec' site') := by
  refine (View.simulated_owner codes equal).bind ?_
  rintro owner _ rfl
  refine (View.simulated_rendered codes equal).bind ?_
  rintro vars _ rfl
  exact .done (by rw [equal.method])

theorem Trigger.simulated_document {t t' : Trigger} (like : Trigger.EqUpToStamp t t') :
    c.Simulated cells Document.EqUpToStamp (t.document exec site) (t'.document exec' site') := by
  refine simulated_views codes.on codes.on' like ?_
  intro known views views' _ both
  refine (RelyGuarantee.Simulated.mapM both fun v v' equal => View.simulated_document codes equal).bind ?_
  rintro frames _ rfl
  rw [← like.cause]
  cases t.cause with
  | error e => exact .done rfl
  | timeout threshold actual => exact .done rfl

theorem Serializer.simulated_write (s : Serializer) {t t' : Trigger} (like : Trigger.EqUpToStamp t t') :
    c.Simulated cells SameReport (s.write exec site t) (s.write exec' site' t') := by
  rw [s.write_eq, s.write_eq, map_eq_pure_bind, map_eq_pure_bind]
  exact (Trigger.simulated_document codes like).bind fun _ _ like => .done (s.sameReport_textOf like)

/-! ## Parts of tracers -/

/-- The parts of the tracer keep no state: what a call of them does has nothing to do with how many
    there were. -/
def Tracer.Stateless (t : Tracer P) : Prop := ∀ part n, t.turns part n = t.turns part 0

namespace Tracer

variable {t : Tracer P} (stateless : t.Stateless)
include stateless

theorem simulated_takeTurn (part : Part) :
    c.Simulated cells Eq (t.takeTurn exec site part) (t.takeTurn exec' site' part) := by
  have unseen : Unseen fun w : World P =>
      { w with turns := w.turns.insert (t.name, part) ((w.turns.get? (t.name, part)).getD 0 + 1) } :=
    ⟨fun _ _ => .of_desk rfl rfl rfl rfl, fun _ => rfl, fun _ => rfl⟩
  refine .count unseen unseen ?_
  intro w w'
  rw [stateless part, stateless part ((w'.turns.get? (t.name, part)).getD 0)]
  cases t.turns part 0 with
  | none => exact .done rfl
  | some turn => exact (codes.run turn.code).bind fun _ _ _ => .done rfl

theorem simulated_finishText {trigger trigger' : Trigger} (like : Trigger.EqUpToStamp trigger trigger') :
    c.Simulated cells (Agree SameReport) (t.finishText exec site trigger) (t.finishText exec' site' trigger') := by
  have written : ∀ result result' : Except Fault String, Agree SameReport result result' →
      c.Simulated cells (Agree SameReport)
        (do Run.note (.written t.name site.thread result)
            return result)
        (do Run.note (.written t.name site'.thread result')
            return result') := by
    intro result result' agree
    rw [codes.on, codes.on']
    exact .note t.name (fun _ => rfl) (fun _ _ _ _ => .written _ _ agree) (.done agree)
  refine (simulated_takeTurn codes stateless .serializer).bind ?_
  rintro turn _ rfl
  cases turn with
  | some f => exact written _ _ (.error f)
  | none => exact (t.serializer.simulated_write codes like).bind fun text text' same => written _ _ (.ok same)

theorem simulated_deliver {kind : ReportKind} {report report' : String} (same : SameReport report report') :
    c.Simulated cells Eq (t.deliver exec site kind report) (t.deliver exec' site' kind report') := by
  unfold deliver
  rw [codes.on, codes.on']
  refine .note t.name (fun _ => rfl) (fun _ _ _ _ => .delivering _ _ _ same) ?_
  refine (simulated_takeTurn codes stateless .handler).bind ?_
  rintro turn _ rfl
  cases turn with
  | some f => exact .done rfl
  | none => exact t.handler.simulated_deliver

theorem simulated_finishReport (method : String) {trigger trigger' : Trigger} (words : Wording)
    (like : Trigger.EqUpToStamp trigger trigger') :
    c.Simulated cells Eq (t.finishReport exec site method trigger words)
      (t.finishReport exec' site' method trigger' words) := by
  refine (simulated_finishText codes stateless like).bind ?_
  intro result result' agree
  cases agree with
  | error f => exact .noteBeside rfl rfl (.done rfl)
  | ok same =>
    simp only [handOver, like.kind]
    refine (simulated_deliver codes stateless same).bind ?_
    rintro delivered _ rfl
    cases delivered with
    | error f => exact .noteBeside rfl rfl (.done rfl)
    | ok => exact .done rfl

theorem simulated_build (method : String) {trigger trigger' : Trigger} (words : Wording)
    (like : Trigger.EqUpToStamp trigger trigger') :
    c.Simulated cells Eq (t.build exec site method trigger words) (t.build exec' site' method trigger' words) := by
  rw [build_eq, build_eq, codes.on, codes.on']
  refine .note t.name (fun _ => rfl) ?_ (simulated_finishReport codes stateless method words like)
  intro known w w' equal
  have frames : trigger.frames c.thread w = trigger'.frames c.thread w' := by
    rw [Trigger.frames, Trigger.frames, ← like.tracker, equal.memory.pictures]
  rw [frames]
  exact .writing _ _ like _

/-- Throttles let all triggers through, on all threads. -/
theorem simulated_offer (method : String) {trigger trigger' : Trigger} (remembered : Option ErrorRef) (words : Wording)
    (like : Trigger.EqUpToStamp trigger trigger') :
    c.Simulated cells Eq (t.offer exec site method trigger remembered words)
      (t.offer exec' site' method trigger' remembered words) := by
  have built : c.Simulated cells Eq (t.build exec site method trigger words)
      (t.build exec' site' method trigger' words) := simulated_build codes stateless method words like
  unfold offer
  rw [codes.on, codes.on']
  refine .step (fun w _ => t.touches_admits c.thread trigger remembered w) ?_
  intro known w w' longer worlds
  obtain ⟨admitted, _⟩ := worlds.equal.generous.ask t.throttle
  obtain ⟨admitted', _⟩ := worlds.equal.generous'.ask t.throttle
  have on : (Event.asked t.name c.thread trigger true).isOn c.thread = true := by simp [Event.isOn, Event.place?]
  have asked := (worlds.equal.ask t.throttle).note (.asked t.name c.thread like true) on
  refine ⟨known, List.prefix_rfl, ?_, ?_⟩
  · simp only [admitted, admitted', if_true]
    exact asked.setReporting t.name ⟨true, remembered⟩
  · simp only [admitted, admitted', if_true]
    refine (built.mono longer).ensuring (fun w _ => t.touches_endReport c.thread w) ?_
    intro known w w' equal
    have ended := equal.setReporting t.name { w.reportingOf t.name c.thread with processing := false }
    rw [endReport, endReport, ← equal.known t.name]
    exact ended.note (.ended t.name c.thread) (by simp [Event.isOn, Event.place?])

/-! ## Hooks -/

theorem simulated_onError (method : String) (e : ErrorRef) :
    c.Simulated cells Eq (t.onError exec site method e) (t.onError exec' site' method e) := by
  refine simulated_isProcessing codes.on codes.on' ?_
  intro processing
  split
  · exact .noteBeside rfl rfl (.done rfl)
  · rw [isPropagating, isPropagating, codes.on, codes.on']
    refine .readSame (fun _ _ _ equal => congrArg (·.remembered.any (·.same e)) (equal.known t.name)) ?_
    intro propagating
    split
    · exact .noteBeside rfl rfl (.done rfl)
    · refine Run.simulated_newTrigger _ _ ?_
      intro trigger trigger' like
      exact simulated_offer codes stateless method (some e) errorWording like

theorem simulated_timeout (method : String) (thresholdMs actualMs : UInt64) :
    c.Simulated cells Eq (t.timeout exec site method thresholdMs actualMs)
      (t.timeout exec' site' method thresholdMs actualMs) := by
  refine simulated_isProcessing codes.on codes.on' ?_
  intro processing
  split
  · exact .noteBeside rfl rfl (.done rfl)
  · refine Run.simulated_newTrigger _ _ ?_
    intro trigger trigger' like
    exact simulated_offer codes stateless method none timeoutWording like

end Tracer

end

section
variable {c : RelyGuarantee P} {cells : List CellId} {site site' : Site} (on : site.thread = c.thread)
  (on' : site'.thread = c.thread)
include on on'

theorem Tracker.simulated_openFrame (t : Tracker) (owner : Option (Object P.Code)) (method : String) :
    c.Simulated cells Eq (t.openFrame site.thread owner method) (t.openFrame site'.thread owner method) := by
  unfold Tracker.openFrame
  rw [on, on']
  split
  · exact .done rfl
  · refine .memory t.id (fun m made => ⟨.openFrame (made.sound _) owner method, made.openFrame _ _ _⟩) ?_
    intro known m m' _ equal
    obtain ⟨same, equal⟩ := equal.openFrame t.id owner method
    exact ⟨same, known, List.prefix_rfl, equal⟩

theorem Tracker.simulated_closeFrame (t : Tracker) :
    c.Simulated (P := P) cells Eq (t.closeFrame site.thread) (t.closeFrame site'.thread) := by
  unfold Tracker.closeFrame
  rw [on, on']
  refine .memory t.id (fun m made => ⟨.closeFrame (made.sound _), made.closeFrame _⟩) ?_
  intro known m m' _ equal
  obtain ⟨same, equal⟩ := equal.closeFrame t.id
  exact ⟨same, known, List.prefix_rfl, equal⟩

theorem Tracker.simulated_track (t : Tracker) (name : String) (value : Object P.Code) :
    c.Simulated cells Eq (t.track site.thread name value) (t.track site'.thread name value) := by
  unfold Tracker.track
  rw [on, on']
  split
  · exact .done rfl
  · refine .memory t.id (fun m made => ⟨.track (made.sound _) name value, made.track _ _ _⟩) ?_
    intro known m m' made equal
    exact equal.track made t.id name value

theorem Tracker.simulated_trackAll (t : Tracker) (params : List (String × Object P.Code)) :
    c.Simulated cells Eq (t.trackAll site.thread params) (t.trackAll site'.thread params) := by
  induction params with
  | nil => exact .done rfl
  | cons p rest ih =>
    refine (t.simulated_track on on' p.1 p.2).bind ?_
    rintro tracked _ rfl
    cases tracked with
    | ok => exact ih
    | error f => exact .done rfl

namespace Tracer

variable (t : Tracer P)

theorem simulated_entering (owner : Option (Object P.Code)) (method : String) (params : List (String × Object P.Code)) :
    c.Simulated cells Eq (t.entering site owner method params) (t.entering site' owner method params) := by
  refine simulated_isProcessing on on' ?_
  intro processing
  split
  · exact .done rfl
  · split
    · exact .done rfl
    · refine (t.tracker.simulated_openFrame on on' owner method).bind ?_
      rintro opened _ rfl
      cases opened with
      | ok => exact t.tracker.simulated_trackAll on on' params
      | error f => exact .done rfl

theorem simulated_enteringFlat (owner : Option (Object P.Code)) (method : String) (params : List (Object P.Code)) :
    c.Simulated cells Eq (t.enteringFlat site owner method params) (t.enteringFlat site' owner method params) := by
  refine simulated_isProcessing on on' ?_
  intro processing
  split
  · exact .done rfl
  · split
    · exact .done rfl
    · split
      · exact t.simulated_entering on on' owner method _
      · exact .done rfl

theorem simulated_exiting : c.Simulated cells Eq (t.exiting site) (t.exiting site') := by
  refine simulated_isProcessing on on' ?_
  intro processing
  split
  · exact .done rfl
  · exact t.tracker.simulated_closeFrame on on'

theorem simulated_valueChange (name : String) (value : Object P.Code) :
    c.Simulated cells Eq (t.valueChange site name value) (t.valueChange site' name value) := by
  refine simulated_isProcessing on on' ?_
  intro processing
  split
  · exact .done rfl
  · exact t.tracker.simulated_track on on' name value

end Tracer

end

/-- A hook does on a thread among others what it does there alone. -/
theorem Tracer.simulated_call {c : RelyGuarantee P} {cells : List CellId} {exec exec' : Exec P} {site site' : Site}
    {t : Tracer P} (codes : c.SimulatedCode exec exec' site site') (stateless : t.Stateless) (hook : Hook P) :
    c.Simulated cells Eq (t.call exec site hook) (t.call exec' site' hook) := by
  cases hook with
  | entering owner method params => exact t.simulated_entering codes.on codes.on' owner method params
  | enteringFlat owner method params => exact t.simulated_enteringFlat codes.on codes.on' owner method params
  | exiting => exact t.simulated_exiting codes.on codes.on'
  | valueChange name value => exact t.simulated_valueChange codes.on codes.on' name value
  | returning value => exact .done rfl
  | onError method e => exact simulated_onError codes stateless method e
  | timeout method thresholdMs actualMs => exact simulated_timeout codes stateless method thresholdMs actualMs

end FaultSnapshot
