import FaultSnapshot.Proofs.Documents
import FaultSnapshot.Proofs.Histories
import FaultSnapshot.Proofs.Renderings

/-!
# What reports say

The text of a report is read back as the document of its trigger and of the frames that the calls of
hooks have left, with the last value of each variable; the text format is the layout of this very
document (`Tracer.Lived.reports`).
-/

namespace FaultSnapshot

variable {P : Program} {Code α β σ : Type}

/-! ## What is to be said -/

namespace Activation

/-- The last value of each variable, rendered, in the order of the first writes. -/
def rendered (records : Array SharedRecord) (a : Activation Code) : List (String × String) :=
  a.names.filterMap fun name => (a.last? name).map fun value => (name, value.shown records)

theorem rendered_eq (records : Array SharedRecord) (a : Activation Code) :
    a.rendered records = a.picture.vars.map fun e => (e.1, e.2.shown records) := by
  simp [rendered, picture, seen, List.map_filterMap, Option.map_map, Function.comp_def]

theorem names_rendered (records : Array SharedRecord) (a : Activation Code) :
    (a.rendered records).map Prod.fst = a.names := by
  rw [rendered_eq, List.map_map]
  exact names_seen fun _ => mem_names.mp

def document (records : Array SharedRecord) (a : Activation Code) : FrameDocument where
  owner := a.owner.map (·.shown records)
  method := a.method
  vars := ⟨a.rendered records, a.names_rendered records ▸ a.nodup_names⟩

end Activation

theorem eq_map_of_rel {f : α → β} {r : α → β → Prop} {a : Option α} {b : Option β} (tells : ∀ a b, r a b → b = f a)
    (rel : Option.Rel r a b) : b = a.map f := by
  cases rel with
  | some holds => exact congrArg some (tells _ _ holds)
  | none => rfl

theorem eq_map_of_forall₂ {f : α → β} {r : α → β → Prop} {as : List α} {bs : List β} (tells : ∀ a b, r a b → b = f a)
    (each : List.Forall₂ r as bs) : bs = as.map f := by
  induction each with
  | nil => rfl
  | cons holds _ ih => rw [List.map_cons, tells _ _ holds, ih]

/-- While the shared records stay as they are, a document shows the last values. -/
theorem Activation.document_of_shown {records : Array SharedRecord} (a : Activation Code) (f : FrameDocument)
    (shown : a.picture.ShownAs (· = records) f) : f = a.document records := by
  obtain ⟨owner, method, vars⟩ := f
  obtain ⟨owned, rfl, each⟩ := shown
  have owners : owner = a.owner.map (·.shown records) := by
    refine eq_map_of_rel ?_ owned
    rintro o s ⟨_, rfl, same⟩
    exact same
  have entries : vars.entries = a.rendered records := by
    rw [rendered_eq]
    refine eq_map_of_forall₂ ?_ each
    rintro v e ⟨name, _, rfl, value⟩
    exact Prod.ext name value
  rw [owners, document]
  exact congrArg _ (OrderedMap.ext entries)

/-! ## Runs with a known value -/

/-- In a world of which `s` is seen, the run ends with `a`, and `s` is seen still. -/
def Run.Gives (see : World P → σ) (s : σ) (m : Run P α) (a : α) : Prop :=
  ∀ w, see w = s → m.Keeps see (fun _ _ => True) (fun r v => r = .ok a ∧ see v = s) w

/-- The run comes to an end, and whatever others change in between that `see` does not show, it has then
    returned something with the property. -/
def Run.Answers (see : World P → σ) (m : Run P α) (w : World P) (post : α → Prop) : Prop :=
  (∃ r v, m.Ends see w r v) ∧ ∀ r v, m.Ends see w r v → ∃ a, r = .ok a ∧ post a

theorem Run.Gives.retains {see : World P → σ} {s : σ} {m : Run P α} {a : α} (gives : m.Gives see s a) :
    m.Retains (fun w v => see v = see w) (see · = s) (· = a) := by
  intro w same
  refine (keeps_iff_abides.mp (gives w same)).mono (fun _ _ step => step) ?_
  rintro _ v ⟨rfl, same⟩
  exact ⟨rfl, same⟩

theorem Run.Retains.answers {see : World P → σ} {m : Run P α} {w : World P} {post : α → Prop}
    (retains : m.Retains (fun w v => see v = see w) (see · = see w) post) : m.Answers see w post := by
  refine ⟨Run.exists_ends see m w, ?_⟩
  intro r v ends
  have ended := (retains w rfl).finishes (goes_iff_among.mp ends)
  cases r with
  | error e => exact ended.elim
  | ok a => exact ⟨a, rfl, ended.1⟩

theorem Run.Answers.mono {see : World P → σ} {m : Run P α} {w : World P} {post post' : α → Prop}
    (answers : m.Answers see w post) (weaker : ∀ a, post a → post' a) : m.Answers see w post' := by
  obtain ⟨some, all⟩ := answers
  refine ⟨some, ?_⟩
  intro r v ends
  obtain ⟨a, ok, holds⟩ := all r v ends
  exact ⟨a, ok, weaker a holds⟩

/-! ## Scenes -/

namespace Tracer

/-- What a report of the tracer is written of: the open frames, the cells of their variables, and the
    shared records. It also depends on whether the tracer builds a report. -/
def scene (t : Tracer P) (thread : Thread) (w : World P) :
    List (View P.Code) × (CellId → Option (Cell P.Code)) × Array SharedRecord × Bool :=
  (w.memory.views (t.tracker.id, thread),
    fun cell => if cell ∈ w.memory.openCells (t.tracker.id, thread) then w.memory.cells[cell]? else none,
    w.memory.records, (w.reportingOf t.name thread).processing)

variable {t : Tracer P} {thread : Thread} {v w : World P}

theorem views_of_scene (same : t.scene thread w = t.scene thread v) :
    w.memory.views (t.tracker.id, thread) = v.memory.views (t.tracker.id, thread) :=
  congrArg Prod.fst same

theorem records_of_scene (same : t.scene thread w = t.scene thread v) : w.memory.records = v.memory.records :=
  congrArg (fun scene => scene.2.2.1) same

theorem cell_of_scene (same : t.scene thread w = t.scene thread v) {cell : CellId}
    (member : cell ∈ v.memory.openCells (t.tracker.id, thread)) : w.memory.cells[cell]? = v.memory.cells[cell]? := by
  have cells := congrFun (congrArg (fun scene => scene.2.1) same) cell
  have member' : cell ∈ w.memory.openCells (t.tracker.id, thread) := by
    rwa [Memory.openCells_eq, views_of_scene same, ← Memory.openCells_eq]
  simpa only [scene, member, member', if_true] using cells

end Tracer

/-- Where the code returns and leaves the scene alone, the frames are those of `v` all the time. -/
theorem Tracer.framesKept_of_scene {t : Tracer P} {exec : Exec P} {site : Site} {v : World P}
    (code : ∀ c, (exec site c).Gives (t.scene site.thread) (t.scene site.thread v) ())
    (sound : v.memory.Sound (t.tracker.id, site.thread)) :
    FramesKept (fun w u => t.scene site.thread u = t.scene site.thread w)
      (t.scene site.thread · = t.scene site.thread v) exec site (t.tracker.id, site.thread) v.memory
      (· = v.memory.records) where
  refl _ := rfl
  kept before relied := relied.trans before
  code c := (code c).retains.mono fun _ _ => trivial
  sound := sound
  views _ same := views_of_scene same
  cells _ same _ member := cell_of_scene same member
  records _ same := records_of_scene same

/-- What shows all open frames is their document. -/
theorem documents_of_shown {m : Memory Code} {key : TrackerId × Thread} {frames : List (Activation Code)}
    {records : Array SharedRecord} {shown : List FrameDocument} (shows : m.Shows key frames)
    (each : List.Forall₂ (Picture.ShownAs (· = records)) (m.pictures key) shown) :
    shown = frames.map (Activation.document records) := by
  rw [shows.pictures, List.forall₂_map_left_iff] at each
  exact eq_map_of_forall₂ Activation.document_of_shown each

namespace Sample

/-- The code logs something. -/
def noting : Exec program := fun _ _ => Run.log .info .sink [] "inspected"

theorem respects_noting : tracer.Respects noting "main" := by
  intro site c frames on
  refine .act Tracer.Displays.seen ?_ fun _ => .done Tracer.Displays.seen ()
  exact fun w displays => ⟨displays.shows, displays.processing⟩

theorem gives_noting (c : program.Code) (s : _) : (noting site c).Gives (tracer.scene "main") s () :=
  fun _ same _ seen => ⟨trivial, fun _ later => ⟨rfl, later.trans (seen.trans same)⟩⟩

/-- A method is entered, writes a new variable and its parameter again, and reports an error. -/
def hooks : List (Hook program) :=
  [.entering (some ⟨0, .text "shop"⟩) "pay" [("order", ⟨1, .text "A-17"⟩)],
    .valueChange "step" ⟨2, .data .size (.integer 1)⟩, .valueChange "order" ⟨3, .hooked () "B-18"⟩,
    .onError "pay" error]

theorem lived_hooks : ∃ w, tracer.Lived noting "main" hooks w := by
  have begun : tracer.Lived noting "main" [] start := Tracer.Lived.start (P := program) ⟨0, 0⟩ start.stamp ()
  have entered := begun.alone site rfl hooks[0] rfl
  have stepped := entered.alone site rfl hooks[1] rfl
  have written := stepped.alone site rfl hooks[2] rfl
  have failed := written.alone site rfl hooks[3] rfl
  exact ⟨_, failed⟩

/-- A trigger of the tracer. -/
def late : Trigger := ⟨start.stamp 1, .own "tracer", .timeout 5 8⟩

end Sample

end FaultSnapshot
