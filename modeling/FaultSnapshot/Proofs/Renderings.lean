import FaultSnapshot.Proofs.Blocks
import FaultSnapshot.Proofs.Reliance
import FaultSnapshot.Proofs.Reports
import Mathlib.Data.List.Forall2

/-!
# What the text of a report shows

All serializers lay out the document of the trigger and of the open frames (`Serializer.write_eq`).
While it is made, others go on, and the code of inspected objects runs. If these leave the open
frames alone, the document shows them: each owner and each variable as it is rendered, shared
records with what they held when they were reached (`Serializer.write_tells`).
-/

namespace FaultSnapshot

variable {P : Program} {Code α β : Type}

/-! ## Texts and documents -/

/-- The document of a trigger and of frames: an error has a text and no times, a timeout has both
    times and no text. -/
def Trigger.documentOf (t : Trigger) (frames : List FrameDocument) : Document :=
  match t.cause with
  | .error e => ⟨.error, t.stamp.id, t.stamp.time, some e.error.text, none, none, frames⟩
  | .timeout thresholdMs actualMs =>
    ⟨.timeout, t.stamp.id, t.stamp.time, none, some thresholdMs, some actualMs, frames⟩

def Serializer.textOf : Serializer → Document → String
  | text => Document.layout
  | json => Document.compact
  | prettyJson => Document.pretty

def FrameDocument.block (f : FrameDocument) : Block := ⟨f.owner.getD noOwner, f.method, f.vars.entries⟩

section
variable {exec : Exec P} {site : Site}

theorem Trigger.document_eq (t : Trigger) : t.document exec site = (do
    let frames ← (← t.views site.thread).mapM (View.document exec site)
    return t.documentOf frames) := by
  unfold document documentOf
  cases t.cause <;> rfl

theorem Trigger.layout_documentOf (t : Trigger) (frames : List FrameDocument) :
    (t.documentOf frames).layout = reportText t.title (frames.map FrameDocument.block) := by
  have blocks : frames.map FrameDocument.layout = (frames.map FrameDocument.block).map Block.layout := by
    rw [List.map_map]
    rfl
  unfold documentOf title Document.layout Document.title reportText
  cases t.cause <;> rw [blocks] <;> rfl

/-- Rendering keeps the names of variables. -/
theorem View.rendered_yields (v : View P.Code) :
    (v.rendered exec site).Yields fun shown => shown.map Prod.fst = v.vars.entries.map Prod.fst := by
  unfold rendered
  induction v.vars.entries with
  | nil =>
    rw [List.mapM_nil]
    rfl
  | cons e rest ih =>
    have named : (do return (e.1, ← CellId.present (Object.render exec site) e.2) : Run P (String × String)).Yields
        (·.1 = e.1) := (Run.Yields.trivial _).bind fun value _ => (rfl : (e.1, value).1 = e.1)
    rw [List.mapM_cons]
    refine named.bind ?_
    intro first same
    refine ih.bind ?_
    intro shown names
    show (first :: shown).map Prod.fst = (e :: rest).map Prod.fst
    rw [List.map_cons, List.map_cons, same, names]

theorem View.block_eq (v : View P.Code) : v.block exec site = FrameDocument.block <$> v.document exec site := by
  simp only [block, document, map_bind, map_pure]
  refine congrArg _ (funext fun owner => ?_)
  refine v.rendered_yields.bind_congr ?_
  intro shown names
  have nodup : (shown.map Prod.fst).Nodup := names ▸ v.vars.nodup
  rw [FrameDocument.block, OrderedMap.entries_ofList nodup]

theorem mapM_view_block (views : List (View P.Code)) :
    views.mapM (View.block exec site) = List.map FrameDocument.block <$> views.mapM (View.document exec site) := by
  induction views with
  | nil => simp
  | cons v views ih => simp [ih, v.block_eq]

/-- All serializers lay out one document. -/
theorem Serializer.write_eq (s : Serializer) (t : Trigger) :
    s.write exec site t = s.textOf <$> t.document exec site := by
  cases s with
  | json => rfl
  | prettyJson => rfl
  | text =>
    rw [write_text_eq, Trigger.blocks, t.document_eq]
    simp only [map_bind, map_pure, mapM_view_block, textOf, t.layout_documentOf]
    simp

end

/-! ## What shows what -/

/-- How an object is rendered while the shared records are these: a text as it is, everything else in
    its inspected form. -/
def Object.shown (records : Array SharedRecord) (o : Object Code) : String :=
  match o.payload with
  | .text s => s
  | .literal s => s
  | .data _ d => d.inspect
  | .sharedRecord i => (records[i]?.map SharedRecord.inspect).getD ""
  | .hooked _ shown => shown

theorem Object.shown_still (records : Array SharedRecord) (o : Object Code) :
    o.still.shown records = o.shown records := by
  obtain ⟨identity, payload⟩ := o
  cases payload <;> rfl

/-- The text is what is rendered of the object while the shared records are some of the `known` ones. -/
def Object.ShownAs (known : Array SharedRecord → Prop) (o : Object Code) (s : String) : Prop :=
  ∃ records, known records ∧ s = o.shown records

/-- The frame of a document shows a picture: its owner where it has one, its method, and its variables in
    their order. -/
structure Picture.ShownAs (known : Array SharedRecord → Prop) (p : Picture Code) (f : FrameDocument) : Prop where
  owner : Option.Rel (Object.ShownAs known) p.owner f.owner
  method : f.method = p.method
  vars : List.Forall₂ (fun v e => e.1 = v.1 ∧ v.2.ShownAs known e.2) p.vars f.vars.entries

/-- The text tells of the trigger and of these frames. -/
def Serializer.Tells (known : Array SharedRecord → Prop) (s : Serializer) (trigger : Trigger)
    (frames : List (Picture Code)) (text : String) : Prop :=
  ∃ shown, List.Forall₂ (Picture.ShownAs known) frames shown ∧ text = s.textOf (trigger.documentOf shown)

variable {known : Array SharedRecord → Prop}

/-- Variables are shown under their names. -/
theorem names_of_shown {vars : List (String × Object Code)} {es : List (String × String)}
    (each : List.Forall₂ (fun v e => e.1 = v.1 ∧ v.2.ShownAs known e.2) vars es) :
    es.map Prod.fst = vars.map Prod.fst := by
  induction each with
  | nil => rfl
  | cons first _ ih => rw [List.map_cons, List.map_cons, first.1, ih]

theorem Object.shownAs_still {o : Object Code} {s : String} : o.still.ShownAs known s ↔ o.ShownAs known s := by
  simp only [ShownAs, o.shown_still]

theorem Picture.ShownAs.still {p : Picture Code} {f : FrameDocument} (shown : p.ShownAs known f) :
    p.still.ShownAs known f := by
  obtain ⟨owner, method, vars⟩ := p
  obtain ⟨owner', method', vars'⟩ := f
  obtain ⟨owned, named, each⟩ := shown
  refine ⟨?_, named, ?_⟩
  · cases owned with
    | some shows => exact .some (Object.shownAs_still.mpr shows)
    | none => exact .none
  · refine List.forall₂_map_left_iff.mpr (each.imp ?_)
    rintro v e ⟨same, shows⟩
    exact ⟨same, Object.shownAs_still.mpr shows⟩

theorem Serializer.Tells.still {s : Serializer} {trigger : Trigger} {frames : List (Picture Code)} {text : String}
    (tells : s.Tells known trigger frames text) : s.Tells known trigger (frames.map Picture.still) text := by
  obtain ⟨shown, each, same⟩ := tells
  exact ⟨shown, List.forall₂_map_left_iff.mpr (each.imp fun _ _ shows => shows.still), same⟩

/-! ## Runs that retain something -/

/-- Others, who do what `rely` allows, leave `inv` as it is. -/
structure Stable (rely : World P → World P → Prop) (inv : World P → Prop) : Prop where
  refl : ∀ w, rely w w
  kept : ∀ {w v}, inv w → rely w v → inv v

/-- If `inv` holds, the run returns something with the property, and `inv` holds again then. -/
def Run.Retains (rely : World P → World P → Prop) (inv : World P → Prop) (m : Run P α) (post : α → Prop) : Prop :=
  ∀ w, inv w → m.Abides rely (fun _ _ => True) (Returned fun a v => post a ∧ inv v) w

namespace Run.Retains

variable {rely : World P → World P → Prop} {inv : World P → Prop} {post : α → Prop} {post' : β → Prop}

theorem pure (stable : Stable rely inv) {a : α} (holds : post a) : (Pure.pure a : Run P α).Retains rely inv post :=
  fun _ before _ relied => ⟨holds, stable.kept before relied⟩

theorem bind (stable : Stable rely inv) {m : Run P α} {k : α → Run P β} (first : m.Retains rely inv post)
    (rest : ∀ a, post a → (k a).Retains rely inv post') : (m >>= k).Retains rely inv post' := by
  intro w before
  refine (first w before).bind stable.refl ?_ fun _ _ never => never.elim
  rintro a v ⟨holds, after⟩
  exact rest a holds v after

theorem mono {m : Run P α} {post' : α → Prop} (retains : m.Retains rely inv post) (weaker : ∀ a, post a → post' a) :
    m.Retains rely inv post' := by
  intro w before
  refine (retains w before).mono (fun _ _ step => step) ?_
  rintro (e | a) v ended
  · exact ended.elim
  · exact ⟨weaker a ended.1, ended.2⟩

/-- A step that keeps `inv`, and what comes after it. -/
theorem act (stable : Stable rely inv) {change : World P → World P} {next : World P → Run P α}
    (own : ∀ v, inv v → inv (change v)) (rest : ∀ v, inv v → (next v).Retains rely inv post) :
    (Run.act change next).Retains rely inv post := by
  intro w before v relied
  have here := stable.kept before relied
  exact ⟨trivial, rest v here _ (own v here)⟩

theorem map (stable : Stable rely inv) {m : Run P α} {f : α → β} (first : m.Retains rely inv post)
    (tells : ∀ a, post a → post' (f a)) : (do return f (← m) : Run P β).Retains rely inv post' :=
  first.bind stable fun a holds => pure stable (tells a holds)

/-- A look at something that is known of the world. -/
theorem read (stable : Stable rely inv) {g : World P → α} (tells : ∀ w, inv w → post (g w)) :
    (do return g (← get) : Run P α).Retains rely inv post :=
  act stable (fun _ here => here) fun v here => pure stable (tells v here)

theorem mapM (stable : Stable rely inv) {f : α → Run P β} {holds : α → β → Prop} {items : List α}
    (each : ∀ item ∈ items, (f item).Retains rely inv (holds item)) :
    (items.mapM f).Retains rely inv (List.Forall₂ holds items) := by
  induction items with
  | nil =>
    rw [List.mapM_nil]
    exact pure stable .nil
  | cons item items ih =>
    rw [List.mapM_cons]
    refine (each item List.mem_cons_self).bind stable fun b first => ?_
    refine (ih fun item member => each item (List.mem_cons_of_mem _ member)).bind stable fun bs rest => ?_
    exact pure stable (.cons first rest)

end Run.Retains

/-! ## Writing of frames that are left alone -/

/-- While `inv` holds, the open frames of `key` are those of `m`, and the shared records are some of the
    `known` ones. Neither others nor code that runs at `site` put an end to it. -/
structure FramesKept (rely : World P → World P → Prop) (inv : World P → Prop) (exec : Exec P) (site : Site)
    (key : TrackerId × Thread) (m : Memory P.Code) (known : Array SharedRecord → Prop) : Prop
    extends Stable rely inv where
  code : ∀ c, (exec site c).Retains rely inv fun _ => True
  sound : m.Sound key
  views : ∀ v, inv v → v.memory.views key = m.views key
  cells : ∀ v, inv v → ∀ cell ∈ m.openCells key, v.memory.cells[cell]? = m.cells[cell]?
  records : ∀ v, inv v → known v.memory.records

theorem Memory.openCells_eq (m : Memory Code) (key : TrackerId × Thread) :
    m.openCells key = (m.views key).flatMap fun view => view.vars.entries.map Prod.snd := by
  rw [Memory.views, List.flatMap_map]
  rfl

/-- Each variable of an open frame has a cell. -/
theorem Memory.Sound.held {m : Memory Code} {key : TrackerId × Thread} {view : View Code} (sound : m.Sound key)
    (member : view ∈ m.views key) :
    ∀ e ∈ view.vars.entries, e.2 ∈ m.openCells key ∧ ∃ c, m.cells[e.2]? = some c := by
  intro e inside
  have opened : e.2 ∈ m.openCells key := by
    rw [openCells_eq]
    exact List.mem_flatMap.mpr ⟨view, member, List.mem_map_of_mem inside⟩
  exact ⟨opened, _, Array.getElem?_eq_getElem (sound.valid e.2 opened)⟩

namespace FramesKept

variable {rely : World P → World P → Prop} {inv : World P → Prop} {exec : Exec P} {site : Site}
variable {key : TrackerId × Thread} {m : Memory P.Code} (kept : FramesKept rely inv exec site key m known)
include kept

theorem render (o : Object P.Code) : (o.render exec site).Retains rely inv (o.ShownAs known) := by
  have stable := kept.toStable
  -- All but shared records are rendered alike at any time.
  have always : ∀ s, (∀ records, s = o.shown records) →
      (Pure.pure s : Run P String).Retains rely inv (o.ShownAs known) :=
    fun s same w before v relied => ⟨⟨_, kept.records w before, same _⟩, stable.kept before relied⟩
  obtain ⟨identity, payload⟩ := o
  cases payload with
  | text s => exact always s fun _ => rfl
  | literal s => exact always s fun _ => rfl
  | data kind d => exact always d.inspect fun _ => rfl
  | sharedRecord i =>
    have found : (Run.readMemory fun m => m.records[i]? : Run P (Option SharedRecord)).Retains rely inv
        fun r => ∃ records, known records ∧ r = records[i]? :=
      .read stable fun w before => ⟨_, kept.records w before, rfl⟩
    refine found.map stable ?_
    rintro _ ⟨records, among, rfl⟩
    exact ⟨records, among, rfl⟩
  | hooked c shown => exact (kept.code c).bind stable fun _ _ => always shown fun _ => rfl

theorem owner (view : View P.Code) :
    (view.owner? exec site).Retains rely inv (Option.Rel (Object.ShownAs known) view.owner) := by
  unfold View.owner?
  cases view.owner with
  | none => exact .pure kept.toStable .none
  | some o => exact (kept.render o).map kept.toStable fun _ shows => .some shows

/-- A variable of an open frame shows what its cell holds. -/
theorem present {cell : CellId} {c : Cell P.Code} (member : cell ∈ m.openCells key) (held : m.cells[cell]? = some c) :
    (CellId.present (Object.render exec site) cell).Retains rely inv (c.content.ShownAs known) := by
  have found : (Run.readMemory (·.cells[cell]?) : Run P (Option (Cell P.Code))).Retains rely inv (· = some c) :=
    .read kept.toStable fun w before => (kept.cells w before cell member).trans held
  refine found.bind kept.toStable ?_
  rintro _ rfl
  exact kept.render c.content

theorem rendered {vars : List (String × CellId)}
    (held : ∀ e ∈ vars, e.2 ∈ m.openCells key ∧ ∃ c, m.cells[e.2]? = some c) :
    (vars.mapM fun e => return (e.1, ← CellId.present (Object.render exec site) e.2) :
        Run P (List (String × String))).Retains rely inv
      (List.Forall₂ (fun v e => e.1 = v.1 ∧ v.2.ShownAs known e.2) (contents m.cells vars)) := by
  induction vars with
  | nil =>
    rw [List.mapM_nil]
    exact .pure kept.toStable .nil
  | cons e vars ih =>
    obtain ⟨member, c, cell⟩ := held e List.mem_cons_self
    have first : (do return (e.1, ← CellId.present (Object.render exec site) e.2) : Run P (String × String)).Retains rely
        inv fun shown => shown.1 = e.1 ∧ c.content.ShownAs known shown.2 :=
      (kept.present member cell).map kept.toStable fun _ shows => ⟨rfl, shows⟩
    rw [List.mapM_cons, contents_cons_some cell]
    refine first.bind kept.toStable fun shown shows => ?_
    refine (ih fun e member => held e (List.mem_cons_of_mem _ member)).bind kept.toStable fun rest each => ?_
    exact .pure kept.toStable (.cons shows each)


theorem document {view : View P.Code} (member : view ∈ m.views key) :
    (view.document exec site).Retains rely inv ((m.picture view).ShownAs known) := by
  refine (kept.owner view).bind kept.toStable fun owner owned => ?_
  refine (kept.rendered (kept.sound.held member)).map kept.toStable fun shown each => ⟨owned, rfl, ?_⟩
  rw [OrderedMap.entries_ofList (names_of_shown each ▸ nodup_contents view.vars.nodup)]
  exact each

end FramesKept

section
variable {rely : World P → World P → Prop} {inv : World P → Prop} {exec : Exec P} {site : Site} {m : Memory P.Code}
variable {trigger : Trigger} (kept : FramesKept rely inv exec site (trigger.tracker, site.thread) m known)
include kept

theorem Trigger.document_shows :
    (trigger.document exec site).Retains rely inv fun d =>
      ∃ shown, List.Forall₂ (Picture.ShownAs known) (m.pictures (trigger.tracker, site.thread)) shown ∧
        d = trigger.documentOf shown := by
  have views : (trigger.views site.thread : Run P (List (View P.Code))).Retains rely inv
      (· = m.views (trigger.tracker, site.thread)) := .read kept.toStable kept.views
  rw [document_eq]
  refine views.bind kept.toStable ?_
  rintro _ rfl
  refine (Run.Retains.mapM kept.toStable fun view member => kept.document member).map kept.toStable fun shown each => ?_
  exact ⟨shown, List.forall₂_map_left_iff.mpr each, rfl⟩

/-- Whatever others do, the text tells of the trigger and of the frames that are open all the time. -/
theorem Serializer.write_tells (s : Serializer) :
    (s.write exec site trigger).Retains rely inv
      (s.Tells known trigger (m.pictures (trigger.tracker, site.thread))) := by
  rw [write_eq, map_eq_pure_bind]
  refine (Trigger.document_shows kept).map kept.toStable ?_
  rintro _ ⟨shown, each, rfl⟩
  exact ⟨shown, each, rfl⟩

end

/-- What comes of an admitted trigger is this, and the text, where one is written, tells of these frames. -/
structure Tracer.ReportShows (t : Tracer P) (thread : Thread) (trigger : Trigger) (frames : List (Picture Unit))
    (events : List Event) (r : Except Interrupt (Except Fault Unit)) : Prop where
  course : Course t.name thread trigger frames events r
  text : ∀ report, .written t.name thread (.ok report) ∈ events →
    t.serializer.Tells (fun _ => True) trigger frames report

end FaultSnapshot
