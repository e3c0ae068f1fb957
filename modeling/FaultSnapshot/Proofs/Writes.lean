import FaultSnapshot.Proofs.Balance
import FaultSnapshot.Proofs.Propagation
import FaultSnapshot.Proofs.EqualMemories

/-!
# Where the writes of guards go

A guard hands its writes to the tracker, and the tracker writes to the innermost frame
(`Guard.OpenAt.writes_innermost`). That is the frame of the guard while nothing is open above it. What
a guard writes from below goes into the frame of another call (`Guard.writes_beside`).
-/

namespace FaultSnapshot

variable {P : Program}

/-- The frame after a write to one of its variables. -/
def Picture.write {Code : Type} (name : String) (value : Object Code) (p : Picture Code) : Picture Code :=
  { p with vars := OrderedMap.write name value p.vars }

theorem getElem?_reverse_cons {α : Type} (a : α) (as : List α) (i : Nat) :
    (a :: as).reverse[i]? = if i = as.length then some a else as.reverse[i]? := by
  rw [List.reverse_cons]
  by_cases last : i = as.length
  · rw [if_pos last, last, ← List.length_reverse, List.getElem?_concat_length]
  · rw [if_neg last, List.getElem?_append, List.length_reverse]
    split
    · rfl
    · rw [List.getElem?_eq_none (by simp; omega), List.getElem?_eq_none (by simp; omega)]

/-! ## Other stacks -/

namespace Memory

variable {Code : Type} {m m' : Memory Code} {key other : TrackerId × Thread}

/-- No cell belongs to open frames of two stacks. -/
def Separate (m : Memory Code) : Prop :=
  ∀ key key' cell, cell ∈ m.openCells key → cell ∈ m.openCells key' → key = key'

/-- The cells that a call takes for a frame are new, so no other stack has them. -/
theorem Separate.after (separate : m.Separate) (sound : ∀ key, m.Sound key) (works : Works key m m') :
    m'.Separate := by
  -- What other stacks have open is older than any cell that the call takes.
  have old : ∀ other ≠ key, ∀ cell ∈ m'.openCells other, cell ∈ m.openCells other := by
    intro other ne cell member
    rwa [openCells, works.others other ne] at member
  have apart : ∀ other ≠ key, ∀ cell ∈ m'.openCells other, cell ∉ m'.openCells key := by
    intro other ne cell member own
    have known := old other ne cell member
    rcases works.opened cell own with before | new
    · exact ne (separate other key cell known before)
    · exact Nat.not_lt_of_le new ((sound other).valid cell known)
  intro first second cell here there
  by_cases own : first = key
  · by_cases own' : second = key
    · exact own.trans own'.symm
    · exact absurd (own ▸ here) (apart second own' cell there)
  · by_cases own' : second = key
    · exact absurd (own' ▸ there) (apart first own cell here)
    · exact separate first second cell (old first own cell here) (old second own' cell there)

theorem Made.separate (made : Made m) : m.Separate := by
  induction made with
  | empty => exact fun _ _ _ member => nomatch member
  | newObject _ _ ih => exact ih
  | newRecord _ _ _ ih => exact ih
  | modifyRecord _ _ _ ih => exact ih
  | newCell _ _ _ ih => exact ih
  | write _ _ _ ih => exact ih
  | openFrame key owner method made ih => exact ih.after made.sound (.openFrame (made.sound key) owner method)
  | closeFrame key made ih => exact ih.after made.sound (.closeFrame (made.sound key))
  | track key name value made ih => exact ih.after made.sound (.track (made.sound key) name value)

/-- A call leaves the frames of all other stacks alone, of other threads and of other trackers. -/
theorem Works.undisturbed (works : Works key m m') (made : m.Made) (ne : other ≠ key) : Undisturbed other m m' where
  frames := by rw [works.others other ne]
  cells cell member := works.cells cell ((made.sound other).valid cell member) fun own =>
    ne (made.separate other key cell member own)
  sound sound := sound.congr (works.others other ne) works.size

/-- A write shows in the innermost frame, and in no other one. -/
theorem track_pictures (sound : m.Sound key) {frame : Frame Code} {rest : List (Frame Code)}
    (frames : (m.stack key).toList = frame :: rest) {name : String} (named : name ≠ "") (value : Object Code) :
    ∃ m' p below, m.track key name value = (.ok (), m') ∧ m.pictures key = p :: below ∧
      m'.pictures key = p.write name value :: below := by
  obtain ⟨m₀, _, opened⟩ := sound.opened frames
  obtain ⟨m', tracked, written⟩ := track_opened opened named value
  exact ⟨m', _, _, tracked, opened.pictures, written.pictures⟩

/-- The frames that are open, the outermost first. -/
def framesUp (m : Memory Code) (key : TrackerId × Thread) : List (Frame Code) := (m.stack key).toList.reverse

/-- What the open frames show, the outermost first. -/
def picturesUp (m : Memory Code) (key : TrackerId × Thread) : List (Picture Code) := (m.pictures key).reverse

theorem getElem?_picturesUp {depth : Nat} {f : Frame Code} (found : (m.framesUp key)[depth]? = some f) :
    (m.picturesUp key)[depth]? = some (m.picture f.view) := by
  have same : m.picturesUp key = ((m.framesUp key).map Frame.view).map m.picture := by
    simp [picturesUp, framesUp, Memory.pictures, views]
  simp [same, found]

end Memory

/-! ## Guards that are open -/

/-- A frame that a guard opened above `depth` others is open: the frames up to it have been so ever
    since, whatever was opened, closed and written besides. -/
inductive Guard.OpenAt (t : Tracer P) (site : Site) : Guard P → Nat → World P → Prop
  | entered {owner : Option (Object P.Code)} {method : String} {params : List (String × Object P.Code)} {g : Guard P}
      {w v : World P} (made : w.memory.Made) (idle : (w.reportingOf t.name site.thread).processing = false)
      (entered : (Guard.enter (.active t) site owner method params).run w = .ok (.ok g) v) :
      OpenAt t site g (w.memory.framesUp (t.tracker.id, site.thread)).length v
  | limited {g : Guard P} {depth : Nat} {w : World P} (stands : OpenAt t site g depth w) (limit : Option UInt64) :
      OpenAt t site { g with thresholdMs := limit } depth w
  | later {g : Guard P} {depth : Nat} {w v : World P} (stands : OpenAt t site g depth w)
      (still : List.Forall₂ Frame.Continues ((w.memory.framesUp (t.tracker.id, site.thread)).take (depth + 1))
        ((v.memory.framesUp (t.tracker.id, site.thread)).take (depth + 1))) :
      OpenAt t site g depth v

namespace Guard

variable {t : Tracer P} {site : Site} {g : Guard P} {depth : Nat} {w v : World P}

/-- A guard that was handed out has opened a frame. -/
theorem opened_of_enter (accepts : t.tracker.refusedMethods = [] ∧ t.tracker.refusedVariables = [])
    (sound : w.memory.Sound (t.tracker.id, site.thread))
    (idle : (w.reportingOf t.name site.thread).processing = false) {owner : Option (Object P.Code)} {method : String}
    {params : List (String × Object P.Code)}
    (entered : (enter (.active t) site owner method params).run w = .ok (.ok g) v) :
    g = ⟨.active t, method, none⟩ ∧ Memory.Opened (t.tracker.id, site.thread) w.memory
      ⟨owner, method, (OrderedMap.ofList params).entries⟩ v.memory := by
  cases unnamed : Tracer.unnamedAt? params with
  | some position =>
    have refused : (t.entering site owner method params).run w = .ok (.error (.emptyParameter position method)) w := by
      simp [Tracer.entering, idle, unnamed]
    simp [enter, Monitor.entering, refused] at entered
  | none =>
    have named : ∀ p ∈ params, p.1 ≠ "" := by simpa [Tracer.unnamedAt?] using unnamed
    obtain ⟨m, enters, opened⟩ := Tracer.run_entering sound accepts named idle owner method
    simp only [enter, Monitor.entering, Run.run_bind, enters, Run.andThen_ok, Run.run_pure] at entered
    cases entered
    exact ⟨rfl, opened⟩

namespace OpenAt

/-- The frame of a guard is in its place, and has the method of the guard. -/
theorem frame (stands : OpenAt t site g depth w)
    (accepts : t.tracker.refusedMethods = [] ∧ t.tracker.refusedVariables = []) :
    g.monitor = .active t ∧ ∃ f, (w.memory.framesUp (t.tracker.id, site.thread))[depth]? = some f ∧
      f.view.method = g.method := by
  induction stands with
  | entered made idle entered =>
    obtain ⟨rfl, opened⟩ := opened_of_enter accepts (made.sound _) idle entered
    obtain ⟨f, frames, shows⟩ := opened.frames
    refine ⟨rfl, f, ?_, congrArg Picture.method shows⟩
    simp [Memory.framesUp, frames]
  | limited _ _ ih => exact ih
  | later _ still ih =>
    obtain ⟨monitor, f, found, method⟩ := ih
    refine ⟨monitor, ?_⟩
    have taken : (List.take (_ + 1) (Memory.framesUp _ (t.tracker.id, site.thread)))[_]? = some f :=
      (List.getElem?_take_of_lt (Nat.lt_succ_self _)).trans found
    obtain ⟨f', found', continues⟩ := exists_of_forall₂ still taken
    refine ⟨f', (List.getElem?_take_of_lt (Nat.lt_succ_self _)).symm.trans found', ?_⟩
    rw [← method]
    exact congrArg (·.getD "") continues.method

/-- A guard stays open when another one is opened, above it. -/
theorem entering (stands : OpenAt t site g depth w) (made : w.memory.Made)
    (accepts : t.tracker.refusedMethods = [] ∧ t.tracker.refusedVariables = [])
    (idle : (w.reportingOf t.name site.thread).processing = false) {owner : Option (Object P.Code)} {method : String}
    {params : List (String × Object P.Code)} {inner : Guard P}
    (entered : (enter (.active t) site owner method params).run w = .ok (.ok inner) v) :
    OpenAt t site g depth v ∧ ∃ above, depth < above ∧ OpenAt t site inner above v := by
  obtain ⟨_, f, found, _⟩ := stands.frame accepts
  have inside := (List.getElem?_eq_some_iff.mp found).1
  obtain ⟨_, opened⟩ := opened_of_enter accepts (made.sound _) idle entered
  obtain ⟨top, frames, _⟩ := opened.frames
  have higher : v.memory.framesUp (t.tracker.id, site.thread) =
      w.memory.framesUp (t.tracker.id, site.thread) ++ [top] := by
    rw [Memory.framesUp, frames, List.reverse_cons]
    rfl
  refine ⟨.later stands ?_, _, inside, .entered made idle entered⟩
  rw [higher, List.take_append_of_le_length (Nat.succ_le_of_lt inside)]
  exact List.forall₂_same.mpr fun f _ => .refl f

/-- What a guard writes under a name is accepted, and goes to the innermost frame; no other open frame
    changes, of any tracker on any thread. So it is the frame of the guard that is written if this is
    the innermost one, and if it is not, another frame is written and that of the guard stays as it
    was. -/
theorem writes_innermost (stands : OpenAt t site g depth w) (made : w.memory.Made)
    (accepts : t.tracker.refusedMethods = [] ∧ t.tracker.refusedVariables = [])
    (idle : (w.reportingOf t.name site.thread).processing = false) {name : String} (named : name ≠ "")
    (value : Object P.Code) :
    let key := (t.tracker.id, site.thread)
    ∃ v innermost below own, (g.track site name value).run w = .ok (.ok ()) v ∧
      w.memory.pictures key = innermost :: below ∧ v.memory.pictures key = innermost.write name value :: below ∧
      (∀ other ≠ key, v.memory.pictures other = w.memory.pictures other) ∧
      (w.memory.picturesUp key)[depth]? = some own ∧ own.method = g.method ∧
      (v.memory.picturesUp key)[depth]? = some (if depth = below.length then own.write name value else own) := by
  intro key
  obtain ⟨monitor, f, found, method⟩ := stands.frame accepts
  -- All that the tracker is given is the name and the value.
  obtain ⟨_, gMethod, limit⟩ := g
  obtain rfl : _ = Monitor.active t := monitor
  have own := Memory.getElem?_picturesUp found
  cases frames : (w.memory.stack key).toList with
  | nil => simp [Memory.framesUp, key, frames] at found
  | cons top rest =>
    obtain ⟨m', p, below, tracked, before, after⟩ := Memory.track_pictures (made.sound key) frames named value
    have executed := run_track (v := w) accepts.2 idle gMethod limit name value
    rw [tracked] at executed
    refine ⟨_, p, below, _, executed, before, after, ?_, own, method, ?_⟩
    · intro other ne
      have works : Memory.Works key w.memory m' := by
        have works := Memory.Works.track (made.sound key) name value
        rwa [tracked] at works
      exact (works.undisturbed made ne).pictures
    · rw [Memory.picturesUp, before, getElem?_reverse_cons] at own
      rw [Memory.picturesUp, after, getElem?_reverse_cons]
      by_cases last : depth = below.length
      · rw [if_pos last] at own
        rw [if_pos last, if_pos last, Option.some.inj own]
      · rw [if_neg last] at own
        rw [if_neg last, if_neg last, own]

end OpenAt

end Guard

/-! ## An outer guard -/

namespace Sample

/-- The frame of `outer` is open. -/
def outerFrame : World program :=
  { start with memory := (Memory.empty.openFrame (.own "tracer", "main") none "outer").2 }

/-- The frame of `inner` is open above that of `outer`. -/
def bothFrames : World program :=
  { start with memory := (outerFrame.memory.openFrame (.own "tracer", "main") none "inner").2 }

def outerGuard : Guard program := ⟨.active tracer, "outer", none⟩

theorem made_bothFrames : bothFrames.memory.Made := .openFrame _ _ _ (.openFrame _ _ _ .empty)

/-- The outer guard is open while an inner one is. -/
theorem outerGuard_openAt : Guard.OpenAt tracer site outerGuard 0 bothFrames := by
  have entered : (Guard.enter (.active tracer) site none "outer" []).run start = .ok (.ok outerGuard) outerFrame := rfl
  have inner : (Guard.enter (.active tracer) site none "inner" []).run outerFrame =
      .ok (.ok ⟨.active tracer, "inner", none⟩) bothFrames := rfl
  exact ((Guard.OpenAt.entered .empty rfl entered).entering (.openFrame _ _ _ .empty) ⟨rfl, rfl⟩ rfl inner).1

end Sample

open Sample in
/-- The outer guard writes to the inner frame. -/
theorem Guard.writes_beside : ¬ ∀ (w : World program) (g : Guard program) (depth : Nat) (name : String)
    (value : Object program.Code), OpenAt tracer site g depth w → w.memory.Made →
    (w.reportingOf "tracer" "main").processing = false → name ≠ "" →
      ∃ v own, (g.track site name value).run w = .ok (.ok ()) v ∧
        (w.memory.picturesUp (.own "tracer", "main"))[depth]? = some own ∧
        v.memory.picturesUp (.own "tracer", "main") =
          (w.memory.picturesUp (.own "tracer", "main")).set depth (own.write name value) := by
  intro own_frame
  obtain ⟨v, own, tracked, shown, written⟩ := own_frame bothFrames outerGuard 0 "x" ⟨0, .text "A-17"⟩ outerGuard_openAt
    made_bothFrames rfl (by decide)
  cases tracked
  -- The inner frame has one variable now, and was to have none.
  let size (pictures : List (Picture program.Code)) : Option Nat := pictures[1]?.map fun p => p.vars.length
  have inner : some 1 = some 0 := congrArg size written
  exact absurd inner (by decide)

open Sample in
theorem Guard.OpenAt.writes_innermost_sample :
    ∃ v, (outerGuard.track site "x" ⟨0, .text "A-17"⟩).run bothFrames = .ok (.ok ()) v ∧
      (v.memory.picturesUp (.own "tracer", "main"))[0]? = (bothFrames.memory.picturesUp (.own "tracer", "main"))[0]? := by
  obtain ⟨v, innermost, below, own, executed, before, after, _, shown, _, still⟩ :=
    outerGuard_openAt.writes_innermost made_bothFrames ⟨rfl, rfl⟩ rfl (by decide : "x" ≠ "") ⟨0, .text "A-17"⟩
  refine ⟨v, executed, ?_⟩
  cases before
  exact still.trans shown.symm

end FaultSnapshot
